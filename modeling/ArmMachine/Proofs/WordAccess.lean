import ArmMachine.Proofs.AddressDecoding
import ArmMachine.Proofs.Execution.Entries

/-! The low address bits of a word access. Memory and every device leave them out of account, each
in its own way; the instruction counter is told by its whole address, so the other three addresses
of its word belong to nobody, and a load or store that goes there stops the core. -/
namespace ArmMachine

/-- An address of the word that shows the instruction counter other than the one it is told by. -/
def MissesCounter (address : Word) : Prop :=
  address &&& ~~~3#32 = AddressMap.instructionCounter ∧ address ≠ AddressMap.instructionCounter

instance (address : Word) : Decidable (MissesCounter address) :=
  inferInstanceAs (Decidable (_ ∧ _))

/-- The same result and the same board. Where nothing answers, another address may be reported. -/
def Agrees {α : Type} (r s : Except Failure α × Board) : Prop :=
  r = s ∨ ∃ address address' b,
    r = (.error (.unmapped address), b) ∧ s = (.error (.unmapped address'), b)

section Alignment
variable (address : Word)

theorem toNat_aligned : (address &&& ~~~3#32).toNat = address.toNat / 4 * 4 :=
  Width.word.toNat_alignDown address

theorem aligned_aligned : address &&& ~~~3#32 &&& ~~~3#32 = address &&& ~~~3#32 := by
  rw [BitVec.and_assoc, BitVec.and_self]

/-- A register of four bytes is found in a window from any address of its word. -/
theorem aligned_offset (r : Region) :
    r.offset (address &&& ~~~3#32) &&& ~~~3#32 = r.offset address &&& ~~~3#32 := by
  rw [Region.offset, Region.offset, BitVec.and_assoc address, BitVec.and_comm (~~~3#32),
    ← BitVec.and_assoc, aligned_aligned]

theorem register_offset (r : Region) :
    Uart.register (r.offset (address &&& ~~~3#32)) = Uart.register (r.offset address) := by
  have shifted (w : Word) : Uart.register w = (w &&& ~~~3#32).toNat / 4 := by
    rw [Uart.register, BitVec.toNat_ushiftRight, toNat_aligned, Nat.shiftRight_eq_div_pow]
    omega
  rw [shifted, shifted, aligned_offset]

theorem load_aligned (r : Ram) : r.load (address &&& ~~~3#32) .word = r.load address .word := by
  have same : Width.word.alignDown (address &&& ~~~3#32) = Width.word.alignDown address :=
    aligned_aligned address
  rw [Ram.load, same, Ram.load]

theorem store_aligned (r : Ram) (value : Word) :
    r.store (address &&& ~~~3#32) value .word = r.store address value .word := by
  have same : Width.word.alignDown (address &&& ~~~3#32) = Width.word.alignDown address :=
    aligned_aligned address
  rw [Ram.store, same, Ram.store]

end Alignment

namespace Claimant

variable {p : StandardBoard} {address : Word} (k : Claimant)

/-- The instruction counter apart, everybody claims whole words. -/
theorem claims_aligned_iff (reached : ¬ MissesCounter address) :
    k.Claims p (address &&& ~~~3#32) .word ↔ k.Claims p address .word := by
  have low := toNat_aligned address
  cases k with
  | instructionCounter =>
    change address &&& ~~~3#32 = AddressMap.instructionCounter ↔
      address = AddressMap.instructionCounter
    constructor
    · intro word
      exact Decidable.byContradiction fun other => reached ⟨word, other⟩
    · rintro rfl
      rfl
  | memory =>
    change Width.word.start _ + 4 ≤ _ ↔ Width.word.start _ + 4 ≤ _
    simp only [Width.start, Width.bytes, low]
    omega
  | interruptController =>
    change (0x03000000 ≤ _ ∧ _ < 0x03000008) ↔ (0x03000000 ≤ _ ∧ _ < 0x03000008)
    omega
  | timer =>
    change (0x03000010 ≤ _ ∧ _ < 0x03000018) ↔ (0x03000010 ≤ _ ∧ _ < 0x03000018)
    omega
  | uart =>
    change (0x03010000 ≤ _ ∧ _ < 0x03010100) ↔ (0x03010000 ≤ _ ∧ _ < 0x03010100)
    omega

theorem read_aligned :
    k.read p (address &&& ~~~3#32) .word = k.read p address .word := by
  cases k with
  | instructionCounter => rfl
  | memory => exact congrArg (fun value => (value, p)) (load_aligned address p.core.ram)
  | interruptController =>
    simp only [read, InterruptController.read, aligned_offset]
  | timer => simp only [read, Timer.read, aligned_offset]
  | uart => simp only [read, Uart.read, Uart.readByte, register_offset]

theorem write_aligned (value : Word) :
    k.write p (address &&& ~~~3#32) value .word = k.write p address value .word := by
  cases k with
  | instructionCounter => rfl
  | memory => simp only [write, store_aligned]
  | interruptController => simp only [write, InterruptController.write, aligned_offset]
  | timer => simp only [write, Timer.write, aligned_offset]
  | uart => simp only [write, Uart.write, Uart.writeByte, register_offset]

/-- Below the windows ends memory, and none of them reaches the word of the instruction counter. -/
theorem not_claims_of_missesCounter (bounded : p.core.ram.size ≤ AddressMap.maximumRam)
    (misses : MissesCounter address) : ¬ k.Claims p address .word := by
  obtain ⟨word, other⟩ := misses
  have place : address.toNat / 4 * 4 = 0x03000020 := by
    rw [← toNat_aligned, word]
    rfl
  intro claims
  cases k with
  | instructionCounter => exact other claims
  | memory =>
    have below := lt_of_inside bounded claims
    omega
  | interruptController =>
    have window : 0x03000000 ≤ address.toNat ∧ address.toNat < 0x03000008 := claims
    omega
  | timer =>
    have window : 0x03000010 ≤ address.toNat ∧ address.toNat < 0x03000018 := claims
    omega
  | uart =>
    have window : 0x03010000 ≤ address.toNat ∧ address.toNat < 0x03010100 := claims
    omega

end Claimant

namespace StandardBoard

variable {p : StandardBoard} {address : Word}

/-- Claimants that claim both addresses alike and answer alike agree, in any order. -/
theorem ask_agrees {α : Type} {address' : Word} {width : Width}
    {answer answer' : Claimant → α × StandardBoard}
    (claims : ∀ k : Claimant, k.Claims p address width ↔ k.Claims p address' width)
    (answers : ∀ k, answer k = answer' k) (order : List Claimant) :
    Agrees (p.ask address width answer order) (p.ask address' width answer' order) := by
  induction order with
  | nil => exact .inr ⟨address, address', p.toBoard, rfl, rfl⟩
  | cons k rest ih =>
    by_cases claimed : k.Claims p address width
    · left
      rw [ask_cons_of_claims claimed, ask_cons_of_claims ((claims k).mp claimed), answers]
    · rw [ask_cons_of_not claimed, ask_cons_of_not fun other => claimed ((claims k).mpr other)]
      exact ih

theorem read_agrees (reached : ¬ MissesCounter address) :
    Agrees (p.toBoard.physicalReadStep (address &&& ~~~3#32) .word)
      (p.toBoard.physicalReadStep address .word) := by
  rw [physicalReadStep_toBoard, physicalReadStep_toBoard]
  exact ask_agrees (fun k => k.claims_aligned_iff reached) (fun k => k.read_aligned) busOrder

theorem write_agrees (reached : ¬ MissesCounter address) (value : Word) :
    Agrees (p.toBoard.physicalWriteStep (address &&& ~~~3#32) value .word)
      (p.toBoard.physicalWriteStep address value .word) := by
  rw [physicalWriteStep_toBoard, physicalWriteStep_toBoard]
  exact ask_agrees (fun k => k.claims_aligned_iff reached)
    (fun k => congrArg (Prod.mk ()) (k.write_aligned value)) busOrder

end StandardBoard

namespace Board

variable {b b' done fetched looked : Board} {word : Word}

/-- The devices are the standard ones, all of them enabled. -/
def HasStandardDevices (b : Board) : Prop := ∃ p : StandardBoard, b = p.toBoard

theorem standard_ask {α : Type} (p : StandardBoard) (address : Word) (width : Width)
    (answer : Claimant → α × StandardBoard) (order : List Claimant) :
    (p.ask address width answer order).2.HasStandardDevices := by
  induction order with
  | nil => exact ⟨p, rfl⟩
  | cons k rest ih =>
    by_cases claimed : k.Claims p address width
    · rw [StandardBoard.ask_cons_of_claims claimed]
      exact ⟨_, rfl⟩
    · rw [StandardBoard.ask_cons_of_not claimed]
      exact ih

theorem standard_mapCore (f : Core → Core) (standard : b.HasStandardDevices) :
    (b.mapCore f).HasStandardDevices := by
  obtain ⟨p, rfl⟩ := standard
  exact ⟨{ p with core := f p.core }, rfl⟩

theorem standard_translateStep (v : Word) (access : Access) (standard : b.HasStandardDevices) :
    (b.translateStep v access).2.HasStandardDevices := by
  obtain ⟨p, rfl⟩ := standard
  exact ⟨{ p with core := (p.toBoard.translateStep v access).2.core }, rfl⟩

/-- Fetching does not take the devices away, even from the window of one. -/
theorem standard_fetchNext {result : Except Failure Word} (read : b.fetchNext = (result, fetched))
    (standard : b.HasStandardDevices) : fetched.HasStandardDevices := by
  let kept : Contract := .always fun b b' => b.HasStandardDevices → b'.HasStandardDevices
  have sequential : kept.Sequential :=
    Contract.always_sequential (fun _ => id) fun first next => next ∘ first
  have fetches := (b.mapCore .beginStep).admits_fetch (c := kept) b.core.registers.pc sequential
    (fun b v access => Contract.always_admits.mpr (standard_translateStep v access))
    fun b address width => Contract.always_admits.mpr fun standard => by
      obtain ⟨p, rfl⟩ := standard
      rw [StandardBoard.physicalReadStep_toBoard]
      exact standard_ask p address width _ _
  rw [run_fetchNext, read] at fetches
  exact Contract.always_admits.mp fetches (standard_mapCore _ standard)

/-- A load or store of one word, with the physical address that its own is translated to and the
board once that has been looked up. -/
def SingleTransfer (b : Board) (i : Instruction) (physical : Word) (looked : Board) : Prop :=
  let plan := i.transferPlan b.core.registers (i.transferOffset b.core.registers)
  (i.shape = .transferImmediate ∨ i.shape = .transferRegister) ∧ i.variant = false ∧
    b.translateStep plan.address (.data (!i.loads) plan.privileged .word) = (.ok physical, looked)

section Transfer
variable {i : Instruction} {p : StandardBoard} {physical : Word}

/-- The claimants of that address are asked, and then there are only registers to update. -/
theorem singleTransfer_asks (single : b.SingleTransfer i physical p.toBoard) :
    ∃ (α : Type) (access : Action α) (finish : α → RegisterFile → RegisterFile)
      (answer : Claimant → α × StandardBoard),
      b.run i.execute = b.run (access >>= fun a => modifyRegisters (finish a)) ∧
        b.run access = p.ask physical .word answer StandardBoard.busOrder := by
  obtain ⟨shape, whole, translated⟩ := single
  have transfers : b.run i.execute = b.run i.transfer := by
    unfold Instruction.execute
    obtain shape | shape := shape <;> rw [shape]
  have goes {α : Type} (next : Word → Action α) := run_bind_ok (f := next)
    ((b.run_translate _ _).trans translated)
  rw [transfers, Instruction.transfer, run_bind_ok (run_getRegisters b)]
  dsimp only
  rw [Instruction.transferWidth, whole]
  cases loads : i.loads with
  | true =>
    rw [loads] at goes
    have asks := (goes fun address => physicalRead address .word).trans
      ((run_physicalRead _ _ _).trans (p.physicalReadStep_toBoard physical .word))
    exact ⟨Word, _, _, _, rfl, asks⟩
  | false =>
    rw [loads] at goes
    have asks (value : Word) := (goes fun address => physicalWrite address value .word).trans
      ((run_physicalWrite _ _ _ _).trans (p.physicalWriteStep_toBoard physical value .word))
    exact ⟨Unit, _, fun _ => _, _, run_bind_ok (run_getRegisters b), asks _⟩

/-- Where somebody answers, a load or store is carried out to its end. -/
theorem singleTransfer_of_claims (single : b.SingleTransfer i physical p.toBoard) {k : Claimant}
    (claims : k.Claims p physical .word) : ∃ done, b.run i.execute = (.ok (), done) := by
  obtain ⟨α, access, finish, answer, run, asks⟩ := singleTransfer_asks single
  have asked : k ∈ StandardBoard.busOrder := by cases k <;> decide
  obtain ⟨first, -, answered⟩ := StandardBoard.answered_of_claims claims asked answer
  rw [answered] at asks
  exact ⟨_, run.trans (run_bind_ok asks)⟩

/-- Where nobody answers, it fails for want of a mapping. -/
theorem singleTransfer_of_unclaimed (single : b.SingleTransfer i physical p.toBoard)
    (unclaimed : ∀ k : Claimant, ¬ k.Claims p physical .word) :
    b.run i.execute = (.error (.unmapped physical), p.toBoard) := by
  obtain ⟨α, access, finish, answer, run, asks⟩ := singleTransfer_asks single
  rw [StandardBoard.ask_of_unclaimed unclaimed] at asks
  exact run.trans (run_bind_error asks)

end Transfer

/-- The next step carries out a load or store of one word at a physical address. Its own address may
well be misaligned where alignment is not checked. -/
def TransfersWord (b : Board) (physical : Word) : Prop :=
  ∃ word fetched looked, b.fetchNext = (.ok word, fetched) ∧
    (fetched.accept word).passes word = true ∧
    (fetched.accept word).SingleTransfer ⟨word⟩ physical looked

/-- Between the fetch and the access neither devices nor memory are lost. -/
theorem standard_of_transfer {p : StandardBoard} {i : Instruction} {physical : Word}
    (read : p.toBoard.fetchNext = (.ok word, fetched))
    (single : (fetched.accept word).SingleTransfer i physical looked) :
    ∃ q : StandardBoard, looked = q.toBoard ∧ q.core.ram = p.core.ram := by
  have fetches := standard_mapCore (fun c => c.acceptFetch ⟨word⟩)
    (standard_fetchNext read ⟨p, rfl⟩)
  have translated := single.2.2
  generalize i.transferPlan _ _ = plan at translated
  have standard := standard_translateStep plan.address
    (.data (!i.loads) plan.privileged .word) fetches
  have ram := ((fetched.accept word).translateStep_readChange plan.address
    (.data (!i.loads) plan.privileged .word)).ram
  change ((fetched.accept word).translateStep _ _).2.HasStandardDevices at standard
  rw [translated] at standard ram
  obtain ⟨q, rfl⟩ := standard
  exact ⟨q, rfl, ram.trans (fetchNext_readChange read).ram⟩

end Board

namespace StandardBoard

open Claimant (not_claims_of_missesCounter)

variable {p q : StandardBoard} {address : Word}

theorem claims_of_ram (same : q.core.ram = p.core.ram) (k : Claimant) (width : Width) :
    k.Claims q address width ↔ k.Claims p address width := by
  cases k with
  | memory =>
    change q.core.ram.Inside address width ↔ p.core.ram.Inside address width
    rw [same]
  | _ => exact Iff.rfl

/-- A load or store of a word that is mapped stops the core at the three addresses of the counter's
word that nobody answers, and nowhere else. -/
theorem step_of_transfersWord (running : p.core.runState = .running)
    (transfers : p.toBoard.TransfersWord address)
    (mapped : ∃ k : Claimant, k.Claims p (address &&& ~~~3#32) .word) (trace : Bool) :
    if MissesCounter address then
      p.core.ram.size ≤ AddressMap.maximumRam →
        (p.toBoard.step trace).result = .error (.unmapped address) ∧
          (p.toBoard.step trace).board.core.runState = .halted (.unmapped address)
    else ∃ outcome, (p.toBoard.step trace).result = .ok outcome := by
  obtain ⟨word, fetched, looked, read, due, single⟩ := transfers
  obtain ⟨q, rfl, ram⟩ := Board.standard_of_transfer read single
  split
  · rename_i misses
    intro bounded
    have limit : q.core.ram.size ≤ AddressMap.maximumRam := ram ▸ bounded
    have run := Board.singleTransfer_of_unclaimed single fun k =>
      not_claims_of_missesCounter k limit misses
    obtain ⟨result, board⟩ := Board.step_of_fatal trace read due running rfl run
    refine ⟨result, ?_⟩
    rw [board]
    rfl
  · rename_i reached
    obtain ⟨k, claims⟩ := mapped
    have whole := (k.claims_aligned_iff reached).mp claims
    obtain ⟨done, run⟩ := Board.singleTransfer_of_claims single
      ((claims_of_ram ram k .word).mpr whole)
    exact Board.step_of_run trace read due run

/-- Word accesses ignore the low two address bits, but for the instruction counter: at the other
three addresses of its word nobody answers, so that a load or store that goes there stops the core.
-/
theorem word_access_ignores_low_bits (p : StandardBoard) (address value : Word) :
    let aligned := address &&& ~~~3#32
    (¬ MissesCounter address →
      Agrees (p.toBoard.physicalReadStep aligned .word)
          (p.toBoard.physicalReadStep address .word) ∧
        Agrees (p.toBoard.physicalWriteStep aligned value .word)
          (p.toBoard.physicalWriteStep address value .word)) ∧
    (p.core.ram.size ≤ AddressMap.maximumRam → MissesCounter address →
      p.toBoard.physicalReadStep aligned .word = (.ok p.core.instructionCount, p.toBoard) ∧
        p.toBoard.physicalReadStep address .word = (.error (.unmapped address), p.toBoard) ∧
        p.toBoard.physicalWriteStep aligned value .word = (.ok (), p.toBoard) ∧
        p.toBoard.physicalWriteStep address value .word =
          (.error (.unmapped address), p.toBoard)) ∧
    ∀ trace, p.core.runState = .running → p.toBoard.TransfersWord address →
      (∃ k : Claimant, k.Claims p aligned .word) →
      if MissesCounter address then
        p.core.ram.size ≤ AddressMap.maximumRam →
          (p.toBoard.step trace).result = .error (.unmapped address) ∧
            (p.toBoard.step trace).board.core.runState = .halted (.unmapped address)
      else ∃ outcome, (p.toBoard.step trace).result = .ok outcome := by
  refine ⟨fun reached => ⟨read_agrees reached, write_agrees reached value⟩,
    fun bounded misses => ?_, fun trace running transfers mapped =>
      step_of_transfersWord running transfers mapped trace⟩
  have nobody := fun k => not_claims_of_missesCounter (p := p) k bounded misses
  have shown : p.core.instructionCount &&& Width.word.valueMask = p.core.instructionCount :=
    DeviceTable.and_valueMask_word _
  refine ⟨?_, ?_, ?_, ?_⟩
  · rw [Board.physicalReadStep_counter misses.1]
    exact congrArg (fun count => (Except.ok count, p.toBoard)) shown
  · rw [physicalReadStep_toBoard]
    exact ask_of_unclaimed nobody
  · exact Board.physicalWriteStep_counter misses.1
  · rw [physicalWriteStep_toBoard]
    exact ask_of_unclaimed nobody

/-- A core in user mode, about to load a word from where register 1 points. -/
def loadsFrom (address : Word) : StandardBoard where
  core :=
    { Core.ofConfig .bareMetal with
      registers := ((Core.ofConfig .bareMetal).registers.setCurrent ⟨0x10⟩).write .r1 address
      ram := (Ram.mk ⟨Array.replicate 16 0⟩).store 0 0xE5910000 .word
      instructionCount := 42 }
  controller := .initial
  timer := .ofInterval 100
  uart := .initial

/-- The count of the timer may be read from the last byte of its word, but not that of instructions
from the second of its own: that stops a core even in user mode. -/
theorem word_access_ignores_low_bits_counter :
    let p := loadsFrom 0x03000021
    let q := loadsFrom 0x03000013
    p.toBoard.physicalReadStep 0x03000020 .word = (.ok 42, p.toBoard) ∧
      p.toBoard.physicalReadStep 0x03000021 .word =
        (.error (.unmapped 0x03000021), p.toBoard) ∧
      (p.toBoard.step false).result = .error (.unmapped 0x03000021) ∧
      Agrees (q.toBoard.physicalReadStep 0x03000010 .word)
        (q.toBoard.physicalReadStep 0x03000013 .word) ∧
      ∃ outcome, (q.toBoard.step false).result = .ok outcome := by
  intro p q
  have small : ∀ address, (loadsFrom address).core.ram.size ≤ AddressMap.maximumRam := by
    intro address
    change 16 ≤ _
    decide
  have loads : (loadsFrom 0x03000021).toBoard.TransfersWord 0x03000021 :=
    ⟨0xE5910000, (loadsFrom 0x03000021).toBoard.fetchNext.2, _, rfl, rfl, .inl rfl, rfl, rfl⟩
  have loads' : (loadsFrom 0x03000013).toBoard.TransfersWord 0x03000013 :=
    ⟨0xE5910000, (loadsFrom 0x03000013).toBoard.fetchNext.2, _, rfl, rfl, .inl rfl, rfl, rfl⟩
  obtain ⟨-, missed, stops⟩ := word_access_ignores_low_bits p 0x03000021 0
  obtain ⟨agrees, -, continues⟩ := word_access_ignores_low_bits q 0x03000013 0
  have misses : MissesCounter 0x03000021 := by decide
  have reached : ¬ MissesCounter 0x03000013 := by decide
  obtain ⟨shown, unread, -⟩ := missed (small _) misses
  have halted := stops false rfl loads ⟨.instructionCounter, rfl⟩
  have retired := continues false rfl loads' ⟨.timer, by decide⟩
  rw [if_pos misses] at halted
  rw [if_neg reached] at retired
  exact ⟨shown, unread, (halted (small _)).1, (agrees reached).1, retired⟩

end StandardBoard
end ArmMachine
