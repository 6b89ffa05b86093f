import ArmMachine.Machine
import ArmMachine.Proofs.Device.Latching
import ArmMachine.Proofs.LittleEndian

/-! Who answers an access on the standard machine. Memory claims the aligned range of an access, the
instruction counter and the devices claim its address as it stands; with memory of any size that a
core can be built with, at most one of them claims, so they may be asked in any order. -/
namespace ArmMachine

namespace Region

/-- The address lies between the base of the window and its end. -/
def Spans (r : Region) (address : Word) : Prop :=
  r.base.toNat ≤ address.toNat ∧ address.toNat < r.base.toNat + r.size.toNat

instance (r : Region) (address : Word) : Decidable (r.Spans address) :=
  inferInstanceAs (Decidable (_ ∧ _))

/-- The mask of a window that is as long as it is aligned selects the addresses in it. -/
theorem contains_iff_spans {r : Region} {k : Nat}
    (keeps : ∀ i < 32, r.mask.getLsbD i = decide (k ≤ i)) (size : r.size.toNat = 2 ^ k)
    (aligned : 2 ^ k ∣ r.base.toNat) (address : Word) :
    r.contains address = true ↔ r.Spans address := by
  have clears : ∀ i < 32, (~~~(~~~r.mask)).getLsbD i = decide (k ≤ i) := by
    rw [BitVec.not_not]
    exact keeps
  have masked := toNat_and_not_of_clears clears address
  rw [BitVec.not_not, Nat.shiftRight_eq_div_pow, Nat.shiftLeft_eq] at masked
  have same : r.contains address = true ↔ address.toNat / 2 ^ k * 2 ^ k = r.base.toNat := by
    rw [contains, decide_eq_true_iff, ← masked]
    exact BitVec.toNat_inj.symm
  rw [same, Spans, size]
  constructor
  · intro base
    rw [← base]
    exact ⟨Nat.div_mul_le_self _ _, Nat.lt_div_mul_add (Nat.two_pow_pos k)⟩
  · rintro ⟨low, high⟩
    obtain ⟨q, base⟩ := aligned
    rw [base, Nat.mul_comm] at low high ⊢
    have block : address.toNat / 2 ^ k = q := by
      refine Nat.div_eq_of_lt_le low ?_
      rwa [Nat.succ_mul]
    rw [block]

theorem contains_interruptController_iff (address : Word) :
    interruptController.contains address = true ↔ interruptController.Spans address :=
  contains_iff_spans (k := 3) (by decide) (by decide) (by decide) address

theorem contains_timer_iff (address : Word) :
    timer.contains address = true ↔ timer.Spans address :=
  contains_iff_spans (k := 3) (by decide) (by decide) (by decide) address

theorem contains_uart_iff (address : Word) :
    uart.contains address = true ↔ uart.Spans address :=
  contains_iff_spans (k := 8) (by decide) (by decide) (by decide) address

end Region

theorem DeviceTable.claims_ofParts (c : InterruptController) (t : Timer) (u : Uart)
    (address : Word) :
    (ofParts c t u).claims address = true ↔
      Region.interruptController.contains address = true ∨ Region.timer.contains address = true ∨
        Region.uart.contains address = true := by
  simp [claims, ofParts, DeviceEntry.claims]

/-- A core with the standard devices, all of them enabled. -/
structure StandardBoard where
  core : Core
  controller : InterruptController
  timer : Timer
  uart : Uart

def StandardBoard.toBoard (p : StandardBoard) : Board :=
  ⟨p.core, .ofParts p.controller p.timer p.uart⟩

/-- Who may answer an access. -/
inductive Claimant where
  | instructionCounter | memory | interruptController | timer | uart
  deriving DecidableEq

namespace Claimant

/-- Memory goes by the aligned range of the access, everybody else by the address itself. -/
def Claims (p : StandardBoard) (address : Word) (width : Width) : Claimant → Prop
  | instructionCounter => address = AddressMap.instructionCounter
  | memory => p.core.ram.Inside address width
  | interruptController => Region.interruptController.Spans address
  | timer => Region.timer.Spans address
  | uart => Region.uart.Spans address

instance (p : StandardBoard) (address : Word) (width : Width) (k : Claimant) :
    Decidable (k.Claims p address width) :=
  match k with
  | instructionCounter => inferInstanceAs (Decidable (_ = _))
  | memory => inferInstanceAs (Decidable (p.core.ram.Inside address width))
  | interruptController => inferInstanceAs (Decidable (Region.interruptController.Spans address))
  | timer => inferInstanceAs (Decidable (Region.timer.Spans address))
  | uart => inferInstanceAs (Decidable (Region.uart.Spans address))

/-- What a claimant answers when it alone is asked, and the board afterwards. -/
def read (p : StandardBoard) (address : Word) (width : Width) : Claimant → Word × StandardBoard
  | instructionCounter => (p.core.instructionCount &&& width.valueMask, p)
  | memory => (p.core.ram.load address width, p)
  | interruptController =>
    (p.controller.read (Region.interruptController.offset address) &&& width.valueMask, p)
  | timer => (p.timer.read (Region.timer.offset address) &&& width.valueMask, p)
  | uart =>
    let (value, u) := p.uart.read (Region.uart.offset address)
    (value &&& width.valueMask, { p with uart := u })

/-- The board after a claimant alone was given a value. -/
def write (p : StandardBoard) (address value : Word) (width : Width) : Claimant → StandardBoard
  | instructionCounter => p
  | memory => { p with core := { p.core with ram := p.core.ram.store address value width } }
  | interruptController =>
    { p with
      controller := p.controller.write (Region.interruptController.offset address)
        (value &&& width.valueMask) }
  | timer =>
    { p with timer := p.timer.write (Region.timer.offset address) (value &&& width.valueMask) }
  | uart => { p with uart := p.uart.write (Region.uart.offset address) (value &&& width.valueMask) }

/-- The only claimant that an address can belong to. -/
def owner? (n : Nat) : Option Claimant :=
  if n < 0x03000000 then some memory
  else if n < 0x03000008 then some interruptController
  else if 0x03000010 ≤ n ∧ n < 0x03000018 then some timer
  else if n = 0x03000020 then some instructionCounter
  else if 0x03010000 ≤ n ∧ n < 0x03010100 then some uart
  else none

section Unique
variable {p : StandardBoard} {address : Word} {width : Width} {k k' : Claimant}

/-- The first window is aligned to every width, so a range below it has no address in or past it. -/
theorem lt_of_inside (bounded : p.core.ram.size ≤ AddressMap.maximumRam)
    (inside : p.core.ram.Inside address width) : address.toNat < 0x03000000 := by
  have limit : AddressMap.maximumRam = 0x03000000 := rfl
  rw [Ram.Inside, Width.start] at inside
  cases width <;> simp only [Width.bytes] at inside <;> omega

theorem owner?_of_claims (bounded : p.core.ram.size ≤ AddressMap.maximumRam)
    (claims : k.Claims p address width) : owner? address.toNat = some k := by
  cases k with
  | instructionCounter =>
    have here : address = AddressMap.instructionCounter := claims
    rw [here]
    decide
  | memory => exact if_pos (lt_of_inside bounded claims)
  | interruptController =>
    have window : 0x03000000 ≤ address.toNat ∧ address.toNat < 0x03000008 := claims
    rw [owner?, if_neg (by omega), if_pos window.2]
  | timer =>
    have window : 0x03000010 ≤ address.toNat ∧ address.toNat < 0x03000018 := claims
    rw [owner?, if_neg (by omega), if_neg (by omega), if_pos window]
  | uart =>
    have window : 0x03010000 ≤ address.toNat ∧ address.toNat < 0x03010100 := claims
    rw [owner?, if_neg (by omega), if_neg (by omega), if_neg (by omega), if_neg (by omega),
      if_pos window]

theorem eq_of_claims (bounded : p.core.ram.size ≤ AddressMap.maximumRam)
    (claims : k.Claims p address width) (claims' : k'.Claims p address width) : k = k' :=
  Option.some.inj ((owner?_of_claims bounded claims).symm.trans (owner?_of_claims bounded claims'))

end Unique
end Claimant

namespace StandardBoard

/-- The order in which the bus asks. -/
def busOrder : List Claimant := [.instructionCounter, .memory, .interruptController, .timer, .uart]

/-- Asks some claimants one after the other. The first that claims the access answers. -/
def ask {α : Type} (p : StandardBoard) (address : Word) (width : Width)
    (answer : Claimant → α × StandardBoard) : List Claimant → Except Failure α × Board
  | [] => (.error (.unmapped address), p.toBoard)
  | k :: rest =>
    if k.Claims p address width then (.ok (answer k).1, (answer k).2.toBoard)
    else p.ask address width answer rest

/-- Reads from the first of some claimants that claims the access. -/
def readFrom (p : StandardBoard) (address : Word) (width : Width) :
    List Claimant → Except Failure Word × Board :=
  p.ask address width fun k => k.read p address width

/-- Writes to the first of some claimants that claims the access. -/
def writeTo (p : StandardBoard) (address value : Word) (width : Width) :
    List Claimant → Except Failure Unit × Board :=
  p.ask address width fun k => ((), k.write p address value width)

section Ask
variable {α : Type} {p : StandardBoard} {address : Word} {width : Width} {k : Claimant}
  {answer : Claimant → α × StandardBoard} {order order' : List Claimant}

theorem ask_cons_of_claims (claims : k.Claims p address width) (rest : List Claimant) :
    p.ask address width answer (k :: rest) = (.ok (answer k).1, (answer k).2.toBoard) :=
  if_pos claims

theorem ask_cons_of_not (other : ¬ k.Claims p address width) (rest : List Claimant) :
    p.ask address width answer (k :: rest) = p.ask address width answer rest := if_neg other

/-- Where one of those asked claims the access, the first that does answers. -/
theorem answered_of_claims (claims : k.Claims p address width) (asked : k ∈ order)
    (answer : Claimant → α × StandardBoard) :
    ∃ first : Claimant, first.Claims p address width ∧
      p.ask address width answer order = (.ok (answer first).1, (answer first).2.toBoard) := by
  induction order with
  | nil => cases asked
  | cons first rest ih =>
    by_cases claimed : first.Claims p address width
    · exact ⟨first, claimed, ask_cons_of_claims claimed rest⟩
    · obtain rfl | later := List.mem_cons.mp asked
      · exact absurd claims claimed
      · rw [ask_cons_of_not claimed]
        exact ih later

theorem ask_of_claims (bounded : p.core.ram.size ≤ AddressMap.maximumRam)
    (claims : k.Claims p address width) (asked : k ∈ order) :
    p.ask address width answer order = (.ok (answer k).1, (answer k).2.toBoard) := by
  obtain ⟨first, claimed, answered⟩ := answered_of_claims claims asked answer
  obtain rfl := Claimant.eq_of_claims bounded claimed claims
  exact answered

theorem ask_of_unclaimed (unclaimed : ∀ k, ¬ Claimant.Claims p address width k) :
    p.ask address width answer order = (.error (.unmapped address), p.toBoard) := by
  induction order with
  | nil => rfl
  | cons first rest ih => rw [ask_cons_of_not (unclaimed first), ih]

/-- At most one of them claims the access, so the order makes no difference. -/
theorem ask_eq_ask (bounded : p.core.ram.size ≤ AddressMap.maximumRam)
    (complete : ∀ k, k ∈ order) (complete' : ∀ k, k ∈ order') :
    p.ask address width answer order = p.ask address width answer order' := by
  by_cases owned : ∃ k, Claimant.Claims p address width k
  · obtain ⟨k, claims⟩ := owned
    rw [ask_of_claims bounded claims (complete k), ask_of_claims bounded claims (complete' k)]
  · have unclaimed := not_exists.mp owned
    rw [ask_of_unclaimed unclaimed, ask_of_unclaimed unclaimed]

theorem ask_unmapped_iff (bounded : p.core.ram.size ≤ AddressMap.maximumRam)
    (complete : ∀ k, k ∈ order) :
    (p.ask address width answer order).1 = .error (.unmapped address) ↔
      ∀ k, ¬ Claimant.Claims p address width k := by
  constructor
  · intro failed k claims
    rw [ask_of_claims bounded claims (complete k)] at failed
    cases failed
  · intro unclaimed
    rw [ask_of_unclaimed unclaimed]

end Ask

/-- The bus reads from the first claimant in its own order. -/
theorem physicalReadStep_toBoard (p : StandardBoard) (address : Word) (width : Width) :
    p.toBoard.physicalReadStep address width = p.readFrom address width busOrder := by
  have shown := DeviceTable.read_ofParts p.controller p.timer p.uart address width
  simp only [Region.contains_interruptController_iff, Region.contains_timer_iff,
    Region.contains_uart_iff] at shown
  rw [readFrom, busOrder]
  by_cases counter : Claimant.instructionCounter.Claims p address width
  · rw [ask_cons_of_claims counter]
    exact Board.physicalReadStep_counter counter
  rw [ask_cons_of_not counter]
  by_cases memory : Claimant.memory.Claims p address width
  · rw [ask_cons_of_claims memory]
    have reaches : p.toBoard.ReachesMemory address width := ⟨counter, memory⟩
    exact Board.physicalReadStep_of_reachesMemory reaches
  have outside : p.toBoard.core.ram.read? address width = none :=
    if_neg fun covered => memory (Ram.covers_iff.mp covered)
  rw [ask_cons_of_not memory]
  by_cases controller : Region.interruptController.Spans address
  · rw [if_pos controller] at shown
    rw [ask_cons_of_claims (k := .interruptController) controller]
    exact Board.physicalReadStep_device counter outside shown
  rw [if_neg controller] at shown
  rw [ask_cons_of_not (k := .interruptController) controller]
  by_cases timer : Region.timer.Spans address
  · rw [if_pos timer] at shown
    rw [ask_cons_of_claims (k := .timer) timer]
    exact Board.physicalReadStep_device counter outside shown
  rw [if_neg timer] at shown
  rw [ask_cons_of_not (k := .timer) timer]
  by_cases uart : Region.uart.Spans address
  · rw [if_pos uart] at shown
    rw [ask_cons_of_claims (k := .uart) uart]
    exact Board.physicalReadStep_device counter outside shown
  · rw [if_neg uart] at shown
    rw [ask_cons_of_not (k := .uart) uart]
    exact Board.physicalReadStep_unclaimed counter outside shown

/-- The bus writes to the first claimant in its own order. -/
theorem physicalWriteStep_toBoard (p : StandardBoard) (address value : Word) (width : Width) :
    p.toBoard.physicalWriteStep address value width = p.writeTo address value width busOrder := by
  have written := DeviceTable.write_ofParts p.controller p.timer p.uart address value width
  have claimed := DeviceTable.claims_ofParts p.controller p.timer p.uart address
  simp only [Region.contains_interruptController_iff, Region.contains_timer_iff,
    Region.contains_uart_iff] at written claimed
  rw [writeTo, busOrder]
  by_cases counter : Claimant.instructionCounter.Claims p address width
  · rw [ask_cons_of_claims counter]
    exact Board.physicalWriteStep_counter counter
  rw [ask_cons_of_not counter]
  by_cases memory : Claimant.memory.Claims p address width
  · rw [ask_cons_of_claims memory]
    have reaches : p.toBoard.ReachesMemory address width := ⟨counter, memory⟩
    exact Board.physicalWriteStep_of_reachesMemory reaches value
  have outside : ¬ p.toBoard.core.ram.covers address width = true :=
    fun covered => memory (Ram.covers_iff.mp covered)
  have taken (devices : DeviceTable) (claims : p.toBoard.devices.claims address = true)
      (result : p.toBoard.devices.write address value width = devices) :
      p.toBoard.physicalWriteStep address value width = (.ok (), ⟨p.core, devices⟩) := by
    rw [Board.physicalWriteStep_device counter outside claims, result]
    rfl
  rw [ask_cons_of_not memory]
  by_cases controller : Region.interruptController.Spans address
  · rw [if_pos controller] at written
    rw [ask_cons_of_claims (k := .interruptController) controller]
    exact taken _ (claimed.mpr (.inl controller)) written
  rw [if_neg controller] at written
  rw [ask_cons_of_not (k := .interruptController) controller]
  by_cases timer : Region.timer.Spans address
  · rw [if_pos timer] at written
    rw [ask_cons_of_claims (k := .timer) timer]
    exact taken _ (claimed.mpr (.inr (.inl timer))) written
  rw [if_neg timer] at written
  rw [ask_cons_of_not (k := .timer) timer]
  by_cases uart : Region.uart.Spans address
  · rw [if_pos uart] at written
    rw [ask_cons_of_claims (k := .uart) uart]
    exact taken _ (claimed.mpr (.inr (.inr uart))) written
  · rw [ask_cons_of_not (k := .uart) uart]
    refine Board.physicalWriteStep_unclaimed counter outside fun claims => ?_
    rcases claimed.mp claims with inside | inside | inside
    · exact controller inside
    · exact timer inside
    · exact uart inside

/-- With memory of any size that a configuration can ask for, at most one claimant claims an access;
it answers, whatever the order they are asked in, and the bus reports the address that was asked for
exactly when there is none. -/
theorem decoding_is_unambiguous (config : CoreConfig) (p : StandardBoard)
    (built : p.core.ram.size = (Core.ofConfig config).ram.size) (address value : Word)
    (width : Width) :
    (∀ k k' : Claimant, k.Claims p address width → k'.Claims p address width → k = k') ∧
      ((p.core.ram.read? address width).isSome = true ↔
        Claimant.memory.Claims p address width) ∧
      ((p.core.ram.write address value width).1 = true ↔
        Claimant.memory.Claims p address width) ∧
      (∀ k : Claimant, k.Claims p address width →
        p.toBoard.physicalReadStep address width =
            (.ok (k.read p address width).1, (k.read p address width).2.toBoard) ∧
          p.toBoard.physicalWriteStep address value width =
            (.ok (), (k.write p address value width).toBoard)) ∧
      (∀ order : List Claimant, (∀ k, k ∈ order) →
        p.readFrom address width order = p.toBoard.physicalReadStep address width ∧
          p.writeTo address value width order =
            p.toBoard.physicalWriteStep address value width) ∧
      ((p.toBoard.physicalReadStep address width).1 = .error (.unmapped address) ↔
        ∀ k, ¬ Claimant.Claims p address width k) ∧
      ((p.toBoard.physicalWriteStep address value width).1 = .error (.unmapped address) ↔
        ∀ k, ¬ Claimant.Claims p address width k) := by
  have bounded : p.core.ram.size ≤ AddressMap.maximumRam := by
    rw [built, Core.size_ofConfig]
    exact Nat.min_le_right _ _
  have all : ∀ k, k ∈ busOrder := by
    rintro ⟨⟩ <;> decide
  rw [physicalReadStep_toBoard, physicalWriteStep_toBoard]
  exact ⟨fun k k' => Claimant.eq_of_claims bounded, p.core.ram.isSome_read?_iff address width,
    p.core.ram.write_fits_iff address value width,
    fun k claims => ⟨ask_of_claims bounded claims (all k), ask_of_claims bounded claims (all k)⟩,
    fun order complete => ⟨ask_eq_ask bounded complete all, ask_eq_ask bounded complete all⟩,
    ask_unmapped_iff bounded all, ask_unmapped_iff bounded all⟩

/-- A machine that is asked to have more memory than fits below the devices. -/
def wideSettings : Settings :=
  { Settings.standard with core := ⟨.bareMetal, 0x04000000, false⟩ }

/-- Its last word of memory and the first byte behind it, which is the controller's, are told apart;
behind the controller nobody answers. -/
theorem decoding_is_unambiguous_wide :
    let p : StandardBoard :=
      ⟨.ofConfig wideSettings.core, .initial, .ofInterval wideSettings.timerInterval, .initial⟩
    (Machine.ofSettings wideSettings).board = p.toBoard ∧
      p.core.ram.size = (Core.ofConfig wideSettings.core).ram.size ∧
      p.toBoard.physicalReadStep 0x02FFFFFF .word =
        (.ok (p.core.ram.load 0x02FFFFFF .word), p.toBoard) ∧
      p.toBoard.physicalReadStep 0x03000000 .byte = (.ok 0, p.toBoard) ∧
      p.readFrom 0x03000000 .byte busOrder.reverse = (.ok 0, p.toBoard) ∧
      (p.toBoard.physicalReadStep 0x0300000B .word).1 = .error (.unmapped 0x0300000B) ∧
      (p.toBoard.physicalWriteStep 0x0300000B 1 .word).1 = .error (.unmapped 0x0300000B) := by
  intro p
  have size : p.core.ram.size = 0x03000000 := Core.size_ofConfig _
  have last : Claimant.memory.Claims p 0x02FFFFFF .word := by
    show _ ≤ _
    rw [size]
    decide
  have outside : ¬ p.core.ram.Inside 0x0300000B .word := by
    show ¬ _ ≤ _
    rw [size]
    decide
  have nobody : ∀ k, ¬ Claimant.Claims p 0x0300000B .word k := by
    rintro (_ | _ | _ | _ | _)
    · decide
    · exact outside
    · decide
    · decide
    · decide
  have first : Claimant.interruptController.Claims p 0x03000000 .byte := by decide
  obtain ⟨-, -, -, decodes, -⟩ := decoding_is_unambiguous wideSettings.core p rfl 0x02FFFFFF 0 .word
  obtain ⟨-, -, -, decodes', ordered, -⟩ :=
    decoding_is_unambiguous wideSettings.core p rfl 0x03000000 0 .byte
  obtain ⟨-, -, -, -, -, unread, unwritten⟩ :=
    decoding_is_unambiguous wideSettings.core p rfl 0x0300000B 1 .word
  have masked : (Claimant.interruptController.read p 0x03000000 .byte).1 = 0 := by decide
  have shown := (decodes' _ first).1
  rw [masked] at shown
  have reversed := (ordered busOrder.reverse (by rintro ⟨⟩ <;> decide)).1
  exact ⟨rfl, rfl, (decodes _ last).1, shown, reversed.trans shown, unread.mpr nobody,
    unwritten.mpr nobody⟩

end StandardBoard
end ArmMachine
