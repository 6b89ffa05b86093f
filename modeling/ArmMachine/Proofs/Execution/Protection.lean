import ArmMachine.Proofs.Execution.Stages
import ArmMachine.Proofs.Paging.Writable

/-! Memory protection. While a core stays in user mode its stores reach only what the tables let
unprivileged code write. Tables that lie elsewhere then stay as they are, and with them that set. -/
namespace ArmMachine

namespace Board

/-- The tables let unprivileged code write the byte of memory at `i`. -/
def WritableAt (b : Board) (i : Nat) : Prop :=
  ∃ p : Word, p.toNat = i ∧ Tables.Writable (readDescriptor b.core.ram) b.core.mmu.control
    b.core.mmu.tableBase b.core.mmu.domains p

/-- No byte of a descriptor that a walk reads can be written by unprivileged code. -/
def ProtectsTables (b : Board) : Prop :=
  ∀ v, ∀ address ∈ (Walk.run (readDescriptor b.core.ram) b.core.mmu.tableBase v).reads, ∀ j < 4,
    ¬ b.WritableAt ((Width.word.alignDown address).toNat + j)

/-- The board has changed only what unprivileged code may change, and caches no other mapping of
data than its first tables give. -/
structure Confined (b b' : Board) : Prop where
  tables : b.core.mmu.SameTables b'.core.mmu
  size : b'.core.ram.size = b.core.ram.size
  bytes : ∀ i, ¬ b.WritableAt i → b'.core.ram.byte i = b.core.ram.byte i
  coherent : b'.core.mmu.Coherent (readDescriptor b.core.ram) .data

variable {b b' b'' : Board}

theorem Confined.congr (confined : b.Confined b')
    (tables : b'.core.mmu.SameTables b''.core.mmu)
    (cache : b''.core.mmu.cache .data = b'.core.mmu.cache .data)
    (ram : b''.core.ram = b'.core.ram) : b.Confined b'' where
  tables := confined.tables.trans tables
  size := by rw [ram, confined.size]
  bytes i kept := by rw [ram, confined.bytes i kept]
  coherent := confined.coherent.congr cache tables.tableBase tables.domains

theorem Confined.of_core (confined : b.Confined b') (mmu : b''.core.mmu = b'.core.mmu)
    (ram : b''.core.ram = b'.core.ram) : b.Confined b'' :=
  confined.congr (by rw [mmu]) (by rw [mmu]) ram

/-- As long as the tables are out of reach, every walk finds what it found at first. -/
theorem Confined.walks (confined : b.Confined b') (protects : b.ProtectsTables) (v : Word) :
    Walk.run (readDescriptor b'.core.ram) b.core.mmu.tableBase v =
      Walk.run (readDescriptor b.core.ram) b.core.mmu.tableBase v :=
  Walk.run_congr fun address read => readDescriptor_congr confined.size fun j inside =>
    confined.bytes _ (protects v address read j inside)

theorem Confined.coherent_now (confined : b.Confined b') (protects : b.ProtectsTables) :
    b'.core.mmu.Coherent (readDescriptor b'.core.ram) .data := by
  refine confined.coherent.of_walks ?_
  rw [confined.tables.tableBase]
  exact confined.walks protects

section Accesses
variable (protects : b.ProtectsTables)
include protects

theorem Confined.translateStep (confined : b.Confined b') (v : Word) (access : Access) :
    b.Confined (b'.translateStep v access).2 := by
  have answers := b'.core.mmu.translate_answers (readDescriptor b'.core.ram) v access
  have tables := confined.tables.trans answers.sameTables
  have coherent := answers.coherent (confined.coherent_now protects)
  refine ⟨tables, confined.size, confined.bytes, coherent.of_walks fun v => ?_⟩
  rw [tables.tableBase]
  exact (confined.walks protects v).symm

/-- An unprivileged write is sent only where the first tables allow it. -/
theorem Confined.writable (confined : b.Confined b') (on : b.core.mmu.enabled = true)
    {v p : Word} {width : Width}
    (translated : (b'.translateStep v (.data true false width)).1 = .ok p) :
    Tables.Writable (readDescriptor b.core.ram) b.core.mmu.control b.core.mmu.tableBase
      b.core.mmu.domains p := by
  have answers := b'.core.mmu.translate_answers (readDescriptor b'.core.ram) v
    (.data true false width)
  have same := (answers.eq_reference (confined.coherent_now protects)).1
  have answer := Mmu.reference_eq_ok_iff.mp (same.symm.trans translated)
  rw [confined.tables.control, confined.tables.tableBase, confined.tables.domains,
    Tables.translate_congr (confined.walks protects)] at answer
  exact Tables.writable_of_translate on answer

omit protects in
theorem Confined.physicalReadStep (confined : b.Confined b') (address : Word) (width : Width) :
    b.Confined (b'.physicalReadStep address width).2 := by
  have same := b'.core_physicalReadStep address width
  exact confined.of_core (by rw [same]) (by rw [same])

omit protects in
/-- A store stays within a block, and a block can be written as a whole or not at all. -/
theorem Confined.physicalWriteStep (confined : b.Confined b') (on : b.core.mmu.enabled = true)
    {address : Word}
    (writable : Tables.Writable (readDescriptor b.core.ram) b.core.mmu.control
      b.core.mmu.tableBase b.core.mmu.domains address) (value : Word) (width : Width) :
    b.Confined (b'.physicalWriteStep address value width).2 := by
  have core := b'.core_physicalWriteStep address value width
  constructor
  · rw [core]
    exact confined.tables
  · rw [core, ← confined.size]
    exact Ram.size_afterWrite _ _ _ _
  · intro i kept
    rw [core, ← confined.bytes i kept]
    refine Ram.byte_afterWrite fun q here sameBlock => kept ⟨q, here, ?_⟩
    exact writable.of_blockNumber_eq on sameBlock
  · rw [core]
    exact confined.coherent

end Accesses

/-- Actions keep a board confined, whatever their result. -/
def confinement (b : Board) : Contract :=
  ⟨fun b' b'' => b.Confined b' → b.Confined b'', fun _ b' b'' => b.Confined b' → b.Confined b''⟩

theorem confinement_sequential (b : Board) : b.confinement.Sequential where
  refl _ := id
  trans first next := next ∘ first
  fail first failed := failed ∘ first

theorem confinement_admits {α : Type} {r : Except Failure α × Board}
    (kept : b.Confined b' → b.Confined r.2) : b.confinement.Admits b' r :=
  Contract.always_admits.mpr kept

theorem confinement_physicalRead (b' : Board) (address : Word) (width : Width) :
    b.confinement.Admits b' (b'.physicalReadStep address width) :=
  confinement_admits fun confined => confined.physicalReadStep address width

section Steps
variable (on : b.core.mmu.enabled = true) (protects : b.ProtectsTables)
include protects

theorem confinement_translate (b' : Board) (v : Word) (access : Access) :
    b.confinement.Admits b' (translateStep b' v access) :=
  confinement_admits fun confined => confined.translateStep protects v access

theorem confinement_reads (b' : Board) (p : Bool) (v : Word) (width : Width) :
    b.confinement.Admits b' (b'.run (read p v width)) :=
  b'.admits_read p v width b.confinement_sequential (confinement_translate protects)
    confinement_physicalRead

theorem confinement_fetch (b' : Board) (v : Word) :
    b.confinement.Admits b' (b'.run (fetch v)) :=
  b'.admits_fetch v b.confinement_sequential (confinement_translate protects)
    confinement_physicalRead

include on

theorem confinement_writes (b' : Board) (v value : Word) (width : Width) :
    b.confinement.Admits b' (b'.run (write false v value width)) := by
  refine confinement_admits fun confined => ?_
  have looked := confined.translateStep protects v (.data true false width)
  have target : ∀ p, (b'.translateStep v (.data true false width)).1 = .ok p → _ :=
    fun p translated => confined.writable protects on translated
  change b.Confined (b'.run (translate v (.data true false width) >>= fun address =>
    physicalWrite address value width)).2
  rw [run_bind, run_translate]
  generalize b'.translateStep v (.data true false width) = r at looked target
  obtain ⟨result, looked'⟩ := r
  cases result with
  | error cause => exact looked
  | ok p =>
    dsimp only
    rw [run_physicalWrite]
    exact looked.physicalWriteStep on (target p rfl) value width

/-- In user mode every primitive of an instruction keeps a board confined. -/
theorem confinement_primitives : b.confinement.Primitives false where
  read b' p v width _ := confinement_reads protects b' p v width
  write b' p v value width within := by
    cases p with
    | false => exact confinement_writes on protects b' v value width
    | true => exact absurd (within rfl) Bool.false_ne_true
  registers _ _ confined := confined.of_core rfl rfl
  pending _ _ _ confined := confined.of_core rfl rfl
  coprocessor _ _ granted := absurd granted Bool.false_ne_true
  refuse _ _ _ := id

theorem Confined.executes (confined : b.Confined b')
    (user : b'.core.registers.current.privileged = false)
    {result : Except Failure Outcome} {done : Board} (executes : b'.Executes result done) :
    b.Confined done := by
  refine executes.keeps ?_ ?_ ?_
  · intro first next same confined
    exact confined.of_core same.mmu same.ram
  · intro answer next read
    have admits := confinement_fetch protects (b'.mapCore .beginStep) b'.core.registers.pc
    rw [run_fetchNext, read] at admits
    have begun : b.Confined (b'.mapCore .beginStep) := confined.of_core rfl rfl
    cases answer <;> exact admits begun
  · intro word next answer after read accepted run
    have mode : (next.accept word).core.registers.current.privileged = false := by
      rw [registers_accept read]
      exact user
    have admits := Instruction.admits_of_run b.confinement_sequential
      (confinement_primitives on protects) mode run
    cases answer <;> exact admits accepted

omit on protects in
theorem Confined.dispatches (confined : b.Confined b') {outcome dispatched : Outcome}
    {settled : Board} (dispatches : b'.Dispatches outcome dispatched settled) :
    b.Confined settled := by
  have settles := dispatches.settles
  obtain same | taken := settles.mmu
  · exact confined.of_core same settles.ram
  · refine confined.congr ?_ ?_ settles.ram
    · rw [taken]
      exact ⟨rfl, rfl, rfl⟩
    · rw [taken]
      rfl

/-- One step in user mode keeps a board confined, whatever it fetches. -/
theorem Confined.step (confined : b.Confined b')
    (user : b'.core.registers.current.privileged = false) (trace : Bool) :
    b.Confined (b'.step trace).board := by
  have steps := b'.step_steps trace
  generalize (b'.step trace).result = result at steps
  generalize (b'.step trace).board = after at steps
  cases steps with
  | halted cause state => exact confined
  | failed cause done state executes =>
    exact (confined.executes on protects user executes).of_core rfl rfl
  | completed executed dispatched outcome done settled after state executes dispatches interrupts =>
    have settled := (confined.executes on protects user executes).dispatches dispatches
    cases interrupts with
    | refused quiet => exact settled
    | entered asserted accepted => exact settled.of_core rfl rfl

end Steps

/-- A board after some steps. -/
def stepped (b : Board) (trace : Bool) : Nat → Board
  | 0 => b
  | n + 1 => ((b.stepped trace n).step trace).board

theorem stepped_confined (on : b.core.mmu.enabled = true) (protects : b.ProtectsTables)
    (cold : b.core.mmu.dataCache = .empty) (trace : Bool) (n : Nat)
    (user : ∀ k < n, (b.stepped trace k).core.registers.current.privileged = false) :
    b.Confined (b.stepped trace n) := by
  induction n with
  | zero =>
    refine ⟨.refl _, rfl, fun _ _ => rfl, ?_⟩
    change b.core.mmu.dataCache.Agrees _ _ _
    rw [cold]
    exact BlockCache.agrees_empty
  | succ n ih =>
    have before := ih fun k earlier => user k (Nat.lt_succ_of_lt earlier)
    exact before.step on protects (user n (Nat.lt_succ_self n)) trace

/-- Whatever user mode executes, up to and including the step that leaves it, memory that its tables
do not let it write stays as it is, provided that the tables lie there. -/
theorem user_code_confined (b : Board) (trace : Bool) (n : Nat)
    (on : b.core.mmu.enabled = true) (cold : b.core.mmu.dataCache = .empty)
    (protects : b.ProtectsTables)
    (user : ∀ k < n, (b.stepped trace k).core.registers.current.mode? = some .user) (i : Nat)
    (unwritable : ¬ b.WritableAt i) :
    (b.stepped trace n).core.ram.byte i = b.core.ram.byte i := by
  refine (stepped_confined on protects cold trace n fun k earlier => ?_).bytes i unwritable
  have code := Mode.code_ofCode? (user k earlier)
  simp [StatusWord.privileged, code]

/-- A user program of two stores. The tables at 0 map the first megabyte to the devices for writing
and the second to memory for reading only. The program, right behind them, stores to the serial line
and then to the tables. -/
def userProgram : Board where
  core :=
    { registers := { ((RegisterFile.initial.write .r1 0x10000).write .r2 0x100000).setPc 0x100008
        with current := ⟨0x10⟩ }
      mmu := { Mmu.initial true with control := 1, domains := 1 }
      ram := ⟨⟨#[0x12, 0x0C, 0, 0x03, 0x12, 0x08, 0, 0, 0, 0, 0x81, 0xE5, 0, 0, 0x82, 0xE5]⟩⟩
      decode := .idle 0
      instructionCount := 0
      runState := .running
      diagnostics := .initial }
  devices := .standard 0

theorem toNat_firstLevelAddress_zero (v : Word) :
    (Tables.firstLevelAddress 0 v).toNat = 4 * (v.extractLsb' 20 12).toNat := by
  have bound := (v.extractLsb' 20 12).isLt
  have index : Tables.firstLevelAddress 0 v = (v.extractLsb' 20 12).setWidth 32 <<< 2 := by
    simp [Tables.firstLevelAddress]
  rw [index, BitVec.toNat_shiftLeft, BitVec.toNat_setWidth, Nat.shiftLeft_eq]
  omega

/-- Past its two descriptors the program leaves nothing that maps anything. -/
theorem userProgram_descriptor {v d : Word}
    (read : readDescriptor userProgram.core.ram (Tables.firstLevelAddress 0 v) = .ok d) :
    d = 0x03000C12 ∨ d = 0x00000812 ∨ d.extractLsb' 0 2 = 0 := by
  have address := toNat_firstLevelAddress_zero v
  generalize Tables.firstLevelAddress 0 v = a at read address
  have words : ∀ k : Fin 4, ∀ e, readDescriptor userProgram.core.ram (BitVec.ofNat 32 (4 * k)) =
      .ok e → e = 0x03000C12 ∨ e = 0x00000812 ∨ e.extractLsb' 0 2 = 0 := by
    intro k e found
    match k with
    | 0 => cases found; decide
    | 1 => cases found; decide
    | 2 => cases found; decide
    | 3 => cases found; decide
  by_cases inside : (v.extractLsb' 20 12).toNat < 4
  · refine words ⟨_, inside⟩ d ?_
    rw [← read, (by simp : a = BitVec.ofNat 32 a.toNat), address]
  · have uncovered : userProgram.core.ram.covers a .word = false := by
      have size : userProgram.core.ram.size = 16 := rfl
      simp only [Ram.covers, Width.toNat_alignDown, Width.bytes, size, decide_eq_false_iff_not]
      omega
    simp [readDescriptor, Ram.read?, uncovered] at read

theorem userProgram_walk (v : Word) :
    (Walk.run (readDescriptor userProgram.core.ram) 0 v).reads = [Tables.firstLevelAddress 0 v] ∧
      ∀ mapping, (Walk.run (readDescriptor userProgram.core.ram) 0 v).result = .ok mapping →
        mapping = Tables.sectionMapping 0x03000C12 v ∨
          mapping = Tables.sectionMapping 0x00000812 v := by
  have descriptor := @userProgram_descriptor v
  simp only [Walk.run]
  cases read : readDescriptor userProgram.core.ram (Tables.firstLevelAddress 0 v) with
  | error cause => simp
  | ok d =>
    obtain rfl | rfl | empty := descriptor read
    · refine ⟨rfl, fun mapping found => .inl ?_⟩
      cases found
      rfl
    · refine ⟨rfl, fun mapping found => .inr ?_⟩
      cases found
      rfl
    · simp [empty]

theorem userProgram_writable {i : Nat} (writable : userProgram.WritableAt i) :
    0x03000000 ≤ i := by
  obtain ⟨p, rfl, v, answer⟩ := writable
  obtain ⟨-, mapping, manager, walk, granted, rfl⟩ := (Tables.translate_eq_ok rfl).mp answer
  obtain rfl | rfl := (userProgram_walk v).2 mapping walk
  · change 0x03000000 ≤ ((0x03000C12#32 &&& 0xFFF00000#32) ||| (v &&& 0x000FFFFF#32)).toNat
    rw [BitVec.toNat_or]
    exact Nat.left_le_or
  · -- The second megabyte is read-only for unprivileged code.
    cases granted

theorem userProgram_protectsTables : userProgram.ProtectsTables := by
  intro v address read j inside writable
  have only : address ∈ (Walk.run (readDescriptor userProgram.core.ram) 0 v).reads := read
  rw [(userProgram_walk v).1, List.mem_singleton] at only
  have bound := userProgram_writable writable
  have low := toNat_firstLevelAddress_zero v
  have index := (v.extractLsb' 20 12).isLt
  rw [Width.toNat_alignDown, only, low] at bound
  simp only [Width.bytes] at bound
  omega

/-- The first store leaves the tables alone and the second one is refused, which ends user mode. -/
theorem user_code_confined_userProgram :
    (userProgram.stepped false 2).core.registers.current.mode? = some .abort ∧
      ∀ i < 16, (userProgram.stepped false 2).core.ram.byte i = userProgram.core.ram.byte i := by
  have user : ∀ k < 2,
      (userProgram.stepped false k).core.registers.current.mode? = some .user := by
    intro k early
    match k with
    | 0 => rfl
    | 1 => rfl
  refine ⟨by rfl, fun i inside => ?_⟩
  refine user_code_confined userProgram false 2 rfl rfl userProgram_protectsTables user i ?_
  intro writable
  have bound := userProgram_writable writable
  omega

end Board
end ArmMachine
