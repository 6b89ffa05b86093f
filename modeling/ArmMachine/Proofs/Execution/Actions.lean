import ArmMachine.Step

/-! Actions on a board as functions of the board. Everything an instruction does is a sequence of
bus accesses, register updates and refusals; a contract that each of these meets is met by every
instruction, with accesses no more privileged than the mode in force when it starts. -/
namespace ArmMachine
namespace Board

section Equations
variable {α β : Type} (b : Board)

@[simp] theorem run_throw (cause : Failure) :
    b.run (throw cause : Action α) = (.error cause, b) := rfl

theorem run_bind (x : Action α) (f : α → Action β) :
    b.run (x >>= f) =
      match b.run x with
      | (.ok a, b) => b.run (f a)
      | (.error cause, b) => (.error cause, b) := by
  simp only [run, EStateM.run, bind, EStateM.bind]
  cases x b <;> rfl

theorem run_bind_ok {x : Action α} {f : α → Action β} {a : α} {b b' : Board}
    (first : b.run x = (.ok a, b')) : b.run (x >>= f) = b'.run (f a) := by
  rw [run_bind, first]

theorem run_bind_error {x : Action α} {f : α → Action β} {cause : Failure} {b b' : Board}
    (first : b.run x = (.error cause, b')) : b.run (x >>= f) = (.error cause, b') := by
  rw [run_bind, first]

theorem run_bind_eq_ok {x : Action α} {f : α → Action β} {value : β} {b' : Board} :
    b.run (x >>= f) = (.ok value, b') ↔
      ∃ a middle, b.run x = (.ok a, middle) ∧ middle.run (f a) = (.ok value, b') := by
  rw [run_bind]
  generalize b.run x = r
  obtain ⟨result, middle⟩ := r
  cases result with
  | error cause => simp
  | ok a =>
    constructor
    · intro next
      exact ⟨a, middle, rfl, next⟩
    · rintro ⟨_, _, ⟨⟩, next⟩
      exact next

theorem run_bind_eq_error {x : Action α} {f : α → Action β} {cause : Failure} {b' : Board} :
    b.run (x >>= f) = (.error cause, b') ↔
      b.run x = (.error cause, b') ∨
        ∃ a middle, b.run x = (.ok a, middle) ∧ middle.run (f a) = (.error cause, b') := by
  rw [run_bind]
  generalize b.run x = r
  obtain ⟨result, middle⟩ := r
  cases result with
  | error cause => simp
  | ok a =>
    constructor
    · intro next
      exact .inr ⟨a, middle, rfl, next⟩
    · rintro (⟨⟨⟩⟩ | ⟨_, _, ⟨⟩, next⟩)
      exact next

@[simp] theorem run_ofExcept (x : Except Failure α) : b.run (ofExcept x) = (x, b) := by
  cases x <;> rfl

@[simp] theorem run_getRegisters : b.run getRegisters = (.ok b.core.registers, b) := rfl

/-- A board with other registers. -/
def mapRegisters (f : RegisterFile → RegisterFile) : Board :=
  b.mapCore fun c => { c with registers := f c.registers }

@[simp] theorem run_modifyRegisters (f : RegisterFile → RegisterFile) :
    b.run (modifyRegisters f) = (.ok (), b.mapRegisters f) := rfl

theorem run_ofStep (step : Board → Except Failure α × Board) :
    b.run (modifyGet step >>= ofExcept) = step b := by
  have first : b.run (modifyGet step) = (.ok (step b).1, (step b).2) := rfl
  rw [run_bind_ok first, run_ofExcept]

@[simp] theorem run_translate (v : Word) (access : Access) :
    b.run (translate v access) = b.translateStep v access :=
  b.run_ofStep _

@[simp] theorem run_physicalRead (address : Word) (width : Width) :
    b.run (physicalRead address width) = b.physicalReadStep address width :=
  b.run_ofStep _

@[simp] theorem run_physicalWrite (address value : Word) (width : Width) :
    b.run (physicalWrite address value width) = b.physicalWriteStep address value width :=
  b.run_ofStep _

end Equations
end Board

/-- What an action may do to a board when it succeeds, and what when it fails. -/
structure Contract where
  ok : Board → Board → Prop
  fail : Failure → Board → Board → Prop

namespace Contract

/-- A result and the board that goes with it are within the contract. -/
def Admits {α : Type} (c : Contract) (b : Board) : Except Failure α × Board → Prop
  | (.ok _, b') => c.ok b b'
  | (.error cause, b') => c.fail cause b b'

/-- The contract of a relation that holds whatever the result. -/
def always (related : Board → Board → Prop) : Contract := ⟨related, fun _ => related⟩

theorem always_admits {α : Type} {related : Board → Board → Prop} {b : Board}
    {r : Except Failure α × Board} : (always related).Admits b r ↔ related b r.2 := by
  obtain ⟨result, b'⟩ := r
  cases result <;> rfl

/-- Actions within the contract may follow each other. -/
structure Sequential (c : Contract) : Prop where
  refl : ∀ b, c.ok b b
  trans : ∀ {b b' b''}, c.ok b b' → c.ok b' b'' → c.ok b b''
  fail : ∀ {cause b b' b''}, c.ok b b' → c.fail cause b' b'' → c.fail cause b b''

theorem always_sequential {related : Board → Board → Prop} (refl : ∀ b, related b b)
    (trans : ∀ {b b' b''}, related b b' → related b' b'' → related b b'') :
    (always related).Sequential := ⟨refl, trans, trans⟩

/-- The contract admits every primitive of an instruction that starts with the given privilege. -/
structure Primitives (c : Contract) (privileged : Bool) : Prop where
  read : ∀ b p v width, (p = true → privileged = true) →
    c.Admits b (b.run (Board.read p v width))
  write : ∀ b p v value width, (p = true → privileged = true) →
    c.Admits b (b.run (Board.write p v value width))
  registers : ∀ b f, c.ok b (b.mapRegisters f)
  pending : ∀ b p, p = .undefined ∨ p = .softwareInterrupt →
    c.ok b (b.mapCore fun core => core.setPending p)
  coprocessor : ∀ b (i : Instruction), privileged = true → c.ok b (b.mapCore i.writeCoprocessor)
  refuse : ∀ b cause, cause.isFatal = true → c.fail cause b b

/-- The contract admits what an instruction with the given privilege does by bus accesses, register
updates and refusals of its own. -/
structure Moves (c : Contract) (privileged : Bool) : Prop where
  read : ∀ b p v width, (p = true → privileged = true) →
    c.Admits b (b.run (Board.read p v width))
  write : ∀ b p v value width, (p = true → privileged = true) →
    c.Admits b (b.run (Board.write p v value width))
  registers : ∀ b f, c.ok b (b.mapRegisters f)
  thumb : ∀ b target, c.fail (.thumb target) b b
  signedStore : ∀ b word, c.fail (.signedStore word) b b

theorem Primitives.moves {c : Contract} {privileged : Bool} (primitives : c.Primitives privileged) :
    c.Moves privileged where
  read := primitives.read
  write := primitives.write
  registers := primitives.registers
  thumb b _ := primitives.refuse b _ rfl
  signedStore b _ := primitives.refuse b _ rfl

variable {c : Contract} {α β : Type} {b : Board}

theorem Sequential.bind (sequential : c.Sequential) {x : Action α} {f : α → Action β}
    (first : c.Admits b (b.run x))
    (next : ∀ a b', b.run x = (.ok a, b') → c.Admits b' (b'.run (f a))) :
    c.Admits b (b.run (x >>= f)) := by
  rw [Board.run_bind]
  generalize h : b.run x = r at first
  obtain ⟨result, b'⟩ := r
  cases result with
  | error cause => exact first
  | ok a =>
    have rest := next a b' h
    dsimp only
    generalize b'.run (f a) = r at rest
    obtain ⟨result, b''⟩ := r
    cases result with
    | ok _ => exact sequential.trans first rest
    | error _ => exact sequential.fail first rest

theorem Moves.modify {privileged : Bool} (moves : c.Moves privileged) (b : Board)
    (f : RegisterFile → RegisterFile) : c.Admits b (b.run (Board.modifyRegisters f)) :=
  moves.registers b f

theorem Sequential.bindRegisters {f : RegisterFile → Action β}
    (next : c.Admits b (b.run (f b.core.registers))) :
    c.Admits b (b.run (Board.getRegisters >>= f)) := by
  rw [Board.run_bind_ok (Board.run_getRegisters b)]
  exact next

end Contract

/-- A status word is not restored only when it asks for the short instruction set. -/
theorem RegisterFile.restoreStatus_error {r : RegisterFile} {cause : Failure}
    (failed : r.restoreStatus = .error cause) :
    ∃ s, r.savedStatus = some s ∧ s.has .thumb = true ∧ cause = .thumb r.pc := by
  unfold restoreStatus at failed
  split at failed
  · contradiction
  · rename_i s saved
    split at failed
    · rename_i thumb
      cases failed
      exact ⟨s, saved, thumb, rfl⟩
    · contradiction

namespace Instruction

variable {c : Contract} {privileged : Bool} {b : Board}

theorem thumb_of_branchExchange {i : Instruction} {r : RegisterFile} {cause : Failure}
    (failed : i.branchExchange r = .error cause) : ∃ target, cause = .thumb target := by
  simp only [branchExchange] at failed
  split at failed <;> cases failed
  exact ⟨_, rfl⟩

theorem thumb_of_processData {i : Instruction} {r : RegisterFile} {cause : Failure}
    (failed : (i.processData r).1 = .error cause) : ∃ target, cause = .thumb target := by
  simp only [processData] at failed
  split at failed
  · contradiction
  · split at failed
    · contradiction
    · split at failed
      · split at failed
        · contradiction
        · rename_i restored
          cases failed
          obtain ⟨s, saved, thumb, refused⟩ := RegisterFile.restoreStatus_error restored
          exact ⟨_, refused⟩
      · contradiction

theorem run_processData (b : Board) (i : Instruction) :
    b.run i.processDataOnBoard =
      ((i.processData b.core.registers).1,
        b.mapRegisters fun _ => (i.processData b.core.registers).2) := by
  unfold processDataOnBoard
  rw [Board.run_bind_ok (Board.run_getRegisters b)]
  dsimp only
  rw [Board.run_bind_ok (Board.run_modifyRegisters b _), Board.run_ofExcept]

theorem run_transferHalfword (b : Board) (i : Instruction) :
    b.run i.transferHalfword =
      if i.halfwordSigned && !i.loads then (.error (.signedStore i.word), b)
      else
        let plan := i.transferPlan b.core.registers (i.halfwordOffset b.core.registers)
        if i.loads then
          b.run (i.loadAlong plan i.halfwordWidth
            (if i.halfwordSigned then signExtended i.halfwordWidth else id))
        else b.run (i.storeAlong plan i.halfwordWidth) := by
  unfold transferHalfword
  dsimp only
  by_cases refused : (i.halfwordSigned && !i.loads) = true
  · rw [if_pos refused, if_pos refused, Board.run_bind_error (Board.run_throw b _)]
  · rw [if_neg refused, if_neg refused, Board.run_bind_ok (Board.run_getRegisters b)]
    split <;> rfl

/-- Whether an instruction may leave an exception to be dispatched or reach the coprocessor. -/
def requests (i : Instruction) : Bool :=
  match i.shape with
  | .coprocessor | .softwareInterrupt | .undefined => true
  | _ => false

/-- An instruction that makes a request does nothing else and never fails. -/
theorem run_of_requests (b : Board) {i : Instruction} (requests : i.requests = true) :
    i.shape = .coprocessor ∧ b.run i.execute = (.ok (), b.mapCore i.transferCoprocessor) ∨
      ∃ p, (p = .undefined ∨ p = .softwareInterrupt) ∧
        b.run i.execute = (.ok (), b.mapCore fun c => c.setPending p) := by
  unfold Instruction.requests at requests
  unfold execute
  split at requests
  · rename_i shape
    rw [shape]
    exact .inl ⟨rfl, rfl⟩
  · rename_i shape
    rw [shape]
    exact .inr ⟨.softwareInterrupt, .inr rfl, rfl⟩
  · rename_i shape
    rw [shape]
    exact .inr ⟨.undefined, .inl rfl, rfl⟩
  · contradiction

section Handlers
variable (sequential : c.Sequential) (moves : c.Moves privileged)
include sequential moves

theorem admits_loadAlong (i : Instruction) (plan : TransferPlan) (width : Width)
    (convert : Word → Word) (within : plan.privileged = true → privileged = true) :
    c.Admits b (b.run (i.loadAlong plan width convert)) :=
  sequential.bind (moves.read b _ _ _ within) fun _ b' _ => moves.modify b' _

theorem admits_storeAlong (i : Instruction) (plan : TransferPlan) (width : Width)
    (within : plan.privileged = true → privileged = true) :
    c.Admits b (b.run (i.storeAlong plan width)) := by
  apply Contract.Sequential.bindRegisters
  exact sequential.bind (moves.write b _ _ _ _ within) fun _ b' _ => moves.modify b' _

omit sequential moves in
/-- A transfer is never made with more privilege than the mode has. -/
theorem transferPlan_privileged (i : Instruction) (r : RegisterFile) (offset : Word)
    (privileged : (i.transferPlan r offset).privileged = true) : r.current.privileged = true := by
  simp only [transferPlan, Bool.and_eq_true] at privileged
  exact privileged.1

theorem admits_transfer (i : Instruction)
    (mode : b.core.registers.current.privileged = privileged) :
    c.Admits b (b.run i.transfer) := by
  apply Contract.Sequential.bindRegisters
  have within := i.transferPlan_privileged b.core.registers (i.transferOffset b.core.registers)
  rw [mode] at within
  dsimp only
  split
  · exact admits_loadAlong sequential moves i _ _ _ within
  · exact admits_storeAlong sequential moves i _ _ within

theorem admits_transferHalfword (i : Instruction)
    (mode : b.core.registers.current.privileged = privileged) :
    c.Admits b (b.run i.transferHalfword) := by
  have within := i.transferPlan_privileged b.core.registers (i.halfwordOffset b.core.registers)
  rw [mode] at within
  rw [run_transferHalfword]
  split
  · exact moves.signedStore b i.word
  · dsimp only
    split
    · exact admits_loadAlong sequential moves i _ _ _ within
    · exact admits_storeAlong sequential moves i _ _ within

theorem admits_swap (i : Instruction) (mode : b.core.registers.current.privileged = privileged) :
    c.Admits b (b.run i.swap) := by
  apply Contract.Sequential.bindRegisters
  refine sequential.bind (moves.read b _ _ _ (fun h => mode ▸ h)) fun _ b' _ => ?_
  exact sequential.bind (moves.write b' _ _ _ _ (fun h => mode ▸ h)) fun _ b'' _ =>
    moves.modify b'' _

omit moves in
theorem admits_readBlock {p : Bool}
    (reads : ∀ b address, c.Admits b (b.run (Board.read p address .word))) (address : Word)
    (list : List RegisterId) : c.Admits b (b.run (readBlock p address list)) := by
  induction list generalizing b address with
  | nil => exact sequential.refl b
  | cons id rest ih =>
    refine sequential.bind (reads b address) fun _ b' _ => ?_
    exact sequential.bind (ih (address + 4)) fun _ b'' _ => sequential.refl b''

theorem admits_writeBlock (p : Bool) (within : p = true → privileged = true) (address : Word)
    (values : List Word) : c.Admits b (b.run (writeBlock p address values)) := by
  induction values generalizing b address with
  | nil => exact sequential.refl b
  | cons value rest ih =>
    exact sequential.bind (moves.write b p address value .word within) fun _ _ _ =>
      ih (address + 4)

theorem admits_loadBlock (i : Instruction)
    (mode : b.core.registers.current.privileged = privileged) :
    c.Admits b (b.run i.loadBlock) := by
  apply Contract.Sequential.bindRegisters
  have reads := fun b' address =>
    moves.read b' b.core.registers.current.privileged address .word (fun h => mode ▸ h)
  refine sequential.bind (admits_readBlock sequential reads _ _) fun _ b' _ => ?_
  refine sequential.bind (moves.modify b' _) fun _ b'' _ => ?_
  split
  · apply Contract.Sequential.bindRegisters
    refine sequential.bind ?_ fun _ b''' _ => moves.modify b''' _
    rw [Board.run_ofExcept]
    cases restored : b''.core.registers.restoreStatus with
    | ok r => exact sequential.refl b''
    | error cause =>
      obtain ⟨s, saved, thumb, rfl⟩ := RegisterFile.restoreStatus_error restored
      exact moves.thumb b'' _
  · exact sequential.refl b''

theorem admits_storeBlock (i : Instruction)
    (mode : b.core.registers.current.privileged = privileged) :
    c.Admits b (b.run i.storeBlock) := by
  apply Contract.Sequential.bindRegisters
  refine sequential.bind
    (admits_writeBlock sequential moves _ (fun h => mode ▸ h) _ _) fun _ b' _ => ?_
  exact moves.modify b' _

theorem admits_processData (i : Instruction) : c.Admits b (b.run i.processDataOnBoard) := by
  rw [run_processData]
  have updated := moves.registers b fun _ => (i.processData b.core.registers).2
  cases processed : (i.processData b.core.registers).1 with
  | ok _ => exact updated
  | error cause =>
    obtain ⟨target, rfl⟩ := thumb_of_processData processed
    exact sequential.fail updated (moves.thumb _ target)

theorem admits_branchExchange (i : Instruction) :
    c.Admits b (b.run i.branchExchangeOnBoard) := by
  apply Contract.Sequential.bindRegisters
  refine sequential.bind ?_ fun _ b' _ => moves.modify b' _
  rw [Board.run_ofExcept]
  cases exchanged : i.branchExchange b.core.registers with
  | ok _ => exact sequential.refl b
  | error cause =>
    obtain ⟨target, rfl⟩ := thumb_of_branchExchange exchanged
    exact moves.thumb b target

/-- An instruction that makes no request stays within every contract that admits its moves. -/
theorem admits_of_moves (i : Instruction) (plain : i.requests = false)
    (mode : b.core.registers.current.privileged = privileged) :
    c.Admits b (b.run i.execute) := by
  unfold requests at plain
  unfold execute
  split at plain
  iterate 3 contradiction
  rename_i own external unknown
  split
  iterate 3 exact admits_processData sequential moves i
  iterate 2 exact admits_transfer sequential moves i mode
  iterate 6 exact admits_transferHalfword sequential moves i mode
  · unfold transferBlock
    split
    · exact admits_loadBlock sequential moves i mode
    · exact admits_storeBlock sequential moves i mode
  · exact admits_swap sequential moves i mode
  · exact moves.registers b _
  · exact admits_branchExchange sequential moves i
  iterate 4 exact moves.registers b _
  · contradiction
  · exact moves.registers b _
  iterate 2 contradiction

end Handlers

section Requests
variable (sequential : c.Sequential) (primitives : c.Primitives privileged)
include primitives

theorem admits_transferCoprocessor (i : Instruction)
    (mode : b.core.registers.current.privileged = privileged) :
    c.ok b (b.mapCore i.transferCoprocessor) := by
  unfold Board.mapCore transferCoprocessor
  split
  · rename_i reaches
    have granted : privileged = true := by
      simp only [reachesCoprocessor, Bool.and_eq_true] at reaches
      exact mode ▸ reaches.2
    split
    · exact primitives.registers b fun _ => (i.readCoprocessor b.core).registers
    · exact primitives.coprocessor b i granted
  · exact primitives.pending b .undefined (.inl rfl)

include sequential

/-- An instruction stays within every contract that admits its primitives. -/
theorem admits_execute (i : Instruction)
    (mode : b.core.registers.current.privileged = privileged) :
    c.Admits b (b.run i.execute) := by
  cases requests : i.requests with
  | false => exact admits_of_moves sequential primitives.moves i requests mode
  | true =>
    obtain ⟨shape, run⟩ | ⟨p, asked, run⟩ := run_of_requests b requests
    · rw [run]
      exact admits_transferCoprocessor primitives i mode
    · rw [run]
      exact primitives.pending b p asked

theorem admits_of_run {i : Instruction} {result : Except Failure Unit} {done : Board}
    (mode : b.core.registers.current.privileged = privileged)
    (run : b.run i.execute = (result, done)) : c.Admits b (result, done) := by
  rw [← run]
  exact admits_execute sequential primitives i mode

end Requests
end Instruction
end ArmMachine
