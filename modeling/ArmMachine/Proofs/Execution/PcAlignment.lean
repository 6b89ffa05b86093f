import ArmMachine.Proofs.Execution.Entries
import ArmMachine.Proofs.Execution.Invariance
import ArmMachine.Proofs.Execution.Precision

/-! Where the next instruction is fetched from. The address stays a multiple of four whatever a core
does, with a few exceptions: the instructions that write register 15 as they write any other
register. What these leave there is given as a value, so the exceptions are exact. -/
namespace ArmMachine

namespace Word

variable {v w : Word}

theorem aligned_add (left : v &&& 3 = 0) (right : w &&& 3 = 0) : (v + w) &&& 3 = 0 := by
  rw [aligned_iff] at left right ⊢
  rw [BitVec.toNat_add]
  omega

theorem aligned_sub (left : v &&& 3 = 0) (right : w &&& 3 = 0) : (v - w) &&& 3 = 0 := by
  rw [aligned_iff] at left right ⊢
  rw [BitVec.toNat_sub]
  omega

theorem aligned_cleared (w : Word) : w &&& ~~~3#32 &&& 3 = 0 := by
  have none : ~~~3#32 &&& (3 : Word) = 0 := by decide
  rw [BitVec.and_assoc, none]
  exact BitVec.and_zero

end Word

namespace RegisterFile

variable (r : RegisterFile) (id : RegisterId) (value : Word)

theorem select_pc (bank : Bank) : bank.select .pc = .user := by cases bank <;> rfl

theorem read_pc : r.read .pc = r.pc + 4 := by
  rw [read, select_pc]
  rfl

theorem pc_setCell (bank : Bank) :
    (r.setCell bank id value).pc = if bank = .user ∧ id = .pc then value else r.pc := by
  rw [pc, cell_setCell]
  rfl

theorem pc_write : (r.write id value).pc = if id = .pc then value else r.pc := by
  rw [write, pc_setCell]
  by_cases counter : id = .pc
  · subst counter
    rw [if_pos ⟨select_pc _, rfl⟩, if_pos rfl]
  · rw [if_neg fun both => counter both.2, if_neg counter]

variable {r id}

theorem pc_write_of_ne (other : id ≠ .pc) : (r.write id value).pc = r.pc := by
  rw [pc_write, if_neg other]

theorem aligned_writeResult (aligned : r.pc &&& 3 = 0) :
    (r.writeResult id value).pc &&& 3 = 0 := by
  unfold writeResult
  split
  · rw [pc_setPc]
    exact value.aligned_cleared
  · rename_i other
    rwa [pc_write_of_ne value other]

theorem pc_restoreStatus {t : RegisterFile} (restored : r.restoreStatus = .ok t) : t.pc = r.pc := by
  unfold restoreStatus at restored
  split at restored
  · cases restored
    rfl
  · split at restored <;> cases restored
    rfl

end RegisterFile

namespace Core

variable (c : Core) (kind : ExceptionKind)

theorem aligned_vectorAddress : c.vectorAddress kind &&& 3 = 0 := by
  unfold vectorAddress
  split <;> cases kind <;> decide

theorem aligned_enter : (c.enter kind).registers.pc &&& 3 = 0 := by
  change (c.enteredRegisters kind).pc &&& 3 = 0
  rw [RegisterFile.pc, cell_enteredRegisters, if_pos ⟨rfl, rfl⟩]
  exact c.aligned_vectorAddress kind

end Core

namespace Board

variable {b done : Board} {privileged : Bool} {v value : Word} {width : Width}

theorem registers_of_read
    (read : b.run (read privileged v width) = (.ok value, done)) :
    done.core.registers = b.core.registers := by
  have access := b.access_read privileged v width
  rw [read] at access
  exact access

theorem registers_of_write
    (written : b.run (write privileged v value width) = (.ok (), done)) :
    done.core.registers = b.core.registers := (write_ok written).1.registers

end Board

namespace Instruction

variable (i : Instruction)

/-- The instructions that write register 15 as they write any other: multiplies into it, long
multiplies into it with either half, reads of a status word into it, and transfers other than those
of blocks that write a base back to it. -/
def WritesPcRaw : Prop :=
  match i.shape with
  | .multiply => i.rn = .pc
  | .multiplyLong => i.rn = .pc ∨ i.rd = .pc
  | .readStatus => i.rd = .pc
  | .transferImmediate | .transferRegister
  | .halfwordRegister | .halfwordImmediate | .signedByteRegister | .signedByteImmediate
  | .signedHalfwordRegister | .signedHalfwordImmediate =>
    i.rn = .pc ∧ (i.preIndexed = false ∨ i.writesBack = true)
  | _ => False

/-- The base that a transfer leaves in register 15. A word that is loaded there takes its place. -/
def rawBase? (r : RegisterFile) (offset : Word) : Option Word :=
  if i.rn = .pc ∧ ¬ (i.loads = true ∧ i.rd = .pc) then (i.transferPlan r offset).newBase else none

/-- The value that an instruction leaves in register 15 as it stands, if it does so. -/
def rawPc? (r : RegisterFile) : Option Word :=
  match i.shape with
  | .multiply => if i.rn = .pc then some (i.product r) else none
  | .multiplyLong =>
    if i.rn = .pc then some ((i.longProduct r).extractLsb' 32 32)
    else if i.rd = .pc then some ((i.longProduct r).extractLsb' 0 32)
    else none
  | .readStatus =>
    if i.rd = .pc then some (if i.variant then r.savedStatus.getD r.current else r.current).raw
    else none
  | .transferImmediate | .transferRegister => i.rawBase? r (i.transferOffset r)
  | .halfwordRegister | .halfwordImmediate | .signedByteRegister | .signedByteImmediate
  | .signedHalfwordRegister | .signedHalfwordImmediate => i.rawBase? r (i.halfwordOffset r)
  | _ => none

/-- The next fetch is from a value that was left as it stands, otherwise from a multiple of four. -/
def FetchesFrom (raw? : Option Word) (pc : Word) : Prop :=
  match raw? with
  | some value => pc = value
  | none => pc &&& 3 = 0

section Registers
variable {i} {r : RegisterFile} {value : Word}

theorem writesBase_of_rawBase? {offset : Word} (raw : i.rawBase? r offset = some value) :
    i.rn = .pc ∧ (i.preIndexed = false ∨ i.writesBack = true) := by
  unfold rawBase? at raw
  split at raw
  · rename_i base
    refine ⟨base.1, ?_⟩
    dsimp only [transferPlan] at raw
    split at raw
    · rename_i writes
      simpa using writes
    · cases raw
  · cases raw

theorem writesPcRaw_of_rawPc? (raw : i.rawPc? r = some value) : i.WritesPcRaw := by
  unfold rawPc? at raw
  unfold WritesPcRaw
  generalize shape : i.shape = s at raw
  cases s
  case multiply => exact (Option.ite_none_right_eq_some.mp raw).1
  case multiplyLong =>
    dsimp only at raw
    split at raw
    · rename_i high
      exact .inl high
    · exact .inr (Option.ite_none_right_eq_some.mp raw).1
  case readStatus => exact (Option.ite_none_right_eq_some.mp raw).1
  all_goals first
    | exact writesBase_of_rawBase? raw
    | cases raw

theorem aligned_processData (aligned : r.pc &&& 3 = 0) : (i.processData r).2.pc &&& 3 = 0 := by
  have written : (r.writeResult i.rd (i.dataResult r).value).pc &&& 3 = 0 :=
    RegisterFile.aligned_writeResult _ aligned
  simp only [processData]
  split
  · exact aligned
  split
  · exact written
  split
  · split
    · rename_i restored
      rwa [RegisterFile.pc_restoreStatus restored]
    · exact written
  · exact written

/-- The base of a transfer reaches register 15 as it stands, unless it is another register. -/
theorem fetchesFrom_writeBase (aligned : r.pc &&& 3 = 0) (offset : Word)
    (stores : ¬ (i.loads = true ∧ i.rd = .pc)) :
    FetchesFrom (i.rawBase? r offset) (i.writeBase r (i.transferPlan r offset).newBase).pc := by
  unfold rawBase?
  cases (i.transferPlan r offset).newBase with
  | none =>
    rw [ite_self]
    exact aligned
  | some base =>
    by_cases counter : i.rn = .pc
    · rw [if_pos ⟨counter, stores⟩, writeBase, RegisterFile.pc_write, if_pos counter]
      rfl
    · rw [if_neg fun both => counter both.1, writeBase, RegisterFile.pc_write_of_ne base counter]
      exact aligned

theorem fetchesFrom_loaded (aligned : r.pc &&& 3 = 0) (offset : Word) (loads : i.loads = true)
    (loaded : Word) :
    FetchesFrom (i.rawBase? r offset)
      ((i.writeBase r (i.transferPlan r offset).newBase).writeResult i.rd loaded).pc := by
  by_cases counter : i.rd = .pc
  · rw [rawBase?, if_neg fun both => both.2 ⟨loads, counter⟩, RegisterFile.writeResult,
      if_pos counter, RegisterFile.pc_setPc]
    exact loaded.aligned_cleared
  · rw [RegisterFile.writeResult, if_neg counter, RegisterFile.pc_write_of_ne loaded counter]
    exact fetchesFrom_writeBase aligned offset fun both => counter both.2

theorem aligned_blockSpan : i.blockSpan &&& 3 = 0 := by
  rw [Word.aligned_iff, blockSpan, BitVec.toNat_ofNat]
  omega

/-- Register 15 is a multiple of four as a base, and so is the base that is written back. -/
theorem aligned_writeBlockBase (aligned : r.pc &&& 3 = 0) :
    (i.writeBlockBase r (r.read i.rn)).pc &&& 3 = 0 := by
  unfold writeBlockBase
  split
  · by_cases counter : i.rn = .pc
    · have base : (r.pc + 4) &&& 3 = 0 := Word.aligned_add aligned rfl
      rw [counter, RegisterFile.pc_write, if_pos rfl, RegisterFile.read_pc, blockEnd, moveBase]
      split
      · exact Word.aligned_add base aligned_blockSpan
      · exact Word.aligned_sub base aligned_blockSpan
    · rwa [RegisterFile.pc_write_of_ne _ counter]
  · exact aligned

/-- A word for register 15 loses its low bits, unless it goes to the user bank. -/
theorem aligned_commitBlock {userBank : Bool} {values : List (RegisterId × Word)}
    (plain : userBank = true → ∀ p ∈ values, p.1 ≠ .pc) (aligned : r.pc &&& 3 = 0) :
    (commitBlock userBank r values).pc &&& 3 = 0 := by
  induction values generalizing r with
  | nil => exact aligned
  | cons first rest ih =>
    refine ih (fun user p listed => plain user p (List.mem_cons_of_mem _ listed)) ?_
    cases userBank with
    | false => exact RegisterFile.aligned_writeResult first.2 aligned
    | true =>
      have other := plain rfl first List.mem_cons_self
      have kept : (r.writeUser first.1 first.2).pc = r.pc := by
        rw [RegisterFile.writeUser, RegisterFile.pc_setCell, if_neg fun both => other both.2]
      exact kept ▸ aligned

end Registers

section Handlers
variable {i} {b done : Board}

theorem registers_of_loadAlong {plan : TransferPlan} {width : Width} {convert : Word → Word}
    (run : b.run (i.loadAlong plan width convert) = (.ok (), done)) :
    ∃ value, done.core.registers =
      (i.writeBase b.core.registers plan.newBase).writeResult i.rd value := by
  obtain ⟨raw, middle, read, last⟩ := (b.run_bind_eq_ok).mp run
  cases last
  refine ⟨convert raw, ?_⟩
  rw [← Board.registers_of_read read]

theorem registers_of_storeAlong {plan : TransferPlan} {width : Width}
    (run : b.run (i.storeAlong plan width) = (.ok (), done)) :
    done.core.registers = i.writeBase b.core.registers plan.newBase := by
  unfold storeAlong at run
  rw [Board.run_bind_ok (Board.run_getRegisters b)] at run
  obtain ⟨_, middle, written, last⟩ := (b.run_bind_eq_ok).mp run
  cases last
  rw [← Board.registers_of_write written]

/-- Single transfers and halfword transfers differ in their offset only, as far as register 15 is
concerned. -/
theorem fetchesFrom_along (aligned : b.core.registers.pc &&& 3 = 0) (offset : Word) {width : Width}
    {convert : Word → Word}
    (run : b.run (if i.loads then
        i.loadAlong (i.transferPlan b.core.registers offset) width convert
      else i.storeAlong (i.transferPlan b.core.registers offset) width) = (.ok (), done)) :
    FetchesFrom (i.rawBase? b.core.registers offset) done.core.registers.pc := by
  split at run
  · rename_i loads
    obtain ⟨value, loaded⟩ := registers_of_loadAlong run
    rw [loaded]
    exact fetchesFrom_loaded aligned offset loads value
  · rename_i stores
    rw [registers_of_storeAlong run]
    exact fetchesFrom_writeBase aligned offset fun both => stores both.1

theorem fetchesFrom_transfer (aligned : b.core.registers.pc &&& 3 = 0)
    (run : b.run i.transfer = (.ok (), done)) :
    FetchesFrom (i.rawBase? b.core.registers (i.transferOffset b.core.registers))
      done.core.registers.pc := by
  unfold transfer at run
  rw [Board.run_bind_ok (Board.run_getRegisters b)] at run
  exact fetchesFrom_along aligned _ run

theorem fetchesFrom_transferHalfword (aligned : b.core.registers.pc &&& 3 = 0)
    (run : b.run i.transferHalfword = (.ok (), done)) :
    FetchesFrom (i.rawBase? b.core.registers (i.halfwordOffset b.core.registers))
      done.core.registers.pc := by
  rw [run_transferHalfword] at run
  split at run
  · cases run
  · rw [← apply_ite b.run] at run
    exact fetchesFrom_along aligned _ run

theorem aligned_swap (aligned : b.core.registers.pc &&& 3 = 0)
    (run : b.run i.swap = (.ok (), done)) : done.core.registers.pc &&& 3 = 0 := by
  unfold swap at run
  rw [Board.run_bind_ok (Board.run_getRegisters b)] at run
  obtain ⟨raw, middle, read, rest⟩ := (b.run_bind_eq_ok).mp run
  obtain ⟨_, middle', written, last⟩ := (middle.run_bind_eq_ok).mp rest
  cases last
  have same := (Board.registers_of_write written).trans (Board.registers_of_read read)
  refine RegisterFile.aligned_writeResult _ ?_
  rwa [same]

theorem readBlock_ids {privileged : Bool} {address : Word} {list : List RegisterId}
    {values : List (RegisterId × Word)}
    (read : b.run (readBlock privileged address list) = (.ok values, done)) :
    values.map Prod.fst = list := by
  induction list generalizing b address values with
  | nil =>
    cases read
    rfl
  | cons id rest ih =>
    obtain ⟨value, middle, first, others⟩ := (b.run_bind_eq_ok).mp read
    obtain ⟨loaded, middle', further, last⟩ := (middle.run_bind_eq_ok).mp others
    cases last
    rw [List.map_cons, ih further]

/-- Register 15 is loaded to the user bank by no block transfer. -/
theorem plain_of_registerList {values : List (RegisterId × Word)} (loads : i.loads = true)
    (ids : values.map Prod.fst = i.registerList) (user : i.blockUsesUserBank = true)
    (p : RegisterId × Word) (listed : p ∈ values) : p.1 ≠ .pc := by
  intro counter
  have member : RegisterId.pc ∈ i.registerList := by
    rw [← ids, ← counter]
    exact List.mem_map_of_mem listed
  have lists : i.lists .pc = true := (List.mem_filter.mp member).2
  simp [blockUsesUserBank, loads, lists] at user

theorem aligned_loadBlock (aligned : b.core.registers.pc &&& 3 = 0) (loads : i.loads = true)
    (run : b.run i.loadBlock = (.ok (), done)) : done.core.registers.pc &&& 3 = 0 := by
  unfold loadBlock at run
  rw [Board.run_bind_ok (Board.run_getRegisters b)] at run
  dsimp only at run
  obtain ⟨values, middle, read, rest⟩ := (b.run_bind_eq_ok).mp run
  have same := (readBlock_readChange b b.core.registers.current.privileged
    (i.blockStart (b.core.registers.read i.rn)) i.registerList).registers
  rw [read] at same
  have loaded : (commitBlock i.blockUsesUserBank (i.writeBlockBase middle.core.registers
      (b.core.registers.read i.rn)) values).pc &&& 3 = 0 := by
    rw [same]
    exact aligned_commitBlock (plain_of_registerList loads (readBlock_ids read))
      (aligned_writeBlockBase aligned)
  rw [Board.run_bind_ok (Board.run_modifyRegisters middle _)] at rest
  -- An exception return restores the status word after register 15 has arrived.
  split at rest
  · rw [Board.run_bind_ok (Board.run_getRegisters _)] at rest
    obtain ⟨t, middle', asked, last⟩ := (Board.run_bind_eq_ok _).mp rest
    rw [Board.run_ofExcept] at asked
    obtain ⟨restored, rfl⟩ := Prod.mk.inj asked
    cases last
    have kept := RegisterFile.pc_restoreStatus restored
    exact kept ▸ loaded
  · cases rest
    exact loaded

theorem aligned_storeBlock (aligned : b.core.registers.pc &&& 3 = 0)
    (run : b.run i.storeBlock = (.ok (), done)) : done.core.registers.pc &&& 3 = 0 := by
  unfold storeBlock at run
  rw [Board.run_bind_ok (Board.run_getRegisters b)] at run
  obtain ⟨_, middle, written, last⟩ := (b.run_bind_eq_ok).mp run
  cases last
  have moved : (i.writeBlockBase middle.core.registers (b.core.registers.read i.rn)).pc &&& 3 =
      0 := by
    rw [(writeBlock_ok written).1.registers]
    exact aligned_writeBlockBase aligned
  exact moved

theorem aligned_branch {r : RegisterFile} (aligned : r.pc &&& 3 = 0) :
    (i.branch r).pc &&& 3 = 0 := by
  have offset : i.branchOffset &&& 3 = 0 := by
    rw [Word.aligned_iff, branchOffset, BitVec.toNat_shiftLeft, Nat.shiftLeft_eq]
    omega
  rw [branch, RegisterFile.pc_setPc, branchTarget, RegisterFile.read_pc]
  exact Word.aligned_add (Word.aligned_add aligned rfl) offset

theorem aligned_branchExchange (run : b.run i.branchExchangeOnBoard = (.ok (), done)) :
    done.core.registers.pc &&& 3 = 0 := by
  unfold branchExchangeOnBoard at run
  rw [Board.run_bind_ok (Board.run_getRegisters b)] at run
  obtain ⟨t, middle, asked, last⟩ := (b.run_bind_eq_ok).mp run
  rw [Board.run_ofExcept] at asked
  obtain ⟨exchanged, rfl⟩ := Prod.mk.inj asked
  cases last
  simp only [branchExchange] at exchanged
  split at exchanged <;> cases exchanged
  rename_i target
  change (RegisterFile.setPc _ _).pc &&& 3 = 0
  rwa [RegisterFile.pc_setPc]

end Handlers

section Execution
variable {i} {b done : Board}

theorem fetchesFrom_multiply {r : RegisterFile} (aligned : r.pc &&& 3 = 0) :
    FetchesFrom (if i.rn = .pc then some (i.product r) else none) (i.multiply r).pc := by
  have written : (i.multiply r).pc = (r.write i.rn (i.product r)).pc := by
    simp only [multiply]
    split <;> rfl
  rw [written, RegisterFile.pc_write]
  split
  · rfl
  · exact aligned

/-- The high half is written last, so it is what stays in register 15 when both halves go there. -/
theorem fetchesFrom_multiplyLong {r : RegisterFile} (aligned : r.pc &&& 3 = 0) :
    FetchesFrom
      (if i.rn = .pc then some ((i.longProduct r).extractLsb' 32 32)
        else if i.rd = .pc then some ((i.longProduct r).extractLsb' 0 32)
        else none) (i.multiplyLong r).pc := by
  have written : (i.multiplyLong r).pc =
      ((r.write i.rd ((i.longProduct r).extractLsb' 0 32)).write i.rn
        ((i.longProduct r).extractLsb' 32 32)).pc := by
    simp only [multiplyLong]
    split <;> rfl
  rw [written, RegisterFile.pc_write]
  split
  · rfl
  · rw [RegisterFile.pc_write]
    split
    · rfl
    · exact aligned

theorem fetchesFrom_readStatus {r : RegisterFile} (aligned : r.pc &&& 3 = 0) :
    FetchesFrom
      (if i.rd = .pc then some (if i.variant then r.savedStatus.getD r.current else r.current).raw
        else none) (i.readStatus r).pc := by
  rw [readStatus, RegisterFile.pc_write]
  split
  · rfl
  · exact aligned

theorem pc_writeStatus (r : RegisterFile) : (i.writeStatus r).pc = r.pc := by
  simp only [writeStatus]
  split
  · split
    · exact r.cell_setSavedOf _ _ .user .pc
    · rfl
  · rfl

theorem pc_transferCoprocessor (c : Core) :
    (i.transferCoprocessor c).registers.pc = c.registers.pc := by
  unfold transferCoprocessor
  split
  · split
    · unfold readCoprocessor
      dsimp only
      split
      · rfl
      · rename_i other
        exact RegisterFile.pc_write_of_ne _ other
    · rfl
  · rfl

/-- What every instruction that is carried out leaves in register 15. -/
theorem fetchesFrom_of_run (aligned : b.core.registers.pc &&& 3 = 0)
    (run : b.run i.execute = (.ok (), done)) :
    FetchesFrom (i.rawPc? b.core.registers) done.core.registers.pc := by
  unfold execute at run
  unfold rawPc?
  generalize i.shape = shape at run ⊢
  cases shape
  iterate 3
    rw [run_processData] at run
    obtain ⟨-, rfl⟩ := Prod.mk.inj run
    exact aligned_processData aligned
  iterate 2 exact fetchesFrom_transfer aligned run
  iterate 6 exact fetchesFrom_transferHalfword aligned run
  case blockTransfer =>
    dsimp only [transferBlock] at run
    split at run
    · rename_i loads
      exact aligned_loadBlock aligned loads run
    · exact aligned_storeBlock aligned run
  case branch =>
    cases run
    exact aligned_branch aligned
  case branchExchange => exact aligned_branchExchange run
  case multiply =>
    cases run
    exact fetchesFrom_multiply aligned
  case multiplyLong =>
    cases run
    exact fetchesFrom_multiplyLong aligned
  case swap => exact aligned_swap aligned run
  case readStatus =>
    cases run
    exact fetchesFrom_readStatus aligned
  case writeStatus =>
    cases run
    exact (pc_writeStatus _).symm ▸ aligned
  case coprocessor =>
    cases run
    exact (pc_transferCoprocessor b.core).symm ▸ aligned
  case leadingZeros =>
    cases run
    exact RegisterFile.aligned_writeResult _ aligned
  all_goals
    cases run
    exact aligned

end Execution
end Instruction

namespace Board

variable {b b' done fetched : Board} {outcome executed : Outcome} {entries : List ExceptionKind}
  {value : Word}

/-- The instruction that is fetched is carried out to its end and leaves a value in register 15 as
it stands; no exception is entered behind it. -/
def LeavesRaw (b : Board) (outcome : Outcome) (value : Word) : Prop :=
  ∃ word fetched, b.fetchNext = (.ok word, fetched) ∧ (fetched.accept word).passes word = true ∧
    Instruction.rawPc? ⟨word⟩ (fetched.accept word).core.registers = some value ∧
    outcome = .retired (Instruction.shape ⟨word⟩).cost

theorem aligned_accept (aligned : b.core.registers.pc &&& 3 = 0) {word : Word}
    (read : b.fetchNext = (.ok word, fetched)) :
    (fetched.accept word).core.registers.pc &&& 3 = 0 := by
  rw [registers_accept read, RegisterFile.pc_setPc]
  exact Word.aligned_add aligned rfl

theorem Executes.pc (executes : b.Executes (.ok executed) done)
    (aligned : b.core.registers.pc &&& 3 = 0) :
    done.core.registers.pc &&& 3 = 0 ∨ b.LeavesRaw executed done.core.registers.pc := by
  cases executes with
  | unfetched fault fetched refused =>
    left
    have same := (fetchNext_readChange refused).registers
    change fetched.core.registers.pc &&& 3 = 0
    rwa [same]
  | skipped word fetched read idle => exact .inl (aligned_accept aligned read)
  | retired word fetched after read due run =>
    have fetches := Instruction.fetchesFrom_of_run (aligned_accept aligned read) run
    unfold Instruction.FetchesFrom at fetches
    split at fetches
    · rename_i value raw
      subst fetches
      exact .inr ⟨word, fetched, read, due, raw, rfl⟩
    · exact .inl fetches
  | aborted word fault fetched after read due run =>
    left
    have same := (change_of_aborted run).1.registers
    change after.core.registers.pc &&& 3 = 0
    rw [same]
    exact aligned_accept aligned read

/-- An instruction that leaves a value as it stands was not aborted, for no exception is entered. -/
theorem Executes.pc_of_leavesRaw (executes : b.Executes (.ok executed) done)
    (aligned : b.core.registers.pc &&& 3 = 0) (idle : done.core.noteFault.decode.pending = .none)
    (raw : b.LeavesRaw executed value) : done.core.registers.pc = value := by
  obtain ⟨word, fetched, read, due, left, retires⟩ := raw
  cases executes with
  | unfetched fault fetched' refused =>
    rw [read] at refused
    cases refused
  | skipped word' fetched' read' idle' => cases retires
  | retired word' fetched' after read' due' run =>
    rw [read] at read'
    cases read'
    have fetches := Instruction.fetchesFrom_of_run (aligned_accept aligned read) run
    rw [left] at fetches
    exact fetches
  | aborted word' fault fetched' after read' due' run =>
    rw [noteFault_of_aborted read' run] at idle
    cases idle

/-- Either an exception is entered, or the step is over with its instruction. -/
theorem Ends.pc (ends : done.Ends executed entries outcome b') :
    (b'.core.registers.pc &&& 3 = 0 ∧ ∃ kind, outcome = .exception kind) ∨
      (b'.core.registers.pc = done.core.registers.pc ∧ outcome = executed ∧
        done.core.noteFault.decode.pending = .none) := by
  cases ends with
  | quiet idle refused =>
    right
    refine ⟨?_, rfl, idle⟩
    change done.core.noteFault.registers.pc = _
    rw [Core.registers_noteFault]
  | dispatched kind pending => exact .inl ⟨Core.aligned_enter _ kind, kind, rfl⟩
  | interrupted idle asserted accepted => exact .inl ⟨Core.aligned_enter _ .irq, .irq, rfl⟩

/-- From a multiple of four a step that does not fail leads to a multiple of four, unless it carries
out an instruction that writes register 15 as any other. It is then that very value that is left
there, if no exception is entered; nothing else takes the address out of line. -/
theorem pc_stays_aligned (b : Board) (trace : Bool) (outcome : Outcome)
    (aligned : b.core.registers.pc &&& 3 = 0) (done : (b.step trace).result = .ok outcome) :
    let pc := (b.step trace).board.core.registers.pc
    (pc &&& 3 = 0 ∨ ∃ word fetched, b.fetchNext = (.ok word, fetched) ∧
      (fetched.accept word).passes word = true ∧ Instruction.WritesPcRaw ⟨word⟩) ∧
    (pc &&& 3 ≠ 0 ↔ ∃ value, b.LeavesRaw outcome value ∧ value &&& 3 ≠ 0) ∧
    ∀ value, b.LeavesRaw outcome value → pc = value := by
  intro pc
  obtain ⟨reached, exact⟩ : (pc &&& 3 = 0 ∨ b.LeavesRaw outcome pc) ∧
      ∀ value, b.LeavesRaw outcome value → pc = value := by
    have turns := b.step_turns trace
    rw [done] at turns
    unfold pc
    generalize (b.step trace).entries = entries, (b.step trace).board = b' at turns
    cases turns with
    | halted cause state =>
      refine ⟨.inl aligned, ?_⟩
      rintro value ⟨word, fetched, read, due, raw, retires⟩
      cases retires
    | completed executed outcome entries after b' state executes ends =>
      obtain ⟨entered, kind, rfl⟩ | ⟨same, rfl, idle⟩ := ends.pc
      · refine ⟨.inl entered, ?_⟩
        rintro value ⟨word, fetched, read, due, raw, retires⟩
        cases retires
      · rw [same]
        exact ⟨executes.pc aligned, fun value => executes.pc_of_leavesRaw aligned idle⟩
  refine ⟨?_, ⟨fun misaligned => ?_, ?_⟩, exact⟩
  · refine reached.imp_right ?_
    rintro ⟨word, fetched, read, due, raw, retires⟩
    exact ⟨word, fetched, read, due, Instruction.writesPcRaw_of_rawPc? raw⟩
  · exact ⟨pc, reached.resolve_left misaligned, misaligned⟩
  · rintro ⟨value, raw, misaligned⟩
    rwa [exact value raw]

/-- A core just reset whose register 1 is not a multiple of four, about to execute a word. -/
def probe (word : Word) : Board where
  core :=
    { Core.ofConfig .bareMetal with
      registers := (Core.ofConfig .bareMetal).registers.write .r1 0x10001
      ram := (Ram.mk ⟨Array.replicate 16 0⟩).store 0 word .word }
  devices := .empty

/-- One word at least for every kind of instruction that writes register 15 as any other, and two
for the long multiplies, which have two destinations. -/
def rawWriters : List Word :=
  [0xE00F0191, 0xE08F2191, 0xE082F191, 0xE10FF000, 0xE49F0001, 0xE5AF0001, 0xE69F0001,
    0xE09F00B1, 0xE0DF00B1, 0xE09F00D1, 0xE0DF00D1, 0xE09F00F1, 0xE0DF00F1]

/-- None of the exceptions is empty: each kind does take the address out of line. -/
theorem pc_stays_aligned_rawWriters :
    rawWriters.map Shape.ofWord =
        [.multiply, .multiplyLong, .multiplyLong, .readStatus, .transferImmediate,
          .transferImmediate, .transferRegister, .halfwordRegister, .halfwordImmediate,
          .signedByteRegister, .signedByteImmediate, .signedHalfwordRegister,
          .signedHalfwordImmediate] ∧
      rawWriters.map (fun word => ((probe word).step false).board.core.registers.pc) =
        [0x20001, 1, 0x20001, 0xD3, 9, 9, 0x10009, 0x10009, 9, 0x10009, 9, 0x10009, 9] ∧
      (probe 0xE00F0191).core.registers.pc &&& 3 = 0 ∧
      ((probe 0xE00F0191).step false).result = .ok (.retired 3) ∧
      ∃ value, (probe 0xE00F0191).LeavesRaw (.retired 3) value ∧ value &&& 3 ≠ 0 := by
  have done : ((probe 0xE00F0191).step false).result = .ok (.retired 3) := by rfl
  obtain ⟨-, exceptions, -⟩ := pc_stays_aligned (probe 0xE00F0191) false _ (by rfl) done
  have misaligned : ((probe 0xE00F0191).step false).board.core.registers.pc &&& 3 ≠ 0 := by
    decide +kernel
  exact ⟨by rfl, by rfl, by rfl, done, exceptions.mp misaligned⟩

end Board
end ArmMachine
