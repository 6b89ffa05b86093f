import ArmMachine.Proofs.Execution.Exceptions

/-! Register banking over mode changes. A register number names an architectural register, which all
modes share or which is private to one of them. Whatever updates a register file goes through, a
read finds the value last written under the same name, and the saved status word is the one last
saved in the same mode. Names say nothing about banks; that a bank is selected exactly for the names
of one mode is what the proof has to bring in. -/
namespace ArmMachine

/-- The modes with a stack pointer, a link register and a saved status word of their own. -/
def Mode.banked : List Mode := [.fiq, .irq, .supervisor, .abort, .undefined]

/-- The mode whose private registers a mode field selects. User, system and monitor mode and the
reserved encodings have none. -/
def Mode.owner? (code : BitVec 5) : Option Mode := banked.find? fun mode => mode.code = code

/-- An architectural register: its number and the mode it is private to, if any. -/
structure RegisterName where
  owner : Option Mode
  id : RegisterId
  deriving DecidableEq

/-- The register that a number names under a mode field. -/
def RegisterName.under (code : BitVec 5) (id : RegisterId) : RegisterName where
  id
  owner :=
    if id = .stack ∨ id = .link then Mode.owner? code
    else if 8 ≤ id.val ∧ id.val ≤ 12 ∧ code = Mode.fiq.code then some .fiq
    else none

/-- What programs do to a register file. -/
inductive RegisterUpdate where
  | write (id : RegisterId) (value : Word)
  | writeUser (id : RegisterId) (value : Word)
  | setPc (value : Word)
  | setCurrent (s : StatusWord)
  | setSaved (s : StatusWord)

namespace RegisterUpdate

def apply (r : RegisterFile) : RegisterUpdate → RegisterFile
  | write id value => r.write id value
  | writeUser id value => r.writeUser id value
  | setPc value => r.setPc value
  | setCurrent s => r.setCurrent s
  | setSaved s => r.setSavedStatus s

def modeAfter (code : BitVec 5) : RegisterUpdate → BitVec 5
  | setCurrent s => s.modeCode
  | _ => code

/-- The register an update writes in a mode, and the value. -/
def written? (code : BitVec 5) : RegisterUpdate → Option (RegisterName × Word)
  | write id value => some (.under code id, value)
  | writeUser id value => some (.under Mode.user.code id, value)
  | setPc value => some (.under code .pc, value)
  | _ => none

/-- The mode an update saves a status word for, and the word. -/
def saved? (code : BitVec 5) : RegisterUpdate → Option (Mode × StatusWord)
  | setSaved s => (Mode.owner? code).map fun owner => (owner, s)
  | _ => none

/-- The current status is a single cell. -/
def replaced? : BitVec 5 → RegisterUpdate → Option (Unit × StatusWord)
  | _, setCurrent s => some ((), s)
  | _, _ => none

variable {κ β : Type}

/-- What a run of updates enters under each key, in order. The mode an update is made in follows
from the replacements of the current status before it. -/
def history (enters : BitVec 5 → RegisterUpdate → Option (κ × β)) (code : BitVec 5) :
    List RegisterUpdate → List (κ × β)
  | [] => []
  | u :: rest => (enters code u).toList ++ history enters (u.modeAfter code) rest

/-- The most recent entry under a key. -/
def latest [BEq κ] (key : κ) (entries : List (κ × β)) : Option β := entries.reverse.lookup key

theorem latest_append [BEq κ] (key : κ) (first later : List (κ × β)) :
    latest key (first ++ later) = (latest key later).or (latest key first) := by
  rw [latest, List.reverse_append, List.lookup_append, latest, latest]

theorem latest_toList_some [DecidableEq κ] (key name : κ) (value : β) :
    latest key (some (name, value)).toList = if key = name then some value else none := by
  simp only [latest, Option.toList_some, List.reverse_singleton, List.lookup_cons, List.lookup_nil]
  by_cases same : key = name
  · rw [beq_iff_eq.mpr same, if_pos same]
  · rw [beq_eq_false_iff_ne.mpr same, if_neg same]

end RegisterUpdate

namespace Bank

/-- The mode a bank belongs to: undefined mode has the monitor bank. The bank that is named after
undefined mode is selected by no mode field, and what it is sent to only has to differ. -/
def keeper : Bank → Option Mode
  | user => none
  | fiq => some .fiq | irq => some .irq | supervisor => some .supervisor | abort => some .abort
  | monitor => some .undefined | undefined => some .monitor

theorem keeper_inj {b b' : Bank} : b.keeper = b'.keeper ↔ b = b' := by
  cases b <;> cases b' <;> simp [keeper]

theorem keeper_ofCode (code : BitVec 5) : (ofCode code).keeper = Mode.owner? code := by
  revert code
  decide

theorem ofCode_eq_fiq {code : BitVec 5} : ofCode code = .fiq ↔ code = Mode.fiq.code := by
  revert code
  decide

theorem select_ofCode (code : BitVec 5) (id : RegisterId) :
    (ofCode code).select id =
      if id = .stack ∨ id = .link then ofCode code
      else if 8 ≤ id.val ∧ id.val ≤ 12 ∧ code = Mode.fiq.code then .fiq
      else .user := by
  simp only [select, ofCode_eq_fiq]
  rfl

end Bank

namespace RegisterName

theorem under_eq (code : BitVec 5) (id : RegisterId) :
    under code id = ⟨((Bank.ofCode code).select id).keeper, id⟩ := by
  rw [under, Bank.select_ofCode]
  split
  · rw [Bank.keeper_ofCode]
  · split <;> rfl

theorem under_user (id : RegisterId) : under Mode.user.code id = ⟨Bank.user.keeper, id⟩ := by
  rw [under_eq, show Bank.ofCode Mode.user.code = .user from rfl]
  simp [Bank.select]

end RegisterName

namespace RegisterFile

variable (r : RegisterFile) (u : RegisterUpdate) (updates : List RegisterUpdate)

def run : RegisterFile := updates.foldl RegisterUpdate.apply r

theorem modeCode_apply :
    (u.apply r).current.modeCode = u.modeAfter r.current.modeCode := by
  cases u <;>
    simp [RegisterUpdate.apply, RegisterUpdate.modeAfter, write, writeUser, setPc, setSavedStatus]

theorem cell_apply (bank : Bank) (id : RegisterId) :
    some ((u.apply r).cell bank id) =
      (RegisterUpdate.latest ⟨bank.keeper, id⟩ (u.written? r.current.modeCode).toList).or
        (some (r.cell bank id)) := by
  -- Entering a value under a cell's name is storing it in the cell.
  have stored (b : Bank) (i : RegisterId) (value : Word) :
      some ((r.setCell b i value).cell bank id) =
        (RegisterUpdate.latest ⟨bank.keeper, id⟩
          (some ((⟨b.keeper, i⟩ : RegisterName), value)).toList).or (some (r.cell bank id)) := by
    rw [cell_setCell, RegisterUpdate.latest_toList_some]
    simp only [RegisterName.mk.injEq, Bank.keeper_inj, eq_comm]
    split <;> rfl
  cases u with
  | write i value =>
    rw [RegisterUpdate.written?, RegisterName.under_eq]
    exact stored _ i value
  | writeUser i value =>
    rw [RegisterUpdate.written?, RegisterName.under_user]
    exact stored .user i value
  | setPc value =>
    rw [RegisterUpdate.written?, RegisterName.under_eq]
    exact stored .user .pc value
  | setCurrent s => rfl
  | setSaved s => exact congrArg some (cell_setSavedOf r r.bank s bank id)

theorem savedOf_apply {bank : Bank} {mode : Mode} (kept : bank.keeper = some mode) :
    (u.apply r).savedOf bank =
      (RegisterUpdate.latest mode (u.saved? r.current.modeCode).toList).or (r.savedOf bank) := by
  cases u with
  | setSaved s =>
    have owner : Mode.owner? r.current.modeCode = r.bank.keeper := (Bank.keeper_ofCode _).symm
    rw [RegisterUpdate.apply, setSavedStatus, savedOf_setSavedOf, RegisterUpdate.saved?, owner]
    cases keeper : r.bank.keeper with
    | none =>
      rw [if_neg fun held => held.2 (Bank.keeper_inj.mp keeper)]
      rfl
    | some m =>
      have banked : r.bank ≠ .user := by
        intro user
        rw [user] at keeper
        cases keeper
      have same : r.bank = bank ↔ mode = m := by
        rw [← Bank.keeper_inj, keeper, kept, Option.some.injEq, eq_comm]
      simp only [banked, ne_eq, not_false_eq_true, and_true, same, Option.map_some,
        RegisterUpdate.latest_toList_some]
      split <;> rfl
  | write | writeUser | setPc | setCurrent => rfl

theorem current_apply :
    some (u.apply r).current =
      (RegisterUpdate.latest () (u.replaced? r.current.modeCode).toList).or (some r.current) := by
  cases u with
  | setSaved s => exact congrArg some (current_setSavedOf r r.bank s)
  | write | writeUser | setPc | setCurrent => rfl

/-- A part of the register file that takes whatever single updates enter under a key holds what a
run of updates last entered under it. -/
theorem view_run {κ β : Type} [BEq κ] {key : κ}
    {enters : BitVec 5 → RegisterUpdate → Option (κ × β)} (view : RegisterFile → Option β)
    (step : ∀ (r : RegisterFile) (u : RegisterUpdate), view (u.apply r) =
      (RegisterUpdate.latest key (enters r.current.modeCode u).toList).or (view r)) :
    view (r.run updates) =
      (RegisterUpdate.latest key
        (RegisterUpdate.history enters r.current.modeCode updates)).or (view r) := by
  induction updates generalizing r with
  | nil => rfl
  | cons u rest ih =>
    rw [RegisterUpdate.history, RegisterUpdate.latest_append, Option.or_assoc, ← step,
      ← modeCode_apply]
    exact ih (u.apply r)

theorem cell_run (bank : Bank) (id : RegisterId) :
    (r.run updates).cell bank id =
      (RegisterUpdate.latest ⟨bank.keeper, id⟩
        (RegisterUpdate.history RegisterUpdate.written? r.current.modeCode updates)).getD
          (r.cell bank id) := by
  have last := r.view_run updates (fun r => some (r.cell bank id))
    fun r u => r.cell_apply u bank id
  rw [Option.or_some] at last
  exact Option.some.inj last

theorem current_run :
    (r.run updates).current =
      (RegisterUpdate.latest ()
        (RegisterUpdate.history RegisterUpdate.replaced? r.current.modeCode updates)).getD
          r.current := by
  have last := r.view_run updates (fun r => some r.current) current_apply
  rw [Option.or_some] at last
  exact Option.some.inj last

theorem operandView_getD (id : RegisterId) (last : Option Word) (stored : Word) :
    operandView id (last.getD stored) =
      match last with
      | some value => if id = .pc then value + 4 else value
      | none => operandView id stored := by
  cases last <;> rfl

theorem savedStatus_run :
    (r.run updates).savedStatus =
      (Mode.owner? (r.run updates).current.modeCode).bind fun owner =>
        (RegisterUpdate.latest owner
          (RegisterUpdate.history RegisterUpdate.saved? r.current.modeCode updates)).or
            (r.setCurrent (r.run updates).current).savedStatus := by
  have stored : (r.setCurrent (r.run updates).current).savedStatus =
      r.savedOf (r.run updates).bank := rfl
  rw [stored, ← Bank.keeper_ofCode]
  change (r.run updates).savedOf (r.run updates).bank = (r.run updates).bank.keeper.bind _
  cases kept : (r.run updates).bank.keeper with
  | none =>
    rw [show (r.run updates).bank = .user from Bank.keeper_inj.mp kept]
    rfl
  | some owner =>
    exact r.view_run updates (fun r => r.savedOf _) fun r u => r.savedOf_apply u kept

theorem isSome_savedStatus :
    r.savedStatus.isSome = (Mode.owner? r.current.modeCode).isSome := by
  rw [← Bank.keeper_ofCode]
  change (r.savedOf r.bank).isSome = r.bank.keeper.isSome
  cases r.bank <;> rfl

theorem setSavedStatus_of_unowned (unowned : Mode.owner? r.current.modeCode = none)
    (s : StatusWord) : r.setSavedStatus s = r := by
  rw [← Bank.keeper_ofCode] at unowned
  rw [setSavedStatus, show r.bank = .user from Bank.keeper_inj.mp unowned]
  rfl

/-- After any run of updates, a register reads as the last value written to it under whatever number
and in whatever mode, and as it read at first in the same mode when there was none; the saved status
is the last one saved in the same mode, and modes without one ignore a save. -/
theorem run_keeps_latest (r : RegisterFile) (updates : List RegisterUpdate) :
    let after := r.run updates
    let mode := after.current.modeCode
    let initially := r.setCurrent after.current
    let written (name : RegisterName) : Option Word :=
      RegisterUpdate.latest name
        (RegisterUpdate.history RegisterUpdate.written? r.current.modeCode updates)
    let saved (owner : Mode) : Option StatusWord :=
      RegisterUpdate.latest owner
        (RegisterUpdate.history RegisterUpdate.saved? r.current.modeCode updates)
    after.current =
        (RegisterUpdate.latest ()
          (RegisterUpdate.history RegisterUpdate.replaced? r.current.modeCode updates)).getD
            r.current ∧
      (∀ id, after.read id =
        match written (.under mode id) with
        | some value => if id = .pc then value + 4 else value
        | none => initially.read id) ∧
      (∀ id, after.readUser id =
        match written (.under Mode.user.code id) with
        | some value => if id = .pc then value + 4 else value
        | none => initially.readUser id) ∧
      after.savedStatus = (Mode.owner? mode).bind (fun owner =>
        (saved owner).or initially.savedStatus) ∧
      after.savedStatus.isSome = (Mode.owner? mode).isSome ∧
      (Mode.owner? mode = none → ∀ s, after.setSavedStatus s = after) := by
  intro after mode initially written saved
  refine ⟨r.current_run updates, fun id => ?_, fun id => ?_, r.savedStatus_run updates,
    after.isSome_savedStatus, after.setSavedStatus_of_unowned⟩
  · rw [RegisterName.under_eq]
    exact (congrArg _ (r.cell_run updates _ id)).trans (operandView_getD id _ _)
  · rw [RegisterName.under_user]
    exact (congrArg _ (r.cell_run updates .user id)).trans (operandView_getD id _ _)

/-- Fast interrupt mode has its own stack pointer, and a reserved encoding has the user's. -/
example :
    let fiq : StatusWord := ⟨0x11⟩
    let reserved : StatusWord := ⟨0x00⟩
    let updates : List RegisterUpdate := [.setCurrent fiq, .write 13 1, .setCurrent reserved,
      .write 13 2, .setCurrent fiq]
    ((initial.run updates).read 13, (initial.run updates).readUser 13) = (1, 2) := by
  decide

end RegisterFile
end ArmMachine
