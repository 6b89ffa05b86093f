import ArmMachine.Board
import ArmMachine.Proofs.Paging.Coherence

/-! What one translation does to its unit. The registers that decide translations never change; a
fault is recorded exactly when the answer is an abort, and descriptors are read without aborting. -/
namespace ArmMachine

/-- The registers that decide translations are the same. -/
structure Mmu.SameTables (m m' : Mmu) : Prop where
  control : m'.control = m.control
  tableBase : m'.tableBase = m.tableBase
  domains : m'.domains = m.domains

/-- The fault registers and the flag are the same. -/
structure Mmu.SameFault (m m' : Mmu) : Prop where
  pending : m'.faultPending = m.faultPending
  status : m'.faultStatus = m.faultStatus
  address : m'.faultAddress = m.faultAddress

/-- The fault registers and the flag tell of an abort. -/
structure Mmu.Records (m : Mmu) (a : Abort) : Prop where
  pending : m.faultPending = true
  status : m.faultStatus = a.statusWord
  address : m.faultAddress = a.address

/-- The fault registers after an access that failed: an abort is recorded, anything else is not. -/
def Mmu.FaultAfter (m : Mmu) : Failure → Mmu → Prop
  | .abort a, m' => m'.Records a
  | _, m' => m.SameFault m'

namespace Mmu

@[refl] theorem SameTables.refl (m : Mmu) : m.SameTables m := ⟨rfl, rfl, rfl⟩

theorem SameTables.trans {m m' m'' : Mmu} (first : m.SameTables m') (next : m'.SameTables m'') :
    m.SameTables m'' :=
  ⟨next.control.trans first.control, next.tableBase.trans first.tableBase,
    next.domains.trans first.domains⟩

@[refl] theorem SameFault.refl (m : Mmu) : m.SameFault m := ⟨rfl, rfl, rfl⟩

theorem SameFault.trans {m m' m'' : Mmu} (first : m.SameFault m') (next : m'.SameFault m'') :
    m.SameFault m'' :=
  ⟨next.pending.trans first.pending, next.status.trans first.status,
    next.address.trans first.address⟩

theorem faultAfter_of_isFatal {m m' : Mmu} {cause : Failure} (fatal : cause.isFatal = true)
    (same : m.SameFault m') : m.FaultAfter cause m' := by
  cases cause with
  | abort a => contradiction
  | _ => exact same

end Mmu

/-- Where a translation that fails without an abort gets its failure from: the permission bits, or a
descriptor that cannot be read. -/
def Tables.Meets (read : Word → Except Failure Word) (control : Word) (cause : Failure) : Prop :=
  cause = .permissionConfiguration control ∨ ∃ address, read address = .error cause

theorem permits_error {permission : Byte} {control : Word} {privileged write : Bool}
    {cause : Failure} (failed : permits permission control privileged write = .error cause) :
    cause = .permissionConfiguration control := by
  unfold permits at failed
  split at failed
  · split at failed
    · split at failed <;> cases failed
      rfl
    · contradiction
  all_goals contradiction

theorem authorize_failure {m : Mapping} {domains control : Word} {access : Access}
    {cause : Failure} (failed : m.authorize domains control access = .error (.failure cause)) :
    cause = .permissionConfiguration control := by
  unfold Mapping.authorize at failed
  split at failed
  · split at failed
    · rename_i undecided
      cases failed
      exact permits_error undecided
    · cases failed
    · cases failed
  · split at failed <;> cases failed

/-- No descriptor read ends in an abort. -/
def ReadsFatally (read : Word → Except Failure Word) : Prop :=
  ∀ address cause, read address = .error cause → cause.isFatal = true

theorem readDescriptor_readsFatally (ram : Ram) : ReadsFatally (Board.readDescriptor ram) := by
  intro address cause failed
  unfold Board.readDescriptor at failed
  split at failed
  · contradiction
  · cases failed
    rfl

variable {read : Word → Except Failure Word} {v : Word} {access : Access}

namespace Walk

variable {base : Word} {cause : Failure}

theorem second_eq_failure_iff {first : Word} {fine : Bool} :
    (second read first v fine).2 = .error (.failure cause) ↔
      read (second read first v fine).1 = .error cause := by
  simp only [second]
  cases found : read (Tables.secondLevelAddress first v fine) with
  | error missing => simp
  | ok descriptor =>
    dsimp only
    split <;> simp

/-- A walk fails, other than by a fault, exactly when one of its reads does. -/
theorem run_eq_failure_iff :
    (run read base v).result = .error (.failure cause) ↔
      ∃ address ∈ (run read base v).reads, read address = .error cause := by
  simp only [run]
  cases found : read (Tables.firstLevelAddress base v) with
  | error missing => simp [found]
  | ok first =>
    dsimp only
    split
    · simp [found]
    · simp [found]
    · simp [found, second_eq_failure_iff]
    · simp [found, second_eq_failure_iff]

end Walk

theorem translate_failure {control base domains : Word} {cause : Failure}
    (failed : Tables.translate read control base domains v access = .error (.failure cause)) :
    Tables.Meets read control cause := by
  unfold Tables.translate at failed
  split at failed
  · cases failed
  · split at failed
    · cases failed
    · split at failed
      · rename_i walked
        cases failed
        obtain ⟨address, _, missing⟩ := Walk.run_eq_failure_iff.mp walked
        exact .inr ⟨address, missing⟩
      · split at failed
        · rename_i refused
          cases failed
          exact .inl (authorize_failure refused)
        · cases failed

theorem Tables.Meets.isFatal {control : Word} {cause : Failure}
    (meets : Tables.Meets read control cause) (fatal : ReadsFatally read) :
    cause.isFatal = true := by
  obtain rfl | ⟨address, missing⟩ := meets
  · rfl
  · exact fatal address cause missing

namespace Mmu

variable {m : Mmu} {t : Resolution}

theorem sameTables_setCache (m : Mmu) (side : Side) (c : BlockCache) :
    m.SameTables (m.setCache side c) := by cases side <;> exact ⟨rfl, rfl, rfl⟩

theorem sameFault_setCache (m : Mmu) (side : Side) (c : BlockCache) :
    m.SameFault (m.setCache side c) := by cases side <;> exact ⟨rfl, rfl, rfl⟩

theorem Answers.sameTables (answers : m.Answers read v access t) : m.SameTables t.mmu := by
  cases answers with
  | identity off => rfl
  | misaligned on checked odd => exact ⟨rfl, rfl, rfl⟩
  | hit pages e found allowed => exact ⟨rfl, rfl, rfl⟩
  | undecided pages e found cause failed => exact ⟨rfl, rfl, rfl⟩
  | refused pages missed refusal answer => cases refusal <;> exact ⟨rfl, rfl, rfl⟩
  | walked pages missed mapping manager found granted =>
    have counted : m.SameTables m.countLookup := ⟨rfl, rfl, rfl⟩
    exact counted.trans (sameTables_setCache _ _ _)

/-- An access that is answered leaves no record. -/
theorem Answers.sameFault (answers : m.Answers read v access t) {p : Word}
    (answered : t.result = .ok p) : m.SameFault t.mmu := by
  cases answers with
  | identity off => rfl
  | misaligned on checked odd => contradiction
  | hit pages e found allowed => exact ⟨rfl, rfl, rfl⟩
  | undecided pages e found cause failed => contradiction
  | refused pages missed refusal answer => cases refusal <;> contradiction
  | walked pages missed mapping manager found granted =>
    have counted : m.SameFault m.countLookup := ⟨rfl, rfl, rfl⟩
    exact counted.trans (sameFault_setCache _ _ _)

/-- An access that fails is aborted, which is recorded, or meets a failure, which leaves no record.
-/
theorem Answers.failure (answers : m.Answers read v access t) {cause : Failure}
    (failed : t.result = .error cause) :
    (∃ a, cause = .abort a ∧ t.mmu.Records a) ∨
      Tables.Meets read m.control cause ∧ m.SameFault t.mmu := by
  cases answers with
  | identity off => contradiction
  | misaligned on checked odd =>
    cases failed
    exact .inl ⟨_, rfl, rfl, rfl, rfl⟩
  | hit pages e found allowed => contradiction
  | undecided pages e found cause' undecided =>
    cases failed
    refine .inr ⟨.inl ?_, rfl, rfl, rfl⟩
    unfold CachedBlock.allows at undecided
    split at undecided
    · contradiction
    · exact permits_error undecided
  | refused pages missed refusal answer =>
    cases refusal with
    | fault status domain =>
      cases failed
      exact .inl ⟨_, rfl, rfl, rfl, rfl⟩
    | failure cause' =>
      cases failed
      exact .inr ⟨translate_failure answer, rfl, rfl, rfl⟩
  | walked pages missed mapping manager found granted => contradiction

theorem Answers.faultAfter (answers : m.Answers read v access t) (fatal : ReadsFatally read)
    {cause : Failure} (failed : t.result = .error cause) : m.FaultAfter cause t.mmu := by
  obtain ⟨a, rfl, records⟩ | ⟨meets, same⟩ := answers.failure failed
  · exact records
  · exact faultAfter_of_isFatal (meets.isFatal fatal) same

end Mmu
end ArmMachine
