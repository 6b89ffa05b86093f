import ArmMachine.Proofs.Paging.Effects
import ArmMachine.Proofs.Paging.History
import ArmMachine.Proofs.Paging.Writable

/-! What one translation leaves behind, field by field. An access is answered, aborted by the unit,
or ended by a failure that the unit only passes on; nothing is half recorded in any of these cases,
and the statistics count what happened. -/
namespace ArmMachine

/-- A counter grows by one where `p` holds, and stands otherwise. -/
structure CountsWhen (p : Prop) (before after : Nat) : Prop where
  grows : p → after = before + 1
  stands : ¬ p → after = before

/-- The failure is the one that reading a descriptor ended in. -/
def Resolution.PassesOn (t : Resolution) (read : Word → Except Failure Word) (cause : Failure) :
    Prop :=
  ∃ address ∈ t.reads, read address = .error cause

namespace Mmu

/-- What answering an access for `v` leaves: at most one slot is rewritten, which is that of `v` on
the side of the access. -/
structure Serves (m m' : Mmu) (v : Word) (side : Side) : Prop where
  registers : m'.registers = m.registers
  otherSide : ∀ other, other ≠ side → m'.cache other = m.cache other
  slot : m'.cache side = m.cache side ∨
    ∃ e, m'.cache side = (m.cache side).setSlot (BlockCache.slotOf v) e

/-- What aborting an access for `v` leaves: the whole record of the fault and nothing else. -/
structure Aborts (m m' : Mmu) (v : Word) (a : Abort) : Prop where
  address : a.address = v
  unit : m' = { m with
    faultStatus := a.statusWord, faultAddress := v, faultPending := true, lookups := m'.lookups }

/-- All that one translation does to its unit. -/
structure Effects (m : Mmu) (read : Word → Except Failure Word) (v : Word) (access : Access)
    (t : Resolution) : Prop where
  answered : ∀ p, t.result = .ok p → m.Serves t.mmu v access.side
  -- A descriptor read that aborts is no fault of this unit, and is only passed on.
  aborted : ∀ a, t.result = .error (.abort a) → ¬ t.PassesOn read (.abort a) → m.Aborts t.mmu v a
  failed : ∀ cause, t.result = .error cause → cause.isFatal = true ∨ t.PassesOn read cause →
    t.mmu = { m with lookups := t.mmu.lookups }
  lookups : CountsWhen (m.Pages v access) m.lookups t.mmu.lookups
  hits : CountsWhen (m.Pages v access ∧ (∃ p, t.result = .ok p) ∧ t.reads = []) m.hits t.mmu.hits

variable {m : Mmu} {read : Word → Except Failure Word} {v : Word} {access : Access}
  {t : Resolution}

theorem not_pages_of_disabled (off : m.enabled = false) : ¬ m.Pages v access := by
  intro pages
  rw [pages.enabled] at off
  contradiction

theorem not_pages_of_misaligned (checked : Control.checksAlignment m.control = true)
    (odd : access.width.isAligned v = false) : ¬ m.Pages v access := by
  intro pages
  rw [pages.aligned checked] at odd
  contradiction

theorem Serves.of_sameCaches {m' : Mmu} {side : Side} (registers : m'.registers = m.registers)
    (caches : ∀ other, m'.cache other = m.cache other) : m.Serves m' v side :=
  ⟨registers, fun other _ => caches other, .inl (caches side)⟩

/-- A refused access was refused by the walk, or by the permissions of what the walk found. -/
theorem walk_or_authorize_of_refused (pages : m.Pages v access) {base domains : Word}
    {refusal : Refusal}
    (answer : Tables.translate read m.control base domains v access = .error refusal) :
    (Walk.run read base v).result = .error refusal ∨
      ∃ mapping, (Walk.run read base v).result = .ok mapping ∧
        mapping.authorize domains m.control access = .error refusal := by
  rw [tables_translate_of_pages read pages] at answer
  cases walked : (Walk.run read base v).result with
  | error cause =>
    simp only [walked] at answer
    cases answer
    exact .inl rfl
  | ok mapping =>
    simp only [walked] at answer
    split at answer <;> cases answer
    rename_i refused
    exact .inr ⟨mapping, rfl, refused⟩

/-- The unit faults only after reads that all succeeded. -/
theorem no_read_failed_of_fault (pages : m.Pages v access) {base domains : Word}
    {status : FaultStatus} {domain : Byte}
    (answer : Tables.translate read m.control base domains v access = .error (.fault status domain))
    (cause : Failure) :
    ¬ ∃ address ∈ (Walk.run read base v).reads, read address = .error cause := by
  rw [← Walk.run_eq_failure_iff]
  intro failed
  obtain faulted | ⟨mapping, walked, -⟩ := walk_or_authorize_of_refused pages answer
  · rw [failed] at faulted
    cases faulted
  · rw [failed] at walked
    cases walked

/-- Any other failure is fatal, or was met by a read. -/
theorem fatal_or_read_failed (pages : m.Pages v access) {base domains : Word} {cause : Failure}
    (answer : Tables.translate read m.control base domains v access = .error (.failure cause)) :
    cause.isFatal = true ∨
      ∃ address ∈ (Walk.run read base v).reads, read address = .error cause := by
  obtain failed | ⟨mapping, -, undecided⟩ := walk_or_authorize_of_refused pages answer
  · exact .inr (Walk.run_eq_failure_iff.mp failed)
  · obtain rfl := authorize_failure undecided
    exact .inl rfl

/-- A walk reads at least one descriptor. -/
theorem reads_ne_nil (read : Word → Except Failure Word) (base v : Word) :
    (Walk.run read base v).reads ≠ [] :=
  List.ne_nil_of_mem (Walk.firstLevelAddress_mem_reads read base v)

theorem effects_of_hit (pages : m.Pages v access) (e : CachedBlock) :
    m.Effects read v access ⟨.ok (e.translate v), m.countLookup.countHit, []⟩ where
  answered := fun p _ => .of_sameCaches rfl fun other => by cases other <;> rfl
  aborted := by
    intro a failed
    contradiction
  failed := by
    intro cause failed
    contradiction
  lookups := ⟨fun _ => rfl, fun outside => absurd pages outside⟩
  hits := ⟨fun _ => rfl, fun missed => absurd ⟨pages, ⟨_, rfl⟩, rfl⟩ missed⟩

/-- Permission bits without a meaning, met on a hit or after a walk, or a read that failed. -/
theorem effects_of_failure (pages : m.Pages v access) {cause : Failure} {reads : List Word}
    (source : cause.isFatal = true ∨ ∃ address ∈ reads, read address = .error cause) :
    m.Effects read v access ⟨.error cause, m.countLookup, reads⟩ where
  answered := by
    intro p answered
    contradiction
  aborted := by
    intro a failed raised
    cases failed
    rcases source with fatal | passed
    · contradiction
    · exact absurd passed raised
  failed := fun _ _ _ => rfl
  lookups := ⟨fun _ => rfl, fun outside => absurd pages outside⟩
  hits := by
    constructor
    · rintro ⟨-, ⟨p, answered⟩, -⟩
      contradiction
    · exact fun _ => rfl

theorem effects_of_fault (pages : m.Pages v access) {status : FaultStatus} {domain : Byte}
    (answer : Tables.translate read m.control m.tableBase m.domains v access =
      .error (.fault status domain)) :
    m.Effects read v access
      ⟨.error (.abort ⟨status, domain, v⟩), m.countLookup.recordFault ⟨status, domain, v⟩,
        (Walk.run read m.tableBase v).reads⟩ where
  answered := by
    intro p answered
    contradiction
  aborted := by
    intro a failed _
    cases failed
    exact ⟨rfl, rfl⟩
  failed := by
    intro cause failed passed
    cases failed
    rcases passed with fatal | passed
    · contradiction
    · exact absurd passed (no_read_failed_of_fault pages answer _)
  lookups := ⟨fun _ => rfl, fun outside => absurd pages outside⟩
  hits := ⟨fun hit => absurd hit.2.2 (reads_ne_nil read m.tableBase v), fun _ => rfl⟩

@[simp] theorem lookups_setCache (m : Mmu) (side : Side) (c : BlockCache) :
    (m.setCache side c).lookups = m.lookups := by cases side <;> rfl

@[simp] theorem hits_setCache (m : Mmu) (side : Side) (c : BlockCache) :
    (m.setCache side c).hits = m.hits := by cases side <;> rfl

theorem effects_of_walk (pages : m.Pages v access) (mapping : Mapping) (manager : Bool) :
    m.Effects read v access
      ⟨.ok mapping.physical,
        m.countLookup.setCache access.side
          ((m.cache access.side).insert v mapping.physical manager mapping.permission),
        (Walk.run read m.tableBase v).reads⟩ where
  answered := by
    intro p _
    constructor
    · exact registers_setCache _ _ _
    · intro other different
      rw [cache_setCache, if_neg (Ne.symm different), cache_countLookup]
    · have filled := cache_setCache m.countLookup access.side access.side
        ((m.cache access.side).insert v mapping.physical manager mapping.permission)
      rw [if_pos rfl] at filled
      exact .inr ⟨_, filled⟩
  aborted := by
    intro a failed
    contradiction
  failed := by
    intro cause failed
    contradiction
  lookups := by
    constructor
    · intro _
      exact lookups_setCache _ _ _
    · exact fun outside => absurd pages outside
  hits := by
    constructor
    · exact fun hit => absurd hit.2.2 (reads_ne_nil read m.tableBase v)
    · intro _
      exact hits_setCache _ _ _

theorem Answers.effects (answers : m.Answers read v access t) : m.Effects read v access t := by
  cases answers with
  | identity off =>
    have outside : ¬ m.Pages v access := not_pages_of_disabled off
    constructor
    · exact fun p _ => .of_sameCaches rfl fun _ => rfl
    · intro a failed
      contradiction
    · intro cause failed
      contradiction
    · exact ⟨fun pages => absurd pages outside, fun _ => rfl⟩
    · exact ⟨fun hit => absurd hit.1 outside, fun _ => rfl⟩
  | misaligned on checked odd =>
    have outside := not_pages_of_misaligned checked odd
    constructor
    · intro p answered
      contradiction
    · intro a failed _
      cases failed
      exact ⟨rfl, rfl⟩
    · intro cause failed passed
      cases failed
      rcases passed with fatal | ⟨address, none, -⟩ <;> contradiction
    · exact ⟨fun pages => absurd pages outside, fun _ => rfl⟩
    · exact ⟨fun hit => absurd hit.1 outside, fun _ => rfl⟩
  | hit pages e found allowed => exact effects_of_hit pages e
  | undecided pages e found cause failed =>
    unfold CachedBlock.allows at failed
    split at failed
    · contradiction
    · obtain rfl := permits_error failed
      exact effects_of_failure pages (.inl rfl)
  | refused pages missed refusal answer =>
    cases refusal with
    | fault status domain => exact effects_of_fault pages answer
    | failure cause => exact effects_of_failure pages (fatal_or_read_failed pages answer)
  | walked pages missed mapping manager found granted =>
    exact effects_of_walk pages mapping manager

end Mmu

namespace PagingEvent

def isTranslation : PagingEvent → Bool
  | translate _ _ => true
  | _ => false

end PagingEvent

namespace Mmu

/-- The statistics are those of at most `accesses` accesses. -/
structure Counts (m : Mmu) (accesses : Nat) : Prop where
  hits : m.hits ≤ m.lookups
  lookups : m.lookups ≤ accesses

variable {m m' : Mmu} {accesses : Nat}

theorem Counts.congr (counts : m.Counts accesses) (hits : m'.hits = m.hits)
    (lookups : m'.lookups = m.lookups) : m'.Counts accesses := by
  constructor
  · rw [hits, lookups]
    exact counts.hits
  · rw [lookups]
    exact counts.lookups

/-- No access hits without being counted. -/
theorem Counts.translate (counts : m.Counts accesses) {read : Word → Except Failure Word}
    {v : Word} {access : Access} {t : Resolution} (effects : m.Effects read v access t) :
    t.mmu.Counts (accesses + 1) := by
  have before := counts.hits
  have bound := counts.lookups
  by_cases pages : m.Pages v access
  · have lookups := effects.lookups.grows pages
    by_cases hit : m.Pages v access ∧ (∃ p, t.result = .ok p) ∧ t.reads = []
    · have hits := effects.hits.grows hit
      constructor <;> omega
    · have hits := effects.hits.stands hit
      constructor <;> omega
  · have lookups := effects.lookups.stands pages
    have hits := effects.hits.stands fun hit => pages hit.1
    constructor <;> omega

@[simp] theorem hits_invalidate (m : Mmu) (opcode : Nat) (address : Word) (side : Side) :
    (m.invalidate opcode address side).hits = m.hits := by
  unfold invalidate
  split <;> simp

@[simp] theorem lookups_invalidate (m : Mmu) (opcode : Nat) (address : Word) (side : Side) :
    (m.invalidate opcode address side).lookups = m.lookups := by
  unfold invalidate
  split <;> simp

theorem Counts.writeRegister (counts : m.Counts accesses) (register operand opcode : Nat)
    (value : Word) : (m.writeRegister register operand opcode value).Counts accesses := by
  by_cases caches : register = 8
  · subst caches
    rw [writeRegister_caches]
    generalize operandSides operand = sides
    induction sides generalizing m with
    | nil => exact counts
    | cons side rest ih => exact ih (counts.congr (by simp) (by simp))
  · refine counts.congr ?_ ?_
    · unfold Mmu.writeRegister
      split <;> first | rfl | contradiction
    · unfold Mmu.writeRegister
      split <;> first | rfl | contradiction

end Mmu

namespace PagedMemory

theorem counts_after {s : PagedMemory} {accesses : Nat} (counts : s.mmu.Counts accesses)
    (event : PagingEvent) :
    (s.after event).mmu.Counts (accesses + [event].countP PagingEvent.isTranslation) := by
  cases event with
  | translate v access => exact counts.translate (s.mmu.translate_answers s.read v access).effects
  | writeRegister register operand opcode value =>
    exact counts.writeRegister register operand opcode value
  | takeFault => exact counts.congr rfl rfl
  | reset => exact counts.congr rfl rfl
  | edit read => exact counts

theorem counts_run {s : PagedMemory} {accesses : Nat} (counts : s.mmu.Counts accesses)
    (history : List PagingEvent) :
    (s.run history).mmu.Counts (accesses + history.countP PagingEvent.isTranslation) := by
  induction history generalizing s accesses with
  | nil => exact counts
  | cons event rest ih =>
    have later := ih (counts_after counts event)
    rw [Nat.add_assoc, ← List.countP_append] at later
    exact later

/-- A translation that succeeds rewrites at most the slot of its address; one that faults leaves the
whole record of its fault and nothing else; one that ends otherwise, be it by an abort that a
descriptor read ended in, leaves no trace but a count. The counters tell the accesses that asked a
cache from those it served, so over the life of a unit they never cross. -/
theorem translate_effects :
    (∀ (m : Mmu) (read : Word → Except Failure Word) (v : Word) (access : Access),
      m.Effects read v access (m.translate read v access)) ∧
      ∀ (pagingAllowed : Bool) (read : Word → Except Failure Word) (history : List PagingEvent),
        let m := (run ⟨.initial pagingAllowed, read⟩ history).mmu
        m.hits ≤ m.lookups ∧ m.misses + m.hits = m.lookups ∧
          m.lookups ≤ history.countP PagingEvent.isTranslation := by
  constructor
  · intro m read v access
    exact (m.translate_answers read v access).effects
  · intro pagingAllowed read history m
    have fresh : (Mmu.initial pagingAllowed).Counts 0 := ⟨Nat.le_refl 0, Nat.le_refl 0⟩
    have counts := counts_run (s := ⟨.initial pagingAllowed, read⟩) fresh history
    have bound := counts.lookups
    rw [Nat.zero_add] at bound
    exact ⟨counts.hits, Nat.sub_add_cancel counts.hits, bound⟩

/-- The abort of somebody else's access. -/
def foreignAbort : Abort := ⟨.pagePermission, 3, 0x20⟩

/-- Where reading the first descriptor ends in such an abort, the unit passes it on. It does not
record it, and the abort is not even about the address that was asked for. -/
theorem foreign_abort_leaves_no_record :
    let m : Mmu := { Mmu.initial true with control := 1 }
    let t := m.translate (fun _ => .error (.abort foreignAbort)) 0x1000 (.fetch true)
    t.result = .error (.abort foreignAbort) ∧ t.mmu = { m with lookups := 1 } ∧
      ¬ m.Aborts t.mmu 0x1000 foreignAbort := by
  refine ⟨rfl, rfl, ?_⟩
  intro aborts
  exact absurd aborts.address (by decide)

end PagedMemory
end ArmMachine
