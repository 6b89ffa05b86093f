import ArmMachine.Proofs.Paging.Blocks

/-! A cache is transparent while every block it holds is what the tables yield for each address of
the block. `Mmu.Answers` lists once what a translation can do; all later facts about `translate`
are read off its cases. -/
namespace ArmMachine

/-- Translation by the tables alone, under given control, table base and domain registers. -/
def Tables.translate (read : Word → Except Failure Word) (control base domains v : Word)
    (access : Access) : Except Refusal Word :=
  if !Control.translates control then .ok v
  else if Control.checksAlignment control && !access.width.isAligned v then
    .error (.fault .alignment 0)
  else
    match (Walk.run read base v).result with
    | .error refusal => .error refusal
    | .ok mapping =>
      match mapping.authorize domains control access with
      | .error refusal => .error refusal
      | .ok _ => .ok mapping.physical

theorem Mapping.rule_of_authorize {m : Mapping} {domains control : Word} {access : Access}
    {manager : Bool} (granted : m.authorize domains control access = .ok manager) :
    m.domainRule domains = if manager then 3 else 1 := by
  unfold Mapping.authorize at granted
  split at granted
  · rename_i client
    split at granted <;> cases granted
    simpa using client
  · split at granted <;> cases granted
    simpa

namespace CachedBlock

/-- Whether a held block lets an access through. -/
def allows (e : CachedBlock) (control : Word) (access : Access) : Except Failure Bool :=
  if e.manager then .ok true else permits e.permission control access.privileged access.write

end CachedBlock

namespace BlockCache

theorem holds_iff (e : CachedBlock) (v : Word) :
    e.holds v = true ↔ e.valid = true ∧ e.block = blockNumber v := by
  simp [CachedBlock.holds]

theorem lookup_eq_some_iff {c : BlockCache} {v : Word} {e : CachedBlock} :
    c.lookup v = some e ↔
      c.slot (slotOf v) = e ∧ e.valid = true ∧ e.block = blockNumber v := by
  unfold lookup
  by_cases held : (c.slot (slotOf v)).holds v = true
  · simp only [held, if_true, Option.some.injEq]
    constructor
    · rintro rfl
      exact ⟨rfl, (holds_iff _ _).mp held⟩
    · exact fun found => found.1
  · simp only [held]
    constructor
    · intro absent
      contradiction
    · rintro ⟨rfl, valid, block⟩
      exact absurd ((holds_iff _ _).mpr ⟨valid, block⟩) held

theorem slotOf_of_blockNumber_eq {v w : Word} (same : blockNumber v = blockNumber w) :
    slotOf v = slotOf w :=
  congrArg BitVec.toFin (extractLsb'_of_blockNumber_eq same 8 (Nat.le_refl 10))

/-- An inserted block is found, and the one that its slot held before is not. -/
theorem lookup_insert (c : BlockCache) (w p : Word) (manager : Bool) (permission : Byte)
    (v : Word) :
    (c.insert w p manager permission).lookup v =
      if blockNumber w = blockNumber v then
        some ⟨blockNumber w, p &&& ~~~blockOffsetMask, manager, permission, true⟩
      else if slotOf w = slotOf v then none else c.lookup v := by
  by_cases same : blockNumber w = blockNumber v
  · have shared := slotOf_of_blockNumber_eq same
    simp [lookup, slot_insert, shared, CachedBlock.holds, same]
  · by_cases shared : slotOf w = slotOf v
    · simp [lookup, slot_insert, shared, CachedBlock.holds, same]
    · simp [lookup, slot_insert, shared, same]

/-- A dropped block is not found, and every other one is as before, even in the same slot. -/
theorem lookup_invalidate (c : BlockCache) (w v : Word) :
    (c.invalidate w).lookup v = if blockNumber w = blockNumber v then none else c.lookup v := by
  by_cases same : blockNumber w = blockNumber v
  · have shared := slotOf_of_blockNumber_eq same
    by_cases held : (c.slot (slotOf v)).block = blockNumber v <;>
      simp [lookup, slot_invalidate, shared, CachedBlock.holds, same, held]
  · by_cases held : slotOf w = slotOf v ∧ (c.slot (slotOf v)).block = blockNumber w
    · simp [lookup, slot_invalidate, CachedBlock.holds, same, held]
    · simp [lookup, slot_invalidate, same, held]

/-- Every block held is what the tables yield for each of its addresses. -/
def Agrees (c : BlockCache) (read : Word → Except Failure Word) (base domains : Word) : Prop :=
  ∀ v e, c.lookup v = some e → ∃ mapping, (Walk.run read base v).result = .ok mapping ∧
    mapping.physical = e.translate v ∧ mapping.permission = e.permission ∧
    mapping.domainRule domains = if e.manager then 3 else 1

end BlockCache

/-- The block says of an address what the tables say. -/
def CachedBlock.Yielded (e : CachedBlock) (read : Word → Except Failure Word)
    (base domains v : Word) : Prop :=
  ∃ mapping, (Walk.run read base v).result = .ok mapping ∧ mapping.physical = e.translate v ∧
    mapping.permission = e.permission ∧ mapping.domainRule domains = if e.manager then 3 else 1

namespace BlockCache

/-- Every block held afterwards was held before, or is what the tables yield. -/
def Refills (c c' : BlockCache) (read : Word → Except Failure Word) (base domains : Word) : Prop :=
  ∀ v e, c'.lookup v = some e → c.lookup v = some e ∨ e.Yielded read base domains v

variable {c c' c'' : BlockCache} {read : Word → Except Failure Word} {base domains : Word}

theorem agrees_empty : empty.Agrees read base domains := by
  intro v e found
  rw [lookup_empty] at found
  contradiction

theorem refills_empty : c.Refills empty read base domains := by
  intro v e found
  rw [lookup_empty] at found
  contradiction

theorem refills_of_eq (same : c' = c) : c.Refills c' read base domains := by
  subst same
  exact fun _ _ held => .inl held

theorem Refills.trans (first : c.Refills c' read base domains)
    (next : c'.Refills c'' read base domains) : c.Refills c'' read base domains := by
  intro v e held
  obtain before | yielded := next v e held
  · exact first v e before
  · exact .inr yielded

theorem Agrees.of_refills (agrees : c.Agrees read base domains)
    (refills : c.Refills c' read base domains) : c'.Agrees read base domains := by
  intro v e held
  obtain before | yielded := refills v e held
  · exact agrees v e before
  · exact yielded

theorem refills_insert {w : Word} {mapping : Mapping} {manager : Bool}
    (found : (Walk.run read base w).result = .ok mapping)
    (rule : mapping.domainRule domains = if manager then 3 else 1) :
    c.Refills (c.insert w mapping.physical manager mapping.permission) read base domains := by
  intro v e held
  rw [lookup_insert] at held
  split at held
  · rename_i same
    cases held
    have walked := Walk.run_of_blockNumber_eq read same.symm base
    refine .inr ⟨mapping.movedTo v, ?_, rfl, rfl, rule⟩
    rw [walked, found]
    rfl
  · split at held
    · contradiction
    · exact .inl held

theorem refills_invalidate (w : Word) : c.Refills (c.invalidate w) read base domains := by
  intro v e held
  rw [lookup_invalidate] at held
  split at held
  · contradiction
  · exact .inl held

end BlockCache

namespace Mmu

/-- The answer of a unit without caches, and the fault registers it leaves. -/
def reference (m : Mmu) (read : Word → Except Failure Word) (v : Word) (access : Access) :
    Except Failure Word × Mmu :=
  match Tables.translate read m.control m.tableBase m.domains v access with
  | .ok physical => (.ok physical, m)
  | .error refusal => m.refuse v refusal

def Coherent (m : Mmu) (read : Word → Except Failure Word) (side : Side) : Prop :=
  (m.cache side).Agrees read m.tableBase m.domains

/-- A unit that has asked a cache once more. -/
def countLookup (m : Mmu) : Mmu := { m with lookups := m.lookups + 1 }

def countHit (m : Mmu) : Mmu := { m with hits := m.hits + 1 }

@[simp] theorem control_countLookup (m : Mmu) : m.countLookup.control = m.control := rfl

@[simp] theorem tableBase_countLookup (m : Mmu) : m.countLookup.tableBase = m.tableBase := rfl

@[simp] theorem domains_countLookup (m : Mmu) : m.countLookup.domains = m.domains := rfl

@[simp] theorem cache_countLookup (m : Mmu) (side : Side) :
    m.countLookup.cache side = m.cache side := by cases side <;> rfl

/-- The access is translated, and not refused for its alignment. -/
structure Pages (m : Mmu) (v : Word) (access : Access) : Prop where
  enabled : m.enabled = true
  aligned : Control.checksAlignment m.control = true → access.width.isAligned v = true

/-- The cache does not serve the access: it does not hold the block, or holds it without permission.
-/
def Misses (m : Mmu) (v : Word) (access : Access) : Prop :=
  ∀ e, (m.cache access.side).lookup v = some e → e.allows m.control access = .ok false

/-- What one translation can do. -/
inductive Answers (m : Mmu) (read : Word → Except Failure Word) (v : Word) (access : Access) :
    Resolution → Prop
  | identity (off : m.enabled = false) : Answers m read v access ⟨.ok v, m, []⟩
  | misaligned (on : m.enabled = true) (checked : Control.checksAlignment m.control = true)
      (odd : access.width.isAligned v = false) :
      Answers m read v access
        ⟨.error (.abort ⟨.alignment, 0, v⟩), m.recordFault ⟨.alignment, 0, v⟩, []⟩
  | hit (pages : m.Pages v access) (e : CachedBlock)
      (found : (m.cache access.side).lookup v = some e)
      (allowed : e.allows m.control access = .ok true) :
      Answers m read v access ⟨.ok (e.translate v), m.countLookup.countHit, []⟩
  | undecided (pages : m.Pages v access) (e : CachedBlock)
      (found : (m.cache access.side).lookup v = some e) (cause : Failure)
      (failed : e.allows m.control access = .error cause) :
      Answers m read v access ⟨.error cause, m.countLookup, []⟩
  | refused (pages : m.Pages v access) (missed : m.Misses v access) (refusal : Refusal)
      (answer : Tables.translate read m.control m.tableBase m.domains v access = .error refusal) :
      Answers m read v access
        ⟨(m.countLookup.refuse v refusal).1, (m.countLookup.refuse v refusal).2,
          (Walk.run read m.tableBase v).reads⟩
  | walked (pages : m.Pages v access) (missed : m.Misses v access) (mapping : Mapping)
      (manager : Bool) (found : (Walk.run read m.tableBase v).result = .ok mapping)
      (granted : mapping.authorize m.domains m.control access = .ok manager) :
      Answers m read v access
        ⟨.ok mapping.physical,
          m.countLookup.setCache access.side
            ((m.cache access.side).insert v mapping.physical manager mapping.permission),
          (Walk.run read m.tableBase v).reads⟩

variable {m : Mmu} {read : Word → Except Failure Word} {v : Word} {access : Access}

theorem reference_eq_ok_iff {p : Word} :
    (m.reference read v access).1 = .ok p ↔
      Tables.translate read m.control m.tableBase m.domains v access = .ok p := by
  unfold reference
  cases Tables.translate read m.control m.tableBase m.domains v access with
  | ok physical => simp
  | error refusal => cases refusal <;> simp [refuse]

theorem tables_translate_of_pages (read : Word → Except Failure Word) (pages : m.Pages v access)
    (base domains : Word) :
    Tables.translate read m.control base domains v access =
      match (Walk.run read base v).result with
      | .error refusal => .error refusal
      | .ok mapping =>
        match mapping.authorize domains m.control access with
        | .error refusal => .error refusal
        | .ok _ => .ok mapping.physical := by
  have on : Control.translates m.control = true := pages.enabled
  have even : (Control.checksAlignment m.control && !access.width.isAligned v) = false := by
    cases checked : Control.checksAlignment m.control with
    | false => rfl
    | true => simp [pages.aligned checked]
  simp only [Tables.translate, on, even, Bool.not_true, Bool.false_eq_true, if_false]

/-- A walk that the tables decide: it is refused, or it fills the slot of the address. -/
theorem translateByWalk_answers (read : Word → Except Failure Word) (pages : m.Pages v access)
    (missed : m.Misses v access) :
    Answers m read v access (m.countLookup.translateByWalk read v access) := by
  have answer := tables_translate_of_pages read pages m.tableBase m.domains
  simp only [translateByWalk, tableBase_countLookup, domains_countLookup, control_countLookup,
    cache_countLookup]
  cases found : (Walk.run read m.tableBase v).result with
  | error refusal =>
    simp only [found] at answer
    exact .refused pages missed refusal answer
  | ok mapping =>
    simp only [found] at answer
    cases granted : mapping.authorize m.domains m.control access with
    | error refusal =>
      simp only [granted] at answer ⊢
      exact .refused pages missed refusal answer
    | ok manager =>
      simp only [granted]
      exact .walked pages missed mapping manager found granted

theorem translateByCache_answers (pages : m.Pages v access) :
    Answers m read v access (m.translateByCache read v access) := by
  have same := congrArg (fun c => c.lookup v) (cache_countLookup m access.side)
  cases found : (m.cache access.side).lookup v with
  | none =>
    have missed : m.Misses v access := by
      intro e held
      rw [found] at held
      contradiction
    have walked := translateByWalk_answers read pages missed
    simp only [found, countLookup] at same
    simp only [translateByCache, same]
    exact walked
  | some e =>
    simp only [found, countLookup] at same
    cases allowed : e.allows m.control access with
    | error cause =>
      have undecided : Answers m read v access _ := .undecided pages e found cause allowed
      unfold CachedBlock.allows at allowed
      simp only [translateByCache, same, allowed]
      exact undecided
    | ok answer =>
      cases answer with
      | true =>
        have hit : Answers m read v access _ := .hit pages e found allowed
        unfold CachedBlock.allows at allowed
        simp only [translateByCache, same, allowed]
        exact hit
      | false =>
        have missed : m.Misses v access := by
          intro e' held
          obtain rfl := Option.some.inj (found.symm.trans held)
          exact allowed
        have walked := translateByWalk_answers read pages missed
        unfold CachedBlock.allows at allowed
        simp only [translateByCache, same, allowed]
        exact walked

theorem translate_answers (m : Mmu) (read : Word → Except Failure Word) (v : Word)
    (access : Access) : Answers m read v access (m.translate read v access) := by
  unfold translate
  cases on : m.enabled with
  | false => exact .identity on
  | true =>
    cases unaligned : Control.checksAlignment m.control && !access.width.isAligned v with
    | true =>
      simp only [Bool.and_eq_true, Bool.not_eq_true'] at unaligned
      exact .misaligned on unaligned.1 unaligned.2
    | false =>
      have pages : m.Pages v access := by
        refine ⟨on, fun checked => ?_⟩
        simpa [checked] using unaligned
      exact translateByCache_answers pages

theorem cache_setCache (m : Mmu) (side other : Side) (c : BlockCache) :
    (m.setCache side c).cache other = if side = other then c else m.cache other := by
  cases side <;> cases other <;> rfl

@[simp] theorem cache_refuse (m : Mmu) (v : Word) (refusal : Refusal) (side : Side) :
    (m.refuse v refusal).2.cache side = m.cache side := by
  cases refusal <;> cases side <;> rfl

@[simp] theorem tableBase_refuse (m : Mmu) (v : Word) (refusal : Refusal) :
    (m.refuse v refusal).2.tableBase = m.tableBase := by cases refusal <;> rfl

@[simp] theorem domains_refuse (m : Mmu) (v : Word) (refusal : Refusal) :
    (m.refuse v refusal).2.domains = m.domains := by cases refusal <;> rfl

@[simp] theorem tableBase_setCache (m : Mmu) (side : Side) (c : BlockCache) :
    (m.setCache side c).tableBase = m.tableBase := by cases side <;> rfl

@[simp] theorem domains_setCache (m : Mmu) (side : Side) (c : BlockCache) :
    (m.setCache side c).domains = m.domains := by cases side <;> rfl

@[simp] theorem control_setCache (m : Mmu) (side : Side) (c : BlockCache) :
    (m.setCache side c).control = m.control := by cases side <;> rfl

theorem Coherent.congr {m m' : Mmu} {side : Side} (coherent : m.Coherent read side)
    (cache : m'.cache side = m.cache side) (base : m'.tableBase = m.tableBase)
    (domains : m'.domains = m.domains) : m'.Coherent read side := by
  unfold Coherent
  rw [cache, base, domains]
  exact coherent

/-- What a unit shows apart from its caches and statistics. -/
def registers (m : Mmu) : Mmu :=
  { m with instructionCache := .empty, dataCache := .empty, hits := 0, lookups := 0 }

@[simp] theorem registers_setCache (m : Mmu) (side : Side) (c : BlockCache) :
    (m.setCache side c).registers = m.registers := by cases side <;> rfl

theorem registers_refuse (m : Mmu) (v : Word) (refusal : Refusal) :
    (m.refuse v refusal).2.registers = (m.registers.refuse v refusal).2 := by
  cases refusal <;> rfl

/-- A translation leaves the table base and the domain register alone. -/
theorem Answers.tables {t : Resolution} (answers : m.Answers read v access t) :
    t.mmu.tableBase = m.tableBase ∧ t.mmu.domains = m.domains := by
  cases answers with
  | identity off => exact ⟨rfl, rfl⟩
  | misaligned on checked odd => exact ⟨rfl, rfl⟩
  | hit pages e found allowed => exact ⟨rfl, rfl⟩
  | undecided pages e found cause failed => exact ⟨rfl, rfl⟩
  | refused pages missed refusal answer => simp
  | walked pages missed mapping manager found granted => simp

/-- A translation caches nothing but what the tables yield. -/
theorem Answers.refills {t : Resolution} (answers : m.Answers read v access t) (side : Side) :
    (m.cache side).Refills (t.mmu.cache side) read m.tableBase m.domains := by
  cases answers with
  | identity off => exact BlockCache.refills_of_eq rfl
  | misaligned on checked odd => exact BlockCache.refills_of_eq (by cases side <;> rfl)
  | hit pages e found allowed => exact BlockCache.refills_of_eq (by cases side <;> rfl)
  | undecided pages e found cause failed =>
    exact BlockCache.refills_of_eq (by cases side <;> rfl)
  | refused pages missed refusal answer =>
    exact BlockCache.refills_of_eq (by rw [cache_refuse, cache_countLookup])
  | walked pages missed mapping manager found granted =>
    simp only [cache_setCache, cache_countLookup]
    by_cases same : access.side = side
    · subst same
      rw [if_pos rfl]
      exact BlockCache.refills_insert found (Mapping.rule_of_authorize granted)
    · rw [if_neg same]
      exact BlockCache.refills_of_eq rfl

/-- A translation leaves coherent caches coherent, whichever side it uses. -/
theorem Answers.coherent {side : Side} {t : Resolution} (answers : m.Answers read v access t)
    (before : m.Coherent read side) : t.mmu.Coherent read side := by
  unfold Coherent
  rw [answers.tables.1, answers.tables.2]
  exact BlockCache.Agrees.of_refills before (answers.refills side)

/-- A block that agrees with the tables lets through exactly the accesses that the tables let
through, and fails where they fail. -/
theorem authorize_of_agrees {mapping : Mapping} {e : CachedBlock} {domains control : Word}
    (permission : mapping.permission = e.permission)
    (rule : mapping.domainRule domains = if e.manager then 3 else 1) (access : Access) :
    mapping.authorize domains control access =
      match e.allows control access with
      | .error cause => .error (.failure cause)
      | .ok true => .ok e.manager
      | .ok false => .error (.fault mapping.granule.permissionFault
          (mapping.domain.zeroExtend 8)) := by
  unfold Mapping.authorize CachedBlock.allows
  cases manager : e.manager with
  | true =>
    rw [manager, if_pos rfl] at rule
    simp [rule]
  | false =>
    rw [manager, if_neg Bool.false_ne_true] at rule
    cases decided : permits e.permission control access.privileged access.write with
    | error cause => simp [rule, permission, decided]
    | ok allowed => cases allowed <;> simp [rule, permission, decided]

/-- While the block that serves an access, if there is one, is what the tables yield, the answer and
every register are those of a unit without caches. -/
theorem Answers.eq_reference_of_yielded {t : Resolution} (answers : m.Answers read v access t)
    (yielded : ∀ e, (m.cache access.side).lookup v = some e →
      e.allows m.control access ≠ .ok false → e.Yielded read m.tableBase m.domains v) :
    t.result = (m.reference read v access).1 ∧
      t.mmu.registers = (m.reference read v access).2.registers := by
  cases answers with
  | identity off =>
    have off : Control.translates m.control = false := off
    simp [reference, Tables.translate, off]
  | misaligned on checked odd =>
    have on : Control.translates m.control = true := on
    simp [reference, Tables.translate, on, checked, odd, refuse]
  | hit pages e found allowed =>
    obtain ⟨mapping, walk, physical, permission, rule⟩ := yielded e found (by simp [allowed])
    have answer := tables_translate_of_pages read pages m.tableBase m.domains
    simp only [walk, authorize_of_agrees permission rule, allowed] at answer
    simp only [reference, answer, physical, true_and]
    rfl
  | undecided pages e found cause failed =>
    obtain ⟨mapping, walk, physical, permission, rule⟩ := yielded e found (by simp [failed])
    have answer := tables_translate_of_pages read pages m.tableBase m.domains
    simp only [walk, authorize_of_agrees permission rule, failed] at answer
    simp only [reference, answer, refuse, true_and]
    rfl
  | refused pages missed refusal answer =>
    simp only [reference, answer, registers_refuse]
    refine ⟨?_, rfl⟩
    cases refusal <;> rfl
  | walked pages missed mapping manager found granted =>
    have answer := tables_translate_of_pages read pages m.tableBase m.domains
    simp only [found, granted] at answer
    simp only [reference, answer, registers_setCache, true_and]
    rfl

/-- While the side of an access is coherent, the answer and every register are those of a unit
without caches. -/
theorem Answers.eq_reference {t : Resolution} (answers : m.Answers read v access t)
    (coherent : m.Coherent read access.side) :
    t.result = (m.reference read v access).1 ∧
      t.mmu.registers = (m.reference read v access).2.registers :=
  answers.eq_reference_of_yielded fun e found _ => coherent v e found

end Mmu
end ArmMachine
