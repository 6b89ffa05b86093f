import ArmMachine.Proofs.Paging.Coherence

/-! A translation that was answered is answered the same way when it is asked again: the block that
was used is in its slot, with the permission that was just checked. -/
namespace ArmMachine

/-- The block that a walk caches. -/
def CachedBlock.ofMapping (m : Mapping) (v : Word) (manager : Bool) : CachedBlock :=
  ⟨blockNumber v, m.physical &&& ~~~blockOffsetMask, manager, m.permission, true⟩

theorem BlockCache.lookup_insert_self (c : BlockCache) (m : Mapping) (v : Word) (manager : Bool) :
    (c.insert v m.physical manager m.permission).lookup v = some (.ofMapping m v manager) := by
  rw [lookup_insert, if_pos rfl]
  rfl

theorem Mapping.allows_of_authorize {m : Mapping} {domains control : Word} {access : Access}
    {manager : Bool} (granted : m.authorize domains control access = .ok manager) (v : Word) :
    (CachedBlock.ofMapping m v manager).allows control access = .ok true := by
  unfold CachedBlock.allows CachedBlock.ofMapping
  cases manager with
  | true => rfl
  | false =>
    unfold Mapping.authorize at granted
    split at granted
    · split at granted
      · cases granted
      · rename_i permitted
        exact permitted
      · cases granted
    · split at granted <;> cases granted

/-- A walk finds an address at the offset it was asked for. -/
theorem Walk.inBlockOf_physical {read : Word → Except Failure Word} {base v : Word}
    {mapping : Mapping} (found : (Walk.run read base v).result = .ok mapping) :
    inBlockOf mapping.physical v = mapping.physical := by
  have here : blockNumber v = blockNumber v := rfl
  have moved := congrArg Walk.result (Walk.run_of_blockNumber_eq read here base)
  rw [found] at moved
  exact (congrArg Mapping.physical (Except.ok.inj moved)).symm

namespace Mmu

variable {m : Mmu} {read : Word → Except Failure Word} {v p : Word} {access : Access}
  {t : Resolution}

theorem Answers.result_of_hit (answers : m.Answers read v access t) (pages : m.Pages v access)
    {e : CachedBlock} (found : (m.cache access.side).lookup v = some e)
    (allowed : e.allows m.control access = .ok true) : t.result = .ok (e.translate v) := by
  cases answers with
  | identity off =>
    rw [pages.enabled] at off
    contradiction
  | misaligned on checked odd =>
    rw [pages.aligned checked] at odd
    contradiction
  | hit _ e' found' allowed' =>
    rw [found] at found'
    cases found'
    rfl
  | undecided _ e' found' cause failed =>
    rw [found] at found'
    cases found'
    rw [allowed] at failed
    contradiction
  | refused _ missed refusal answer =>
    have refused := missed e found
    rw [allowed] at refused
    cases refused
  | walked _ missed mapping manager walk granted =>
    have refused := missed e found
    rw [allowed] at refused
    cases refused

theorem Answers.again (answers : m.Answers read v access t) (answered : t.result = .ok p) :
    (t.mmu.translate read v access).result = .ok p := by
  have next := t.mmu.translate_answers read v access
  cases answers with
  | identity off =>
    cases answered
    simp [translate, off]
  | misaligned on checked odd => cases answered
  | hit pages e found allowed =>
    cases answered
    refine next.result_of_hit ⟨pages.enabled, pages.aligned⟩ ?_ allowed
    rw [← found]
    cases access.side <;> rfl
  | undecided pages e found cause failed => cases answered
  | refused pages missed refusal answer => cases refusal <;> cases answered
  | walked pages missed mapping manager found granted =>
    cases answered
    let filled := m.countLookup.setCache access.side
      ((m.cache access.side).insert v mapping.physical manager mapping.permission)
    have control : filled.control = m.control := control_setCache _ _ _
    have held : (filled.cache access.side).lookup v = some (.ofMapping mapping v manager) := by
      rw [cache_setCache, if_pos rfl]
      exact BlockCache.lookup_insert_self _ mapping v manager
    have again : filled.Pages v access := by
      constructor
      · rw [Mmu.enabled, control]
        exact pages.enabled
      · rw [control]
        exact pages.aligned
    have allowed := Mapping.allows_of_authorize granted v
    rw [← control] at allowed
    refine (next.result_of_hit again held allowed).trans (congrArg Except.ok ?_)
    exact Walk.inBlockOf_physical found

end Mmu
end ArmMachine
