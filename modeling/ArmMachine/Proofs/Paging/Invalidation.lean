import ArmMachine.Proofs.Paging.History
import ArmMachine.Proofs.Paging.Layout

/-! Dropping a single block after the tables were edited. A cache holds blocks of 1 KiB and the
operation drops one of them, so it makes the edit visible for the addresses of that block. Other
blocks of the same page that were cached before stay as they are: a page is renewed by dropping all
of its blocks. -/
namespace ArmMachine
namespace Mmu

/-- An access under `read` shows what a unit without caches shows under `read'`. -/
structure AnswersAs (m : Mmu) (read read' : Word → Except Failure Word) (v : Word)
    (access : Access) : Prop where
  result : (m.translate read v access).result = (m.reference read' v access).1
  registers : (m.translate read v access).mmu.registers = (m.reference read' v access).2.registers

variable {m : Mmu} {read read' : Word → Except Failure Word} {v : Word} {access : Access}

theorem answersAs_of_yielded
    (yielded : ∀ e, (m.cache access.side).lookup v = some e →
      e.allows m.control access ≠ .ok false → e.Yielded read m.tableBase m.domains v) :
    m.AnswersAs read read v access := by
  have same := (m.translate_answers read v access).eq_reference_of_yielded yielded
  exact ⟨same.1, same.2⟩

/-- An access that a cached block decides reads no descriptor. -/
theorem translate_congr_of_held (read read' : Word → Except Failure Word) {e : CachedBlock}
    (held : (m.cache access.side).lookup v = some e)
    (decides : e.allows m.control access ≠ .ok false) :
    m.translate read v access = m.translate read' v access := by
  have same : (m.countLookup.cache access.side).lookup v = some e := by
    rw [cache_countLookup]
    exact held
  unfold countLookup at same
  unfold translate translateByCache
  unfold CachedBlock.allows at decides
  simp only [same]
  split
  · rfl
  · split
    · rfl
    · split
      · rfl
      · rfl
      · rename_i refused
        exact absurd refused decides

/-- A cached block that decides an access shows the tables it was taken from, whatever they are now.
-/
theorem answersAs_of_held {e : CachedBlock} (held : (m.cache access.side).lookup v = some e)
    (decides : e.allows m.control access ≠ .ok false)
    (yielded : e.Yielded read' m.tableBase m.domains v) : m.AnswersAs read read' v access := by
  have old : m.AnswersAs read' read' v access := by
    apply answersAs_of_yielded
    intro e' held' _
    obtain rfl := Option.some.inj (held.symm.trans held')
    exact yielded
  have same := translate_congr_of_held read read' held decides
  constructor
  · rw [same]
    exact old.result
  · rw [same]
    exact old.registers

/-- Dropping the block of `a` on both sides leaves neither with the block. -/
theorem lookup_writeRegister_invalidate (m : Mmu) {a w : Word}
    (same : blockNumber a = blockNumber w) (side : Side) :
    ((m.writeRegister 8 7 1 a).cache side).lookup w = none := by
  have both : m.writeRegister 8 7 1 a =
      (m.invalidate 1 a .instruction).invalidate 1 a .data := rfl
  rw [both, cache_invalidate, cache_invalidate]
  cases side <;> exact (BlockCache.lookup_invalidate _ a w).trans (if_pos same)

end Mmu

namespace PagedMemory

variable {s : PagedMemory}

/-- No event of the history changes what the blocks are taken from. -/
def Keeps : PagedMemory → List PagingEvent → Prop
  | _, [] => True
  | s, event :: rest => ¬ s.Changed (s.after event) ∧ Keeps (s.after event) rest

/-- While the tables are kept, a cache only ever gains blocks that they yield. -/
theorem Keeps.refills {history : List PagingEvent} (keeps : s.Keeps history) (side : Side) :
    (s.mmu.cache side).Refills ((s.run history).mmu.cache side) s.read s.mmu.tableBase
      s.mmu.domains := by
  induction history generalizing s with
  | nil => exact BlockCache.refills_of_eq rfl
  | cons event rest ih =>
    obtain ⟨base, domains, read⟩ := not_changed_iff.mp keeps.1
    have later := ih keeps.2
    rw [read, base, domains] at later
    exact (s.refills_after event side).trans later

theorem Keeps.unchanged {history : List PagingEvent} (keeps : s.Keeps history) :
    (s.run history).mmu.tableBase = s.mmu.tableBase ∧
      (s.run history).mmu.domains = s.mmu.domains ∧ (s.run history).read = s.read := by
  induction history generalizing s with
  | nil => exact ⟨rfl, rfl, rfl⟩
  | cons event rest ih =>
    obtain ⟨base, domains, read⟩ := not_changed_iff.mp keeps.1
    have later := ih keeps.2
    rw [base, domains, read] at later
    exact later

theorem Keeps.coherent {history : List PagingEvent} (keeps : s.Keeps history)
    (before : ∀ side, s.mmu.Coherent s.read side) (side : Side) :
    (s.run history).mmu.Coherent (s.run history).read side := by
  obtain ⟨base, domains, read⟩ := keeps.unchanged
  unfold Mmu.Coherent
  rw [base, domains, read]
  exact BlockCache.Agrees.of_refills (before side) (keeps.refills side)

theorem run_append (s : PagedMemory) (before later : List PagingEvent) :
    s.run (before ++ later) = (s.run before).run later := List.foldl_append

theorem Keeps.split {before later : List PagingEvent} (keeps : s.Keeps (before ++ later)) :
    s.Keeps before ∧ (s.run before).Keeps later := by
  induction before generalizing s with
  | nil => exact ⟨trivial, keeps⟩
  | cons event rest ih =>
    obtain ⟨kept, next⟩ := ih keeps.2
    exact ⟨⟨keeps.1, kept⟩, next⟩

/-- Once its block was dropped, an address is only ever served by what the tables yield. -/
theorem Keeps.yielded_of_invalidated {history : List PagingEvent} (keeps : s.Keeps history)
    {a w : Word} (dropped : .writeRegister 8 7 1 a ∈ history)
    (same : blockNumber a = blockNumber w) {side : Side} {e : CachedBlock}
    (held : ((s.run history).mmu.cache side).lookup w = some e) :
    e.Yielded s.read s.mmu.tableBase s.mmu.domains w := by
  obtain ⟨before, later, rfl⟩ := List.append_of_mem dropped
  obtain ⟨kept, next⟩ := keeps.split
  let t := (s.run before).after (.writeRegister 8 7 1 a)
  have whole : s.run (before ++ .writeRegister 8 7 1 a :: later) = t.run later := run_append _ _ _
  rw [whole] at held
  obtain ⟨base, domains, read⟩ := not_changed_iff.mp next.1
  obtain ⟨base', domains', read'⟩ := kept.unchanged
  have origin := next.2.refills side w e held
  rw [read, base, domains, read', base', domains'] at origin
  obtain cached | yielded := origin
  · have gone : (t.mmu.cache side).lookup w = none :=
      (s.run before).mmu.lookup_writeRegister_invalidate same side
    rw [gone] at cached
    contradiction
  · exact yielded

/-- After the descriptors were edited under coherent caches, an access shows the edited tables if
the block of its address was not cached then, or was dropped since; and every access shows the
edited tables or those before the edit. -/
theorem invalidated_block_follows_edit (s : PagedMemory)
    (coherent : ∀ side, s.mmu.Coherent s.read side) (read : Word → Except Failure Word)
    (history : List PagingEvent) (keeps : (s.after (.edit read)).Keeps history) (w : Word)
    (access : Access) :
    let m := ((s.after (.edit read)).run history).mmu
    ((s.mmu.cache access.side).lookup w = none ∨
        (∃ a, .writeRegister 8 7 1 a ∈ history ∧ blockNumber a = blockNumber w) →
      m.AnswersAs read read w access) ∧
    (m.AnswersAs read read w access ∨ m.AnswersAs read s.read w access) := by
  intro m
  obtain ⟨base, domains, -⟩ := keeps.unchanged
  have origin := keeps.refills access.side w
  have follows : (∀ e, (m.cache access.side).lookup w = some e →
      e.allows m.control access ≠ .ok false → e.Yielded read s.mmu.tableBase s.mmu.domains w) →
      m.AnswersAs read read w access := by
    intro yielded
    apply Mmu.answersAs_of_yielded
    rw [base, domains]
    exact yielded
  constructor
  · intro fresh
    apply follows
    intro e held _
    rcases fresh with absent | ⟨a, dropped, same⟩
    · obtain before | yielded := origin e held
      · have absent : ((s.after (.edit read)).mmu.cache access.side).lookup w = none := absent
        rw [absent] at before
        contradiction
      · exact yielded
    · exact keeps.yielded_of_invalidated dropped same held
  · by_cases stale : ∃ e, (m.cache access.side).lookup w = some e ∧
        e.allows m.control access ≠ .ok false ∧
        ¬ e.Yielded read s.mmu.tableBase s.mmu.domains w
    · -- The block is older than the edit, and nothing is read on a hit.
      obtain ⟨e, held, decides, foreign⟩ := stale
      have before : (s.mmu.cache access.side).lookup w = some e :=
        (origin e held).resolve_right foreign
      refine .inr (Mmu.answersAs_of_held held decides ?_)
      rw [base, domains]
      exact coherent access.side w e before
    · left
      apply follows
      intro e held decides
      exact Classical.byContradiction fun foreign => stale ⟨e, held, decides, foreign⟩

/-- A coarse table at 0x8000 for the megabyte at 0x10000000, with one second-level descriptor. -/
def onePage (descriptor address : Word) : Except Failure Word :=
  .ok (if address = 0x4400 then 0x8001 else if address = 0x8000 then descriptor else 0)

/-- A small page at 0x20000, for everyone. -/
def openPage : Word := 0x20FF2

def loadByte : Access := .data false false .byte

/-- Two blocks of the page have been read. -/
def twoBlocks : PagedMemory :=
  run ⟨{ Mmu.initial true with control := 1, tableBase := 0x4000, domains := 1 }, onePage openPage⟩
    [.translate 0x10000010 loadByte, .translate 0x10000410 loadByte]

theorem coherent_twoBlocks (side : Side) : twoBlocks.mmu.Coherent twoBlocks.read side := by
  apply Keeps.coherent
  · exact ⟨not_changed_iff.mpr ⟨by rfl, by rfl, rfl⟩, not_changed_iff.mpr ⟨by rfl, by rfl, rfl⟩,
      trivial⟩
  · exact fun side => Mmu.coherent_of_cache_empty (by cases side <;> rfl)

/-- The page is unmapped, and the block at its start dropped. -/
def unmapping : List PagingEvent := [.writeRegister 8 7 1 0x10000010]

theorem keeps_unmapping : (twoBlocks.after (.edit (onePage 0))).Keeps unmapping :=
  ⟨not_changed_iff.mpr ⟨by rfl, by rfl, rfl⟩, trivial⟩

theorem invalidated_block_follows_edit_unmapped :
    let m := ((twoBlocks.after (.edit (onePage 0))).run unmapping).mmu
    (m.AnswersAs (onePage 0) (onePage 0) 0x10000020 loadByte) ∧
      (m.translate (onePage 0) 0x10000020 loadByte).result =
        .error (.abort ⟨.pageUnmapped, 0, 0x10000020⟩) := by
  have follows := invalidated_block_follows_edit twoBlocks coherent_twoBlocks (onePage 0) unmapping
    keeps_unmapping 0x10000020 loadByte
  have dropped : .writeRegister 8 7 1 0x10000010 ∈ unmapping := List.mem_singleton.mpr rfl
  exact ⟨follows.1 (.inr ⟨0x10000010, dropped, by decide⟩), by rfl⟩

/-- The next block of the page is still served, although its only descriptor is gone. -/
theorem next_block_is_stale :
    (∀ side, twoBlocks.mmu.Coherent twoBlocks.read side) ∧
      Tables.Leads twoBlocks.read twoBlocks.mmu.tableBase 0x10000010 [0x4400, 0x8000]
        (.ok ⟨.small, openPage, 0⟩) ∧
      (∀ address, address ≠ 0x8000 → onePage 0 address = twoBlocks.read address) ∧
      (0x10000410#32).toNat / Extent.small.bytes = (0x10000010#32).toNat / Extent.small.bytes ∧
      let m := ((twoBlocks.after (.edit (onePage 0))).run unmapping).mmu
      (m.translate (onePage 0) 0x10000410 loadByte).result = .ok 0x20410 ∧
        (m.reference (onePage 0) 0x10000410 loadByte).1 =
          .error (.abort ⟨.pageUnmapped, 0, 0x10000410⟩) := by
  refine ⟨coherent_twoBlocks, ?_, ?_, by rfl, by rfl, by rfl⟩
  · have base : twoBlocks.mmu.tableBase = 0x4000 := by rfl
    have place : Tables.FirstPlace 0x4000 0x10000010 0x4400 := by decide
    have first : twoBlocks.read 0x4400 = .ok 0x8001 := by rfl
    have next : Tables.SecondPlace .coarse 0x8001 0x10000010 0x8000 := by decide
    have second : twoBlocks.read 0x8000 = .ok openPage := by rfl
    rw [base]
    exact .found place first (.page (by decide) next second (by decide) (by decide))
  · intro address elsewhere
    have read : twoBlocks.read = onePage openPage := rfl
    simp only [read, onePage, if_neg elsewhere]

end PagedMemory
end ArmMachine
