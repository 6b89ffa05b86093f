import Mathlib.Data.Set.Card
import ArmMachine.Proofs.Paging.Layout

/-! A block cache over time, as a map from blocks that forgets. A block is found exactly while the
latest event that touches its slot is the one that cached it. -/
namespace ArmMachine

/-- What may happen to a block cache. -/
inductive CacheEvent where
  | insert (address physical : Word) (manager : Bool) (permission : Byte)
  | invalidate (address : Word)
  | invalidateAll

namespace CacheEvent

/-- What was cached for the block of `v` is not found after the event: everything is dropped, or
this block is, or a block comes in whose number leaves the same remainder. -/
def Displaces (v : Word) : CacheEvent → Prop
  | .insert w _ _ _ => w.toNat / 1024 % 256 = v.toNat / 1024 % 256
  | .invalidate w => w.toNat / 1024 = v.toNat / 1024
  | .invalidateAll => True

/-- The event caches `p` for the block of `v`, maybe by another address of the block. -/
def Fills (event : CacheEvent) (v p : Word) (manager : Bool) (permission : Byte) : Prop :=
  ∃ w, event = .insert w p manager permission ∧ w.toNat / 1024 = v.toNat / 1024

end CacheEvent

/-- The history caches `p` for the block of `v`, and nothing displaces it afterwards. -/
def LastFill (history : List CacheEvent) (v p : Word) (manager : Bool) (permission : Byte) : Prop :=
  ∃ before event later, history = before ++ event :: later ∧ event.Fills v p manager permission ∧
    ∀ next ∈ later, ¬ next.Displaces v

/-- The entry by which `p` is cached for the block of `v`. -/
def CachedBlock.filled (v p : Word) (manager : Bool) (permission : Byte) : CachedBlock :=
  ⟨blockNumber v, p &&& ~~~blockOffsetMask, manager, permission, true⟩

theorem CachedBlock.toNat_translate_filled (v p : Word) (manager : Bool) (permission : Byte) :
    ((filled v p manager permission).translate v).toNat =
      p.toNat / 1024 * 1024 + v.toNat % 1024 :=
  toNat_spliced (k := 10) (by decide) (by decide) p v

theorem not_lastFill_nil (v p : Word) (manager : Bool) (permission : Byte) :
    ¬ LastFill [] v p manager permission := by
  rintro ⟨before, fill, later, split, -⟩
  cases before <;> cases split

/-- The fill that a lookup goes back to is the first event or a later one. -/
theorem lastFill_cons {event : CacheEvent} {rest : List CacheEvent} {v p : Word} {manager : Bool}
    {permission : Byte} :
    LastFill (event :: rest) v p manager permission ↔
      event.Fills v p manager permission ∧ (∀ next ∈ rest, ¬ next.Displaces v) ∨
        LastFill rest v p manager permission := by
  constructor
  · rintro ⟨before, fill, later, split, fills, kept⟩
    cases before with
    | nil =>
      obtain ⟨rfl, rfl⟩ := List.cons.inj split
      exact .inl ⟨fills, kept⟩
    | cons first before =>
      obtain ⟨rfl, rfl⟩ := List.cons.inj split
      exact .inr ⟨before, fill, later, rfl, fills, kept⟩
  · rintro (⟨fills, kept⟩ | ⟨before, fill, later, rfl, fills, kept⟩)
    · exact ⟨[], event, rest, rfl, fills, kept⟩
    · exact ⟨event :: before, fill, later, rfl, fills, kept⟩

namespace BlockCache

def after (c : BlockCache) : CacheEvent → BlockCache
  | .insert w p manager permission => c.insert w p manager permission
  | .invalidate w => c.invalidate w
  | .invalidateAll => empty

def run (c : BlockCache) (history : List CacheEvent) : BlockCache := history.foldl after c

theorem toNat_slotOf (v : Word) : (slotOf v).val = v.toNat / 1024 % 256 := by
  rw [slotOf, BitVec.val_toFin, BitVec.extractLsb'_toNat, Nat.shiftRight_eq_div_pow]

theorem slotOf_eq_iff {v w : Word} :
    slotOf w = slotOf v ↔ w.toNat / 1024 % 256 = v.toNat / 1024 % 256 := by
  rw [← Fin.val_inj, toNat_slotOf, toNat_slotOf]

variable {c : BlockCache} {v : Word} {e : CachedBlock}

/-- One event: an entry is found if the event has just put it there, or if it was found before and
the event has not displaced it. -/
theorem lookup_after (event : CacheEvent) :
    (c.after event).lookup v = some e ↔
      (∃ p manager permission, event.Fills v p manager permission ∧
          e = .filled v p manager permission) ∨
        c.lookup v = some e ∧ ¬ event.Displaces v := by
  cases event with
  | insert w p manager permission =>
    rw [after, lookup_insert, CacheEvent.Displaces, ← slotOf_eq_iff]
    by_cases same : blockNumber w = blockNumber v
    · rw [if_pos same]
      constructor
      · intro hit
        obtain rfl := Option.some.inj hit
        refine .inl ⟨p, manager, permission, ⟨w, rfl, blockNumber_eq_iff.mp same⟩, ?_⟩
        rw [CachedBlock.filled, same]
      · rintro (⟨_, _, _, ⟨_, inserts, -⟩, rfl⟩ | ⟨-, kept⟩)
        · cases inserts
          rw [CachedBlock.filled, same]
        · exact absurd (slotOf_of_blockNumber_eq same) kept
    · have foreign : ¬ ∃ p' manager' permission',
          (CacheEvent.insert w p manager permission).Fills v p' manager' permission' ∧
            e = .filled v p' manager' permission' := by
        rintro ⟨_, _, _, ⟨_, inserts, block⟩, -⟩
        cases inserts
        exact same (blockNumber_eq_iff.mpr block)
      rw [if_neg same, or_iff_right foreign]
      by_cases shared : slotOf w = slotOf v <;> simp [shared]
  | invalidate w =>
    rw [after, lookup_invalidate, CacheEvent.Displaces, ← blockNumber_eq_iff]
    by_cases same : blockNumber w = blockNumber v <;> simp [CacheEvent.Fills, same]
  | invalidateAll => simp [after, CacheEvent.Fills, CacheEvent.Displaces]

/-- A whole history: an entry is found if its last fill stands, or if it was there from the start
and nothing has displaced it. -/
theorem lookup_run (history : List CacheEvent) :
    (c.run history).lookup v = some e ↔
      (∃ p manager permission, LastFill history v p manager permission ∧
          e = .filled v p manager permission) ∨
        c.lookup v = some e ∧ ∀ event ∈ history, ¬ event.Displaces v := by
  induction history generalizing c with
  | nil => simp [run, not_lastFill_nil]
  | cons event rest ih =>
    have step : c.run (event :: rest) = (c.after event).run rest := rfl
    rw [step, ih, lookup_after]
    simp only [lastFill_cons, List.forall_mem_cons]
    grind

theorem lookup_run_empty (history : List CacheEvent) :
    (empty.run history).lookup v = some e ↔
      ∃ p manager permission, LastFill history v p manager permission ∧
        e = .filled v p manager permission := by
  simp [lookup_run]

/-- Every valid entry lies in the slot of its block, so that a lookup finds it. -/
def Placed (c : BlockCache) : Prop :=
  ∀ i, (c.slot i).valid = true → (c.slot i).block.toNat % 256 = i.val

theorem placed_empty : empty.Placed := by
  intro i valid
  rw [slot_empty] at valid
  contradiction

theorem Placed.after (placed : c.Placed) (event : CacheEvent) : (c.after event).Placed := by
  intro i valid
  cases event with
  | insert w p manager permission =>
    rw [BlockCache.after, slot_insert] at valid ⊢
    by_cases here : slotOf w = i
    · rw [if_pos here, toNat_blockNumber, ← toNat_slotOf, here]
    · rw [if_neg here] at valid ⊢
      exact placed i valid
  | invalidate w =>
    rw [BlockCache.after, slot_invalidate] at valid ⊢
    split at valid
    · contradiction
    · rename_i other
      rw [if_neg other]
      exact placed i valid
  | invalidateAll => exact placed_empty i valid

theorem Placed.run (placed : c.Placed) (history : List CacheEvent) : (c.run history).Placed := by
  induction history generalizing c with
  | nil => exact placed
  | cons event rest ih => exact ih (placed.after event)

/-- The numbers of the blocks that a lookup finds. -/
def found (c : BlockCache) : Set Nat :=
  {block | ∃ v e, v.toNat / 1024 = block ∧ c.lookup v = some e}

/-- The slots that hold a valid entry. -/
def occupied (c : BlockCache) : Finset (Fin 256) := {i | (c.slot i).valid = true}

@[simp] theorem mem_occupied {i : Fin 256} : i ∈ c.occupied ↔ (c.slot i).valid = true := by
  simp [occupied]

theorem occupancy_eq_card (c : BlockCache) : c.occupancy = c.occupied.card := by
  have slots : c.slots = Vector.ofFn c.slot := by
    apply Vector.ext
    intro i inside
    rw [Vector.getElem_ofFn]
    rfl
  have count := (List.nodup_finRange 256).card_eq_countP (P := fun i => (c.slot i).valid = true)
  rw [occupancy, slots, ← Vector.countP_toList, Vector.toList_ofFn, List.ofFn_eq_map,
    List.countP_map, occupied, ← List.toFinset_finRange]
  simpa [Function.comp_def] using count.symm

theorem found_eq_image (placed : c.Placed) :
    c.found = (fun i => (c.slot i).block.toNat) '' c.occupied := by
  ext block
  constructor
  · rintro ⟨v, e, rfl, hit⟩
    obtain ⟨rfl, valid, here⟩ := lookup_eq_some_iff.mp hit
    refine ⟨slotOf v, mem_occupied.mpr valid, ?_⟩
    simp only [here, toNat_blockNumber]
  · rintro ⟨i, member, rfl⟩
    have valid := mem_occupied.mp member
    -- The first address of the block leads to the slot because the entry is placed.
    let v : Word := BitVec.ofNat 32 ((c.slot i).block.toNat * 1024)
    have number : v.toNat / 1024 = (c.slot i).block.toNat := by
      have bound := (c.slot i).block.isLt
      rw [BitVec.toNat_ofNat]
      omega
    have here : slotOf v = i := by
      rw [← Fin.val_inj, toNat_slotOf, number, placed i valid]
    refine ⟨v, c.slot i, number, lookup_eq_some_iff.mpr ⟨by rw [here], valid, ?_⟩⟩
    rw [← BitVec.toNat_inj, toNat_blockNumber, number]

theorem occupancy_eq_ncard (placed : c.Placed) : c.occupancy = c.found.ncard := by
  have apart : Set.InjOn (fun i => (c.slot i).block.toNat) c.occupied := by
    intro i first j second same
    have left := placed i (mem_occupied.mp first)
    have right := placed j (mem_occupied.mp second)
    have number : (c.slot i).block.toNat = (c.slot j).block.toNat := same
    rw [← Fin.val_inj, ← left, ← right, number]
  rw [found_eq_image placed, apart.ncard_image, Set.ncard_coe_finset,
    occupancy_eq_card]

/-- The cache is the map that a history leaves behind: it finds a block exactly if a fill of it has
not been displaced, says of it what that fill said, and counts the blocks it finds. -/
structure Remembers (c : BlockCache) (history : List CacheEvent) : Prop where
  finds : ∀ v, (∃ e, c.lookup v = some e) ↔
    ∃ p manager permission, LastFill history v p manager permission
  serves : ∀ v p manager permission, LastFill history v p manager permission →
    ∃ e, c.lookup v = some e ∧ e.manager = manager ∧ e.permission = permission ∧
      (e.translate v).toNat = p.toNat / 1024 * 1024 + v.toNat % 1024
  counts : c.occupancy = c.found.ncard
  bounded : c.occupancy ≤ 256

theorem run_empty_remembers (history : List CacheEvent) :
    (empty.run history).Remembers history where
  finds v := by
    constructor
    · rintro ⟨e, hit⟩
      obtain ⟨p, manager, permission, last, -⟩ := (lookup_run_empty history).mp hit
      exact ⟨p, manager, permission, last⟩
    · rintro ⟨p, manager, permission, last⟩
      exact ⟨_, (lookup_run_empty history).mpr ⟨p, manager, permission, last, rfl⟩⟩
  serves v p manager permission last :=
    ⟨.filled v p manager permission,
      (lookup_run_empty history).mpr ⟨p, manager, permission, last, rfl⟩, rfl, rfl,
      CachedBlock.toNat_translate_filled v p manager permission⟩
  counts := occupancy_eq_ncard (placed_empty.run history)
  bounded := Vector.countP_le_size

end BlockCache
end ArmMachine
