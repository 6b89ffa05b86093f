import ArmMachine.Paging.Coprocessor
import ArmMachine.Proofs.Paging.Coherence

/-! A paging unit over time. Registers are written, faults taken, the unit reset and the tables
edited in any order; as long as a side is dropped whole after a change of what its blocks were
taken from, and before it is used again, no translation shows that the unit has caches. -/
namespace ArmMachine

/-- A unit and the descriptors that its walks read. -/
structure PagedMemory where
  mmu : Mmu
  read : Word → Except Failure Word

inductive PagingEvent where
  | translate (v : Word) (access : Access)
  | writeRegister (register operand opcode : Nat) (value : Word)
  | takeFault
  | reset
  /-- The descriptors are replaced. -/
  | edit (read : Word → Except Failure Word)

/-- The event drops every block of a side. -/
def PagingEvent.Drops : PagingEvent → Side → Prop
  | .writeRegister 8 operand 0 _, side => side ∈ Mmu.operandSides operand
  | .reset, _ => True
  | _, _ => False

namespace PagedMemory

def initial (read : Word → Except Failure Word) : PagedMemory := ⟨.initial true, read⟩

def after (s : PagedMemory) : PagingEvent → PagedMemory
  | .translate v access => { s with mmu := (s.mmu.translate s.read v access).mmu }
  | .writeRegister register operand opcode value =>
    { s with mmu := s.mmu.writeRegister register operand opcode value }
  | .takeFault => { s with mmu := s.mmu.takeFault }
  | .reset => { s with mmu := s.mmu.reset }
  | .edit read => { s with read }

def run (s : PagedMemory) (history : List PagingEvent) : PagedMemory := history.foldl after s

/-- The table base, the domain register or some descriptor is not what it was. -/
def Changed (s t : PagedMemory) : Prop :=
  t.mmu.tableBase ≠ s.mmu.tableBase ∨ t.mmu.domains ≠ s.mmu.domains ∨ t.read ≠ s.read

/-- The sides that are stale after an event: a change makes both stale, and only dropping a side
makes it fresh again. -/
def StaleAfter (s : PagedMemory) (stale : Side → Prop) (event : PagingEvent) (side : Side) : Prop :=
  ¬ event.Drops side ∧ (stale side ∨ s.Changed (s.after event))

/-- No stale side is ever asked for a translation. -/
def Disciplined : PagedMemory → (Side → Prop) → List PagingEvent → Prop
  | _, _, [] => True
  | s, stale, event :: rest =>
    (∀ v access, event = .translate v access → ¬ stale access.side) ∧
      Disciplined (s.after event) (s.StaleAfter stale event) rest

/-- Every side that is not stale agrees with the tables. -/
def FreshCoherent (s : PagedMemory) (stale : Side → Prop) : Prop :=
  ∀ side, ¬ stale side → s.mmu.Coherent s.read side

end PagedMemory

namespace Mmu

variable {m : Mmu} {read : Word → Except Failure Word} {side : Side}

theorem coherent_of_cache_empty (dropped : m.cache side = .empty) : m.Coherent read side := by
  unfold Coherent
  rw [dropped]
  exact BlockCache.agrees_empty

theorem cache_invalidate (m : Mmu) (opcode : Nat) (address : Word) (side other : Side) :
    (m.invalidate opcode address side).cache other =
      if side = other then
        match opcode with
        | 0 => .empty
        | 1 => (m.cache other).invalidate address
        | _ => m.cache other
      else m.cache other := by
  match opcode with
  | 0 => exact cache_setCache m side other _
  | 1 =>
    simp only [invalidate, cache_setCache]
    by_cases same : side = other
    · rw [if_pos same, if_pos same, same]
    · rw [if_neg same, if_neg same]
  | n + 2 => simp [invalidate]

theorem refills_invalidate (m : Mmu) (opcode : Nat) (address : Word) (other side : Side)
    (base domains : Word) :
    (m.cache side).Refills ((m.invalidate opcode address other).cache side) read base domains := by
  rw [cache_invalidate]
  by_cases same : other = side
  · rw [if_pos same]
    split
    · exact BlockCache.refills_empty
    · exact BlockCache.refills_invalidate address
    · exact BlockCache.refills_of_eq rfl
  · rw [if_neg same]
    exact BlockCache.refills_of_eq rfl

theorem writeRegister_caches (m : Mmu) (operand opcode : Nat) (value : Word) :
    m.writeRegister 8 operand opcode value =
      (operandSides operand).foldl (fun m side => m.invalidate opcode value side) m := rfl

/-- A register write puts nothing into a cache. -/
theorem refills_writeRegister (m : Mmu) (register operand opcode : Nat) (value : Word) (side : Side)
    (base domains : Word) :
    (m.cache side).Refills ((m.writeRegister register operand opcode value).cache side)
      read base domains := by
  by_cases caches : register = 8
  · subst caches
    rw [writeRegister_caches]
    generalize operandSides operand = sides
    induction sides generalizing m with
    | nil => exact BlockCache.refills_of_eq rfl
    | cons other rest ih =>
      exact (m.refills_invalidate opcode value other side base domains).trans (ih _)
  · refine BlockCache.refills_of_eq ?_
    unfold Mmu.writeRegister
    split <;> first | (cases side <;> rfl) | contradiction

theorem cache_writeRegister_drop {operand : Nat} (named : side ∈ operandSides operand)
    (value : Word) : (m.writeRegister 8 operand 0 value).cache side = .empty := by
  rw [writeRegister_caches]
  unfold operandSides at named ⊢
  split at named <;> cases side <;> simp_all [cache_invalidate]

end Mmu

namespace PagedMemory

variable {s : PagedMemory} {stale : Side → Prop}

theorem cache_after_drop {event : PagingEvent} {side : Side} (drops : event.Drops side) :
    (s.after event).mmu.cache side = .empty := by
  unfold PagingEvent.Drops at drops
  split at drops
  · exact Mmu.cache_writeRegister_drop drops _
  · cases side <;> rfl
  · contradiction

/-- No event puts anything into a cache but what the tables yield at the time. -/
theorem refills_after (s : PagedMemory) (event : PagingEvent) (side : Side) :
    (s.mmu.cache side).Refills ((s.after event).mmu.cache side) s.read s.mmu.tableBase
      s.mmu.domains := by
  cases event with
  | translate v access => exact (s.mmu.translate_answers s.read v access).refills side
  | writeRegister register operand opcode value =>
    exact s.mmu.refills_writeRegister register operand opcode value side _ _
  | takeFault => exact BlockCache.refills_of_eq (by cases side <;> rfl)
  | reset =>
    have dropped : (s.after .reset).mmu.cache side = .empty := cache_after_drop trivial
    rw [dropped]
    exact BlockCache.refills_empty
  | edit read => exact BlockCache.refills_of_eq rfl

theorem not_changed_iff {s t : PagedMemory} :
    ¬ s.Changed t ↔ t.mmu.tableBase = s.mmu.tableBase ∧ t.mmu.domains = s.mmu.domains ∧
      t.read = s.read := by
  simp only [Changed, not_or, ne_eq, Classical.not_not]

theorem FreshCoherent.after (fresh : s.FreshCoherent stale) (event : PagingEvent) :
    (s.after event).FreshCoherent (s.StaleAfter stale event) := by
  intro side notStale
  by_cases drops : event.Drops side
  · exact Mmu.coherent_of_cache_empty (cache_after_drop drops)
  · -- The side was fresh before, and nothing its blocks depend on has changed.
    have kept : ¬ stale side ∧ ¬ s.Changed (s.after event) := by
      constructor
      · exact fun before => notStale ⟨drops, .inl before⟩
      · exact fun changed => notStale ⟨drops, .inr changed⟩
    have coherent := fresh side kept.1
    obtain ⟨base, domains, read⟩ := not_changed_iff.mp kept.2
    unfold Mmu.Coherent
    rw [read, base, domains]
    exact BlockCache.Agrees.of_refills coherent (s.refills_after event side)

theorem coherent_of_disciplined {history rest : List PagingEvent} {v : Word} {access : Access}
    (fresh : s.FreshCoherent stale)
    (disciplined : s.Disciplined stale (history ++ .translate v access :: rest)) :
    (s.run history).mmu.Coherent (s.run history).read access.side := by
  induction history generalizing s stale with
  | nil => exact fresh access.side (disciplined.1 v access rfl)
  | cons event later ih => exact ih (fresh.after event) disciplined.2

theorem initial_freshCoherent (read : Word → Except Failure Word) :
    (initial read).FreshCoherent fun _ => False :=
  fun side _ => Mmu.coherent_of_cache_empty (by cases side <;> rfl)

/-- Caches are transparent: in every disciplined history of a fresh unit, each translation gives the
answer and leaves the fault registers that the tables alone give under the current registers. -/
theorem translate_transparent (read : Word → Except Failure Word)
    (history rest : List PagingEvent) (v : Word) (access : Access)
    (disciplined : (initial read).Disciplined (fun _ => False)
      (history ++ .translate v access :: rest)) :
    let s := (initial read).run history
    let cached := s.mmu.translate s.read v access
    let plain := s.mmu.reference s.read v access
    cached.result = plain.1 ∧ cached.mmu.faultStatus = plain.2.faultStatus ∧
      cached.mmu.faultAddress = plain.2.faultAddress ∧
      cached.mmu.faultPending = plain.2.faultPending := by
  intro s cached plain
  have coherent := coherent_of_disciplined (initial_freshCoherent read) disciplined
  have same := (s.mmu.translate_answers s.read v access).eq_reference coherent
  refine ⟨same.1, ?_, ?_, ?_⟩
  · exact congrArg (fun m => m.faultStatus) same.2
  · exact congrArg (fun m => m.faultAddress) same.2
  · exact congrArg (fun m => m.faultPending) same.2

/-- One megabyte at 0xC0100000, mapped to `frame` for everyone. -/
def megabyteTable (frame address : Word) : Except Failure Word :=
  .ok (if address = 0x7004 then frame ||| 0xC12 else 0)

/-- Paging is set up, the instruction side used, the table edited and only the data side dropped. -/
def remapping : List PagingEvent :=
  [.writeRegister 2 0 0 0x4000, .writeRegister 3 0 0 1, .writeRegister 8 7 0 0,
    .writeRegister 1 0 0 1, .translate 0xC0123456 (.fetch true),
    .edit (megabyteTable 0x00300000), .writeRegister 8 6 0 0]

theorem translate_transparent_remapped :
    (initial (megabyteTable 0x00200000)).Disciplined (fun _ => False)
        (remapping ++ [.translate 0xC0123456 (.data true false .byte)]) ∧
      let s := (initial (megabyteTable 0x00200000)).run remapping
      let cached := s.mmu.translate s.read 0xC0123456 (.data true false .byte)
      let plain := s.mmu.reference s.read 0xC0123456 (.data true false .byte)
      (cached.result = plain.1 ∧ cached.mmu.faultStatus = plain.2.faultStatus ∧
        cached.mmu.faultAddress = plain.2.faultAddress ∧
        cached.mmu.faultPending = plain.2.faultPending) ∧ cached.result = .ok 0x00323456 := by
  have disciplined : (initial (megabyteTable 0x00200000)).Disciplined (fun _ => False)
      (remapping ++ [.translate 0xC0123456 (.data true false .byte)]) := by
    refine ⟨?_, ?_, ?_, ?_, ?_, ?_, ?_, ?_, trivial⟩ <;> intro v access same <;> cases same
    · -- Both sides were dropped after the registers were set.
      rintro ⟨-, ⟨undropped, -⟩ | changed⟩
      · exact undropped (by decide : _ ∈ Mmu.operandSides _)
      · rcases changed with base | domains | read <;> contradiction
    · rintro ⟨undropped, -⟩
      exact undropped (by decide : _ ∈ Mmu.operandSides _)
  exact ⟨disciplined, translate_transparent _ _ [] _ _ disciplined, by rfl⟩

end PagedMemory
end ArmMachine
