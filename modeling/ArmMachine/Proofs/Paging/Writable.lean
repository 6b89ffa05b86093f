import ArmMachine.Board
import ArmMachine.Proofs.Paging.Coherence

/-! What the tables let unprivileged code write. Permission is decided for whole blocks of 1 KiB,
and no store leaves the block of its address; and tables that are not changed say the same. -/
namespace ArmMachine
namespace Tables

variable {read read' : Word → Except Failure Word} {control base domains v p q : Word}
  {access : Access}

/-- Some virtual address is mapped to `p` for unprivileged writes of bytes. -/
def Writable (read : Word → Except Failure Word) (control base domains p : Word) : Prop :=
  ∃ v, translate read control base domains v (.data true false .byte) = .ok p

theorem translate_eq_ok (on : Control.translates control = true) :
    translate read control base domains v access = .ok p ↔
      (Control.checksAlignment control = true → access.width.isAligned v = true) ∧
        ∃ mapping manager, (Walk.run read base v).result = .ok mapping ∧
          mapping.authorize domains control access = .ok manager ∧ mapping.physical = p := by
  unfold translate
  simp only [on, Bool.not_true, Bool.false_eq_true, if_false]
  cases checked : Control.checksAlignment control && !access.width.isAligned v with
  | true =>
    obtain ⟨checks, odd⟩ := (Bool.and_eq_true _ _).mp checked
    simp only [Bool.not_eq_true'] at odd
    simp [checks, odd]
  | false =>
    have even : Control.checksAlignment control = true → access.width.isAligned v = true := by
      intro checks
      simpa [checks] using checked
    simp only [Bool.false_eq_true, if_false]
    cases walk : (Walk.run read base v).result with
    | error refusal => simp
    | ok mapping =>
      cases granted : mapping.authorize domains control access with
      | error refusal => simp [granted]
      | ok manager => simpa [granted] using fun _ => even

/-- Where a wider write is allowed, a byte can be written. -/
theorem writable_of_translate (on : Control.translates control = true) {width : Width}
    (answer : translate read control base domains v (.data true false width) = .ok p) :
    Writable read control base domains p := by
  obtain ⟨_, mapping, manager, walk, granted, physical⟩ := (translate_eq_ok on).mp answer
  refine ⟨v, (translate_eq_ok on).mpr ⟨?_, mapping, manager, walk, granted, physical⟩⟩
  intro _
  simp [Access.data, Width.isAligned, Width.alignmentMask]

theorem Writable.of_blockNumber_eq (on : Control.translates control = true)
    (writable : Writable read control base domains p) (same : blockNumber q = blockNumber p) :
    Writable read control base domains q := by
  obtain ⟨v, answer⟩ := writable
  obtain ⟨_, mapping, manager, walk, granted, physical⟩ := (translate_eq_ok on).mp answer
  -- The same offset as `q`, in the block of `v`.
  let w := inBlockOf v q
  have walked := Walk.run_of_blockNumber_eq read (by simp [w] : blockNumber w = blockNumber v) base
  refine ⟨w, (translate_eq_ok on).mpr ⟨?_, mapping.movedTo w, manager, ?_, granted, ?_⟩⟩
  · intro _
    simp [Access.data, Width.isAligned, Width.alignmentMask]
  · rw [walked, walk]
    rfl
  · change inBlockOf mapping.physical w = q
    apply BitVec.eq_of_getLsbD_eq
    intro i _
    rw [physical, getLsbD_inBlockOf, getLsbD_inBlockOf]
    by_cases offset : i < 10
    · rw [if_pos offset, if_pos offset]
    · rw [if_neg offset, getLsbD_of_blockNumber_eq same (by omega)]

/-- Translation depends on the tables only through the walks. -/
theorem translate_congr (walks : ∀ v, Walk.run read' base v = Walk.run read base v) :
    translate read' control base domains v access =
      translate read control base domains v access := by
  simp only [translate, walks v]

end Tables

namespace Walk

variable {read read' : Word → Except Failure Word} {base v : Word}

theorem firstLevelAddress_mem_reads (read : Word → Except Failure Word) (base v : Word) :
    Tables.firstLevelAddress base v ∈ (run read base v).reads := by
  simp only [run]
  split
  · simp
  · split <;> simp

theorem second_congr {first : Word} {fine : Bool}
    (same : read' (second read first v fine).1 = read (second read first v fine).1) :
    second read' first v fine = second read first v fine := by
  simp only [second] at same ⊢
  rw [same]

/-- A walk that reads the same descriptors is the same walk. -/
theorem run_congr (same : ∀ address ∈ (run read base v).reads, read' address = read address) :
    run read' base v = run read base v := by
  have first := same _ (firstLevelAddress_mem_reads read base v)
  simp only [run] at same ⊢
  rw [first]
  cases found : read (Tables.firstLevelAddress base v) with
  | error cause => rfl
  | ok descriptor =>
    simp only [found] at same ⊢
    split
    · rfl
    · rfl
    · rename_i coarse
      simp only [coarse] at same
      rw [second_congr (same _ (by simp))]
    · rename_i fine
      simp only [fine] at same
      rw [second_congr (same _ (by simp))]

end Walk

theorem Mmu.Coherent.of_walks {m : Mmu} {read read' : Word → Except Failure Word} {side : Side}
    (coherent : m.Coherent read side)
    (walks : ∀ v, Walk.run read' m.tableBase v = Walk.run read m.tableBase v) :
    m.Coherent read' side := by
  intro v e found
  rw [walks]
  exact coherent v e found

end ArmMachine
