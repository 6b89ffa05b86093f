import ArmMachine.Proofs.Paging.Layout
import ArmMachine.Proofs.Paging.Writable

/-! Permission is monotone. What lets an access through lets through every access that asks for
less, which is more privileged or reads where the other writes: the permission bits do, the domain
does, the tables do, and so does a unit whose cache agrees with them, whether it serves either
access from the cache or from the tables. -/
namespace ArmMachine

/-- The first access asks for no more than the second: it is as privileged, and it writes only where
the second writes. -/
structure Access.AsksLess (less more : Access) : Prop where
  side : less.side = more.side
  width : less.width = more.width
  privileged : more.privileged = true → less.privileged = true
  write : less.write = true → more.write = true

theorem permits_eq_ok_true_iff (permission : Byte) (control : Word) (access : Access) :
    permits permission control access.privileged access.write = .ok true ↔
      ¬ Control.Meaningless (permission.toNat % 4) control ∧
        access.AllowedBy (permission.toNat % 4) control := by
  obtain ⟨undecided, decided⟩ := permits_iff permission control access
  by_cases meaning : Control.Meaningless (permission.toNat % 4) control
  · simp [undecided meaning, meaning]
  · obtain ⟨allowed, answer, table⟩ := decided meaning
    simp [answer, meaning, table]

variable {less more : Access}

/-- Every line of the permission table that lets an access through lets through what asks for less.
-/
theorem Access.AsksLess.allowedBy (asks : less.AsksLess more) {permission : Nat} {control : Word}
    (allowed : more.AllowedBy permission control) : less.AllowedBy permission control := by
  have reads : more.write = false → less.write = false := by
    have write := asks.write
    grind
  match permission with
  | 0 => exact ⟨reads allowed.1, fun system => asks.privileged (allowed.2 system)⟩
  | 1 => exact asks.privileged allowed
  | 2 => exact allowed.imp asks.privileged reads
  | n + 3 => exact trivial

/-- A manager lets everything through, and a client what the permission bits let through. -/
theorem Access.AsksLess.authorize (asks : less.AsksLess more) {m : Mapping} {domains control : Word}
    {manager : Bool} (granted : m.authorize domains control more = .ok manager) :
    m.authorize domains control less = .ok manager := by
  unfold Mapping.authorize at granted ⊢
  by_cases client : m.domainRule domains = 1
  · rw [if_pos client] at granted ⊢
    split at granted <;> cases granted
    rename_i permitted
    obtain ⟨meaning, allowed⟩ := (permits_eq_ok_true_iff _ _ more).mp permitted
    rw [(permits_eq_ok_true_iff _ _ less).mpr ⟨meaning, asks.allowedBy allowed⟩]
  · rw [if_neg client] at granted ⊢
    exact granted

theorem Access.AsksLess.translate (asks : less.AsksLess more)
    {read : Word → Except Failure Word} {control base domains v p : Word}
    (answered : Tables.translate read control base domains v more = .ok p) :
    Tables.translate read control base domains v less = .ok p := by
  cases on : Control.translates control with
  | false => simpa [Tables.translate, on] using answered
  | true =>
    obtain ⟨aligned, mapping, manager, walk, granted, place⟩ :=
      (Tables.translate_eq_ok on).mp answered
    rw [← asks.width] at aligned
    exact (Tables.translate_eq_ok on).mpr
      ⟨aligned, mapping, manager, walk, asks.authorize granted, place⟩

namespace Mmu

variable {m : Mmu} {read : Word → Except Failure Word} {v p : Word}

theorem Coherent.answers_asksLess (coherent : m.Coherent read more.side)
    (asks : less.AsksLess more) (answered : (m.translate read v more).result = .ok p) :
    (m.translate read v less).result = .ok p := by
  have whole := ((m.translate_answers read v more).eq_reference coherent).1
  have part := ((m.translate_answers read v less).eq_reference (asks.side ▸ coherent)).1
  rw [part, reference_eq_ok_iff]
  rw [whole, reference_eq_ok_iff] at answered
  exact asks.translate answered

/-- What unprivileged code may do at an address, privileged code may do there as well; and what may
be written may be read. Either way the address found is the same. -/
theorem permission_monotone (m : Mmu) (read : Word → Except Failure Word) (side : Side)
    (coherent : m.Coherent read side) (width : Width) (v p : Word) :
    (∀ write, (m.translate read v ⟨side, write, false, width⟩).result = .ok p →
        (m.translate read v ⟨side, write, true, width⟩).result = .ok p) ∧
      ∀ privileged, (m.translate read v ⟨side, true, privileged, width⟩).result = .ok p →
        (m.translate read v ⟨side, false, privileged, width⟩).result = .ok p := by
  refine ⟨fun write => coherent.answers_asksLess ⟨rfl, rfl, ?_, id⟩,
    fun privileged => coherent.answers_asksLess ⟨rfl, rfl, id, ?_⟩⟩
  · exact fun unprivileged => rfl
  · exact fun reads => rfl

/-- Unprivileged code may only read the last quarter of the page, whose block privileged code has
written and left in the cache. Privileged code may read what either of them may. -/
theorem permission_monotone_readOnlyQuarter :
    let m := (quarteredPage.translate quarteredTable 0x10013C10 (.data true true .byte)).mmu
    m.Coherent quarteredTable .data ∧
      (m.translate quarteredTable 0x10013C14 (.data false false .word)).result = .ok 0x00020C14 ∧
      (m.translate quarteredTable 0x10013C14 (.data false true .word)).result = .ok 0x00020C14 ∧
      (m.translate quarteredTable 0x10013C17 (.data true true .byte)).result = .ok 0x00020C17 ∧
      (m.translate quarteredTable 0x10013C17 (.data false true .byte)).result = .ok 0x00020C17 ∧
      (m.translate quarteredTable 0x10013C14 (.data true false .word)).result =
        .error (.abort ⟨.pagePermission, 5, 0x10013C14⟩) := by
  have start : quarteredPage.Coherent quarteredTable .data := BlockCache.agrees_empty
  have coherent := (quarteredPage.translate_answers quarteredTable 0x10013C10
    (.data true true .byte)).coherent start
  have word := permission_monotone _ quarteredTable .data coherent .word 0x10013C14 0x00020C14
  have byte := permission_monotone _ quarteredTable .data coherent .byte 0x10013C17 0x00020C17
  exact ⟨coherent, by rfl, word.1 false (by rfl), by rfl, byte.2 true (by rfl), by rfl⟩

end Mmu
end ArmMachine
