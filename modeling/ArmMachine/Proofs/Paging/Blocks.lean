import ArmMachine.Paging.Unit

/-! Mappings are uniform on blocks of 1 KiB: the tables are indexed by address bits above a block,
and every page is a whole number of blocks. One walk therefore answers for all addresses of a block,
up to the offset within it. -/
namespace ArmMachine

theorem getLsbD_blockOffsetMask (i : Nat) : blockOffsetMask.getLsbD i = decide (i < 10) := by
  by_cases inside : i < 32
  · have all : ∀ k : Fin 32, blockOffsetMask.getLsbD k = decide (k.val < 10) := by decide
    exact all ⟨i, inside⟩
  · rw [BitVec.getLsbD_of_ge _ _ (by omega)]
    exact (decide_eq_false (by omega)).symm

theorem getLsbD_of_blockNumber_eq {v w : Word} (same : blockNumber v = blockNumber w) {i : Nat}
    (above : 10 ≤ i) : v.getLsbD i = w.getLsbD i := by
  have bit := congrArg (fun b => b.getLsbD (i - 10)) same
  have position : 10 + (i - 10) = i := by omega
  simp only [blockNumber, BitVec.getLsbD_extractLsb', position] at bit
  by_cases inside : i < 32
  · have short : i - 10 < 22 := by omega
    simpa only [short, decide_true, Bool.true_and] using bit
  · rw [BitVec.getLsbD_of_ge _ _ (by omega), BitVec.getLsbD_of_ge _ _ (by omega)]

theorem extractLsb'_of_blockNumber_eq {v w : Word} (same : blockNumber v = blockNumber w)
    {start : Nat} (length : Nat) (above : 10 ≤ start) :
    v.extractLsb' start length = w.extractLsb' start length := by
  apply BitVec.eq_of_getLsbD_eq
  intro i _
  simp only [BitVec.getLsbD_extractLsb',
    getLsbD_of_blockNumber_eq same (by omega : 10 ≤ start + i)]

/-- The address at the offset of `v` in the block of `p`. -/
def inBlockOf (p v : Word) : Word := (p &&& ~~~blockOffsetMask) ||| (v &&& blockOffsetMask)

theorem getLsbD_inBlockOf (p v : Word) (i : Nat) :
    (inBlockOf p v).getLsbD i = if i < 10 then v.getLsbD i else p.getLsbD i := by
  by_cases inside : i < 32
  · simp only [inBlockOf, BitVec.getLsbD_or, BitVec.getLsbD_and, BitVec.getLsbD_not,
      getLsbD_blockOffsetMask, inside, decide_true, Bool.true_and]
    by_cases offset : i < 10 <;> simp [offset]
  · rw [BitVec.getLsbD_of_ge _ _ (by omega), BitVec.getLsbD_of_ge v _ (by omega),
      BitVec.getLsbD_of_ge p _ (by omega), ite_self]

@[simp] theorem blockNumber_inBlockOf (p v : Word) :
    blockNumber (inBlockOf p v) = blockNumber p := by
  apply BitVec.eq_of_getLsbD_eq
  intro i _
  have above : ¬ 10 + i < 10 := by omega
  simp only [blockNumber, BitVec.getLsbD_extractLsb', getLsbD_inBlockOf, above, if_false]

/-- An address that takes its high bits from a descriptor and at least its offset in a block from
`v` moves with `v` inside a block. -/
theorem splice_of_blockNumber_eq {v w high low : Word} (same : blockNumber v = blockNumber w)
    (descriptor : Word) (within : blockOffsetMask &&& low = blockOffsetMask)
    (outside : blockOffsetMask &&& high = 0) :
    (descriptor &&& high) ||| (v &&& low) =
      inBlockOf ((descriptor &&& high) ||| (w &&& low)) v := by
  apply BitVec.eq_of_getLsbD_eq
  intro i _
  have lowBit := congrArg (fun b => b.getLsbD i) within
  have highBit := congrArg (fun b => b.getLsbD i) outside
  simp only [BitVec.getLsbD_and, getLsbD_blockOffsetMask] at lowBit highBit
  rw [getLsbD_inBlockOf]
  by_cases offset : i < 10
  · simp only [offset, decide_true, Bool.true_and] at lowBit highBit
    simp [offset, lowBit, highBit]
  · simp [offset, getLsbD_of_blockNumber_eq same (by omega : 10 ≤ i)]

namespace Mapping

/-- The mapping of another address of the same block. -/
def movedTo (m : Mapping) (v : Word) : Mapping := { m with physical := inBlockOf m.physical v }

end Mapping

namespace Tables

theorem sectionMapping_of_blockNumber_eq {v w : Word} (same : blockNumber v = blockNumber w)
    (descriptor : Word) :
    sectionMapping descriptor v = (sectionMapping descriptor w).movedTo v := by
  simp only [sectionMapping, Mapping.movedTo, Mapping.mk.injEq, and_self, and_true]
  exact splice_of_blockNumber_eq same descriptor (by decide) (by decide)

theorem firstLevelAddress_of_blockNumber_eq {v w : Word} (same : blockNumber v = blockNumber w)
    (base : Word) : firstLevelAddress base v = firstLevelAddress base w := by
  simp only [firstLevelAddress, extractLsb'_of_blockNumber_eq same 12 (by decide : 10 ≤ 20)]

theorem secondLevelAddress_of_blockNumber_eq {v w : Word} (same : blockNumber v = blockNumber w)
    (descriptor : Word) (fine : Bool) :
    secondLevelAddress descriptor v fine = secondLevelAddress descriptor w fine := by
  simp only [secondLevelAddress, extractLsb'_of_blockNumber_eq same 10 (Nat.le_refl 10),
    extractLsb'_of_blockNumber_eq same 8 (by decide : 10 ≤ 12)]

/-- The quarters of large and small pages are whole blocks as well, so the permission bits agree. -/
theorem pageEntry?_of_blockNumber_eq {v w : Word} (same : blockNumber v = blockNumber w)
    (descriptor : Word) :
    pageEntry? descriptor v =
      ( pageEntry? descriptor w).map fun (physical, permission) =>
        (inBlockOf physical v, permission) := by
  unfold pageEntry?
  split
  · rfl
  · rw [extractLsb'_of_blockNumber_eq same 2 (by decide : 10 ≤ 14),
      splice_of_blockNumber_eq same descriptor (by decide) (by decide)]
    rfl
  · rw [extractLsb'_of_blockNumber_eq same 2 (Nat.le_refl 10),
      splice_of_blockNumber_eq same descriptor (by decide) (by decide)]
    rfl
  · rw [splice_of_blockNumber_eq same descriptor (by decide) (by decide)]
    rfl

end Tables

namespace Walk

variable {read : Word → Except Failure Word}

theorem second_of_blockNumber_eq {v w : Word} (same : blockNumber v = blockNumber w)
    (first : Word) (fine : Bool) :
    second read first v fine =
      ((second read first w fine).1, (second read first w fine).2.map fun m => m.movedTo v) := by
  simp only [second, Tables.secondLevelAddress_of_blockNumber_eq same]
  cases read (Tables.secondLevelAddress first w fine) with
  | error cause => rfl
  | ok descriptor =>
    simp only [Tables.pageEntry?_of_blockNumber_eq same descriptor]
    cases Tables.pageEntry? descriptor w <;> rfl

/-- Two addresses of one block read the same descriptors and find the same mapping, each at its own
offset. -/
theorem run_of_blockNumber_eq (read : Word → Except Failure Word) {v w : Word}
    (same : blockNumber v = blockNumber w) (base : Word) :
    run read base v =
      ⟨(run read base w).reads, (run read base w).result.map fun m => m.movedTo v⟩ := by
  simp only [run, Tables.firstLevelAddress_of_blockNumber_eq same]
  cases read (Tables.firstLevelAddress base w) with
  | error cause => rfl
  | ok first =>
    simp only [second_of_blockNumber_eq same, Tables.sectionMapping_of_blockNumber_eq same first]
    split <;> rfl

end Walk
end ArmMachine
