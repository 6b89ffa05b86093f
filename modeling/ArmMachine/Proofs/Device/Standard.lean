import ArmMachine.Machine

/-! The devices of a machine. Whatever the guest does, they stay the three standard ones at their
addresses. A word that a device shows stays as it is between polls, unless a running timer shows
its count. -/
namespace ArmMachine

/-- The standard devices in a given state. -/
def DeviceTable.ofParts (c : InterruptController) (t : Timer) (u : Uart) : DeviceTable :=
  ⟨[⟨.interruptController, .interruptController c, true⟩, ⟨.timer, .timer t, true⟩,
    ⟨.uart, .uart u, true⟩]⟩

/-- Only the timer and the serial line raise interrupts, and the timer is controlled by one bit. -/
structure DeviceTable.Standard (d : DeviceTable) : Prop where
  parts : ∃ c t u, d = ofParts c t u ∧ c.pending &&& ~~~3#32 = 0 ∧ t.control &&& ~~~1#32 = 0

theorem toNat_le_of_and_not {x mask : Word} (clear : x &&& ~~~mask = 0) :
    x.toNat ≤ mask.toNat := by
  have within : x = x &&& mask := by
    apply BitVec.eq_of_getLsbD_eq
    intro i inside
    have bit := congrArg (fun w => w.getLsbD i) clear
    simp only [BitVec.getLsbD_and, BitVec.getLsbD_not, inside, decide_true, Bool.true_and] at bit
    rw [BitVec.getLsbD_and]
    cases set : x.getLsbD i with
    | false => rfl
    | true => simpa [set] using bit
  rw [within, BitVec.toNat_and]
  exact Nat.and_le_right

namespace InterruptController

theorem pending_write (c : InterruptController) (offset value : Word)
    (few : c.pending &&& ~~~3#32 = 0) : (c.write offset value).pending &&& ~~~3#32 = 0 := by
  unfold write
  dsimp only
  split
  · exact few
  · split
    · change c.pending &&& ~~~value &&& ~~~3#32 = 0
      rw [BitVec.and_assoc, BitVec.and_comm (~~~value), ← BitVec.and_assoc, few]
      exact BitVec.zero_and
    · exact few

theorem pending_raiseLines (c : InterruptController) {lines : Word}
    (few : c.pending &&& ~~~3#32 = 0) (raised : lines &&& ~~~3#32 = 0) :
    (c.raiseLines lines).pending &&& ~~~3#32 = 0 := by
  change (c.pending ||| lines) &&& ~~~3#32 = 0
  rw [BitVec.and_comm, BitVec.and_or_distrib_left, BitVec.and_comm _ c.pending, few,
    BitVec.and_comm _ lines, raised]
  rfl

theorem raiseLines_zero (c : InterruptController) : c.raiseLines 0 = c :=
  congrArg (fun pending => { c with pending }) BitVec.or_zero

/-- Only the mask can show more than a byte. -/
theorem mask_of_read {c : InterruptController} {offset w : Word}
    (few : c.pending &&& ~~~3#32 = 0) (large : 0xFF < w.toNat) (shown : c.read offset = w) :
    offset &&& ~~~3#32 = 0 ∧ c.mask = w := by
  unfold read at shown
  dsimp only at shown
  split at shown
  · rename_i register
    exact ⟨register, shown⟩
  · split at shown
    · subst shown
      have small := toNat_le_of_and_not few
      exact absurd small (by simp; omega)
    · subst shown
      cases large

end InterruptController

namespace Timer

/-- Only the count can show more than a byte. -/
theorem count_of_read {t : Timer} {offset w : Word} (single : t.control &&& ~~~1#32 = 0)
    (large : 0xFF < w.toNat) (shown : t.read offset = w) :
    offset &&& ~~~3#32 = 0 ∧ t.count = w := by
  unfold read at shown
  dsimp only at shown
  split at shown
  · rename_i register
    exact ⟨register, shown⟩
  · split at shown
    · subst shown
      have small := toNat_le_of_and_not single
      exact absurd small (by simp; omega)
    · subst shown
      cases large

/-- A poll leaves a timer that is not about to fire as it is, or counts it down. -/
theorem tick_cases {t : Timer} (far : 1 < t.count.toNat) :
    t.tick.2 = t ∨ t.tick.2.count = t.count - 1 := by
  unfold tick
  split
  · exact .inl rfl
  · split
    · rename_i last
      exact absurd (BitVec.le_def.mp last) (by simp; omega)
    · exact .inr rfl

theorem control_write (t : Timer) (offset value : Word) (single : t.control &&& ~~~1#32 = 0) :
    (t.write offset value).control &&& ~~~1#32 = 0 := by
  unfold write
  dsimp only
  split
  · exact single
  · split
    · change value &&& 1 &&& ~~~1#32 = 0
      rw [BitVec.and_assoc]
      simp
    · exact single

theorem control_tick (t : Timer) : t.tick.2.control = t.control := by
  unfold tick
  split
  · rfl
  · split <;> rfl

end Timer

theorem Uart.toNat_read_le (u : Uart) (offset : Word) : (u.read offset).1.toNat ≤ 0xFF := by
  have byte := (u.readByte offset).1.isLt
  change ((u.readByte offset).1.zeroExtend 32).toNat ≤ 0xFF
  rw [BitVec.zeroExtend, BitVec.toNat_setWidth]
  omega

namespace DeviceTable

variable {c : InterruptController} {t : Timer} {u : Uart} {d : DeviceTable} {address value : Word}
  {width : Width}

/-- The lines that a poll of the standard devices raises. -/
def linesOf (t : Timer) (u : Uart) : Word :=
  (if t.tick.1 then Device.timerLine else 0) ||| (if u.raises then Device.uartLine else 0)

theorem linesOf_few (t : Timer) (u : Uart) : linesOf t u &&& ~~~3#32 = 0 := by
  unfold linesOf
  split <;> split <;> decide

theorem poll_ofParts (c : InterruptController) (t : Timer) (u : Uart) :
    (ofParts c t u).poll = ofParts (c.raiseLines (linesOf t u)) t.tick.2 u := by
  have raised : (ofParts c t u).lines = linesOf t u := by
    simp [lines, ofParts, DeviceEntry.lines, Device.tick, linesOf]
  unfold poll
  rw [raised]
  dsimp only
  split
  · rename_i silent
    rw [silent, c.raiseLines_zero]
    rfl
  · rfl

theorem Standard.poll (standard : d.Standard) : d.poll.Standard := by
  obtain ⟨c, t, u, rfl, few, single⟩ := standard.parts
  rw [poll_ofParts]
  refine ⟨_, _, _, rfl, c.pending_raiseLines few (linesOf_few t u), ?_⟩
  rw [t.control_tick]
  exact single

theorem read_ofParts (c : InterruptController) (t : Timer) (u : Uart) (address : Word)
    (width : Width) :
    (ofParts c t u).read address width =
      if Region.interruptController.contains address then
        (some (c.read (Region.interruptController.offset address) &&& width.valueMask),
          ofParts c t u)
      else if Region.timer.contains address then
        (some (t.read (Region.timer.offset address) &&& width.valueMask), ofParts c t u)
      else if Region.uart.contains address then
        (some ((u.read (Region.uart.offset address)).1 &&& width.valueMask),
          ofParts c t (u.read (Region.uart.offset address)).2)
      else (none, ofParts c t u) := by
  simp only [read, ofParts, actFirst, DeviceEntry.claims, Bool.true_and]
  split
  · rfl
  · split
    · rfl
    · split <;> rfl

theorem Standard.read (standard : d.Standard) (address : Word) (width : Width) :
    (d.read address width).2.Standard := by
  obtain ⟨c, t, u, rfl, few, single⟩ := standard.parts
  rw [read_ofParts]
  split
  · exact ⟨c, t, u, rfl, few, single⟩
  · split
    · exact ⟨c, t, u, rfl, few, single⟩
    · split <;> exact ⟨_, _, _, rfl, few, single⟩

theorem Standard.write (standard : d.Standard) (address value : Word) (width : Width) :
    (d.write address value width).Standard := by
  obtain ⟨c, t, u, rfl, few, single⟩ := standard.parts
  simp only [DeviceTable.write, ofParts, actFirst, DeviceEntry.claims, Bool.true_and]
  split
  · exact ⟨_, _, _, rfl, c.pending_write _ _ few, single⟩
  · split
    · exact ⟨_, _, _, rfl, few, t.control_write _ _ single⟩
    · split <;> exact ⟨_, _, _, rfl, few, single⟩

/-- The devices after some polls. -/
def polled (d : DeviceTable) : Nat → DeviceTable
  | 0 => d
  | n + 1 => d.poll.polled n

/-- Reads of a word change nothing and give the same value, however often the devices are polled. -/
def Holds (d : DeviceTable) (address w : Word) : Prop :=
  ∀ n, (d.polled n).read address .word = (some w, d.polled n)

theorem Holds.read {w : Word} (holds : d.Holds address w) :
    d.read address .word = (some w, d) := holds 0

theorem Holds.poll {w : Word} (holds : d.Holds address w) : d.poll.Holds address w :=
  fun n => holds (n + 1)

theorem and_valueMask_word (w : Word) : w &&& Width.word.valueMask = w := by
  have mask : Width.word.valueMask = BitVec.allOnes 32 := rfl
  rw [mask, BitVec.and_allOnes]

theorem holds_mask (inside : Region.interruptController.contains address = true)
    (register : Region.interruptController.offset address &&& ~~~3#32 = 0)
    (c : InterruptController) (t : Timer) (u : Uart) :
    (ofParts c t u).Holds address c.mask := by
  intro n
  induction n generalizing c t with
  | zero =>
    have shown : c.read (Region.interruptController.offset address) = c.mask := by
      simp only [InterruptController.read, register, if_true]
    rw [polled, read_ofParts, if_pos inside, and_valueMask_word, shown]
  | succ n ih =>
    rw [polled, poll_ofParts]
    exact ih _ _

theorem holds_count (outside : Region.interruptController.contains address = false)
    (inside : Region.timer.contains address = true)
    (register : Region.timer.offset address &&& ~~~3#32 = 0) {t : Timer} (still : t.tick.2 = t)
    (c : InterruptController) (u : Uart) : (ofParts c t u).Holds address t.count := by
  intro n
  induction n generalizing c with
  | zero =>
    have shown : t.read (Region.timer.offset address) = t.count := by
      simp only [Timer.read, register, if_true]
    rw [polled, read_ofParts, outside, if_neg Bool.false_ne_true, if_pos inside,
      and_valueMask_word, shown]
  | succ n ih =>
    rw [polled, poll_ofParts, still]
    exact ih _

/-- A word that a device shows and that is more than a byte is held, or counted down by a poll. -/
theorem Standard.read_again (standard : d.Standard) {w : Word} {d' : DeviceTable}
    (large : 0xFF < w.toNat) (read : d.read address .word = (some w, d')) :
    d' = d ∧ (d.Holds address w ∨ (d.poll.read address .word).1 = some (w - 1)) := by
  obtain ⟨c, t, u, rfl, few, single⟩ := standard.parts
  simp only [read_ofParts, and_valueMask_word] at read
  split at read
  · rename_i inside
    cases read
    obtain ⟨register, mask⟩ := InterruptController.mask_of_read few large rfl
    rw [← mask]
    exact ⟨rfl, .inl (holds_mask inside register c t u)⟩
  · rename_i outside
    split at read
    · rename_i inside
      cases read
      obtain ⟨register, count⟩ := Timer.count_of_read single large rfl
      refine ⟨rfl, ?_⟩
      rw [← count] at large ⊢
      obtain still | down := t.tick_cases (by omega)
      · exact .inl (holds_count (Bool.eq_false_iff.mpr outside) inside register still c u)
      · refine .inr ?_
        have shown : t.tick.2.read (Region.timer.offset address) = t.count - 1 := by
          simp only [Timer.read, register, if_true, down]
        rw [poll_ofParts, read_ofParts, if_neg outside, if_pos inside, and_valueMask_word, shown]
    · split at read
      · cases read
        have small := u.toNat_read_le (Region.uart.offset address)
        omega
      · cases read

end DeviceTable
end ArmMachine
