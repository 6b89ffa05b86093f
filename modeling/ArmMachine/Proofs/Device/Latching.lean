import ArmMachine.Proofs.Device.Standard

/-! Interrupt requests over time. Guest and host use the standard devices in any order, and the
devices are polled and reset in between; the interrupt controller shows a line exactly while a
request for it stands that the guest has not cleared. -/
namespace ArmMachine

/-- What may happen to the devices of a machine. -/
inductive DeviceEvent where
  | read (address : Word) (width : Width)
  | write (address value : Word) (width : Width)
  /-- The host queues bytes for the guest. -/
  | pushInput (bytes : List Byte)
  /-- The host takes what the guest wrote. -/
  | takeOutput
  | poll
  | reset

/-- Where the guest finds the latch of the interrupt controller. -/
def InterruptController.latchAddress : Word := 0x03000004

/-- The event takes a request for line `b` back: a one is written to its bit of the latch, within
the width of the access, or everything is reset. -/
def DeviceEvent.Clears : DeviceEvent → Nat → Prop
  | .write address value width, b =>
    address &&& ~~~3#32 = InterruptController.latchAddress ∧
      (value &&& width.valueMask).getLsbD b = true
  | .reset, _ => True
  | _, _ => False

/-- The timer runs, and the next poll brings its count to zero. -/
def Timer.Expires (t : Timer) : Prop := t.enabled = true ∧ t.reload ≠ 0 ∧ t.count ≤ 1

/-- A received byte waits or the transmitter has become empty, and the guest wants to be told. -/
def Uart.Asks (u : Uart) : Prop :=
  u.interruptEnable.getLsbD 0 = true ∧ u.received ≠ [] ∨
    u.interruptEnable.getLsbD 1 = true ∧ u.emptyPending = true

namespace DeviceTable

def perform (d : DeviceTable) : DeviceEvent → DeviceTable
  | .read address width => (d.read address width).2
  | .write address value width => d.write address value width
  | .pushInput bytes => d.pushInput bytes
  | .takeOutput => d.takeOutput.2
  | .poll => d.poll
  | .reset => d.reset

def after (d : DeviceTable) (history : List DeviceEvent) : DeviceTable := history.foldl perform d

/-- A poll now would raise line `b`: the timer has the first line and the serial line the second. -/
def Raises (d : DeviceTable) : Nat → Prop
  | 0 => ∃ t, d.timer? = some t ∧ t.Expires
  | 1 => ∃ u, d.uart? = some u ∧ u.Asks
  | _ => False

/-- Some poll of the history raised line `b`, and nothing after that poll cleared it. -/
def Stands (d : DeviceTable) (history : List DeviceEvent) (b : Nat) : Prop :=
  ∃ before later, history = before ++ .poll :: later ∧ (d.after before).Raises b ∧
    ∀ event ∈ later, ¬ event.Clears b

end DeviceTable

theorem Timer.tick_fires_iff (t : Timer) : t.tick.1 = true ↔ t.Expires := by
  unfold tick Expires
  cases running : t.enabled with
  | false => simp
  | true =>
    by_cases still : t.reload = 0
    · simp [still]
    · rw [if_neg (by simpa using still)]
      by_cases last : t.count ≤ 1
      · rw [if_pos last]
        exact iff_of_true rfl ⟨rfl, still, last⟩
      · rw [if_neg last]
        exact iff_of_false Bool.false_ne_true fun expires => last expires.2.2

theorem Uart.raises_iff (u : Uart) : u.raises = true ↔ u.Asks := by
  unfold raises interrupt Asks
  cases received : u.received with
  | nil =>
    cases u.interruptEnable.getLsbD 1 <;> cases u.emptyPending <;> simp
  | cons first rest =>
    cases u.interruptEnable.getLsbD 0 <;> cases u.interruptEnable.getLsbD 1 <;>
      cases u.emptyPending <;> simp

namespace InterruptController

/-- The latch is the second word of the window. -/
theorem register_eq_latch_iff (address : Word) :
    Region.interruptController.contains address = true ∧
        Region.interruptController.offset address &&& ~~~3#32 = 4 ↔
      address &&& ~~~3#32 = latchAddress := by
  have joined : address &&& ~~~3#32 =
      (address &&& 0xFFFFFFF8#32) ||| (address &&& ~~~0xFFFFFFF8#32 &&& ~~~3#32) := by
    have masks : ~~~3#32 = 0xFFFFFFF8#32 ||| (~~~0xFFFFFFF8#32 &&& ~~~3#32) := by decide
    rw [BitVec.and_assoc, ← BitVec.and_or_distrib_left, ← masks]
  unfold Region.contains Region.offset
  rw [decide_eq_true_iff]
  change address &&& 0xFFFFFFF8#32 = 0x03000000#32 ∧
    address &&& ~~~0xFFFFFFF8#32 &&& ~~~3#32 = 4#32 ↔ _
  constructor
  · rintro ⟨window, register⟩
    rw [joined, window, register]
    rfl
  · intro latch
    have upper : 0xFFFFFFF8#32 = ~~~3#32 &&& 0xFFFFFFF8#32 := by decide
    have lower : ~~~0xFFFFFFF8#32 &&& ~~~3#32 = ~~~3#32 &&& ~~~0xFFFFFFF8#32 := BitVec.and_comm ..
    constructor
    · rw [upper, ← BitVec.and_assoc, latch]
      rfl
    · rw [BitVec.and_assoc, lower, ← BitVec.and_assoc, latch]
      rfl

theorem pending_bit_write (c : InterruptController) (offset value : Word) (b : Nat) :
    (c.write offset value).pending.getLsbD b = true ↔
      c.pending.getLsbD b = true ∧ ¬ (offset &&& ~~~3#32 = 4 ∧ value.getLsbD b = true) := by
  unfold write
  dsimp only
  by_cases latch : offset &&& ~~~3#32 = 4
  · have other : ¬ offset &&& ~~~3#32 = 0 := by
      rw [latch]
      decide
    rw [if_neg other, if_pos latch]
    change (c.pending &&& ~~~value).getLsbD b = true ↔ _
    rw [BitVec.getLsbD_and, BitVec.getLsbD_not, Bool.and_eq_true]
    refine and_congr_right fun stands => ?_
    have inside := BitVec.lt_of_getLsbD stands
    simp only [inside, decide_true, Bool.true_and, Bool.not_eq_true', latch, true_and,
      Bool.not_eq_true]
  · rw [if_neg latch]
    split <;> simp only [latch, false_and, not_false_eq_true, and_true]

theorem pending_bit_raiseLines (c : InterruptController) (lines : Word) (b : Nat) :
    (c.raiseLines lines).pending.getLsbD b = true ↔
      c.pending.getLsbD b = true ∨ lines.getLsbD b = true := by
  simp [raiseLines]

end InterruptController

namespace DeviceTable

variable (c : InterruptController) (t : Timer) (u : Uart)

theorem linesOf_bit (b : Nat) :
    (linesOf t u).getLsbD b = true ↔ (ofParts c t u).Raises b := by
  match b with
  | 0 =>
    have line : (linesOf t u).getLsbD 0 = t.tick.1 := by
      unfold linesOf
      cases t.tick.1 <;> cases u.raises <;> rfl
    rw [line, t.tick_fires_iff]
    exact ⟨fun expires => ⟨t, rfl, expires⟩, fun ⟨_, own, expires⟩ => Option.some.inj own ▸ expires⟩
  | 1 =>
    have line : (linesOf t u).getLsbD 1 = u.raises := by
      unfold linesOf
      cases t.tick.1 <;> cases u.raises <;> rfl
    rw [line, u.raises_iff]
    exact ⟨fun asks => ⟨u, rfl, asks⟩, fun ⟨_, own, asks⟩ => Option.some.inj own ▸ asks⟩
  | b + 2 =>
    have small := toNat_le_of_and_not (linesOf_few t u)
    have bound : (linesOf t u).toNat < 2 ^ (b + 2) :=
      calc (linesOf t u).toNat < 2 ^ 2 := Nat.lt_succ_of_le small
        _ ≤ 2 ^ (b + 2) := Nat.pow_le_pow_right (by decide) (Nat.le_add_left 2 b)
    have clear : (linesOf t u).getLsbD (b + 2) = false := Nat.testBit_lt_two_pow bound
    rw [clear]
    exact iff_of_false Bool.false_ne_true id

theorem write_ofParts (address value : Word) (width : Width) :
    (ofParts c t u).write address value width =
      if Region.interruptController.contains address then
        ofParts
          (c.write (Region.interruptController.offset address) (value &&& width.valueMask)) t u
      else if Region.timer.contains address then
        ofParts c (t.write (Region.timer.offset address) (value &&& width.valueMask)) u
      else if Region.uart.contains address then
        ofParts c t (u.write (Region.uart.offset address) (value &&& width.valueMask))
      else ofParts c t u := by
  simp only [write, ofParts, actFirst, DeviceEntry.claims, Bool.true_and]
  split
  · rfl
  · split
    · rfl
    · split <;> rfl

/-- One event: a poll latches the lines that it raises, and a latched line stays until it is
cleared. -/
theorem perform_ofParts (event : DeviceEvent) :
    ∃ c' t' u', (ofParts c t u).perform event = ofParts c' t' u' ∧
      ∀ b, c'.pending.getLsbD b = true ↔
        event = .poll ∧ (ofParts c t u).Raises b ∨
          c.pending.getLsbD b = true ∧ ¬ event.Clears b := by
  cases event with
  | read address width =>
    have kept : ∃ u', (ofParts c t u).perform (.read address width) = ofParts c t u' := by
      unfold perform
      dsimp only
      rw [read_ofParts]
      split
      · exact ⟨u, rfl⟩
      · split
        · exact ⟨u, rfl⟩
        · split
          · exact ⟨_, rfl⟩
          · exact ⟨u, rfl⟩
    obtain ⟨u', same⟩ := kept
    exact ⟨c, t, u', same, fun b => by simp [DeviceEvent.Clears]⟩
  | write address value width =>
    unfold perform
    dsimp only
    rw [write_ofParts]
    by_cases window : Region.interruptController.contains address = true
    · rw [if_pos window]
      refine ⟨_, t, u, rfl, fun b => ?_⟩
      have latch := InterruptController.register_eq_latch_iff address
      simp only [window, true_and] at latch
      rw [c.pending_bit_write, DeviceEvent.Clears, latch]
      simp
    · have uncleared : ∀ b, ¬ (DeviceEvent.write address value width).Clears b :=
        fun b clears => window ((InterruptController.register_eq_latch_iff address).mpr clears.1).1
      rw [if_neg window]
      split
      · exact ⟨c, _, u, rfl, fun b => by simp [uncleared]⟩
      · split
        · exact ⟨c, t, _, rfl, fun b => by simp [uncleared]⟩
        · exact ⟨c, t, u, rfl, fun b => by simp [uncleared]⟩
  | pushInput bytes => exact ⟨c, t, _, rfl, fun b => by simp [DeviceEvent.Clears]⟩
  | takeOutput => exact ⟨c, t, _, rfl, fun b => by simp [DeviceEvent.Clears]⟩
  | poll =>
    refine ⟨_, _, _, poll_ofParts c t u, fun b => ?_⟩
    rw [c.pending_bit_raiseLines, linesOf_bit c]
    simp [DeviceEvent.Clears, or_comm]
  | reset =>
    refine ⟨_, _, _, rfl, fun b => ?_⟩
    simp [DeviceEvent.Clears, InterruptController.initial]

variable {d : DeviceTable} {b : Nat}

/-- The poll that a standing request goes back to is the first event or a later one. -/
theorem stands_cons {event : DeviceEvent} {rest : List DeviceEvent} :
    d.Stands (event :: rest) b ↔
      (event = .poll ∧ d.Raises b) ∧ (∀ later ∈ rest, ¬ later.Clears b) ∨
        (d.perform event).Stands rest b := by
  constructor
  · rintro ⟨before, later, split, raised, uncleared⟩
    cases before with
    | nil =>
      obtain ⟨rfl, rfl⟩ := List.cons.inj split
      exact .inl ⟨⟨rfl, raised⟩, uncleared⟩
    | cons first before =>
      obtain ⟨rfl, rfl⟩ := List.cons.inj split
      exact .inr ⟨before, later, rfl, raised, uncleared⟩
  · rintro (⟨⟨rfl, raised⟩, uncleared⟩ | ⟨before, later, rfl, raised, uncleared⟩)
    · exact ⟨[], rest, rfl, raised, uncleared⟩
    · exact ⟨event :: before, later, rfl, raised, uncleared⟩

/-- A whole history: a line is latched by a request that stands, or was latched from the start. -/
theorem after_ofParts (history : List DeviceEvent) :
    ∃ c' t' u', (ofParts c t u).after history = ofParts c' t' u' ∧
      ∀ b, c'.pending.getLsbD b = true ↔
        (ofParts c t u).Stands history b ∨
          c.pending.getLsbD b = true ∧ ∀ event ∈ history, ¬ event.Clears b := by
  induction history generalizing c t u with
  | nil =>
    refine ⟨c, t, u, rfl, fun b => ?_⟩
    have empty : ¬ (ofParts c t u).Stands [] b := by
      rintro ⟨before, later, split, -⟩
      cases before <;> cases split
    simp [empty]
  | cons event rest ih =>
    obtain ⟨c₁, t₁, u₁, step, latched⟩ := perform_ofParts c t u event
    obtain ⟨c', t', u', run, stands⟩ := ih c₁ t₁ u₁
    refine ⟨c', t', u', ?_, fun b => ?_⟩
    · rw [after, List.foldl_cons, step]
      exact run
    · rw [stands, latched, stands_cons, step, List.forall_mem_cons]
      grind

/-- No interrupt request is lost and none is invented. Whatever guest and host do with the standard
devices, a bit of the latch is set exactly while some poll has raised its line and no event since
has cleared it; and the interrupt controller asserts its output exactly while a latched line is
enabled. -/
theorem interrupts_latched (interval : Word) (history : List DeviceEvent) :
    let d := (standard interval).after history
    ∃ c, d.controller? = some c ∧
      (d.read Region.interruptController.base .word).1 = some c.mask ∧
      (d.read InterruptController.latchAddress .word).1 = some c.pending ∧
      (∀ b, c.pending.getLsbD b = true ↔ (standard interval).Stands history b) ∧
      (d.irqPending = true ↔ c.pending &&& c.mask ≠ 0) := by
  have start : standard interval = ofParts .initial (.ofInterval interval) .initial := rfl
  obtain ⟨c, t, u, run, latched⟩ := after_ofParts .initial (.ofInterval interval) .initial history
  rw [← start] at run latched
  intro d
  have parts : d = ofParts c t u := run
  have shown : ∀ address, Region.interruptController.contains address = true →
      (d.read address .word).1 = some (c.read (Region.interruptController.offset address)) := by
    intro address window
    rw [parts, read_ofParts, if_pos window, and_valueMask_word]
  refine ⟨c, ?_, shown _ (by decide), shown _ (by decide), fun b => ?_, ?_⟩
  · rw [parts]
    rfl
  · rw [latched]
    simp [InterruptController.initial]
  · have asserted : d.irqPending = c.asserted := by
      rw [parts]
      simp [irqPending, ofParts, DeviceEntry.assertsIrq, Device.assertsIrq]
    rw [asserted, InterruptController.asserted, bne_iff_ne]

end DeviceTable
end ArmMachine
