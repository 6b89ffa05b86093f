import Mathlib.Data.List.Induction
import ArmMachine.Proofs.Device.Latching

/-! The timer over time. From one count on, it fires at the tick that brings the count to zero and
then once in every reload value of ticks. Only ticks made while it runs are counted, so pausing it
shifts its interrupts without losing or repeating one. -/
namespace ArmMachine

/-- What may happen to a timer. A narrow write arrives as the value it carries. -/
inductive TimerEvent where
  | read (offset : Word)
  | write (offset value : Word)
  | reset
  | tick
  deriving DecidableEq

/-- The event gives the timer a count and a reload value. -/
def TimerEvent.Reloads : TimerEvent → Prop
  | .write offset _ => offset &&& ~~~3#32 = 0
  | .reset => True
  | .read _ | .tick => False

namespace Timer

def perform (t : Timer) : TimerEvent → Timer
  | .read _ => t
  | .write offset value => t.write offset value
  | .reset => t.reset
  | .tick => t.tick.2

def after (t : Timer) (history : List TimerEvent) : Timer := history.foldl perform t

/-- How many ticks of a history find the timer running. -/
def runningTicks (t : Timer) : List TimerEvent → Nat
  | [] => 0
  | event :: rest =>
    (if event = .tick ∧ t.enabled = true then 1 else 0) + (t.perform event).runningTicks rest

/-- The count lies between one and the reload value; with no reload value it is zero. -/
structure InRange (t : Timer) : Prop where
  counting : t.reload ≠ 0 → 1 ≤ t.count.toNat ∧ t.count.toNat ≤ t.reload.toNat
  still : t.reload = 0 → t.count = 0

/-- The count that `n` ticks make of `count`. -/
def countAfter (reload count n : Nat) : Nat :=
  if count ≤ n then reload - (n - count) % reload else count - n

section Arithmetic
variable {reload count : Nat} (n : Nat)

theorem succ_mod_eq (positive : 0 < reload) :
    (n + 1) % reload = if n % reload + 1 = reload then 0 else n % reload + 1 := by
  have below := Nat.mod_lt n positive
  rw [← Nat.mod_add_mod]
  split
  · rename_i last
    rw [last, Nat.mod_self]
  · exact Nat.mod_eq_of_lt (by omega)

variable (low : 1 ≤ count) (high : count ≤ reload)
include low high

/-- One more tick: a count of one is reloaded, any other goes down. -/
theorem countAfter_succ :
    countAfter reload count (n + 1) =
      if countAfter reload count n ≤ 1 then reload else countAfter reload count n - 1 := by
  have positive : 0 < reload := by omega
  by_cases past : count ≤ n
  · have below := Nat.mod_lt (n - count) positive
    have next := succ_mod_eq (n - count) positive
    rw [show n - count + 1 = n + 1 - count by omega] at next
    rw [countAfter, countAfter, if_pos (by omega), if_pos past, next]
    split <;> split <;> omega
  · rw [countAfter, countAfter, if_neg past]
    by_cases reached : count = n + 1
    · rw [if_pos (by omega), if_pos (by omega), reached, Nat.sub_self, Nat.zero_mod, Nat.sub_zero]
    · rw [if_neg (by omega), if_neg (by omega)]
      omega

/-- The count is at its last one just before the ticks that lie whole reload values after the first
one that brings it to zero. -/
theorem countAfter_le_one_iff :
    countAfter reload count n ≤ 1 ↔ ∃ j, n + 1 = count + j * reload := by
  have positive : 0 < reload := by omega
  by_cases past : count ≤ n
  · have below := Nat.mod_lt (n - count) positive
    have next := succ_mod_eq (n - count) positive
    rw [show n - count + 1 = n + 1 - count by omega] at next
    rw [countAfter, if_pos past]
    constructor
    · intro last
      rw [if_pos (by omega)] at next
      obtain ⟨j, whole⟩ := Nat.dvd_of_mod_eq_zero next
      refine ⟨j, ?_⟩
      rw [Nat.mul_comm, ← whole]
      omega
    · rintro ⟨j, numbered⟩
      rw [numbered, Nat.add_sub_cancel_left, Nat.mul_mod_left] at next
      split at next <;> omega
  · rw [countAfter, if_neg past]
    constructor
    · intro last
      exact ⟨0, by omega⟩
    · rintro ⟨j, numbered⟩
      omega

end Arithmetic

theorem inRange_ofInterval (interval : Word) : (ofInterval interval).InRange where
  counting nonzero :=
    ⟨Nat.pos_of_ne_zero fun zero => nonzero (BitVec.eq_of_toNat_eq zero), Nat.le_refl _⟩
  still zero := zero

theorem tick_of_paused {t : Timer} (paused : t.enabled = false) : t.tick = (false, t) := by
  rw [tick, paused]
  rfl

theorem tick_of_still {t : Timer} (still : t.reload = 0) : t.tick = (false, t) := by
  rw [tick, if_pos (by simp [still])]

theorem tick_of_running {t : Timer} (running : t.enabled = true) (moving : t.reload ≠ 0) :
    t.tick =
      if t.count ≤ 1 then (true, { t with count := t.reload })
      else (false, { t with count := t.count - 1 }) := by
  rw [tick, if_neg (by simpa [running] using moving)]

theorem write_of_not_reloads {t : Timer} {offset value : Word}
    (other : ¬ (TimerEvent.write offset value).Reloads) :
    ∃ control, t.write offset value = { t with control } := by
  have elsewhere : ¬ offset &&& ~~~3#32 = 0 := other
  unfold write
  dsimp only
  rw [if_neg elsewhere]
  split
  · exact ⟨_, rfl⟩
  · exact ⟨t.control, rfl⟩

theorem toNat_le_one {w : Word} : w ≤ 1 ↔ w.toNat ≤ 1 := by
  rw [BitVec.le_def]
  rfl

theorem toNat_sub_one {w : Word} (large : ¬ w ≤ 1) : (w - 1).toNat = w.toNat - 1 := by
  have more : 1 < w.toNat := Nat.lt_of_not_le fun small => large (toNat_le_one.mpr small)
  exact BitVec.toNat_sub_of_le (BitVec.le_def.mpr (Nat.le_of_lt more))

theorem InRange.tick {t : Timer} (range : t.InRange) : t.tick.2.InRange := by
  cases running : t.enabled with
  | false => rwa [tick_of_paused running]
  | true =>
    by_cases still : t.reload = 0
    · rwa [tick_of_still still]
    · obtain ⟨low, high⟩ := range.counting still
      rw [tick_of_running running still]
      split
      · exact ⟨fun _ => ⟨Nat.le_trans low high, Nat.le_refl _⟩, fun zero => absurd zero still⟩
      · rename_i more
        have down := toNat_sub_one more
        rw [toNat_le_one] at more
        refine ⟨fun _ => ?_, fun zero => absurd zero still⟩
        change 1 ≤ (t.count - 1).toNat ∧ (t.count - 1).toNat ≤ t.reload.toNat
        omega

theorem InRange.perform {t : Timer} (range : t.InRange) (event : TimerEvent) :
    (t.perform event).InRange := by
  cases event with
  | read offset => exact range
  | write offset value =>
    by_cases reloads : (TimerEvent.write offset value).Reloads
    · have written : t.write offset value = { t with reload := value, count := value } :=
        if_pos reloads
      have fresh := inRange_ofInterval value
      rw [Timer.perform, written]
      exact ⟨fresh.counting, fresh.still⟩
    · obtain ⟨control, written⟩ := write_of_not_reloads (t := t) reloads
      rw [Timer.perform, written]
      exact ⟨range.counting, range.still⟩
  | reset => exact inRange_ofInterval t.interval
  | tick => exact range.tick

theorem InRange.after {t : Timer} (range : t.InRange) (history : List TimerEvent) :
    (t.after history).InRange := by
  induction history generalizing t with
  | nil => exact range
  | cons event rest ih => exact ih (range.perform event)

theorem after_append (t : Timer) (history later : List TimerEvent) :
    t.after (history ++ later) = (t.after history).after later := List.foldl_append

theorem runningTicks_append (t : Timer) (history later : List TimerEvent) :
    t.runningTicks (history ++ later) =
      t.runningTicks history + (t.after history).runningTicks later := by
  induction history generalizing t with
  | nil => exact (Nat.zero_add _).symm
  | cons event rest ih =>
    rw [List.cons_append, runningTicks, ih, ← Nat.add_assoc]
    rfl

/-- While nothing gives a timer a new count, its count follows the ticks that find it running. -/
theorem count_after {t : Timer} (range : t.InRange) (moving : t.reload ≠ 0)
    {later : List TimerEvent} (kept : ∀ event ∈ later, ¬ event.Reloads) :
    (t.after later).reload = t.reload ∧
      (t.after later).count.toNat =
        countAfter t.reload.toNat t.count.toNat (t.runningTicks later) := by
  obtain ⟨low, high⟩ := range.counting moving
  -- From the back: the first count stays fixed, and the timer before the last event is at hand.
  induction later using List.reverseRecOn with
  | nil =>
    refine ⟨rfl, ?_⟩
    rw [runningTicks, countAfter, if_neg (by omega)]
    rfl
  | append_singleton before event ih =>
    obtain ⟨reload, count⟩ := ih fun e member => kept e (List.mem_append_left _ member)
    have last := kept event (List.mem_append_right _ (List.mem_singleton_self event))
    rw [after_append, runningTicks_append]
    generalize t.after before = u at reload count ⊢
    have uncounted (idle : ¬ (event = .tick ∧ u.enabled = true)) :
        u.runningTicks [event] = 0 := by
      rw [runningTicks, if_neg idle]
      rfl
    change (u.perform event).reload = _ ∧ (u.perform event).count.toNat = _
    cases event with
    | read offset =>
      rw [uncounted (by simp)]
      exact ⟨reload, count⟩
    | write offset value =>
      obtain ⟨control, written⟩ := write_of_not_reloads (t := u) last
      rw [uncounted (by simp), Timer.perform, written]
      exact ⟨reload, count⟩
    | reset => exact absurd trivial last
    | tick =>
      cases running : u.enabled with
      | false =>
        rw [uncounted (by simp [running]), Timer.perform, tick_of_paused running]
        exact ⟨reload, count⟩
      | true =>
        have counted : u.runningTicks [.tick] = 1 := by
          rw [runningTicks, if_pos ⟨rfl, running⟩]
          rfl
        rw [counted, countAfter_succ _ low high, ← count, Timer.perform,
          tick_of_running running (reload ▸ moving)]
        by_cases zero : u.count ≤ 1
        · rw [if_pos zero, if_pos (toNat_le_one.mp zero), ← reload]
          exact ⟨rfl, rfl⟩
        · rw [if_neg zero, if_neg (mt toNat_le_one.mpr zero), ← toNat_sub_one zero]
          exact ⟨reload, rfl⟩

/-- While nothing gives it a new count, a timer without a reload value stays without. -/
theorem reload_after_still {t : Timer} (still : t.reload = 0) {later : List TimerEvent}
    (kept : ∀ event ∈ later, ¬ event.Reloads) : (t.after later).reload = 0 := by
  induction later generalizing t with
  | nil => exact still
  | cons event rest ih =>
    obtain ⟨first, others⟩ := List.forall_mem_cons.mp kept
    refine ih ?_ others
    cases event with
    | read offset => exact still
    | write offset value =>
      obtain ⟨control, written⟩ := write_of_not_reloads (t := t) first
      rw [perform, written]
      exact still
    | reset => exact absurd trivial first
    | tick =>
      rw [perform, tick_of_still still]
      exact still

/-- The next tick raises the line of the timer when the timer is enabled and its count is at its
last. -/
theorem line_iff {t : Timer} (moving : t.reload ≠ 0) :
    (Device.timer t).tick.1 = Device.timerLine ↔ t.enabled = true ∧ t.count.toNat ≤ 1 := by
  have fires : (Device.timer t).tick.1 = Device.timerLine ↔ t.tick.1 = true := by
    change (if t.tick.1 = true then Device.timerLine else 0) = Device.timerLine ↔ _
    cases t.tick.1 <;> decide
  rw [fires, tick_fires_iff, Expires, toNat_le_one, and_iff_right moving]

theorem enabled_tick (t : Timer) : (t.perform .tick).enabled = t.enabled := by
  rw [perform, enabled, control_tick]
  rfl

theorem enabled_after_ticks (t : Timer) (n : Nat) :
    (t.after (List.replicate n .tick)).enabled = t.enabled := by
  induction n generalizing t with
  | zero => rfl
  | succ n ih => exact (ih (t.perform .tick)).trans t.enabled_tick

theorem runningTicks_ticks {t : Timer} (running : t.enabled = true) (n : Nat) :
    t.runningTicks (List.replicate n .tick) = n := by
  induction n generalizing t with
  | zero => rfl
  | succ n ih =>
    rw [List.replicate_succ, runningTicks, if_pos ⟨rfl, running⟩,
      ih (t.enabled_tick.trans running), Nat.add_comm]

/-- While nothing gives it a new count, a timer fires at the running ticks whose number, counted
from one, is the count or lies whole reload values after it. -/
theorem line_after {t : Timer} (range : t.InRange) (moving : t.reload ≠ 0)
    {later : List TimerEvent} (kept : ∀ event ∈ later, ¬ event.Reloads) :
    (Device.timer (t.after later)).tick.1 = Device.timerLine ↔
      (t.after later).enabled = true ∧
        ∃ j, t.runningTicks later + 1 = t.count.toNat + j * t.reload.toNat := by
  obtain ⟨reload, count⟩ := count_after range moving kept
  obtain ⟨low, high⟩ := range.counting moving
  rw [line_iff (reload ▸ moving), count, countAfter_le_one_iff _ low high]

/-- Interrupts of the timer are periodic. Whatever was done to a timer since it was made, its count
lies between one and its reload value; without a reload value it stays still. From then on, and
until it is given a new count, it fires at the running ticks whose number is the count, or the count
and whole reload values more, and the count tells how far the next one is; a paused timer is not
changed by ticks, and they are not counted. -/
theorem fires_periodically (interval : Word) (history : List TimerEvent) :
    let t := (ofInterval interval).after history
    let count := t.count.toNat
    let period := t.reload.toNat
    (t.reload ≠ 0 → 1 ≤ count ∧ count ≤ period) ∧
    (t.reload = 0 → t.count = 0 ∧ ∀ later : List TimerEvent, (∀ event ∈ later, ¬ event.Reloads) →
      (Device.timer (t.after later)).tick.1 = 0) ∧
    (t.enabled = true → t.reload ≠ 0 → ∀ n,
      let u := t.after (List.replicate n .tick)
      ((Device.timer u).tick.1 = Device.timerLine ↔ ∃ j, n + 1 = count + j * period) ∧
        u.count.toNat = if count ≤ n then period - (n - count) % period else count - n) ∧
    (t.enabled = false → (Device.timer t).tick = (0, Device.timer t)) ∧
    (t.reload ≠ 0 → ∀ later : List TimerEvent, (∀ event ∈ later, ¬ event.Reloads) →
      let u := t.after later
      let n := t.runningTicks later
      ((Device.timer u).tick.1 = Device.timerLine ↔
          u.enabled = true ∧ ∃ j, n + 1 = count + j * period) ∧
        u.count.toNat = if count ≤ n then period - (n - count) % period else count - n) := by
  intro t count period
  have range : t.InRange := (inRange_ofInterval interval).after history
  have unpaused : ∀ n, ∀ event ∈ List.replicate n TimerEvent.tick, ¬ event.Reloads := by
    intro n event member
    rw [List.eq_of_mem_replicate member]
    exact id
  refine ⟨range.counting, fun still => ⟨range.still still, fun later kept => ?_⟩,
    fun running moving n => ⟨?_, ?_⟩, fun paused => ?_,
    fun moving later kept => ⟨line_after range moving kept, (count_after range moving kept).2⟩⟩
  · rw [Device.tick, tick_of_still (reload_after_still still kept)]
    rfl
  · rw [line_after range moving (unpaused n), enabled_after_ticks, runningTicks_ticks running,
      and_iff_right running]
  · have counted := (count_after range moving (unpaused n)).2
    rwa [runningTicks_ticks running] at counted
  · rw [Device.tick, tick_of_paused paused]
    rfl

/-- A timer of three ticks is started, ticks once and is paused for two ticks. Once it runs again it
fires at the second tick, which is the third one counted, and then at the third after that. -/
theorem fires_periodically_paused :
    let start := (ofInterval 3).after [.write 4 1]
    let pause : List TimerEvent := [.tick, .write 4 0, .tick, .tick, .write 4 1, .tick]
    let fires (later : List TimerEvent) : Prop :=
      (Device.timer (start.after later)).tick.1 = Device.timerLine
    start.runningTicks pause = 2 ∧ fires pause ∧
      ¬ fires (List.replicate 4 .tick) ∧ fires (List.replicate 5 .tick) := by
  intro start pause fires
  obtain ⟨-, -, running, -, counted⟩ := fires_periodically 3 [.write 4 1]
  have kept : ∀ event ∈ pause, ¬ event.Reloads := by
    simp [pause, TimerEvent.Reloads]
  have paused := (counted (by decide) pause kept).1
  have fourth := (running rfl (by decide) 4).1
  have fifth := (running rfl (by decide) 5).1
  refine ⟨by decide, paused.mpr ⟨by decide, 0, by decide⟩, fun fired => ?_, fifth.mpr ⟨1, rfl⟩⟩
  obtain ⟨j, numbered⟩ := fourth.mp fired
  change 5 = 3 + j * 3 at numbered
  omega

end Timer
end ArmMachine
