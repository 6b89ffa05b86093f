import ArmMachine.Device.Table

/-! Devices whose reset failed. Whatever kinds of devices stand in a table, and however their resets
go, a disabled entry takes no part in anything: the table answers as if it were not there, and the
entry stays as it is. -/
namespace ArmMachine

/-- What is asked of a table. -/
inductive TableRequest where
  | read (address : Word) (width : Width)
  | write (address value : Word) (width : Width)
  | poll
  | irqPending
  | reset

inductive TableAnswer where
  | value (value : Option Word)
  | claimed (taken : Bool)
  | polled
  | irq (level : Bool)
  | enabledCount (count : Nat)
  deriving DecidableEq

/-- The entries that take part. -/
def live {D : Type} (entries : List (DeviceEntry D)) : List (DeviceEntry D) :=
  entries.filter fun e => e.enabled

namespace DeviceTable

variable {D : Type}

/-- The table without its disabled entries. -/
def withoutDisabled (t : DeviceTable D) : DeviceTable D := ⟨live t.entries⟩

variable [Peripheral D]

def serve (t : DeviceTable D) : TableRequest → TableAnswer × DeviceTable D
  | .read address width => (.value (t.read address width).1, (t.read address width).2)
  | .write address value width => (.claimed (t.claims address), t.write address value width)
  | .poll => (.polled, t.poll)
  | .irqPending => (.irq t.irqPending, t)
  | .reset => (.enabledCount t.reset.enabledCount, t.reset)

/-- All answers to some requests, and the table afterwards. -/
def serveAll (t : DeviceTable D) : List TableRequest → List TableAnswer × DeviceTable D
  | [] => ([], t)
  | request :: rest =>
    ((t.serve request).1 :: (serveAll (t.serve request).2 rest).1,
      (serveAll (t.serve request).2 rest).2)

end DeviceTable

section Live
variable {D α : Type} {act : D → Word → α × D} {address : Word} {entries : List (DeviceEntry D)}

open DeviceTable (actFirst)

theorem live_cons_of_enabled {e : DeviceEntry D} (enabled : e.enabled = true) :
    live (e :: entries) = e :: live entries := List.filter_cons_of_pos enabled

theorem live_cons_of_disabled {e : DeviceEntry D} (disabled : e.enabled = false) :
    live (e :: entries) = live entries := List.filter_cons_of_neg (by simp [disabled])

@[simp] theorem live_live : live (live entries) = live entries := by simp [live]

theorem actFirst_cons_of_claims {e : DeviceEntry D} (claims : e.claims address = true) :
    actFirst act address (e :: entries) =
      (some (act e.device (e.region.offset address)).1,
        { e with device := (act e.device (e.region.offset address)).2 } :: entries) := by
  rw [actFirst, if_pos claims]

theorem actFirst_cons_of_not {e : DeviceEntry D} (other : e.claims address = false) :
    actFirst act address (e :: entries) =
      ((actFirst act address entries).1, e :: (actFirst act address entries).2) := by
  rw [actFirst, if_neg (by simp [other])]

theorem not_claims_of_disabled {e : DeviceEntry D} (disabled : e.enabled = false) :
    e.claims address = false := by
  rw [DeviceEntry.claims, disabled, Bool.false_and]

/-- Only live entries are asked, and whoever acts stays live. -/
theorem actFirst_live :
    actFirst act address (live entries) =
      ((actFirst act address entries).1, live (actFirst act address entries).2) := by
  induction entries with
  | nil => rfl
  | cons e rest ih =>
    cases enabled : e.enabled with
    | false =>
      rw [live_cons_of_disabled enabled, ih, actFirst_cons_of_not (not_claims_of_disabled enabled),
        live_cons_of_disabled enabled]
    | true =>
      rw [live_cons_of_enabled enabled]
      cases claims : e.claims address with
      | false =>
        rw [actFirst_cons_of_not claims, actFirst_cons_of_not claims, ih,
          live_cons_of_enabled enabled]
      | true =>
        have still (device : D) : ({ e with device } : DeviceEntry D).enabled = true := enabled
        rw [actFirst_cons_of_claims claims, actFirst_cons_of_claims claims,
          live_cons_of_enabled (still _)]

/-- The first live entry whose window holds the address acts, whatever stands behind it. -/
theorem actFirst_append {before later : List (DeviceEntry D)} {e : DeviceEntry D}
    (others : ∀ e ∈ before, e.claims address = false) (claims : e.claims address = true) :
    actFirst act address (before ++ e :: later) =
      (some (act e.device (e.region.offset address)).1,
        before ++ { e with device := (act e.device (e.region.offset address)).2 } :: later) := by
  induction before with
  | nil => exact actFirst_cons_of_claims claims
  | cons first rest ih =>
    obtain ⟨here, further⟩ := List.forall_mem_cons.mp others
    rw [List.cons_append, actFirst_cons_of_not here, ih further]
    rfl

theorem actFirst_of_unclaimed (others : ∀ e ∈ entries, e.claims address = false) :
    actFirst act address entries = (none, entries) := by
  induction entries with
  | nil => rfl
  | cons first rest ih =>
    obtain ⟨here, further⟩ := List.forall_mem_cons.mp others
    rw [actFirst_cons_of_not here, ih further]

/-- An entry that is disabled is passed over. -/
theorem actFirst_disabled {i : Nat} {e : DeviceEntry D} (here : entries[i]? = some e)
    (disabled : e.enabled = false) : (actFirst act address entries).2[i]? = some e := by
  induction entries generalizing i with
  | nil => cases here
  | cons first rest ih =>
    cases claims : first.claims address with
    | false =>
      rw [actFirst_cons_of_not claims]
      cases i with
      | zero => exact here
      | succ i => exact ih here
    | true =>
      rw [actFirst_cons_of_claims claims]
      cases i with
      | zero =>
        obtain rfl := Option.some.inj here
        rw [not_claims_of_disabled disabled] at claims
        cases claims
      | succ i => exact here

/-- A change that no entry answers by enabling itself, and that reads no disabled entry. -/
theorem live_map {f : DeviceEntry D → DeviceEntry D} (inert : ∀ e, e.enabled = false → f e = e) :
    live (entries.map f) = live ((live entries).map f) := by
  induction entries with
  | nil => rfl
  | cons e rest ih =>
    cases enabled : e.enabled with
    | false =>
      rw [List.map_cons, inert e enabled, live_cons_of_disabled enabled,
        live_cons_of_disabled enabled, ih]
    | true =>
      rw [live_cons_of_enabled enabled, List.map_cons, List.map_cons]
      cases still : (f e).enabled with
      | false => rw [live_cons_of_disabled still, live_cons_of_disabled still, ih]
      | true => rw [live_cons_of_enabled still, live_cons_of_enabled still, ih]

end Live

namespace DeviceEntry

variable {D : Type} {e : DeviceEntry D}

/-- An entry claims an address exactly when it is enabled and the address agrees with its base. -/
theorem claims_iff (address : Word) :
    e.claims address = true ↔ e.enabled = true ∧ address &&& e.region.mask = e.region.base := by
  rw [claims, Bool.and_eq_true, Region.contains, decide_eq_true_iff]

variable [Peripheral D]

theorem reset_disabled (disabled : e.enabled = false) : e.reset = e := by
  rw [reset, if_neg (by simp [disabled])]

theorem tick_disabled (disabled : e.enabled = false) : e.tick = e := by
  rw [tick, if_neg (by simp [disabled])]

theorem raiseLines_disabled (lines : Word) (disabled : e.enabled = false) :
    e.raiseLines lines = e := by
  rw [raiseLines, if_neg (by simp [disabled])]

end DeviceEntry

namespace DeviceTable

variable {D : Type} (t : DeviceTable D) {address value : Word} {width : Width}

theorem enabledCount_eq_length : t.enabledCount = t.withoutDisabled.length :=
  List.countP_eq_length_filter

theorem claims_withoutDisabled : t.withoutDisabled.claims address = t.claims address := by
  rw [claims, withoutDisabled, live, List.any_filter]
  simp only [DeviceEntry.claims, ← Bool.and_assoc, Bool.and_self]
  rfl

variable [Peripheral D]

theorem lines_withoutDisabled : t.withoutDisabled.lines = t.lines := by
  simp only [lines, withoutDisabled, live, List.foldl_filter]
  congr 1
  funext lines e
  cases enabled : e.enabled <;> simp [DeviceEntry.lines, enabled]

theorem poll_withoutDisabled : t.withoutDisabled.poll.withoutDisabled = t.poll.withoutDisabled := by
  apply congrArg DeviceTable.mk
  unfold poll
  rw [lines_withoutDisabled]
  dsimp only
  split
  · exact (live_map fun e disabled => DeviceEntry.tick_disabled disabled).symm
  · rw [List.map_map, List.map_map]
    refine (live_map fun e disabled => ?_).symm
    rw [Function.comp, DeviceEntry.tick_disabled disabled,
      DeviceEntry.raiseLines_disabled _ disabled]

theorem reset_withoutDisabled :
    t.withoutDisabled.reset.withoutDisabled = t.reset.withoutDisabled :=
  congrArg DeviceTable.mk (live_map fun _ disabled => DeviceEntry.reset_disabled disabled).symm

/-- One request: the live entries alone give the same answer and end as the live entries do. -/
theorem serve_withoutDisabled (request : TableRequest) :
    (t.withoutDisabled.serve request).1 = (t.serve request).1 ∧
      (t.withoutDisabled.serve request).2.withoutDisabled =
        (t.serve request).2.withoutDisabled := by
  cases request with
  | read address width =>
    simp only [serve, read, withoutDisabled, actFirst_live, live_live, and_self]
  | write address value width =>
    refine ⟨congrArg TableAnswer.claimed t.claims_withoutDisabled, ?_⟩
    simp only [serve, write, withoutDisabled, actFirst_live, live_live]
  | poll => exact ⟨rfl, t.poll_withoutDisabled⟩
  | irqPending =>
    refine ⟨?_, congrArg DeviceTable.mk live_live⟩
    simp only [serve, irqPending, withoutDisabled, live, List.any_filter, DeviceEntry.assertsIrq,
      ← Bool.and_assoc, Bool.and_self]
    rfl
  | reset =>
    refine ⟨?_, t.reset_withoutDisabled⟩
    simp only [serve, enabledCount_eq_length, reset_withoutDisabled]

/-- Tables with the same live entries give the same answers to all requests and keep the same live
entries. -/
theorem serveAll_congr {t t' : DeviceTable D} (same : t.withoutDisabled = t'.withoutDisabled)
    (history : List TableRequest) :
    (t.serveAll history).1 = (t'.serveAll history).1 ∧
      (t.serveAll history).2.withoutDisabled = (t'.serveAll history).2.withoutDisabled := by
  induction history generalizing t t' with
  | nil => exact ⟨rfl, same⟩
  | cons request rest ih =>
    obtain ⟨answer, kept⟩ := t.serve_withoutDisabled request
    obtain ⟨answer', kept'⟩ := t'.serve_withoutDisabled request
    rw [← same] at answer' kept'
    obtain ⟨answers, final⟩ := ih (kept.symm.trans kept')
    refine ⟨?_, final⟩
    rw [serveAll, serveAll, answers, answer.symm.trans answer']

section Disabled
variable {t} {i : Nat} {e : DeviceEntry D}

/-- A disabled entry is left as it is. -/
theorem serve_disabled (here : t.entries[i]? = some e) (disabled : e.enabled = false)
    (request : TableRequest) : (t.serve request).2.entries[i]? = some e := by
  cases request with
  | read address width => exact actFirst_disabled here disabled
  | write address value width => exact actFirst_disabled here disabled
  | poll =>
    change t.poll.entries[i]? = some e
    unfold poll
    dsimp only
    split
    · rw [List.getElem?_map, here, Option.map_some, DeviceEntry.tick_disabled disabled]
    · rw [List.getElem?_map, List.getElem?_map, here, Option.map_some, Option.map_some,
        DeviceEntry.tick_disabled disabled, DeviceEntry.raiseLines_disabled _ disabled]
  | irqPending => exact here
  | reset =>
    change t.reset.entries[i]? = some e
    rw [reset, List.getElem?_map, here, Option.map_some, DeviceEntry.reset_disabled disabled]

theorem serveAll_disabled (here : t.entries[i]? = some e) (disabled : e.enabled = false)
    (history : List TableRequest) : (t.serveAll history).2.entries[i]? = some e := by
  induction history generalizing t with
  | nil => exact here
  | cons request rest ih => exact ih (serve_disabled here disabled request)

end Disabled

/-- A device whose reset failed is inert for good, whatever the devices of a table are. Whatever is
asked of the table, every answer and every device that is still enabled are those of the table
without the disabled entries, and these stay as they are. An access goes to the first enabled entry
whose window holds the address, with the offset in it, past all disabled ones. -/
theorem disabled_devices_are_inert {D : Type} [Peripheral D] (t : DeviceTable D)
    (history : List TableRequest) (address value : Word) (width : Width) :
    (t.serveAll history).1 = (t.withoutDisabled.serveAll history).1 ∧
    (t.serveAll history).2.withoutDisabled =
      (t.withoutDisabled.serveAll history).2.withoutDisabled ∧
    (∀ (i : Nat) (e : DeviceEntry D), t.entries[i]? = some e → e.enabled = false →
      (t.serveAll history).2.entries[i]? = some e) ∧
    (∀ before e later, t.entries = before ++ e :: later →
      e.enabled = true → address &&& e.region.mask = e.region.base →
      (∀ other ∈ before, other.enabled = true → address &&& other.region.mask ≠ other.region.base) →
      let offset := address &&& ~~~e.region.mask
      let masked := value &&& width.valueMask
      let shown := Peripheral.read e.device offset
      let written := Peripheral.write e.device offset masked width
      t.serve (.read address width) =
          (.value (some (shown.1 &&& width.valueMask)),
            ⟨before ++ { e with device := shown.2 } :: later⟩) ∧
        t.serve (.write address value width) =
          (.claimed true, ⟨before ++ { e with device := written } :: later⟩)) ∧
    ((∀ e ∈ t.entries, e.enabled = true → address &&& e.region.mask ≠ e.region.base) →
      t.serve (.read address width) = (.value none, t) ∧
        t.serve (.write address value width) = (.claimed false, t)) := by
  have same : t.withoutDisabled = t.withoutDisabled.withoutDisabled :=
    congrArg DeviceTable.mk live_live.symm
  obtain ⟨answers, kept⟩ := serveAll_congr same history
  have passed {entries : List (DeviceEntry D)}
      (others : ∀ e ∈ entries, e.enabled = true → address &&& e.region.mask ≠ e.region.base) :
      ∀ e ∈ entries, e.claims address = false := by
    intro e member
    rw [Bool.eq_false_iff, ne_eq, DeviceEntry.claims_iff]
    exact fun claims => others e member claims.1 claims.2
  refine ⟨answers, kept, fun i e here disabled => serveAll_disabled here disabled history, ?_, ?_⟩
  · intro before e later split enabled window others
    have claims : e.claims address = true := (DeviceEntry.claims_iff address).mpr ⟨enabled, window⟩
    have claimed : t.claims address = true := by
      rw [DeviceTable.claims, split, List.any_append, List.any_cons, claims, Bool.true_or,
        Bool.or_true]
    simp only [serve, read, write, split, actFirst_append (passed others) claims, claimed,
      Option.map_some]
    exact ⟨rfl, rfl⟩
  · intro others
    have unclaimed : t.claims address = false := List.any_eq_false.mpr fun e member => by
      simp [passed others e member]
    simp only [serve, read, write, actFirst_of_unclaimed (passed others), unclaimed,
      Option.map_none, and_self]

/-- A serial line in the shadow of a window with no device behind it. -/
def shadowedUart : DeviceTable :=
  let broken := Device.unbacked "broken" "no backing device"
  (empty.register Region.uart.mask Region.uart.base broken).register Region.uart.mask
    Region.uart.base (.uart .initial)

/-- Once the device in front has failed to reset, the line status is read from the serial line. -/
theorem disabled_devices_are_inert_shadowedUart :
    let t := shadowedUart.reset
    let history : List TableRequest := [.write 0x03010000 0x41 .byte, .poll, .reset, .irqPending]
    t.entries.map (fun e => e.enabled) = [false, true] ∧
      t.serve (.read 0x03010014 .byte) = (.value (some 0x60), t) ∧
      (t.serveAll history).1 = [.claimed true, .polled, .enabledCount 1, .irq false] ∧
      (t.serveAll history).1 = (t.withoutDisabled.serveAll history).1 := by
  have passed : ∀ other ∈ [shadowedUart.reset.entries[0]], other.enabled = true →
      0x03010014#32 &&& other.region.mask ≠ other.region.base := by
    intro other member enabled
    obtain rfl := List.mem_singleton.mp member
    cases enabled
  have inert := fun history =>
    disabled_devices_are_inert shadowedUart.reset history 0x03010014 0 .byte
  obtain ⟨-, -, -, first, -⟩ := inert []
  have read := (first _ shadowedUart.reset.entries[1] [] rfl rfl (by decide) passed).1
  exact ⟨rfl, read.trans (by rfl), by decide, (inert _).1⟩

end DeviceTable
end ArmMachine
