import Mathlib.Data.List.Basic
import ArmMachine.Device.Uart
import ArmMachine.Proofs.WordRuns

/-! Bytes through the serial line. Each direction is a queue that is filled at one end, emptied at
the other and sometimes thrown away; over any history every byte that entered is handed over once
and in order, unless it was still queued when its queue was thrown away. -/
namespace ArmMachine

/-- What may happen to a serial line. A poll only asks it whether it raises its interrupt. -/
inductive SerialEvent where
  | read (offset : Word)
  | write (offset value : Word) (width : Width)
  | pushInput (bytes : List Byte)
  | takeOutput
  | poll
  | reset

theorem Word.lowest_and_valueMask (value : Word) (width : Width) :
    (value &&& width.valueMask).lane 0 = value.lane 0 :=
  lane_and_valueMask value (by cases width <;> decide)

theorem Word.lane_setWidth (b : Byte) : Word.lane (b.setWidth 32) 0 = b := by
  apply BitVec.eq_of_getLsbD_eq
  intro j inside
  simp only [lane, BitVec.getLsbD_extractLsb', BitVec.getLsbD_setWidth, Nat.mul_zero, Nat.zero_add,
    inside, show j < 32 by omega, decide_true, Bool.true_and]

namespace Uart

def perform (u : Uart) : SerialEvent → Uart
  | .read offset => (u.read offset).2
  | .write offset value width => u.write offset (value &&& width.valueMask)
  | .pushInput bytes => u.pushInput bytes
  | .takeOutput => u.takeOutput.2
  | .poll => u
  | .reset => u.reset

def after (u : Uart) (history : List SerialEvent) : Uart := history.foldl perform u

/-- What the events of a history yield one after the other. -/
def along {α : Type} (yield : Uart → SerialEvent → List α) (u : Uart) : List SerialEvent → List α
  | [] => []
  | event :: rest => yield u event ++ along yield (u.perform event) rest

/-- An access with this offset reaches the queues: it is to register 0, and the divisor is not in
its place. -/
def reachesData (u : Uart) (offset : Word) : Bool := register offset = 0 && !u.divisorLatch

section Accesses
variable (u : Uart) {offset : Word}

theorem transmitted_read (offset : Word) : (u.read offset).2.transmitted = u.transmitted := by
  unfold read readByte
  dsimp only
  split
  · split
    · rfl
    · split <;> rfl
  · rfl
  · dsimp only
    split <;> rfl
  all_goals rfl

theorem read_empty (data : u.reachesData offset = true) (empty : u.received = []) :
    u.read offset = (0, u) := by
  simp only [reachesData, Bool.and_eq_true, decide_eq_true_eq, Bool.not_eq_true'] at data
  simp [read, readByte, data, empty]

theorem read_queued (data : u.reachesData offset = true) {b : Byte} {rest : List Byte}
    (queued : u.received = b :: rest) :
    u.read offset = (b.zeroExtend 32, { u with received := rest }) := by
  simp only [reachesData, Bool.and_eq_true, decide_eq_true_eq, Bool.not_eq_true'] at data
  simp [read, readByte, data, queued]

theorem received_read (other : u.reachesData offset = false) :
    (u.read offset).2.received = u.received := by
  unfold read readByte
  dsimp only
  split
  · rename_i register
    have latch : u.divisorLatch = true := by simpa [reachesData, register] using other
    rw [if_pos latch]
  · rfl
  · dsimp only
    split <;> rfl
  all_goals rfl

theorem write_data (data : u.reachesData offset = true) (value : Word) :
    u.write offset value =
      { u with transmitted := u.transmitted.push (value.lane 0), emptyPending := true } := by
  simp only [reachesData, Bool.and_eq_true, decide_eq_true_eq, Bool.not_eq_true'] at data
  simp [write, writeByte, data]

theorem write_fifo (fifo : register offset = 2) (value : Word) :
    u.write offset value = u.writeFifoControl (value.lane 0) := by
  simp [write, writeByte, fifo]

theorem queues_write (other : u.reachesData offset = false) (plain : register offset ≠ 2)
    (value : Word) : (u.write offset value).received = u.received ∧
      (u.write offset value).transmitted = u.transmitted := by
  unfold write writeByte
  split
  · rename_i register
    have latch : u.divisorLatch = true := by simpa [reachesData, register] using other
    rw [if_pos latch]
    exact ⟨rfl, rfl⟩
  · split <;> exact ⟨rfl, rfl⟩
  · contradiction
  all_goals exact ⟨rfl, rfl⟩

end Accesses
end Uart

/-- One direction of the line: a queue, the bytes that events put into it, the bytes that events
hand to the reader, and the events that throw it away. Nothing else happens to it. -/
structure ByteStream where
  queue : Uart → List Byte
  enters : Uart → SerialEvent → List Byte
  delivers : Uart → SerialEvent → List Byte
  clears : SerialEvent → Bool
  balanced : ∀ u event, queue u ++ enters u event =
    delivers u event ++ (if clears event then queue u else []) ++ queue (u.perform event)

namespace ByteStream

/-- From guest to host: the low bytes of values written to the data register, until the host takes
them. Bit 2 of the queue control throws the queue away, and so does a reset. -/
def toHost : ByteStream where
  queue u := u.transmitted.toList
  enters u
    | .write offset value _ => if u.reachesData offset then [value.lane 0] else []
    | _ => []
  delivers u
    | .takeOutput => u.takeOutput.1
    | _ => []
  clears
    | .write offset value _ => Uart.register offset = 2 && (value.lane 0).getLsbD 2
    | .reset => true
    | _ => false
  balanced u event := by
    cases event with
    | read offset => simp [Uart.perform, u.transmitted_read]
    | write offset value width =>
      simp only [Uart.perform]
      by_cases fifo : Uart.register offset = 2
      · have other : u.reachesData offset = false := by simp [Uart.reachesData, fifo]
        rw [u.write_fifo fifo, Word.lowest_and_valueMask]
        simp only [Uart.writeFifoControl, fifo, other, decide_true, Bool.true_and,
          Bool.false_eq_true, if_false]
        split <;> simp
      · cases data : u.reachesData offset with
        | true => simp [u.write_data data, Word.lowest_and_valueMask, fifo]
        | false => simp [u.queues_write data fifo, fifo]
    | pushInput bytes => simp [Uart.perform, Uart.pushInput]
    | takeOutput => simp [Uart.perform, Uart.takeOutput]
    | poll => simp [Uart.perform]
    | reset => simp [Uart.perform, Uart.reset, Uart.initial]

/-- From host to guest: the bytes that the host pushes, until the guest reads them from the data
register. Bit 1 of the queue control throws the queue away; a reset keeps it. -/
def toGuest : ByteStream where
  queue u := u.received
  enters _
    | .pushInput bytes => bytes
    | _ => []
  delivers u
    | .read offset =>
      if u.reachesData offset && !u.received.isEmpty then [(u.read offset).1.lane 0] else []
    | _ => []
  clears
    | .write offset value _ => Uart.register offset = 2 && (value.lane 0).getLsbD 1
    | _ => false
  balanced u event := by
    cases event with
    | read offset =>
      cases data : u.reachesData offset with
      | true =>
        cases queued : u.received with
        | nil => simp [Uart.perform, u.read_empty data queued, queued]
        | cons b rest =>
          simp [Uart.perform, u.read_queued data queued, data, Word.lane_setWidth]
      | false => simp [Uart.perform, u.received_read data, data]
    | write offset value width =>
      simp only [Uart.perform]
      by_cases fifo : Uart.register offset = 2
      · rw [u.write_fifo fifo, Word.lowest_and_valueMask]
        simp only [Uart.writeFifoControl, fifo, decide_true, Bool.true_and]
        split <;> simp
      · cases data : u.reachesData offset with
        | true => simp [u.write_data data, fifo]
        | false => simp [u.queues_write data fifo, fifo]
    | pushInput bytes => simp [Uart.perform, Uart.pushInput]
    | takeOutput => simp [Uart.perform, Uart.takeOutput]
    | poll => simp [Uart.perform]
    | reset => simp [Uart.perform, Uart.reset]

variable (s : ByteStream)

/-- The bytes that an event throws away: those still queued when it clears the queue. -/
def drops (u : Uart) (event : SerialEvent) : List Byte := if s.clears event then s.queue u else []

/-- The bytes that leave the queue with an event, in order, marked true when they are delivered. -/
def leaves (u : Uart) (event : SerialEvent) : List (Byte × Bool) :=
  (s.delivers u event).map (·, true) ++ (s.drops u event).map (·, false)

/-- The bytes that have left the queue or are in it, in order, marked false when they were dropped.
-/
def ledger (u : Uart) (history : List SerialEvent) : List (Byte × Bool) :=
  u.along s.leaves history ++ (s.queue (u.after history)).map (·, true)

variable {s} {u : Uart} {event : SerialEvent} {rest : List SerialEvent}

theorem ledger_nil : s.ledger u [] = (s.queue u).map (·, true) := rfl

theorem ledger_cons :
    s.ledger u (event :: rest) = s.leaves u event ++ s.ledger (u.perform event) rest :=
  List.append_assoc _ _ _

theorem map_fst_leaves :
    (s.leaves u event).map Prod.fst = s.delivers u event ++ s.drops u event := by
  simp [leaves, Function.comp_def]

theorem delivered_leaves :
    ((s.leaves u event).filter Prod.snd).map Prod.fst = s.delivers u event := by
  simp [leaves, List.filter_map, Function.comp_def]

theorem dropped_leaves :
    ((s.leaves u event).filter fun entry => !entry.2).map Prod.fst = s.drops u event := by
  simp [leaves, List.filter_map, Function.comp_def]

variable (s u) (history : List SerialEvent)

/-- The ledger lists what was in the queue and what entered it. -/
theorem map_fst_ledger :
    (s.ledger u history).map Prod.fst = s.queue u ++ u.along s.enters history := by
  induction history generalizing u with
  | nil => simp [ledger_nil, Uart.along, Function.comp_def]
  | cons event rest ih =>
    have step := s.balanced u event
    rw [ledger_cons, List.map_append, ih, map_fst_leaves, Uart.along, ← List.append_assoc,
      ← List.append_assoc, step]
    rfl

theorem kept_ledger :
    ((s.ledger u history).filter Prod.snd).map Prod.fst =
      u.along s.delivers history ++ s.queue (u.after history) := by
  induction history generalizing u with
  | nil => simp [ledger_nil, Uart.along, Uart.after, List.filter_map, Function.comp_def]
  | cons event rest ih =>
    rw [ledger_cons, List.filter_append, List.map_append, delivered_leaves, ih, Uart.along,
      List.append_assoc]
    rfl

theorem dropped_ledger :
    ((s.ledger u history).filter fun entry => !entry.2).map Prod.fst = u.along s.drops history := by
  induction history generalizing u with
  | nil => simp [ledger_nil, Uart.along, List.filter_map, Function.comp_def]
  | cons event rest ih =>
    rw [ledger_cons, List.filter_append, List.map_append, dropped_leaves, ih, Uart.along]

/-- Over a history of a fresh line the bytes that entered are those handed to the reader and those
still queued, all in order, but for the bytes that were still queued when the queue was thrown away.
-/
structure Conserved : Prop where
  entered : (s.ledger .initial history).map Prod.fst = Uart.initial.along s.enters history
  kept : ((s.ledger .initial history).filter Prod.snd).map Prod.fst =
    Uart.initial.along s.delivers history ++ s.queue (Uart.initial.after history)
  dropped : ((s.ledger .initial history).filter fun entry => !entry.2).map Prod.fst =
    Uart.initial.along s.drops history

theorem conserved (fresh : s.queue .initial = []) : s.Conserved history where
  entered := by rw [map_fst_ledger, fresh, List.nil_append]
  kept := s.kept_ledger .initial history
  dropped := s.dropped_ledger .initial history

end ByteStream

/-- The event is an access with this offset. -/
def SerialEvent.Accesses (event : SerialEvent) (offset : Word) : Prop :=
  event = .read offset ∨ ∃ value width, event = .write offset value width

namespace Uart

/-- A read of the data register takes the oldest byte off the queue and shows it. -/
def Dequeues (u : Uart) (offset : Word) : Prop :=
  ∃ b, u.received = b :: (u.read offset).2.received ∧ (u.read offset).1 = b.zeroExtend 32

theorem dequeues_iff {u : Uart} {offset : Word} (data : u.reachesData offset = true) :
    u.Dequeues offset ↔ u.received ≠ [] := by
  cases queued : u.received with
  | nil => simp [Dequeues, queued]
  | cons b rest => simp [Dequeues, u.read_queued data queued, queued]

theorem dataReady_iff (u : Uart) {offset : Word} (status : register offset = 5) :
    (u.read offset).1.getLsbD 0 = true ↔ u.received ≠ [] := by
  have shown : (u.read offset).1 = u.lineStatus.zeroExtend 32 := by simp [read, readByte, status]
  rw [shown, lineStatus]
  cases u.received <;> simp

/-- With the divisor in their place, registers 0 and 1 reach neither queue. -/
theorem queues_of_latch {u : Uart} {offset : Word} {event : SerialEvent}
    (latch : u.divisorLatch = true) (low : register offset ≤ 1) (access : event.Accesses offset) :
    (u.perform event).received = u.received ∧ (u.perform event).transmitted = u.transmitted := by
  have closed : u.reachesData offset = false := by simp [reachesData, latch]
  obtain rfl | ⟨value, width, rfl⟩ := access
  · exact ⟨u.received_read closed, u.transmitted_read offset⟩
  · exact u.queues_write closed (by omega) _

/-- No byte of the console is lost, doubled or moved. Whatever guest and host do with a fresh line,
both directions hand over what entered them, but for what was still queued when a queue was thrown
away; the line status tells whether a read of the data register would dequeue a byte; and accesses
to the divisor touch no queue. -/
theorem byte_streams_conserved (history : List SerialEvent) :
    let u := Uart.initial.after history
    ByteStream.toHost.Conserved history ∧ ByteStream.toGuest.Conserved history ∧
      (∀ v : Uart, v.received = u.received → v.divisorLatch = false →
        ∀ status data, register status = 5 → register data = 0 →
          ((u.read status).1.getLsbD 0 = true ↔ v.Dequeues data)) ∧
      (u.divisorLatch = true → ∀ offset, register offset ≤ 1 → ∀ event : SerialEvent,
        event.Accesses offset → (u.perform event).received = u.received ∧
          (u.perform event).transmitted = u.transmitted) := by
  intro u
  refine ⟨ByteStream.toHost.conserved history rfl, ByteStream.toGuest.conserved history rfl, ?_, ?_⟩
  · intro v same opened status data statusRegister dataRegister
    have reaches : v.reachesData data = true := by simp [reachesData, dataRegister, opened]
    rw [u.dataReady_iff statusRegister, dequeues_iff reaches, same]
  · intro latch offset low event access
    exact queues_of_latch latch low access

/-- Output that is taken, thrown away by the guest and by a reset, and still queued; input that is
read, and still queued; and in the end the divisor in the place of the queues. -/
def consoleTraffic : List SerialEvent :=
  [.write 0 0x161 .word, .write 3 0x62 .byte, .takeOutput, .write 0 0x63 .halfword,
    .write 8 0x04 .byte, .write 0 0x64 .byte, .pushInput [0x78, 0x79, 0x7A], .read 1, .poll, .reset,
    .read 0, .write 0 0x65 .word, .write 12 0x80 .byte, .write 0 0x0C .byte, .read 0]

theorem byte_streams_conserved_consoleTraffic :
    let u := Uart.initial.after consoleTraffic
    let opened := u.perform (.write 12 0 .byte)
    Uart.initial.along ByteStream.toHost.enters consoleTraffic = [0x61, 0x62, 0x63, 0x64, 0x65] ∧
      ((ByteStream.toHost.ledger .initial consoleTraffic).filter Prod.snd).map Prod.fst =
        [0x61, 0x62] ++ [0x65] ∧
      ((ByteStream.toGuest.ledger .initial consoleTraffic).filter Prod.snd).map Prod.fst =
        [0x78, 0x79] ++ [0x7A] ∧
      opened.received = u.received ∧ opened.divisorLatch = false ∧
      ((u.read 20).1.getLsbD 0 = true ↔ opened.Dequeues 0) ∧
      u.divisorLatch = true ∧ (u.perform (.read 0)).received = u.received := by
  obtain ⟨host, guest, ready, latched⟩ := byte_streams_conserved consoleTraffic
  exact ⟨by rfl, host.kept, guest.kept, by rfl, by rfl,
    ready _ (by rfl) (by rfl) 20 0 (by rfl) (by rfl), by rfl,
    (latched (by rfl) 0 (by decide) (.read 0) (.inl rfl)).1⟩

end Uart
end ArmMachine
