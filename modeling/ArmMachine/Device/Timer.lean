import ArmMachine.Word

/-! A timer that counts polls down. Writing the count sets the reload value as well; a count that
reaches zero reloads and fires. A reload value of zero keeps the timer still. -/
namespace ArmMachine

structure Timer where
  reload : Word
  count : Word
  control : Word
  /-- The reload value after a reset. -/
  interval : Word
  deriving DecidableEq, Repr

namespace Timer

def ofInterval (interval : Word) : Timer := ⟨interval, interval, 0, interval⟩

def enabled (t : Timer) : Bool := t.control.getLsbD 0

def reset (t : Timer) : Timer := ofInterval t.interval

/-- The count at offset 0, the control bit at offset 4. -/
def read (t : Timer) (offset : Word) : Word :=
  let register := offset &&& ~~~3#32
  if register = 0 then t.count
  else if register = 4 then t.control
  else 0

def write (t : Timer) (offset value : Word) : Timer :=
  let register := offset &&& ~~~3#32
  if register = 0 then { t with reload := value, count := value }
  else if register = 4 then { t with control := value &&& 1 }
  else t

/-- One poll: whether the timer fires, and the timer afterwards. -/
def tick (t : Timer) : Bool × Timer :=
  if !t.enabled || t.reload = 0 then (false, t)
  else if t.count ≤ 1 then (true, { t with count := t.reload })
  else (false, { t with count := t.count - 1 })

end Timer
end ArmMachine
