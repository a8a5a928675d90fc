import Mathlib.Tactic.Common

/-!
Event-loop timers as their owner sees them: whether one is running, with which
interval, and whether its expiry stops it. An expiry is an event of the loop that
can only happen to a running timer.
-/

namespace EnerSentry.Lib

structure Timer where
  singleShot : Bool
  intervalMs : Int := 0
  active : Bool := false
  deriving DecidableEq, Repr

namespace Timer

def start (t : Timer) : Timer := { t with active := true }

def startFor (t : Timer) (ms : Int) : Timer := { t with intervalMs := ms, active := true }

def stop (t : Timer) : Timer := { t with active := false }

/-- Changing the interval never starts a stopped timer. -/
def setInterval (t : Timer) (ms : Int) : Timer := { t with intervalMs := ms }

/-- The timer its own expiry leaves behind. -/
def expire (t : Timer) : Timer := if t.singleShot then t.stop else t

variable (t : Timer) (ms : Int)

@[simp] theorem start_active : t.start.active = true := rfl
@[simp] theorem startFor_active : (t.startFor ms).active = true := rfl
@[simp] theorem stop_active : t.stop.active = false := rfl
@[simp] theorem setInterval_active : (t.setInterval ms).active = t.active := rfl

end Timer

end EnerSentry.Lib
