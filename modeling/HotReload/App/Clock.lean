/-! # The tick clock

A clock that ticks at a fixed rate. It is told the time by its owner, in microseconds from any beginning, and says
how long a tick has to be waited for.
-/

namespace HotReload

/-- A clock that ticks at a fixed rate. -/
structure TickClock where
  start : Nat
  /-- The time of the last tick. -/
  last : Nat
  interval : Nat
  ticks : Nat := 0
  /-- The time between the last two ticks. -/
  delta : Nat := 0
  deriving DecidableEq, Repr, Inhabited

namespace TickClock

/-- A clock that starts now. -/
def startAt (now interval : Nat) : TickClock := { start := now, last := now, interval }

/-- Ticks now. -/
def tick (c : TickClock) (now : Nat) : TickClock :=
  { c with delta := now - c.last, last := now, ticks := c.ticks + 1 }

/-- The time at which the next tick is due: now, if the interval is over. -/
def due (c : TickClock) (now : Nat) : Nat := max now (c.last + c.interval)

/-- Waits for the next tick. -/
def waitNext (c : TickClock) (now : Nat) : TickClock := c.tick (c.due now)

/-- The time from the start to the last tick. -/
def elapsed (c : TickClock) : Nat := c.last - c.start

/-- The time between the last two ticks, in seconds. -/
def deltaSeconds (c : TickClock) : Float32 := (Float.ofNat c.delta / 1000000.0).toFloat32

end TickClock

end HotReload
