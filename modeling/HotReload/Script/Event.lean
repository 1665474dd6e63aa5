import HotReload.World.Entity

/-! # Lifecycle events

What happens to a script, as those who follow it get to know. Events wait in a queue until they are taken. A queue
holds a limited number of events; when it is full, the oldest makes room, and is counted as dropped.
-/

namespace HotReload

/-! ## Section 1 - events -/

/-- What happened to a script. Times are in microseconds. -/
inductive Event where
  | compiled (script type : String) (generation elapsed : Nat)
  | recompiled (script type : String) (generation reattached elapsed : Nat)
  | recompileFailed (script error : String) (suspended : Nat)
  | recompileSkipped (script : String)
  | attached (script : String) (entity : Entity)
  | detached (script : String) (entity : Entity)
  | discarded (script : String)
  deriving DecidableEq, Repr, Inhabited

namespace Event

/-- The script that an event is about. -/
def script : Event → String
  | compiled s .. | recompiled s .. | recompileFailed s .. | recompileSkipped s | attached s _ | detached s _
  | discarded s => s

/-- Whole milliseconds. -/
def milliseconds (elapsed : Nat) : Nat := elapsed / 1000

/-- An event as one line. -/
def render : Event → String
  | compiled script type generation elapsed =>
    s!"Compiled script={script} type={type} generation={generation} took={milliseconds elapsed}ms"
  | recompiled script type generation reattached elapsed =>
    s!"Recompiled script={script} type={type} generation={generation} reattached={reattached} took={milliseconds elapsed}ms"
  | recompileFailed script error suspended =>
    s!"RecompileFailed script={script} suspended={suspended} error={error}"
  | recompileSkipped script => s!"RecompileSkipped script={script}"
  | attached script entity => s!"Attached script={script} entity={entity.index}"
  | detached script entity => s!"Detached script={script} entity={entity.index}"
  | discarded script => s!"Discarded script={script}"

end Event

/-! ## Section 2 - queues -/

/-- How many events a queue holds unless it is told otherwise. -/
def maxPendingEvents : Nat := 256

/-- Events that wait to be taken, oldest first. -/
structure EventQueue where
  events : List Event := []
  capacity : Nat := maxPendingEvents
  /-- How many events made room since the last time they were taken. -/
  dropped : Nat := 0
  deriving DecidableEq, Repr, Inhabited

namespace EventQueue

/-- A queue for a number of events, and for one at least. -/
def ofCapacity (capacity : Nat) : EventQueue := { capacity := max capacity 1 }

/-- Adds an event. -/
def push (q : EventQueue) (e : Event) : EventQueue :=
  if q.events.length = q.capacity then
    { q with events := q.events.drop 1 ++ [e], dropped := q.dropped + 1 }
  else { q with events := q.events ++ [e] }

/-- Takes all events. -/
def drain (q : EventQueue) : EventQueue × List Event := ({ q with events := [], dropped := 0 }, q.events)

/-- How many events wait. -/
def size (q : EventQueue) : Nat := q.events.length

@[simp] theorem capacity_push (q : EventQueue) (e : Event) : (q.push e).capacity = q.capacity := by
  unfold push
  split <;> rfl

@[simp] theorem events_drain (q : EventQueue) : q.drain.1.events = [] := rfl

@[simp] theorem drain_snd (q : EventQueue) : q.drain.2 = q.events := rfl

end EventQueue

end HotReload
