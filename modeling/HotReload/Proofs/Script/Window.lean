import HotReload.Script.Event
import Mathlib.Data.List.DropRight

/-! # The window of a queue

    A queue holds the newest of the events that were added since it was last drained, as
    many as it has room for, and counts the others as dropped.  So it stands to a queue
    without bounds as a window to what lies behind it: every batch that is taken is the
    end of the batch that a queue without bounds would hand out.

    The invariant is kept by each single use, whatever has been done to the queue before;
    a push moves the window by one event as soon as there is no room left. -/

namespace HotReload.EventQueue

/-! ## Section 1 - histories -/

/-- One thing that is done to a queue. -/
inductive Use where
  | push (e : Event)
  | drain

/-- A queue, and the batches that were taken from it, in order. -/
structure Service where
  queue : EventQueue
  taken : List (List Event) := []

/-- One use of a queue. -/
def Service.use (s : Service) : Use → Service
  | .push e => { s with queue := s.queue.push e }
  | .drain => ⟨s.queue.drain.1, s.taken ++ [s.queue.drain.2]⟩

/-- A new queue of some capacity after some uses. -/
def serve (capacity : Nat) (uses : List Use) : Service := uses.foldl Service.use ⟨ofCapacity capacity, []⟩

/-- What a history comes to when nothing is ever dropped: one batch for each drain, and the events that were added
    since the last. -/
structure Record where
  taken : List (List Event) := []
  pending : List Event := []

/-- One use, as the record has it. -/
def Record.use (r : Record) : Use → Record
  | .push e => { r with pending := r.pending ++ [e] }
  | .drain => ⟨r.taken ++ [r.pending], []⟩

/-- The record of a history. -/
def record (uses : List Use) : Record := uses.foldl Record.use {}

/-! ## Section 2 - the invariant -/

/-- A queue with room for a number of events, to which some events were added since it was last drained. -/
structure Shows (q : EventQueue) (room : Nat) (pending : List Event) : Prop where
  capacity : q.capacity = room
  events : q.events = pending.rtake room
  /-- Every event that was added is in the queue or is counted as dropped. -/
  counted : q.dropped + q.events.length = pending.length

namespace Shows
variable {q : EventQueue} {room : Nat} {pending : List Event}

theorem size_eq (h : q.Shows room pending) : q.size = min pending.length room := by
  unfold size
  rw [h.events]
  unfold List.rtake
  rw [List.length_drop]
  omega

theorem push (h : q.Shows room pending) (hroom : 0 < room) (e : Event) :
    (q.push e).Shows room (pending ++ [e]) := by
  obtain ⟨k, rfl⟩ : ∃ k, room = k + 1 := ⟨room - 1, by omega⟩
  have hsize : q.events.length = min pending.length (k + 1) := h.size_eq
  have hcounted := h.counted
  have hcapacity := h.capacity
  by_cases hfull : q.events.length = q.capacity
  · -- the window is full: its first event makes room, and what is behind it stays in sight
    have hpush : q.push e = { q with events := q.events.drop 1 ++ [e], dropped := q.dropped + 1 } := if_pos hfull
    have hrest : q.events.drop 1 = pending.rtake k := by
      rw [h.events]
      unfold List.rtake
      rw [List.drop_drop]
      congr 1
      omega
    rw [hpush]
    refine ⟨hcapacity, ?_, ?_⟩
    · show q.events.drop 1 ++ [e] = _
      rw [List.rtake_concat_succ, hrest]
    · show q.dropped + 1 + (q.events.drop 1 ++ [e]).length = (pending ++ [e]).length
      simp only [List.length_append, List.length_drop, List.length_singleton]
      omega
  · -- there is room left: so far the window shows everything, and it still does
    have hpush : q.push e = { q with events := q.events ++ [e] } := if_neg hfull
    have hall : pending.rtake (k + 1) = pending.rtake k := by
      unfold List.rtake
      congr 1
      omega
    rw [hpush]
    refine ⟨hcapacity, ?_, ?_⟩
    · show q.events ++ [e] = _
      rw [List.rtake_concat_succ, h.events, hall]
    · show q.dropped + (q.events ++ [e]).length = (pending ++ [e]).length
      simp only [List.length_append, List.length_singleton]
      omega

theorem drain (h : q.Shows room pending) : q.drain.1.Shows room [] where
  capacity := h.capacity
  events := (List.rtake_nil room).symm
  counted := rfl

end Shows

/-- What is taken is the newest part of what the record has, batch by batch. -/
structure Follows (s : Service) (room : Nat) (r : Record) : Prop where
  shows : s.queue.Shows room r.pending
  taken : s.taken = r.taken.map fun es => es.rtake room

theorem Follows.use {s : Service} {room : Nat} {r : Record} (h : Follows s room r) (hroom : 0 < room) (u : Use) :
    Follows (s.use u) room (r.use u) := by
  cases u with
  | push e => exact ⟨h.shows.push hroom e, h.taken⟩
  | drain =>
    refine ⟨h.shows.drain, ?_⟩
    show s.taken ++ [s.queue.drain.2] = (r.taken ++ [r.pending]).map _
    rw [drain_snd, h.taken, h.shows.events, List.map_append]
    rfl

theorem Follows.uses {s : Service} {room : Nat} {r : Record} (h : Follows s room r) (hroom : 0 < room)
    (uses : List Use) : Follows (uses.foldl Service.use s) room (uses.foldl Record.use r) := by
  induction uses generalizing s r with
  | nil => exact h
  | cons u more ih => exact ih (h.use hroom u)

theorem follows_start (capacity : Nat) : Follows ⟨ofCapacity capacity, []⟩ (max capacity 1) {} where
  shows := ⟨rfl, (List.rtake_nil _).symm, rfl⟩
  taken := rfl

/-! ## Section 3 - what is handed out -/

/-- A queue with room for a number of events, as it stands when some events were added since the last drain. -/
structure KeepsNewest (q : EventQueue) (room : Nat) (pending : List Event) : Prop where
  size : q.size = min pending.length room
  dropped : q.dropped = pending.length - q.size
  /-- The next drain hands out the last of the events, in the order in which they were added. -/
  next : q.drain.2 = pending.rtake (min pending.length room)
  /-- It leaves a queue that has nothing in it and has dropped nothing. -/
  emptied : q.drain.1.size = 0 ∧ q.drain.1.dropped = 0

theorem Shows.keepsNewest {q : EventQueue} {room : Nat} {pending : List Event} (h : q.Shows room pending) :
    q.KeepsNewest room pending where
  size := h.size_eq
  dropped := by
    have hcounted := h.counted
    unfold EventQueue.size
    omega
  next := by
    rw [drain_snd, h.events]
    unfold List.rtake
    congr 1
    omega
  emptied := ⟨rfl, rfl⟩

/-- However a queue is pushed to and drained, it keeps the newest of what was pushed since the last drain, as many as
    it has room for, and counts the others; and each batch that was taken is the newest part of what was pushed
    between two drains. -/
theorem newest_are_kept (capacity : Nat) (uses : List Use) :
    (serve capacity uses).queue.KeepsNewest (max capacity 1) (record uses).pending ∧
      (serve capacity uses).taken = (record uses).taken.map fun es => es.rtake (max capacity 1) := by
  have hroom : 0 < max capacity 1 := by omega
  have h := (follows_start capacity).uses hroom uses
  exact ⟨h.shows.keepsNewest, h.taken⟩

/-- Of five events, a queue for three hands out the last three. -/
example (e₁ e₂ e₃ e₄ e₅ : Event) :
    (serve 3 [.push e₁, .push e₂, .push e₃, .push e₄, .push e₅, .drain]).taken = [[e₃, e₄, e₅]] := rfl

end HotReload.EventQueue
