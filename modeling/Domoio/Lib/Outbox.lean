import Mathlib.Data.List.Basic

/-
  File:      Domoio/Lib/Outbox.lean
  Subject:   A queue of messages with at most one write under way.

  A message is queued; the first of an empty queue is written at once. When a write completes its
  message leaves the queue and the next one is written. `frame` is what is written of a message.

  * `Outbox.Consistent` -- the invariant: a write is under way exactly when the queue is not empty,
    and what has been written together with what still waits is what was sent;
  * `Consistent.enqueue`, `Consistent.complete` -- both operations keep it.
-/

namespace Lib

/-- `sent` is history: the messages queued so far. -/
structure Outbox (α β : Type*) where
  queue : List α := []
  outstanding : Nat := 0
  written : List β := []
  sent : List α := []

namespace Outbox

variable {α β : Type*} (frame : α → β)

/-- The write of the message in front. -/
def start (o : Outbox α β) : Outbox α β :=
  match o.queue with
  | [] => o
  | front :: _ => { o with outstanding := o.outstanding + 1, written := o.written ++ [frame front] }

def enqueue (o : Outbox α β) (m : α) : Outbox α β :=
  let o' := { o with queue := o.queue ++ [m], sent := o.sent ++ [m] }
  if o.queue.isEmpty then o'.start frame else o'

/-- A write has completed. -/
def complete (o : Outbox α β) : Outbox α β :=
  let o' := { o with queue := o.queue.tail, outstanding := o.outstanding - 1 }
  if o'.queue.isEmpty then o' else o'.start frame

structure Consistent (o : Outbox α β) : Prop where
  outstanding : o.outstanding = if o.queue = [] then 0 else 1
  written : o.written ++ o.queue.tail.map frame = o.sent.map frame

variable {frame} {o : Outbox α β}

theorem consistent_empty : Consistent frame ({} : Outbox α β) := ⟨rfl, rfl⟩

theorem Consistent.enqueue (h : o.Consistent frame) (m : α) :
    (o.enqueue frame m).Consistent frame := by
  obtain ⟨ho, hw⟩ := h
  cases hq : o.queue with
  | nil =>
      rw [hq, if_pos rfl] at ho
      simp only [hq, List.tail_nil, List.map_nil, List.append_nil] at hw
      refine ⟨?_, ?_⟩
      · simp [Outbox.enqueue, start, hq, ho]
      · simp [Outbox.enqueue, start, hq, hw]
  | cons front rest =>
      rw [hq, if_neg (List.cons_ne_nil _ _)] at ho
      simp only [hq, List.tail_cons] at hw
      refine ⟨?_, ?_⟩
      · simp [Outbox.enqueue, hq, ho]
      · simp [Outbox.enqueue, hq, ← hw]

theorem Consistent.complete (h : o.Consistent frame) (hout : 0 < o.outstanding) :
    (o.complete frame).Consistent frame := by
  obtain ⟨ho, hw⟩ := h
  cases hq : o.queue with
  | nil =>
      rw [hq, if_pos rfl] at ho
      exact absurd (ho ▸ hout) (Nat.lt_irrefl 0)
  | cons front rest =>
      rw [hq, if_neg (List.cons_ne_nil _ _)] at ho
      simp only [hq, List.tail_cons] at hw
      cases rest with
      | nil =>
          refine ⟨?_, ?_⟩
          · simp [Outbox.complete, hq, ho]
          · simpa [Outbox.complete, hq] using hw
      | cons next rest =>
          refine ⟨?_, ?_⟩
          · simp [Outbox.complete, start, hq, ho]
          · simpa [Outbox.complete, start, hq] using hw

namespace Consistent

theorem outstanding_le (h : o.Consistent frame) : o.outstanding ≤ 1 := by
  rw [h.outstanding]
  split <;> omega

theorem outstanding_eq_one (h : o.Consistent frame) : o.outstanding = 1 ↔ o.queue ≠ [] := by
  rw [h.outstanding]
  split
  · rename_i hq
    simp [hq]
  · rename_i hq
    simp [hq]

/-- What has been written are the frames of the messages sent first. -/
theorem written_eq (h : o.Consistent frame) :
    o.written = (o.sent.take o.written.length).map frame := by
  rw [List.map_take, ← h.written, List.take_left]

/-- With no write under way everything has been written. -/
theorem written_of_quiescent (h : o.Consistent frame) (hout : o.outstanding = 0) :
    o.written = o.sent.map frame := by
  have hq : o.queue = [] := by
    by_contra hq
    rw [h.outstanding, if_neg hq] at hout
    cases hout
  have hw := h.written
  rw [hq] at hw
  simpa using hw

end Consistent

end Outbox

end Lib
