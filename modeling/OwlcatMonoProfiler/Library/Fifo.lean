import Mathlib.Tactic

/-!
# First-in first-out queues with their history

A queue is the list of everything that was ever enqueued together with the number of items taken
out again.  The pending items are what is left after the taken ones, so an item keeps its position
for ever and "enqueued before that moment" is a comparison of numbers.
-/

/-- A queue: all items enqueued so far, and how many of them have been taken. -/
structure Fifo (α : Type) where
  enqueued : List α
  taken : ℕ
  taken_le : taken ≤ enqueued.length
  deriving DecidableEq

namespace Fifo

variable {α : Type}

/-- The items that are still in the queue, oldest first. -/
def pending (q : Fifo α) : List α := q.enqueued.drop q.taken

/-- The queue before anything is enqueued. -/
def empty : Fifo α := ⟨[], 0, le_rfl⟩

/-- Put one item at the back. -/
def enqueue (q : Fifo α) (a : α) : Fifo α :=
  ⟨q.enqueued ++ [a], q.taken, by simpa using Nat.le_succ_of_le q.taken_le⟩

/-- Put several items at the back, one after the other. -/
def enqueueAll (q : Fifo α) (l : List α) : Fifo α := l.foldl enqueue q

/-- Take the oldest pending item, if there is one. -/
def tryDequeue (q : Fifo α) : Option (α × Fifo α) :=
  if h : q.taken < q.enqueued.length then
    some (q.enqueued[q.taken], ⟨q.enqueued, q.taken + 1, h⟩)
  else none

/-- Throw all pending items away. -/
def discard (q : Fifo α) : Fifo α := ⟨q.enqueued, q.enqueued.length, le_rfl⟩

instance : Inhabited (Fifo α) := ⟨empty⟩

@[simp] theorem pending_empty : (empty : Fifo α).pending = [] := rfl

@[simp] theorem enqueued_enqueue (q : Fifo α) (a : α) :
    (q.enqueue a).enqueued = q.enqueued ++ [a] := rfl

@[simp] theorem taken_enqueue (q : Fifo α) (a : α) : (q.enqueue a).taken = q.taken := rfl

@[simp] theorem pending_enqueue (q : Fifo α) (a : α) :
    (q.enqueue a).pending = q.pending ++ [a] :=
  List.drop_append_of_le_length q.taken_le

@[simp] theorem enqueued_enqueueAll (q : Fifo α) (l : List α) :
    (q.enqueueAll l).enqueued = q.enqueued ++ l := by
  induction l generalizing q with
  | nil => simp [enqueueAll]
  | cons a l ih =>
    change ((q.enqueue a).enqueueAll l).enqueued = q.enqueued ++ a :: l
    rw [ih, enqueued_enqueue, List.append_assoc, List.singleton_append]

@[simp] theorem taken_enqueueAll (q : Fifo α) (l : List α) :
    (q.enqueueAll l).taken = q.taken := by
  induction l generalizing q with
  | nil => rfl
  | cons a l ih => exact ih (q.enqueue a)

@[simp] theorem pending_enqueueAll (q : Fifo α) (l : List α) :
    (q.enqueueAll l).pending = q.pending ++ l := by
  unfold pending
  rw [enqueued_enqueueAll, taken_enqueueAll, List.drop_append_of_le_length q.taken_le]

@[simp] theorem pending_discard (q : Fifo α) : q.discard.pending = [] := by
  simp [pending, discard]

theorem tryDequeue_eq_none {q : Fifo α} : q.tryDequeue = none ↔ q.pending = [] := by
  unfold tryDequeue pending
  split_ifs with h
  · simp [h]
  · simp only [true_iff, List.drop_eq_nil_iff]
    omega

/-- What a successful dequeue returns and leaves behind. -/
theorem tryDequeue_eq_some {q r : Fifo α} {a : α} (h : q.tryDequeue = some (a, r)) :
    q.pending = a :: r.pending ∧ r.enqueued = q.enqueued ∧ r.taken = q.taken + 1 := by
  unfold tryDequeue at h
  split_ifs at h with hlt
  cases h
  exact ⟨List.drop_eq_getElem_cons hlt, rfl, rfl⟩

end Fifo
