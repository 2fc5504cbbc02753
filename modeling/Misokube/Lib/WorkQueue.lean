import Mathlib.Data.List.Basic

/-!
# Work queues

A queue of pending items in which an item that is equal to a pending one is not added again, with
items that failed and are added again at some later time.  `Holds` says that an item will still
be processed.
-/

/-- Pending items in order, and items waiting to be added again. -/
structure WorkQueue (α : Type) where
  pending : List α
  delayed : List α

namespace WorkQueue

variable {α : Type} [DecidableEq α] {q q' : WorkQueue α} {x y : α}

/-- Adds an item at the end, unless an equal one is pending. -/
def add (q : WorkQueue α) (x : α) : WorkQueue α :=
  if x ∈ q.pending then q else { q with pending := q.pending ++ [x] }

/-- Adds an item again at some later time. -/
def addRateLimited (q : WorkQueue α) (x : α) : WorkQueue α :=
  { q with delayed := x :: q.delayed }

/-- The time has come for an item. -/
def retry (q : WorkQueue α) (x : α) : WorkQueue α :=
  if x ∈ q.delayed then { q with delayed := q.delayed.erase x }.add x else q

/-- The first pending item, and the queue without it. -/
def get (q : WorkQueue α) : Option (α × WorkQueue α) :=
  match q.pending with
  | [] => none
  | x :: rest => some (x, { q with pending := rest })

/-- The item will be processed. -/
def Holds (q : WorkQueue α) (x : α) : Prop :=
  x ∈ q.pending ∨ x ∈ q.delayed

instance (q : WorkQueue α) (x : α) : Decidable (q.Holds x) :=
  inferInstanceAs (Decidable (_ ∨ _))

/-- An item that waits already is not queued twice, but it is there. -/
@[simp]
theorem mem_pending_add :
  y ∈ (q.add x).pending ↔ y ∈ q.pending ∨ y = x
  := by
  rw [add]
  split
  case isTrue h =>
    constructor
    · apply Or.inl
    · rintro (hy | rfl)
      · exact hy
      · exact h
  case isFalse h => simp

@[simp]
theorem delayed_add :
  (q.add x).delayed = q.delayed
  := by
  rw [add]
  split <;> rfl

/-- The queue holds what it held, and the new item. -/
theorem holds_add :
  (q.add x).Holds y ↔ q.Holds y ∨ y = x
  := by
  rw [Holds, Holds, mem_pending_add, delayed_add]
  tauto

omit [DecidableEq α] in
/-- The same for an item that is tried again later. -/
theorem holds_addRateLimited :
  (q.addRateLimited x).Holds y ↔ q.Holds y ∨ y = x
  := by
  rw [Holds, Holds, addRateLimited, List.mem_cons]
  tauto

/-- An item that is tried again is still to be processed. -/
theorem holds_retry :
  (q.retry x).Holds y ↔ q.Holds y
  := by
  rw [retry]
  split
  case isFalse h => rfl
  case isTrue h =>
    rw [holds_add, Holds, Holds]
    by_cases hy : y = x
    · simp [hy, h]
    · simp [hy, List.mem_erase_of_ne hy]

omit [DecidableEq α] in
/-- The first item is taken. -/
theorem eq_of_get (hget : q.get = some (x, q')) :
  q.pending = x :: q'.pending ∧ q'.delayed = q.delayed
  := by
  rw [get] at hget
  split at hget
  · cases hget
  case h_2 heq =>
    cases hget
    exact ⟨heq, rfl⟩

omit [DecidableEq α] in
/-- An item other than the one that is taken is still to be processed. -/
theorem holds_of_get (hget : q.get = some (x, q')) (hy : y ≠ x) :
  q'.Holds y ↔ q.Holds y
  := by
  obtain ⟨hpending, hdelayed⟩ := eq_of_get hget
  rw [Holds, Holds, hpending, hdelayed, List.mem_cons, or_iff_right hy]

end WorkQueue
