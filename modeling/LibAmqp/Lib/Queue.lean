import Mathlib.Tactic.Common

/-!
# Bounded queues

`Queue α`: all that has entered, and how much of it has left. There is room for a number of elements in
all, not for a number that waits.

* `Queue.Run.fifo`: what leaves is what entered, in the same order.
-/

namespace Lib

variable {α : Type}

@[ext] structure Queue (α : Type) where
  capacity : Nat
  entered : List α
  left : Nat
  left_le : left ≤ entered.length
  entered_le : entered.length ≤ capacity

namespace Queue

def empty (capacity : Nat) : Queue α where
  capacity := capacity
  entered := []
  left := 0
  left_le := Nat.le_refl _
  entered_le := Nat.zero_le _

/-- More room, but never less. -/
def widen (q : Queue α) (capacity : Nat) : Queue α := { q with
  capacity := max q.capacity capacity
  entered_le := Nat.le_trans q.entered_le (Nat.le_max_left _ _) }

def push (q : Queue α) (xs : List α) (h : q.entered.length + xs.length ≤ q.capacity) : Queue α := { q with
  entered := q.entered ++ xs
  left_le := by
    rw [List.length_append]
    exact Nat.le_add_right_of_le q.left_le
  entered_le := by rwa [List.length_append] }

def pop (q : Queue α) (h : q.left < q.entered.length) : Queue α := { q with
  left := q.left + 1
  left_le := h }

/-- What still waits. -/
def waiting (q : Queue α) : List α := q.entered.drop q.left

/-- A step, with what enters and what leaves. -/
inductive Step (q : Queue α) : List α → List α → Queue α → Prop
  | widen (capacity : Nat) : Step q [] [] (q.widen capacity)
  | push (xs : List α) (h : q.entered.length + xs.length ≤ q.capacity) : Step q xs [] (q.push xs h)
  | pop (h : q.left < q.entered.length) : Step q [] [q.entered[q.left]] (q.pop h)
  | refuse : Step q [] [] q

/-- Steps, with all that enters and all that leaves. -/
inductive Run : Queue α → List α → List α → Queue α → Prop
  | nil (q : Queue α) : Run q [] [] q
  | cons {q q1 q2 : Queue α} {input output inputs outputs : List α} (h : Step q input output q1)
    (hs : Run q1 inputs outputs q2) : Run q (input ++ inputs) (output ++ outputs) q2

variable {q q' : Queue α} {input output : List α}

theorem Step.entered (h : Step q input output q') : q'.entered = q.entered ++ input := by
  cases h with
  | widen | pop | refuse => exact (List.append_nil _).symm
  | push => rfl

theorem Step.taken (h : Step q input output q') :
    q'.entered.take q'.left = q.entered.take q.left ++ output := by
  cases h with
  | widen | refuse => exact (List.append_nil _).symm
  | push xs => rw [List.append_nil]; exact List.take_append_of_le_length q.left_le
  | pop h => exact List.take_succ_eq_append_getElem h

theorem Run.entered (h : Run q input output q') : q'.entered = q.entered ++ input := by
  induction h with
  | nil => exact (List.append_nil _).symm
  | cons h _ ih => rw [ih, h.entered, List.append_assoc]

theorem Run.taken (h : Run q input output q') :
    q'.entered.take q'.left = q.entered.take q.left ++ output := by
  induction h with
  | nil => exact (List.append_nil _).symm
  | cons h _ ih => rw [ih, h.taken, List.append_assoc]

/-- What left and what still waits is what entered. -/
theorem Run.fifo {capacity : Nat} (h : Run (empty capacity) input output q) :
    input = output ++ q.waiting := by
  have hentered := h.entered
  have htaken := h.taken
  rw [empty, List.nil_append] at hentered
  rw [empty, List.take_nil, List.nil_append] at htaken
  rw [← hentered, ← htaken, waiting, List.take_append_drop]

end Queue
end Lib
