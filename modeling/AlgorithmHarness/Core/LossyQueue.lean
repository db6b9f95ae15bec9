import Mathlib.Data.List.Basic

/-!
# A bounded queue that drops its oldest item

Between one producer and one consumer stands a queue of fixed capacity.  A push
to a full queue drops the head.  The account of such a queue says of every item
that has arrived whether it was taken, dropped or is still there, and that an item
is only dropped when `capacity` later ones have arrived.
-/

namespace AlgorithmHarness.LossyQueue

variable {Item : Type*}

def push (capacity : ℕ) (queue : List Item) (item : Item) : List Item :=
  if capacity ≤ queue.length then queue.tail ++ [item] else queue ++ [item]

/-- What has arrived is what was handled, in its order, and then the queue; what was
handled was taken or dropped. -/
def Account (capacity : ℕ) (arrived taken queue : List Item) : Prop :=
  ∃ handled : List (Item × Bool),
    arrived = handled.map Prod.fst ++ queue ∧
    taken = (handled.filter Prod.snd).map Prod.fst ∧
    queue.length ≤ capacity ∧
    ∀ position item, handled[position]? = some (item, false) →
      position + capacity < arrived.length

variable {capacity : ℕ} {arrived taken queue : List Item} {item : Item}

theorem Account.empty (capacity : ℕ) : Account capacity ([] : List Item) [] [] :=
  ⟨[], rfl, rfl, Nat.zero_le _, fun _ _ hhandled => by cases hhandled⟩

theorem Account.push (haccount : Account capacity arrived taken queue) (hcapacity : 0 < capacity)
    (item : Item) : Account capacity (arrived ++ [item]) taken (push capacity queue item) := by
  obtain ⟨handled, rfl, rfl, hlength, hdropped⟩ := haccount
  by_cases hfull : capacity ≤ queue.length
  · obtain ⟨oldest, queue, rfl⟩ := List.exists_cons_of_length_pos 
      (Nat.lt_of_lt_of_le hcapacity hfull)
    rw [LossyQueue.push, if_pos hfull, List.tail_cons]
    refine ⟨handled ++ [(oldest, false)], by simp, by simp, by simpa using hlength, ?_⟩
    intro position dropped hposition
    have hin := (List.getElem?_eq_some_iff.mp hposition).1
    simp only [List.length_append, List.length_map, List.length_cons, List.length_nil]
      at hdropped hfull hin ⊢
    rcases Nat.lt_or_ge position handled.length with hearlier | hlast
    · rw [List.getElem?_append_left hearlier] at hposition
      exact Nat.lt_succ_of_lt (hdropped position dropped hposition)
    · omega
  · rw [LossyQueue.push, if_neg hfull]
    refine ⟨handled, by simp, rfl, ?_, ?_⟩
    · rw [List.length_append, List.length_singleton]
      exact Nat.not_le.mp hfull
    · intro position dropped hposition
      rw [List.length_append]
      exact Nat.lt_add_right _ (hdropped position dropped hposition)

theorem Account.pop (haccount : Account capacity arrived taken (item :: queue)) :
    Account capacity arrived (taken ++ [item]) queue := by
  obtain ⟨handled, rfl, rfl, hlength, hdropped⟩ := haccount
  refine ⟨handled ++ [(item, true)], by simp, by simp, Nat.le_of_succ_le hlength, ?_⟩
  intro position dropped hposition
  rcases Nat.lt_or_ge position handled.length with hearlier | hlast
  · rw [List.getElem?_append_left hearlier] at hposition
    exact hdropped position dropped hposition
  · rw [List.getElem?_append_right hlast] at hposition
    obtain ⟨hin, hitem⟩ := List.getElem?_eq_some_iff.mp hposition
    rw [List.getElem_singleton] at hitem
    cases hitem

end AlgorithmHarness.LossyQueue
