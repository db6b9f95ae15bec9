import Mathlib.Data.List.Basic
import Mathlib.Data.List.TakeDrop

/-!
# Lists numbered from one

A reader of a growing list keeps the number of the last element it has seen and
asks for the later ones.  This is complete when the elements are numbered by
their positions and the list only grows at its end.
-/

namespace AlgorithmHarness.Sequence

variable {α : Type*}

/-- The keys along the list are 1, 2, and so on. -/
def Numbered (key : α → ℕ) (xs : List α) : Prop :=
  xs.map key = List.range' 1 xs.length

variable {key : α → ℕ} {xs : List α}

theorem numbered_nil : Numbered key [] := rfl

theorem Numbered.concat (hnumbered : Numbered key xs) {x : α} (hkey : key x = xs.length + 1) :
    Numbered key (xs ++ [x]) := by
  unfold Numbered at hnumbered ⊢
  rw [List.map_append, hnumbered, List.length_append, List.length_singleton,
    List.range'_1_concat, List.map_singleton, hkey, Nat.add_comm]

theorem Numbered.key_eq (hnumbered : Numbered key xs) {position : ℕ} {x : α}
    (hx : xs[position]? = some x) : key x = position + 1 := by
  have hmap : (xs.map key)[position]? = some (key x) := by simp [hx]
  have hbound : position < xs.length := (List.getElem?_eq_some_iff.mp hx).1
  rw [hnumbered, List.getElem?_range' hbound] at hmap
  have hvalue := Option.some.inj hmap
  omega

/-- The elements numbered above `seen` are those after the first `seen`. -/
theorem Numbered.filter_eq_drop (hnumbered : Numbered key xs) (seen : ℕ) :
    xs.filter (fun x => seen < key x) = xs.drop seen := by
  have hbefore : (xs.take seen).filter (fun x => seen < key x) = [] := by
    refine List.filter_eq_nil_iff.mpr fun x hmem => ?_
    obtain ⟨position, hposition⟩ := List.getElem?_of_mem hmem
    rw [List.getElem?_take] at hposition
    split at hposition
    · have hkey := hnumbered.key_eq hposition
      simp only [decide_eq_true_eq]
      omega
    · cases hposition
  have hafter : (xs.drop seen).filter (fun x => seen < key x) = xs.drop seen := by
    refine List.filter_eq_self.mpr fun x hmem => ?_
    obtain ⟨position, hposition⟩ := List.getElem?_of_mem hmem
    rw [List.getElem?_drop] at hposition
    have hkey := hnumbered.key_eq hposition
    simp only [decide_eq_true_eq]
    omega
  calc xs.filter (fun x => seen < key x)
      = (xs.take seen ++ xs.drop seen).filter (fun x => seen < key x) := by
        rw [List.take_append_drop]
    _ = xs.drop seen := by rw [List.filter_append, hbefore, hafter, List.nil_append]

/-- Polling a list that has grown since the last time misses nothing. -/
theorem Numbered.seen_append_filter (hnumbered : Numbered key xs) {seen : List α}
    (hextends : seen <+: xs) : seen ++ xs.filter (fun x => seen.length < key x) = xs := by
  rw [hnumbered.filter_eq_drop]
  exact List.prefix_iff_eq_append.mp hextends

end AlgorithmHarness.Sequence
