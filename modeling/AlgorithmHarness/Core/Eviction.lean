import Mathlib.Algebra.Order.BigOperators.Group.List
import Mathlib.Algebra.Order.Group.Defs
import Mathlib.Data.List.Basic

/-!
# Evicting from the front of a list

Items with sizes are removed in their order until what remains fits a limit.
Some items cannot be removed and are passed over.
-/

namespace AlgorithmHarness.Eviction

variable {Item Amount Age : Type*} [AddCommGroup Amount] [LinearOrder Amount]
  [IsOrderedAddMonoid Amount] [LinearOrder Age]

def total (size : Item → Amount) (items : List Item) : Amount := (items.map size).sum

/-- The items that are removed while `current`, the size of what is there, exceeds the limit. -/
def evicted (size : Item → Amount) (removable : Item → Bool) (limit : Amount) :
    Amount → List Item → List Item
  | _, [] => []
  | current, item :: rest =>
      if current ≤ limit then []
      else if removable item then
        item :: evicted size removable limit (current - size item) rest
      else evicted size removable limit current rest

variable {size : Item → Amount} {removable : Item → Bool} {limit current : Amount}
  {items : List Item}

omit [LinearOrder Amount] [IsOrderedAddMonoid Amount] in
theorem total_cons (size : Item → Amount) (item : Item) (items : List Item) :
    total size (item :: items) = size item + total size items := List.sum_cons

omit [LinearOrder Amount] [IsOrderedAddMonoid Amount] in
theorem total_append (size : Item → Amount) (items others : List Item) :
    total size (items ++ others) = total size items + total size others := by
  rw [total, List.map_append, List.sum_append]
  rfl

omit [LinearOrder Amount] [IsOrderedAddMonoid Amount] in
theorem total_perm (size : Item → Amount) {items others : List Item} (hperm : items.Perm others) :
    total size items = total size others :=
  (hperm.map size).sum_eq

omit [LinearOrder Amount] [IsOrderedAddMonoid Amount] in
/-- A list splits into the items with a property and the others. -/
theorem total_filter_add (size : Item → Amount) (keep : Item → Bool) (items : List Item) :
    total size (items.filter keep) + total size (items.filter fun item => !keep item) =
      total size items := by
  induction items with
  | nil => exact add_zero _
  | cons item items ih =>
      rw [List.filter_cons, List.filter_cons, total_cons, ← ih]
      cases keep item with
      | true =>
          rw [if_pos rfl, Bool.not_true, if_neg Bool.false_ne_true, total_cons, add_assoc]
      | false =>
          rw [if_neg Bool.false_ne_true, Bool.not_false, if_pos rfl, total_cons,
            add_left_comm]

omit [IsOrderedAddMonoid Amount] in
theorem evicted_sublist (current : Amount) (items : List Item) :
    (evicted size removable limit current items).Sublist items := by
  induction items generalizing current with
  | nil => exact List.Sublist.refl []
  | cons item rest ih =>
      rw [evicted]
      split_ifs
      · exact List.nil_sublist _
      · exact (ih _).cons_cons item
      · exact (ih _).cons item

omit [IsOrderedAddMonoid Amount] in
theorem removable_of_mem_evicted {item : Item}
    (hmem : item ∈ evicted size removable limit current items) : removable item = true := by
  induction items generalizing current with
  | nil => exact absurd hmem List.not_mem_nil
  | cons first rest ih =>
      rw [evicted] at hmem
      split_ifs at hmem with hfits hfirst
      · exact absurd hmem List.not_mem_nil
      · cases List.mem_cons.mp hmem with
        | inl hsame => exact hsame ▸ hfirst
        | inr hrest => exact ih hrest
      · exact ih hmem

omit [IsOrderedAddMonoid Amount] in
/-- What remains fits, unless everything that can be removed is. -/
theorem evicted_fits (current : Amount) (items : List Item) :
    current - total size (evicted size removable limit current items) ≤ limit ∨
      evicted size removable limit current items = items.filter removable := by
  induction items generalizing current with
  | nil => exact .inr rfl
  | cons item rest ih =>
      rw [evicted]
      by_cases hfits : current ≤ limit
      · rw [if_pos hfits]
        exact .inl ((sub_zero current).trans_le hfits)
      · rw [if_neg hfits]
        by_cases hitem : removable item = true
        · rw [if_pos hitem, List.filter_cons_of_pos hitem, total_cons, ← sub_sub]
          exact (ih _).imp_right (congrArg (item :: ·))
        · rw [if_neg hitem, List.filter_cons_of_neg hitem]
          exact ih current

omit [IsOrderedAddMonoid Amount] in
/-- Without the last of its removals it would not fit. -/
theorem evicted_needed (current : Amount) (items : List Item) :
    evicted size removable limit current items = [] ∨
      ∃ earlier last, evicted size removable limit current items = earlier ++ [last] ∧
        limit < current - total size earlier := by
  induction items generalizing current with
  | nil => exact .inl rfl
  | cons item rest ih =>
      rw [evicted]
      split_ifs with hfits hitem
      · exact .inl rfl
      · right
        cases ih (current - size item) with
        | inl hnone =>
            refine ⟨[], item, congrArg (item :: ·) hnone, ?_⟩
            exact (not_le.mp hfits).trans_eq (sub_zero current).symm
        | inr hlast =>
            obtain ⟨earlier, last, hevicted, hexceeds⟩ := hlast
            refine ⟨item :: earlier, last, congrArg (item :: ·) hevicted, ?_⟩
            rwa [total_cons, ← sub_sub]
      · exact ih current

section Ages

variable {age : Item → Age} (hsorted : items.Pairwise fun older newer => age older ≤ age newer)

include hsorted

omit [IsOrderedAddMonoid Amount] in
/-- No item is removed that is newer than one that could be removed and stays. -/
theorem evicted_oldest {removed kept : Item}
    (hremoved : removed ∈ evicted size removable limit current items) (hkept : kept ∈ items)
    (hremovable : removable kept = true)
    (hstays : kept ∉ evicted size removable limit current items) : age removed ≤ age kept := by
  induction items generalizing current with
  | nil => exact absurd hkept List.not_mem_nil
  | cons item rest ih =>
      rw [List.pairwise_cons] at hsorted
      rw [evicted] at hremoved hstays
      split_ifs at hremoved hstays with hfits hitem
      · exact absurd hremoved List.not_mem_nil
      · rw [List.mem_cons, not_or] at hstays
        have hlater := (List.mem_cons.mp hkept).resolve_left hstays.1
        cases List.mem_cons.mp hremoved with
        | inl hfirst => exact hfirst ▸ hsorted.1 kept hlater
        | inr hrest => exact ih hsorted.2 hrest hlater hstays.2
      · have hlater : kept ∈ rest := by
          apply (List.mem_cons.mp hkept).resolve_left
          rintro rfl
          exact hitem hremovable
        exact ih hsorted.2 hremoved hlater hstays

/-- Items that are all newer than the others, and fit, all stay. -/
theorem evicted_maximal [DecidableEq Item] {kept : List Item}
    (hunremovable : ∀ item ∈ items, removable item = false → item ∈ kept)
    (hnewer : ∀ item ∈ items, item ∉ kept → ∀ newer ∈ items, newer ∈ kept →
      removable newer = true → age item < age newer)
    (hfits : current ≤ limit + total size (items.filter fun item => item ∉ kept)) :
    ∀ item ∈ evicted size removable limit current items, item ∉ kept := by
  induction items generalizing current with
  | nil => exact fun _ hmem => absurd hmem List.not_mem_nil
  | cons item rest ih =>
      rw [List.pairwise_cons] at hsorted
      have hrest : ∀ current, current ≤
            limit + total size (rest.filter fun item => item ∉ kept) →
          ∀ item ∈ evicted size removable limit current rest, item ∉ kept := by
        intro current
        apply ih hsorted.2
        · exact fun other hother => hunremovable other (List.mem_cons_of_mem _ hother)
        · intro other hother hnot newer hnewest
          exact hnewer other (List.mem_cons_of_mem _ hother) hnot newer
            (List.mem_cons_of_mem _ hnewest)
      rw [evicted]
      split_ifs with hdone hitem
      · exact fun _ hmem => absurd hmem List.not_mem_nil
      · by_cases hkept : item ∈ kept
        · -- nothing after a kept item is left to remove
          exfalso
          apply hdone
          have hnone : (item :: rest).filter (fun other => other ∉ kept) = [] := by
            rw [List.filter_eq_nil_iff, List.forall_mem_cons]
            refine ⟨fun hnot => of_decide_eq_true hnot hkept, ?_⟩
            intro other hother hnot
            have holder := hnewer other (List.mem_cons_of_mem _ hother) (of_decide_eq_true hnot)
              item List.mem_cons_self hkept hitem
            exact (hsorted.1 other hother).not_gt holder
          rw [hnone] at hfits
          exact hfits.trans_eq (add_zero limit)
        · rw [List.forall_mem_cons]
          refine ⟨hkept, hrest _ ?_⟩
          rw [List.filter_cons, if_pos (decide_eq_true hkept), total_cons, add_left_comm] at hfits
          exact sub_le_iff_le_add'.mpr hfits
      · have hkept : item ∈ kept :=
          hunremovable item List.mem_cons_self (Bool.not_eq_true _ ▸ hitem)
        apply hrest
        rwa [List.filter_cons, if_neg fun hnot => absurd hkept (of_decide_eq_true hnot)] at hfits

end Ages

end AlgorithmHarness.Eviction
