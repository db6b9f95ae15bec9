import AlgorithmHarness.Core.KeyedRows
import Mathlib.Data.List.Induction
import Mathlib.Data.List.Nodup

/-!
# Rows grouped in a dictionary

A loop over rows that updates, for each row, the entry of a `defaultdict` under
the key of the row.  The entry of a key depends on the rows with that key alone,
and a total over the entries is the total over the rows.
-/

namespace AlgorithmHarness.Grouping

open AlgorithmHarness.KeyedRows

variable {Row Key Value : Type*} [DecidableEq Key]

/-- `groups[key]` of a `defaultdict`. -/
def valueAt (default : Value) (groups : List (Key × Value)) (key : Key) : Value :=
  ((fetch Prod.fst key groups).map Prod.snd).getD default

/-- `for row in rows: groups[key(row)] = add(groups[key(row)], row)`. -/
def collect (key : Row → Key) (default : Value) (add : Value → Row → Value) (rows : List Row) :
    List (Key × Value) :=
  rows.foldl
    (fun groups row =>
      put Prod.fst (key row, add (valueAt default groups (key row)) row) groups)
    []

variable {key : Row → Key} {default : Value} {add : Value → Row → Value}

@[simp]
theorem collect_nil : collect key default add [] = [] := rfl

theorem collect_concat (rows : List Row) (row : Row) :
    collect key default add (rows ++ [row]) =
      put Prod.fst
        (key row, add (valueAt default (collect key default add rows) (key row)) row)
        (collect key default add rows) := by
  simp [collect]

/-- An entry is built from the rows with its key. -/
theorem valueAt_collect (rows : List Row) (wanted : Key) :
    valueAt default (collect key default add rows) wanted =
      (rows.filter fun row => key row = wanted).foldl add default := by
  induction rows using List.reverseRecOn with
  | nil => rfl
  | append_singleton rows row ih =>
      rw [collect_concat, valueAt, fetch_put]
      by_cases hrow : key row = wanted
      · subst hrow
        simp [ih]
      · rw [if_neg hrow, List.filter_append, List.filter_singleton, decide_eq_false hrow,
          cond_false, List.append_nil, ← ih]
        rfl

theorem nodup_keys_collect (rows : List Row) :
    ((collect key default add rows).map Prod.fst).Nodup := by
  induction rows using List.reverseRecOn with
  | nil => exact List.nodup_nil
  | append_singleton rows row ih =>
      rw [collect_concat]
      exact nodup_put ih _

theorem mem_keys_collect {rows : List Row} {wanted : Key} :
    wanted ∈ (collect key default add rows).map Prod.fst ↔ ∃ row ∈ rows, key row = wanted := by
  induction rows using List.reverseRecOn with
  | nil => simp
  | append_singleton rows row ih =>
      rw [collect_concat, map_key_put]
      split_ifs with hknown
      · rw [ih]
        constructor
        · rintro ⟨known, hmem, hkey⟩
          exact ⟨known, List.mem_append_left _ hmem, hkey⟩
        · rintro ⟨known, hmem, hkey⟩
          rcases List.mem_append.mp hmem with hbefore | hlast
          · exact ⟨known, hbefore, hkey⟩
          · rw [List.mem_singleton.mp hlast] at hkey
            exact ih.mp (hkey ▸ hknown)
      · simp [ih, or_and_right, exists_or, eq_comm]

/-- The rows under each key, one key after the other, are the rows. -/
theorem flatten_filter_perm (key : Row → Key) {keys : List Key} (hkeys : keys.Nodup)
    {rows : List Row} (hcovered : ∀ row ∈ rows, key row ∈ keys) :
    ((keys.map fun wanted => rows.filter fun row => key row = wanted).flatten).Perm rows := by
  induction keys generalizing rows with
  | nil =>
      have hempty : rows = [] :=
        List.eq_nil_iff_forall_not_mem.mpr fun row hrow => List.not_mem_nil (hcovered row hrow)
      rw [hempty]
      exact List.Perm.refl _
  | cons first keys ih =>
      obtain ⟨hfirst, hothers⟩ := List.nodup_cons.mp hkeys
      have hrest := @ih hothers (rows.filter fun row => !decide (key row = first))
      have hsame : (keys.map fun wanted => rows.filter fun row => key row = wanted) =
          keys.map fun wanted => (rows.filter fun row => !decide (key row = first)).filter
            fun row => key row = wanted := by
        apply List.map_congr_left
        intro wanted hwanted
        rw [List.filter_filter]
        apply List.filter_congr
        intro row hrow
        by_cases hkey : key row = wanted
        · have hother : key row ≠ first := fun hequal => hfirst (hequal ▸ hkey ▸ hwanted)
          simp [hkey, hkey ▸ hother]
        · simp [hkey]
      rw [List.map_cons, List.flatten_cons, hsame]
      apply ((hrest _).append_left _).trans (List.filter_append_perm _ rows)
      intro row hrow
      obtain ⟨hmem, hother⟩ := List.mem_filter.mp hrow
      rcases List.mem_cons.mp (hcovered row hmem) with hequal | hlater
      · simp [hequal] at hother
      · exact hlater

end AlgorithmHarness.Grouping
