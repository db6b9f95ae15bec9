import Mathlib.Order.Basic
import Mathlib.Order.Lattice
import Mathlib.Order.MinMax

/-!
# Pruned tables under a watermark

A table of timed rows from which rows are deleted, beside a watermark that no
deleted row lies above.  Above the watermark the table still holds exactly the
rows ever recorded, whatever the order of their times.
-/

namespace AlgorithmHarness.Watermark

variable {Row Time : Type*} [LinearOrder Time] (time : Row → Time)

/-- `SELECT MAX(...)`. -/
def latest : List Time → Option Time
  | [] => none
  | value :: values => some (max value ((latest values).getD value))

theorem le_latest {values : List Time} {value : Time} (hmem : value ∈ values) :
    ∃ last, latest values = some last ∧ value ≤ last := by
  induction values with
  | nil => cases hmem
  | cons first values ih =>
      refine ⟨_, rfl, ?_⟩
      rcases List.mem_cons.mp hmem with rfl | hlater
      · exact le_max_left _ _
      · obtain ⟨last, hlast, hle⟩ := ih hlater
        rw [hlast]
        exact hle.trans (le_max_right _ _)

/-- The latest of the selected rows comes after each of them. -/
theorem le_latest_filter {rows : List Row} {row : Row} (hmem : row ∈ rows)
    (select : Row → Bool) (hselected : select row = true) :
    ∃ last, latest ((rows.filter select).map time) = some last ∧ time row ≤ last :=
  le_latest (List.mem_map_of_mem (List.mem_filter.mpr ⟨hmem, hselected⟩))

/-- Above the watermark the rows are those ever recorded. -/
def Covered (rows recorded : List Row) (watermark : Time) : Prop :=
  ∀ start, watermark < start →
    rows.filter (fun row => decide (start ≤ time row)) =
      recorded.filter fun row => decide (start ≤ time row)

variable {time} {rows recorded : List Row} {watermark : Time}

theorem Covered.refl (rows : List Row) (watermark : Time) : Covered time rows rows watermark :=
  fun _ _ => rfl

theorem Covered.record (hcovered : Covered time rows recorded watermark) (row : Row) :
    Covered time (rows ++ [row]) (recorded ++ [row]) watermark := by
  intro start hstart
  rw [List.filter_append, List.filter_append, hcovered start hstart]

/-- Pruning keeps the law if the watermark rises to the deleted rows. -/
theorem Covered.prune (hcovered : Covered time rows recorded watermark) {keep : Row → Bool}
    {raised : Time} (hraised : watermark ≤ raised)
    (hdeleted : ∀ row ∈ rows, keep row = false → time row ≤ raised) :
    Covered time (rows.filter keep) recorded raised := by
  intro start hstart
  rw [← hcovered start (hraised.trans_lt hstart), List.filter_filter]
  apply List.filter_congr
  intro row hmem
  cases hkeep : keep row with
  | true => rw [Bool.and_true]
  | false =>
      have hbefore : ¬start ≤ time row := not_le.mpr ((hdeleted row hmem hkeep).trans_lt hstart)
      rw [Bool.and_false, decide_eq_false hbefore]

/-- A query above the watermark sees every row ever recorded in its window. -/
theorem Covered.filter_eq (hcovered : Covered time rows recorded watermark) {start : Time}
    (hstart : watermark < start) (select : Row → Bool) :
    rows.filter (fun row => decide (start ≤ time row) && select row) =
      recorded.filter fun row => decide (start ≤ time row) && select row := by
  have hboth := congrArg (List.filter select) (hcovered start hstart)
  simpa only [List.filter_filter, Bool.and_comm] using hboth

end AlgorithmHarness.Watermark
