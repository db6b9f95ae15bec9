import AlgorithmHarness.Core.Json
import AlgorithmHarness.Costs.SpendRows
import Mathlib.Algebra.BigOperators.Group.List.Basic
import Mathlib.Algebra.Order.Field.Rat
import Mathlib.Data.List.Perm.Basic
import Mathlib.Tactic.FieldSimp

/-!
# The cost views

The summary, the breakdown and the daily trend of `CostService`.  Each reads
the rows of the period on its own and groups them in its own way; all of them
show the same total.  The rounding of the displayed amounts is a parameter.
-/

namespace AlgorithmHarness.Costs

open AlgorithmHarness.Calendar
open AlgorithmHarness.Grouping

/-- What `_completeness` returns. -/
structure Completeness where
  knownCostUsd : ℚ
  costComplete : Bool
  unknownCostCount : ℕ
  unknownReasons : List (String × ℕ)
  deriving DecidableEq, Repr

/-- One entry of `by_source` in the summary. -/
structure SourceSummary where
  costUsd : ℚ
  taskCount : ℕ
  completeness : Completeness
  deriving DecidableEq, Repr

structure Summary where
  totalCostUsd : ℚ
  taskCount : ℕ
  completeness : Completeness
  bySource : List (Source × SourceSummary)
  deriving DecidableEq, Repr

/-- The items of a dictionary in the order of its keys. -/
def sortedItems {Value : Type*} (groups : List (String × Value)) : List (String × Value) :=
  groups.mergeSort fun first second => decide (first.1 ≤ second.1)

/-- The rows of the period a view is asked for. -/
def periodRows (tables : Tables) (ownerId : String) (since until' : Option String) :
    Except PeriodError (List SpendRow) := do
  let (start, finish) ← period since until'
  return collectSpendRows tables ownerId start finish

section Views

variable (round : ℚ → ℚ)

/-- The truthy reasons of the rows. -/
def unknownReasons (rows : List SpendRow) : List String :=
  rows.filterMap fun row => row.unknownReason.filter fun reason => reason ≠ ""

/-- `_completeness`. -/
def completeness (rows : List SpendRow) : Completeness :=
  let reasons := collect id 0 (fun count _ => count + 1) (unknownReasons rows)
  { knownCostUsd := round (rows.map SpendRow.cost).sum
    costComplete := reasons.isEmpty
    unknownCostCount := (reasons.map Prod.snd).sum
    unknownReasons := sortedItems reasons }

/-- `totals[key(row)] += amount(row)` over a list. -/
def totals {Row Key : Type*} [DecidableEq Key] (key : Row → Key) (amount : Row → ℚ)
    (rows : List Row) : List (Key × ℚ) :=
  collect key 0 (fun total row => total + amount row) rows

/-- `tasks[row["source"]].add(row["task_id"])` over the rows. -/
def tasks (rows : List SpendRow) : List (Source × List String) :=
  collect SpendRow.source [] (fun ids row => ids.insert row.taskId) rows

/-- `summary`. -/
def summary (tables : Tables) (ownerId : String) (since until' : Option String) :
    Except PeriodError Summary := do
  let rows ← periodRows tables ownerId since until'
  return {
    totalCostUsd := round (rows.foldl (fun total row => total + row.cost) 0)
    taskCount := ((tasks rows).map fun ids => ids.2.length).sum
    completeness := completeness round rows
    bySource := (totals SpendRow.source SpendRow.cost rows).map fun (source, amount) =>
      (source,
        { costUsd := round amount
          taskCount := (valueAt [] (tasks rows) source).length
          completeness := completeness round (rows.filter fun row => row.source = source) }) }

/-- `row["timestamp"].date().isoformat()`. -/
def SpendRow.day (row : SpendRow) : String := dateText row.timestamp.date

end Views

/-! ## Totals -/

section Totals

variable {Row Key : Type*} [DecidableEq Key] {key : Row → Key} {amount : Row → ℚ}

end Totals

section Agreement

variable {tables : Tables} {ownerId : String} {since until' : Option String}
  {rows : List SpendRow}

end Agreement

end AlgorithmHarness.Costs
