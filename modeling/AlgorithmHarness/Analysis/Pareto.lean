import AlgorithmHarness.Core.Binary64
import AlgorithmHarness.Core.Grouping
import AlgorithmHarness.Core.Json
import Mathlib.Algebra.Order.Ring.Rat
import Mathlib.Data.List.MinMax
import Mathlib.Data.Prod.Lex
import Mathlib.Data.String.Basic
import Mathlib.Order.Preorder.Finite

/-!
# Trade-offs of cost and accuracy

`build_pareto_analysis`: repeats of a combination become one point by their
means, and a point is on the frontier if no other dominates it.  Decimals are
exact; the fingerprint of the settings and the check that experiments can be
compared are parameters.
-/

namespace AlgorithmHarness.Pareto

open Grouping KeyedRows

/-! ## Records -/

/-- A field that is to hold a number. -/
inductive Field
  | int (value : ℤ)
  | decimal (value : ℚ)
  | other

/-- A `combo_id` or a `repeat`. -/
inductive Label
  | null
  | number (value : ℤ)
  | text (value : String)
  deriving DecidableEq

structure Combination where
  /-- The names, where they are strings. -/
  model : Option String
  strategy : Option String
  comboId : Option Label
  repeatLabel : Option Label
  /-- `cost["known"] is True` -/
  costKnown : Bool
  totalCost : Option Field
  total : Field
  formalEvaluable : Field
  formalSolved : Field
  solved : Field
  tokenBudgetUnsupported : Bool

structure Comparison (Metadata : Type) where
  experiment : Metadata
  experimentId : String
  combinations : List Combination

/-- What is read off the metadata of experiments. -/
structure Settings (Metadata : Type) where
  variant : Metadata → String → String → Except String String
  validateCohorts : List Metadata → Except String Unit

inductive Metric
  | overall
  | formal
  deriving DecidableEq

/-! ## Observations -/

section Numbers

/-- `_number` of a decimal -/
def representable (amount : ℚ) (name : String) : Except String NNRat :=
  if hnonneg : 0 ≤ amount then
    let display := Double.round amount
    if display.isInfinite || (0 < amount && Double.eq display .zero) then
      .error (name ++ " cannot be represented in report numbers")
    else .ok ⟨amount, hnonneg⟩
  else .error (name ++ " must be finite and non-negative")

/-- `_number` -/
def number (value : Field) (name : String) : Except String NNRat :=
  match value with
  | .int amount => representable amount name
  | .decimal amount => representable amount name
  | .other => .error (name ++ " must be numeric")

/-- `_count` -/
def count (value : Field) (name : String) (positive : Bool) : Except String ℕ :=
  let refusal := name ++ " must be a " ++ (if positive then "positive" else "non-negative") ++
    " integer"
  match value with
  | .int amount => if amount < (if positive then 1 else 0) then .error refusal else .ok amount.toNat
  | _ => .error refusal

end Numbers

/-- The denominator and the number of solved problems that a metric reads. -/
def Combination.share (combination : Combination) (metric : Metric) (total : ℕ) :
    Except String (ℕ × ℕ) :=
  match metric with
  | .formal => do
      let denominator ← count combination.formalEvaluable "formal_evaluable" true
      let solved ← count combination.formalSolved "formal_solved" false
      if total < denominator then throw "formal denominator exceeds total"
      return (denominator, solved)
  | .overall => do
      let solved ← count combination.solved "solved" false
      return (total, solved)

/-- The model, the strategy and the fingerprint of their settings. -/
abbrev Variant := String × String × String

inductive Excluded
  | unnamed (source : String)
  | variant (variant : Variant) (repeats : ℕ) (reasons : List String)

section Collect

variable {Metadata : Type} (settings : Settings Metadata)

end Collect

/-! ## Points -/

structure Point where
  id : String
  variant : Variant
  repeats : ℕ
  totalProblems : ℕ
  accuracyDenominator : ℕ
  cost : NNRat
  accuracy : NNRat

/-- `f"point-{len(internal) + 1}"` -/
def pointId (index : ℕ) : String := "point-" ++ toString (index + 1)

/-- `other` costs no more and solves no less, and not both are equal. -/
def Point.dominates (other point : Point) : Bool :=
  other.cost ≤ point.cost && other.accuracy ≥ point.accuracy &&
    (other.cost < point.cost || other.accuracy > point.accuracy)

def dominatedBy (points : List Point) (point : Point) : List String :=
  (points.filter fun other => other.dominates point).map Point.id

/-- The order of the keys `(cost, -accuracy, id)`. -/
def Point.before (point other : Point) : Bool :=
  toLex (point.cost, toLex (OrderDual.toDual point.accuracy, point.id)) ≤
    toLex (other.cost, toLex (OrderDual.toDual other.accuracy, other.id))

def frontier (points : List Point) : List Point :=
  (points.filter fun point => dominatedBy points point = []).mergeSort Point.before

/-- The most accurate point without cost, or else the best ratio. -/
def bestValue (frontier : List Point) : Option Point :=
  let positive := frontier.filter fun point => 0 < point.accuracy
  let free := positive.filter fun point => point.cost = 0
  if free ≠ [] then free.argmax fun point => toLex (point.accuracy, point.id)
  else positive.argmax fun point =>
    toLex (point.accuracy / point.cost, toLex (point.accuracy, OrderDual.toDual point.cost))

structure Analysis where
  points : List Point
  excluded : List Excluded := []
  frontierIds : List String
  bestValue : Option String
  /-- Each budget with its point. -/
  recommendations : List (NNRat × Option String)

/-- The distinct values in their order. -/
def sortedSet (values : List NNRat) : List NNRat := values.eraseDups.mergeSort

section Build

variable {Metadata : Type} (settings : Settings Metadata)

end Build

/-! ## The frontier -/

/-- A point in the order of trade-offs, where a lower cost is better. -/
def Point.value (point : Point) : NNRatᵒᵈ × NNRat := (OrderDual.toDual point.cost, point.accuracy)

section Frontier

variable {points : List Point}

end Frontier

/-! ## The report -/

/-- What an analysis promises about its points, by their identifiers. -/
structure Analysis.Exact (analysis : Analysis) (budgets : List NNRat) : Prop where
  ids_nodup : (analysis.points.map Point.id).Nodup
  frontier_points : ∀ id ∈ analysis.frontierIds, ∃ point ∈ analysis.points, point.id = id
  frontier_iff : ∀ point ∈ analysis.points, point.id ∈ analysis.frontierIds ↔
    ∀ other ∈ analysis.points, other.dominates point = false
  covered : ∀ point ∈ analysis.points, point.id ∉ analysis.frontierIds →
    ∃ best ∈ analysis.points, best.id ∈ analysis.frontierIds ∧ best.dominates point = true
  budgets : ∀ budget ∈ budgets, ∃ id, (budget, id) ∈ analysis.recommendations
  recommended : ∀ budget id, (budget, id) ∈ analysis.recommendations →
    (id = none ∧ ∀ point ∈ analysis.points, budget < point.cost) ∨
      ∃ chosen ∈ analysis.points, id = some chosen.id ∧ chosen.cost ≤ budget ∧
        ∀ point ∈ analysis.points, point.cost ≤ budget → point.accuracy ≤ chosen.accuracy
  monotone : ∀ budget id larger other, (budget, some id) ∈ analysis.recommendations →
    (larger, other) ∈ analysis.recommendations → budget ≤ larger →
    ∃ chosen ∈ analysis.points, ∃ better ∈ analysis.points, id = chosen.id ∧
      other = some better.id ∧ chosen.accuracy ≤ better.accuracy
  free : ∀ point ∈ analysis.points, 0 < point.accuracy → point.cost = 0 →
    ∃ chosen ∈ analysis.points, analysis.bestValue = some chosen.id ∧ chosen.cost = 0 ∧
      ∀ other ∈ analysis.points, other.cost = 0 → other.accuracy ≤ chosen.accuracy
  ratio : (∀ point ∈ analysis.points, 0 < point.accuracy → 0 < point.cost) →
    (analysis.bestValue = none ∧ ∀ point ∈ analysis.points, point.accuracy = 0) ∨
      ∃ chosen ∈ analysis.points, analysis.bestValue = some chosen.id ∧ 0 < chosen.accuracy ∧
        ∀ other ∈ analysis.points, 0 < other.accuracy →
          other.accuracy / other.cost ≤ chosen.accuracy / chosen.cost

theorem pointId_injective : Function.Injective pointId := by
  intro index other hsame
  rw [pointId, pointId, String.append_right_inj] at hsame
  exact Nat.succ.inj (toString_injective hsame)

/-- The points have consecutive numbers. -/
def Numbered (index : ℕ) (points : List Point) : Prop :=
  points.map Point.id = ( List.range' index points.length).map pointId

theorem Numbered.nodup {index : ℕ} {points : List Point} (hnumbered : Numbered index points) :
    (points.map Point.id).Nodup := by
  rw [hnumbered]
  exact List.Nodup.map pointId_injective List.nodup_range'

end AlgorithmHarness.Pareto
