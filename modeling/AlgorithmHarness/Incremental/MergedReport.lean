import AlgorithmHarness.Core.Grouping
import AlgorithmHarness.Harness.EstimateFields
import AlgorithmHarness.Incremental.Reuse
import Mathlib.Algebra.Order.Field.Rat

/-!
# Reports on merged results

`_generate_report` reads the results of a run beside its problems; after an
incremental run the command line computes the report again from the merged
results alone.  The two agree but for formal flags and the order of results.
-/

namespace AlgorithmHarness.Incremental

open Grouping Harness KeyedRows

/-! ## Reports -/

/-- The fields of a result that reports read and placeholders leave at their defaults. -/
structure Evidence where
  account : Account := { totalTokens := 0, llmTraces := [] }
  /-- `len(iterations)` -/
  iterations : ℕ := 0
  /-- `hidden_result.all_passed`, if there is a hidden result. -/
  hiddenPassed : Option Bool := none
  deriving DecidableEq

abbrev ReportedResult := EvaluationResult Evidence

def EvaluationResult.evidence (result : ReportedResult) : Evidence := result.details.getD {}

def EvaluationResult.account (result : ReportedResult) : Account := result.evidence.account

def EvaluationResult.hiddenPassed (result : ReportedResult) : Bool :=
  result.evidence.hiddenPassed = some true

/-- An entry of `by_difficulty`. -/
structure Bucket where
  solved : ℕ := 0
  total : ℕ := 0
  successRate : ℚ := 0
  costUsd : Amount := .finite 0

section Reports

/- `round` adds floats; `addCost` adds the cost of a result and rounds to six digits. -/
variable (round : ℚ → ℚ → Amount) (addCost : Amount → ℚ → Amount)

/-- A rate over nothing is 0. -/
def rate (part whole : ℕ) : ℚ := if 0 < whole then part / whole else 0

def succeeded (results : List ReportedResult) : ℕ :=
  results.countP fun result => result.status = "success"

def attempts (results : List ReportedResult) : ℕ :=
  (results.map fun result => result.evidence.iterations).sum

def tokens (results : List ReportedResult) : ℕ :=
  (results.map fun result => result.account.totalTokens).sum

end Reports

/-! ## Equal reports -/

/-- One result per problem, each with its difficulty. -/
structure Covers (problems : List Problem) (results : List ReportedResult) : Prop where
  unique : (problems.map Problem.problemId).Nodup
  perm : (results.map EvaluationResult.problemId).Perm (problems.map Problem.problemId)
  difficulty : ∀ result ∈ results, result.difficulty ≠ none

/-- The results in the order of the problems. -/
def inOrder (problems : List Problem) (results : List ReportedResult) : List ReportedResult :=
  problems.filterMap fun problem =>
    results.find? fun result => result.problemId = problem.problemId

section Ordering

variable {problems : List Problem} {results : List ReportedResult}

/-- The problems beside their results. -/
def paired (problems : List Problem) (results : List ReportedResult) :
    List (Problem × ReportedResult) :=
  problems.filterMap fun problem =>
    (fetch EvaluationResult.problemId problem.problemId results).map (Prod.mk problem)

theorem inOrder_eq (problems : List Problem) (results : List ReportedResult) :
    inOrder problems results = problems.filterMap fun problem =>
      fetch EvaluationResult.problemId problem.problemId results := rfl

theorem Covers.nodup (hcovers : Covers problems results) :
    (results.map EvaluationResult.problemId).Nodup :=
  hcovers.perm.nodup_iff.mpr hcovers.unique

theorem Covers.fetch_iff (hcovers : Covers problems results) {problemId : String}
    {result : ReportedResult} :
    fetch EvaluationResult.problemId problemId results = some result ↔
      result ∈ results ∧ result.problemId = problemId :=
  fetch_eq_some_iff hcovers.nodup

theorem Covers.found (hcovers : Covers problems results) {problem : Problem}
    (hproblem : problem ∈ problems) :
    ∃ result, fetch EvaluationResult.problemId problem.problemId results = some result := by
  have hmem : problem.problemId ∈ results.map EvaluationResult.problemId :=
    hcovers.perm.mem_iff.mpr (List.mem_map_of_mem hproblem)
  obtain ⟨result, hresult, hid⟩ := List.mem_map.mp hmem
  exact ⟨result, hcovers.fetch_iff.mpr ⟨hresult, hid⟩⟩

theorem Covers.map_inOrder (hcovers : Covers problems results) :
    (inOrder problems results).map EvaluationResult.problemId =
      problems.map Problem.problemId := by
  rw [inOrder_eq, List.map_filterMap, ← List.filterMap_eq_map]
  apply List.filterMap_congr
  intro problem hproblem
  obtain ⟨result, hresult⟩ := hcovers.found hproblem
  rw [hresult, Option.map_some, (hcovers.fetch_iff.mp hresult).2]
  rfl

theorem Covers.inOrder_perm (hcovers : Covers problems results) :
    (inOrder problems results).Perm results := by
  have hordered : (inOrder problems results).Nodup := by
    apply List.Nodup.of_map EvaluationResult.problemId
    rw [hcovers.map_inOrder]
    exact hcovers.unique
  rw [List.perm_ext_iff_of_nodup hordered (List.Nodup.of_map _ hcovers.nodup)]
  intro result
  rw [inOrder_eq, List.mem_filterMap]
  constructor
  · rintro ⟨problem, -, hfetch⟩
    exact (hcovers.fetch_iff.mp hfetch).1
  · intro hresult
    have hmem : result.problemId ∈ problems.map Problem.problemId :=
      hcovers.perm.mem_iff.mp (List.mem_map_of_mem hresult)
    obtain ⟨problem, hproblem, hid⟩ := List.mem_map.mp hmem
    exact ⟨problem, hproblem, hcovers.fetch_iff.mpr ⟨hresult, hid.symm⟩⟩

theorem Covers.length (hcovers : Covers problems results) : results.length = problems.length := by
  simpa only [List.length_map] using hcovers.perm.length_eq

end Ordering

/-! ## Entries of a difficulty -/

section Breakdown

variable (addCost : Amount → ℚ → Amount)

def ofLevel (level : Difficulty) (results : List ReportedResult) : List ReportedResult :=
  results.filter fun result => result.difficulty = some level

def levelCost (results : List ReportedResult) : Amount :=
  results.foldl (fun amount result => addCost amount (resultCost result.account).1) (.finite 0)

end Breakdown

/-! ## When the reports are the same -/

section Reports

variable (round : ℚ → ℚ → Amount) (addCost : Amount → ℚ → Amount)

def accounts (results : List ReportedResult) : List Account := results.map EvaluationResult.account

/-- The formal flags of results and problems fit, and the order of the results does not show in
sums of floats and in the prices that are kept. -/
structure Mirrored (problems : List Problem) (results : List ReportedResult) : Prop where
  evaluable : results.countP EvaluationResult.formalEvaluable =
    problems.countP Problem.formalEvaluable
  solved : ∀ problem ∈ problems, ∀ result ∈ results, result.problemId = problem.problemId →
    result.formalEvaluable = true → result.hiddenPassed = true → problem.formalEvaluable = true
  cost : floatSum round (counted (accounts results)) =
    floatSum round (counted (accounts (inOrder problems results)))
  prices : ∀ model, (callsOf model (accounts results)).head?.map Call.prices =
    (callsOf model (accounts (inOrder problems results))).head?.map Call.prices
  modelCost : ∀ model, floatSum round (callCosts (callsOf model (accounts results))) =
    floatSum round (callCosts (callsOf model (accounts (inOrder problems results))))
  levelCost : ∀ level, levelCost addCost (ofLevel level results) =
    levelCost addCost (ofLevel level (inOrder problems results))

variable {problems : List Problem} {results : List ReportedResult}

/-- With exact sums only formal flags and price entries can differ. -/
theorem mirrored_of_exact
    (hround : ∀ first second, round first second = .finite (first + second))
    (hadd : ∀ amount cost, addCost amount cost = amount.plus round (.finite cost))
    (hcovers : Covers problems results)
    (hevaluable : results.countP EvaluationResult.formalEvaluable =
      problems.countP Problem.formalEvaluable)
    (hsolved : ∀ problem ∈ problems, ∀ result ∈ results, result.problemId = problem.problemId →
      result.formalEvaluable = true → result.hiddenPassed = true → problem.formalEvaluable = true)
    (hprices : ∀ model, (callsOf model (accounts results)).head?.map Call.prices =
      (callsOf model (accounts (inOrder problems results))).head?.map Call.prices) :
    Mirrored round addCost problems results := by
  have hperm := hcovers.inOrder_perm.symm
  have haccounts : (accounts results).Perm (accounts (inOrder problems results)) :=
    hperm.map EvaluationResult.account
  have hlevels : ∀ results : List ReportedResult, levelCost addCost results =
      floatSum round (results.map fun result => .finite (resultCost result.account).1) := by
    intro results
    rw [levelCost, floatSum, List.foldl_map]
    congr 1
    funext amount result
    exact hadd amount _
  constructor
  · exact hevaluable
  · exact hsolved
  · exact floatSum_perm round hround (haccounts.flatMap_right _)
  · exact hprices
  · exact fun model => floatSum_perm round hround
      (((haccounts.flatMap_right _).filterMap _).filterMap _)
  · intro level
    rw [hlevels, hlevels]
    exact floatSum_perm round hround ((hperm.filter _).map _)

end Reports

/-! ## A placeholder for a formal problem -/

end AlgorithmHarness.Incremental
