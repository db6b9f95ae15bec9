import AlgorithmHarness.Core.KeyedRows
import AlgorithmHarness.TaskManager.Rows
import AlgorithmHarness.TaskService.Record

/-!
# The ledger of an evaluation

`on_unit_finished` and `_record_unit_result` of the evaluation worker: the
`evaluation_results` rows of one evaluation and the spend kept beside them.
Costs are exact.  `redact_sensitive_data` is a parameter; artifact
publications, alerts and progress messages are left out.
-/

namespace AlgorithmHarness.EvaluationWorker

open TaskManager (AsyncTask BusinessRow Generation)
open TaskService (TaskRecord TaskUnit TaskState)

/-- A row of `evaluation_results`; its `evaluation_id` is understood. -/
structure EvaluationResult where
  problemId : String
  strategyName : String
  status : Json
  metrics : Option JsonDict
  errorMessage : Json
  executionPayload : Option JsonDict

/-- The columns of an evaluation that its worker writes, and its results. -/
structure Evaluation where
  row : BusinessRow
  spentUsd : ℚ := 0
  completedCount : ℕ := 0
  failedCount : ℕ := 0
  results : List EvaluationResult := []

/-- The columns `filter_by` selects a result by. -/
def EvaluationResult.key (result : EvaluationResult) : String × String :=
  (result.problemId, result.strategyName)

def unitKey (unit : TaskUnit JsonDict) : String × String := (unit.problemId, unit.strategy)

/-- `metrics or {}`. -/
def metricsDict (result : Option EvaluationResult) : JsonDict :=
  (result.bind (·.metrics)).getD ∅

/-- `unit.result if unit.result else None`. -/
def resultData (unit : TaskUnit JsonDict) : Option JsonDict :=
  unit.result.filter fun data => data.entries ≠ []

/-- What the unit itself contributes to its row. -/
structure Measured where
  status : Json
  metrics : Option JsonDict
  errorMessage : Json
  cost : ℚ

/-- The values `_record_unit_result` takes from the unit. -/
def measured (unit : TaskUnit JsonDict) : Except String Measured :=
  match (resultData unit).filter fun _ => unit.status = .completed with
  | some data => do
      let metadata := (data.get "metadata").orEmpty
      let status := data.get "status" (.str "failed")
      let costUsd ← metadata.get "cost_usd" (.num 0)
      let costUnknown ← metadata.get "cost_unknown" (.bool false)
      let executedStrategy ← metadata.get "executed_strategy" (.str unit.strategy)
      let costDowngraded ← metadata.get "cost_downgraded" (.bool false)
      let cost ← costUsd.decimal
      return {
        status := status
        metrics := some (JsonDict.ofMembers
          [("success", .bool (status.isStr "success")),
            ("failure_category", data.get "failure_category"),
            ("failure_mode", data.get "failure_mode"),
            ("difficulty", data.get "difficulty"),
            ("total_tokens", data.get "total_tokens" (.num 0)),
            ("execution_time_seconds", data.get "execution_time_seconds" (.num 0)),
            ("cost_usd", costUsd),
            ("cost_unknown", costUnknown),
            ("executed_strategy", executedStrategy),
            ("cost_downgraded", costDowngraded),
            ("formal_evaluable", data.get "formal_evaluable" (.bool false)),
            ("quality_metrics", data.get "quality_metrics"),
            ("iterations", .num (data.get "iterations").listLength)])
        errorMessage := data.get "error_message"
        cost := cost }
  | none =>
      return {
        status := .str "failed"
        metrics := none
        errorMessage := (unit.error.map Json.str).getD .null
        cost := 0 }

/-- `_problem_metadata`: the provenance of a problem without its contents. -/
def problemMetadata (snapshot : JsonDict) : Except String Json := do
  let problem := (snapshot.get "problem").orEmpty
  let some origin := snapshot.lookup "origin" | throw "'origin'"
  let tags ← problem.get "tags" (.arr [])
  let items ← tags.toItems
  let difficulty ← problem.get "difficulty"
  let source ← ["source_platform", "source_problem_id", "source_url", "source_version",
    "source_metadata"].mapM fun key => return (key, ← problem.get key)
  return .obj ([("schema_version", .num 1), ("origin", origin), ("tags", .arr items),
    ("difficulty", difficulty)] ++ source)

/-- A JSON null reads as `None`. -/
def notNull (value : Json) : Option Json :=
  match value with
  | .null => none
  | value => some value

/-- The provenance the unit brings: of its checkpoint, else of its result. -/
def unitSnapshot (unit : TaskUnit JsonDict) : Except String (Option Json) :=
  match unit.problemSnapshot.filter fun snapshot => snapshot.entries ≠ [] with
  | some checkpoint => return notNull (← problemMetadata checkpoint)
  | none => do
      let metadata := ((unit.result.getD ∅).get "metadata").orEmpty
      return notNull (← metadata.get "problem_snapshot")

/-- The snapshot that goes into the row: the recorded one, else the unit's. -/
def chosenSnapshot (previous : Option EvaluationResult) (unit : TaskUnit JsonDict) :
    Except String (Option Json) :=
  match notNull ((metricsDict previous).get "problem_snapshot") with
  | some snapshot => return some snapshot
  | none => unitSnapshot unit

/-- The metrics with the snapshot, which also names the difficulty. -/
def withSnapshot (metrics : Option JsonDict) (snapshot : Option Json) :
    Except String (Option JsonDict) :=
  match snapshot with
  | none => return metrics
  | some snapshot => do
      let difficulty ← snapshot.get "difficulty"
      return some (((metrics.getD ∅).insert "problem_snapshot" snapshot).insert
        "difficulty" difficulty)

section Redaction

variable (redact : JsonDict → JsonDict)

/-- `_record_unit_result`: the row for a finished unit, over the row its key
has, and the cost of the unit. -/
def recordUnitResult (previous : Option EvaluationResult) (unit : TaskUnit JsonDict) :
    Except String (EvaluationResult × ℚ) := do
  let values ← measured unit
  let snapshot ← chosenSnapshot previous unit
  let metrics ← withSnapshot values.metrics snapshot
  return (
    { problemId := unit.problemId
      strategyName := unit.strategy
      status := values.status
      metrics := metrics
      errorMessage := values.errorMessage
      executionPayload := (resultData unit).map redact },
    values.cost)

/-- The `cost_usd` a recorded row counts for. -/
def recordedCost (result : Option EvaluationResult) : Except String ℚ :=
  ((metricsDict result).get "cost_usd" (.num 0)).decimal

/-- `on_unit_finished` of a worker that was started for `generation`, with the
task row as its lock finds it.  An exception rolls the transaction back. -/
def onUnitFinished (task : AsyncTask) (generation : Generation) (record : TaskRecord JsonDict)
    (unit : TaskUnit JsonDict) (evaluation : Evaluation) : Except String Evaluation := do
  if task.celeryTaskId ≠ generation then return evaluation
  let previous := KeyedRows.fetch EvaluationResult.key (unitKey unit) evaluation.results
  let previousCost ← recordedCost previous
  let (result, cost) ← recordUnitResult redact previous unit
  return { evaluation with
    spentUsd := evaluation.spentUsd + cost - previousCost
    completedCount := record.units.countP (·.status = .completed)
    failedCount := record.units.countP (·.status = .failed)
    results := KeyedRows.put EvaluationResult.key result evaluation.results }

end Redaction

end AlgorithmHarness.EvaluationWorker
