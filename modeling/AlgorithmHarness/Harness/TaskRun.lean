import AlgorithmHarness.Harness.Problem
import AlgorithmHarness.Harness.SequentialRun
import AlgorithmHarness.TaskService.Move
import Mathlib.Data.List.Dedup
import Mathlib.Data.List.Sort

/-!
# Runs through the task service

`AlgorithmHarness._run_with_task_service` with its cost ledgers, which live in
the memory of one process.  Only the task file outlives the process.  The loop
of the service, the completion callback and the worker threads take turns in
any order that the threads allow.
-/

namespace AlgorithmHarness.Harness

open TaskService (TaskRecord TaskUnit RunOptions RunProcess Choice)

/-- `sorted(set(...))` -/
def sortedSet (names : List String) : List String :=
  names.dedup.insertionSort (· ≤ ·)

/-! ## `CostAwareSelector` -/

def strategyCostLadder : List String :=
  ["multi_round_feedback", "chain_of_thought", "vanilla"]

/-- The keys of `STRATEGY_MAP`. -/
def strategyNames : List String :=
  ["vanilla", "chain_of_thought", "multi_round_feedback", "self_consistency", "reflexion",
    "few_shot_learning", "tree_of_thoughts"]

structure CostAwareSelector where
  mapping : List (String × String)
  deriving DecidableEq

namespace CostAwareSelector

def build (mapping : List (String × String)) (allowedStrategies : List String) :
    Except String CostAwareSelector :=
  let difficulties := [Difficulty.easy, .medium, .hard].map Difficulty.word
  let invalid := sortedSet ((mapping.map Prod.fst).filter (· ∉ difficulties))
  let unknown := sortedSet ((mapping.map Prod.snd).filter (· ∉ allowedStrategies))
  if invalid ≠ [] then
    .error ("Unknown difficulty in difficulty-strategy mapping: " ++ ", ".intercalate invalid)
  else if unknown ≠ [] then
    .error ("Unknown strategy in difficulty-strategy mapping: " ++ ", ".intercalate unknown)
  else if mapping = [] then .error "difficulty-strategy mapping must not be empty"
  else .ok { mapping }

variable (selector : CostAwareSelector)

def select (difficulty : String) : Except String String :=
  match KeyedRows.fetch Prod.fst difficulty selector.mapping with
  | some entry => .ok entry.2
  | none =>
      .error s!"Difficulty '{difficulty}' is not covered by the difficulty-strategy mapping"

def validateCoverage (difficulties : List String) : Except String Unit :=
  let uncovered := sortedSet (difficulties.filter (· ∉ selector.mapping.map Prod.fst))
  if uncovered ≠ [] then
    .error ("Difficulties present in the dataset are not covered by the " ++
      "difficulty-strategy mapping: " ++ ", ".intercalate uncovered)
  else .ok ()

/-- The downgrade target. -/
def cheapestStrategy : String :=
  let present := selector.mapping.map Prod.snd
  match strategyCostLadder.reverse.find? (· ∈ present) with
  | some name => name
  | none => (sortedSet present).headD ""

end CostAwareSelector

/-! ## The ledgers -/

structure RunCostMonitor where
  budgetCapUsd : Option ℚ
  accumulatedCost : ℚ := 0
  unknownUsageResults : ℕ := 0
  deriving DecidableEq

namespace RunCostMonitor

variable (monitor : RunCostMonitor)

def addResult (account : Account) : RunCostMonitor :=
  let (knownCost, usageUnknown) := resultCost account
  { monitor with
    accumulatedCost := monitor.accumulatedCost + knownCost
    unknownUsageResults :=
      if usageUnknown then monitor.unknownUsageResults + 1 else monitor.unknownUsageResults }

def overCap : Bool :=
  match monitor.budgetCapUsd with
  | none => false
  | some cap => cap ≤ monitor.accumulatedCost

end RunCostMonitor

structure DifficultyBudgetMonitor where
  monitors : List (String × RunCostMonitor)
  deriving DecidableEq

namespace DifficultyBudgetMonitor

def ofAllocation (allocation : List (String × ℚ)) : DifficultyBudgetMonitor where
  monitors := allocation.map fun entry => (entry.1, { budgetCapUsd := some entry.2 })

variable (ledgers : DifficultyBudgetMonitor)

/-- `self.monitors.get(difficulty or "")` -/
def get (difficulty : Option String) : Option RunCostMonitor :=
  (KeyedRows.fetch Prod.fst (difficulty.getD "") ledgers.monitors).map Prod.snd

def addResult (account : Account) (difficulty : Option String) : DifficultyBudgetMonitor :=
  match ledgers.get difficulty with
  | none => ledgers
  | some monitor =>
      { monitors := KeyedRows.put Prod.fst (difficulty.getD "", monitor.addResult account)
          ledgers.monitors }

def overCapFor (difficulty : Option String) : Bool :=
  match ledgers.get difficulty with
  | none => false
  | some monitor => monitor.overCap

end DifficultyBudgetMonitor

/-! ## An evaluation and its plan -/

/-- The result of a unit, with the flag of the downgrade. -/
structure TaskResult extends ExecutionResult where
  costDowngraded : Bool
  deriving DecidableEq

/-- What `_run_with_task_service` is called for.  A resume with another
configuration or another dataset is refused, so these do not change. -/
structure TaskEvaluation where
  runId : String
  config : HarnessConfig String
  maxWorkers : ℕ
  problems : List Problem
  configFingerprint : String
  datasetFingerprint : String

structure TaskPlan where
  selector : Option CostAwareSelector
  action : Option BudgetAction
  deriving DecidableEq

namespace TaskEvaluation

variable (evaluation : TaskEvaluation)

def costAwareSelector : Except String (Option CostAwareSelector) :=
  let mapping := evaluation.config.difficultyStrategy.getD []
  if mapping = [] then .ok none
  else do
    let selector ← CostAwareSelector.build mapping strategyNames
    selector.validateCoverage (evaluation.problems.map (·.difficulty.word))
    let missing :=
      sortedSet ((mapping.map Prod.snd).filter (· ∉ evaluation.config.strategies))
    if missing ≠ [] then
      .error ("Strategies referenced by the difficulty-strategy mapping are " ++
        "not configured: " ++ ", ".intercalate missing ++ "; add them to the config strategies")
    else .ok (some selector)

def budgetAction (selector : Option CostAwareSelector) : Except String (Option BudgetAction) :=
  let config := evaluation.config
  match config.budgetCapUsd with
  | none =>
      if config.budgetAction.isSome || config.costAlerts then
        .error "Cost alerts and budget action require budget_cap_usd"
      else .ok none
  | some _ =>
      match config.budgetAction, selector with
      | some .autoStop, _ => .ok (some .autoStop)
      | some .downgrade, some _ | none, some _ => .ok (some .downgrade)
      | some .downgrade, none => .error "Budget downgrade requires a difficulty_strategy mapping"
      | none, none => .error "Budget cap requires auto_stop or a difficulty_strategy mapping"

def plan : Except String TaskPlan := do
  let selector ← evaluation.costAwareSelector
  let action ← evaluation.budgetAction selector
  if evaluation.config.budgetAllocation.getD [] = [] then .ok { selector, action }
  else if selector.isNone then
    .error "Budget allocation requires a difficulty_strategy mapping"
  else if action = some .autoStop then
    .error "Budget allocation only supports the downgrade action"
  else .ok { selector, action }

/-- The monitor exists whenever the selector runs. -/
def monitor (plan : TaskPlan) : Option RunCostMonitor :=
  if plan.selector.isSome || evaluation.config.budgetCapUsd.isSome then
    some { budgetCapUsd := evaluation.config.budgetCapUsd }
  else none

def allocationMonitor : Option DifficultyBudgetMonitor :=
  let allocation := evaluation.config.budgetAllocation.getD []
  if allocation = [] then none else some (.ofAllocation allocation)

def plannedUnit (strategy : String) (problem : Problem) : TaskUnit TaskResult where
  unitId := s!"{strategy}:{problem.problemId}:0"
  strategy := strategy
  problemId := problem.problemId

def plannedUnits (plan : TaskPlan) : Except String (List (TaskUnit TaskResult)) := do
  let units ← match plan.selector with
    | some selector =>
        evaluation.problems.mapM fun problem => do
          let strategy ← selector.select problem.difficulty.word
          pure (plannedUnit strategy problem)
    | none =>
        pure (evaluation.config.strategies.flatMap fun strategy =>
          evaluation.problems.map (plannedUnit strategy))
  if (units.map (·.unitId)).Nodup then .ok units
  else .error ("Duplicate strategy/problem task unit; " ++
    "use unique strategy names and problem IDs")

/-- `problem_map`, in which a later problem replaces one with the same id. -/
def problemMap (problemId : String) : Option Problem :=
  evaluation.problems.reverse.find? (·.problemId = problemId)

def difficultyOf (unit : TaskUnit TaskResult) : Option String :=
  (evaluation.problemMap unit.problemId).map (·.difficulty.word)

def options (plan : TaskPlan) (resume : Bool) : RunOptions where
  runId := evaluation.runId
  maxWorkers := if plan.action = some .autoStop then 1 else evaluation.maxWorkers
  configFingerprint := some evaluation.configFingerprint
  datasetFingerprint := some evaluation.datasetFingerprint
  resume := resume

end TaskEvaluation

/-! ## One process -/

/-- How far the worker of a unit has come. -/
inductive JobStage
  | submitted
  | judged (globalOver : Bool)
  | executing (strategy : String) (downgraded : Bool)
  | finished (outcome : TaskService.Outcome TaskResult)
  deriving DecidableEq

/-- A unit in the hands of the executor, as it was copied for the worker. -/
structure Job where
  unit : TaskUnit TaskResult
  stage : JobStage
  deriving DecidableEq

/-- A call of `settle_unit` that has not returned. -/
structure Settlement where
  unit : TaskUnit TaskResult
  result : TaskResult
  runSettled : Bool := false
  deriving DecidableEq

structure HarnessProcess where
  plan : TaskPlan
  resume : Bool
  monitor : Option RunCostMonitor
  allocation : Option DifficultyBudgetMonitor
  /-- The call of `service.run`, once it is under way. -/
  service : Option (RunProcess TaskResult) := none
  settling : Option Settlement := none
  jobs : ℕ → Option Job := fun _ => none

structure TaskRuns where
  store : Option (TaskRecord TaskResult) := none
  process : Option HarnessProcess := none

/-- What a worker does next. -/
inductive WorkerStep
  | readRun
  | readDifficulty
  | finish (account : Account)
  | fail (message : String)

inductive TaskRunStep
  | create
  | resume
  | setupFails (error : String)
  | begin
  | serve (done : List (ℕ × TaskService.Outcome TaskResult))
  | settle
  | work (unit : ℕ) (next : WorkerStep)
  /-- The end of the process, by a crash or because the run has returned. -/
  | exit

namespace HarnessProcess

variable (evaluation : TaskEvaluation) (process : HarnessProcess)

/-- A process that has checked its configuration. -/
def fresh (plan : TaskPlan) (resume : Bool) : HarnessProcess where
  plan := plan
  resume := resume
  monitor := evaluation.monitor plan
  allocation := evaluation.allocationMonitor

/-- `monitor.over_cap`, for a monitor that exists. -/
def overCap : Bool :=
  match process.monitor with
  | none => false
  | some monitor => monitor.overCap

def difficultyOver (difficulty : Option String) : Bool :=
  match process.allocation with
  | none => false
  | some ledgers => ledgers.overCapFor difficulty

def settleRun (result : TaskResult) : HarnessProcess :=
  { process with monitor := process.monitor.map (·.addResult result.account) }

def settleDifficulty (unit : TaskUnit TaskResult) (result : TaskResult) : HarnessProcess :=
  { process with
    allocation := process.allocation.map
      (·.addResult result.account (evaluation.difficultyOf unit)) }

/-- One turn of the loop that settles the record of an earlier process. -/
def resettle (unit : TaskUnit TaskResult) : HarnessProcess :=
  match process.monitor, unit.result with
  | some _, some result => (process.settleRun result).settleDifficulty evaluation unit result
  | _, _ => process

/-- What `on_unit_finished` is called for. -/
def settlement (record : TaskRecord TaskResult) (unit : ℕ) : Option Settlement :=
  if process.monitor.isNone then none
  else record.units[unit]?.bind fun unit => unit.result.map fun result => { unit, result }

/-- The service has taken a step from a phase. -/
def served (phase : TaskService.Phase TaskResult) (next : RunProcess TaskResult) :
    HarnessProcess :=
  match phase with
  | .mergeSave (.dispatched unit) =>
      { process with
        service := some next
        jobs := Function.update process.jobs unit
          (next.record.units[unit]?.map fun unit => { unit, stage := .submitted }) }
  | .mergeSave (.unitFinished unit _) =>
      { process with service := some next, settling := process.settlement next.record unit }
  | _ => { process with service := some next }

/-- The answers that `service.run` gets from its caller. -/
def choice (done : List (ℕ × TaskService.Outcome TaskResult)) : Choice TaskResult where
  pauseWhen := process.plan.action = some .autoStop && process.overCap
  done := done

/-- One step of the function `worker`.  An exception may come at any point. -/
def work (job : Job) : WorkerStep → Option JobStage
  | .readRun =>
      match job.stage, evaluation.problemMap job.unit.problemId with
      | .submitted, some _ =>
          if job.unit.strategy ∈ evaluation.config.strategies then
            some (.judged (process.plan.action = some .downgrade && process.overCap))
          else none
      | _, _ => none
  | .readDifficulty =>
      match job.stage with
      | .judged globalOver =>
          if globalOver || process.difficultyOver (evaluation.difficultyOf job.unit) then
            match process.plan.selector with
            | none =>
                some (.finished (.raised "selector is None but budget downgrade is enabled"))
            | some selector =>
                if selector.cheapestStrategy = job.unit.strategy then
                  some (.executing job.unit.strategy false)
                else if selector.cheapestStrategy ∈ evaluation.config.strategies then
                  some (.executing selector.cheapestStrategy true)
                else none
          else some (.executing job.unit.strategy false)
      | _ => none
  | .finish account =>
      match job.stage with
      | .executing strategy downgraded =>
          some (.finished (.returned
            { problemId := job.unit.problemId, strategy, account, costDowngraded := downgraded }))
      | _ => none
  | .fail message =>
      match job.stage with
      | .finished _ => none
      | _ => some (.finished (.raised message))

end HarnessProcess

/-! ## A run over several processes -/

namespace TaskRuns

variable (evaluation : TaskEvaluation)

/-- The branch of a new run, up to `service.run`. -/
def create (store : Option (TaskRecord TaskResult)) :
    Except String (TaskRecord TaskResult × HarnessProcess) := do
  let plan ← evaluation.plan
  let units ← evaluation.plannedUnits plan
  let record ← TaskRecord.create store evaluation.runId units evaluation.configFingerprint
    evaluation.datasetFingerprint
  pure (record, .fresh evaluation plan false)

/-- The branch of a resume, up to `service.run`. -/
def resume (store : Option (TaskRecord TaskResult)) : Except String HarnessProcess := do
  let plan ← evaluation.plan
  match store with
  | none => .error s!"Task '{evaluation.runId}' was not found"
  | some record =>
      pure (record.units.foldl (fun process unit => process.resettle evaluation unit)
        (.fresh evaluation plan true))

def step (runs : TaskRuns) : TaskRunStep → Option TaskRuns
  | .create =>
      match runs.process, create evaluation runs.store with
      | none, .ok (record, process) => some { store := some record, process := some process }
      | _, _ => none
  | .resume =>
      match runs.process, resume evaluation runs.store with
      | none, .ok process => some { runs with process := some process }
      | _, _ => none
  | .setupFails error =>
      match runs.process, runs.store with
      | some process, some record =>
          if process.service.isNone then some { store := some (record.fail error), process := none }
          else none
      | _, _ => none
  | .begin =>
      runs.process.bind fun process =>
        match process.service, RunProcess.begin (evaluation.options process.plan process.resume)
            false runs.store with
        | none, .ok service =>
            some { runs with process := some { process with service := some service } }
        | _, _ => none
  | .serve done =>
      runs.process.bind fun process =>
        match process.service, process.settling with
        | some service, none =>
            if ∀ entry ∈ done,
                (process.jobs entry.1).map (·.stage) = some (.finished entry.2) then
              (service.step (evaluation.options process.plan process.resume)
                (process.choice done) runs.store).map fun (next, written) =>
                  { store := written.or runs.store
                    process := some (process.served service.phase next) }
            else none
        | _, _ => none
  | .settle =>
      runs.process.bind fun process =>
        match process.settling with
        | none => none
        | some settlement =>
            let next : HarnessProcess :=
              if settlement.runSettled then
                { process.settleDifficulty evaluation settlement.unit settlement.result with
                  settling := none }
              else
                { process.settleRun settlement.result with
                  settling := some { settlement with runSettled := true } }
            some { runs with process := some next }
  | .work unit next =>
      runs.process.bind fun process =>
        (process.jobs unit).bind fun job =>
          (process.work evaluation job next).map fun stage =>
            { runs with
              process := some
                { process with
                  jobs := Function.update process.jobs unit (some { job with stage }) } }
  | .exit => some { runs with process := none }

end TaskRuns

end AlgorithmHarness.Harness
