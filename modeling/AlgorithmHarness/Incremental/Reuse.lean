import AlgorithmHarness.Core.Transition
import AlgorithmHarness.Incremental.Fingerprint
import AlgorithmHarness.Incremental.History
import AlgorithmHarness.TaskService.Record

/-!
# Incremental runs of the command line

A run looks for a record of its first strategy and its model, takes over the
saved results of the problems that have kept their fingerprint, evaluates the
others through the task service, saves the merged results and adds a record
with the fingerprint of the whole dataset.
-/

namespace AlgorithmHarness.Incremental

open Harness TaskService

/-! ## Configuration and problems -/

structure ProblemFilters where
  difficulty : Option Difficulty := none
  tags : List String := []
  limit : ℕ := 0
  problemIds : List String := []

namespace ProblemFilters

variable (filters : ProblemFilters)

/-- A filter that is empty is not applied. -/
def admits (problem : Problem) : Bool :=
  (filters.problemIds = [] || problem.problemId ∈ filters.problemIds) &&
    filters.difficulty.all (problem.difficulty = ·) &&
    (filters.tags = [] || filters.tags.any (· ∈ problem.tags))

def applyLimit (problems : List Problem) : List Problem :=
  if filters.limit = 0 then problems else problems.take filters.limit

end ProblemFilters

def filterProblems (problems : List Problem) (filters : ProblemFilters) : List Problem :=
  filters.applyLimit (problems.filter filters.admits)

/-- What incremental evaluation and the placeholders read of a `HarnessConfig`. -/
structure CliConfig where
  strategies : List String
  model : String
  difficultyStrategy : List (Difficulty × String)
  filters : ProblemFilters

namespace CliConfig

variable (config : CliConfig)

def strategyName : String := config.strategies.head?.getD "unknown"

/-- `CostAwareSelector.select`, of a difficulty that is covered. -/
def select (difficulty : Difficulty) : String :=
  ((KeyedRows.fetch Prod.fst difficulty config.difficultyStrategy).map Prod.snd).getD ""

/-- The key of `harness.results` that the result of a unit goes under. -/
def resultGroup (strategy : String) : String :=
  if config.difficultyStrategy = [] then strategy else "cost_aware"

def resultGroups : List String :=
  if config.difficultyStrategy = [] then config.strategies else ["cost_aware"]

end CliConfig

/-! ## Results -/

inductive ResultSource
  | fresh
  | reused
  deriving DecidableEq

/-- An `ExecutionResult`; `details` are the fields that a placeholder leaves at
their defaults, the failure mode among them. -/
structure EvaluationResult (Details : Type) where
  problemId : String
  strategy : String
  generatedCode : String
  status : String
  evaluationCompleted : Bool := true
  source : ResultSource := .fresh
  failureCategory : Option String := none
  difficulty : Option Difficulty := none
  errorMessage : Option String := none
  formalEvaluable : Bool := false
  details : Option Details := none
  deriving DecidableEq

/-- Results by strategy name, as in `harness.results` and in the files of a run. -/
abbrev ResultTable (Details : Type) := List (String × List (EvaluationResult Details))

variable {Details : Type}

/-! ## The task of a run -/

def taskUnit (strategy problemId : String) : TaskUnit (EvaluationResult Details) where
  unitId := strategy ++ ":" ++ problemId ++ ":0"
  strategy := strategy
  problemId := problemId

def createUnits (config : CliConfig) (problems : List Problem) :
    List (TaskUnit (EvaluationResult Details)) :=
  if config.difficultyStrategy = [] then
    config.strategies.flatMap fun strategy =>
      problems.map fun problem => taskUnit strategy problem.problemId
  else problems.map fun problem => taskUnit (config.select problem.difficulty) problem.problemId

/-- The checks of the loader, of `_cost_aware_selector` and of the unit ids. -/
def startable (config : CliConfig) (problems : List Problem) : Bool :=
  problems ≠ [] && config.strategies ≠ [] &&
    (config.difficultyStrategy = [] || problems.all fun problem =>
      problem.difficulty ∈ config.difficultyStrategy.map Prod.fst) &&
    (config.difficultyStrategy.all fun entry => entry.2 ∈ config.strategies) &&
    decide (((createUnits config problems : List (TaskUnit (EvaluationResult Unit))).map
      (·.unitId)).Nodup)

def unitNames (unit : TaskUnit (EvaluationResult Details)) : String × String × String :=
  (unit.unitId, unit.strategy, unit.problemId)

/-- A record that the task service may return: its units are those created, and
a result of a unit is one a strategy built for its problem. -/
def Fits (config : CliConfig) (problems : List Problem)
    (record : TaskRecord (EvaluationResult Details)) : Prop :=
  record.units.map unitNames =
      (createUnits config problems : List (TaskUnit (EvaluationResult Details))).map unitNames ∧
    ∀ unit ∈ record.units, ∀ result ∈ unit.result,
      result.problemId = unit.problemId ∧ result.evaluationCompleted = true ∧
        result.source = .fresh

instance (config : CliConfig) (problems : List Problem)
    (record : TaskRecord (EvaluationResult Details)) : Decidable (Fits config problems record) :=
  inferInstanceAs (Decidable (_ ∧ _))

/-! ## `harness.results` after the task -/

/-- The result written for a unit that has none. -/
def placeholder (record : TaskRecord (EvaluationResult Details))
    (unit : Option (TaskUnit (EvaluationResult Details))) (strategy : String)
    (formalEvaluable : Bool) (problem : Problem) : EvaluationResult Details :=
  let notRun := record.state = .paused && unit.any (·.status = .queued)
  { problemId := problem.problemId
    strategy
    generatedCode := ""
    evaluationCompleted := false
    status := if unit.any (·.status = .cancelled) || notRun then "cancelled" else "error"
    failureCategory := if notRun then none else some "system_error"
    difficulty := some problem.difficulty
    errorMessage := some <| ((unit.bind (·.error)).filter (· ≠ "")).getD <|
      if notRun then "Not run: budget cap reached" else "Task unit did not produce a result"
    formalEvaluable }

section Results

variable (classify : EvaluationResult Details → Problem → Option Details)

/-- `_annotate_failure_mode`; `classify` puts the mode among the details. -/
def annotateFailureMode (result : EvaluationResult Details) (problem : Problem) :
    EvaluationResult Details :=
  if result.evaluationCompleted then { result with details := classify result problem } else result

/-- The annotated result of a unit; `problem_map` has its problem. -/
def unitResult (problems : List Problem) (unit : TaskUnit (EvaluationResult Details)) :
    Option (EvaluationResult Details) :=
  unit.result.bind fun result =>
    (problemMap problems unit.problemId).map (annotateFailureMode classify result)

def strategyResult (problems : List Problem) (record : TaskRecord (EvaluationResult Details))
    (strategy : String) (problem : Problem) : EvaluationResult Details :=
  -- the dictionary of the results of the strategy; the last unit wins
  let produced := record.units.reverse.find? fun unit =>
    unit.strategy = strategy && unit.result.isSome && unit.problemId = problem.problemId
  let unit := record.units.find? fun unit =>
    unit.unitId = strategy ++ ":" ++ problem.problemId ++ ":0"
  (produced.bind (unitResult classify problems)).getD
    (placeholder record unit strategy false problem)

/-- One turn of `_collect_cost_aware_results`. -/
def costAwareResult (config : CliConfig) (problems : List Problem)
    (record : TaskRecord (EvaluationResult Details)) (problem : Problem) :
    EvaluationResult Details :=
  let unit := record.units.reverse.find? fun unit => unit.problemId = problem.problemId
  (unit.bind (unitResult classify problems)).getD
    (placeholder record unit (config.select problem.difficulty) problem.formalEvaluable problem)

def harnessResults (config : CliConfig) (problems : List Problem)
    (record : TaskRecord (EvaluationResult Details)) : ResultTable Details :=
  if config.difficultyStrategy = [] then
    config.strategies.map fun strategy =>
      (strategy, problems.map (strategyResult classify problems record strategy))
  else [("cost_aware", problems.map (costAwareResult classify config problems record))]

end Results

/-! ## Detection and merging -/

def findMatchingRun (history : IncrementalHistory) (strategy model : String) : Option RunRecord :=
  history.runs.reverse.find? fun record => record.strategy = strategy && record.model = model

def shouldUseIncremental {Digest : Type*} (changes : Changes)
    (current : List (String × Digest)) : Bool :=
  if changes.addedIds = [] ∧ changes.modifiedIds = [] ∧ changes.deletedIds = [] then false
  else changes.addedIds.length + changes.modifiedIds.length < current.length

def rowsOf (results : ResultTable Details) (strategy : String) : List (EvaluationResult Details) :=
  ((KeyedRows.fetch Prod.fst strategy results).map Prod.snd).getD []

/-- The rows of the files of a run directory that are for the given problems. -/
def loadHistoricalResults (files : ResultTable Details) (problemIds : List String) :
    ResultTable Details :=
  files.filterMap fun file =>
    let rows := (file.2.filter (·.problemId ∈ problemIds)).map ({ · with source := .reused })
    if file.1 = "" ∨ rows = [] then none else some (file.1, rows)

def mergeResults (new historical : ResultTable Details) : ResultTable Details :=
  new.map (fun entry =>
      (entry.1, entry.2 ++ (rowsOf historical entry.1).filter
        (·.problemId ∉ entry.2.map (·.problemId)))) ++
    historical.filter (·.1 ∉ new.map Prod.fst)

/-- The problems to evaluate and the results to take over. -/
structure Reuse (Details : Type) where
  changedIds : List String
  historicalResults : ResultTable Details

/-- The decision of the `run` command, for what is in the directories of the runs;
`none` is a full evaluation. -/
def decideReuse (history : IncrementalHistory)
    (directory : String → ResultTable Details) (config : CliConfig)
    (current : List (String × String)) : Option (Reuse Details) :=
  (findMatchingRun history config.strategyName config.model).bind fun run =>
    let changes := detectChanges current run.datasetFingerprint
    let changedIds := changes.addedIds ++ changes.modifiedIds
    let unchangedIds := (current.map Prod.fst).filter (· ∉ changedIds)
    let historical := loadHistoricalResults (directory run.resultPath) unchangedIds
    let complete := config.resultGroups.all fun group =>
      let ids := (rowsOf historical group).map (·.problemId)
      ids.length = unchangedIds.length && ids.all (· ∈ unchangedIds) && unchangedIds.all (· ∈ ids)
    if shouldUseIncremental changes current && changedIds ≠ [] && complete then
      some ⟨changedIds, historical⟩
    else none

/-! ## The workspace -/

/-- `config.output_dir`, as a path and by its last component. -/
structure OutputDir where
  path : String
  name : String

def OutputDir.resultPath (output : OutputDir) (runName : String) : String :=
  output.path ++ "/" ++ runName

/-- `Path(name).suffix` as a truth value. -/
def hasSuffix (name : String) : Bool :=
  match name.toList.reverse.span (· ≠ '.') with
  | (extension, _ :: stem) => extension ≠ [] && stem ≠ []
  | (_, []) => false

/-- `update_incremental_history`, up to the saving. -/
def runRecord (output : OutputDir) (config : CliConfig) (runName timestamp : String)
    (current : List (String × String)) (results : ResultTable Details) : RunRecord where
  runId :=
    let name := if hasSuffix runName then output.name else runName
    if name = "" then "unknown" else name
  timestamp := timestamp
  strategy := config.strategyName
  model := config.model
  datasetFingerprint := current
  resultPath := output.resultPath runName
  problemCount := (rowsOf results config.strategyName).length
  successCount := (rowsOf results config.strategyName).countP (·.status = "success")

/-- An evaluation that has given a result. -/
structure CompletedEvaluation (Details : Type) where
  model : String
  group : String
  problem : Problem
  result : EvaluationResult Details

/-- The units of a record that have a result, with what was evaluated. -/
def completedEvaluations (config : CliConfig) (problems : List Problem)
    (record : TaskRecord (EvaluationResult Details)) : List (CompletedEvaluation Details) :=
  record.units.filterMap fun unit =>
    unit.result.bind fun result =>
      (problemMap problems unit.problemId).map fun problem =>
        ⟨config.model, config.resultGroup unit.strategy, problem, result⟩

/-- What the fingerprints in a task record are taken of: a run is resumed only
with the same configuration and the same dataset. -/
structure Task where
  config : CliConfig
  dataset : List Problem
  evaluated : List Problem

structure Workspace (Details : Type) where
  history : IncrementalHistory := ⟨[]⟩
  directory : String → ResultTable Details := fun _ => []
  task : String → Option Task := fun _ => none
  /-- The evaluations of all runs so far. -/
  evaluations : List (CompletedEvaluation Details) := []

/-- How far a run comes after its task. -/
inductive Ending
  | interrupted
  | saved
  | recorded
  deriving DecidableEq

inductive CliRun (Details : Type)
  | evaluate (runName timestamp : String) (config : CliConfig) (dataset : List Problem)
      (record : TaskRecord (EvaluationResult Details)) (ending : Ending)
  | resume (runName : String) (record : TaskRecord (EvaluationResult Details)) (ending : Ending)

namespace CliRun

def record : CliRun Details → TaskRecord (EvaluationResult Details)
  | .evaluate _ _ _ _ record _ => record
  | .resume _ record _ => record

def ending : CliRun Details → Ending
  | .evaluate _ _ _ _ _ ending => ending
  | .resume _ _ ending => ending

end CliRun

/-- `save_results`, the file of each strategy. -/
def saveResults (files results : ResultTable Details) : ResultTable Details :=
  results.foldl (fun files entry => KeyedRows.put Prod.fst entry files) files

namespace Workspace

variable (output : OutputDir) (print : Problem → String)
  (classify : EvaluationResult Details → Problem → Option Details)

/-- `current_fingerprint` -/
def currentFingerprint (config : CliConfig) (dataset : List Problem) : List (String × String) :=
  computeDatasetFingerprint print (filterProblems dataset config.filters)

variable (workspace : Workspace Details)

def reuse (config : CliConfig) (dataset : List Problem) : Option (Reuse Details) :=
  decideReuse workspace.history workspace.directory config (currentFingerprint print config dataset)

/-- The problems that the harness loads. -/
def evaluated (config : CliConfig) (dataset : List Problem) : List Problem :=
  match workspace.reuse print config dataset with
  | some reuse => filterProblems dataset { config.filters with problemIds := reuse.changedIds }
  | none => filterProblems dataset config.filters

/-- `harness.results` when a run saves. -/
def results (config : CliConfig) (dataset : List Problem)
    (record : TaskRecord (EvaluationResult Details)) : ResultTable Details :=
  let new := harnessResults classify config (workspace.evaluated print config dataset) record
  match workspace.reuse print config dataset with
  | some reuse => mergeResults new reuse.historicalResults
  | none => new

def save (runName : String) (results : ResultTable Details) : Workspace Details :=
  { workspace with
    directory := Function.update workspace.directory (output.resultPath runName)
      (saveResults (workspace.directory (output.resultPath runName)) results) }

def step : CliRun Details → Option (Workspace Details)
  | .evaluate runName timestamp config dataset record ending =>
      let problems := workspace.evaluated print config dataset
      let results := workspace.results print classify config dataset record
      if workspace.task runName = none ∧ startable config problems ∧
          Fits config problems record then
        let ended : Workspace Details :=
          { workspace with
            task := Function.update workspace.task runName (some ⟨config, dataset, problems⟩)
            evaluations := workspace.evaluations ++ completedEvaluations config problems record }
        match ending with
        | .interrupted => some ended
        | .saved => some (ended.save output runName results)
        | .recorded =>
            let record := runRecord output config runName timestamp
              (currentFingerprint print config dataset) results
            some { ended.save output runName results with
              history := ended.history.addRun record }
      else none
  | .resume runName record ending =>
      (workspace.task runName).bind fun task =>
        if Fits task.config task.evaluated record then
          let ended : Workspace Details :=
            { workspace with
              evaluations := workspace.evaluations ++
                completedEvaluations task.config task.evaluated record }
          -- the history is left as it is
          match ending with
          | .interrupted => some ended
          | _ => some (ended.save output runName
              (harnessResults classify task.config task.evaluated record))
        else none

end Workspace

end AlgorithmHarness.Incremental
