import AlgorithmHarness.Core.Transition
import AlgorithmHarness.Core.WorkPool
import Mathlib.Data.List.DropRight

/-!
# A checkpointed experiment

`ExperimentRunner.run` executes every combination of a model, a strategy and a
repeat.  The result of a combination is written to the unit checkpoint as soon
as it is there; the list of combinations in `experiment.json` follows later, in
a file of its own.  The process may end between any two of these writes, and
the next one starts from the two files.
-/

namespace AlgorithmHarness.Experiment

open WorkPool

/-! ## The configuration -/

inductive Execution where
  | serial
  | parallel
  deriving DecidableEq

structure ExperimentConfig where
  models : List String
  strategies : List String
  repeats : ℕ
  execution : Execution
  maxWorkers : ℕ
  models_nonempty : models ≠ []
  strategies_nonempty : strategies ≠ []
  repeats_pos : 1 ≤ repeats
  maxWorkers_pos : 1 ≤ maxWorkers
  maxWorkers_le : maxWorkers ≤ 16

/-- A combination that is still to be executed, under its unit key. -/
structure ExperimentJob where
  key : String
  model : String
  strategy : String
  repeatNumber : ℕ
  deriving DecidableEq

namespace ExperimentConfig

def allJobs (config : ExperimentConfig) : List (String × String × ℕ) :=
  config.models.flatMap fun model =>
    config.strategies.flatMap fun strategy =>
      (List.range' 1 config.repeats).map fun repeatNumber => (model, strategy, repeatNumber)

/-- The unit key of a combination is its position. -/
def jobs (config : ExperimentConfig) : List ExperimentJob :=
  config.allJobs.zipIdx.map fun ((model, strategy, repeatNumber), index) =>
    { key := toString index, model, strategy, repeatNumber }

end ExperimentConfig

/-! ## One combination -/

def isSafe (c : Char) : Bool := c.isAlphanum || c = '.' || c = '_' || c = '-'

/-- A run of unsafe characters becomes one underscore. -/
def replaceUnsafe (afterUnsafe : Bool) : List Char → List Char
  | [] => []
  | c :: cs =>
      if isSafe c then c :: replaceUnsafe false cs
      else if afterUnsafe then replaceUnsafe true cs
      else '_' :: replaceUnsafe true cs

def safeDirname (value : String) : String :=
  match ((replaceUnsafe false value.toList).dropWhile (· = '_')).rdropWhile (· = '_') with
  | [] => "unnamed"
  | stripped => String.ofList stripped

/-- An entry of the combinations in `experiment.json`. -/
structure Combination where
  comboId : String
  model : String
  strategy : String
  repeatNumber : ℕ
  comboDir : String
  tokenBudgetUnsupported : Bool
  unitId : Option String := none
  deriving DecidableEq

def runCombo (job : ExperimentJob) (tokenBudgetUnsupported : Bool) : Combination :=
  let comboId :=
    safeDirname job.model ++ "__" ++ safeDirname job.strategy ++ "__r" ++ toString job.repeatNumber
  { comboId, model := job.model, strategy := job.strategy, repeatNumber := job.repeatNumber
    comboDir := comboId, tokenBudgetUnsupported }

/-- What `run_combo` puts into the checkpoint. -/
def unitCombo (job : ExperimentJob) (tokenBudgetUnsupported : Bool) : Combination :=
  let combo := runCombo job tokenBudgetUnsupported
  { combo with
    unitId := some job.key
    comboId := "unit-" ++ job.key ++ "__" ++ combo.comboId
    comboDir := "unit-" ++ job.key ++ "/" ++ combo.comboDir }

/-! ## The files and the process -/

structure Metadata where
  combinations : List Combination := []
  finishedAt : Option ℕ := none
  deriving DecidableEq

def Metadata.unitIds (metadata : Metadata) : List (Option String) :=
  metadata.combinations.map (·.unitId)

def Metadata.append (metadata : Metadata) (combos : List Combination) : Metadata :=
  { metadata with combinations := metadata.combinations ++ combos }

/-- A call of `run` that has not returned. -/
structure Runner where
  metadata : Metadata
  remaining : List ExperimentJob
  futures : List (Job ExperimentJob Combination) := []
  paused : Bool := false
  pooled : Bool
  workers : ℕ

structure State where
  units : String → Option Combination := fun _ => none
  experimentJson : Option Metadata := none
  runner : Option Runner := none

def initial : State := {}

/-- The combinations that `experiment.json` does not list. -/
def unlisted (config : ExperimentConfig) (metadata : Metadata) : List ExperimentJob :=
  config.jobs.filter fun job => some job.key ∉ metadata.unitIds

/-- The loop over `all_jobs`: a unit of the checkpoint that is not in the list
is appended to it, and what has no unit remains. -/
def opened (config : ExperimentConfig) (units : String → Option Combination)
    (metadata : Metadata) : Runner :=
  let remaining := (unlisted config metadata).filter fun job => (units job.key).isNone
  { metadata := metadata.append ((unlisted config metadata).filterMap fun job => units job.key)
    remaining
    pooled := config.execution = .parallel ∧ 1 < remaining.length
    workers := min config.maxWorkers remaining.length }

/-! ## Steps -/

inductive Label where
  /-- `run` is called in a new process. -/
  | start
  /-- The next combination is submitted; `pausing` is the answer of `should_pause`. -/
  | submit (pausing : Bool)
  /-- A worker enters `run_combo` for the first combination in the queue. -/
  | take (pausing : Bool)
  /-- The combination at a position is executed and its unit is saved. -/
  | finish (position : ℕ) (tokenBudgetUnsupported : Bool)
  /-- The combination at a position raises. -/
  | fail (position : ℕ)
  /-- The result of the first future is listed. -/
  | collect
  | leave (now : ℕ)
  | crash
  deriving DecidableEq

namespace Runner

def submit (runner : Runner) (pausing : Bool) : Option Runner :=
  match runner.remaining with
  | [] => none
  | job :: rest =>
      if !runner.pooled ∧ runner.futures ≠ [] then none
      else if pausing then some { runner with remaining := [], paused := true }
      else some { runner with remaining := rest, futures := runner.futures ++ [{ key := job }] }

/-- Without a pool the loop itself executes the combination. -/
def limit (runner : Runner) : ℕ := if runner.pooled then runner.workers else 1

/-- The combination a worker may turn to. -/
def next? (runner : Runner) : Option ExperimentJob :=
  if busy runner.futures < runner.limit then first? runner.futures else none

def take (runner : Runner) (pausing : Bool) : Option Runner :=
  runner.next?.map fun _ =>
    if pausing then
      { runner with futures := WorkPool.take (.done none) runner.futures, paused := true }
    else { runner with futures := WorkPool.take .executing runner.futures }

def settle (runner : Runner) (position : ℕ) (progress : Progress Combination) : Runner :=
  { runner with futures := WorkPool.settle position progress runner.futures }

def collect (runner : Runner) : Option Runner :=
  match runner.futures with
  | { progress := .done result, .. } :: rest =>
      if runner.pooled ∧ runner.remaining ≠ [] then none
      else some { runner with metadata := runner.metadata.append result.toList, futures := rest }
  | _ => none

/-- What the last `experiment.json` of the call says. -/
def leave (runner : Runner) (now : ℕ) : Option Metadata :=
  if runner.remaining = [] ∧ runner.futures = [] then
    some (if runner.paused then runner.metadata
      else { runner.metadata with finishedAt := some now })
  else none

end Runner

def State.setRunner (state : State) (runner : Runner) : State :=
  { state with runner := some runner }

def State.start (config : ExperimentConfig) (state : State) : State :=
  let metadata := state.experimentJson.getD {}
  { state with
    experimentJson := some metadata, runner := some (opened config state.units metadata) }

/-- `checkpoint.put` replaces the file of the unit in one piece. -/
def State.put (state : State) (job : ExperimentJob) (combo : Combination) : State :=
  { state with units := Function.update state.units job.key (some combo) }

def step (config : ExperimentConfig) (state : State) : Label → Option State
  | .start =>
      match state.runner with
      | none => some (state.start config)
      | some _ => none
  | .submit pausing =>
      state.runner.bind fun runner => (runner.submit pausing).map state.setRunner
  | .take pausing =>
      state.runner.bind fun runner => (runner.take pausing).map state.setRunner
  | .finish position tokenBudgetUnsupported =>
      state.runner.bind fun runner => (executing? position runner.futures).map fun job =>
        let combo := unitCombo job tokenBudgetUnsupported
        (state.put job combo).setRunner (runner.settle position (.done (some combo)))
  | .fail position =>
      state.runner.bind fun runner => (executing? position runner.futures).map fun _ =>
        if runner.pooled then state.setRunner (runner.settle position .failed)
        else { state with runner := none }
  | .collect =>
      state.runner.bind fun runner => runner.collect.map fun collected =>
        { state with experimentJson := some collected.metadata, runner := some collected }
  | .leave now =>
      state.runner.bind fun runner => (runner.leave now).map fun metadata =>
        { state with experimentJson := some metadata, runner := none }
  | .crash => state.runner.map fun _ => { state with runner := none }

/-- The combination whose execution a step begins. -/
def executes (state : State) : Label → Option ExperimentJob
  | .take false => state.runner.bind Runner.next?
  | _ => none

end AlgorithmHarness.Experiment
