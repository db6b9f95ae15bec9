import AlgorithmHarness.Harness.Cost
import AlgorithmHarness.Core.Transition

/-!
# Runs with a checkpoint

`AlgorithmHarness.run` with a checkpoint directory: the units are run one after
another, and a run may pause, crash and be started again.  The pure reads of a
strategy configuration and of a problem are in a `Catalog`.
-/

namespace AlgorithmHarness.Harness

inductive BudgetAction
  | autoStop
  | downgrade
  deriving DecidableEq

structure HarnessConfig (Strategy : Type*) where
  strategies : List Strategy
  budgetCapUsd : Option ℚ
  budgetAction : Option BudgetAction
  /-- Whether `cost_alerts` is set. -/
  costAlerts : Bool
  budgetAllocation : Option (List (String × ℚ))
  difficultyStrategy : Option (List (String × String))
  deriving DecidableEq

structure ExecutionResult where
  problemId : String
  strategy : String
  account : Account
  deriving DecidableEq

/-- `stamp` is `config_fingerprint`, the hash of the redacted configuration, and
taken for injective on what is left of it; the name is left of it. -/
structure Catalog (Strategy Problem Stamp : Type*) where
  name : Strategy → String
  stamp : Strategy → Stamp
  problemId : Problem → String
  stamp_name : ∀ first second, stamp first = stamp second → name first = name second

variable {Strategy Problem Stamp : Type*} [DecidableEq Stamp] [DecidableEq Problem]

/-- `{config_fingerprint(strategy_config)}:{problem.problem_id}`. -/
abbrev UnitKey (Stamp : Type*) := Stamp × String

/-- What the fingerprint of the manifest is the hash of. -/
structure Snapshot (Problem Stamp : Type*) where
  config : HarnessConfig Stamp
  problems : List Problem
  deriving DecidableEq

/-- The checkpoint directory. -/
structure UnitCheckpoint (Problem Stamp : Type*) where
  manifest : Option (Snapshot Problem Stamp) := none
  saved : List (UnitKey Stamp × ExecutionResult) := []

/-- How far a process has come in the loops of `run` and `_run_strategy`. -/
inductive Phase (Strategy Problem : Type*)
  | choosing (rest : List Strategy)
  | looping (strategy : Strategy) (rest : List Strategy) (results : List ExecutionResult)
      (pending : List Problem)
  | executing (strategy : Strategy) (rest : List Strategy) (results : List ExecutionResult)
      (problem : Problem) (pending : List Problem)
  | settling (strategy : Strategy) (rest : List Strategy) (results : List ExecutionResult)
      (result : ExecutionResult) (pending : List Problem)
  | finished

structure Process (Strategy Problem : Type*) where
  config : HarnessConfig Strategy
  problems : List Problem
  accumulatedCost : ℚ := 0
  paused : Bool := false
  results : List (String × List ExecutionResult) := []
  phase : Phase Strategy Problem

structure Runs (Strategy Problem Stamp : Type*) where
  checkpoint : UnitCheckpoint Problem Stamp := {}
  process : Option (Process Strategy Problem) := none

inductive RunStep (Strategy Problem : Type*)
  | start (config : HarnessConfig Strategy) (problems : List Problem)
  | next
  | poll (shouldPause : Bool)
  | finish (account : Account)
  | crash

def UnitCheckpoint.get (checkpoint : UnitCheckpoint Problem Stamp) (key : UnitKey Stamp) :
    Option ExecutionResult :=
  (KeyedRows.fetch Prod.fst key checkpoint.saved).map Prod.snd

def UnitCheckpoint.put (checkpoint : UnitCheckpoint Problem Stamp) (key : UnitKey Stamp)
    (result : ExecutionResult) : UnitCheckpoint Problem Stamp :=
  { checkpoint with saved := KeyedRows.put Prod.fst (key, result) checkpoint.saved }

/-- The constructor of `UnitCheckpoint`; `none` if the inputs changed. -/
def UnitCheckpoint.enter (checkpoint : UnitCheckpoint Problem Stamp)
    (snapshot : Snapshot Problem Stamp) : Option (UnitCheckpoint Problem Stamp) :=
  match checkpoint.manifest with
  | some manifest => if manifest = snapshot then some checkpoint else none
  | none => some { checkpoint with manifest := some snapshot }

/-- The checks of `run` before it loads the problems. -/
def HarnessConfig.runnable (config : HarnessConfig Strategy) : Bool :=
  !config.strategies.isEmpty &&
    (!(config.budgetCapUsd.isSome || config.costAlerts || config.budgetAction.isSome) ||
      config.budgetAction = some .autoStop && config.budgetCapUsd.isSome && !config.costAlerts &&
        config.budgetAllocation.isNone) &&
    (config.difficultyStrategy.getD []).isEmpty

namespace Process

variable (process : Process Strategy Problem)

def overCap : Bool :=
  match process.config.budgetCapUsd with
  | none => false
  | some cap => cap ≤ process.accumulatedCost

def settleRunBudget (result : ExecutionResult) : Process Strategy Problem :=
  if process.config.budgetCapUsd.isNone then process
  else
    { process with
      accumulatedCost := process.accumulatedCost + (resultCost result.account).1 }

/-- The end of `_run_strategy` and of the turn of the loop in `run`. -/
def closeStrategy (name : String) (results : List ExecutionResult) (rest : List Strategy) :
    Process Strategy Problem :=
  let closed := { process with results := KeyedRows.put Prod.fst (name, results) process.results }
  if closed.paused then { closed with phase := .finished }
  else if closed.overCap && !rest.isEmpty then { closed with paused := true, phase := .finished }
  else { closed with phase := .choosing rest }

end Process

namespace Runs

variable (catalog : Catalog Strategy Problem Stamp)

def snapshot (config : HarnessConfig Strategy) (problems : List Problem) :
    Snapshot Problem Stamp where
  config :=
    { strategies := config.strategies.map catalog.stamp
      budgetCapUsd := config.budgetCapUsd
      budgetAction := config.budgetAction
      costAlerts := config.costAlerts
      budgetAllocation := config.budgetAllocation
      difficultyStrategy := config.difficultyStrategy }
  problems := problems

def unitKey (strategy : Strategy) (problem : Problem) : UnitKey Stamp :=
  (catalog.stamp strategy, catalog.problemId problem)

def step (runs : Runs Strategy Problem Stamp) :
    RunStep Strategy Problem → Option (Runs Strategy Problem Stamp)
  | .start config problems =>
      match runs.process with
      | some _ => none
      | none =>
          -- an empty dataset is an error of the loader
          if config.runnable && !problems.isEmpty then
            (runs.checkpoint.enter (snapshot catalog config problems)).map fun checkpoint =>
              { checkpoint,
                process := some { config, problems, phase := .choosing config.strategies } }
          else none
  | .next =>
      runs.process.bind fun process =>
        match process.phase with
        | .choosing [] => some { runs with process := some { process with phase := .finished } }
        | .choosing (strategy :: rest) =>
            let phase := if process.paused then .finished
              else .looping strategy rest [] process.problems
            some { runs with process := some { process with phase } }
        | .looping strategy rest results [] =>
            some { runs with
              process := some (process.closeStrategy (catalog.name strategy) results rest) }
        | .looping strategy rest results (problem :: pending) =>
            (runs.checkpoint.get (unitKey catalog strategy problem)).map fun replayed =>
              { runs with
                process := some
                  { process.settleRunBudget replayed with
                    phase := .looping strategy rest (results ++ [replayed]) pending } }
        | .settling strategy rest results result pending =>
            some { runs with
              process := some
                { process.settleRunBudget result with
                  phase := .looping strategy rest (results ++ [result]) pending } }
        | _ => none
  | .poll shouldPause =>
      runs.process.bind fun process =>
        match process.phase with
        | .looping strategy rest results (problem :: pending) =>
            if (runs.checkpoint.get (unitKey catalog strategy problem)).isSome then none
            else if process.paused || process.overCap || shouldPause then
              some { runs with
                process := some ({ process with paused := true }.closeStrategy
                  (catalog.name strategy) results rest) }
            else
              some { runs with
                process := some
                  { process with phase := .executing strategy rest results problem pending } }
        | _ => none
  | .finish account =>
      runs.process.bind fun process =>
        match process.phase with
        | .executing strategy rest results problem pending =>
            let result : ExecutionResult :=
              { problemId := catalog.problemId problem, strategy := catalog.name strategy, account }
            some {
              checkpoint := runs.checkpoint.put (unitKey catalog strategy problem) result
              process := some
                { process with phase := .settling strategy rest results result pending } }
        | _ => none
  | .crash => some { runs with process := none }

end Runs

end AlgorithmHarness.Harness
