import AlgorithmHarness.Core.Transition
import AlgorithmHarness.Core.WorkPool
import Mathlib.Logic.Function.Basic

/-!
# An A/B test run

`ABTestRunner.run` turns to one variant after the other and executes the
problems assigned to it.  A problem with a saved row is not executed; before
any other `should_stop` is asked, and a problem that it stops has no row in
this call.  It is asked once more before the report is written.
-/

namespace AlgorithmHarness.ABTest

open WorkPool

/-! ## The configuration -/

/-- Variants and problems by their identifiers, and the variant of each problem. -/
structure ABTestConfig where
  promptVariants : List String
  problems : List String
  assignment : String → String
  maxWorkers : ℕ
  checkpointed : Bool
  length_promptVariants : promptVariants.length = 2
  promptVariants_nodup : promptVariants.Nodup
  assignment_mem : ∀ problem ∈ problems, assignment problem ∈ promptVariants
  maxWorkers_pos : 1 ≤ maxWorkers
  maxWorkers_le : maxWorkers ≤ 20

/-- A variant and a problem: what the checkpoint keeps a row for. -/
abbrev Key := String × String

namespace ABTestConfig

def key (config : ABTestConfig) (problem : String) : Key := (config.assignment problem, problem)

def problemsOf (config : ABTestConfig) (variant : String) : List String :=
  config.problems.filter fun problem => config.assignment problem = variant

/-- The problem identifiers are unique and each variant has a problem. -/
def Checked (config : ABTestConfig) : Prop :=
  config.problems.Nodup ∧
    ∀ variant ∈ config.promptVariants, ∃ problem ∈ config.problems,
      config.assignment problem = variant

instance (config : ABTestConfig) : Decidable config.Checked :=
  inferInstanceAs (Decidable (_ ∧ _))

end ABTestConfig

/-- A result row; `result` is what is read off the problem and its execution. -/
structure Row (Result : Type*) where
  variant : String
  problemId : String
  result : Result
  deriving DecidableEq

/-! ## The files and the process -/

variable {Result : Type*}

/-- A call of `run` that has not returned. -/
structure Runner (Result : Type*) where
  variants : List String
  futures : List (Job Key (Row Result)) := []
  pooled : Bool := false
  workers : ℕ := 1
  rows : List (Key × Row Result) := []
  paused : Bool := false

/-- How a call of `run` returned. -/
structure Outcome where
  reported : Bool
  paused : Bool
  deriving DecidableEq

structure State (Result : Type*) where
  units : Key → Option (Row Result) := fun _ => none
  report : Option (List (Row Result)) := none
  runner : Option (Runner Result) := none
  outcome : Option Outcome := none

def initial : State Result := {}

inductive Label (Result : Type*) where
  /-- `run` is called on a new runner. -/
  | start
  | nextVariant
  /-- The row of the next problem is in the checkpoint. -/
  | reuse
  /-- The next problem has no row; `stopping` is the answer of `should_stop`. -/
  | ask (stopping : Bool)
  /-- The problem at a position is executed and its row is saved. -/
  | finish (position : ℕ) (result : Result)
  /-- The problem at a position raises. -/
  | fail (position : ℕ)
  /-- The rows of the variant are collected. -/
  | collect
  /-- `should_stop` is asked before the report. -/
  | conclude (stopping : Bool)
  | crash
  deriving DecidableEq

namespace Runner

def nextVariant (config : ABTestConfig) (runner : Runner Result) : Option (Runner Result) :=
  match runner.variants with
  | [] => none
  | variant :: rest =>
      if runner.futures ≠ [] then none
      else
        let problems := config.problemsOf variant
        some { runner with
          variants := rest
          futures := problems.map fun problem => { key := (variant, problem) }
          pooled := !(config.maxWorkers = 1 ∨ problems.length < 2)
          workers := min config.maxWorkers problems.length }

/-- Without a pool the comprehension itself executes the problem. -/
def limit (runner : Runner Result) : ℕ := if runner.pooled then runner.workers else 1

/-- The problem a worker may turn to. -/
def next? (runner : Runner Result) : Option Key :=
  if busy runner.futures < runner.limit then first? runner.futures else none

def take (runner : Runner Result) (progress : Progress (Row Result)) : Runner Result :=
  { runner with futures := WorkPool.take progress runner.futures }

def ask (runner : Runner Result) (stopping : Bool) : Runner Result :=
  if stopping then { runner.take (.done none) with paused := true } else runner.take .executing

def settle (runner : Runner Result) (position : ℕ) (progress : Progress (Row Result)) :
    Runner Result :=
  { runner with futures := WorkPool.settle position progress runner.futures }

end Runner

/-- Whether a future has returned. -/
def isDone (future : Job Key (Row Result)) : Bool :=
  match future.progress with
  | .done _ => true
  | _ => false

/-- The row a future returned, with the problem it is for. -/
def resultRow (future : Job Key (Row Result)) : Option (Key × Row Result) :=
  match future.progress with
  | .done (some row) => some (future.key, row)
  | _ => none

def Runner.collect (runner : Runner Result) : Option (Runner Result) :=
  if runner.futures ≠ [] ∧ runner.futures.all isDone then
    some { runner with
      rows := runner.rows ++ runner.futures.filterMap resultRow, futures := [] }
  else none

namespace State

/-- `_checkpoint.get`, where there is a checkpoint. -/
def saved (config : ABTestConfig) (state : State Result) (key : Key) : Option (Row Result) :=
  if config.checkpointed then state.units key else none

/-- `_checkpoint.put`, where there is a checkpoint. -/
def put (config : ABTestConfig) (state : State Result) (key : Key) (row : Row Result) :
    State Result :=
  if config.checkpointed then
    { state with units := Function.update state.units key (some row) }
  else state

def setRunner (state : State Result) (runner : Runner Result) : State Result :=
  { state with runner := some runner }

/-- The end of `run`: the last answer of `should_stop` decides. -/
def conclude (state : State Result) (runner : Runner Result) (stopping : Bool) : State Result :=
  if stopping then
    { state with runner := none, outcome := some { reported := false, paused := true } }
  else
    { state with
      report := some (runner.rows.map Prod.snd)
      runner := none
      outcome := some { reported := true, paused := runner.paused } }

end State

/-! ## Steps -/

def step (config : ABTestConfig) (redact : Row Result → Row Result) (state : State Result) :
    Label Result → Option (State Result)
  | .start =>
      if state.runner.isNone ∧ config.Checked then
        some (state.setRunner { variants := config.promptVariants })
      else none
  | .nextVariant =>
      state.runner.bind fun runner => (runner.nextVariant config).map state.setRunner
  | .reuse =>
      state.runner.bind fun runner => runner.next?.bind fun key => (state.saved config key).map
        fun row => state.setRunner (runner.take (.done (some row)))
  | .ask stopping =>
      state.runner.bind fun runner => runner.next?.bind fun key =>
        if (state.saved config key).isNone then some (state.setRunner (runner.ask stopping))
        else none
  | .finish position result =>
      state.runner.bind fun runner => (executing? position runner.futures).map fun key =>
        let row := { variant := key.1, problemId := key.2, result }
        (state.put config key (redact row)).setRunner (runner.settle position (.done (some row)))
  | .fail position =>
      state.runner.bind fun runner => (executing? position runner.futures).map fun _ =>
        if runner.pooled then state.setRunner (runner.settle position .failed)
        else { state with runner := none }
  | .collect => state.runner.bind fun runner => runner.collect.map state.setRunner
  | .conclude stopping =>
      state.runner.bind fun runner =>
        if runner.variants = [] ∧ runner.futures = [] then some (state.conclude runner stopping)
        else none
  | .crash => state.runner.map fun _ => { state with runner := none }

/-- The status `_execute` asks `_finish` for after `run`. -/
def Outcome.status (outcome : Outcome) : String :=
  if outcome.paused then "paused" else "completed"

end AlgorithmHarness.ABTest
