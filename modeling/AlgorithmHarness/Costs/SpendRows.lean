import AlgorithmHarness.Core.Grouping
import AlgorithmHarness.Core.IsoFormat
import Mathlib.Data.Rat.Init
import Mathlib.Order.Basic

/-!
# The spend rows of a user

`CostService` reads five tables into one list of spend rows, the single
accounting scope of its queries, and keeps the rows of a period.  Costs are
exact decimals.
-/

namespace AlgorithmHarness.Costs

open AlgorithmHarness.Calendar

/-- `_JOB_SOURCES`. -/
inductive Source where
  | evaluations
  | experiments
  | benchmarks
  | abTests
  deriving DecidableEq, Repr

/-- The columns of `evaluations` the cost service reads. -/
structure Evaluation where
  id : String
  userId : String
  spentUsd : ℚ
  model : Option String
  strategyNames : List String
  problemIds : List String
  completedCount : ℕ
  createdAt : DateTime

/-- The columns of `benchmark_runs`. -/
structure BenchmarkRun where
  id : String
  userId : String
  status : String
  model : String
  costUsd : Option ℚ
  createdAt : DateTime
  completedAt : Option DateTime

/-- The columns of `spend_records`. -/
structure SpendRecord where
  userId : String
  source : Source
  taskId : String
  occurredAt : DateTime
  model : String
  strategy : String
  problemId : Option String
  difficulty : Option String
  costUsd : Option ℚ
  unknownReason : Option String

/-- The columns of `experiments` and of `ab_tests`. -/
structure Job where
  id : String
  userId : String
  status : String
  costTrackingComplete : Bool
  createdAt : DateTime
  startedAt : Option DateTime

structure Tables where
  evaluations : List Evaluation
  benchmarkRuns : List BenchmarkRun
  spendRecords : List SpendRecord
  experiments : List Job
  abTests : List Job

/-- One row of `_collect_spend_rows`; a key the source leaves out reads as `None`. -/
structure SpendRow where
  timestamp : DateTime
  costUsd : Option ℚ
  source : Source
  taskId : String
  model : String
  strategies : List String
  problemIds : List String
  difficulty : Option String := none
  completed : ℕ
  unknownReason : Option String := none

/-- `row["cost_usd"] or 0.0`. -/
def SpendRow.cost (row : SpendRow) : ℚ := row.costUsd.getD 0

/-- `text or other`. -/
def orElse (text : Option String) (other : String) : String :=
  (text.filter fun text => text ≠ "").getD other

def evaluationRow (row : Evaluation) : SpendRow :=
  { timestamp := row.createdAt
    costUsd := some row.spentUsd
    source := .evaluations
    taskId := row.id
    model := orElse row.model "evaluation-run"
    strategies := row.strategyNames
    problemIds := row.problemIds
    completed := row.completedCount }

def benchmarkRow (run : BenchmarkRun) : SpendRow :=
  { timestamp := run.completedAt.getD run.createdAt
    costUsd := run.costUsd
    source := .benchmarks
    taskId := run.id
    model := run.model
    strategies := []
    problemIds := []
    completed := 0
    unknownReason := if run.costUsd = none then some "missing_cost" else none }

def recordRow (record : SpendRecord) : SpendRow :=
  { timestamp := record.occurredAt
    costUsd := record.costUsd
    source := record.source
    taskId := record.taskId
    model := record.model
    strategies := [record.strategy]
    problemIds := (record.problemId.filter fun problemId => problemId ≠ "").toList
    difficulty := record.difficulty
    completed := 0
    unknownReason := record.unknownReason }

def legacyRow (source : Source) (job : Job) : SpendRow :=
  { timestamp := job.startedAt.getD job.createdAt
    costUsd := none
    source := source
    taskId := job.id
    model := "unknown"
    strategies := []
    problemIds := []
    completed := 0
    unknownReason := some "historical_gap" }

/-- The jobs whose cost was not tracked from their start. -/
def legacyJobs (ownerId : String) (jobs : List Job) : List Job :=
  jobs.filter fun job =>
    job.userId = ownerId ∧ job.costTrackingComplete = false ∧
      ¬(job.status = "pending" ∧ job.startedAt = none)

/-- The rows before the period is applied. -/
def ownedRows (tables : Tables) (ownerId : String) : List SpendRow :=
  ((tables.evaluations.filter fun row => row.userId = ownerId ∧ row.spentUsd ≠ 0).map
      evaluationRow) ++
    ((tables.benchmarkRuns.filter fun run => run.userId = ownerId ∧ run.status = "completed").map
      benchmarkRow) ++
    ((tables.spendRecords.filter fun record =>
        record.userId = ownerId ∧ (record.source = .experiments ∨ record.source = .abTests)).map
      recordRow) ++
    (legacyJobs ownerId tables.experiments).map (legacyRow .experiments) ++
    (legacyJobs ownerId tables.abTests).map (legacyRow .abTests)

/-- Whether a timestamp passes the filters of both bounds. -/
def within (start finish : Option DateTime) (moment : DateTime) : Bool :=
  start.all (fun start => start ≤ moment) && finish.all fun finish => moment ≤ finish

/-- `_collect_spend_rows`. -/
def collectSpendRows (tables : Tables) (ownerId : String) (start finish : Option DateTime) :
    List SpendRow :=
  (ownedRows tables ownerId).filter fun row => within start finish row.timestamp

/-! ## Periods -/

inductive PeriodError where
  | invalidDate
  | invalidTimestamp (raw : String)
  | dateOverflow
  | sinceAfterUntil
  deriving DecidableEq, Repr

/-- `re.fullmatch(r"\d{4}-\d{2}-\d{2}", raw)`.  A date in the digits of another
script is refused on either path. -/
def isDateOnly (raw : List Char) : Bool :=
  match raw with
  | [a, b, c, d, '-', e, f, '-', g, h] =>
      [a, b, c, d, e, f, g, h].all fun letter => (digitValue letter).isSome
  | _ => false

/-- The local `parse` of `_period`; `edge` is the time a date-only bound gets. -/
def parse (edge : Time) (raw : String) : Except PeriodError DateTime :=
  if isDateOnly raw.toList then
    match Date.fromisoformat raw.toList with
    | some day => .ok { date := day, time := edge }
    | none => .error .invalidDate
  else
    match DateTime.fromisoformat raw.toList with
    | none => .error (.invalidTimestamp raw)
    | some (parsed, none) => .ok parsed
    | some (parsed, some offset) =>
        match parsed.toUtc offset with
        | some utc => .ok utc
        | none => .error .dateOverflow

/-- `parse(raw)` of an optional bound. -/
def parseBound (edge : Time) : Option String → Except PeriodError (Option DateTime)
  | none => .ok none
  | some raw => (parse edge raw).map some

/-- `_period`. -/
def period (since until' : Option String) :
    Except PeriodError (Option DateTime × Option DateTime) := do
  let start ← parseBound Time.first since
  let finish ← parseBound Time.last until'
  if start.any fun start => finish.any fun finish => finish < start then
    throw .sinceAfterUntil
  return (start, finish)

/-- The text of a date-only bound. -/
def dateText (date : Date) : String := String.ofList date.isoformat

end AlgorithmHarness.Costs
