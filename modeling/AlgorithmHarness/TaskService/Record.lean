import Mathlib.Data.List.Basic
import Mathlib.Data.Nat.Notation

/-!
# Persisted task records

The data model of `task_service.py`: units, events and the durable record, with
the operations the service applies to a record it has loaded.  JSON payloads
are opaque here, so `Json` is a parameter.  Wall-clock fields are left out: the
service writes them and never reads them.
-/

namespace AlgorithmHarness.TaskService

inductive TaskState where
  | queued
  | running
  | paused
  | completed
  | failed
  | cancelled
  deriving DecidableEq, Repr

/-- `state in {"completed", "failed", "cancelled"}`. -/
def TaskState.terminal : TaskState → Bool
  | .completed | .failed | .cancelled => true
  | .queued | .running | .paused => false

/-- `status in {"completed", "failed"}`, the statuses `completed_units` counts. -/
def TaskState.finished : TaskState → Bool
  | .completed | .failed => true
  | .queued | .running | .paused | .cancelled => false

/-- One strategy/problem/repetition unit in a task. -/
structure TaskUnit (Json : Type) where
  unitId : String
  strategy : String
  problemId : String
  repeatIndex : ℕ := 0
  status : TaskState := .queued
  uncertain : Bool := false
  result : Option Json := none
  problemSnapshot : Option Json := none
  error : Option String := none
  deriving DecidableEq, Repr

inductive EventKind where
  | taskCreated
  | taskStarted
  | taskPaused
  | taskCancelled
  | taskFinished
  | taskFailed
  | cancelRequested
  | unitStarted
  | unitCompleted
  | unitFailed
  | unitCancelled
  deriving DecidableEq, Repr

structure TaskEvent where
  sequence : ℕ
  runId : String
  kind : EventKind
  state : TaskState
  unitId : Option String
  strategy : Option String
  problemId : Option String
  completedUnits : ℕ
  totalUnits : ℕ
  message : Option String
  uncertain : Bool
  deriving DecidableEq, Repr

/-- Durable task state and its event history.  A unit is addressed by its
position in `units`, which stands for the identity of the Python object. -/
structure TaskRecord (Json : Type) where
  runId : String
  state : TaskState := .queued
  configFingerprint : String
  datasetFingerprint : String
  totalUnits : ℕ
  completedUnits : ℕ := 0
  cancelRequested : Bool := false
  error : Option String := none
  units : List (TaskUnit Json) := []
  events : List TaskEvent := []
  deriving DecidableEq, Repr

variable {Json : Type}

/-- Number of units whose status is completed or failed. -/
def finishedUnits (units : List (TaskUnit Json)) : ℕ :=
  units.countP fun unit => unit.status.finished

namespace TaskRecord

/-- `_append_event`: the sequence number comes from the writer's own copy. -/
def appendEvent (record : TaskRecord Json) (kind : EventKind)
    (unit : Option (TaskUnit Json)) (message : Option String) : TaskRecord Json :=
  { record with
    events := record.events ++
      [{ sequence := record.events.length + 1
         runId := record.runId
         kind := kind
         state := record.state
         unitId := unit.map (·.unitId)
         strategy := unit.map (·.strategy)
         problemId := unit.map (·.problemId)
         completedUnits := record.completedUnits
         totalUnits := record.totalUnits
         message := message
         uncertain := (unit.map (·.uncertain)).getD false }] }

/-- Assignments to the attributes of one unit object. -/
def setUnit (record : TaskRecord Json) (position : ℕ)
    (assign : TaskUnit Json → TaskUnit Json) : TaskRecord Json :=
  { record with units := record.units.modify position assign }

/-- `TaskService.create` for a given identifier, with what the store holds
under it. -/
def create (stored : Option (TaskRecord Json)) (runId : String)
    (units : List (TaskUnit Json)) (configFingerprint datasetFingerprint : String) :
    Except String (TaskRecord Json) :=
  match stored with
  | some _ => .error s!"Task '{runId}' already exists"
  | none =>
      .ok (appendEvent
        { runId := runId
          configFingerprint := configFingerprint
          datasetFingerprint := datasetFingerprint
          totalUnits := units.length
          completedUnits := 0
          units := units }
        .taskCreated none (some "Task queued"))

/-- The record `fail` saves in place of the one it loaded. -/
def fail (record : TaskRecord Json) (error : String) : TaskRecord Json :=
  appendEvent { record with state := .failed, error := some error }
    .taskFailed none (some error)

/-- The record `request_cancel` saves in place of the one it loaded; `none`
when the loaded record is terminal and nothing is saved. -/
def requestCancel (record : TaskRecord Json) : Option (TaskRecord Json) :=
  if record.state.terminal then none
  else
    some (appendEvent { record with cancelRequested := true }
      .cancelRequested none (some "Cancellation requested"))

/-- `_validate_resume_fingerprints`; an absent or empty argument is not
compared. -/
def validateResumeFingerprints (record : TaskRecord Json)
    (configFingerprint datasetFingerprint : Option String) : Except String Unit :=
  let differs (given : Option String) (recorded : String) : Bool :=
    match given with
    | none => false
    | some value => value ≠ "" && value ≠ recorded
  if differs configFingerprint record.configFingerprint then
    .error "Task configuration fingerprint does not match; refusing resume"
  else if differs datasetFingerprint record.datasetFingerprint then
    .error "Dataset fingerprint does not match; refusing resume"
  else .ok ()

/-- The units `_prepare_resume` puts back into the queue. -/
def requeued (unit : TaskUnit Json) : Bool :=
  unit.uncertain || unit.status = .running || unit.status = .cancelled

def requeueUnit (unit : TaskUnit Json) : TaskUnit Json :=
  if requeued unit then
    { unit with status := .queued, uncertain := false, result := none, error := none }
  else unit

/-- `_prepare_resume`: requeue only unfinished or uncertain units. -/
def prepareResume (record : TaskRecord Json) : TaskRecord Json :=
  { record with
    units := record.units.map requeueUnit
    cancelRequested := false
    completedUnits := finishedUnits (record.units.map requeueUnit) }

/-- `_mark_cancelled` on the unit at `position`. -/
def markCancelled (uncertain : Bool) (message : String) (record : TaskRecord Json)
    (position : ℕ) : TaskRecord Json :=
  let marked := record.setUnit position fun unit =>
    { unit with status := .cancelled, uncertain := uncertain }
  marked.appendEvent .unitCancelled marked.units[position]? (some message)

/-- The event merge of the dispatch loop and of `_save_with_external_events`:
a longer persisted history replaces the writer's own. -/
def adoptEvents (record persisted : TaskRecord Json) : TaskRecord Json :=
  if record.events.length < persisted.events.length then
    { record with events := persisted.events }
  else record

/-- What `_save_with_external_events` does with the record it has re-read,
before it saves. -/
def mergeExternal (persisted : Option (TaskRecord Json)) (record : TaskRecord Json) :
    TaskRecord Json :=
  match persisted with
  | none => record
  | some persisted =>
      let merged := record.adoptEvents persisted
      { merged with cancelRequested := merged.cancelRequested || persisted.cancelRequested }

end TaskRecord

end AlgorithmHarness.TaskService
