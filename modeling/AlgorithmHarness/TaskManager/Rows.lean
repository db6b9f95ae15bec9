import AlgorithmHarness.Core.Json

/-!
# Task rows and the business records they mirror

The columns of `async_tasks` and of the paired business tables that
`task_manager.py` reads or writes.  A `uuid4` is a number no earlier call
returned.  The bookkeeping columns `created_at` and `updated_at` are never read
by the modelled code and are left out, as are artifact publications,
notifications and execution logs, which no lifecycle decision reads.
-/

namespace AlgorithmHarness.TaskManager

/-- A `celery_task_id`: one generation of queue messages for a task. -/
abbrev Generation := ℕ

/-- `datetime.utcnow()`. -/
abbrev Instant := ℕ

/-- The keys of `_RESUME_WORKERS`. -/
inductive TaskType where
  | evaluation
  | experiment
  | benchmark
  | importJob
  | abTest
  deriving DecidableEq, Repr

/-- `task_type in _BUSINESS_TYPES`. -/
def TaskType.business : TaskType → Bool
  | .experiment | .benchmark | .importJob | .abTest => true
  | .evaluation => false

inductive Status where
  | pending
  | running
  | paused
  | completed
  | failed
  | cancelled
  deriving DecidableEq, Repr

/-- `status in ("completed", "failed", "cancelled")`. -/
def Status.terminal : Status → Bool
  | .completed | .failed | .cancelled => true
  | .pending | .running | .paused => false

structure AsyncTask where
  id : ℕ
  celeryTaskId : Generation
  taskType : TaskType
  userId : String
  status : Status := .pending
  progress : Option JsonDict := none
  errorMessage : Option String := none
  startedAt : Option Instant := none
  completedAt : Option Instant := none

/-- `task.progress or {}`. -/
def AsyncTask.progressDict (task : AsyncTask) : JsonDict := task.progress.getD ∅

/-- `(task.progress or {}).get("stop_confirmed")` as a condition. -/
def AsyncTask.stopConfirmed (task : AsyncTask) : Bool := task.progressDict.flag "stop_confirmed"

/-- The row of `evaluations`, `experiments`, `benchmark_runs` or `ab_tests` the
task belongs to.  Only an evaluation is linked back to its task. -/
structure BusinessRow where
  userId : String
  status : Status
  errorMessage : Option String := none
  startedAt : Option Instant := none
  completedAt : Option Instant := none
  asyncTaskId : Option ℕ := none
  deriving DecidableEq, Repr

/-- The row of `api_file_jobs` in the file store. -/
structure ImportJob where
  userId : String
  status : Status
  deriving DecidableEq, Repr

/-- The record with the task's `entity_id`, in whichever store keeps it. -/
structure Business where
  row : Option BusinessRow := none
  job : Option ImportJob := none
  deriving DecidableEq, Repr

/-- A task row with its business record. -/
structure Records where
  task : AsyncTask
  business : Business

/-- The `TaskManager` object: the generation it is bound to, if any. -/
structure Manager where
  celeryTaskId : Option Generation := none
  deriving DecidableEq, Repr

/-- What the world supplies to one transaction: the clock, and what another
connection to the file store makes of the import job between the transaction's
read of it and its guarded update. -/
structure Moment where
  now : Instant
  jobWrite : Option Status := none
  deriving DecidableEq, Repr

/-! ## The file store -/

/-- `FileStore.job`; `none` is its 404. -/
def fileStoreJob (job : Option ImportJob) (userId : String) : Option ImportJob :=
  job.filter fun job => job.userId = userId

/-- `FileStore.sync_task_status`: the stored job and the status read back. -/
def syncTaskStatus (job : Option ImportJob) (userId : String) (status : Status)
    (expectedStatus : Option Status) : Option ImportJob × Option Status :=
  let updated := job.map fun job =>
    if job.userId = userId ∧ job.status.terminal = false ∧
        (expectedStatus = none ∨ expectedStatus = some job.status) then
      { job with status := status }
    else job
  (updated, (fileStoreJob updated userId).map (·.status))

end AlgorithmHarness.TaskManager
