import AlgorithmHarness.TaskManager.Rows

/-!
# The operations of the task manager

Each operation is one transaction on a task row and its business record, from
the row lock of `_lock_business_task` to the commit.  A raised `ValueError`
leaves the rows as they were and carries the message.  The lookup of the row by
its identifier is the caller's; `get_task` commits its celery-state sync before
the operation that called it takes the lock, so the sync is an operation of its
own.
-/

namespace AlgorithmHarness.TaskManager

/-- `_record_execution_times`: the first execution start and the end of the
latest execution. -/
def recordExecutionTimes (now : Instant) (task : AsyncTask) (status : Status) : AsyncTask :=
  if status = .running then
    { task with startedAt := some (task.startedAt.getD now), completedAt := none }
  else if status.terminal ∧ task.completedAt = none then { task with completedAt := some now }
  else task

/-- The columns `_sync_business` copies onto a business row. -/
def mirror (task : AsyncTask) (row : BusinessRow) : BusinessRow :=
  { row with
    status := task.status
    errorMessage := task.errorMessage
    startedAt := task.startedAt
    completedAt := task.completedAt }

/-- The business rows `_sync_business` may write: the owner's, and for an
evaluation only while it is linked to this task. -/
def mirrors (task : AsyncTask) (row : BusinessRow) : Bool :=
  row.userId = task.userId && (task.taskType ≠ .evaluation || row.asyncTaskId = some task.id)

/-- `_sync_business`.  The import job lives in another store: a job that is
already terminal stays so and its status overrides the task's. -/
def syncBusiness (moment : Moment) (records : Records) : Records :=
  if records.task.taskType = .importJob then
    match fileStoreJob records.business.job records.task.userId with
    | none => records
    | some previous =>
        let meanwhile := records.business.job.map fun job =>
          { job with status := moment.jobWrite.getD job.status }
        let (job, actual) := syncTaskStatus meanwhile records.task.userId records.task.status
          (some previous.status)
        let business := { records.business with job := job }
        match actual.filter Status.terminal with
        | some status =>
            { task := recordExecutionTimes moment.now { records.task with status := status } status
              business := business }
        | none => { records with business := business }
  else
    { records with
      business :=
        { records.business with
          row := records.business.row.map fun row =>
            if mirrors records.task row then mirror records.task row else row } }

/-- `_experiment_transition_blocked`. -/
def transitionBlocked (manager : Manager) (task : AsyncTask) (status : Status) : Bool :=
  if !task.taskType.business && manager.celeryTaskId = none then false
  else if manager.celeryTaskId ≠ none && some task.celeryTaskId ≠ manager.celeryTaskId then true
  else task.status.terminal || (task.status = .paused && status ≠ .cancelled)

def updateTaskProgress (moment : Moment) (manager : Manager) (progress : JsonDict)
    (status : Status) (records : Records) : Records :=
  if transitionBlocked manager records.task status then records
  else
    let task := recordExecutionTimes moment.now
      { records.task with progress := some (records.task.progressDict.merge progress) } status
    let updated := { records with task := { task with status := status } }
    if task.taskType.business then syncBusiness moment updated else updated

def updateTaskStatus (moment : Moment) (manager : Manager) (status : Status)
    (errorMessage : Option String) (records : Records) : Records :=
  if transitionBlocked manager records.task status then records
  else
    let task :=
      { records.task with
        status := status
        errorMessage := errorMessage.or records.task.errorMessage }
    syncBusiness moment { records with task := recordExecutionTimes moment.now task status }

/-- What `claim_task` leaves behind: the rows, the manager it was called on and
its return value. -/
structure Claim where
  records : Records
  manager : Manager
  claimed : Bool

def claimTask (moment : Moment) (manager : Manager) (celeryTaskId : Option Generation)
    (executionAttempt : String) (records : Records) : Claim :=
  if records.task.status ≠ .pending ∨
      (celeryTaskId ≠ none ∧ some records.task.celeryTaskId ≠ celeryTaskId) then
    { records := records, manager := manager, claimed := false }
  else
    let progress := (records.task.progressDict.insert "execution_attempt"
      (.str executionAttempt)).insert "stop_confirmed" (.bool false)
    let task := recordExecutionTimes moment.now
      { records.task with progress := some progress, status := .running } .running
    let synced := syncBusiness moment { records with task := task }
    { records := synced
      manager := { celeryTaskId := some records.task.celeryTaskId }
      claimed := synced.task.status = .running }

def confirmStopped (manager : Manager) (records : Records) : Records :=
  if records.task.status = .paused ∧ some records.task.celeryTaskId = manager.celeryTaskId then
    { records with
      task :=
        { records.task with
          progress := some (records.task.progressDict.insert "stop_confirmed" (.bool true)) } }
  else records

/-- The status `_reject_finished_business` looks at; an evaluation has none. -/
def businessStatus (records : Records) : Option Status :=
  match records.task.taskType with
  | .importJob => (fileStoreJob records.business.job records.task.userId).map (·.status)
  | .evaluation => none
  | .experiment | .benchmark | .abTest =>
      (records.business.row.filter fun row => row.userId = records.task.userId).map (·.status)

/-- `_reject_finished_business`. -/
def rejectFinishedBusiness (records : Records) (operation : String) : Except String Unit :=
  if (businessStatus records).any Status.terminal then
    .error s!"Cannot {operation} completed, failed or cancelled business records"
  else .ok ()

/-- The task row `pause_task` writes. -/
def pausedTask (task : AsyncTask) : AsyncTask :=
  if task.taskType.business then
    { task with
      status := .paused
      progress := some (task.progressDict.insert "stop_confirmed" (.bool false)) }
  else { task with status := .paused }

/-- `pause_task` after its `get_task`. -/
def pauseTask (moment : Moment) (userId : String) (records : Records) :
    Except String Records := do
  if records.task.userId ≠ userId then throw "Task not found or access denied"
  if records.task.status ≠ .running then throw "Can only pause running tasks"
  rejectFinishedBusiness records "pause"
  return syncBusiness moment { records with task := pausedTask records.task }

/-- The task row `cancel_task` writes. -/
def cancelledTask (now : Instant) (task : AsyncTask) : AsyncTask :=
  { task with status := .cancelled, completedAt := some (task.completedAt.getD now) }

/-- `cancel_task` after its `get_task`.  The revocation of the queue message
and the request to the evaluation's checkpoint are outside these rows. -/
def cancelTask (moment : Moment) (userId : String) (records : Records) :
    Except String Records := do
  if records.task.userId ≠ userId then throw "Task not found or access denied"
  if records.task.status = .completed ∨ records.task.status = .failed then
    throw "Cannot cancel completed or failed tasks"
  if records.task.status = .cancelled then return records
  rejectFinishedBusiness records "cancel"
  return syncBusiness moment { records with task := cancelledTask moment.now records.task }

/-- The answers `resume_task` needs from outside the rows: whether another
evaluation of the user may be admitted, and whether the execution lock of the
evaluation is free. -/
structure Admission where
  capacity : Bool := true
  executionFree : Bool := true
  deriving DecidableEq, Repr

/-- The checks of `_resume_task` on the business record. -/
def checkResumable (userId : String) (records : Records) : Except String Unit :=
  match records.task.taskType with
  | .importJob =>
      match fileStoreJob records.business.job userId with
      | none => .error "Import job is not linked to this task"
      | some job =>
          if job.status = .paused then .ok () else .error "Import job is not paused"
  | .evaluation =>
      match records.business.row with
      | none => .error "Evaluation is not linked to this task"
      | some row =>
          if row.userId ≠ userId ∨ row.asyncTaskId ≠ some records.task.id then
            .error "Evaluation is not linked to this task"
          else if row.status = .paused then .ok ()
          else .error "Business record is not paused"
  | .experiment | .benchmark | .abTest =>
      match records.business.row with
      | none => .error "Business record is not linked to this task"
      | some row =>
          if row.userId ≠ userId then .error "Business record is not linked to this task"
          else if row.status = .paused then .ok ()
          else .error "Business record is not paused"

/-- The task row `_resume_task` writes. -/
def resumedTask (celeryTaskId : Generation) (task : AsyncTask) : AsyncTask :=
  { task with
    celeryTaskId := celeryTaskId
    status := .pending
    errorMessage := none
    completedAt := none }

/-- `resume_task` after its `get_task`, up to the commit that reserves the
continuation under the new `celeryTaskId`. -/
def resumeTask (moment : Moment) (admission : Admission) (celeryTaskId : Generation)
    (userId : String) (records : Records) : Except String Records := do
  if records.task.userId ≠ userId then throw "Task not found or access denied"
  if records.task.taskType = .evaluation then
    unless admission.capacity do throw "User evaluation concurrency limit reached"
    unless admission.executionFree do throw "Worker has not stopped; retry after it stops"
  if records.task.status ≠ .paused then
    throw "Can only resume paused tasks owned by the user"
  checkResumable userId records
  if records.task.taskType.business ∧ records.task.stopConfirmed = false then
    throw "Worker has not confirmed stopping; retry after it stops"
  return syncBusiness moment { records with task := resumedTask celeryTaskId records.task }

/-- The values of the UPDATE for a message that could not be published. -/
def unpublishedTask (now : Instant) (task : AsyncTask) : AsyncTask :=
  { task with
    status := .failed
    errorMessage := some "failed to publish task to broker"
    completedAt := some now }

/-- The guarded UPDATE with which `enqueue_task` and `_resume_task` record that
the message could not be published.  A never-started evaluation remains a
retryable draft, so `enqueue_task` does not mirror its failure. -/
def publishFailed (moment : Moment) (mirrored : Bool) (records : Records) : Records :=
  if records.task.status = .pending then
    let failed := { records with task := unpublishedTask moment.now records.task }
    if mirrored then syncBusiness moment failed else failed
  else records

/-- The failure branch of `enqueue_task`. -/
def enqueueFailed (moment : Moment) (records : Records) : Records :=
  publishFailed moment (records.task.taskType ≠ .evaluation) records

/-- The failure branch of `_resume_task`, for the generation it reserved. -/
def resumePublishFailed (moment : Moment) (celeryTaskId : Generation) (records : Records) :
    Records :=
  if records.task.celeryTaskId = celeryTaskId then publishFailed moment true records else records

inductive CeleryState where
  | pending
  | started
  | progress
  | success
  | failure
  | revoked
  | retry
  deriving DecidableEq, Repr

/-- A `celery_result`: its state, and its `info` as `str`, as a condition and as
a dictionary if it is one. -/
structure CeleryResult where
  state : CeleryState
  info : String
  infoTruthy : Bool
  infoDict : Option JsonDict

/-- `_sync_celery_state` from the row lock on; `generation` is the one whose
result was read before. -/
def syncCeleryState (moment : Moment) (manager : Manager) (generation : Generation)
    (result : CeleryResult) (records : Records) : Records :=
  let task := records.task
  if task.celeryTaskId ≠ generation ∨ (task.status ≠ .pending ∧ task.status ≠ .running) then
    records
  else if task.taskType.business then
    match result.state with
    | .failure => updateTaskStatus moment manager .failed (some result.info) records
    | .revoked => updateTaskStatus moment manager .cancelled none records
    | _ => records
  else
    match result.state with
    | .started =>
        { records with
          task :=
            { task with
              status := .running
              startedAt := some (task.startedAt.getD moment.now) } }
    | .progress =>
        { records with
          task :=
            { task with
              status := .running
              progress := (result.infoDict.filter fun _ => result.infoTruthy).or task.progress } }
    | .failure =>
        { records with
          task :=
            { task with
              status := .failed
              errorMessage := some (if result.infoTruthy then result.info else "Task failed")
              completedAt := some (task.completedAt.getD moment.now) } }
    | _ => records

/-! ## Writes of the same rows outside the manager -/

/-- The budget pause of `BenchmarkService._execute`: it knows the run, not the
generation. -/
def budgetPause (records : Records) : Records :=
  if records.task.taskType = .benchmark then
    { task :=
        if records.task.status = .running then { records.task with status := .paused }
        else records.task
      business :=
        { records.business with
          row := records.business.row.map fun row =>
            if row.status = .running then { row with status := .paused } else row } }
  else records

/-- `record_ab_test_failure`: a failure signal for the generation `taskId`, with
the execution attempt if a worker was lost. -/
def recordAbTestFailure (moment : Moment) (taskId : Generation) (exception : String)
    (lostAttempt : Option String) (records : Records) : Records :=
  let task := records.task
  let holdsClaim : Bool :=
    match lostAttempt, task.progressDict.lookup "execution_attempt" with
    | some attempt, some (.str recorded) => attempt ≠ "" && attempt = recorded
    | _, _ => false
  if task.taskType = .abTest ∧ task.celeryTaskId = taskId ∧
      (task.status = .pending ∨ (task.status = .running ∧ holdsClaim)) then
    syncBusiness moment
      { records with
        task :=
          { task with
            status := .failed
            completedAt := some moment.now
            errorMessage := some exception } }
  else records

end AlgorithmHarness.TaskManager
