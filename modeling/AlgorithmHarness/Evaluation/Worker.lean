import AlgorithmHarness.Evaluation.Ledger
import AlgorithmHarness.TaskManager.Terminal

/-!
# The transactions of the evaluation worker

`_run_owned_evaluation` between its reads and commits, one function for each
transaction on the task row and the evaluation it belongs to.  What the worker
does between them (resolving credentials, building the harness, running units,
publishing artifacts) touches neither row.
-/

namespace AlgorithmHarness.EvaluationWorker

open TaskManager
open TaskService (TaskState)

/-- A task row with the evaluation it was created for. -/
structure Rows where
  task : AsyncTask
  evaluation : Evaluation

namespace Rows

/-- The pair as the task manager sees it. -/
def records (rows : Rows) : Records :=
  { task := rows.task, business := { row := some rows.evaluation.row } }

/-- The pair after the task manager has committed `records`. -/
def commit (rows : Rows) (records : Records) : Rows :=
  { task := records.task
    evaluation :=
      { rows.evaluation with row := records.business.row.getD rows.evaluation.row } }

/-- `update_task_status` by a manager bound to `generation`. -/
def report (rows : Rows) (moment : Moment) (generation : Generation) (status : Status)
    (errorMessage : Option String) : Rows :=
  rows.commit
    (updateTaskStatus moment { celeryTaskId := some generation } status errorMessage rows.records)

/-- `evaluation.status = status`. -/
def setStatus (rows : Rows) (status : Status) : Rows :=
  { rows with
    evaluation := { rows.evaluation with row := { rows.evaluation.row with status := status } } }

end Rows

/-- What a delivery makes of the task row it reads first. -/
inductive Admission where
  | leave
  | cancelled
  | proceed
  deriving DecidableEq, Repr

/-- The checks on the loaded task; `requestId` is `self.request.id`. -/
def admission (requestId : Generation) (task : AsyncTask) : Admission :=
  if requestId ≠ task.celeryTaskId ∨ task.status = .completed ∨ task.status = .failed ∨
      task.status = .paused then .leave
  else if task.status = .cancelled then .cancelled
  else .proceed

/-- Step 3: the evaluation starts running; `none` when the worker leaves. -/
def start (moment : Moment) (generation : Generation) (rows : Rows) : Option Rows :=
  if rows.task.celeryTaskId ≠ generation ∨ rows.task.status.terminal ∨
      rows.task.status = .paused then none
  else
    some ((rows.setStatus .running).report moment generation .running none)

/-- `report_progress`, from its locked check to the commit. -/
def reportProgress (generation : Generation) (progress : JsonDict) (task : AsyncTask) :
    AsyncTask :=
  if task.celeryTaskId ≠ generation ∨ task.status ≠ .running then task
  else { task with progress := some (task.progressDict.merge progress) }

/-- The assignments to the evaluation that a second commit makes after
`update_task_status` has committed. -/
structure Settlement where
  status : Status
  errorMessage : Option String := none
  deriving DecidableEq, Repr

/-- Step 8 up to the commit of the task row.  The settlement is what is left to
commit, if the worker does not return. -/
def finish (moment : Moment) (generation : Generation) (state : TaskState)
    (error : Option String) (rows : Rows) : Rows × Option Settlement :=
  if rows.task.celeryTaskId ≠ generation ∨ rows.task.status = .completed ∨
      rows.task.status = .failed ∨ rows.task.status = .paused then
    (if rows.task.celeryTaskId = generation then rows.setStatus rows.task.status else rows, none)
  else if rows.task.status = .cancelled then (rows.setStatus .cancelled, none)
  else
    let report (status : Status) (errorMessage : Option String) : Rows × Option Settlement :=
      (rows.report moment generation status errorMessage,
        some { status := status, errorMessage := errorMessage })
    match state with
    | .completed => report .completed none
    | .paused => report .paused none
    | .failed => report .failed error
    | .cancelled => report .cancelled none
    | .queued | .running => (rows, none)

/-- The exception handlers, up to the commit of the task row. -/
def fail (moment : Moment) (generation : Generation) (message : String) (rows : Rows) :
    Rows × Option Settlement :=
  if rows.task.celeryTaskId ≠ generation ∨ rows.task.status = .paused ∨
      rows.task.status.terminal then (rows, none)
  else
    (rows.report moment generation .failed (some message),
      some { status := .failed, errorMessage := some message })

/-- The second commit. -/
def settle (now : Instant) (settlement : Settlement) (evaluation : Evaluation) : Evaluation :=
  let row := { evaluation.row with status := settlement.status }
  match settlement.status with
  | .completed =>
      { evaluation with row := { row with completedAt := some (row.completedAt.getD now) } }
  | .failed => { evaluation with row := { row with errorMessage := settlement.errorMessage } }
  | _ => { evaluation with row := row }

/-! ## What a write of the pair changes -/

/-- The task row is the row of an evaluation task. -/
theorem syncBusiness_evaluation (moment : Moment) {task : AsyncTask} (row : BusinessRow)
    (htype : task.taskType = .evaluation) :
    syncBusiness moment { task := task, business := { row := some row } } =
      { task := task
        business := { row := some (if mirrors task row then mirror task row else row) } } := by
  simp [syncBusiness, htype]

/-- What the second commit leaves as it was. -/
theorem settle_row (now : Instant) (settlement : Settlement) (evaluation : Evaluation) :
    (settle now settlement evaluation).row.status = settlement.status ∧
      (settle now settlement evaluation).row.asyncTaskId = evaluation.row.asyncTaskId ∧
      (settle now settlement evaluation).row.userId = evaluation.row.userId := by
  unfold settle
  dsimp only
  split <;> exact ⟨rfl, rfl, rfl⟩

/-- A write by the task manager: the task keeps its identity and generation,
the evaluation its link and its results, and the evaluation's status moves only
with the task's. -/
structure Managed (before after : Rows) : Prop where
  id : after.task.id = before.task.id
  userId : after.task.userId = before.task.userId
  celeryTaskId : after.task.celeryTaskId = before.task.celeryTaskId
  settled : Settled before.task after.task
  evaluation : after.evaluation = { before.evaluation with row := after.evaluation.row }
  asyncTaskId : after.evaluation.row.asyncTaskId = before.evaluation.row.asyncTaskId
  owner : after.evaluation.row.userId = before.evaluation.row.userId
  status :
    (after.evaluation.row.status = before.evaluation.row.status ∧
      (after.task.status = before.task.status ∨ after.task.status = .running ∨
        after.task.status = .failed ∨ mirrors before.task before.evaluation.row = false)) ∨
    (after.evaluation.row.status = after.task.status ∧ after.task.status ≠ .pending)

theorem Managed.refl (rows : Rows) : Managed rows rows :=
  ⟨rfl, rfl, rfl, .refl _, rfl, rfl, rfl, .inl ⟨rfl, .inl rfl⟩⟩

/-- A write of the task row mirrored onto the evaluation. -/
theorem Managed.mirrored {rows : Rows} {task : AsyncTask} {moment : Moment}
    (htype : rows.task.taskType = .evaluation)
    (hsettled : Settled rows.task
      (syncBusiness moment { rows.records with task := task }).task)
    (htaskType : task.taskType = rows.task.taskType) (hid : task.id = rows.task.id)
    (huser : task.userId = rows.task.userId)
    (hgeneration : task.celeryTaskId = rows.task.celeryTaskId) (hstatus : task.status ≠ .pending) :
    Managed rows (rows.commit (syncBusiness moment { rows.records with task := task })) := by
  have hmirrors : mirrors task rows.evaluation.row = mirrors rows.task rows.evaluation.row := by
    unfold mirrors
    rw [hid, huser, htaskType]
  unfold Rows.records at hsettled ⊢
  rw [syncBusiness_evaluation moment _ (htaskType.trans htype)] at hsettled ⊢
  rw [hmirrors]
  cases hmirrored : mirrors rows.task rows.evaluation.row with
  | false =>
      exact ⟨hid, huser, hgeneration, hsettled, rfl, rfl, rfl,
        .inl ⟨rfl, .inr (.inr (.inr hmirrored))⟩⟩
  | true => exact ⟨hid, huser, hgeneration, hsettled, rfl, rfl, rfl, .inr ⟨rfl, hstatus⟩⟩

/-- A write of the task row alone. -/
theorem Managed.unmirrored {rows : Rows} {task : AsyncTask} (hid : task.id = rows.task.id)
    (huser : task.userId = rows.task.userId)
    (hgeneration : task.celeryTaskId = rows.task.celeryTaskId)
    (hsettled : Settled rows.task task)
    (hstatus : task.status = .running ∨ task.status = .failed) :
    Managed rows (rows.commit { rows.records with task := task }) := by
  refine ⟨hid, huser, hgeneration, hsettled, rfl, rfl, rfl, .inl ⟨rfl, ?_⟩⟩
  cases hstatus with
  | inl hrunning => exact .inr (.inl hrunning)
  | inr hfailed => exact .inr (.inr (.inl hfailed))

section Operations

variable {rows : Rows} (moment : Moment)

theorem managed_report (htype : rows.task.taskType = .evaluation) (generation : Generation)
    (status : Status) (errorMessage : Option String) (hstatus : status ≠ .pending) :
    Managed rows (rows.report moment generation status errorMessage) := by
  have hsettled : Settled rows.records.task (updateTaskStatus moment
      { celeryTaskId := some generation } status errorMessage rows.records).task :=
    settled_updateTaskStatus moment status errorMessage (by simp [guarded])
  unfold Rows.report
  unfold updateTaskStatus at hsettled ⊢
  split_ifs at hsettled ⊢
  · exact .refl rows
  · apply Managed.mirrored htype hsettled
    · simp [Rows.records]
    · simp [Rows.records]
    · simp [Rows.records]
    · simp [Rows.records]
    · simpa using hstatus

/-- A report that is not refused reaches the linked evaluation. -/
theorem report_status (htype : rows.task.taskType = .evaluation)
    (hmirrors : mirrors rows.task rows.evaluation.row = true)
    (hopen : rows.task.status.terminal = false) (hactive : rows.task.status ≠ .paused)
    (status : Status) (errorMessage : Option String) :
    (rows.report moment rows.task.celeryTaskId status errorMessage).evaluation.row.status =
      status := by
  have hpassed : transitionBlocked { celeryTaskId := some rows.task.celeryTaskId } rows.task
      status = false := by
    simp [transitionBlocked, htype, TaskType.business, hopen, hactive]
  unfold Rows.report updateTaskStatus Rows.records
  rw [hpassed, if_neg Bool.false_ne_true, syncBusiness_evaluation moment _ (by simpa using htype)]
  unfold mirrors at hmirrors ⊢
  simp only [recordExecutionTimes_userId, recordExecutionTimes_taskType, recordExecutionTimes_id]
  rw [if_pos hmirrors]
  exact recordExecutionTimes_status ..

theorem managed_pauseTask (htype : rows.task.taskType = .evaluation) {userId : String}
    {written : Records} (hpause : pauseTask moment userId rows.records = .ok written) :
    Managed rows (rows.commit written) := by
  have hsettled := settled_pauseTask moment hpause
  obtain ⟨_, rfl⟩ := pauseTask_eq_ok hpause
  have htask : pausedTask rows.records.task = { rows.task with status := .paused } := by
    simp [pausedTask, Rows.records, htype, TaskType.business]
  rw [htask] at hsettled ⊢
  exact Managed.mirrored htype hsettled rfl rfl rfl rfl nofun

theorem managed_cancelTask (htype : rows.task.taskType = .evaluation) {userId : String}
    {written : Records} (hcancel : cancelTask moment userId rows.records = .ok written) :
    Managed rows (rows.commit written) := by
  have hsettled := settled_cancelTask moment hcancel
  cases cancelTask_eq_ok hcancel with
  | inl hsame => exact hsame ▸ .refl rows
  | inr hcancelled =>
      obtain ⟨_, rfl⟩ := hcancelled
      exact Managed.mirrored htype hsettled rfl rfl rfl rfl nofun

theorem managed_publishFailed (htype : rows.task.taskType = .evaluation) (mirrored : Bool) :
    Managed rows (rows.commit (publishFailed moment mirrored rows.records)) := by
  have hsettled : Settled rows.records.task (publishFailed moment mirrored rows.records).task :=
    settled_publishFailed moment mirrored
  unfold publishFailed at hsettled ⊢
  split_ifs at hsettled ⊢
  · exact Managed.mirrored htype hsettled rfl rfl rfl rfl nofun
  · exact Managed.unmirrored rfl rfl rfl hsettled (.inr rfl)
  · exact .refl rows

theorem managed_resumePublishFailed (htype : rows.task.taskType = .evaluation)
    (celeryTaskId : Generation) :
    Managed rows (rows.commit (resumePublishFailed moment celeryTaskId rows.records)) := by
  unfold resumePublishFailed
  split_ifs
  · exact managed_publishFailed moment htype true
  · exact .refl rows

theorem managed_syncCeleryState (htype : rows.task.taskType = .evaluation) (manager : Manager)
    (generation : Generation) (result : CeleryResult) :
    Managed rows (rows.commit (syncCeleryState moment manager generation result rows.records)) := by
  have hsettled : Settled rows.records.task
      (syncCeleryState moment manager generation result rows.records).task :=
    settled_syncCeleryState moment manager generation result
  have hbusiness : rows.records.task.taskType.business = false := by
    simp [Rows.records, htype, TaskType.business]
  unfold syncCeleryState at hsettled ⊢
  dsimp only at hsettled ⊢
  split at hsettled
  · next hstale =>
      rw [if_pos hstale]
      exact .refl rows
  · next hcurrent =>
      rw [if_neg hcurrent]
      simp only [hbusiness, Bool.false_eq_true, if_false] at hsettled ⊢
      split at hsettled
      · exact Managed.unmirrored rfl rfl rfl hsettled (.inl rfl)
      · exact Managed.unmirrored rfl rfl rfl hsettled (.inl rfl)
      · exact Managed.unmirrored rfl rfl rfl hsettled (.inr rfl)
      · exact .refl rows

/-- The transactions the API makes besides a resume. -/
def userTransaction : Transaction → Bool
  | .pauseTask _ | .cancelTask _ | .syncCeleryState _ _ _ | .enqueueFailed
  | .resumePublishFailed _ => true
  | _ => false

theorem managed_userTransaction (htype : rows.task.taskType = .evaluation)
    {transaction : Transaction} (huser : userTransaction transaction = true) :
    Managed rows (rows.commit (transaction.apply moment rows.records)) := by
  cases transaction with
  | pauseTask userId =>
      dsimp only [Transaction.apply]
      cases hpause : pauseTask moment userId rows.records with
      | error message => exact .refl rows
      | ok written => exact managed_pauseTask moment htype hpause
  | cancelTask userId =>
      dsimp only [Transaction.apply]
      cases hcancel : cancelTask moment userId rows.records with
      | error message => exact .refl rows
      | ok written => exact managed_cancelTask moment htype hcancel
  | syncCeleryState manager generation result =>
      exact managed_syncCeleryState moment htype manager generation result
  | enqueueFailed => exact managed_publishFailed moment htype _
  | resumePublishFailed celeryTaskId =>
      exact managed_resumePublishFailed moment htype celeryTaskId
  | _ => cases huser

end Operations

end AlgorithmHarness.EvaluationWorker
