import AlgorithmHarness.TaskManager.Operations

/-!
# Transactions on one task

Everything that can be committed to a task row: the operations of the manager,
the two writes of the row outside it, and whatever the services and executors
write to the business record.  An operation that raises commits nothing.
-/

namespace AlgorithmHarness.TaskManager

inductive Transaction where
  | claimTask (manager : Manager) (celeryTaskId : Option Generation) (executionAttempt : String)
  | updateTaskProgress (manager : Manager) (progress : JsonDict) (status : Status)
  | updateTaskStatus (manager : Manager) (status : Status) (errorMessage : Option String)
  | confirmStopped (manager : Manager)
  | pauseTask (userId : String)
  | cancelTask (userId : String)
  | resumeTask (admission : Admission) (celeryTaskId : Generation) (userId : String)
  | syncCeleryState (manager : Manager) (generation : Generation) (result : CeleryResult)
  | enqueueFailed
  | resumePublishFailed (celeryTaskId : Generation)
  | budgetPause
  | recordAbTestFailure (taskId : Generation) (exception : String) (lostAttempt : Option String)
  | writeBusiness (business : Business)

/-- The rows an operation commits; those it read if it raises. -/
def committed (records : Records) : Except String Records → Records
  | .ok written => written
  | .error _ => records

def Transaction.apply (moment : Moment) (records : Records) : Transaction → Records
  | .claimTask manager celeryTaskId executionAttempt =>
      (TaskManager.claimTask moment manager celeryTaskId executionAttempt records).records
  | .updateTaskProgress manager progress status =>
      TaskManager.updateTaskProgress moment manager progress status records
  | .updateTaskStatus manager status errorMessage =>
      TaskManager.updateTaskStatus moment manager status errorMessage records
  | .confirmStopped manager => TaskManager.confirmStopped manager records
  | .pauseTask userId => committed records (TaskManager.pauseTask moment userId records)
  | .cancelTask userId => committed records (TaskManager.cancelTask moment userId records)
  | .resumeTask admission celeryTaskId userId =>
      committed records (TaskManager.resumeTask moment admission celeryTaskId userId records)
  | .syncCeleryState manager generation result =>
      TaskManager.syncCeleryState moment manager generation result records
  | .enqueueFailed => TaskManager.enqueueFailed moment records
  | .resumePublishFailed celeryTaskId =>
      TaskManager.resumePublishFailed moment celeryTaskId records
  | .budgetPause => TaskManager.budgetPause records
  | .recordAbTestFailure taskId exception lostAttempt =>
      TaskManager.recordAbTestFailure moment taskId exception lostAttempt records
  | .writeBusiness business => { records with business := business }

/-! ## The parts of a write -/

section Times

variable (now : Instant) (task : AsyncTask) (status : Status)

@[simp]
theorem recordExecutionTimes_status :
    (recordExecutionTimes now task status).status = task.status := by
  unfold recordExecutionTimes
  split_ifs <;> rfl

@[simp]
theorem recordExecutionTimes_id : (recordExecutionTimes now task status).id = task.id := by
  unfold recordExecutionTimes
  split_ifs <;> rfl

@[simp]
theorem recordExecutionTimes_userId :
    (recordExecutionTimes now task status).userId = task.userId := by
  unfold recordExecutionTimes
  split_ifs <;> rfl

@[simp]
theorem recordExecutionTimes_celeryTaskId :
    (recordExecutionTimes now task status).celeryTaskId = task.celeryTaskId := by
  unfold recordExecutionTimes
  split_ifs <;> rfl

@[simp]
theorem recordExecutionTimes_taskType :
    (recordExecutionTimes now task status).taskType = task.taskType := by
  unfold recordExecutionTimes
  split_ifs <;> rfl

@[simp]
theorem recordExecutionTimes_progress :
    (recordExecutionTimes now task status).progress = task.progress := by
  unfold recordExecutionTimes
  split_ifs <;> rfl

theorem recordExecutionTimes_startedAt {start : Instant} (hstart : task.startedAt = some start) :
    (recordExecutionTimes now task status).startedAt = some start := by
  unfold recordExecutionTimes
  split_ifs <;> simp [hstart]

/-- `_record_execution_times` does not read the status it is called before or
after the assignment of. -/
theorem recordExecutionTimes_enter :
    { recordExecutionTimes now task status with status := status } =
      recordExecutionTimes now { task with status := status } status := by
  unfold recordExecutionTimes
  split_ifs <;> rfl

/-- An open task has no end time, and the times recorded on entering a status
set one exactly if the status is terminal. -/
theorem recordExecutionTimes_completedAt (hopen : task.completedAt = none) :
    (recordExecutionTimes now task status).completedAt.isSome = status.terminal := by
  unfold recordExecutionTimes
  cases status <;> simp [hopen, Status.terminal]

theorem recordExecutionTimes_ended (hterminal : status.terminal = true) :
    (recordExecutionTimes now task status).completedAt.isSome = true := by
  unfold recordExecutionTimes
  cases status <;> cases hended : task.completedAt <;> simp_all [Status.terminal]

end Times

/-- The task row after `_sync_business`: only a finished import job changes
it. -/
theorem syncBusiness_task (moment : Moment) (records : Records) :
    (syncBusiness moment records).task = records.task ∨
      records.task.taskType = .importJob ∧ ∃ status, status.terminal = true ∧
        (syncBusiness moment records).task =
          recordExecutionTimes moment.now { records.task with status := status } status := by
  unfold syncBusiness
  split_ifs with himport
  · split
    · exact .inl rfl
    · dsimp only
      split
      · next status hactual =>
          exact .inr ⟨himport, status, (Option.filter_eq_some_iff.mp hactual).2, rfl⟩
      · exact .inl rfl
  · exact .inl rfl

theorem syncBusiness_celeryTaskId (moment : Moment) (records : Records) :
    (syncBusiness moment records).task.celeryTaskId = records.task.celeryTaskId := by
  cases syncBusiness_task moment records with
  | inl hsame => rw [hsame]
  | inr hfinished =>
      obtain ⟨_, status, _, htask⟩ := hfinished
      rw [htask, recordExecutionTimes_celeryTaskId]

theorem syncBusiness_progress (moment : Moment) (records : Records) :
    (syncBusiness moment records).task.progress = records.task.progress := by
  cases syncBusiness_task moment records with
  | inl hsame => rw [hsame]
  | inr hfinished =>
      obtain ⟨_, status, _, htask⟩ := hfinished
      rw [htask, recordExecutionTimes_progress]

/-! ## When the user's operations succeed -/

section UserOperations

variable {moment : Moment} {userId : String} {records written : Records}

theorem pauseTask_eq_ok (hpause : pauseTask moment userId records = .ok written) :
    records.task.status = .running ∧
      written = syncBusiness moment { records with task := pausedTask records.task } := by
  unfold pauseTask rejectFinishedBusiness at hpause
  simp only [throw, throwThe, MonadExceptOf.throw, bind, Except.bind, pure, Except.pure] at hpause
  split_ifs at hpause with huser hrunning hfinished
  · exact ⟨not_not.mp hrunning, (Except.ok.inj hpause).symm⟩

theorem cancelTask_eq_ok (hcancel : cancelTask moment userId records = .ok written) :
    written = records ∨ records.task.status.terminal = false ∧
      written =
        syncBusiness moment { records with task := cancelledTask moment.now records.task } := by
  unfold cancelTask rejectFinishedBusiness at hcancel
  simp only [throw, throwThe, MonadExceptOf.throw, bind, Except.bind, pure, Except.pure] at hcancel
  split_ifs at hcancel with huser hended hcancelled hfinished
  · exact .inl (Except.ok.inj hcancel).symm
  · refine .inr ⟨?_, (Except.ok.inj hcancel).symm⟩
    cases hstatus : records.task.status <;> simp_all [Status.terminal]

theorem resumeTask_eq_ok {admission : Admission} {celeryTaskId : Generation}
    (hresume : resumeTask moment admission celeryTaskId userId records = .ok written) :
    records.task.status = .paused ∧
      (records.task.taskType = .evaluation → admission.executionFree = true) ∧
      checkResumable userId records = .ok () ∧
      (records.task.taskType.business = true → records.task.stopConfirmed = true) ∧
      written =
        syncBusiness moment { records with task := resumedTask celeryTaskId records.task } := by
  unfold resumeTask at hresume
  simp only [throw, throwThe, MonadExceptOf.throw, bind, Except.bind, pure, Except.pure] at hresume
  cases hcheck : checkResumable userId records with
  | error message => split_ifs at hresume <;> simp_all
  | ok checked =>
      split_ifs at hresume <;> simp_all

end UserOperations

end AlgorithmHarness.TaskManager
