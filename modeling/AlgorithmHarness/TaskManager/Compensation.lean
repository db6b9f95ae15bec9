import AlgorithmHarness.TaskManager.Transaction

/-!
# Undoing the import job when a commit fails

The job of an import task lives in the file store, which the transaction on the
task row does not cover.  `_sync_business` notes the transitions it sees in the
job, and a commit that fails restores each of them if the job still has the
status the transition led to.  Another party may change the job while the
transaction reads and updates it, and again before the commit fails.
-/

namespace AlgorithmHarness.TaskManager

/-- An entry of `_import_transitions`; the job and its owner are the task's. -/
structure ImportTransition where
  actual : Status
  previous : Status
  deriving DecidableEq, Repr

/-- Another party sets the status of the job. -/
def otherWrite (write : Option Status) (job : Option ImportJob) : Option ImportJob :=
  job.map fun job => { job with status := write.getD job.status }

/-- `FileStore.restore_task_status`. -/
def restoreTaskStatus (job : Option ImportJob) (userId : String) (expected previous : Status) :
    Option ImportJob :=
  job.map fun job =>
    if job.userId = userId ∧ job.status = expected then { job with status := previous } else job

/-- What one `_sync_business` appends to `_import_transitions`. -/
def syncTransition (moment : Moment) (records : Records) : List ImportTransition :=
  match fileStoreJob records.business.job records.task.userId with
  | none => []
  | some previous =>
      let meanwhile := otherWrite moment.jobWrite records.business.job
      let (_, actual) := syncTaskStatus meanwhile records.task.userId records.task.status
        (some previous.status)
      if actual = some records.task.status ∧ actual ≠ some previous.status then
        [{ actual := records.task.status, previous := previous.status }]
      else []

/-- The operations of the manager; the other writes of the rows do not commit
through it. -/
def Transaction.managed : Transaction → Bool
  | .budgetPause | .recordAbTestFailure .. | .writeBusiness .. => false
  | _ => true

/-- The row `update_task_status` hands to `_sync_business`, if it gets there. -/
def updatedRow (moment : Moment) (manager : Manager) (status : Status)
    (errorMessage : Option String) (records : Records) : Option AsyncTask :=
  if transitionBlocked manager records.task status then none
  else
    some (recordExecutionTimes moment.now
      { records.task with
        status := status
        errorMessage := errorMessage.or records.task.errorMessage } status)

/-- The row an operation on an import task hands to `_sync_business`; `none` if
the operation returns or raises before. -/
def Transaction.synced (moment : Moment) (records : Records) : Transaction → Option AsyncTask
  | .claimTask _ celeryTaskId executionAttempt =>
      if records.task.status ≠ .pending ∨
          (celeryTaskId ≠ none ∧ some records.task.celeryTaskId ≠ celeryTaskId) then none
      else
        some (recordExecutionTimes moment.now
          { records.task with
            progress := some ((records.task.progressDict.insert "execution_attempt"
              (.str executionAttempt)).insert "stop_confirmed" (.bool false))
            status := .running } .running)
  | .updateTaskProgress manager progress status =>
      if transitionBlocked manager records.task status then none
      else
        some { recordExecutionTimes moment.now
          { records.task with
            progress := some (records.task.progressDict.merge progress) } status with
          status := status }
  | .updateTaskStatus manager status errorMessage =>
      updatedRow moment manager status errorMessage records
  | .pauseTask userId =>
      (TaskManager.pauseTask moment userId records).toOption.map fun _ => pausedTask records.task
  | .cancelTask userId =>
      if records.task.status = .cancelled then none
      else
        (TaskManager.cancelTask moment userId records).toOption.map fun _ =>
          cancelledTask moment.now records.task
  | .resumeTask admission celeryTaskId userId =>
      (TaskManager.resumeTask moment admission celeryTaskId userId records).toOption.map fun _ =>
        resumedTask celeryTaskId records.task
  | .syncCeleryState manager generation result =>
      if records.task.celeryTaskId ≠ generation ∨
          (records.task.status ≠ .pending ∧ records.task.status ≠ .running) then none
      else
        match result.state with
        | .failure => updatedRow moment manager .failed (some result.info) records
        | .revoked => updatedRow moment manager .cancelled none records
        | _ => none
  | .enqueueFailed =>
      if records.task.status = .pending then some (unpublishedTask moment.now records.task)
      else none
  | .resumePublishFailed celeryTaskId =>
      if records.task.celeryTaskId = celeryTaskId ∧ records.task.status = .pending then
        some (unpublishedTask moment.now records.task)
      else none
  | .confirmStopped _ | .budgetPause | .recordAbTestFailure .. | .writeBusiness .. => none

/-- `_import_transitions` when the operation reaches its commit. -/
def Transaction.importTransitions (moment : Moment) (records : Records)
    (transaction : Transaction) : List ImportTransition :=
  match transaction.synced moment records with
  | none => []
  | some task => syncTransition moment { records with task := task }

/-- The rows after the operation if its commit fails: the transaction is rolled
back, and the job, which another party may have written once more, is restored
transition by transition. -/
def Transaction.commitFailed (moment : Moment) (later : Option Status) (records : Records)
    (transaction : Transaction) : Records :=
  let written := otherWrite later (transaction.apply moment records).business.job
  let job := (transaction.importTransitions moment records).reverse.foldl
    (fun job transition =>
      restoreTaskStatus job records.task.userId transition.actual transition.previous)
    written
  { records with business := { records.business with job := job } }

/-- A cancellation of a row that is not cancelled yet is a write. -/
theorem cancelTask_open {moment : Moment} {userId : String} {records written : Records}
    (hopen : records.task.status ≠ .cancelled)
    (hcancel : cancelTask moment userId records = .ok written) :
    written =
      syncBusiness moment { records with task := cancelledTask moment.now records.task } := by
  unfold cancelTask rejectFinishedBusiness at hcancel
  simp only [throw, throwThe, MonadExceptOf.throw, bind, Except.bind, pure, Except.pure] at hcancel
  split_ifs at hcancel
  exact (Except.ok.inj hcancel).symm

/-- The operations on an import task reach the job through `_sync_business` only. -/
theorem apply_job {moment : Moment} {records : Records} {transaction : Transaction}
    (hmanaged : transaction.managed = true) (himport : records.task.taskType = .importJob) :
    (transaction.apply moment records).business.job =
      match transaction.synced moment records with
      | none => records.business.job
      | some task => (syncBusiness moment { records with task := task }).business.job := by
  have hbusiness : records.task.taskType.business = true := by rw [himport]; rfl
  have hupdate : ∀ manager status errorMessage,
      (updateTaskStatus moment manager status errorMessage records).business.job =
        match updatedRow moment manager status errorMessage records with
        | none => records.business.job
        | some task => (syncBusiness moment { records with task := task }).business.job := by
    intro manager status errorMessage
    unfold updateTaskStatus updatedRow
    split_ifs <;> rfl
  cases transaction with
  | claimTask manager celeryTaskId executionAttempt =>
      simp only [Transaction.apply, claimTask, Transaction.synced]
      split_ifs <;> rfl
  | updateTaskProgress manager progress status =>
      simp only [Transaction.apply, updateTaskProgress, Transaction.synced,
        recordExecutionTimes_taskType, hbusiness, if_true]
      split_ifs <;> rfl
  | updateTaskStatus manager status errorMessage => exact hupdate manager status errorMessage
  | confirmStopped manager =>
      simp only [Transaction.apply, confirmStopped, Transaction.synced]
      split_ifs <;> rfl
  | pauseTask userId =>
      simp only [Transaction.apply, Transaction.synced]
      cases hpause : pauseTask moment userId records with
      | error message => rfl
      | ok written => rw [(pauseTask_eq_ok hpause).2]; rfl
  | cancelTask userId =>
      simp only [Transaction.apply, Transaction.synced]
      cases hcancel : cancelTask moment userId records with
      | error message => split_ifs <;> rfl
      | ok written =>
          split_ifs with hcancelled
          · rcases cancelTask_eq_ok hcancel with hsame | ⟨hopen, _⟩
            · rw [hsame]; rfl
            · rw [hcancelled] at hopen
              cases hopen
          · rw [cancelTask_open hcancelled hcancel]; rfl
  | resumeTask admission celeryTaskId userId =>
      simp only [Transaction.apply, Transaction.synced]
      cases hresume : resumeTask moment admission celeryTaskId userId records with
      | error message => rfl
      | ok written => rw [(resumeTask_eq_ok hresume).2.2.2.2]; rfl
  | syncCeleryState manager generation result =>
      simp only [Transaction.apply, syncCeleryState, Transaction.synced, hbusiness, if_true]
      split_ifs
      · rfl
      · cases result.state <;> first | rfl | exact hupdate _ _ _
  | enqueueFailed =>
      simp only [Transaction.apply, enqueueFailed, publishFailed, Transaction.synced, himport]
      split_ifs <;> simp_all
  | resumePublishFailed celeryTaskId =>
      simp only [Transaction.apply, resumePublishFailed, publishFailed, Transaction.synced]
      split_ifs <;> simp_all
  | budgetPause => cases hmanaged
  | recordAbTestFailure taskId exception lostAttempt => cases hmanaged
  | writeBusiness business => cases hmanaged

/-- One `_sync_business` notes at most one transition, and an operation calls it
at most once. -/
theorem importTransitions_length_le (moment : Moment) (records : Records)
    (transaction : Transaction) :
    (transaction.importTransitions moment records).length ≤ 1 := by
  unfold Transaction.importTransitions syncTransition
  cases transaction.synced moment records with
  | none => exact Nat.zero_le 1
  | some task =>
      dsimp only
      split
      · exact Nat.zero_le 1
      · split_ifs
        · exact le_rfl
        · exact Nat.zero_le 1

/-! ## When the job is restored -/

section Restored

variable (moment : Moment) (later : Option Status) (records : Records)
  (transaction : Transaction)

/-- The status another party last gave the job, if any did. -/
def Transaction.lastWrite : Option Status :=
  later.or ((transaction.synced moment records).bind fun _ => moment.jobWrite)

/-- The job as the claim asks for it: with the status it had, or the one
another party gave it in between. -/
def Transaction.Restored (job : ImportJob) : Prop :=
  (transaction.commitFailed moment later records).business.job =
    some { job with status := (transaction.lastWrite moment later records).getD job.status }

/-- No other party has left the job in the status the operation asks for, unless
a third status it gave the job earlier kept the operation from noting a
transition. -/
def Transaction.Unmistakable (job : ImportJob) : Prop :=
  ∀ task, transaction.synced moment records = some task →
    task.status = job.status ∨
      transaction.lastWrite moment later records ≠ some task.status ∨
      moment.jobWrite.getD job.status ≠ task.status ∧
        (moment.jobWrite.getD job.status ≠ job.status ∨ job.status.terminal = true)

end Restored

/-- The status of the owner's job after the guarded update of `_sync_business`. -/
def syncedStatus (jobWrite : Option Status) (previous requested : Status) : Status :=
  let meanwhile := jobWrite.getD previous
  if meanwhile.terminal = false ∧ previous = meanwhile then requested else meanwhile

theorem syncTaskStatus_owned {job : ImportJob} {userId : String} (howner : job.userId = userId)
    (jobWrite : Option Status) (status : Status) :
    syncTaskStatus (otherWrite jobWrite (some job)) userId status (some job.status) =
      (some { job with status := syncedStatus jobWrite job.status status },
        some (syncedStatus jobWrite job.status status)) := by
  subst howner
  simp only [syncTaskStatus, otherWrite, fileStoreJob, syncedStatus, Option.map_some,
    Option.some.injEq, true_and, reduceCtorEq, false_or]
  split_ifs <;> simp

/-- What one `_sync_business` makes of the owner's job, and what it notes. -/
theorem syncBusiness_job {moment : Moment} {records : Records} {job : ImportJob}
    (himport : records.task.taskType = .importJob) (hjob : records.business.job = some job)
    (howner : job.userId = records.task.userId) :
    let written := syncedStatus moment.jobWrite job.status records.task.status
    (syncBusiness moment records).business.job = some { job with status := written } ∧
      syncTransition moment records =
        if written = records.task.status ∧ written ≠ job.status then
          [{ actual := records.task.status, previous := job.status }]
        else [] := by
  have hfound : fileStoreJob (some job) records.task.userId = some job :=
    Option.filter_eq_some_iff.mpr ⟨rfl, decide_eq_true howner⟩
  have hsync := syncTaskStatus_owned howner moment.jobWrite records.task.status
  constructor
  · unfold syncBusiness
    rw [if_pos himport, hjob, hfound]
    dsimp only
    split <;> exact congrArg Prod.fst hsync
  · unfold syncTransition
    rw [hjob, hfound]
    simp only [hsync, ne_eq, Option.some.injEq]

/-- The row handed to `_sync_business` is the same owner's import task. -/
theorem synced_task {moment : Moment} {records : Records} {transaction : Transaction}
    {task : AsyncTask} (hsynced : transaction.synced moment records = some task) :
    task.taskType = records.task.taskType ∧ task.userId = records.task.userId := by
  have hupdated : ∀ manager status errorMessage,
      updatedRow moment manager status errorMessage records = some task →
        task.taskType = records.task.taskType ∧ task.userId = records.task.userId := by
    intro manager status errorMessage hrow
    unfold updatedRow at hrow
    split_ifs at hrow
    rw [← Option.some.inj hrow]
    simp
  cases transaction <;> simp only [Transaction.synced, reduceCtorEq] at hsynced
  case claimTask =>
      split_ifs at hsynced
      rw [← Option.some.inj hsynced]
      simp
  case updateTaskProgress =>
      split_ifs at hsynced
      rw [← Option.some.inj hsynced]
      simp
  case updateTaskStatus => exact hupdated _ _ _ hsynced
  case pauseTask =>
      obtain ⟨_, _, rfl⟩ := Option.map_eq_some_iff.mp hsynced
      unfold pausedTask
      split_ifs <;> exact ⟨rfl, rfl⟩
  case cancelTask =>
      split_ifs at hsynced
      obtain ⟨_, _, rfl⟩ := Option.map_eq_some_iff.mp hsynced
      exact ⟨rfl, rfl⟩
  case resumeTask =>
      obtain ⟨_, _, rfl⟩ := Option.map_eq_some_iff.mp hsynced
      exact ⟨rfl, rfl⟩
  case syncCeleryState =>
      split_ifs at hsynced
      split at hsynced
      · exact hupdated _ _ _ hsynced
      · exact hupdated _ _ _ hsynced
      · cases hsynced
  case enqueueFailed =>
      split_ifs at hsynced
      rw [← Option.some.inj hsynced]
      exact ⟨rfl, rfl⟩
  case resumePublishFailed =>
      split_ifs at hsynced
      rw [← Option.some.inj hsynced]
      exact ⟨rfl, rfl⟩

/-- Undoing at most one transition of the owner's job. -/
theorem foldl_restoreTaskStatus (job : ImportJob) {userId : String} (howner : job.userId = userId)
    (noted : Prop) [Decidable noted] (transition : ImportTransition) :
    (if noted then [transition] else []).reverse.foldl
        (fun job transition => restoreTaskStatus job userId transition.actual transition.previous)
        (some job) =
      some { job with
        status := if noted ∧ job.status = transition.actual then transition.previous
          else job.status } := by
  subst howner
  by_cases hnoted : noted
  · by_cases hactual : job.status = transition.actual <;>
      simp [hnoted, hactual, restoreTaskStatus]
  · simp [hnoted]

/-- The status a failed commit leaves, against the one it should leave. -/
theorem restored_status_iff (jobWrite later : Option Status) (previous requested : Status) :
    (if (syncedStatus jobWrite previous requested = requested ∧
          syncedStatus jobWrite previous requested ≠ previous) ∧
          later.getD (syncedStatus jobWrite previous requested) = requested then previous
      else later.getD (syncedStatus jobWrite previous requested)) =
        (later.or jobWrite).getD previous ↔
      requested = previous ∨ later.or jobWrite ≠ some requested ∨
        jobWrite.getD previous ≠ requested ∧
          (jobWrite.getD previous ≠ previous ∨ previous.terminal = true) := by
  unfold syncedStatus
  cases later <;> cases jobWrite <;>
    simp only [Option.getD_none, Option.getD_some, Option.none_or, Option.some_or] <;> grind

/-- If the commit of an operation on an import task fails, the job is back in
the status it had, or in the one another party gave it in between, exactly if no
other party left it in the status the operation asked for. -/
theorem import_restored_iff (moment : Moment) (later : Option Status) (records : Records)
    (transaction : Transaction) (job : ImportJob) (hmanaged : transaction.managed = true)
    (himport : records.task.taskType = .importJob) (hjob : records.business.job = some job)
    (howner : job.userId = records.task.userId) :
    transaction.Restored moment later records job ↔
      transaction.Unmistakable moment later records job := by
  have happly := @apply_job moment _ _ hmanaged himport
  unfold Transaction.Restored Transaction.Unmistakable Transaction.commitFailed
    Transaction.importTransitions Transaction.lastWrite
  cases hsynced : transaction.synced moment records with
  | none =>
      rw [hsynced] at happly
      simp [happly, hjob, otherWrite]
  | some task =>
      obtain ⟨htype, huser⟩ := synced_task hsynced
      obtain ⟨hwritten, hnoted⟩ := @syncBusiness_job moment
        { records with task := task } _ (htype.trans himport) hjob
        (howner.trans huser.symm)
      rw [hsynced] at happly
      have hstatus := restored_status_iff moment.jobWrite later job.status task.status
      have hwrite : later.or ((some task).bind fun _ => moment.jobWrite) =
          later.or moment.jobWrite := rfl
      have hrestored := foldl_restoreTaskStatus
        { job with
          status := later.getD (syncedStatus moment.jobWrite job.status task.status) }
        howner
        (syncedStatus moment.jobWrite job.status task.status = task.status ∧
          syncedStatus moment.jobWrite job.status task.status ≠ job.status)
        { actual := task.status, previous := job.status }
      simp only [happly, hwritten, hnoted, otherWrite, Option.map_some, hwrite]
      rw [hrestored]
      constructor
      · intro hjobs other hother
        obtain rfl := Option.some.inj hother
        exact hstatus.mp (ImportJob.mk.inj (Option.some.inj hjobs)).2
      · intro hunmistakable
        rw [hstatus.mpr (hunmistakable task rfl)]

/-- A worker's claim fails to commit and the pending job is restored. -/
theorem import_restored_iff_claim :
    let records : Records :=
      { task := { id := 1, celeryTaskId := 10, taskType := .importJob, userId := "alice" }
        business := { job := some { userId := "alice", status := .pending } } }
    let claim : Transaction := .claimTask {} (some 10) "attempt"
    claim.Restored { now := 5 } none records { userId := "alice", status := .pending } := by
  intro records claim
  refine (import_restored_iff { now := 5 } none records claim _ rfl rfl rfl rfl).mpr ?_
  intro task hsynced
  exact .inr (.inl nofun)

/-- A direct import starts the job while a worker claims the task: the claim
takes the other party's transition for its own, and when its commit fails it
undoes it. -/
theorem import_started_elsewhere_undone :
    let records : Records :=
      { task := { id := 1, celeryTaskId := 10, taskType := .importJob, userId := "alice" }
        business := { job := some { userId := "alice", status := .pending } } }
    let moment : Moment := { now := 5, jobWrite := some .running }
    let claim : Transaction := .claimTask {} (some 10) "attempt"
    ¬claim.Restored moment none records { userId := "alice", status := .pending } ∧
      claim.lastWrite moment none records = some .running ∧
      (claim.commitFailed moment none records).business.job =
        some { userId := "alice", status := .pending } := by
  refine ⟨?_, rfl, rfl⟩
  unfold Transaction.Restored
  decide

end AlgorithmHarness.TaskManager
