import AlgorithmHarness.Core.Transition
import AlgorithmHarness.TaskManager.Transaction

/-!
# Terminal statuses are absorbing

Every write of a task row, whichever operation makes it, is made to an open
row, enters a status with the times that belong to it and keeps the first
execution start.  The law of a whole run follows from that alone.
-/

namespace AlgorithmHarness.TaskManager

open Transition

/-- `completed_at` is set exactly on terminal rows. -/
def AsyncTask.Timed (task : AsyncTask) : Prop := task.completedAt.isSome = task.status.terminal

/-- What every write of the status makes of an open row. -/
structure Written (before after : AsyncTask) : Prop where
  wasOpen : before.status.terminal = false
  timed : before.Timed → after.Timed
  started : ∀ start, before.startedAt = some start → after.startedAt = some start
  taskType : after.taskType = before.taskType

/-- What any transaction makes of a row: nothing that the lifecycle reads, or a
write to an open row. -/
def Settled (before after : AsyncTask) : Prop :=
  (after.status = before.status ∧ after.completedAt = before.completedAt ∧
    after.startedAt = before.startedAt ∧ after.taskType = before.taskType) ∨
  Written before after

theorem Settled.refl (task : AsyncTask) : Settled task task := .inl ⟨rfl, rfl, rfl, rfl⟩

theorem AsyncTask.Timed.open_completedAt {task : AsyncTask} (htimed : task.Timed)
    (hopen : task.status.terminal = false) : task.completedAt = none := by
  have hnone : task.completedAt.isSome = false := htimed.trans hopen
  simpa using hnone

theorem Settled.timed {before after : AsyncTask} (hsettled : Settled before after)
    (htimed : before.Timed) : after.Timed := by
  cases hsettled with
  | inl hsame => simpa only [AsyncTask.Timed, hsame.1, hsame.2.1] using htimed
  | inr hwritten => exact hwritten.timed htimed

theorem Settled.started {before after : AsyncTask} (hsettled : Settled before after)
    {start : Instant} (hstart : before.startedAt = some start) :
    after.startedAt = some start := by
  cases hsettled with
  | inl hsame => exact hsame.2.2.1.trans hstart
  | inr hwritten => exact hwritten.started start hstart

theorem Settled.absorbing {before after : AsyncTask} (hsettled : Settled before after)
    (hterminal : before.status.terminal = true) : after.status = before.status := by
  cases hsettled with
  | inl hsame => exact hsame.1
  | inr hwritten => simp [hwritten.wasOpen] at hterminal

theorem Settled.taskType {before after : AsyncTask} (hsettled : Settled before after) :
    after.taskType = before.taskType := by
  cases hsettled with
  | inl hsame => exact hsame.2.2.2
  | inr hwritten => exact hwritten.taskType

/-- Entering a status with `_record_execution_times`. -/
theorem Written.enter {before task : AsyncTask} (hopen : before.status.terminal = false)
    (now : Instant) (status : Status) (hstatus : task.status = status)
    (hcompleted : task.completedAt = before.completedAt)
    (hstarted : task.startedAt = before.startedAt) (htype : task.taskType = before.taskType) :
    Written before (recordExecutionTimes now task status) where
  wasOpen := hopen
  timed htimed := by
    have hnone := hcompleted.trans (htimed.open_completedAt hopen)
    rw [AsyncTask.Timed, recordExecutionTimes_completedAt now task status hnone,
      recordExecutionTimes_status, hstatus]
  started start hstart := recordExecutionTimes_startedAt now task status (hstarted.trans hstart)
  taskType := (recordExecutionTimes_taskType now task status).trans htype

theorem Written.syncBusiness {before : AsyncTask} {records : Records}
    (hwritten : Written before records.task) (moment : Moment) :
    Written before (syncBusiness moment records).task := by
  cases syncBusiness_task moment records with
  | inl hsame => exact hsame ▸ hwritten
  | inr hfinished =>
      obtain ⟨_, status, hterminal, htask⟩ := hfinished
      rw [htask]
      exact
        { wasOpen := hwritten.wasOpen
          timed := fun _ => by
            rw [AsyncTask.Timed, recordExecutionTimes_ended moment.now _ status hterminal,
              recordExecutionTimes_status, hterminal]
          started := fun start hstart =>
            recordExecutionTimes_startedAt moment.now _ status (hwritten.started start hstart)
          taskType := (recordExecutionTimes_taskType moment.now _ status).trans
            hwritten.taskType }

/-! ## One lemma for each operation -/

/-- The managers whose reports the guard checks: any on a business task, only
bound ones on an evaluation. -/
def guarded (task : AsyncTask) (manager : Manager) : Bool :=
  task.taskType.business || manager.celeryTaskId ≠ none

theorem open_of_not_blocked {manager : Manager} {task : AsyncTask} {status : Status}
    (hguarded : guarded task manager = true)
    (hpassed : transitionBlocked manager task status = false) :
    task.status.terminal = false := by
  unfold guarded at hguarded
  unfold transitionBlocked at hpassed
  split_ifs at hpassed with hfree hother
  · simp_all
  · exact (Bool.or_eq_false_iff.mp hpassed).1

section Operations

variable {records : Records} (moment : Moment)

theorem settled_updateTaskStatus {manager : Manager} (status : Status)
    (errorMessage : Option String) (hguarded : guarded records.task manager = true) :
    Settled records.task (updateTaskStatus moment manager status errorMessage records).task := by
  unfold updateTaskStatus
  split_ifs with hblocked
  · exact .refl _
  · right
    apply Written.syncBusiness
    apply Written.enter (open_of_not_blocked hguarded (by simpa using hblocked)) <;> rfl

theorem settled_updateTaskProgress {manager : Manager} (progress : JsonDict) (status : Status)
    (hguarded : guarded records.task manager = true) :
    Settled records.task (updateTaskProgress moment manager progress status records).task := by
  unfold updateTaskProgress
  split_ifs with hblocked
  · exact .refl _
  · have hwritten : Written records.task
        { recordExecutionTimes moment.now
            { records.task with progress := some (records.task.progressDict.merge progress) }
            status with status := status } := by
      rw [recordExecutionTimes_enter]
      apply Written.enter (open_of_not_blocked hguarded (by simpa using hblocked)) <;> rfl
    right
    dsimp only
    split_ifs
    · exact hwritten.syncBusiness moment
    · exact hwritten

theorem settled_claimTask (manager : Manager) (celeryTaskId : Option Generation)
    (executionAttempt : String) :
    Settled records.task
      (claimTask moment manager celeryTaskId executionAttempt records).records.task := by
  unfold claimTask
  split_ifs with hrefused
  · exact .refl _
  · have hpending : records.task.status = .pending := by
      by_contra hother
      exact hrefused (.inl hother)
    have hopen : records.task.status.terminal = false := by rw [hpending]; rfl
    right
    apply Written.syncBusiness
    dsimp only
    apply Written.enter hopen <;> rfl

theorem settled_confirmStopped (manager : Manager) :
    Settled records.task (confirmStopped manager records).task := by
  unfold confirmStopped
  split_ifs
  · exact .inl ⟨rfl, rfl, rfl, rfl⟩
  · exact .refl _

/-- A write that spells its times out instead of calling
`_record_execution_times`. -/
theorem Written.assign {before after : AsyncTask} (hopen : before.status.terminal = false)
    (htimed : before.completedAt = none → after.Timed)
    (hstarted : ∀ start, before.startedAt = some start → after.startedAt = some start)
    (htype : after.taskType = before.taskType) : Written before after where
  wasOpen := hopen
  timed htimes := htimed (htimes.open_completedAt hopen)
  started := hstarted
  taskType := htype

theorem settled_pauseTask {userId : String} {written : Records}
    (hpause : pauseTask moment userId records = .ok written) :
    Settled records.task written.task := by
  obtain ⟨hrunning, rfl⟩ := pauseTask_eq_ok hpause
  have hopen : records.task.status.terminal = false := by rw [hrunning]; rfl
  right
  apply Written.syncBusiness
  apply Written.assign hopen <;> unfold pausedTask <;> split_ifs <;>
    simp [AsyncTask.Timed, Status.terminal]

theorem settled_cancelTask {userId : String} {written : Records}
    (hcancel : cancelTask moment userId records = .ok written) :
    Settled records.task written.task := by
  cases cancelTask_eq_ok hcancel with
  | inl hsame => exact hsame ▸ .refl _
  | inr hcancelled =>
      obtain ⟨hopen, rfl⟩ := hcancelled
      right
      apply Written.syncBusiness
      apply Written.assign hopen <;> simp [cancelledTask, AsyncTask.Timed, Status.terminal]

theorem settled_resumeTask {admission : Admission} {celeryTaskId : Generation}
    {userId : String} {written : Records}
    (hresume : resumeTask moment admission celeryTaskId userId records = .ok written) :
    Settled records.task written.task := by
  obtain ⟨hpaused, _, _, _, rfl⟩ := resumeTask_eq_ok hresume
  have hopen : records.task.status.terminal = false := by rw [hpaused]; rfl
  right
  apply Written.syncBusiness
  apply Written.assign hopen <;> simp [resumedTask, AsyncTask.Timed, Status.terminal]

theorem settled_publishFailed (mirrored : Bool) :
    Settled records.task (publishFailed moment mirrored records).task := by
  unfold publishFailed
  split_ifs with hpending hmirrored
  all_goals try exact .refl _
  all_goals
    have hopen : records.task.status.terminal = false := by rw [hpending]; rfl
    have hwritten : Written records.task (unpublishedTask moment.now records.task) := by
      apply Written.assign hopen <;> simp [unpublishedTask, AsyncTask.Timed, Status.terminal]
  · exact .inr (Written.syncBusiness hwritten moment)
  · exact .inr hwritten

theorem settled_resumePublishFailed (celeryTaskId : Generation) :
    Settled records.task (resumePublishFailed moment celeryTaskId records).task := by
  unfold resumePublishFailed
  split_ifs
  · exact settled_publishFailed moment true
  · exact .refl _

/-- For a business task the sync reports through `update_task_status`, for an
evaluation it assigns the columns itself. -/
theorem settled_syncCeleryState (manager : Manager) (generation : Generation)
    (result : CeleryResult) :
    Settled records.task (syncCeleryState moment manager generation result records).task := by
  unfold syncCeleryState
  dsimp only
  split
  · exact .refl _
  · next hcurrent =>
      have hopen : records.task.status.terminal = false := by
        cases hstatus : records.task.status <;> simp_all [Status.terminal]
      split
      · next hbusiness =>
          have hguarded : guarded records.task manager = true := by simp [guarded, hbusiness]
          split
          · exact settled_updateTaskStatus moment _ _ hguarded
          · exact settled_updateTaskStatus moment _ _ hguarded
          · exact .refl _
      · split
        all_goals try exact .refl _
        all_goals
          right
          apply Written.assign hopen <;> simp +contextual [AsyncTask.Timed, Status.terminal]

theorem settled_budgetPause : Settled records.task (budgetPause records).task := by
  unfold budgetPause
  split_ifs with hbenchmark hrunning
  · have hopen : records.task.status.terminal = false := by rw [hrunning]; rfl
    right
    apply Written.assign hopen <;> simp [AsyncTask.Timed, Status.terminal]
  · exact .refl _
  · exact .refl _

theorem settled_recordAbTestFailure (taskId : Generation) (exception : String)
    (lostAttempt : Option String) :
    Settled records.task
      (recordAbTestFailure moment taskId exception lostAttempt records).task := by
  unfold recordAbTestFailure
  dsimp only
  split_ifs with heligible
  · have hopen : records.task.status.terminal = false := by
      cases hstatus : records.task.status <;> simp_all [Status.terminal]
    right
    apply Written.syncBusiness
    apply Written.assign hopen <;> simp [AsyncTask.Timed, Status.terminal]
  · exact .refl _

end Operations

/-! ## Runs -/

/-- The transactions the law is about: the reports of a manager the guard does
not check are excluded, which are those of an unbound one on an evaluation. -/
def Transaction.guarded (task : AsyncTask) : Transaction → Bool
  | .updateTaskProgress manager _ _ | .updateTaskStatus manager _ _ =>
      TaskManager.guarded task manager
  | _ => true

/-- A guarded transaction at some moment. -/
def lifecycleStep (records : Records) (label : Moment × Transaction) : Option Records :=
  if label.2.guarded records.task then some (label.2.apply label.1 records) else none

theorem settled_committed {records : Records} {result : Except String Records}
    (hresult : ∀ written, result = .ok written → Settled records.task written.task) :
    Settled records.task (committed records result).task := by
  cases result with
  | ok written => exact hresult written rfl
  | error message => exact .refl _

theorem settled_step {records next : Records} {label : Moment × Transaction}
    (hstep : lifecycleStep records label = some next) : Settled records.task next.task := by
  obtain ⟨moment, transaction⟩ := label
  unfold lifecycleStep at hstep
  split_ifs at hstep with hguarded
  obtain rfl := Option.some.inj hstep
  cases transaction with
  | claimTask manager celeryTaskId attempt => exact settled_claimTask moment _ _ _
  | updateTaskProgress manager progress status =>
      exact settled_updateTaskProgress moment _ _ hguarded
  | updateTaskStatus manager status errorMessage =>
      exact settled_updateTaskStatus moment _ _ hguarded
  | confirmStopped manager => exact settled_confirmStopped manager
  | pauseTask userId => exact settled_committed fun _ => settled_pauseTask moment
  | cancelTask userId => exact settled_committed fun _ => settled_cancelTask moment
  | resumeTask admission celeryTaskId userId =>
      exact settled_committed fun _ => settled_resumeTask moment
  | syncCeleryState manager generation result => exact settled_syncCeleryState moment _ _ _
  | enqueueFailed => exact settled_publishFailed moment _
  | resumePublishFailed celeryTaskId => exact settled_resumePublishFailed moment _
  | budgetPause => exact settled_budgetPause
  | recordAbTestFailure taskId exception attempt => exact settled_recordAbTestFailure moment _ _ _
  | writeBusiness business => exact .refl _

/-- The row `create_task` and `enqueue_task` insert. -/
def newTask (id : ℕ) (celeryTaskId : Generation) (taskType : TaskType) (userId : String) :
    AsyncTask :=
  { id := id, celeryTaskId := celeryTaskId, taskType := taskType, userId := userId }

theorem timed_preserved : Preserved lifecycleStep fun records => records.task.Timed :=
  fun _ _ _ htimed hstep => (settled_step hstep).timed htimed

theorem absorbing_run {records final : Records} {labels : List (Moment × Transaction)}
    (hterminal : records.task.status.terminal = true)
    (hrun : run lifecycleStep records labels = some final) :
    final.task.status = records.task.status := by
  have hsame : Preserved lifecycleStep fun next =>
      next.task.status = records.task.status := by
    intro state label next hstate hstep
    rw [← hstate] at hterminal
    exact ((settled_step hstep).absorbing hterminal).trans hstate
  exact hsame.run rfl hrun

theorem started_run {records final : Records} {labels : List (Moment × Transaction)}
    {start : Instant} (hstart : records.task.startedAt = some start)
    (hrun : run lifecycleStep records labels = some final) :
    final.task.startedAt = some start := by
  have hsame : Preserved lifecycleStep fun next => next.task.startedAt = some start :=
    fun _ _ _ hstarted hstep => (settled_step hstep).started hstarted
  exact hsame.run hstart hrun

/-- In every state a new task row can reach, `completed_at` is set exactly if
the status is terminal; from there on a terminal status never changes again and
neither does a start time once set. -/
theorem terminal_absorbing {initial records final : Records}
    {labels : List (Moment × Transaction)} {id : ℕ} {celeryTaskId : Generation}
    {taskType : TaskType} {userId : String}
    (hnew : initial.task = newTask id celeryTaskId taskType userId)
    (hreach : Reachable lifecycleStep initial records)
    (hrun : run lifecycleStep records labels = some final) :
    records.task.completedAt.isSome = records.task.status.terminal ∧
      (records.task.status.terminal = true →
        final.task.status = records.task.status) ∧
      (∀ start, records.task.startedAt = some start →
        final.task.startedAt = some start) := by
  have hinitial : initial.task.Timed := by rw [hnew]; rfl
  have htimed : records.task.Timed := timed_preserved.reachable hinitial hreach
  exact ⟨htimed, fun hterminal => absorbing_run hterminal hrun,
    fun _ hstart => started_run hstart hrun⟩

/-- An A/B test that was claimed and cancelled ignores its worker's later
report. -/
theorem terminal_absorbing_cancelled :
    let initial : Records := { task := newTask 1 10 .abTest "alice", business := {} }
    let claimed := (Transaction.claimTask {} (some 10) "first").apply { now := 3 } initial
    let cancelled := (Transaction.cancelTask "alice").apply { now := 4 } claimed
    let reported := (Transaction.updateTaskStatus { celeryTaskId := some 10 } .completed
      none).apply { now := 5 } cancelled
    cancelled.task.status = .cancelled ∧ cancelled.task.completedAt = some 4 ∧
      cancelled.task.startedAt = some 3 ∧ reported.task.status = .cancelled ∧
      reported.task.startedAt = some 3 := by
  intro initial claimed cancelled reported
  have hcancelled : Reachable lifecycleStep initial cancelled :=
    ⟨[({ now := 3 }, .claimTask {} (some 10) "first"), ({ now := 4 }, .cancelTask "alice")], rfl⟩
  have hreported : run lifecycleStep cancelled
      [({ now := 5 }, .updateTaskStatus { celeryTaskId := some 10 } .completed none)] =
        some reported := rfl
  have hlaw := terminal_absorbing rfl hcancelled hreported
  exact ⟨rfl, rfl, rfl, hlaw.2.1 rfl, hlaw.2.2 3 rfl⟩

end AlgorithmHarness.TaskManager
