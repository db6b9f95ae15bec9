import AlgorithmHarness.TaskManager.Terminal
import Mathlib.Algebra.Order.Ring.Unbundled.Rat
import Mathlib.Data.Finmap

/-!
# At most one worker executes a task

The workers of one business task, each started by a delivery of some queue
message, run their transactions against the row in any order with those of the
API.  A worker executes from its successful claim until its own confirmation
that it stopped, or its own terminal report.
-/

namespace AlgorithmHarness.TaskManager

open Transition

/-- A worker process: the manager it made for its delivery, and how far it
is. -/
structure Worker where
  manager : Manager := {}
  claimed : Bool := false
  finished : Bool := false
  confirmed : Bool := false

/-- `issued` is the next `uuid4`. -/
structure System where
  records : Records
  issued : Generation
  workers : ℕ → Worker := fun _ => {}

inductive Action where
  /-- A message reaches a new worker; `self.request.id` may be absent. -/
  | deliver (worker : ℕ) (requestId : Option Generation)
  | claim (worker : ℕ) (executionAttempt : String)
  | progress (worker : ℕ) (progress : JsonDict) (status : Status)
  | report (worker : ℕ) (status : Status) (errorMessage : Option String)
  | confirm (worker : ℕ)
  | resume (admission : Admission) (userId : String)
  /-- Any other transaction on the rows. -/
  | other (transaction : Transaction)

/-- What callers report: never `pending`, and progress dictionaries without the
manager's own key. -/
def Transaction.reported : Transaction → Bool
  | .updateTaskProgress _ progress status => status ≠ .pending && "stop_confirmed" ∉ progress
  | .updateTaskStatus _ status _ => status ≠ .pending
  | .claimTask _ _ _ | .confirmStopped _ | .resumeTask _ _ _ => false
  | _ => true

/-- `progress_percentage`. -/
def progressPercentage (current total : ℤ) : ℚ :=
  if total ≤ 0 then 0 else min 100 (max 0 ((current : ℚ) / total * 100))

/-- `task_progress`, the dictionary every caller reports. -/
def taskProgress (current total : ℤ) (currentStep : String) : JsonDict :=
  (((AList.singleton "current" (.num current)).insert "total" (.num total)).insert
    "percentage" (.num (progressPercentage current total))).insert
      "current_step" (.str currentStep)

namespace System

def setWorker (system : System) (worker : ℕ) (state : Worker) : System :=
  { system with workers := Function.update system.workers worker state }

@[simp]
theorem setWorker_self (system : System) (worker : ℕ) (state : Worker) :
    (system.setWorker worker state).workers worker = state := Function.update_self ..

theorem setWorker_of_ne {system : System} {worker other : ℕ} {state : Worker}
    (hne : other ≠ worker) :
    (system.setWorker worker state).workers other = system.workers other :=
  Function.update_of_ne hne ..

/-- Whether the report of a worker ends its execution. -/
def endsWith (system : System) (state : Worker) (status : Status) : Bool :=
  status.terminal && !transitionBlocked state.manager system.records.task status

def step (system : System) : Moment × Action → Option System
  | (_, .deliver worker requestId) =>
      if (system.workers worker).claimed then none
      else some (system.setWorker worker { manager := { celeryTaskId := requestId } })
  | (moment, .claim worker attempt) =>
      let state := system.workers worker
      if state.claimed then none
      else
        let claim := claimTask moment state.manager state.manager.celeryTaskId attempt
          system.records
        some ({ system with records := claim.records }.setWorker worker
          { state with manager := claim.manager, claimed := claim.claimed })
  | (moment, .progress worker progress status) =>
      let transaction : Transaction :=
        .updateTaskProgress (system.workers worker).manager progress status
      if transaction.reported then
        some { system with records := transaction.apply moment system.records }
      else none
  | (moment, .report worker status errorMessage) =>
      let state := system.workers worker
      let transaction : Transaction := .updateTaskStatus state.manager status errorMessage
      if transaction.reported then
        some ({ system with records := transaction.apply moment system.records }.setWorker worker
          { state with finished := state.finished || system.endsWith state status })
      else none
  | (_, .confirm worker) =>
      let state := system.workers worker
      if state.claimed then
        some ({ system with
          records := confirmStopped state.manager system.records }.setWorker worker
            { state with confirmed := true })
      else none
  | (moment, .resume admission userId) =>
      match resumeTask moment admission system.issued userId system.records with
      | .ok written => some { system with records := written, issued := system.issued + 1 }
      | .error _ => some system
  | (moment, .other transaction) =>
      if transaction.reported then
        some { system with records := transaction.apply moment system.records }
      else none

/-- The worker has claimed the task and neither confirmed that it stopped nor
reported a terminal status. -/
def executing (system : System) (worker : ℕ) : Bool :=
  (system.workers worker).claimed && !(system.workers worker).finished &&
    !(system.workers worker).confirmed

/-- A newly queued business task, before any delivery. -/
structure Queued (system : System) : Prop where
  business : system.records.task.taskType.business = true
  pending : system.records.task.status = .pending
  issued : system.records.task.celeryTaskId < system.issued
  workers : ∀ worker, (system.workers worker).claimed = false

end System

/-! ## What leaves a claim intact -/

/-- Nothing that a claimed execution relies on is lost by a write. -/
structure Steady (before after : AsyncTask) : Prop where
  celeryTaskId : after.celeryTaskId = before.celeryTaskId
  pending : after.status = .pending → before.status = .pending
  stopConfirmed : after.stopConfirmed = true → before.stopConfirmed = true

theorem Steady.refl (task : AsyncTask) : Steady task task := ⟨rfl, id, id⟩

theorem stopConfirmed_congr {before after : AsyncTask}
    (hprogress : after.progress = before.progress) :
    after.stopConfirmed = before.stopConfirmed := by
  unfold AsyncTask.stopConfirmed AsyncTask.progressDict
  rw [hprogress]

theorem Steady.of_progress {before after : AsyncTask}
    (hgeneration : after.celeryTaskId = before.celeryTaskId) (hstatus : after.status ≠ .pending)
    (hprogress : after.progress = before.progress) : Steady before after where
  celeryTaskId := hgeneration
  pending hpending := absurd hpending hstatus
  stopConfirmed hconfirmed := by rwa [stopConfirmed_congr hprogress] at hconfirmed

theorem Steady.syncBusiness {before : AsyncTask} {records : Records}
    (hsteady : Steady before records.task) (moment : Moment) :
    Steady before (syncBusiness moment records).task := by
  cases syncBusiness_task moment records with
  | inl hsame => exact hsame ▸ hsteady
  | inr hfinished =>
      obtain ⟨_, status, hterminal, htask⟩ := hfinished
      constructor
      · exact (syncBusiness_celeryTaskId moment records).trans hsteady.celeryTaskId
      · rw [htask, recordExecutionTimes_status]
        intro hpending
        dsimp only at hpending
        simp [hpending, Status.terminal] at hterminal
      · rw [stopConfirmed_congr (syncBusiness_progress moment records)]
        exact hsteady.stopConfirmed

section Operations

variable {records : Records} (moment : Moment)

theorem steady_updateTaskStatus {status : Status} (manager : Manager)
    (errorMessage : Option String) (hstatus : status ≠ .pending) :
    Steady records.task (updateTaskStatus moment manager status errorMessage records).task := by
  unfold updateTaskStatus
  split_ifs
  · exact .refl _
  · apply Steady.syncBusiness
    apply Steady.of_progress <;> simp [hstatus]

theorem steady_updateTaskProgress {status : Status} {progress : JsonDict} (manager : Manager)
    (hstatus : status ≠ .pending) (hkey : "stop_confirmed" ∉ progress) :
    Steady records.task (updateTaskProgress moment manager progress status records).task := by
  unfold updateTaskProgress
  split_ifs
  · exact .refl _
  · have hsteady : Steady records.task
        { recordExecutionTimes moment.now
            { records.task with progress := some (records.task.progressDict.merge progress) }
            status with status := status } := by
      constructor
      · simp
      · simp [hstatus]
      · simp [AsyncTask.stopConfirmed, AsyncTask.progressDict, JsonDict.flag_merge hkey]
    dsimp only
    split_ifs
    · exact hsteady.syncBusiness moment
    · exact hsteady

theorem steady_claimTask (manager : Manager) (celeryTaskId : Option Generation)
    (executionAttempt : String) :
    Steady records.task
      (claimTask moment manager celeryTaskId executionAttempt records).records.task := by
  unfold claimTask
  split_ifs
  · exact .refl _
  · apply Steady.syncBusiness
    constructor
    · simp
    · simp
    · simp [AsyncTask.stopConfirmed, AsyncTask.progressDict, Json.truthy]

theorem steady_pauseTask {userId : String} {written : Records}
    (hpause : pauseTask moment userId records = .ok written) :
    Steady records.task written.task := by
  obtain ⟨_, rfl⟩ := pauseTask_eq_ok hpause
  apply Steady.syncBusiness
  unfold pausedTask
  split_ifs
  · constructor <;> simp [AsyncTask.stopConfirmed, AsyncTask.progressDict, Json.truthy]
  · apply Steady.of_progress <;> simp

theorem steady_cancelTask {userId : String} {written : Records}
    (hcancel : cancelTask moment userId records = .ok written) :
    Steady records.task written.task := by
  cases cancelTask_eq_ok hcancel with
  | inl hsame => exact hsame ▸ .refl _
  | inr hcancelled =>
      obtain ⟨_, rfl⟩ := hcancelled
      apply Steady.syncBusiness
      apply Steady.of_progress <;> simp [cancelledTask]

theorem steady_publishFailed (mirrored : Bool) :
    Steady records.task (publishFailed moment mirrored records).task := by
  have hsteady : Steady records.task (unpublishedTask moment.now records.task) := by
    apply Steady.of_progress <;> simp [unpublishedTask]
  unfold publishFailed
  split_ifs
  · have hrecords : Steady records.task
        { records with task := unpublishedTask moment.now records.task }.task := hsteady
    exact hrecords.syncBusiness moment
  · exact hsteady
  · exact .refl _

theorem steady_resumePublishFailed (celeryTaskId : Generation) :
    Steady records.task (resumePublishFailed moment celeryTaskId records).task := by
  unfold resumePublishFailed
  split_ifs
  · exact steady_publishFailed moment true
  · exact .refl _

theorem steady_syncCeleryState (hbusiness : records.task.taskType.business = true)
    (manager : Manager) (generation : Generation) (result : CeleryResult) :
    Steady records.task (syncCeleryState moment manager generation result records).task := by
  unfold syncCeleryState
  dsimp only
  split
  · exact .refl _
  · split
    · exact steady_updateTaskStatus moment manager _ (by decide)
    · exact steady_updateTaskStatus moment manager _ (by decide)
    · exact .refl _

theorem steady_budgetPause : Steady records.task (budgetPause records).task := by
  unfold budgetPause
  split_ifs
  · apply Steady.of_progress <;> simp
  · exact .refl _
  · exact .refl _

theorem steady_recordAbTestFailure (taskId : Generation) (exception : String)
    (lostAttempt : Option String) :
    Steady records.task
      (recordAbTestFailure moment taskId exception lostAttempt records).task := by
  unfold recordAbTestFailure
  dsimp only
  split_ifs
  · apply Steady.syncBusiness
    apply Steady.of_progress <;> simp
  · exact .refl _

end Operations

theorem confirmStopped_celeryTaskId (manager : Manager) (records : Records) :
    (confirmStopped manager records).task.celeryTaskId = records.task.celeryTaskId := by
  unfold confirmStopped
  split_ifs <;> rfl

theorem steady_committed {records : Records} {result : Except String Records}
    (hresult : ∀ written, result = .ok written → Steady records.task written.task) :
    Steady records.task (committed records result).task := by
  cases result with
  | ok written => exact hresult written rfl
  | error message => exact .refl _

theorem steady_reported {records : Records} {transaction : Transaction}
    (hbusiness : records.task.taskType.business = true) (hreported : transaction.reported = true)
    (moment : Moment) : Steady records.task (transaction.apply moment records).task := by
  cases transaction with
  | claimTask manager celeryTaskId attempt => cases hreported
  | confirmStopped manager => cases hreported
  | resumeTask admission celeryTaskId userId => cases hreported
  | updateTaskProgress manager progress status =>
      simp only [Transaction.reported, Bool.and_eq_true, decide_eq_true_eq] at hreported
      exact steady_updateTaskProgress moment manager hreported.1 hreported.2
  | updateTaskStatus manager status errorMessage =>
      exact steady_updateTaskStatus moment manager errorMessage (of_decide_eq_true hreported)
  | pauseTask userId => exact steady_committed fun _ => steady_pauseTask moment
  | cancelTask userId => exact steady_committed fun _ => steady_cancelTask moment
  | syncCeleryState manager generation result =>
      exact steady_syncCeleryState moment hbusiness manager generation result
  | enqueueFailed => exact steady_publishFailed moment _
  | resumePublishFailed celeryTaskId => exact steady_resumePublishFailed moment celeryTaskId
  | budgetPause => exact steady_budgetPause
  | recordAbTestFailure taskId exception attempt =>
      exact steady_recordAbTestFailure moment taskId exception attempt
  | writeBusiness business => exact .refl _

/-- The dictionaries callers report are free of the manager's own key. -/
theorem reported_taskProgress (manager : Manager) (current total : ℤ) (currentStep : String) :
    (Transaction.updateTaskProgress manager (taskProgress current total currentStep)
      .running).reported = true := by
  have hkey : "stop_confirmed" ∉ taskProgress current total currentStep := by
    simp [taskProgress, AList.singleton]
  simp [Transaction.reported, hkey]

theorem claimTask_claimed {moment : Moment} {manager : Manager}
    {celeryTaskId : Option Generation} {attempt : String} {records : Records}
    (hclaimed : (claimTask moment manager celeryTaskId attempt records).claimed = true) :
    records.task.status = .pending ∧
      (claimTask moment manager celeryTaskId attempt records).manager.celeryTaskId =
        some records.task.celeryTaskId ∧
      (claimTask moment manager celeryTaskId attempt records).records.task.status = .running ∧
      (claimTask moment manager celeryTaskId attempt records).records.task.stopConfirmed =
        false := by
  unfold claimTask at hclaimed ⊢
  split_ifs at hclaimed ⊢ with hrefused
  · refine ⟨?_, rfl, of_decide_eq_true hclaimed, ?_⟩
    · by_contra hother
      exact hrefused (.inl hother)
    · rw [stopConfirmed_congr (syncBusiness_progress moment _)]
      simp [AsyncTask.stopConfirmed, AsyncTask.progressDict, Json.truthy]

/-! ## The invariant -/

namespace System

/-- The row and the claims agree: a generation is claimed once and never
pending again, and while a claimed worker has not confirmed that it stopped, it
is the only one, the row keeps its generation and is not confirmed stopped,
unless the task has ended. -/
structure Invariant (system : System) : Prop where
  business : system.records.task.taskType.business = true
  current : system.records.task.celeryTaskId < system.issued
  issued : ∀ worker, (system.workers worker).claimed = true →
    ∃ generation < system.issued,
      (system.workers worker).manager.celeryTaskId = some generation
  unique : ∀ worker other, (system.workers worker).claimed = true →
    (system.workers other).claimed = true →
    (system.workers worker).manager.celeryTaskId = (system.workers other).manager.celeryTaskId →
    worker = other
  notPending : ∀ worker, (system.workers worker).claimed = true →
    (system.workers worker).manager.celeryTaskId = some system.records.task.celeryTaskId →
    system.records.task.status ≠ .pending
  unconfirmed : ∀ worker, (system.workers worker).claimed = true →
    (system.workers worker).confirmed = false →
    system.records.task.status.terminal = false →
    (system.workers worker).manager.celeryTaskId = some system.records.task.celeryTaskId ∧
      system.records.task.stopConfirmed = false
  single : ∀ worker other, (system.workers worker).claimed = true →
    (system.workers other).claimed = true → (system.workers worker).confirmed = false →
    (system.workers other).confirmed = false → worker = other

theorem Queued.invariant {system : System} (hqueued : system.Queued) : system.Invariant := by
  have hfree : ∀ worker, (system.workers worker).claimed ≠ true := by
    simp [hqueued.workers]
  exact
    { business := hqueued.business
      current := hqueued.issued
      issued := fun worker hclaimed => absurd hclaimed (hfree worker)
      unique := fun worker _ hclaimed => absurd hclaimed (hfree worker)
      notPending := fun worker hclaimed => absurd hclaimed (hfree worker)
      unconfirmed := fun worker hclaimed => absurd hclaimed (hfree worker)
      single := fun worker _ hclaimed => absurd hclaimed (hfree worker) }

/-- A transaction that leaves the claims intact. -/
theorem Invariant.write {system : System} (hinv : system.Invariant) {records : Records}
    (hsteady : Steady system.records.task records.task)
    (hsettled : Settled system.records.task records.task) :
    Invariant { system with records := records } where
  business := by
    rw [show records.task.taskType = system.records.task.taskType from hsettled.taskType]
    exact hinv.business
  current := by
    rw [show records.task.celeryTaskId = _ from hsteady.celeryTaskId]
    exact hinv.current
  issued := hinv.issued
  unique := hinv.unique
  notPending := by
    intro worker hclaimed hcurrent hpending
    dsimp only at hclaimed hcurrent
    rw [hsteady.celeryTaskId] at hcurrent
    exact hinv.notPending worker hclaimed hcurrent (hsteady.pending hpending)
  unconfirmed := by
    intro worker hclaimed hconfirmed hopen
    have hwasOpen : system.records.task.status.terminal = false := by
      by_contra hended
      rw [Bool.not_eq_false] at hended
      rw [show records.task.status = _ from hsettled.absorbing hended, hended] at hopen
      cases hopen
    have hbefore := hinv.unconfirmed worker hclaimed hconfirmed hwasOpen
    refine ⟨hbefore.1.trans (congrArg some hsteady.celeryTaskId.symm), ?_⟩
    by_contra hstopped
    rw [Bool.not_eq_false] at hstopped
    have hearlier := hsteady.stopConfirmed hstopped
    rw [hbefore.2] at hearlier
    cases hearlier
  single := hinv.single

/-- A change of one worker that neither gains nor loses a claim, nor takes a
confirmation back. -/
theorem Invariant.setWorker {system : System} (hinv : system.Invariant) {worker : ℕ}
    {state : Worker} (hclaimed : state.claimed = (system.workers worker).claimed)
    (hsame : state.claimed = true → state.manager = (system.workers worker).manager ∧
      (state.confirmed = false → (system.workers worker).confirmed = false)) :
    (system.setWorker worker state).Invariant := by
  have hworker : ∀ other, ((system.setWorker worker state).workers other).claimed = true →
      (system.workers other).claimed = true ∧
      ((system.setWorker worker state).workers other).manager =
        (system.workers other).manager ∧
      (((system.setWorker worker state).workers other).confirmed = false →
        (system.workers other).confirmed = false) := by
    intro other hother
    by_cases heq : other = worker
    · subst heq
      rw [setWorker_self] at hother ⊢
      exact ⟨hclaimed ▸ hother, hsame hother⟩
    · rw [setWorker_of_ne heq] at hother ⊢
      exact ⟨hother, rfl, id⟩
  constructor
  · exact hinv.business
  · exact hinv.current
  · intro other hother
    obtain ⟨hother, hmanager, _⟩ := hworker other hother
    rw [hmanager]
    exact hinv.issued other hother
  · intro first second hfirst hsecond hmanagers
    obtain ⟨hfirst, hfirstManager, _⟩ := hworker first hfirst
    obtain ⟨hsecond, hsecondManager, _⟩ := hworker second hsecond
    rw [hfirstManager, hsecondManager] at hmanagers
    exact hinv.unique first second hfirst hsecond hmanagers
  · intro other hother hcurrent
    obtain ⟨hother, hmanager, _⟩ := hworker other hother
    rw [hmanager] at hcurrent
    exact hinv.notPending other hother hcurrent
  · intro other hother hconfirmed hopen
    obtain ⟨hother, hmanager, hwasOpen⟩ := hworker other hother
    rw [hmanager]
    exact hinv.unconfirmed other hother (hwasOpen hconfirmed) hopen
  · intro first second hfirst hsecond hfirstOpen hsecondOpen
    obtain ⟨hfirst, _, hfirstWasOpen⟩ := hworker first hfirst
    obtain ⟨hsecond, _, hsecondWasOpen⟩ := hworker second hsecond
    exact hinv.single first second hfirst hsecond (hfirstWasOpen hfirstOpen)
      (hsecondWasOpen hsecondOpen)

/-- Once every claim is confirmed stopped, the row may be confirmed and moved to
a new generation. -/
theorem Invariant.of_confirmed {system : System} (hinv : system.Invariant)
    (hconfirmed : ∀ worker, (system.workers worker).claimed = true →
      (system.workers worker).confirmed = true) {records : Records} {issued : Generation}
    (htype : records.task.taskType = system.records.task.taskType)
    (hissued : system.issued ≤ issued) (hcurrent : records.task.celeryTaskId < issued)
    (hnotPending : ∀ worker, (system.workers worker).claimed = true →
      (system.workers worker).manager.celeryTaskId = some records.task.celeryTaskId →
      records.task.status ≠ .pending) :
    Invariant { system with records := records, issued := issued } where
  business := by
    rw [htype]
    exact hinv.business
  current := hcurrent
  issued := by
    intro worker hclaimed
    obtain ⟨generation, hearlier, hmanager⟩ := hinv.issued worker hclaimed
    exact ⟨generation, Nat.lt_of_lt_of_le hearlier hissued, hmanager⟩
  unique := hinv.unique
  notPending := hnotPending
  unconfirmed := by
    intro worker hclaimed hopen
    cases (hconfirmed worker hclaimed).symm.trans hopen
  single := by
    intro worker _ hclaimed _ hopen
    cases (hconfirmed worker hclaimed).symm.trans hopen

/-- While the row is pending, nobody holds a claim of its generation and nobody
is still to confirm. -/
theorem Invariant.confirmed_of_pending {system : System} (hinv : system.Invariant)
    (hpending : system.records.task.status = .pending) {worker : ℕ}
    (hclaimed : (system.workers worker).claimed = true) :
    (system.workers worker).manager.celeryTaskId ≠ some system.records.task.celeryTaskId ∧
      (system.workers worker).confirmed = true := by
  have hother : (system.workers worker).manager.celeryTaskId ≠
      some system.records.task.celeryTaskId :=
    fun hcurrent => hinv.notPending worker hclaimed hcurrent hpending
  refine ⟨hother, ?_⟩
  by_contra hconfirmed
  rw [Bool.not_eq_true] at hconfirmed
  exact hother (hinv.unconfirmed worker hclaimed hconfirmed (by rw [hpending]; rfl)).1

theorem Invariant.claim {system : System} (hinv : system.Invariant) {records : Records}
    {worker : ℕ} {state : Worker} (hpending : system.records.task.status = .pending)
    (hsteady : Steady system.records.task records.task)
    (hsettled : Settled system.records.task records.task)
    (hrunning : records.task.status = .running) (hstopped : records.task.stopConfirmed = false)
    (hmanager : state.manager.celeryTaskId = some system.records.task.celeryTaskId) :
    ({ system with records := records }.setWorker worker state).Invariant := by
  have hwritten := hinv.write hsteady hsettled
  have hothers : ∀ other, other ≠ worker → (system.workers other).claimed = true →
      (system.workers other).manager.celeryTaskId ≠ state.manager.celeryTaskId ∧
        (system.workers other).confirmed = true := by
    intro other _ hclaimed
    have hconfirmed := hinv.confirmed_of_pending hpending hclaimed
    exact ⟨hmanager ▸ hconfirmed.1, hconfirmed.2⟩
  constructor
  · exact hwritten.business
  · exact hwritten.current
  · intro other hclaimed
    by_cases heq : other = worker
    · subst heq
      rw [setWorker_self]
      exact ⟨_, hinv.current, hmanager⟩
    · rw [setWorker_of_ne heq] at hclaimed ⊢
      exact hinv.issued other hclaimed
  · intro first second hfirst hsecond hmanagers
    by_cases hfirstEq : first = worker <;> by_cases hsecondEq : second = worker
    · exact hfirstEq.trans hsecondEq.symm
    · rw [hfirstEq, setWorker_self, setWorker_of_ne hsecondEq] at hmanagers
      rw [setWorker_of_ne hsecondEq] at hsecond
      exact absurd hmanagers.symm (hothers second hsecondEq hsecond).1
    · rw [hsecondEq, setWorker_self, setWorker_of_ne hfirstEq] at hmanagers
      rw [setWorker_of_ne hfirstEq] at hfirst
      exact absurd hmanagers (hothers first hfirstEq hfirst).1
    · rw [setWorker_of_ne hfirstEq] at hfirst hmanagers
      rw [setWorker_of_ne hsecondEq] at hsecond hmanagers
      exact hinv.unique first second hfirst hsecond hmanagers
  · intro _ _ _ hstillPending
    cases hrunning.symm.trans hstillPending
  · intro other hclaimed hconfirmed _
    by_cases heq : other = worker
    · subst heq
      rw [setWorker_self]
      exact ⟨hmanager.trans (congrArg some hsteady.celeryTaskId.symm), hstopped⟩
    · rw [setWorker_of_ne heq] at hclaimed hconfirmed
      rw [(hothers other heq hclaimed).2] at hconfirmed
      cases hconfirmed
  · intro first second hfirst hsecond hfirstOpen hsecondOpen
    have honly : ∀ other,
        (({ system with records := records }.setWorker worker state).workers other).claimed =
          true →
        (({ system with records := records }.setWorker worker state).workers other).confirmed =
          false → other = worker := by
      intro other hclaimed hopen
      by_contra heq
      rw [setWorker_of_ne heq] at hclaimed hopen
      rw [(hothers other heq hclaimed).2] at hopen
      cases hopen
    rw [honly first hfirst hfirstOpen, honly second hsecond hsecondOpen]

theorem Invariant.confirm {system : System} (hinv : system.Invariant) {worker : ℕ}
    (hclaimed : (system.workers worker).claimed = true) :
    ({ system with
      records := confirmStopped (system.workers worker).manager system.records }.setWorker worker
        { system.workers worker with confirmed := true }).Invariant := by
  have hmarked : (system.setWorker worker
      { system.workers worker with confirmed := true }).Invariant :=
    hinv.setWorker rfl fun _ => ⟨rfl, nofun⟩
  unfold confirmStopped
  split_ifs with hpaused
  · -- Nobody else is still to confirm: it would hold the same generation.
    apply hmarked.of_confirmed
    · intro other hother
      by_cases heq : other = worker
      · rw [heq, setWorker_self]
      · rw [setWorker_of_ne heq] at hother ⊢
        by_contra hopen
        rw [Bool.not_eq_true] at hopen
        have hcurrent := (hinv.unconfirmed other hother hopen (by rw [hpaused.1]; rfl)).1
        exact heq (hinv.unique other worker hother hclaimed (hcurrent.trans hpaused.2))
    · rfl
    · exact Nat.le_refl _
    · exact hinv.current
    · intro _ _ _ hpending
      cases hpaused.1.symm.trans hpending
  · exact hmarked

/-- A resume is granted only when every claim is confirmed stopped. -/
theorem Invariant.confirmed_of_resume {system : System} (hinv : system.Invariant)
    {moment : Moment} {admission : Admission} {celeryTaskId : Generation} {userId : String}
    {written : Records}
    (hresume : resumeTask moment admission celeryTaskId userId system.records = .ok written)
    {worker : ℕ} (hclaimed : (system.workers worker).claimed = true) :
    (system.workers worker).confirmed = true := by
  obtain ⟨hpaused, _, _, hstopped, _⟩ := resumeTask_eq_ok hresume
  by_contra hopen
  rw [Bool.not_eq_true] at hopen
  have hrunning := hinv.unconfirmed worker hclaimed hopen (by rw [hpaused]; rfl)
  cases hrunning.2.symm.trans (hstopped hinv.business)

theorem Invariant.resume {system : System} (hinv : system.Invariant) {moment : Moment}
    {admission : Admission} {userId : String} {written : Records}
    (hresume : resumeTask moment admission system.issued userId system.records = .ok written) :
    Invariant { system with records := written, issued := system.issued + 1 } := by
  have hgeneration : written.task.celeryTaskId = system.issued := by
    obtain ⟨_, _, _, _, rfl⟩ := resumeTask_eq_ok hresume
    exact syncBusiness_celeryTaskId moment _
  apply hinv.of_confirmed
  · exact fun _ hclaimed => hinv.confirmed_of_resume hresume hclaimed
  · exact (settled_resumeTask moment hresume).taskType
  · exact Nat.le_succ _
  · rw [hgeneration]
    exact Nat.lt_succ_self _
  · intro worker hclaimed hcurrent
    obtain ⟨generation, hearlier, hmanager⟩ := hinv.issued worker hclaimed
    rw [hgeneration, hmanager] at hcurrent
    cases hcurrent
    exact absurd hearlier (Nat.lt_irrefl _)

theorem Invariant.transaction {system : System} (hinv : system.Invariant)
    {transaction : Transaction} (hreported : transaction.reported = true) (moment : Moment) :
    Invariant { system with records := transaction.apply moment system.records } := by
  have hguarded : transaction.guarded system.records.task = true := by
    cases transaction <;> simp [Transaction.guarded, guarded, hinv.business]
  have hstep : lifecycleStep system.records (moment, transaction) =
      some (transaction.apply moment system.records) := if_pos hguarded
  exact hinv.write (steady_reported hinv.business hreported moment) (settled_step hstep)

theorem invariant_preserved : Preserved step Invariant := by
  rintro system ⟨moment, action⟩ next hinv hstep
  cases action with
  | deliver worker requestId =>
      simp only [step] at hstep
      split_ifs at hstep with hclaimed
      obtain rfl := Option.some.inj hstep
      rw [Bool.not_eq_true] at hclaimed
      exact hinv.setWorker hclaimed.symm nofun
  | claim worker attempt =>
      simp only [step] at hstep
      split_ifs at hstep with hclaimed
      obtain rfl := Option.some.inj hstep
      rw [Bool.not_eq_true] at hclaimed
      have hsteady : Steady system.records.task _ := steady_claimTask moment
        (system.workers worker).manager (system.workers worker).manager.celeryTaskId attempt
      have hsettled : Settled system.records.task _ := settled_claimTask moment
        (system.workers worker).manager (system.workers worker).manager.celeryTaskId attempt
      cases hresult : (claimTask moment (system.workers worker).manager
          (system.workers worker).manager.celeryTaskId attempt system.records).claimed with
      | false =>
          exact (hinv.write hsteady hsettled).setWorker hclaimed.symm nofun
      | true =>
          obtain ⟨hpending, hmanager, hrunning, hstopped⟩ := claimTask_claimed hresult
          exact hinv.claim hpending hsteady hsettled hrunning hstopped hmanager
  | progress worker progress status =>
      simp only [step] at hstep
      split_ifs at hstep with hreported
      obtain rfl := Option.some.inj hstep
      exact hinv.transaction hreported moment
  | report worker status errorMessage =>
      simp only [step] at hstep
      split_ifs at hstep with hreported
      obtain rfl := Option.some.inj hstep
      exact (hinv.transaction hreported moment).setWorker rfl fun _ => ⟨rfl, id⟩
  | confirm worker =>
      simp only [step] at hstep
      split_ifs at hstep with hclaimed
      obtain rfl := Option.some.inj hstep
      exact hinv.confirm hclaimed
  | resume admission userId =>
      simp only [step] at hstep
      split at hstep
      · next hresume =>
          obtain rfl := Option.some.inj hstep
          exact hinv.resume hresume
      · obtain rfl := Option.some.inj hstep
        exact hinv
  | other transaction =>
      simp only [step] at hstep
      split_ifs at hstep with hreported
      obtain rfl := Option.some.inj hstep
      exact hinv.transaction hreported moment

/-- Only a granted resume gives the task a new generation. -/
theorem step_celeryTaskId {system next : System} {moment : Moment} {action : Action}
    (hinv : system.Invariant) (hstep : system.step (moment, action) = some next)
    (hnew : next.records.task.celeryTaskId ≠ system.records.task.celeryTaskId) :
    ∃ admission userId written,
      resumeTask moment admission system.issued userId system.records = .ok written := by
  cases action with
  | deliver worker requestId =>
      simp only [step] at hstep
      split_ifs at hstep
      cases hstep
      exact absurd rfl hnew
  | claim worker attempt =>
      simp only [step] at hstep
      split_ifs at hstep
      cases hstep
      exact absurd (steady_claimTask moment _ _ attempt).celeryTaskId hnew
  | progress worker progress status =>
      simp only [step] at hstep
      split_ifs at hstep with hreported
      cases hstep
      exact absurd (steady_reported hinv.business hreported moment).celeryTaskId hnew
  | report worker status errorMessage =>
      simp only [step] at hstep
      split_ifs at hstep with hreported
      cases hstep
      exact absurd (steady_reported hinv.business hreported moment).celeryTaskId hnew
  | confirm worker =>
      simp only [step] at hstep
      split_ifs at hstep
      cases hstep
      exact absurd (confirmStopped_celeryTaskId _ _) hnew
  | resume admission userId =>
      simp only [step] at hstep
      split at hstep
      · next written hresume => exact ⟨admission, userId, written, hresume⟩
      · cases hstep
        exact absurd rfl hnew
  | other transaction =>
      simp only [step] at hstep
      split_ifs at hstep with hreported
      cases hstep
      exact absurd (steady_reported hinv.business hreported moment).celeryTaskId hnew

/-- At most one worker executes a business task at a time, whatever messages are
delivered and however the transactions interleave, and a task gets a new
generation only when every execution ever claimed has confirmed that it
stopped. -/
theorem at_most_one_executing {initial system : System} (hqueued : initial.Queued)
    (hreach : Reachable step initial system) :
    (∀ worker other, system.executing worker = true → system.executing other = true →
      worker = other) ∧
      ∀ label next, system.step label = some next →
        next.records.task.celeryTaskId ≠ system.records.task.celeryTaskId →
        ∀ worker, (system.workers worker).claimed = true →
          (system.workers worker).confirmed = true := by
  have hinv := invariant_preserved.reachable hqueued.invariant hreach
  constructor
  · intro worker other hworker hother
    simp only [executing, Bool.and_eq_true, Bool.not_eq_true'] at hworker hother
    exact hinv.single worker other hworker.1.1 hother.1.1 hworker.2 hother.2
  · intro label next hstep hnew worker hclaimed
    obtain ⟨admission, userId, written, hresume⟩ := step_celeryTaskId hinv hstep hnew
    exact hinv.confirmed_of_resume hresume hclaimed

/-- Two deliveries of one message: the second claims nothing. -/
theorem at_most_one_executing_redelivered :
    let initial : System :=
      { records :=
          { task := newTask 1 10 .experiment "alice"
            business := { row := some { userId := "alice", status := .pending } } }
        issued := 11 }
    let labels : List (Moment × Action) :=
      [({ now := 5 }, .deliver 0 (some 10)), ({ now := 6 }, .deliver 1 (some 10)),
        ({ now := 7 }, .claim 0 "first"), ({ now := 8 }, .claim 1 "again")]
    ∃ system, run step initial labels = some system ∧ system.executing 0 = true ∧
      ∀ worker, system.executing worker = true → worker = 0 := by
  intro initial labels
  have hqueued : initial.Queued := ⟨rfl, rfl, by decide, fun _ => rfl⟩
  refine ⟨_, rfl, rfl, fun worker hworker => ?_⟩
  exact (at_most_one_executing hqueued ⟨labels, rfl⟩).1 worker 0 hworker rfl

end System

end AlgorithmHarness.TaskManager
