import AlgorithmHarness.TaskManager.Terminal
import Mathlib.Data.List.Basic

/-!
# The cap on active evaluations

All task rows of the database, with every submission and every transaction on
one of them.  The advisory lock of `_check_evaluation_capacity` is held until
the commit, so the count a submission has seen is the count it commits to.
-/

namespace AlgorithmHarness.TaskManager

open Transition

/-- `status in ("pending", "running")`. -/
def Status.active : Status → Bool
  | .pending | .running => true
  | .paused | .completed | .failed | .cancelled => false

/-- The rows that count against the user's limit. -/
def holdsSlot (userId : String) (records : Records) : Bool :=
  records.task.taskType = .evaluation && records.task.userId = userId &&
    records.task.status.active

structure Population where
  tasks : List Records := []

/-- `limit` is `MAX_CONCURRENT_EVALUATIONS_PER_USER`. -/
inductive Submission where
  /-- `create_task` or `enqueue_task`, up to the commit of the new row. -/
  | enqueue (celeryTaskId : Generation) (taskType : TaskType) (userId : String)
      (business : Business)
  | resume (position : ℕ) (executionFree : Bool) (celeryTaskId : Generation) (userId : String)
  /-- Any other transaction on a row. -/
  | transact (position : ℕ) (transaction : Transaction)

namespace Population

def activeCount (population : Population) (userId : String) : ℕ :=
  population.tasks.countP (holdsSlot userId)

/-- `_check_evaluation_capacity`. -/
def hasCapacity (limit : ℕ) (population : Population) (taskType : TaskType)
    (userId : String) : Bool :=
  taskType ≠ .evaluation || population.activeCount userId < limit

def setTask (population : Population) (position : ℕ) (records : Records) : Population :=
  { population with tasks := population.tasks.set position records }

def step (limit : ℕ) (population : Population) : Moment × Submission → Option Population
  | (_, .enqueue celeryTaskId taskType userId business) =>
      if population.hasCapacity limit taskType userId then
        let task := newTask population.tasks.length celeryTaskId taskType userId
        some { population with
          tasks := population.tasks ++ [{ task := task, business := business }] }
      else some population
  | (moment, .resume position executionFree celeryTaskId userId) =>
      (population.tasks[position]?).map fun records =>
        let admission : Admission :=
          { capacity := population.hasCapacity limit .evaluation userId
            executionFree := executionFree }
        population.setTask position
          (committed records (resumeTask moment admission celeryTaskId userId records))
  | (moment, .transact position transaction) =>
      match transaction with
      | .resumeTask _ _ _ => none
      | transaction =>
          (population.tasks[position]?).bind fun records =>
            (lifecycleStep records (moment, transaction)).map (population.setTask position)

end Population

/-! ## Transactions take no slot -/

theorem syncBusiness_task_of_ne {moment : Moment} {records : Records}
    (htype : records.task.taskType ≠ .importJob) :
    (syncBusiness moment records).task = records.task := by
  cases syncBusiness_task moment records with
  | inl hsame => exact hsame
  | inr hfinished => exact absurd hfinished.1 htype

/-- A write of an evaluation's row gives it no slot. -/
structure Unclaiming (before after : AsyncTask) : Prop where
  userId : after.userId = before.userId
  active : after.status.active = true → before.status.active = true

theorem Unclaiming.refl (task : AsyncTask) : Unclaiming task task := ⟨rfl, id⟩

/-- A report that passes the guard is made to an active row, or cancels. -/
theorem active_of_not_blocked {manager : Manager} {task : AsyncTask} {status : Status}
    (hguarded : guarded task manager = true)
    (hpassed : transitionBlocked manager task status = false) (hactive : status.active = true) :
    task.status.active = true := by
  have hopen := open_of_not_blocked hguarded hpassed
  have hcancelled : status ≠ .cancelled := by
    rintro rfl
    cases hactive
  have hrunning : task.status ≠ .paused := by
    intro hpaused
    unfold guarded at hguarded
    unfold transitionBlocked at hpassed
    split_ifs at hpassed <;> simp_all
  cases hstatus : task.status <;> simp_all [Status.active, Status.terminal]

section Operations

variable {records : Records} (moment : Moment)

/-- Every transaction but a resume leaves the slots of a user as they are, or
frees one. -/
theorem unclaiming_apply (htype : records.task.taskType = .evaluation)
    {transaction : Transaction} (hguarded : transaction.guarded records.task = true)
    (hother : ∀ admission celeryTaskId userId,
      transaction ≠ .resumeTask admission celeryTaskId userId) :
    Unclaiming records.task (transaction.apply moment records).task := by
  have hsync : ∀ task : AsyncTask, task.taskType = records.task.taskType →
      (syncBusiness moment { records with task := task }).task = task := by
    intro task hsame
    apply syncBusiness_task_of_ne
    rw [show ({ records with task := task } : Records).task.taskType = _ from hsame, htype]
    decide
  cases transaction with
  | claimTask manager celeryTaskId attempt =>
      simp only [Transaction.apply, claimTask]
      split_ifs with hrefused
      · exact .refl _
      · rw [hsync _ (by simp)]
        refine ⟨by simp, fun _ => ?_⟩
        have hpending : records.task.status = .pending := by
          by_contra hstarted
          exact hrefused (.inl hstarted)
        rw [hpending]
        rfl
  | updateTaskProgress manager progress status =>
      simp only [Transaction.apply, updateTaskProgress]
      split_ifs with hblocked hbusiness
      · exact .refl _
      · simp [htype, TaskType.business] at hbusiness
      · rw [Bool.not_eq_true] at hblocked
        exact ⟨by simp, active_of_not_blocked hguarded hblocked⟩
  | updateTaskStatus manager status errorMessage =>
      simp only [Transaction.apply, updateTaskStatus]
      split_ifs with hblocked
      · exact .refl _
      · rw [Bool.not_eq_true] at hblocked
        rw [hsync _ (by simp)]
        refine ⟨by simp, ?_⟩
        rw [recordExecutionTimes_status]
        exact active_of_not_blocked hguarded hblocked
  | confirmStopped manager =>
      simp only [Transaction.apply, confirmStopped]
      split_ifs
      · exact ⟨rfl, id⟩
      · exact .refl _
  | pauseTask userId =>
      dsimp only [Transaction.apply]
      cases hpause : pauseTask moment userId records with
      | error message => exact .refl _
      | ok written =>
          obtain ⟨_, rfl⟩ := pauseTask_eq_ok hpause
          have hpaused : pausedTask records.task = { records.task with status := .paused } := by
            simp [pausedTask, htype, TaskType.business]
          have hwritten := hsync (pausedTask records.task) (by rw [hpaused])
          rw [committed, hwritten, hpaused]
          exact ⟨rfl, nofun⟩
  | cancelTask userId =>
      dsimp only [Transaction.apply]
      cases hcancel : cancelTask moment userId records with
      | error message => exact .refl _
      | ok written =>
          cases cancelTask_eq_ok hcancel with
          | inl hsame => exact hsame ▸ .refl _
          | inr hcancelled =>
              obtain ⟨_, rfl⟩ := hcancelled
              rw [committed, hsync (cancelledTask moment.now records.task) rfl]
              exact ⟨rfl, nofun⟩
  | resumeTask admission celeryTaskId userId => exact absurd rfl (hother _ _ _)
  | syncCeleryState manager generation result =>
      dsimp only [Transaction.apply, syncCeleryState]
      by_cases hstale : records.task.celeryTaskId ≠ generation ∨
          (records.task.status ≠ .pending ∧ records.task.status ≠ .running)
      · rw [if_pos hstale]
        exact .refl _
      · have hbusiness : ¬ records.task.taskType.business = true := by
          simp [htype, TaskType.business]
        have hactive : records.task.status.active = true := by
          cases hstatus : records.task.status <;> simp_all [Status.active]
        rw [if_neg hstale, if_neg hbusiness]
        cases result.state with
        | started => exact ⟨rfl, fun _ => hactive⟩
        | progress => exact ⟨rfl, fun _ => hactive⟩
        | failure => exact ⟨rfl, nofun⟩
        | pending | success | revoked | retry => exact .refl _
  | enqueueFailed =>
      simp only [Transaction.apply, enqueueFailed, publishFailed]
      split_ifs
      · rw [hsync (unpublishedTask moment.now records.task) rfl]
        exact ⟨rfl, nofun⟩
      · exact ⟨rfl, nofun⟩
      · exact .refl _
  | resumePublishFailed celeryTaskId =>
      simp only [Transaction.apply, resumePublishFailed, publishFailed]
      split_ifs
      · rw [hsync (unpublishedTask moment.now records.task) rfl]
        exact ⟨rfl, nofun⟩
      · exact .refl _
      · exact .refl _
  | budgetPause => simp [Transaction.apply, budgetPause, htype, Unclaiming.refl]
  | recordAbTestFailure taskId exception attempt =>
      simp [Transaction.apply, recordAbTestFailure, htype, Unclaiming.refl]
  | writeBusiness business => exact .refl _

/-- A transaction that is not a resume gives no user a slot. -/
theorem holdsSlot_of_step {label : Moment × Transaction} {next : Records}
    (hstep : lifecycleStep records label = some next)
    (hother : ∀ admission celeryTaskId userId,
      label.2 ≠ .resumeTask admission celeryTaskId userId) {userId : String}
    (hslot : holdsSlot userId next = true) : holdsSlot userId records = true := by
  obtain ⟨moment, transaction⟩ := label
  have htypes := (settled_step hstep).taskType
  unfold lifecycleStep at hstep
  split_ifs at hstep with hguarded
  obtain rfl := Option.some.inj hstep
  simp only [holdsSlot, Bool.and_eq_true, decide_eq_true_eq] at hslot ⊢
  obtain ⟨⟨htype, huser⟩, hactive⟩ := hslot
  have hevaluation := htypes.symm.trans htype
  have hkept := unclaiming_apply moment hevaluation hguarded hother
  exact ⟨⟨hevaluation, hkept.userId.symm.trans huser⟩, hkept.active hactive⟩

end Operations

/-! ## The cap -/

namespace Population

variable {limit : ℕ} {population next : Population} {userId : String}

/-- Every user's evaluations fit into the limit. -/
def WithinCap (limit : ℕ) (population : Population) : Prop :=
  ∀ userId, population.activeCount userId ≤ limit

theorem activeCount_setTask {position : ℕ} {records : Records}
    (hrecords : population.tasks[position]? = some records) (written : Records) :
    (population.setTask position written).activeCount userId =
      population.activeCount userId - (if holdsSlot userId records then 1 else 0) +
        (if holdsSlot userId written then 1 else 0) := by
  obtain ⟨hposition, hget⟩ := List.getElem?_eq_some_iff.mp hrecords
  simp only [activeCount, setTask]
  rw [List.countP_set hposition, hget]

/-- A write that gives the user no slot takes none from the others either. -/
theorem activeCount_setTask_le {position : ℕ} {records written : Records}
    (hrecords : population.tasks[position]? = some records)
    (hslot : holdsSlot userId written = true → holdsSlot userId records = true) :
    (population.setTask position written).activeCount userId ≤ population.activeCount userId := by
  have hcounted : holdsSlot userId records = true → 0 < population.activeCount userId := by
    intro hheld
    exact List.countP_pos_iff.mpr ⟨records, List.mem_of_getElem? hrecords, hheld⟩
  rw [activeCount_setTask hrecords]
  cases hwritten : holdsSlot userId written with
  | false => split_ifs <;> simp_all
  | true =>
      have hheld := hslot hwritten
      have hpositive := hcounted hheld
      simp only [hheld, if_true]
      omega

theorem withinCap_enqueue (hcap : population.WithinCap limit) {taskType : TaskType}
    {owner : String} (hcapacity : population.hasCapacity limit taskType owner = true)
    (celeryTaskId : Generation) (business : Business) :
    WithinCap limit { population with
      tasks := population.tasks ++
        [{ task := newTask population.tasks.length celeryTaskId taskType owner
           business := business }] } := by
  intro userId
  have hbefore := hcap userId
  simp only [activeCount, List.countP_append, List.countP_singleton]
  split_ifs with hslot
  · simp only [holdsSlot, Bool.and_eq_true, decide_eq_true_eq] at hslot
    dsimp only [newTask] at hslot
    obtain ⟨⟨rfl, rfl⟩, _⟩ := hslot
    have hfree : population.activeCount owner < limit := by
      simpa [hasCapacity] using hcapacity
    exact hfree
  · exact hbefore

/-- A resume is granted to the owner, and of an evaluation into a free slot. -/
theorem resumeTask_granted {moment : Moment} {admission : Admission}
    {celeryTaskId : Generation} {records written : Records}
    (hresume : resumeTask moment admission celeryTaskId userId records = .ok written)
    (htype : records.task.taskType = .evaluation) :
    records.task.userId = userId ∧ admission.capacity = true := by
  unfold resumeTask at hresume
  simp only [throw, throwThe, MonadExceptOf.throw, bind, Except.bind, pure, Except.pure,
    htype, if_true] at hresume
  by_cases huser : records.task.userId = userId
  · cases hcapacity : admission.capacity with
    | true => exact ⟨huser, rfl⟩
    | false => simp [huser, hcapacity] at hresume
  · simp [huser] at hresume

/-- A granted resume has seen a free slot of the same user. -/
theorem withinCap_resume (hcap : population.WithinCap limit) {moment : Moment} {position : ℕ}
    {records written : Records} (hrecords : population.tasks[position]? = some records)
    {executionFree : Bool} {celeryTaskId : Generation} {owner : String}
    (hresume : resumeTask moment
      { capacity := population.hasCapacity limit .evaluation owner
        executionFree := executionFree } celeryTaskId owner records = .ok written) :
    (population.setTask position written).WithinCap limit := by
  intro userId
  have hbefore := hcap userId
  rw [activeCount_setTask hrecords]
  by_cases hslot : holdsSlot userId written = true
  · simp only [hslot, if_true]
    have hfree : population.activeCount userId < limit := by
      have htype := (settled_resumeTask moment hresume).taskType
      simp only [holdsSlot, Bool.and_eq_true, decide_eq_true_eq] at hslot
      have hevaluation := htype.symm.trans hslot.1.1
      have hgranted := resumeTask_granted hresume hevaluation
      obtain ⟨_, _, _, _, rfl⟩ := resumeTask_eq_ok hresume
      rw [syncBusiness_task_of_ne (by
        rw [show (resumedTask celeryTaskId records.task).taskType = _ from hevaluation]
        decide)] at hslot
      have hsame : owner = userId := hgranted.1.symm.trans hslot.1.2
      subst hsame
      simpa [hasCapacity] using hgranted.2
    split_ifs <;> omega
  · rw [Bool.not_eq_true] at hslot
    simp only [hslot, Bool.false_eq_true, if_false]
    omega

theorem withinCap_preserved : Preserved (step limit) (WithinCap limit) := by
  intro population label next hcap hstep
  obtain ⟨moment, submission⟩ := label
  cases submission with
  | enqueue celeryTaskId taskType owner business =>
      simp only [step] at hstep
      split_ifs at hstep with hcapacity
      · obtain rfl := Option.some.inj hstep
        exact withinCap_enqueue hcap hcapacity celeryTaskId business
      · obtain rfl := Option.some.inj hstep
        exact hcap
  | resume position executionFree celeryTaskId owner =>
      obtain ⟨records, hrecords, rfl⟩ := Option.map_eq_some_iff.mp hstep
      cases hresume : resumeTask moment
          { capacity := population.hasCapacity limit .evaluation owner
            executionFree := executionFree } celeryTaskId owner records with
      | error message =>
          intro userId
          have hcount : (population.setTask position records).activeCount userId ≤
              population.activeCount userId := activeCount_setTask_le hrecords id
          dsimp only
          rw [hresume]
          exact le_trans hcount (hcap userId)
      | ok written =>
          dsimp only
          rw [hresume]
          exact withinCap_resume hcap hrecords hresume
  | transact position transaction =>
      have hother : ∀ admission celeryTaskId userId,
          transaction ≠ .resumeTask admission celeryTaskId userId := by
        rintro admission celeryTaskId userId rfl
        cases hstep
      have hwritten : (population.tasks[position]?).bind (fun records =>
          (lifecycleStep records (moment, transaction)).map (population.setTask position)) =
          some next := by
        cases transaction with
        | resumeTask admission celeryTaskId userId => exact absurd rfl (hother _ _ _)
        | _ => exact hstep
      obtain ⟨records, hrecords, hmapped⟩ := Option.bind_eq_some_iff.mp hwritten
      obtain ⟨written, htransaction, rfl⟩ := Option.map_eq_some_iff.mp hmapped
      intro userId
      have hslot : holdsSlot userId written = true → holdsSlot userId records = true :=
        holdsSlot_of_step htransaction hother
      exact le_trans (activeCount_setTask_le hrecords hslot) (hcap userId)

/-- However submissions, reports and the operations of the users interleave, no
user has more pending and running evaluations than the limit. -/
theorem activeCount_le_limit
    (hreachable : Reachable (step limit) {} population) (userId : String) :
    population.activeCount userId ≤ limit := by
  have hempty : WithinCap limit {} := fun userId => Nat.zero_le limit
  exact withinCap_preserved.reachable hempty hreachable userId

/-- With a limit of one, a second submission is refused until the first
evaluation has paused, and then takes the slot its resume would need. -/
theorem activeCount_le_limit_paused :
    let row : BusinessRow := { userId := "u", status := .pending, asyncTaskId := some 0 }
    let manager : Manager := { celeryTaskId := some 5 }
    let labels : List (Moment × Submission) :=
      [({ now := 1 }, .enqueue 5 .evaluation "u" { row := some row }),
        ({ now := 2 }, .transact 0 (.claimTask {} (some 5) "a")),
        ({ now := 3 }, .enqueue 6 .evaluation "u" {}),
        ({ now := 4 }, .transact 0 (.pauseTask "u")),
        ({ now := 5 }, .transact 0 (.confirmStopped manager)),
        ({ now := 6 }, .enqueue 7 .evaluation "u" {}),
        ({ now := 7 }, .resume 0 true 8 "u")]
    ∃ population, run (step 1) {} labels = some population ∧
      population.tasks.map (·.task.status) = [.paused, .pending] ∧
      population.activeCount "u" ≤ 1 := by
  intro row manager labels
  refine ⟨_, rfl, by decide, ?_⟩
  exact activeCount_le_limit ⟨labels, rfl⟩ "u"

end Population

end AlgorithmHarness.TaskManager
