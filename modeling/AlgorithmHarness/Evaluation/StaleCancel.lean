import AlgorithmHarness.Evaluation.Recovery

/-!
# Cancelling a superseded task

`resume_evaluation` leaves the old task of the evaluation paused or failed.  A
later `cancel_task` on it finds the rows guarded by their link; the checkpoint
is keyed by the evaluation alone.
-/

namespace AlgorithmHarness.EvaluationWorker

open Transition
open TaskManager
open TaskService (TaskRecord TaskState)

/-! ## The link moves on -/

namespace System

variable {redact : JsonDict → JsonDict} {system next : System} {moment : Moment}

/-- A report keeps the link of the evaluation. -/
theorem report_asyncTaskId {rows : Rows} (htype : rows.task.taskType = .evaluation)
    (moment : Moment) (generation : Generation) {status : Status} (errorMessage : Option String)
    (hstatus : status ≠ .pending) :
    (rows.report moment generation status errorMessage).evaluation.row.asyncTaskId =
      rows.evaluation.row.asyncTaskId :=
  (managed_report moment htype generation status errorMessage hstatus).asyncTaskId

theorem finish_asyncTaskId {rows : Rows} (htype : rows.task.taskType = .evaluation)
    (moment : Moment) (generation : Generation) (state : TaskState) (error : Option String) :
    (EvaluationWorker.finish moment generation state error rows).1.evaluation.row.asyncTaskId =
      rows.evaluation.row.asyncTaskId := by
  unfold EvaluationWorker.finish
  split_ifs
  · rfl
  · rfl
  · rfl
  · cases state with
    | completed => exact report_asyncTaskId htype moment generation _ nofun
    | paused => exact report_asyncTaskId htype moment generation _ nofun
    | failed => exact report_asyncTaskId htype moment generation _ nofun
    | cancelled => exact report_asyncTaskId htype moment generation _ nofun
    | queued => rfl
    | running => rfl

theorem fail_asyncTaskId {rows : Rows} (htype : rows.task.taskType = .evaluation)
    (moment : Moment) (generation : Generation) (message : String) :
    (EvaluationWorker.fail moment generation message rows).1.evaluation.row.asyncTaskId =
      rows.evaluation.row.asyncTaskId := by
  unfold EvaluationWorker.fail
  split_ifs
  · rfl
  · exact report_asyncTaskId htype moment generation _ nofun

/-- The step creates no task and leaves the link alone. -/
structure KeepsLink (system next : System) : Prop where
  asyncTaskId : next.evaluation.row.asyncTaskId = system.evaluation.row.asyncTaskId
  nextTask : next.nextTask = system.nextTask

theorem keepsLink_workerStep (hinv : system.Invariant) {executor : Executor} {action : Action}
    (hstep : workerStep redact system executor moment action = some next) :
    KeepsLink system next := by
  cases action with
  | readEvaluation =>
      simp only [workerStep] at hstep
      split at hstep
      · split at hstep <;> cases hstep <;> exact ⟨rfl, rfl⟩
      · cases hstep
  | readTask =>
      simp only [workerStep] at hstep
      split at hstep
      · split at hstep
        · cases hstep
          exact ⟨rfl, rfl⟩
        · split at hstep <;> cases hstep <;> exact ⟨rfl, rfl⟩
      · cases hstep
  | markCancelled =>
      simp only [workerStep] at hstep
      split at hstep <;> cases hstep
      exact ⟨rfl, rfl⟩
  | start =>
      simp only [workerStep] at hstep
      split at hstep
      · obtain ⟨row, hrow, hstep⟩ := Option.bind_eq_some_iff.mp hstep
        split at hstep
        · cases hstep
          exact ⟨rfl, rfl⟩
        · next rows hstart =>
            cases hstep
            unfold EvaluationWorker.start at hstart
            split_ifs at hstart
            cases hstart
            exact ⟨report_asyncTaskId (hinv.known _ row hrow).2.1 moment _ none nofun, rfl⟩
      · cases hstep
  | reportProgress progress =>
      simp only [workerStep] at hstep
      split at hstep
      · obtain ⟨row, _, rfl⟩ := Option.map_eq_some_iff.mp hstep
        exact ⟨rfl, rfl⟩
      · cases hstep
  | unitFinished record unit =>
      simp only [workerStep] at hstep
      split at hstep
      · obtain ⟨row, _, rfl⟩ := Option.map_eq_some_iff.mp hstep
        split
        · next evaluation hdelivery =>
            cases onUnitFinished_ok hdelivery with
            | inl hstale => exact ⟨congrArg (·.row.asyncTaskId) hstale.2, rfl⟩
            | inr hrecorded =>
                obtain ⟨_, _, _, _, _, _, _, _, hrow⟩ := hrecorded
                exact ⟨congrArg (·.asyncTaskId) hrow, rfl⟩
        · exact ⟨rfl, rfl⟩
      · cases hstep
  | finish state error =>
      simp only [workerStep] at hstep
      split at hstep
      · obtain ⟨row, hrow, rfl⟩ := Option.map_eq_some_iff.mp hstep
        exact ⟨finish_asyncTaskId (hinv.known _ row hrow).2.1 moment _ state error, rfl⟩
      · cases hstep
  | fail message =>
      simp only [workerStep] at hstep
      split at hstep
      · obtain ⟨row, hrow, rfl⟩ := Option.map_eq_some_iff.mp hstep
        exact ⟨fail_asyncTaskId (hinv.known _ row hrow).2.1 moment _ message, rfl⟩
      · obtain ⟨row, hrow, rfl⟩ := Option.map_eq_some_iff.mp hstep
        exact ⟨fail_asyncTaskId (hinv.known _ row hrow).2.1 moment _ message, rfl⟩
      · cases hstep
  | settle =>
      simp only [workerStep] at hstep
      split at hstep
      · cases hstep
        exact ⟨(settle_row _ _ _).2.1, rfl⟩
      · cases hstep
  | release =>
      cases hstep
      exact ⟨rfl, rfl⟩
  | _ => cases hstep

/-- The API links only a task that is new. -/
theorem link_userStep (hinv : system.Invariant) {action : Action}
    (hstep : system.userStep moment action = some next) :
    KeepsLink system next ∨
      (next.evaluation.row.asyncTaskId = some system.nextTask ∧
        next.nextTask = system.nextTask + 1) := by
  cases action with
  | manage task transaction =>
      simp only [userStep] at hstep
      split_ifs at hstep with huser
      obtain ⟨row, hrow, rfl⟩ := Option.map_eq_some_iff.mp hstep
      have hmanaged : Managed { task := row, evaluation := system.evaluation } _ :=
        managed_userTransaction moment (hinv.known task row hrow).2.1 huser
      exact .inl ⟨hmanaged.asyncTaskId, rfl⟩
  | resumeTask task capacity userId =>
      simp only [userStep] at hstep
      obtain ⟨row, hrow, rfl⟩ := Option.map_eq_some_iff.mp hstep
      left
      split
      · next written hresume =>
          obtain ⟨_, _, _, _, rfl⟩ := resumeTask_eq_ok hresume
          have htype := (hinv.known task row hrow).2.1
          refine ⟨?_, rfl⟩
          have hresumed : (resumedTask system.issued row).taskType = .evaluation := htype
          have hsynced := syncBusiness_evaluation moment system.evaluation.row hresumed
          dsimp only [Rows.records, System.write, Rows.commit]
          rw [hsynced]
          dsimp only [Option.getD_some]
          split_ifs <;> rfl
      · exact ⟨rfl, rfl⟩
  | checkResume userId =>
      simp only [userStep] at hstep
      split at hstep
      · split_ifs at hstep
        cases hstep
        exact .inl ⟨rfl, rfl⟩
      · cases hstep
  | linkResume userId =>
      simp only [userStep] at hstep
      split at hstep
      · split_ifs at hstep
        cases hstep
        exact .inr ⟨rfl, rfl⟩
      · cases hstep
  | startEvaluation userId =>
      simp only [userStep] at hstep
      split at hstep
      · split_ifs at hstep
        cases hstep
        exact .inr ⟨rfl, rfl⟩
      · cases hstep
  | abandonResume =>
      cases hstep
      exact .inl ⟨rfl, rfl⟩
  | cancelEvaluation =>
      cases hstep
      exact .inl ⟨rfl, rfl⟩
  | recoverInterrupted =>
      simp only [userStep] at hstep
      split_ifs at hstep
      cases hstep
      exact .inl ⟨rfl, rfl⟩
  | _ => cases hstep

/-- An earlier task of the evaluation. -/
def Superseded (system : System) (task : ℕ) : Prop :=
  task < system.nextTask ∧ system.evaluation.row.asyncTaskId ≠ some task

theorem Superseded.of_row (hinv : system.Invariant) {task : ℕ} {row : AsyncTask}
    (hrow : system.tasks task = some row)
    (hlink : system.evaluation.row.asyncTaskId ≠ some task) : system.Superseded task := by
  refine ⟨?_, hlink⟩
  by_contra hlater
  cases hrow.symm.trans (hinv.fresh task (Nat.le_of_not_lt hlater))

theorem Superseded.congr {task : ℕ} (hsuperseded : system.Superseded task)
    (hkept : KeepsLink system next) : next.Superseded task := by
  unfold Superseded
  rw [hkept.nextTask, hkept.asyncTaskId]
  exact hsuperseded

/-- The evaluation never returns to an earlier task. -/
theorem Superseded.step {task : ℕ} {action : Action} (hsuperseded : system.Superseded task)
    (hinv : system.Invariant) (hstep : system.step redact (moment, action) = some next) :
    next.Superseded task := by
  obtain ⟨generation, _, _, rfl⟩ | ⟨_, executor, _, hworker⟩ | huser := step_cases hstep
  · exact hsuperseded
  · exact hsuperseded.congr (keepsLink_workerStep hinv hworker)
  · cases link_userStep hinv huser with
    | inl hkept => exact hsuperseded.congr hkept
    | inr hlinked =>
        obtain ⟨hlink, hnext⟩ := hlinked
        have hearlier := hsuperseded.1
        refine ⟨by omega, ?_⟩
        rw [hlink]
        intro hsame
        have hequal := Option.some.inj hsame
        omega

end System

namespace Deployment

variable {redact : JsonDict → JsonDict} {plan : Plan} {deployment next : Deployment}

/-- A step of the deployment is one of the rows, or leaves the link alone. -/
theorem superseded_step {task : ℕ} {moment : Moment} {event : Event}
    (hsuperseded : deployment.system.Superseded task) (hinv : deployment.Invariant plan)
    (hstep : deployment.step redact plan (moment, event) = some next) :
    next.system.Superseded task := by
  have hrecorded : ∀ {record unit} {interruption : Option String} {job : Job}
      {result : Except String System},
      deployment.system.recordUnit redact record unit = some result →
      (deployment.afterCallback interruption job result).system.Superseded task := by
    intro record unit interruption job result hrecord
    cases result with
    | error message => exact hsuperseded
    | ok system =>
        have hfinished : deployment.system.step redact (moment, .unitFinished record unit) =
            some system := System.recordUnit_step hrecord
        exact hsuperseded.step hinv.system hfinished
  cases event with
  | rows action =>
      obtain ⟨action, system, _, hsystem, rfl⟩ := step_rows (.inr ⟨action, rfl⟩) hstep
      exact hsuperseded.step hinv.system hsystem
  | finish =>
      obtain ⟨action, system, _, hsystem, rfl⟩ := step_rows (.inl rfl) hstep
      exact hsuperseded.step hinv.system hsystem
  | requestCancel =>
      cases hstep
      exact hsuperseded
  | work work =>
      cases work with
      | readCheckpoint =>
          simp only [step, workStep] at hstep
          split at hstep <;> cases hstep
          exact hsuperseded
      | create uuid freezeProblem =>
          simp only [step, workStep] at hstep
          split at hstep
          · split at hstep <;> cases hstep <;> exact hsuperseded
          · cases hstep
      | replayUnit interruption =>
          simp only [step, workStep] at hstep
          split at hstep
          · obtain ⟨result, hrecord, rfl⟩ := Option.map_eq_some_iff.mp hstep
            exact hrecorded hrecord
          · cases hstep
      | callRun =>
          have hcalled : ∀ options, (deployment.callRun options).system = deployment.system := by
            intro options
            unfold callRun
            split <;> rfl
          simp only [step, workStep] at hstep
          split at hstep
          · cases hstep
            rwa [hcalled]
          · cases hstep
            rwa [hcalled]
          · cases hstep
      | advance choice =>
          simp only [step, workStep] at hstep
          split at hstep
          · obtain ⟨⟨after, written⟩, _, rfl⟩ := Option.map_eq_some_iff.mp hstep
            exact hsuperseded
          · cases hstep
      | recordUnit interruption =>
          simp only [step, workStep] at hstep
          split at hstep
          · obtain ⟨result, hrecord, rfl⟩ := Option.map_eq_some_iff.mp hstep
            exact hrecorded hrecord
          · cases hstep

/-! ## The two halves of the call -/

/-- The first half of `cancel_task` on a task of the evaluation, up to
`_request_evaluation_cancel`.  The second half is the transaction `cancelTask`. -/
def askCancel (deployment : Deployment) (task : ℕ) (userId : String) : Deployment :=
  match deployment.system.tasks task with
  | some row =>
      if row.userId = userId ∧ row.status.terminal = false then
        { deployment with
          checkpoint := deployment.checkpoint.map fun record => record.requestCancel.getD record }
      else deployment
  | none => deployment

/-- The call does nothing, or finds no checkpoint that is still open. -/
def Unheard (deployment : Deployment) (row : AsyncTask) (userId : String) : Prop :=
  row.userId ≠ userId ∨ row.status = .failed ∨
    ∀ record, deployment.checkpoint = some record → record.state.terminal = true

/-- Nothing but the row of `task` has changed. -/
structure SameExecution (task : ℕ) (before after : Deployment) : Prop where
  checkpoint : after.checkpoint = before.checkpoint
  evaluation : after.system.evaluation = before.system.evaluation
  tasks : ∀ other, other ≠ task → after.system.tasks other = before.system.tasks other
  executor : after.system.executor = before.system.executor
  job : after.job = before.job

theorem askCancel_cases (redact : JsonDict → JsonDict) (plan : Plan) (deployment : Deployment)
    (task : ℕ) (userId : String) :
    deployment.askCancel task userId = deployment ∨
      ∀ moment : Moment, deployment.step redact plan (moment, .requestCancel) =
        some (deployment.askCancel task userId) := by
  unfold askCancel
  split
  · split_ifs
    · exact .inr fun _ => rfl
    · exact .inl rfl
  · exact .inl rfl

theorem askCancel_system (deployment : Deployment) (task : ℕ) (userId : String) :
    (deployment.askCancel task userId).system = deployment.system := by
  unfold askCancel
  split
  · split_ifs <;> rfl
  · rfl

/-- The second half writes no row but the task's own. -/
theorem sameExecution_commitCancel {task : ℕ} {moment : Moment} {userId : String}
    (hinv : deployment.Invariant plan)
    (hlink : deployment.system.evaluation.row.asyncTaskId ≠ some task)
    (hstep : deployment.step redact plan (moment, .rows (.manage task (.cancelTask userId))) =
      some next) : deployment.SameExecution task next := by
  obtain ⟨system, hsystem, rfl⟩ := Option.map_eq_some_iff.mp hstep
  obtain ⟨row, hrow, rfl⟩ := Option.map_eq_some_iff.mp hsystem
  obtain ⟨hid, htype, _⟩ := hinv.system.known task row hrow
  have hevaluation : (Rows.commit { task := row, evaluation := deployment.system.evaluation }
      (Transaction.apply moment
        (Rows.records { task := row, evaluation := deployment.system.evaluation })
        (.cancelTask userId))).evaluation = deployment.system.evaluation := by
    dsimp only [Transaction.apply]
    cases hcancel : cancelTask moment userId
        (Rows.records { task := row, evaluation := deployment.system.evaluation }) with
    | error message => rfl
    | ok written =>
        cases cancelTask_eq_ok hcancel with
        | inl hsame =>
            rw [hsame]
            rfl
        | inr hcancelled =>
            obtain ⟨_, rfl⟩ := hcancelled
            have hcancelled : (cancelledTask moment.now row).taskType = .evaluation := htype
            have hsynced := syncBusiness_evaluation moment deployment.system.evaluation.row
              hcancelled
            have hunlinked : mirrors (cancelledTask moment.now row)
                deployment.system.evaluation.row = false := by
              have hother : deployment.system.evaluation.row.asyncTaskId ≠
                  some (cancelledTask moment.now row).id := by
                rw [show (cancelledTask moment.now row).id = task from hid]
                exact hlink
              unfold mirrors
              rw [decide_eq_false hother,
                show (cancelledTask moment.now row).taskType = _ from htype]
              simp
            rw [hunlinked] at hsynced
            dsimp only [committed, Rows.records, Rows.commit]
            rw [hsynced]
            rfl
  have hworking : ∀ rows : Rows,
      (deployment.system.write task rows).working = deployment.system.working := fun _ => rfl
  refine ⟨rfl, hevaluation, ?_, rfl, ?_⟩
  · intro other hother
    exact Function.update_of_ne hother _ _
  · dsimp only [moved]
    rw [hworking]
    split_ifs with hbusy
    · rfl
    · exact (hinv.idle (by simpa using hbusy)).symm

/-- A request to an open checkpoint leaves its mark in the file. -/
theorem requestCancel_ne {record : TaskRecord JsonDict} (hopen : record.state.terminal = false) :
    record.requestCancel.getD record ≠ record := by
  intro hsame
  have hlength := congrArg (fun stored => stored.events.length) hsame
  simp [TaskRecord.requestCancel, hopen, TaskRecord.appendEvent] at hlength

/-- At whatever point of the current execution a superseded task is cancelled,
and whatever happens between the two halves of the call, nothing of the current
execution changes if and only if the call goes unheard. -/
theorem sameExecution_iff_unheard {opened : Deployment} (hopened : opened.Opened)
    (hreach : Reachable (step redact plan) opened deployment) {task : ℕ} {row : AsyncTask}
    (hrow : deployment.system.tasks task = some row)
    (hstopped : row.status = .paused ∨ row.status = .failed)
    (hsuperseded : deployment.system.evaluation.row.asyncTaskId ≠ some task)
    (userId : String) :
    (deployment.SameExecution task (deployment.askCancel task userId) ∧
      ∀ labels later moment final,
        run (step redact plan) (deployment.askCancel task userId) labels = some later →
        later.step redact plan (moment, .rows (.manage task (.cancelTask userId))) = some final →
        later.SameExecution task final) ↔
      deployment.Unheard row userId := by
  have hinv := (invariant_preserved redact plan).reachable (hopened.invariant plan) hreach
  have hasked : (deployment.askCancel task userId).Invariant plan := by
    cases askCancel_cases redact plan deployment task userId with
    | inl hsame =>
        rw [hsame]
        exact hinv
    | inr hstep =>
        exact invariant_preserved redact plan _ ({ now := 0 }, _) _ hinv (hstep { now := 0 })
  constructor
  · rintro ⟨hsame, _⟩
    by_contra hheard
    unfold Unheard at hheard
    push Not at hheard
    obtain ⟨huser, hfailed, record, hrecord, hopen⟩ := hheard
    have hcheckpoint := hsame.checkpoint
    have hpaused : row.status = .paused := hstopped.resolve_right hfailed
    simp only [askCancel, hrow, huser, hpaused, Status.terminal, and_self, if_true, hrecord,
      Option.map_some, Option.some.injEq] at hcheckpoint
    exact requestCancel_ne (by simpa using hopen) hcheckpoint
  · intro hunheard
    constructor
    · have hkept : deployment.askCancel task userId = deployment := by
        unfold askCancel
        rw [hrow]
        dsimp only
        split_ifs with hallowed
        · obtain hother | hfailed | hclosed := hunheard
          · exact absurd hallowed.1 hother
          · rw [hfailed] at hallowed
            cases hallowed.2
          · cases hrecord : deployment.checkpoint with
            | none => rw [Option.map_none, ← hrecord]
            | some record =>
                have hunsaved : record.requestCancel = none := by
                  simp [TaskRecord.requestCancel, hclosed record hrecord]
                rw [Option.map_some, hunsaved, Option.getD_none, ← hrecord]
        · rfl
      rw [hkept]
      exact ⟨rfl, rfl, fun _ _ => rfl, rfl, rfl⟩
    · intro labels later moment final hrun hcommit
      have hlink : deployment.system.Superseded task := .of_row hinv.system hrow hsuperseded
      have hlater : later.Invariant plan ∧ later.system.Superseded task := by
        have hpreserved : Preserved (step redact plan) fun state =>
            state.Invariant plan ∧ state.system.Superseded task := by
          rintro state ⟨moment, event⟩ next ⟨hinv, hlink⟩ hstep
          exact ⟨invariant_preserved redact plan _ _ _ hinv hstep,
            superseded_step hlink hinv hstep⟩
        refine hpreserved.run ⟨hasked, ?_⟩ hrun
        rw [askCancel_system]
        exact hlink
      exact sameExecution_commitCancel hlater.1 hlater.2.2 hcommit

/-- The first execution fails and is resumed under task 2: a cancel of the failed
task 1 is refused. -/
theorem sameExecution_iff_unheard_failed :
    let labels := deliveredLabels ++ [({ now := 7 }, .rows (.fail "boom")),
      ({ now := 8 }, .rows .settle), ({ now := 9 }, .rows .release),
      ({ now := 10 }, .rows (.checkResume "alice")), ({ now := 11 }, .rows (.linkResume "alice"))]
    ∃ deployment, run (step id singlePlan) singleDeployment labels = some deployment ∧
      deployment.checkpoint.map (·.state) = some .queued ∧
      deployment.SameExecution 1 (deployment.askCancel 1 "alice") := by
  intro labels
  have hfacts : (run (step id singlePlan) singleDeployment labels).map (fun deployment =>
      ((deployment.system.tasks 1).map (·.status),
        deployment.system.evaluation.row.asyncTaskId, deployment.checkpoint.map (·.state))) =
      some (some .failed, some 2, some .queued) := by
    decide +kernel
  obtain ⟨deployment, hrun, hfacts⟩ := Option.map_eq_some_iff.mp hfacts
  obtain ⟨hrow, hfacts⟩ := Prod.mk.inj hfacts
  obtain ⟨hlink, hcheckpoint⟩ := Prod.mk.inj hfacts
  obtain ⟨row, hrow, hstatus⟩ := Option.map_eq_some_iff.mp hrow
  refine ⟨deployment, hrun, hcheckpoint, ?_⟩
  exact ((sameExecution_iff_unheard singleDeployment_opened ⟨labels, hrun⟩ hrow (.inr hstatus)
    (by rw [hlink]; decide) "alice").mpr (.inr (.inl hstatus))).1

/-- The first execution is paused while it runs and resumed under task 2: a
cancel of the paused task 1 reaches the checkpoint task 2 will run from. -/
theorem superseded_cancel_heard :
    let labels := deliveredLabels ++ [({ now := 7 }, .work .callRun),
      ({ now := 8 }, .work (.advance {})), ({ now := 9 }, .work (.advance {})),
      ({ now := 10 }, .rows (.manage 1 (.pauseTask "alice"))), ({ now := 11 }, .rows .release),
      ({ now := 12 }, .rows (.checkResume "alice")), ({ now := 13 }, .rows (.linkResume "alice"))]
    ∃ deployment, run (step id singlePlan) singleDeployment labels = some deployment ∧
      (deployment.system.tasks 1).map (·.status) = some .paused ∧
      deployment.system.evaluation.row.asyncTaskId = some 2 ∧
      deployment.checkpoint.map (·.cancelRequested) = some false ∧
      (deployment.askCancel 1 "alice").checkpoint.map (·.cancelRequested) = some true ∧
      ¬deployment.SameExecution 1 (deployment.askCancel 1 "alice") := by
  intro labels
  have hfacts : (run (step id singlePlan) singleDeployment labels).map (fun deployment =>
      ((deployment.system.tasks 1).map (·.status),
        deployment.system.evaluation.row.asyncTaskId,
        deployment.checkpoint.map (·.cancelRequested),
        (deployment.askCancel 1 "alice").checkpoint.map (·.cancelRequested))) =
      some (some .paused, some 2, some false, some true) := by
    decide +kernel
  obtain ⟨deployment, hrun, hfacts⟩ := Option.map_eq_some_iff.mp hfacts
  obtain ⟨hstatus, hfacts⟩ := Prod.mk.inj hfacts
  obtain ⟨hlink, hfacts⟩ := Prod.mk.inj hfacts
  obtain ⟨hbefore, hafter⟩ := Prod.mk.inj hfacts
  refine ⟨deployment, hrun, hstatus, hlink, hbefore, hafter, ?_⟩
  intro hsame
  rw [hsame.checkpoint, hbefore] at hafter
  cases hafter

end Deployment

end AlgorithmHarness.EvaluationWorker
