import AlgorithmHarness.Evaluation.Fencing

/-!
# A failed task and its evaluation

Whether the evaluation of a failed task has failed too.  The state carries the
executions whose message could not be published.
-/

namespace AlgorithmHarness.EvaluationWorker

open Transition
open TaskManager
open TaskService (TaskRecord TaskUnit TaskState)

/-! ## What the transactions of the API make of a task -/

section Rows

variable {rows : Rows} (moment : Moment)

theorem reported_status (htype : rows.task.taskType = .evaluation)
    (hopen : rows.task.status.terminal = false) (hactive : rows.task.status ≠ .paused)
    (status : Status) (errorMessage : Option String) :
    (rows.report moment rows.task.celeryTaskId status errorMessage).task.status = status := by
  have hpassed : transitionBlocked { celeryTaskId := some rows.task.celeryTaskId } rows.task
      status = false := by
    simp [transitionBlocked, htype, TaskType.business, hopen, hactive]
  unfold Rows.report updateTaskStatus Rows.records
  rw [hpassed, if_neg Bool.false_ne_true, syncBusiness_evaluation moment _ (by simpa using htype)]
  exact recordExecutionTimes_status ..

/-- A failure of the task that the evaluation is not told of. -/
def silentFailure (task : AsyncTask) : Transaction → Prop
  | .syncCeleryState _ generation result =>
      result.state = .failure ∧ task.celeryTaskId = generation ∧
        (task.status = .pending ∨ task.status = .running)
  | .enqueueFailed => task.status = .pending
  | _ => False

/-- What a transaction of the API does to the statuses of the pair. -/
structure Touched (before after : Rows) (transaction : Transaction) : Prop where
  ended : before.task.status ≠ .pending → before.task.status ≠ .running →
    after.task.status = before.task.status ∨ after.task.status = .cancelled
  unlinked : mirrors before.task before.evaluation.row = false →
    after.evaluation = before.evaluation
  failed : after.task.status = .failed → mirrors before.task before.evaluation.row = true →
    after.evaluation.row.status = .failed ∨
      after.evaluation.row.status = before.evaluation.row.status ∧
        (before.task.status = .failed ∨ silentFailure before.task transaction)
  silent : silentFailure before.task transaction →
    after.task.status = .failed ∧ after.evaluation = before.evaluation

theorem Touched.refl {transaction : Transaction} (hloud : ¬silentFailure rows.task transaction) :
    Touched rows rows transaction where
  ended _ _ := .inl rfl
  unlinked _ := rfl
  failed hfailed _ := .inr ⟨rfl, .inl hfailed⟩
  silent hsilent := absurd hsilent hloud

/-- A write of the task row mirrored onto the evaluation. -/
theorem Touched.mirrored {task : AsyncTask} {transaction : Transaction}
    (htype : rows.task.taskType = .evaluation) (htaskType : task.taskType = rows.task.taskType)
    (hid : task.id = rows.task.id) (huser : task.userId = rows.task.userId)
    (hended : rows.task.status ≠ .pending → rows.task.status ≠ .running →
      task.status = rows.task.status ∨ task.status = .cancelled)
    (hloud : ¬silentFailure rows.task transaction) :
    Touched rows (rows.commit (syncBusiness moment { rows.records with task := task }))
      transaction := by
  have hmirrors : mirrors task rows.evaluation.row = mirrors rows.task rows.evaluation.row := by
    unfold mirrors
    rw [hid, huser, htaskType]
  unfold Rows.records
  rw [syncBusiness_evaluation moment _ (htaskType.trans htype), hmirrors]
  constructor
  · exact hended
  · intro hunlinked
    rw [hunlinked]
    rfl
  · intro hfailed hlinked
    rw [hlinked]
    exact .inl hfailed
  · exact fun hsilent => absurd hsilent hloud

theorem touched_publishFailed (htype : rows.task.taskType = .evaluation)
    {transaction : Transaction} (hloud : ¬silentFailure rows.task transaction) :
    Touched rows (rows.commit (publishFailed moment true rows.records)) transaction := by
  rw [publishFailed]
  split
  next hpending =>
    exact Touched.mirrored moment htype rfl rfl rfl (fun hnot _ => absurd hpending hnot) hloud
  next => exact Touched.refl hloud

theorem touched_enqueueFailed (htype : rows.task.taskType = .evaluation) :
    Touched rows (rows.commit (enqueueFailed moment rows.records)) .enqueueFailed := by
  have hdraft : enqueueFailed moment rows.records = publishFailed moment false rows.records := by
    rw [enqueueFailed, Rows.records, htype]
    rfl
  rw [hdraft, publishFailed]
  split
  next hpending =>
    exact
      { ended := fun hnot _ => absurd hpending hnot
        unlinked := fun _ => rfl
        failed := fun _ _ => .inr ⟨rfl, .inr hpending⟩
        silent := fun _ => ⟨rfl, rfl⟩ }
  next hnot => exact Touched.refl hnot

theorem touched_syncCeleryState (htype : rows.task.taskType = .evaluation) (manager : Manager)
    (generation : Generation) (result : CeleryResult) :
    Touched rows (rows.commit (syncCeleryState moment manager generation result rows.records))
      (.syncCeleryState manager generation result) := by
  have hbusiness : rows.records.task.taskType.business = false := by
    rw [Rows.records, htype]
    rfl
  have hunmirrored : ∀ task : AsyncTask, task.status = .running →
      (rows.task.status = .pending ∨ rows.task.status = .running) → result.state ≠ .failure →
      Touched rows (rows.commit { rows.records with task := task })
        (.syncCeleryState manager generation result) := by
    intro task hrunning hactive hstate
    exact
      { ended := fun hpending hnot => absurd hactive (not_or.mpr ⟨hpending, hnot⟩)
        unlinked := fun _ => rfl
        failed := fun hfailed _ => by cases hrunning.symm.trans hfailed
        silent := fun hsilent => absurd hsilent.1 hstate }
  rw [syncCeleryState, hbusiness]
  split
  next hstale =>
    apply Touched.refl
    rintro ⟨-, hgeneration, hactive⟩
    rcases hstale with hother | ⟨hpending, hrunning⟩
    · exact hother hgeneration
    · exact hactive.elim hpending hrunning
  next hcurrent =>
    have hactive : rows.task.status = .pending ∨ rows.task.status = .running := by
      by_contra hnot
      exact hcurrent (.inr (not_or.mp hnot))
    have hgeneration : rows.task.celeryTaskId = generation := by
      by_contra hother
      exact hcurrent (.inl hother)
    rw [if_neg Bool.false_ne_true]
    split
    next hstarted => exact hunmirrored _ rfl hactive (by rw [hstarted]; decide)
    next hprogress => exact hunmirrored _ rfl hactive (by rw [hprogress]; decide)
    next hfailure =>
      exact
        { ended := fun hpending hrunning => absurd hactive (not_or.mpr ⟨hpending, hrunning⟩)
          unlinked := fun _ => rfl
          failed := fun _ _ => .inr ⟨rfl, .inr ⟨hfailure, hgeneration, hactive⟩⟩
          silent := fun _ => ⟨rfl, rfl⟩ }
    next hother => exact Touched.refl fun hsilent => hother hsilent.1

theorem touched_userTransaction (htype : rows.task.taskType = .evaluation)
    {transaction : Transaction} (huser : userTransaction transaction = true) :
    Touched rows (rows.commit (transaction.apply moment rows.records)) transaction := by
  cases transaction with
  | pauseTask userId =>
      dsimp only [Transaction.apply]
      cases hpause : pauseTask moment userId rows.records with
      | error message => exact Touched.refl not_false
      | ok written =>
          obtain ⟨hrunning, rfl⟩ := pauseTask_eq_ok hpause
          have htask : pausedTask rows.records.task = { rows.task with status := .paused } := by
            simp [pausedTask, Rows.records, htype, TaskType.business]
          rw [htask]
          exact Touched.mirrored moment htype rfl rfl rfl
            (fun _ hnot => absurd hrunning hnot) not_false
  | cancelTask userId =>
      dsimp only [Transaction.apply]
      cases hcancel : cancelTask moment userId rows.records with
      | error message => exact Touched.refl not_false
      | ok written =>
          rcases cancelTask_eq_ok hcancel with rfl | ⟨-, rfl⟩
          · exact Touched.refl not_false
          · exact Touched.mirrored moment htype rfl rfl rfl (fun _ _ => .inr rfl) not_false
  | syncCeleryState manager generation result =>
      exact touched_syncCeleryState moment htype manager generation result
  | enqueueFailed => exact touched_enqueueFailed moment htype
  | resumePublishFailed celeryTaskId =>
      dsimp only [Transaction.apply]
      rw [resumePublishFailed]
      split
      · exact touched_publishFailed moment htype not_false
      · exact Touched.refl not_false
  | _ => cases huser

end Rows

namespace System

/-! ## Invariants over the steps -/

/-- The evaluation of a task that failed has failed, if its message was published. -/
def FailureMirrored (system : System) (unpublished : Generation → Bool) : Prop :=
  ∀ row, system.linkedTask = some row → unpublished row.celeryTaskId = false →
    row.status = .failed → system.evaluation.row.status = .failed

/-- A settlement is left of a task that has ended, and knows of its failure. -/
def Settling (system : System) : Prop :=
  ∀ executor task settlement row, system.executor = some executor →
    executor.phase = .settling (some task) settlement → system.tasks task = some row →
    row.status ≠ .pending ∧ row.status ≠ .running ∧
      (row.status = .failed → settlement.status = .failed)

section Worker

variable {redact : JsonDict → JsonDict} {system next : System} {executor : Executor}
  {moment : Moment} {unpublished : Generation → Bool}

theorem linkedTask_eq {task : ℕ} (hlink : system.evaluation.row.asyncTaskId = some task) :
    system.linkedTask = system.tasks task := by
  rw [linkedTask, hlink, Option.bind_some]

theorem linkedTask_write {task : ℕ} {rows : Rows}
    (hlink : rows.evaluation.row.asyncTaskId = some task) :
    (system.write task rows).linkedTask = some rows.task := by
  rw [linkedTask_eq hlink]
  exact Function.update_self ..

/-- Only a settlement that is left is bound. -/
theorem Settling.of_phase (hexecutor : system.executor = some executor)
    (hphase : ∀ task settlement, executor.phase ≠ .settling (some task) settlement) :
    system.Settling := by
  intro other task settlement row hother hsettling
  rw [hexecutor, Option.some_inj] at hother
  exact absurd hsettling (hother ▸ hphase task settlement)

theorem FailureMirrored.of_status {task : ℕ} {row : AsyncTask}
    (hlink : system.evaluation.row.asyncTaskId = some task)
    (hrow : system.tasks task = some row)
    (hstatus : row.status = .failed → system.evaluation.row.status = .failed) :
    system.FailureMirrored unpublished := by
  intro linked hlinked _ hfailed
  rw [linkedTask_eq hlink, hrow, Option.some_inj] at hlinked
  exact hstatus (hlinked ▸ hfailed)

/-- What a step keeps. -/
structure MirrorKept (unpublished : Generation → Bool) (system next : System) : Prop where
  settling : next.Settling
  mirrored : system.FailureMirrored unpublished → next.FailureMirrored unpublished

theorem MirrorKept.setPhase {phase : Phase}
    (hphase : ∀ task settlement, phase ≠ .settling (some task) settlement) :
    MirrorKept unpublished system (system.setPhase executor phase) where
  settling := Settling.of_phase rfl hphase
  mirrored := id

theorem mirrorKept_readEvaluation
    (hstep : workerStep redact system executor moment .readEvaluation = some next) :
    MirrorKept unpublished system next := by
  simp only [workerStep] at hstep
  split at hstep
  next =>
    split at hstep <;> cases hstep
    · exact MirrorKept.setPhase nofun
    · exact MirrorKept.setPhase nofun
  next => cases hstep

theorem mirrorKept_readTask
    (hstep : workerStep redact system executor moment .readTask = some next) :
    MirrorKept unpublished system next := by
  simp only [workerStep] at hstep
  split at hstep
  next =>
    split at hstep
    next =>
      cases hstep
      exact MirrorKept.setPhase nofun
    next =>
      split at hstep <;> cases hstep
      · exact MirrorKept.setPhase nofun
      · exact MirrorKept.setPhase nofun
      · exact MirrorKept.setPhase nofun
  next => cases hstep

theorem mirrorKept_markCancelled (hinv : system.Invariant)
    (hexecutor : system.executor = some executor)
    (hstep : workerStep redact system executor moment .markCancelled = some next) :
    MirrorKept unpublished system next := by
  have hholds := hinv.holds executor hexecutor
  simp only [workerStep] at hstep
  split at hstep
  next task hphase =>
    rw [hphase] at hholds
    obtain ⟨row, hrow, -, hcancelled, hlink⟩ := hholds
    cases hstep
    refine ⟨Settling.of_phase rfl nofun, fun _ => FailureMirrored.of_status hlink hrow ?_⟩
    intro hfailed
    cases hcancelled.symm.trans hfailed
  next => cases hstep

variable (moment) in
/-- A report that is not refused reaches the task and its evaluation. -/
theorem mirrorKept_report {rows : Rows} {task : ℕ} (hid : rows.task.id = task)
    (htype : rows.task.taskType = .evaluation)
    (huser : rows.task.userId = rows.evaluation.row.userId)
    (hlink : rows.evaluation.row.asyncTaskId = some task)
    (hgeneration : rows.task.celeryTaskId = executor.generation)
    (hopen : rows.task.status.terminal = false) (hactive : rows.task.status ≠ .paused)
    {status : Status} (hstatus : status ≠ .pending) (errorMessage : Option String) {phase : Phase}
    (hphase : ∀ other settlement, phase = .settling (some other) settlement →
      other = task ∧ settlement.status = status ∧ status ≠ .running) :
    MirrorKept unpublished system
      ((system.write task (rows.report moment executor.generation status errorMessage)).setPhase
        executor phase) := by
  have hmirrors : mirrors rows.task rows.evaluation.row = true := by
    simp [mirrors, hid, huser, hlink]
  have hevaluation := report_status moment htype hmirrors hopen hactive status errorMessage
  have htask := reported_status moment htype hopen hactive status errorMessage
  have hkept := (managed_report moment htype executor.generation status errorMessage
    hstatus).asyncTaskId
  rw [hgeneration] at hevaluation htask
  constructor
  · intro other index settlement row hother hsettling hrow
    cases hother
    obtain ⟨hindex, hsame, hnot⟩ := hphase index settlement hsettling
    have hwritten : ((system.write task (rows.report moment executor.generation status
        errorMessage)).setPhase executor phase).tasks task = some _ := Function.update_self ..
    rw [hindex, hwritten, Option.some_inj] at hrow
    rw [← hrow, htask]
    exact ⟨hstatus, hnot, hsame.trans⟩
  · intro _
    refine FailureMirrored.of_status (hkept.trans hlink) (Function.update_self ..) fun hfailed => ?_
    exact hevaluation.trans (htask.symm.trans hfailed)

theorem mirrorKept_start (hinv : system.Invariant) (hexecutor : system.executor = some executor)
    (hstep : workerStep redact system executor moment .start = some next) :
    MirrorKept unpublished system next := by
  have hholds := hinv.holds executor hexecutor
  simp only [workerStep] at hstep
  split at hstep
  next task hphase =>
    rw [hphase] at hholds
    obtain ⟨row, hrow, hgeneration, hlinked⟩ := hholds
    simp only [hrow, Option.bind_some] at hstep
    unfold EvaluationWorker.start at hstep
    split_ifs at hstep with hleave
    · cases hstep
      exact MirrorKept.setPhase nofun
    · cases hstep
      simp only [not_or, Bool.not_eq_true] at hleave
      have hlink : system.evaluation.row.asyncTaskId = some task := by
        refine hlinked.resolve_right fun hfailed => ?_
        rw [hfailed] at hleave
        cases hleave.2.1
      obtain ⟨hid, htype, huser⟩ := hinv.known task row hrow
      apply mirrorKept_report moment
      · exact hid
      · exact htype
      · exact huser
      · exact hlink
      · exact hgeneration
      · exact hleave.2.1
      · exact hleave.2.2
      · exact nofun
      · exact nofun
  next => cases hstep

/-- A step of the worker at its task that leaves the statuses. -/
theorem MirrorKept.of_same (hexecutor : next.executor = some executor)
    (hphase : ∀ task settlement, executor.phase ≠ .settling (some task) settlement)
    {task : ℕ} {row written : AsyncTask} (hlink : system.evaluation.row.asyncTaskId = some task)
    (hkept : next.evaluation.row = system.evaluation.row)
    (hrow : system.tasks task = some row) (hwritten : next.tasks task = some written)
    (hgeneration : written.celeryTaskId = row.celeryTaskId)
    (hstatus : written.status = row.status) : MirrorKept unpublished system next where
  settling := Settling.of_phase hexecutor hphase
  mirrored := by
    intro hmirrored linked hlinked hpublished hfailed
    rw [linkedTask_eq (hkept ▸ hlink), hwritten, Option.some_inj] at hlinked
    rw [← hlinked] at hpublished hfailed
    rw [hkept]
    exact hmirrored row ((linkedTask_eq hlink).trans hrow) (hgeneration ▸ hpublished)
      (hstatus ▸ hfailed)

theorem mirrorKept_reportProgress (hinv : system.Invariant)
    (hexecutor : system.executor = some executor) {progress : JsonDict}
    (hstep : workerStep redact system executor moment (.reportProgress progress) = some next) :
    MirrorKept unpublished system next := by
  have hholds := hinv.holds executor hexecutor
  simp only [workerStep] at hstep
  split at hstep
  next task hphase =>
    rw [hphase] at hholds
    obtain ⟨row, hrow, -, hlink, -⟩ := hholds
    simp only [hrow, Option.map_some, Option.some_inj] at hstep
    subst hstep
    have hreported : ∀ progress,
        (EvaluationWorker.reportProgress executor.generation progress row).celeryTaskId =
            row.celeryTaskId ∧
          (EvaluationWorker.reportProgress executor.generation progress row).status =
            row.status := by
      intro progress
      rw [EvaluationWorker.reportProgress]
      split <;> exact ⟨rfl, rfl⟩
    exact MirrorKept.of_same hexecutor (by rw [hphase]; nofun) hlink rfl hrow
      (Function.update_self ..) (hreported progress).1 (hreported progress).2
  next => cases hstep

theorem mirrorKept_unitFinished (hinv : system.Invariant)
    (hexecutor : system.executor = some executor) {record : TaskRecord JsonDict}
    {unit : TaskUnit JsonDict}
    (hstep : workerStep redact system executor moment (.unitFinished record unit) = some next) :
    MirrorKept unpublished system next := by
  have hholds := hinv.holds executor hexecutor
  simp only [workerStep] at hstep
  split at hstep
  next task hphase =>
    rw [hphase] at hholds
    obtain ⟨row, hrow, -, hlink, -⟩ := hholds
    simp only [hrow, Option.map_some, Option.some_inj] at hstep
    subst hstep
    have hworking : ∀ other settlement, executor.phase ≠ .settling (some other) settlement := by
      rw [hphase]
      nofun
    split
    next evaluation hdelivery =>
      have hsame : evaluation.row = system.evaluation.row := by
        rcases onUnitFinished_ok hdelivery with hfenced | hrecorded
        · rw [hfenced.2]
        · obtain ⟨_, _, _, _, _, _, _, _, hsame⟩ := hrecorded
          exact hsame
      exact MirrorKept.of_same hexecutor hworking hlink hsame hrow hrow rfl rfl
    next => exact MirrorKept.of_same hexecutor hworking hlink rfl hrow hrow rfl rfl
  next => cases hstep

theorem mirrorKept_finish (hinv : system.Invariant) (hexecutor : system.executor = some executor)
    {state : TaskState} {error : Option String}
    (hstep : workerStep redact system executor moment (.finish state error) = some next) :
    MirrorKept unpublished system next := by
  have hholds := hinv.holds executor hexecutor
  simp only [workerStep] at hstep
  split at hstep
  next task hphase =>
    rw [hphase] at hholds
    obtain ⟨row, hrow, hgeneration, hlink, -⟩ := hholds
    obtain ⟨hid, htype, huser⟩ := hinv.known task row hrow
    simp only [hrow, Option.map_some, Option.some_inj, EvaluationWorker.finish] at hstep
    subst hstep
    have hunbound : ∀ task settlement, Phase.leaving ≠ .settling (some task) settlement := by
      intro task settlement hphase
      cases hphase
    split
    next hended =>
      exact ⟨Settling.of_phase rfl hunbound, fun _ =>
        FailureMirrored.of_status hlink (Function.update_self ..) id⟩
    next hopen =>
      split
      next hcancelled =>
        refine ⟨Settling.of_phase rfl hunbound, fun _ =>
          FailureMirrored.of_status hlink (Function.update_self ..) fun hfailed => ?_⟩
        cases hcancelled.symm.trans hfailed
      next hnot =>
        have hactive : row.status.terminal = false := by
          cases hstatus : row.status <;> simp_all [Status.terminal]
        have hreport : ∀ status errorMessage, status ≠ .pending → status ≠ .running →
            MirrorKept unpublished system
              ((system.write task (Rows.report { task := row, evaluation := system.evaluation }
                moment executor.generation status errorMessage)).setPhase executor
                  (.settling (some task) { status := status, errorMessage := errorMessage })) := by
          intro status errorMessage hstatus hrunning
          refine mirrorKept_report moment hid htype huser hlink hgeneration hactive
            (fun hpaused => hopen (.inr (.inr (.inr hpaused)))) hstatus errorMessage ?_
          rintro other settlement ⟨⟩
          exact ⟨rfl, rfl, hrunning⟩
        cases state with
        | queued =>
            exact MirrorKept.of_same rfl hunbound hlink rfl hrow (Function.update_self ..) rfl rfl
        | running =>
            exact MirrorKept.of_same rfl hunbound hlink rfl hrow (Function.update_self ..) rfl rfl
        | paused => exact hreport .paused none (by decide) (by decide)
        | completed => exact hreport .completed none (by decide) (by decide)
        | failed => exact hreport .failed error (by decide) (by decide)
        | cancelled => exact hreport .cancelled none (by decide) (by decide)
  next => cases hstep

/-- The exception handlers at a task that is the evaluation's, or has failed. -/
theorem mirrorKept_failed (hinv : system.Invariant) {task : ℕ} {row : AsyncTask}
    (hrow : system.tasks task = some row) (hgeneration : row.celeryTaskId = executor.generation)
    (hlinked : system.evaluation.row.asyncTaskId = some task ∨ row.status = .failed)
    (message : String) :
    MirrorKept unpublished system
      ((system.write task (EvaluationWorker.fail moment executor.generation message
          { task := row, evaluation := system.evaluation }).1).setPhase executor
        ((EvaluationWorker.fail moment executor.generation message
          { task := row, evaluation := system.evaluation }).2.elim .leaving
            (.settling (some task)))) := by
  obtain ⟨hid, htype, huser⟩ := hinv.known task row hrow
  rw [EvaluationWorker.fail]
  split
  next => exact (write_self hrow system.evaluation).symm ▸ MirrorKept.setPhase nofun
  next hopen =>
    simp only [not_or, Bool.not_eq_true] at hopen
    have hlink : system.evaluation.row.asyncTaskId = some task := by
      refine hlinked.resolve_right fun hfailed => ?_
      rw [hfailed] at hopen
      cases hopen.2.2
    apply mirrorKept_report moment
    · exact hid
    · exact htype
    · exact huser
    · exact hlink
    · exact hgeneration
    · exact hopen.2.2
    · exact hopen.2.1
    · exact nofun
    · rintro other settlement ⟨⟩
      exact ⟨rfl, rfl, nofun⟩

theorem mirrorKept_fail (hinv : system.Invariant) (hexecutor : system.executor = some executor)
    {message : String}
    (hstep : workerStep redact system executor moment (.fail message) = some next) :
    MirrorKept unpublished system next := by
  have hholds := hinv.holds executor hexecutor
  simp only [workerStep] at hstep
  split at hstep
  next task hphase =>
    rw [hphase] at hholds
    obtain ⟨row, hrow, hgeneration, hlinked⟩ := hholds
    simp only [hrow, Option.map_some, Option.some_inj] at hstep
    exact hstep ▸ mirrorKept_failed hinv hrow hgeneration hlinked message
  next task hphase =>
    rw [hphase] at hholds
    obtain ⟨row, hrow, hgeneration, hlink, -⟩ := hholds
    simp only [hrow, Option.map_some, Option.some_inj] at hstep
    exact hstep ▸ mirrorKept_failed hinv hrow hgeneration (.inl hlink) message
  next => cases hstep

theorem mirrorKept_settle (hinv : system.Invariant) (hsettling : system.Settling)
    (hexecutor : system.executor = some executor)
    (hstep : workerStep redact system executor moment .settle = some next) :
    MirrorKept unpublished system next := by
  have hholds := hinv.holds executor hexecutor
  simp only [workerStep] at hstep
  split at hstep
  next task settlement hphase =>
    rw [hphase] at hholds
    cases task with
    | none => exact hholds.elim
    | some task =>
        obtain ⟨⟨row, hrow, -, hlink, -⟩, -⟩ := hholds
        have hended := hsettling executor task settlement row hexecutor hphase hrow
        obtain ⟨hstatus, hkept, -⟩ := settle_row moment.now settlement system.evaluation
        cases hstep
        refine ⟨Settling.of_phase rfl nofun, fun _ =>
          FailureMirrored.of_status (hkept.trans hlink) hrow fun hfailed => ?_⟩
        exact hstatus.trans (hended.2.2 hfailed)
  next => cases hstep

theorem mirrorKept_workerStep (hinv : system.Invariant) (hsettling : system.Settling)
    (hexecutor : system.executor = some executor) {action : Action}
    (hstep : workerStep redact system executor moment action = some next) :
    MirrorKept unpublished system next := by
  cases action with
  | readEvaluation => exact mirrorKept_readEvaluation hstep
  | readTask => exact mirrorKept_readTask hstep
  | markCancelled => exact mirrorKept_markCancelled hinv hexecutor hstep
  | start => exact mirrorKept_start hinv hexecutor hstep
  | reportProgress progress => exact mirrorKept_reportProgress hinv hexecutor hstep
  | unitFinished record unit => exact mirrorKept_unitFinished hinv hexecutor hstep
  | finish state error => exact mirrorKept_finish hinv hexecutor hstep
  | fail message => exact mirrorKept_fail hinv hexecutor hstep
  | settle => exact mirrorKept_settle hinv hsettling hexecutor hstep
  | release =>
      cases hstep
      refine ⟨?_, id⟩
      intro executor task settlement row hother
      cases hother
  | _ => cases hstep

end Worker

/-! ## The steps of the API -/

section User

variable {system next : System} {moment : Moment} {unpublished : Generation → Bool}

/-- What is left of a step of the API on the status of a failed task: the failure that the
evaluation is not told of, and a status that is written over one that it was. -/
def Silent (system : System) (unpublished : Generation → Bool) : Action → Prop
  | .manage task transaction =>
      ∃ row, system.evaluation.row.asyncTaskId = some task ∧ system.tasks task = some row ∧
        unpublished row.celeryTaskId = false ∧ system.evaluation.row.status ≠ .failed ∧
        silentFailure row transaction
  | .cancelEvaluation =>
      ∃ row, system.linkedTask = some row ∧ unpublished row.celeryTaskId = false ∧
        row.status = .failed
  | _ => False

theorem Settling.write (hsettling : system.Settling) {task : ℕ} {row : AsyncTask} {after : Rows}
    {transaction : Transaction} (hrow : system.tasks task = some row)
    (htouched : Touched { task := row, evaluation := system.evaluation } after transaction) :
    (system.write task after).Settling := by
  intro executor index settlement written hexecutor hphase hwritten
  by_cases hindex : index = task
  · subst hindex
    obtain ⟨hpending, hrunning, hfailed⟩ :=
      hsettling executor index settlement row hexecutor hphase hrow
    have hafter : (system.write index after).tasks index = some after.task :=
      Function.update_self ..
    rw [hafter, Option.some_inj] at hwritten
    rw [← hwritten]
    rcases htouched.ended hpending hrunning with hsame | hcancelled
    · rw [hsame]
      exact ⟨hpending, hrunning, hfailed⟩
    · rw [hcancelled]
      exact ⟨nofun, nofun, nofun⟩
  · have hother : (system.write task after).tasks index = system.tasks index :=
      Function.update_of_ne hindex ..
    rw [hother] at hwritten
    exact hsettling executor index settlement written hexecutor hphase hwritten

/-- The answer of a step of the API: it keeps the evaluation of a failed task failed, unless the
step is silent. -/
structure Answered (system next : System) (unpublished : Generation → Bool) (action : Action) :
    Prop where
  settling : next.Settling
  mirrored : ¬Silent system unpublished action → system.FailureMirrored unpublished →
    next.FailureMirrored unpublished
  silent : Silent system unpublished action → ¬next.FailureMirrored unpublished

theorem answered_manage (hinv : system.Invariant) (hsettling : system.Settling) {task : ℕ}
    {row : AsyncTask} {after : Rows} {transaction : Transaction}
    (hrow : system.tasks task = some row)
    (htouched : Touched { task := row, evaluation := system.evaluation } after transaction)
    (hmanaged : Managed { task := row, evaluation := system.evaluation } after) :
    Answered system (system.write task after) unpublished (.manage task transaction) := by
  have hlinkedAfter : system.evaluation.row.asyncTaskId = some task →
      (system.write task after).linkedTask = some after.task := fun hlink =>
    linkedTask_write (hmanaged.asyncTaskId.trans hlink)
  have hgeneration : after.task.celeryTaskId = row.celeryTaskId := hmanaged.celeryTaskId
  refine ⟨hsettling.write hrow htouched, ?_, ?_⟩
  · intro hloud hmirrored written hwritten hpublished hfailed
    by_cases hlink : system.evaluation.row.asyncTaskId = some task
    · rw [hlinkedAfter hlink, Option.some_inj] at hwritten
      rw [← hwritten] at hpublished hfailed
      rw [hgeneration] at hpublished
      obtain ⟨hid, -, huser⟩ := hinv.known task row hrow
      have hmirrors : mirrors row system.evaluation.row = true := by
        simp [mirrors, hid, huser, hlink]
      rcases htouched.failed hfailed hmirrors with htold | ⟨hsame, hbefore | hsilent⟩
      · exact htold
      · exact hsame.trans (hmirrored row ((linkedTask_eq hlink).trans hrow) hpublished hbefore)
      · by_contra hnot
        exact hloud ⟨row, hlink, hrow, hpublished, fun hended => hnot (hsame.trans hended), hsilent⟩
    · obtain ⟨link, linked, hlinked, hlinkedRow, -⟩ := hinv.linked
      have hne : link ≠ task := fun hequal => hlink (hequal ▸ hlinked)
      obtain ⟨hid, htype, huser⟩ := hinv.known task row hrow
      have hunlinked : mirrors row system.evaluation.row = false := by
        simp [mirrors, htype, hid, huser, hlink]
      have hevaluation := htouched.unlinked hunlinked
      have hkept : (system.write task after).tasks link = some linked :=
        (Function.update_of_ne hne ..).trans hlinkedRow
      have hsame : (system.write task after).evaluation = system.evaluation := hevaluation
      rw [linkedTask_eq (hsame ▸ hlinked), hkept, Option.some_inj] at hwritten
      rw [hsame]
      rw [← hwritten] at hpublished hfailed
      exact hmirrored linked ((linkedTask_eq hlinked).trans hlinkedRow) hpublished hfailed
  · rintro ⟨before, hlink, hbefore, hpublished, hnot, hsilent⟩ hmirrored
    rw [hrow, Option.some_inj] at hbefore
    rw [← hbefore] at hpublished hsilent
    obtain ⟨hfailed, hevaluation⟩ := htouched.silent hsilent
    have hended := hmirrored after.task (hlinkedAfter hlink) (hgeneration ▸ hpublished) hfailed
    have hsame : (system.write task after).evaluation = system.evaluation := hevaluation
    exact hnot (hsame ▸ hended)

/-- A new task is pending. -/
theorem mirrored_enqueue (userId : String) :
    (system.enqueue userId).FailureMirrored unpublished :=
  FailureMirrored.of_status rfl (Function.update_self ..) nofun

theorem Settling.enqueue (hinv : system.Invariant) (hsettling : system.Settling)
    (userId : String) : (system.enqueue userId).Settling := by
  intro executor task settlement row hexecutor hphase hrow
  have hholds := hinv.holds executor hexecutor
  rw [hphase] at hholds
  obtain ⟨kept, hkept, -⟩ := hholds.1
  have hne : task ≠ system.nextTask := by
    rintro rfl
    cases (hinv.fresh system.nextTask le_rfl).symm.trans hkept
  have hsame : (system.enqueue userId).tasks task = system.tasks task :=
    Function.update_of_ne hne ..
  rw [hsame] at hrow
  exact hsettling executor task settlement row hexecutor hphase hrow

theorem answered_userStep (hinv : system.Invariant) (hsettling : system.Settling)
    {action : Action} (hstep : userStep system moment action = some next) :
    Answered system next unpublished action := by
  cases action with
  | manage task transaction =>
      simp only [userStep] at hstep
      split_ifs at hstep with huser
      obtain ⟨row, hrow, rfl⟩ := Option.map_eq_some_iff.mp hstep
      have htype := (hinv.known task row hrow).2.1
      exact answered_manage hinv hsettling hrow (touched_userTransaction moment htype huser)
        (managed_userTransaction moment htype huser)
  | resumeTask task capacity userId =>
      simp only [userStep] at hstep
      obtain ⟨row, hrow, hstep⟩ := Option.map_eq_some_iff.mp hstep
      split at hstep
      next written hresume =>
        subst hstep
        obtain ⟨hid, htype, huser⟩ := hinv.known task row hrow
        obtain ⟨_, hfree, hcheck, _, rfl⟩ := resumeTask_eq_ok hresume
        have hexecutor := (executionFree_iff.mp (hfree htype)).1
        have hlink : system.evaluation.row.asyncTaskId = some task := by
          by_contra hunlinked
          simp [checkResumable, Rows.records, htype, hid, hunlinked] at hcheck
        have hresumed : (resumedTask system.issued row).taskType = .evaluation := htype
        have hmirrors : mirrors (resumedTask system.issued row) system.evaluation.row = true := by
          simp [mirrors, resumedTask, hid, huser, hlink]
        dsimp only [Rows.records]
        rw [syncBusiness_evaluation moment system.evaluation.row hresumed, if_pos hmirrors]
        refine ⟨?_, fun _ _ => FailureMirrored.of_status hlink (Function.update_self ..) ?_,
          not_false.elim⟩
        · intro executor task settlement kept hother
          cases hexecutor.symm.trans hother
        · intro hfailed
          cases hfailed
      next =>
        subst hstep
        exact ⟨hsettling, fun _ => id, not_false.elim⟩
  | checkResume userId =>
      simp only [userStep] at hstep
      split at hstep
      next =>
        split_ifs at hstep
        cases hstep
        exact ⟨hsettling, fun _ => id, not_false.elim⟩
      next => cases hstep
  | linkResume userId =>
      simp only [userStep] at hstep
      split at hstep
      next task hresuming =>
        split_ifs at hstep
        cases hstep
        exact ⟨hsettling.enqueue hinv userId, fun _ _ => mirrored_enqueue userId, not_false.elim⟩
      next => cases hstep
  | abandonResume =>
      cases hstep
      exact ⟨hsettling, fun _ => id, not_false.elim⟩
  | startEvaluation userId =>
      simp only [userStep] at hstep
      split at hstep
      next =>
        split_ifs at hstep
        cases hstep
        exact ⟨hsettling.enqueue hinv userId, fun _ _ => mirrored_enqueue userId, not_false.elim⟩
      next => cases hstep
  | cancelEvaluation =>
      cases hstep
      refine ⟨hsettling, ?_, ?_⟩
      · intro hloud _ row hlinked hpublished hfailed
        exact absurd ⟨row, hlinked, hpublished, hfailed⟩ hloud
      · rintro ⟨row, hlinked, hpublished, hfailed⟩ hmirrored
        cases hmirrored row hlinked hpublished hfailed
  | recoverInterrupted =>
      simp only [userStep] at hstep
      split_ifs at hstep
      cases hstep
      exact ⟨hsettling, fun _ _ _ _ _ _ => rfl, not_false.elim⟩
  | _ => cases hstep

end User

theorem not_silent_of_worker {system : System} {unpublished : Generation → Bool} {action : Action}
    (hworker : action.ofWorker = true) : ¬Silent system unpublished action := by
  cases action with
  | manage task transaction => cases hworker
  | cancelEvaluation => cases hworker
  | _ => exact not_false

theorem answered_step {redact : JsonDict → JsonDict} {system next : System} {moment : Moment}
    {action : Action} {unpublished : Generation → Bool} (hinv : system.Invariant)
    (hsettling : system.Settling) (hstep : step redact system (moment, action) = some next) :
    Answered system next unpublished action := by
  rcases step_cases hstep with ⟨generation, rfl, -, rfl⟩ | ⟨hworker, executor, hexecutor, hstep⟩ |
    huser
  · exact ⟨Settling.of_phase rfl nofun, fun _ => id, fun hsilent => hsilent.elim⟩
  · have hkept : MirrorKept unpublished system next :=
      mirrorKept_workerStep hinv hsettling hexecutor hstep
    exact ⟨hkept.settling, fun _ => hkept.mirrored,
      fun hsilent => absurd hsilent (not_silent_of_worker hworker)⟩
  · exact answered_userStep hinv hsettling huser

end System

/-! ## Runs -/

/-- A step, with the execution whose message could not be published. -/
inductive Occurrence where
  | act (action : Action)
  | enqueueFailed (task : ℕ) (generation : Generation)
  | resumePublishFailed (task : ℕ) (generation : Generation)

namespace Occurrence

def action : Occurrence → Action
  | .act action => action
  | .enqueueFailed task _ => .manage task .enqueueFailed
  | .resumePublishFailed task generation => .manage task (.resumePublishFailed generation)

/-- A failure to publish names its execution. -/
def named : Occurrence → Bool
  | .act (.manage _ .enqueueFailed) | .act (.manage _ (.resumePublishFailed _)) => false
  | _ => true

def mark (unpublished : Generation → Bool) : Occurrence → Generation → Bool
  | .act _ => unpublished
  | .enqueueFailed _ generation | .resumePublishFailed _ generation =>
      Function.update unpublished generation true

theorem mark_of_unpublished {unpublished : Generation → Bool} (occurrence : Occurrence)
    {generation : Generation} (hpublished : occurrence.mark unpublished generation = false) :
    unpublished generation = false := by
  cases occurrence with
  | act action => exact hpublished
  | enqueueFailed task other =>
      by_cases hother : generation = other
      · rw [hother, mark, Function.update_self] at hpublished
        cases hpublished
      · rwa [mark, Function.update_of_ne hother] at hpublished
  | resumePublishFailed task other =>
      by_cases hother : generation = other
      · rw [hother, mark, Function.update_self] at hpublished
        cases hpublished
      · rwa [mark, Function.update_of_ne hother] at hpublished

end Occurrence

/-- The rows and the worker with the executions whose `send_task` raised. -/
structure Publishing where
  system : System
  unpublished : Generation → Bool := fun _ => false

namespace Publishing

variable (redact : JsonDict → JsonDict)

def step (state : Publishing) : Moment × Occurrence → Option Publishing
  | (moment, occurrence) =>
      if occurrence.named then
        (System.step redact state.system (moment, occurrence.action)).map fun system =>
          { system := system, unpublished := occurrence.mark state.unpublished }
      else none

def FailureMirrored (state : Publishing) : Prop :=
  state.system.FailureMirrored state.unpublished

/-- The step fails no published task of the evaluation without its evaluation, and takes no
failure back. -/
def Told (state : Publishing) (label : Moment × Occurrence) : Prop :=
  ¬state.system.Silent (label.2.mark state.unpublished) label.2.action

structure Invariant (state : Publishing) : Prop where
  system : state.system.Invariant
  settling : state.system.Settling

variable {redact} {state next : Publishing} {label : Moment × Occurrence}

theorem answered_step (hinv : state.Invariant) (hstep : step redact state label = some next) :
    next.Invariant ∧
      (state.Told label → state.FailureMirrored → next.FailureMirrored) ∧
      (next.FailureMirrored → state.Told label) := by
  obtain ⟨moment, occurrence⟩ := label
  rw [step] at hstep
  split_ifs at hstep
  obtain ⟨system, hsystem, rfl⟩ := Option.map_eq_some_iff.mp hstep
  have hkept : state.FailureMirrored →
      state.system.FailureMirrored (occurrence.mark state.unpublished) :=
    fun hmirrored row hlinked hpublished =>
      hmirrored row hlinked (occurrence.mark_of_unpublished hpublished)
  have hnext := System.invariant_preserved redact state.system _ system hinv.system hsystem
  have hanswered : System.Answered state.system system (occurrence.mark state.unpublished)
      occurrence.action := System.answered_step hinv.system hinv.settling hsystem
  exact ⟨⟨hnext, hanswered.settling⟩, fun htold hmirrored => hanswered.mirrored htold
    (hkept hmirrored), fun hmirrored hsilent => hanswered.silent hsilent hmirrored⟩

theorem invariant_opened {system : System} (hopened : system.Opened) :
    Invariant { system := system } where
  system := hopened.invariant
  settling executor _ _ _ hexecutor := by
    rw [(System.executionFree_iff.mp hopened.free).1] at hexecutor
    cases hexecutor

theorem mirrored_opened {system : System} (hopened : system.Opened) :
    FailureMirrored { system := system } := by
  intro row hlinked _ hfailed
  obtain ⟨task, -, hrow⟩ := Option.bind_eq_some_iff.mp hlinked
  cases ((hopened.known task row hrow).2.2.2).symm.trans hfailed

end Publishing

/-- In every state of a run the evaluation of a failed task that was published has failed,
exactly if every step of the run tells it. -/
theorem failure_mirrored_iff {redact : JsonDict → JsonDict} {opened : System}
    (hopened : opened.Opened) {labels : List (Moment × Occurrence)} {final : Publishing}
    (hrun : run (Publishing.step redact) { system := opened } labels = some final) :
    (∀ before after state, labels = before ++ after →
        run (Publishing.step redact) { system := opened } before = some state →
        state.FailureMirrored) ↔
      StepsMeet (Publishing.step redact) Publishing.Told { system := opened } labels := by
  constructor
  · intro hmirrored
    refine StepsMeet.of_prefixes (fun state label next hinv _ hstep =>
      (Publishing.answered_step hinv hstep).1) ?_ (Publishing.invariant_opened hopened)
    intro before label after middle hsplit hbefore hinv
    rw [hsplit] at hrun
    obtain ⟨state, hstate, hrest⟩ := run_append_eq_some.mp hrun
    rw [hbefore, Option.some_inj] at hstate
    obtain ⟨next, hstep, -⟩ := run_cons_eq_some.mp hrest
    rw [← hstate] at hstep
    refine (Publishing.answered_step hinv hstep).2.2
      (hmirrored (before ++ [label]) after next ?_ ?_)
    · rw [hsplit, List.append_assoc, List.singleton_append]
    · exact run_append_eq_some.mpr ⟨middle, hbefore, run_cons_eq_some.mpr ⟨next, hstep, rfl⟩⟩
  · intro htold before after state hsplit hbefore
    rw [hsplit] at htold
    have hboth := htold.append_left.invariant_run
      (fun state => state.Invariant ∧ state.FailureMirrored)
      (fun state label next hboth hmeets hstep =>
        have hanswered := Publishing.answered_step hboth.1 hstep
        ⟨hanswered.1, hanswered.2.1 hmeets hboth.2⟩)
      ⟨Publishing.invariant_opened hopened, Publishing.mirrored_opened hopened⟩ hbefore
    exact hboth.2

/-- An evaluation whose first task is queued. -/
def queuedEvaluation : System where
  tasks := Function.update (fun _ => none) 1 (some (newTask 1 10 .evaluation "alice"))
  evaluation := { row := { userId := "alice", status := .pending, asyncTaskId := some 1 } }
  nextTask := 2
  issued := 11

theorem queuedEvaluation_opened : queuedEvaluation.Opened := by
  refine ⟨?_, ?_, ⟨_, rfl⟩, rfl⟩
  · intro task row hrow
    by_cases htask : task = 1
    · subst htask
      obtain rfl : newTask 1 10 .evaluation "alice" = row := by
        simpa [queuedEvaluation] using hrow
      exact ⟨rfl, rfl, rfl, rfl⟩
    · simp [queuedEvaluation, htask] at hrow
  · intro task htask
    have hlater : 1 < task := htask
    simp [queuedEvaluation, hlater.ne']

/-- The worker starts the evaluation and fails it. -/
theorem failure_mirrored_by_worker :
    let labels : List (Moment × Occurrence) :=
      [({ now := 1 }, .act (.acquire 10)), ({ now := 2 }, .act .readEvaluation),
        ({ now := 3 }, .act .readTask), ({ now := 4 }, .act .start),
        ({ now := 5 }, .act (.fail "no credentials"))]
    ∃ final, run (Publishing.step id) { system := queuedEvaluation } labels = some final ∧
      ((∀ before after state, labels = before ++ after →
          run (Publishing.step id) { system := queuedEvaluation } before = some state →
          state.FailureMirrored) ↔
        StepsMeet (Publishing.step id) Publishing.Told { system := queuedEvaluation } labels) := by
  intro labels
  have hruns : (run (Publishing.step id) { system := queuedEvaluation } labels).isSome = true := by
    decide +kernel
  obtain ⟨final, hrun⟩ := Option.isSome_iff_exists.mp hruns
  exact ⟨final, hrun, failure_mirrored_iff queuedEvaluation_opened hrun⟩

/-- The worker's process is lost before it has read its rows; the next read of the task finds the
failure in the result backend. -/
theorem failure_not_mirrored :
    ∃ final, run (Publishing.step id) { system := queuedEvaluation }
        [({ now := 1 }, .act (.acquire 10)), ({ now := 2 }, .act .release),
          ({ now := 3 }, .act (.manage 1 (.syncCeleryState {} 10
            { state := .failure, info := "WorkerLostError", infoTruthy := true,
              infoDict := none })))] = some final ∧
      ¬final.FailureMirrored := by
  refine ⟨_, rfl, fun hmirrored => ?_⟩
  cases hmirrored _ rfl rfl rfl

end AlgorithmHarness.EvaluationWorker
