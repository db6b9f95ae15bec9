import AlgorithmHarness.Evaluation.Executor
import AlgorithmHarness.Evaluation.SpendLedger
import AlgorithmHarness.TaskManager.Execution

/-!
# Workers of an old generation change nothing

A resume needs the execution lock, so the generation a worker read cannot be
replaced under its feet; what can change meanwhile is the link of an evaluation
whose task failed.
-/

namespace AlgorithmHarness.EvaluationWorker

open Transition
open TaskManager
open TaskService (TaskRecord TaskUnit TaskState)

namespace System

/-- The statuses a task takes only together with its evaluation. -/
def shared : Status → Bool
  | .paused | .cancelled | .completed => true
  | .pending | .running | .failed => false

/-- The worker's task is its own generation's, and the evaluation's. -/
def Owned (system : System) (generation : Generation) (task : ℕ) : Prop :=
  ∃ row, system.tasks task = some row ∧ row.celeryTaskId = generation ∧
    system.evaluation.row.asyncTaskId = some task ∧ system.evaluation.row.status ≠ .pending

/-- What the worker may rely on, by its phase.  Only a failed task loses its
evaluation while a worker owns the lock. -/
def Holds (system : System) (generation : Generation) : Phase → Prop
  | .owning | .leaving => True
  | .linked task =>
      ∃ row, system.tasks task = some row ∧
        (system.evaluation.row.asyncTaskId = some task ∨ row.status = .failed)
  | .loaded task =>
      ∃ row, system.tasks task = some row ∧ row.celeryTaskId = generation ∧
        (system.evaluation.row.asyncTaskId = some task ∨ row.status = .failed)
  | .cancelling task =>
      ∃ row, system.tasks task = some row ∧ row.celeryTaskId = generation ∧
        row.status = .cancelled ∧ system.evaluation.row.asyncTaskId = some task
  | .working task => system.Owned generation task
  | .settling (some task) settlement =>
      system.Owned generation task ∧ settlement.status ≠ .pending
  | .settling none _ => False

structure Invariant (system : System) : Prop where
  known : ∀ task row, system.tasks task = some row → row.id = task ∧
    row.taskType = .evaluation ∧ row.userId = system.evaluation.row.userId
  fresh : ∀ task, system.nextTask ≤ task → system.tasks task = none
  linked : ∃ task row, system.evaluation.row.asyncTaskId = some task ∧
    system.tasks task = some row ∧
    (shared row.status = true → system.evaluation.row.status ≠ .pending)
  resuming : ∀ executor, system.executor = some executor → system.resuming = none
  holds : ∀ executor, system.executor = some executor →
    system.Holds executor.generation executor.phase

theorem executionFree_iff {system : System} :
    system.executionFree = true ↔ system.executor = none ∧ system.resuming = none := by
  simp [executionFree]

theorem Opened.invariant {system : System} (hopened : system.Opened) : system.Invariant where
  known task row hrow := by
    obtain ⟨hid, htype, huser, _⟩ := hopened.known task row hrow
    exact ⟨hid, htype, huser⟩
  fresh := hopened.fresh
  linked := by
    obtain ⟨row, hlinked⟩ := hopened.linked
    obtain ⟨task, htask, hrow⟩ := Option.bind_eq_some_iff.mp hlinked
    refine ⟨task, row, htask, hrow, fun hshared => ?_⟩
    rw [(hopened.known task row hrow).2.2.2] at hshared
    cases hshared
  resuming _ _ := (executionFree_iff.mp hopened.free).2
  holds executor hexecutor := by
    rw [(executionFree_iff.mp hopened.free).1] at hexecutor
    cases hexecutor

/-- What the worker relies on survives writes that keep the generations, the
terminal statuses and the link. -/
theorem Holds.mono {system next : System} {generation : Generation} {phase : Phase}
    (hholds : system.Holds generation phase)
    (hrows : ∀ task row, system.tasks task = some row → ∃ written,
      next.tasks task = some written ∧ written.celeryTaskId = row.celeryTaskId ∧
      (row.status.terminal = true → written.status = row.status))
    (hlink : next.evaluation.row.asyncTaskId = system.evaluation.row.asyncTaskId)
    (hstatus : system.evaluation.row.status ≠ .pending →
      next.evaluation.row.status ≠ .pending) : next.Holds generation phase := by
  have howned : ∀ task, system.Owned generation task → next.Owned generation task := by
    rintro task ⟨row, hrow, hgeneration, hlinked, hstarted⟩
    obtain ⟨written, hwritten, hsame, _⟩ := hrows task row hrow
    exact ⟨written, hwritten, hsame.trans hgeneration, hlink.trans hlinked, hstatus hstarted⟩
  have hfailed : ∀ (task : ℕ) (row written : AsyncTask),
      (row.status.terminal = true → written.status = row.status) →
      (system.evaluation.row.asyncTaskId = some task ∨ row.status = .failed) →
      (next.evaluation.row.asyncTaskId = some task ∨ written.status = .failed) := by
    intro task row written hterminal hlinked
    cases hlinked with
    | inl hlinked => exact .inl (hlink.trans hlinked)
    | inr hended => exact .inr ((hterminal (by rw [hended]; rfl)).trans hended)
  cases phase with
  | owning => trivial
  | leaving => trivial
  | linked task =>
      obtain ⟨row, hrow, hlinked⟩ := hholds
      obtain ⟨written, hwritten, _, hterminal⟩ := hrows task row hrow
      exact ⟨written, hwritten, hfailed task row written hterminal hlinked⟩
  | loaded task =>
      obtain ⟨row, hrow, hgeneration, hlinked⟩ := hholds
      obtain ⟨written, hwritten, hsame, hterminal⟩ := hrows task row hrow
      exact ⟨written, hwritten, hsame.trans hgeneration,
        hfailed task row written hterminal hlinked⟩
  | cancelling task =>
      obtain ⟨row, hrow, hgeneration, hcancelled, hlinked⟩ := hholds
      obtain ⟨written, hwritten, hsame, hterminal⟩ := hrows task row hrow
      exact ⟨written, hwritten, hsame.trans hgeneration,
        (hterminal (by rw [hcancelled]; rfl)).trans hcancelled, hlink.trans hlinked⟩
  | working task => exact howned task hholds
  | settling task settlement =>
      cases task with
      | none => exact hholds
      | some task => exact ⟨howned task hholds.1, hholds.2⟩

theorem Invariant.setPhase {system : System} (hinv : system.Invariant) {executor : Executor}
    (hexecutor : system.executor = some executor) {phase : Phase} (hholds : system.Holds executor.generation phase) :
    (system.setPhase executor phase).Invariant where
  known := hinv.known
  fresh := hinv.fresh
  linked := hinv.linked
  resuming _ _ := hinv.resuming executor hexecutor
  holds := by
    rintro other ⟨⟩
    exact hholds

/-- The evaluation may be written, as long as it keeps its link and owner and
does not fall back to pending. -/
theorem Invariant.setEvaluation {system : System} (hinv : system.Invariant)
    {evaluation : Evaluation}
    (hlink : evaluation.row.asyncTaskId = system.evaluation.row.asyncTaskId)
    (howner : evaluation.row.userId = system.evaluation.row.userId)
    (hstatus : evaluation.row.status = system.evaluation.row.status ∨
      evaluation.row.status ≠ .pending) :
    Invariant { system with evaluation := evaluation } := by
  have hstarted : system.evaluation.row.status ≠ .pending → evaluation.row.status ≠ .pending := by
    intro hstarted
    cases hstatus with
    | inl hsame => exact hsame ▸ hstarted
    | inr hother => exact hother
  constructor
  · intro task row hrow
    rw [howner]
    exact hinv.known task row hrow
  · exact hinv.fresh
  · obtain ⟨task, row, hlinked, hrow, hshared⟩ := hinv.linked
    exact ⟨task, row, hlink.trans hlinked, hrow, fun h => hstarted (hshared h)⟩
  · exact hinv.resuming
  · intro executor hexecutor
    apply (hinv.holds executor hexecutor).mono
    · exact fun task row hrow => ⟨row, hrow, rfl, fun _ => rfl⟩
    · exact hlink
    · exact hstarted

/-- A write of one task row with the evaluation, by the task manager. -/
theorem Invariant.managed {system : System} (hinv : system.Invariant) {task : ℕ}
    {row : AsyncTask} {after : Rows} (hrow : system.tasks task = some row)
    (hmanaged : Managed { task := row, evaluation := system.evaluation } after) :
    (system.write task after).Invariant := by
  have hstarted : system.evaluation.row.status ≠ .pending →
      after.evaluation.row.status ≠ .pending := by
    intro hstarted
    cases hmanaged.status with
    | inl hsame => rwa [hsame.1]
    | inr hmoved => exact hmoved.1 ▸ hmoved.2
  constructor
  · intro other written hwritten
    change _ ∧ _ ∧ _ = after.evaluation.row.userId
    rw [hmanaged.owner]
    by_cases hother : other = task
    · subst hother
      obtain rfl : after.task = written := by simpa [write, writeTask] using hwritten
      rw [hmanaged.id, hmanaged.userId, hmanaged.settled.taskType]
      exact hinv.known other row hrow
    · exact hinv.known other written (by simpa [write, writeTask, hother] using hwritten)
  · intro other hother
    have hnone := hinv.fresh other hother
    have hne : other ≠ task := fun heq => by simp [heq ▸ hnone] at hrow
    simpa [write, writeTask, hne] using hnone
  · obtain ⟨link, linked, hlink, hlinked, hshared⟩ := hinv.linked
    by_cases hother : link = task
    · subst hother
      refine ⟨link, after.task, hmanaged.asyncTaskId.trans hlink, by simp [write, writeTask], ?_⟩
      intro hafter
      obtain rfl : row = linked := Option.some.inj (hrow.symm.trans hlinked)
      cases hmanaged.status with
      | inr hmoved => exact hmoved.1 ▸ hmoved.2
      | inl hsame =>
          rw [show (system.write link after).evaluation.row.status = _ from hsame.1]
          obtain hstatus | hstatus | hstatus | hunlinked := hsame.2
          · exact hshared (hstatus ▸ hafter)
          · simp [hstatus, shared] at hafter
          · simp [hstatus, shared] at hafter
          · obtain ⟨hid, htype, huser⟩ := hinv.known link row hrow
            simp [mirrors, hid, htype, huser, hlink] at hunlinked
    · exact ⟨link, linked, hmanaged.asyncTaskId.trans hlink,
        by simpa [write, writeTask, hother] using hlinked, fun h => hstarted (hshared h)⟩
  · exact hinv.resuming
  · intro executor hexecutor
    apply (hinv.holds executor hexecutor).mono
    · intro other written hwritten
      by_cases hother : other = task
      · subst hother
        obtain rfl : row = written := Option.some.inj (hrow.symm.trans hwritten)
        exact ⟨after.task, by simp [write, writeTask], hmanaged.celeryTaskId,
          hmanaged.settled.absorbing⟩
      · exact ⟨written, by simpa [write, writeTask, hother] using hwritten, rfl, fun _ => rfl⟩
    · exact hmanaged.asyncTaskId
    · exact hstarted

/-! ## The steps of the worker -/

/-- What a worker bound to `generation` may do: other generations' tasks stay
as they are, and the evaluation stays so unless its task is of that
generation. -/
structure Fenced (system next : System) (generation : Generation) : Prop where
  tasks : ∀ task row, system.tasks task = some row → row.celeryTaskId ≠ generation →
    next.tasks task = some row
  evaluation : ∀ row, system.linkedTask = some row → row.celeryTaskId ≠ generation →
    next.evaluation = system.evaluation

theorem Fenced.refl (system : System) (generation : Generation) :
    Fenced system system generation where
  tasks _ _ hrow _ := hrow
  evaluation _ _ _ := rfl

theorem Fenced.setPhase {system next : System} {generation : Generation}
    (hfenced : Fenced system next generation) (executor : Executor) (phase : Phase) :
    Fenced system (next.setPhase executor phase) generation where
  tasks := hfenced.tasks
  evaluation := hfenced.evaluation

/-- A write of the evaluation alone. -/
theorem write_self {system : System} {task : ℕ} {row : AsyncTask}
    (hrow : system.tasks task = some row) (evaluation : Evaluation) :
    system.write task { task := row, evaluation := evaluation } =
      { system with evaluation := evaluation } := by
  simp [write, writeTask, Function.update_eq_self_iff, hrow]

/-- Writes of the evaluation and its task by a worker of the task's
generation. -/
theorem fenced_write {system : System} {generation : Generation} {task : ℕ}
    (hlink : system.evaluation.row.asyncTaskId = some task) {row : AsyncTask}
    (hrow : system.tasks task = some row) (hgeneration : row.celeryTaskId = generation)
    (rows : Rows) : Fenced system (system.write task rows) generation where
  tasks other written hwritten hstale := by
    have hne : other ≠ task := by
      intro heq
      subst heq
      obtain rfl : row = written := Option.some.inj (hrow.symm.trans hwritten)
      exact hstale hgeneration
    simpa [write, writeTask, hne] using hwritten
  evaluation linked hlinked hstale := by
    obtain rfl : row = linked := by
      simpa [linkedTask, hlink, hrow] using hlinked
    exact absurd hgeneration hstale

section Worker

variable {redact : JsonDict → JsonDict} {system next : System} {executor : Executor}
  {moment : Moment}

theorem fenced_readEvaluation (hinv : system.Invariant)
    (hexecutor : system.executor = some executor)
    (hstep : workerStep redact system executor moment .readEvaluation = some next) :
    next.Invariant ∧ Fenced system next executor.generation := by
  obtain ⟨task, row, hlink, hrow, _⟩ := hinv.linked
  simp only [workerStep, hlink] at hstep
  split at hstep
  · cases hstep
    exact ⟨hinv.setPhase hexecutor ⟨row, hrow, .inl hlink⟩, (Fenced.refl system _).setPhase executor _⟩
  · cases hstep

theorem fenced_readTask (hinv : system.Invariant) (hexecutor : system.executor = some executor)
    (hstep : workerStep redact system executor moment .readTask = some next) :
    next.Invariant ∧ Fenced system next executor.generation := by
  have hholds := hinv.holds executor hexecutor
  simp only [workerStep] at hstep
  split at hstep
  · next task hphase =>
      rw [hphase] at hholds
      obtain ⟨row, hrow, hlinked⟩ := hholds
      rw [hrow] at hstep
      dsimp only at hstep
      unfold admission at hstep
      split_ifs at hstep with hleave hcancelled
      · cases hstep
        exact ⟨hinv.setPhase hexecutor trivial, (Fenced.refl system _).setPhase executor _⟩
      · cases hstep
        have hgeneration : row.celeryTaskId = executor.generation := by
          by_contra hother
          exact hleave (.inl fun heq => hother heq.symm)
        have hlink : system.evaluation.row.asyncTaskId = some task := by
          simpa [hcancelled] using hlinked
        exact ⟨hinv.setPhase hexecutor ⟨row, hrow, hgeneration, hcancelled, hlink⟩, (Fenced.refl system _).setPhase executor _⟩
      · cases hstep
        have hgeneration : row.celeryTaskId = executor.generation := by
          by_contra hother
          exact hleave (.inl fun heq => hother heq.symm)
        exact ⟨hinv.setPhase hexecutor ⟨row, hrow, hgeneration, hlinked⟩, (Fenced.refl system _).setPhase executor _⟩
  · cases hstep

/-- The evaluation alone, written while its task is the worker's. -/
theorem Invariant.ownEvaluation (hinv : system.Invariant) {task : ℕ} {row : AsyncTask}
    (hrow : system.tasks task = some row) (hgeneration : row.celeryTaskId = executor.generation)
    (hlink : system.evaluation.row.asyncTaskId = some task) (evaluation : Evaluation)
    (hsame : evaluation.row.asyncTaskId = system.evaluation.row.asyncTaskId)
    (howner : evaluation.row.userId = system.evaluation.row.userId)
    (hstatus : evaluation.row.status = system.evaluation.row.status ∨
      evaluation.row.status ≠ .pending) :
    Invariant { system with evaluation := evaluation } ∧
      Fenced system { system with evaluation := evaluation } executor.generation := by
  refine ⟨hinv.setEvaluation hsame howner hstatus, ?_⟩
  rw [← write_self hrow evaluation]
  exact fenced_write hlink hrow hgeneration _

theorem fenced_markCancelled (hinv : system.Invariant)
    (hexecutor : system.executor = some executor)
    (hstep : workerStep redact system executor moment .markCancelled = some next) :
    next.Invariant ∧ Fenced system next executor.generation := by
  have hholds := hinv.holds executor hexecutor
  simp only [workerStep] at hstep
  split at hstep
  · next task hphase =>
      rw [hphase] at hholds
      obtain ⟨row, hrow, hgeneration, _, hlink⟩ := hholds
      cases hstep
      have hwritten := hinv.ownEvaluation hrow hgeneration hlink
        (system.setStatus .cancelled).evaluation rfl rfl (.inr nofun)
      exact ⟨hwritten.1.setPhase hexecutor trivial, hwritten.2.setPhase executor _⟩
  · cases hstep

theorem fenced_start (hinv : system.Invariant) (hexecutor : system.executor = some executor)
    (hstep : workerStep redact system executor moment .start = some next) :
    next.Invariant ∧ Fenced system next executor.generation := by
  have hholds := hinv.holds executor hexecutor
  simp only [workerStep] at hstep
  split at hstep
  · next task hphase =>
      rw [hphase] at hholds
      obtain ⟨row, hrow, hgeneration, hlinked⟩ := hholds
      simp only [hrow, Option.bind_some] at hstep
      unfold EvaluationWorker.start at hstep
      split_ifs at hstep with hleave
      · cases hstep
        exact ⟨hinv.setPhase hexecutor trivial, (Fenced.refl system _).setPhase executor _⟩
      · cases hstep
        have hlink : system.evaluation.row.asyncTaskId = some task := by
          cases hlinked with
          | inl hlink => exact hlink
          | inr hfailed => exact absurd (.inr (.inl (by rw [hfailed]; rfl))) hleave
        have hrunning : (system.setStatus .running).Invariant :=
          hinv.setEvaluation rfl rfl (.inr nofun)
        have hmanaged : Managed
            (Rows.setStatus { task := row, evaluation := system.evaluation } .running) _ :=
          managed_report moment (hinv.known task row hrow).2.1 executor.generation .running none
            nofun
        have hwritten := hrunning.managed hrow hmanaged
        refine ⟨hwritten.setPhase hexecutor ⟨_, Function.update_self .., ?_, ?_, ?_⟩, ?_⟩
        · exact hmanaged.celeryTaskId.trans hgeneration
        · exact hmanaged.asyncTaskId.trans hlink
        · cases hmanaged.status with
          | inl hsame => exact fun hpending => nomatch hsame.1.symm.trans hpending
          | inr hmoved => exact fun hpending => hmoved.2 (hmoved.1.symm.trans hpending)
        · have hfenced := fenced_write hlink hrow hgeneration
            ((Rows.setStatus { task := row, evaluation := system.evaluation } .running).report
              moment executor.generation .running none)
          exact ⟨hfenced.tasks, hfenced.evaluation⟩
  · cases hstep

theorem fenced_reportProgress (hinv : system.Invariant)
    (hexecutor : system.executor = some executor) {progress : JsonDict}
    (hstep : workerStep redact system executor moment (.reportProgress progress) = some next) :
    next.Invariant ∧ Fenced system next executor.generation := by
  have hholds := hinv.holds executor hexecutor
  simp only [workerStep] at hstep
  split at hstep
  · next task hphase =>
      rw [hphase] at hholds
      obtain ⟨row, hrow, hgeneration, hlink, _⟩ := hholds
      simp only [hrow, Option.map_some] at hstep
      cases hstep
      have hmanaged : Managed { task := row, evaluation := system.evaluation }
          { task := EvaluationWorker.reportProgress executor.generation progress row
            evaluation := system.evaluation } := by
        unfold EvaluationWorker.reportProgress
        split_ifs
        · exact .refl _
        · exact ⟨rfl, rfl, rfl, .inl ⟨rfl, rfl, rfl, rfl⟩, rfl, rfl, rfl, .inl ⟨rfl, .inl rfl⟩⟩
      exact ⟨hinv.managed hrow hmanaged, fenced_write hlink hrow hgeneration
        { task := EvaluationWorker.reportProgress executor.generation progress row
          evaluation := system.evaluation }⟩
  · cases hstep

theorem fenced_unitFinished (hinv : system.Invariant)
    (hexecutor : system.executor = some executor) {record : TaskRecord JsonDict}
    {unit : TaskUnit JsonDict}
    (hstep : workerStep redact system executor moment (.unitFinished record unit) = some next) :
    next.Invariant ∧ Fenced system next executor.generation := by
  have hholds := hinv.holds executor hexecutor
  simp only [workerStep] at hstep
  split at hstep
  · next task hphase =>
      rw [hphase] at hholds
      obtain ⟨row, hrow, hgeneration, hlink, _⟩ := hholds
      simp only [hrow, Option.map_some] at hstep
      split at hstep
      · next evaluation hdelivery =>
          cases hstep
          have hsame : evaluation.row = system.evaluation.row := by
            cases onUnitFinished_ok hdelivery with
            | inl hfenced => rw [hfenced.2]
            | inr hrecorded =>
                obtain ⟨_, _, _, _, _, _, _, _, hsame⟩ := hrecorded
                exact hsame
          exact hinv.ownEvaluation hrow hgeneration hlink _ (by rw [hsame]) (by rw [hsame])
            (.inl (by rw [hsame]))
      · cases hstep
        exact ⟨hinv, .refl system _⟩
  · cases hstep

variable (moment) in
/-- A status the worker reports for its open task, the evaluation's columns
still to be settled. -/
theorem fenced_report (hinv : system.Invariant) (hexecutor : system.executor = some executor)
    {task : ℕ} {row : AsyncTask}
    (hrow : system.tasks task = some row) (hgeneration : row.celeryTaskId = executor.generation)
    (hlink : system.evaluation.row.asyncTaskId = some task)
    (hopen : row.status.terminal = false) (hactive : row.status ≠ .paused) (status : Status)
    (hstatus : status ≠ .pending) (errorMessage : Option String) :
    let rows := Rows.report { task := row, evaluation := system.evaluation } moment
      executor.generation status errorMessage
    ((system.write task rows).setPhase executor
        (.settling (some task) { status := status, errorMessage := errorMessage })).Invariant ∧
      Fenced system (system.write task rows) executor.generation := by
  intro rows
  obtain ⟨hid, htype, huser⟩ := hinv.known task row hrow
  have hmirrors : mirrors row system.evaluation.row = true := by
    simp [mirrors, hid, huser, hlink]
  have hmanaged : Managed { task := row, evaluation := system.evaluation } rows :=
    managed_report moment htype executor.generation status errorMessage hstatus
  have hreported : (Rows.report { task := row, evaluation := system.evaluation } moment
      row.celeryTaskId status errorMessage).evaluation.row.status = status :=
    report_status moment htype hmirrors hopen hactive status errorMessage
  rw [hgeneration] at hreported
  refine ⟨(hinv.managed hrow hmanaged).setPhase hexecutor ⟨⟨_, Function.update_self .., ?_, ?_, ?_⟩, hstatus⟩,
    fenced_write hlink hrow hgeneration rows⟩
  · exact hmanaged.celeryTaskId.trans hgeneration
  · exact hmanaged.asyncTaskId.trans hlink
  · exact fun hpending => hstatus (hreported.symm.trans hpending)

/-- The end of a worker's run, by the state of its checkpoint. -/
theorem fenced_finish (hinv : system.Invariant) (hexecutor : system.executor = some executor)
    {state : TaskState} {error : Option String}
    (hstep : workerStep redact system executor moment (.finish state error) = some next) :
    next.Invariant ∧ Fenced system next executor.generation := by
  have hholds := hinv.holds executor hexecutor
  simp only [workerStep] at hstep
  split at hstep
  · next task hphase =>
      rw [hphase] at hholds
      obtain ⟨row, hrow, hgeneration, hlink, hstarted⟩ := hholds
      simp only [hrow, Option.map_some, EvaluationWorker.finish] at hstep
      have hsame := hinv.ownEvaluation hrow hgeneration hlink system.evaluation rfl rfl (.inl rfl)
      split_ifs at hstep with hended hcancelled
      · cases hstep
        have hmoved : row.status ≠ .pending := by
          intro hpending
          simp [hgeneration, hpending] at hended
        have hwritten := hinv.ownEvaluation hrow hgeneration hlink
          (system.setStatus row.status).evaluation rfl rfl (.inr hmoved)
        rw [← write_self hrow] at hwritten
        exact ⟨hwritten.1.setPhase hexecutor trivial, hwritten.2.setPhase executor _⟩
      · cases hstep
        have hwritten := hinv.ownEvaluation hrow hgeneration hlink
          (system.setStatus .cancelled).evaluation rfl rfl (.inr fun hpending => by cases hpending)
        rw [← write_self hrow] at hwritten
        exact ⟨hwritten.1.setPhase hexecutor trivial, hwritten.2.setPhase executor _⟩
      · have hopen : row.status.terminal = false := by
          cases hstatus : row.status <;> simp_all [Status.terminal]
        have hactive : row.status ≠ .paused := fun hpaused =>
          hended (.inr (.inr (.inr hpaused)))
        have hreported := fenced_report moment hinv hexecutor hrow hgeneration hlink hopen hactive
        rw [← write_self hrow] at hsame
        cases state with
        | queued =>
            cases hstep
            exact ⟨hsame.1.setPhase hexecutor trivial, hsame.2.setPhase executor _⟩
        | running =>
            cases hstep
            exact ⟨hsame.1.setPhase hexecutor trivial, hsame.2.setPhase executor _⟩
        | paused =>
            cases hstep
            have hwritten := hreported .paused (by decide) none
            exact ⟨hwritten.1, hwritten.2.setPhase executor _⟩
        | completed =>
            cases hstep
            have hwritten := hreported .completed (by decide) none
            exact ⟨hwritten.1, hwritten.2.setPhase executor _⟩
        | failed =>
            cases hstep
            have hwritten := hreported .failed (by decide) error
            exact ⟨hwritten.1, hwritten.2.setPhase executor _⟩
        | cancelled =>
            cases hstep
            have hwritten := hreported .cancelled (by decide) none
            exact ⟨hwritten.1, hwritten.2.setPhase executor _⟩
  · cases hstep

/-- The exception handlers, before or after the evaluation has started. -/
theorem fenced_fail (hinv : system.Invariant) (hexecutor : system.executor = some executor)
    {message : String}
    (hstep : workerStep redact system executor moment (.fail message) = some next) :
    next.Invariant ∧ Fenced system next executor.generation := by
  have hholds := hinv.holds executor hexecutor
  have hfail : ∀ task row, system.tasks task = some row →
      row.celeryTaskId = executor.generation →
      (system.evaluation.row.asyncTaskId = some task ∨ row.status = .failed) →
      ∀ written, EvaluationWorker.fail moment executor.generation message
          { task := row, evaluation := system.evaluation } = written →
      (system.write task written.1).setPhase executor
          (written.2.elim .leaving (.settling (some task))) = next →
      next.Invariant ∧ Fenced system next executor.generation := by
    intro task row hrow hgeneration hlinked written hfail hstep
    unfold EvaluationWorker.fail at hfail
    dsimp only at hfail
    split_ifs at hfail with hended
    · cases hfail
      cases hstep
      rw [write_self hrow]
      exact ⟨hinv.setPhase hexecutor trivial, (Fenced.refl system _).setPhase executor _⟩
    · cases hfail
      cases hstep
      have hopen : row.status.terminal = false := by
        cases hstatus : row.status <;> simp_all [Status.terminal]
      have hlink : system.evaluation.row.asyncTaskId = some task := by
        cases hlinked with
        | inl hlink => exact hlink
        | inr hfailed => simp [hfailed, Status.terminal] at hopen
      have hreported := fenced_report moment hinv hexecutor hrow hgeneration hlink hopen
        (fun hpaused => hended (.inr (.inl hpaused))) .failed (by decide) (some message)
      exact ⟨hreported.1, hreported.2.setPhase executor _⟩
  simp only [workerStep] at hstep
  split at hstep
  · next task hphase =>
      rw [hphase] at hholds
      obtain ⟨row, hrow, hgeneration, hlinked⟩ := hholds
      simp only [hrow, Option.map_some] at hstep
      exact hfail task row hrow hgeneration hlinked _ rfl (Option.some.inj hstep)
  · next task hphase =>
      rw [hphase] at hholds
      obtain ⟨row, hrow, hgeneration, hlink, _⟩ := hholds
      simp only [hrow, Option.map_some] at hstep
      exact hfail task row hrow hgeneration (.inl hlink) _ rfl (Option.some.inj hstep)
  · cases hstep

theorem fenced_settle (hinv : system.Invariant) (hexecutor : system.executor = some executor)
    (hstep : workerStep redact system executor moment .settle = some next) :
    next.Invariant ∧ Fenced system next executor.generation := by
  have hholds := hinv.holds executor hexecutor
  simp only [workerStep] at hstep
  split at hstep
  · next task settlement hphase =>
      rw [hphase] at hholds
      cases task with
      | none => exact hholds.elim
      | some task =>
          obtain ⟨⟨row, hrow, hgeneration, hlink, _⟩, hstatus⟩ := hholds
          cases hstep
          have hsettled := settle_row moment.now settlement system.evaluation
          have hwritten := hinv.ownEvaluation hrow hgeneration hlink _ hsettled.2.1 hsettled.2.2
            (.inr (hsettled.1 ▸ hstatus))
          exact ⟨hwritten.1.setPhase hexecutor trivial, hwritten.2.setPhase executor _⟩
  · cases hstep

/-- Every step of the worker that owns the lock. -/
theorem fenced_workerStep (hinv : system.Invariant) (hexecutor : system.executor = some executor)
    {action : Action} (hstep : workerStep redact system executor moment action = some next) :
    next.Invariant ∧ Fenced system next executor.generation := by
  cases action with
  | readEvaluation => exact fenced_readEvaluation hinv hexecutor hstep
  | readTask => exact fenced_readTask hinv hexecutor hstep
  | markCancelled => exact fenced_markCancelled hinv hexecutor hstep
  | start => exact fenced_start hinv hexecutor hstep
  | reportProgress progress => exact fenced_reportProgress hinv hexecutor hstep
  | unitFinished record unit => exact fenced_unitFinished hinv hexecutor hstep
  | finish state error => exact fenced_finish hinv hexecutor hstep
  | fail message => exact fenced_fail hinv hexecutor hstep
  | settle => exact fenced_settle hinv hexecutor hstep
  | release =>
      cases hstep
      exact ⟨⟨hinv.known, hinv.fresh, hinv.linked, nofun, nofun⟩, fun _ _ hrow _ => hrow,
        fun _ _ _ => rfl⟩
  | _ => cases hstep

end Worker

/-! ## The steps of the API -/

section User

variable {system next : System} {moment : Moment}

/-- A new task row takes the link over from a task no worker relies on. -/
theorem Invariant.enqueue (hinv : system.Invariant) {userId : String}
    (huser : system.evaluation.row.userId = userId)
    (hholds : ∀ executor, system.executor = some executor →
      (system.enqueue userId).Holds executor.generation executor.phase) :
    (system.enqueue userId).Invariant where
  known := by
    intro task row hrow
    by_cases hnew : task = system.nextTask
    · subst hnew
      obtain rfl : newTask system.nextTask system.issued .evaluation userId = row := by
        simpa [System.enqueue] using hrow
      exact ⟨rfl, rfl, huser.symm⟩
    · exact hinv.known task row (by simpa [System.enqueue, hnew] using hrow)
  fresh := by
    intro task htask
    have hlater : system.nextTask < task := htask
    simpa [System.enqueue, hlater.ne'] using hinv.fresh task hlater.le
  linked :=
    ⟨system.nextTask, newTask system.nextTask system.issued .evaluation userId, rfl,
      Function.update_self .., nofun⟩
  resuming := hinv.resuming
  holds := hholds

theorem preserved_resumeTask (hinv : system.Invariant) {task : ℕ} {capacity : Bool}
    {userId : String}
    (hstep : userStep system moment (.resumeTask task capacity userId) = some next) :
    next.Invariant := by
  simp only [userStep] at hstep
  obtain ⟨row, hrow, hstep⟩ := Option.map_eq_some_iff.mp hstep
  split at hstep
  · next written hresume =>
      subst hstep
      obtain ⟨hid, htype, huser⟩ := hinv.known task row hrow
      obtain ⟨_, hfree, hcheck, _, rfl⟩ := resumeTask_eq_ok hresume
      have hexecutor := (executionFree_iff.mp (hfree htype)).1
      have hlink : system.evaluation.row.asyncTaskId = some task := by
        by_contra hunlinked
        simp [checkResumable, Rows.records, htype, hid, hunlinked] at hcheck
      have hresumed : (resumedTask system.issued row).taskType = .evaluation := htype
      have hwritten := syncBusiness_evaluation moment system.evaluation.row hresumed
      have hmirrors : mirrors (resumedTask system.issued row) system.evaluation.row = true := by
        simp [mirrors, resumedTask, hid, huser, hlink]
      rw [if_pos hmirrors] at hwritten
      dsimp only [Rows.records]
      rw [hwritten]
      constructor
      · intro other written hother
        by_cases hsame : other = task
        · subst hsame
          obtain rfl : resumedTask system.issued row = written := by
            simpa [write, writeTask, Rows.commit] using hother
          exact hinv.known other row hrow
        · exact hinv.known other written (by simpa [write, writeTask, hsame] using hother)
      · intro other hother
        have hnone := hinv.fresh other hother
        have hne : other ≠ task := fun heq => by simp [heq ▸ hnone] at hrow
        simpa [write, writeTask, hne] using hnone
      · exact ⟨task, resumedTask system.issued row, hlink,
          by simp [write, writeTask, Rows.commit], fun hresumed => by cases hresumed⟩
      · exact hinv.resuming
      · intro executor hother
        cases hexecutor.symm.trans hother
  · subst hstep
    exact hinv

/-- A new start needs a pending evaluation, so the task it replaces failed. -/
theorem Invariant.startEvaluation (hinv : system.Invariant) {row : AsyncTask} {userId : String}
    (hlinked : system.linkedTask = some row)
    (hpending : system.evaluation.row.status = .pending) (hended : row.status.terminal = true)
    (huser : system.evaluation.row.userId = userId) :
    (system.enqueue userId).Invariant := by
  obtain ⟨link, linked, hlink, hrow, hshared⟩ := hinv.linked
  obtain rfl : linked = row := by simpa [linkedTask, hlink, hrow] using hlinked
  have hfailed : linked.status = .failed := by
    cases hstatus : linked.status <;> simp_all [Status.terminal, shared]
  have hkept : ∀ task kept, system.tasks task = some kept →
      (system.enqueue userId).tasks task = some kept := by
    intro task kept hkept
    have hne : task ≠ system.nextTask := by
      intro heq
      cases (hinv.fresh task heq.ge).symm.trans hkept
    simpa [System.enqueue, hne] using hkept
  have hlost : ∀ task kept, system.tasks task = some kept →
      (system.evaluation.row.asyncTaskId = some task ∨ kept.status = .failed) →
      kept.status = .failed := by
    intro task kept hkept hcase
    cases hcase with
    | inr hfailed => exact hfailed
    | inl hsame =>
        obtain rfl : link = task := Option.some.inj (hlink.symm.trans hsame)
        obtain rfl : linked = kept := Option.some.inj (hrow.symm.trans hkept)
        exact hfailed
  refine hinv.enqueue huser fun executor hexecutor => ?_
  have hholds := hinv.holds executor hexecutor
  cases hphase : executor.phase with
  | owning => trivial
  | leaving => trivial
  | linked task =>
      rw [hphase] at hholds
      obtain ⟨kept, htask, hcase⟩ := hholds
      exact ⟨kept, hkept task kept htask, .inr (hlost task kept htask hcase)⟩
  | loaded task =>
      rw [hphase] at hholds
      obtain ⟨kept, htask, hgeneration, hcase⟩ := hholds
      exact ⟨kept, hkept task kept htask, hgeneration, .inr (hlost task kept htask hcase)⟩
  | cancelling task =>
      rw [hphase] at hholds
      obtain ⟨kept, htask, _, hcancelled, hsame⟩ := hholds
      have hfailed := hlost task kept htask (.inl hsame)
      cases hcancelled.symm.trans hfailed
  | working task =>
      rw [hphase] at hholds
      exact absurd hpending hholds.choose_spec.2.2.2
  | settling task settlement =>
      rw [hphase] at hholds
      cases task with
      | none => exact hholds.elim
      | some task => exact absurd hpending hholds.1.choose_spec.2.2.2

theorem preserved_userStep (hinv : system.Invariant) {action : Action}
    (hstep : userStep system moment action = some next) : next.Invariant := by
  cases action with
  | manage task transaction =>
      simp only [userStep] at hstep
      split_ifs at hstep with huser
      obtain ⟨row, hrow, rfl⟩ := Option.map_eq_some_iff.mp hstep
      exact hinv.managed hrow (managed_userTransaction moment (hinv.known task row hrow).2.1 huser)
  | resumeTask task capacity userId => exact preserved_resumeTask hinv hstep
  | checkResume userId =>
      simp only [userStep] at hstep
      split at hstep
      · split_ifs at hstep with hallowed
        cases hstep
        have hexecutor := (executionFree_iff.mp hallowed.1).1
        refine ⟨hinv.known, hinv.fresh, hinv.linked, ?_, hinv.holds⟩
        intro executor hother
        cases hexecutor.symm.trans hother
      · cases hstep
  | linkResume userId =>
      simp only [userStep] at hstep
      split at hstep
      · next task hresuming =>
          split_ifs at hstep with hallowed
          cases hstep
          have hfree : ∀ executor, system.executor ≠ some executor := by
            intro executor hexecutor
            cases hresuming.symm.trans (hinv.resuming executor hexecutor)
          have henqueued := hinv.enqueue hallowed.1 fun executor hexecutor =>
            absurd hexecutor (hfree executor)
          exact ⟨henqueued.known, henqueued.fresh, henqueued.linked, fun _ _ => rfl,
            fun executor hexecutor => absurd hexecutor (hfree executor)⟩
      · cases hstep
  | abandonResume =>
      cases hstep
      exact ⟨hinv.known, hinv.fresh, hinv.linked, fun _ _ => rfl, hinv.holds⟩
  | startEvaluation userId =>
      simp only [userStep] at hstep
      split at hstep
      · next row hlinked =>
          split_ifs at hstep with hallowed
          cases hstep
          exact hinv.startEvaluation hlinked hallowed.2.1 hallowed.2.2 hallowed.1
      · cases hstep
  | cancelEvaluation =>
      cases hstep
      exact hinv.setEvaluation rfl rfl (.inr nofun)
  | recoverInterrupted =>
      simp only [userStep] at hstep
      split_ifs at hstep
      cases hstep
      exact hinv.setEvaluation rfl rfl (.inr nofun)
  | _ => cases hstep

end User

theorem invariant_preserved (redact : JsonDict → JsonDict) :
    Preserved (step redact) Invariant := by
  rintro system ⟨moment, action⟩ next hinv hstep
  rcases step_cases hstep with ⟨generation, -, hfree, rfl⟩ | ⟨-, executor, hexecutor, hworker⟩ | huser
  · refine ⟨hinv.known, hinv.fresh, hinv.linked, ?_, ?_⟩
    · exact fun _ _ => (executionFree_iff.mp hfree).2
    · rintro executor ⟨⟩
      trivial
  · exact (fenced_workerStep hinv hexecutor hworker).1
  · exact preserved_userStep hinv huser

end System

/-! ## The fence of the manager's own operations -/

/-- The transactions made for one generation: by a manager that is bound to it,
or on news about it. -/
def boundTo (generation : Generation) : Transaction → Bool
  | .claimTask _ celeryTaskId _ => celeryTaskId = some generation
  | .updateTaskProgress manager _ _ | .updateTaskStatus manager _ _ | .confirmStopped manager =>
      manager.celeryTaskId = some generation
  | .syncCeleryState _ other _ | .resumePublishFailed other | .recordAbTestFailure other _ _ =>
      other = generation
  | _ => false

theorem transitionBlocked_of_stale {generation : Generation} {manager : Manager}
    (hmanager : manager.celeryTaskId = some generation) {task : AsyncTask}
    (hstale : task.celeryTaskId ≠ generation) (status : Status) :
    transitionBlocked manager task status = true := by
  simp [transitionBlocked, hmanager, hstale]

theorem apply_of_stale {generation : Generation} {transaction : Transaction}
    (hbound : boundTo generation transaction = true) {records : Records}
    (hstale : records.task.celeryTaskId ≠ generation) (moment : Moment) :
    transaction.apply moment records = records := by
  cases transaction with
  | claimTask manager celeryTaskId attempt =>
      have hgeneration : celeryTaskId = some generation := of_decide_eq_true hbound
      simp [Transaction.apply, claimTask, hgeneration, hstale]
  | updateTaskProgress manager progress status =>
      exact if_pos (transitionBlocked_of_stale (of_decide_eq_true hbound) hstale status)
  | updateTaskStatus manager status errorMessage =>
      exact if_pos (transitionBlocked_of_stale (of_decide_eq_true hbound) hstale status)
  | confirmStopped manager =>
      have hgeneration : manager.celeryTaskId = some generation := of_decide_eq_true hbound
      simp [Transaction.apply, confirmStopped, hgeneration, hstale]
  | syncCeleryState manager other result =>
      obtain rfl : other = generation := of_decide_eq_true hbound
      exact if_pos (.inl hstale)
  | resumePublishFailed other =>
      obtain rfl : other = generation := of_decide_eq_true hbound
      exact if_neg hstale
  | recordAbTestFailure other exception attempt =>
      obtain rfl : other = generation := of_decide_eq_true hbound
      exact if_neg fun heligible => hstale heligible.2.1
  | _ => cases hbound

/-- `BenchmarkService._execute` pauses for the budget without naming a
generation, but an executing worker is always of the current one. -/
theorem budgetPause_of_stale {system : TaskManager.System} (hinv : system.Invariant) {worker : ℕ}
    (hexecuting : system.executing worker = true)
    (hstale : (system.workers worker).manager.celeryTaskId ≠
      some system.records.task.celeryTaskId) :
    (budgetPause system.records).task = system.records.task := by
  simp only [TaskManager.System.executing, Bool.and_eq_true, Bool.not_eq_true'] at hexecuting
  have hended : system.records.task.status.terminal = true := by
    by_contra hopen
    rw [Bool.not_eq_true] at hopen
    exact hstale (hinv.unconfirmed worker hexecuting.1.1 hexecuting.2 hopen).1
  have hstopped : system.records.task.status ≠ .running := by
    intro hrunning
    simp [hrunning, Status.terminal] at hended
  unfold budgetPause
  split_ifs <;> rfl

/-- Generation fencing: a transaction made for one generation leaves the rows of
a task of another as they are; the evaluation worker, whatever the users do
between its steps, changes no task of another generation, nor an evaluation
whose task is of another; and the one pause that names no generation is never
made for a stale one. -/
theorem generation_fenced {redact : JsonDict → JsonDict} {opened system : System}
    (hopened : opened.Opened) (hreach : Reachable (System.step redact) opened system)
    {queued business : TaskManager.System} (hqueued : queued.Queued)
    (hbusiness : Reachable TaskManager.System.step queued business) :
    (∀ generation transaction moment records, boundTo generation transaction = true →
        records.task.celeryTaskId ≠ generation → transaction.apply moment records = records) ∧
      (∀ executor, system.executor = some executor → ∀ moment action next,
        action.ofWorker = true → System.step redact system (moment, action) = some next →
        (∀ task row, system.tasks task = some row →
          row.celeryTaskId ≠ executor.generation → next.tasks task = some row) ∧
        ∀ row, system.linkedTask = some row → row.celeryTaskId ≠ executor.generation →
          next.evaluation = system.evaluation) ∧
      ∀ worker, business.executing worker = true →
        (business.workers worker).manager.celeryTaskId ≠
          some business.records.task.celeryTaskId →
        (budgetPause business.records).task = business.records.task := by
  have hinv := (System.invariant_preserved redact).reachable hopened.invariant hreach
  have hclaims := TaskManager.System.invariant_preserved.reachable hqueued.invariant hbusiness
  refine ⟨?_, ?_, fun worker => budgetPause_of_stale hclaims⟩
  · exact fun generation transaction moment records hbound hstale =>
      apply_of_stale hbound hstale moment
  · intro executor hexecutor moment action next hworker hstep
    have hfenced : System.Fenced system next executor.generation := by
      cases action with
      | acquire generation => simp [System.step, System.executionFree, hexecutor] at hstep
      | _ =>
          simp only [System.step, hworker, hexecutor, if_true, Option.bind_some] at hstep
          exact (System.fenced_workerStep hinv hexecutor hstep).2
    exact ⟨hfenced.tasks, hfenced.evaluation⟩

/-- A task is paused and resumed as generation 11; the old message, delivered
again, changes neither row. -/
theorem generation_fenced_redelivered :
    let opened : System :=
      { tasks := Function.update (fun _ => none) 1 (some (newTask 1 10 .evaluation "alice"))
        evaluation := { row := { userId := "alice", status := .pending, asyncTaskId := some 1 } }
        nextTask := 2
        issued := 11 }
    let labels : List (Moment × Action) :=
      [({ now := 1 }, .acquire 10), ({ now := 2 }, .readEvaluation), ({ now := 3 }, .readTask),
        ({ now := 4 }, .start), ({ now := 5 }, .manage 1 (.pauseTask "alice")),
        ({ now := 6 }, .finish .paused none), ({ now := 7 }, .release),
        ({ now := 8 }, .resumeTask 1 true "alice"), ({ now := 9 }, .acquire 10),
        ({ now := 10 }, .readEvaluation)]
    ∃ system, run (System.step id) opened labels = some system ∧
      (system.tasks 1).map (·.celeryTaskId) = some 11 ∧
      ∀ next, System.step id system ({ now := 11 }, .readTask) = some next →
        (next.tasks 1).map (·.celeryTaskId) = some 11 ∧ next.evaluation = system.evaluation := by
  intro opened labels
  have hopened : opened.Opened := by
    refine ⟨?_, ?_, ⟨_, rfl⟩, rfl⟩
    · intro task row hrow
      by_cases htask : task = 1
      · subst htask
        obtain rfl : newTask 1 10 .evaluation "alice" = row := by simpa [opened] using hrow
        exact ⟨rfl, rfl, rfl, rfl⟩
      · simp [opened, htask] at hrow
    · intro task htask
      have hlater : 1 < task := htask
      simp [opened, hlater.ne']
  let queued : TaskManager.System :=
    { records := { task := newTask 1 10 .experiment "alice", business := {} }, issued := 11 }
  have hqueued : queued.Queued := ⟨rfl, rfl, by decide, fun _ => rfl⟩
  have hfinal : (run (System.step id) opened labels).map (fun system =>
      ((system.tasks 1).map (·.celeryTaskId), system.executor.map (·.generation),
        system.evaluation.row.asyncTaskId)) = some (some 11, some 10, some 1) := by
    decide +kernel
  obtain ⟨system, hrun, hfacts⟩ := Option.map_eq_some_iff.mp hfinal
  simp only [Prod.mk.injEq] at hfacts
  obtain ⟨hgeneration, hexecutor, hlink⟩ := hfacts
  obtain ⟨row, hrow, hcurrent⟩ := Option.map_eq_some_iff.mp hgeneration
  obtain ⟨executor, hexecutor, hold⟩ := Option.map_eq_some_iff.mp hexecutor
  refine ⟨system, hrun, hgeneration, fun next hnext => ?_⟩
  have hstale : row.celeryTaskId ≠ executor.generation := by
    rw [hcurrent, hold]
    decide
  have hfenced := (generation_fenced hopened ⟨labels, hrun⟩ hqueued (.refl queued)).2.1 executor
    hexecutor { now := 11 } .readTask next rfl hnext
  constructor
  · rw [hfenced.1 1 row hrow hstale, Option.map_some, hcurrent]
  · exact hfenced.2 row (by simp [System.linkedTask, hlink, hrow]) hstale

end AlgorithmHarness.EvaluationWorker
