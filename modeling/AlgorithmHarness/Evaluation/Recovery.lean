import AlgorithmHarness.Evaluation.Checkpoint
import AlgorithmHarness.Evaluation.Fencing
import AlgorithmHarness.TaskService.Lifecycle
import AlgorithmHarness.TaskService.ServiceRecord

/-!
# Recovery after a crash

What the next worker makes of the rows and the checkpoint a dead one left.  It
goes on from any checkpoint but one that is still queued or was cancelled: that
one it neither resumes nor, as the file exists, creates.
-/

namespace AlgorithmHarness.EvaluationWorker

open Transition
open TaskManager
open TaskService (TaskRecord TaskUnit TaskState RunOptions RunProcess)

/-! ## The checkpoint file -/

def Plan.fingerprints (plan : Plan) : String × String :=
  (plan.configFingerprint, plan.datasetFingerprint)

theorem createTaskUnits_queued (uuid : ℕ → String) (freezeProblem : String → JsonDict)
    (plan : Plan) : ∀ unit ∈ createTaskUnits uuid freezeProblem plan,
      unit.status = .queued ∧ unit.uncertain = false := by
  intro unit hunit
  obtain ⟨index, _, rfl⟩ := List.mem_mapIdx.mp hunit
  exact ⟨rfl, rfl⟩

/-- The fingerprint check passes on the worker's own checkpoint. -/
theorem validateResumeFingerprints_of_eq {record : TaskRecord JsonDict} {plan : Plan}
    (hrecord : record.fingerprints = plan.fingerprints) :
    record.validateResumeFingerprints (some plan.configFingerprint)
      (some plan.datasetFingerprint) = .ok () := by
  obtain ⟨hconfig, hdataset⟩ := Prod.mk.inj hrecord
  simp [TaskRecord.validateResumeFingerprints, hconfig, hdataset]

theorem begin_stored {options : RunOptions} {latched : Bool}
    {stored : Option (TaskRecord JsonDict)} {process : RunProcess JsonDict}
    (hbegin : RunProcess.begin options latched stored = .ok process) :
    ∃ record, stored = some record := by
  cases stored with
  | some record => exact ⟨record, rfl⟩
  | none =>
      unfold RunProcess.begin at hbegin
      split at hbegin <;> cases hbegin

/-- What a cancel request leaves as it was. -/
theorem requestCancel_kept (record : TaskRecord JsonDict) :
    (record.requestCancel.getD record).units = record.units ∧
      (record.requestCancel.getD record).state = record.state ∧
      (record.requestCancel.getD record).fingerprints = record.fingerprints := by
  unfold TaskRecord.requestCancel
  split <;> exact ⟨rfl, rfl, rfl⟩

/-! ## Steps of the rows -/

namespace System

variable {redact : JsonDict → JsonDict} {system next : System} {moment : Moment}

/-- A ledger commit is a step of the rows. -/
theorem recordUnit_step {record : TaskRecord JsonDict} {unit : TaskUnit JsonDict}
    (hrecord : system.recordUnit redact record unit = some (.ok next)) :
    system.step redact (moment, .unitFinished record unit) = some next := by
  unfold recordUnit at hrecord
  obtain ⟨executor, hexecutor, hrecord⟩ := Option.bind_eq_some_iff.mp hrecord
  split at hrecord
  · next task hphase =>
      obtain ⟨row, hrow, hledger⟩ := Option.map_eq_some_iff.mp hrecord
      cases hdelivery : onUnitFinished redact row executor.generation record unit
          system.evaluation with
      | error message => simp [hdelivery, Except.map] at hledger
      | ok evaluation =>
          rw [hdelivery] at hledger
          cases hledger
          simp [step, Action.ofWorker, hexecutor, workerStep, hphase, hrow, hdelivery]
  · cases hrecord

theorem recordUnit_executor {record : TaskRecord JsonDict} {unit : TaskUnit JsonDict}
    (hrecord : system.recordUnit redact record unit = some (.ok next)) :
    next.executor = system.executor := by
  unfold recordUnit at hrecord
  obtain ⟨executor, hexecutor, hrecord⟩ := Option.bind_eq_some_iff.mp hrecord
  split at hrecord
  · obtain ⟨row, hrow, hledger⟩ := Option.map_eq_some_iff.mp hrecord
    cases hdelivery : onUnitFinished redact row executor.generation record unit
        system.evaluation with
    | error message => simp [hdelivery, Except.map] at hledger
    | ok evaluation =>
        rw [hdelivery] at hledger
        cases hledger
        rfl
  · cases hrecord

/-- The worker has started the evaluation, or will not. -/
def started (system : System) : Bool :=
  match system.executor with
  | some { phase := .working _, .. } | some { phase := .settling _ _, .. }
  | some { phase := .leaving, .. } => true
  | _ => false

theorem started_of_working (hworking : system.working = true) : system.started = true := by
  unfold working at hworking
  unfold started
  split at hworking
  · next hexecutor => rw [hexecutor]
  · cases hworking

/-- The API takes or gives no execution lock of a worker. -/
theorem userStep_executor {action : Action}
    (hstep : system.userStep moment action = some next) : next.executor = system.executor := by
  cases action with
  | manage task transaction =>
      simp only [userStep] at hstep
      split_ifs at hstep
      obtain ⟨row, _, rfl⟩ := Option.map_eq_some_iff.mp hstep
      rfl
  | resumeTask task capacity userId =>
      simp only [userStep] at hstep
      obtain ⟨row, _, rfl⟩ := Option.map_eq_some_iff.mp hstep
      split <;> rfl
  | checkResume userId =>
      simp only [userStep] at hstep
      split at hstep
      · split_ifs at hstep
        cases hstep
        rfl
      · cases hstep
  | linkResume userId =>
      simp only [userStep] at hstep
      split at hstep
      · split_ifs at hstep
        cases hstep
        rfl
      · cases hstep
  | abandonResume =>
      cases hstep
      rfl
  | startEvaluation userId =>
      simp only [userStep] at hstep
      split at hstep
      · split_ifs at hstep
        cases hstep
        rfl
      · cases hstep
  | cancelEvaluation =>
      cases hstep
      rfl
  | recoverInterrupted =>
      simp only [userStep] at hstep
      split_ifs at hstep
      cases hstep
      rfl
  | _ => cases hstep

/-- A worker that has started or is leaving does not start again. -/
theorem started_workerStep {executor : Executor} {action : Action}
    (hexecutor : system.executor = some executor) (hstarted : system.started = true)
    (hrelease : action ≠ .release)
    (hstep : workerStep redact system executor moment action = some next) :
    next.started = true := by
  have hphase : (∃ task, executor.phase = .working task) ∨
      (∃ task settlement, executor.phase = .settling task settlement) ∨
      executor.phase = .leaving := by
    unfold started at hstarted
    rw [hexecutor] at hstarted
    split at hstarted
    · next hworking =>
        cases hworking
        exact .inl ⟨_, rfl⟩
    · next hsettling =>
        cases hsettling
        exact .inr (.inl ⟨_, _, rfl⟩)
    · next hleaving =>
        cases hleaving
        exact .inr (.inr rfl)
    · cases hstarted
  obtain ⟨task, hworking⟩ | ⟨task, settlement, hsettling⟩ | hleaving := hphase
  · have hended : ∀ (after : System) (settlement : Option Settlement),
        (after.setPhase executor (settlement.elim .leaving (.settling (some task)))).started =
          true := by
      intro after settlement
      cases settlement <;> rfl
    cases action with
    | reportProgress progress =>
        simp only [workerStep, hworking] at hstep
        obtain ⟨row, _, rfl⟩ := Option.map_eq_some_iff.mp hstep
        exact hstarted
    | unitFinished record unit =>
        simp only [workerStep, hworking] at hstep
        obtain ⟨row, _, rfl⟩ := Option.map_eq_some_iff.mp hstep
        split <;> exact hstarted
    | finish state error =>
        simp only [workerStep, hworking] at hstep
        obtain ⟨row, _, rfl⟩ := Option.map_eq_some_iff.mp hstep
        exact hended _ _
    | fail message =>
        simp only [workerStep, hworking] at hstep
        obtain ⟨row, _, rfl⟩ := Option.map_eq_some_iff.mp hstep
        exact hended _ _
    | release => exact absurd rfl hrelease
    | _ => simp [workerStep, hworking] at hstep
  · cases action with
    | settle =>
        simp only [workerStep, hsettling] at hstep
        cases hstep
        rfl
    | release => exact absurd rfl hrelease
    | _ => simp [workerStep, hsettling] at hstep
  · cases action with
    | release => exact absurd rfl hrelease
    | _ => simp [workerStep, hleaving] at hstep

theorem started_step {action : Action} (hstarted : system.started = true)
    (hrelease : action ≠ .release) (hstep : system.step redact (moment, action) = some next) :
    next.started = true := by
  obtain ⟨generation, _, hfree, _⟩ | ⟨_, executor, hexecutor, hworker⟩ | huser :=
    step_cases hstep
  · have hexecutor := (executionFree_iff.mp hfree).1
    simp [started, hexecutor] at hstarted
  · exact started_workerStep hexecutor hstarted hrelease hworker
  · unfold started
    rw [userStep_executor huser]
    exact hstarted

/-- Only a worker that has not started starts. -/
theorem not_started_of_start (hstep : system.step redact (moment, .start) = some next) :
    system.started = false := by
  simp only [step, Action.ofWorker, if_true] at hstep
  obtain ⟨executor, hexecutor, hstep⟩ := Option.bind_eq_some_iff.mp hstep
  simp only [workerStep] at hstep
  split at hstep
  · next hphase =>
      unfold started
      rw [hexecutor]
      split
      · next hworking =>
          cases hworking
          cases hphase
      · next hsettling =>
          cases hsettling
          cases hphase
      · next hleaving =>
          cases hleaving
          cases hphase
      · rfl
  · cases hstep

end System

/-- The worker dies, or returns. -/
def Event.dies : Event → Bool
  | .rows .release => true
  | _ => false

namespace Deployment

/-! ## The invariant -/

/-- What a started worker finds in the file and holds. -/
def JobSound (plan : Plan) (checkpoint : Option (TaskRecord JsonDict)) : Job → Prop
  | .created | .replaying _ _ => checkpoint ≠ none
  | .running _ process _ =>
      checkpoint ≠ none ∧ process.Sound ∧ process.record.fingerprints = plan.fingerprints
  | .claimed | .creating | .returned _ | .refused _ | .raised _ => True

structure Invariant (plan : Plan) (deployment : Deployment) : Prop where
  system : deployment.system.Invariant
  checkpoint : ∀ record, deployment.checkpoint = some record →
    record.Sound ∧ record.fingerprints = plan.fingerprints
  job : ∀ job, deployment.job = some job → JobSound plan deployment.checkpoint job
  idle : deployment.system.working = false → deployment.job = none

theorem Opened.invariant {deployment : Deployment} (hopened : deployment.Opened) (plan : Plan) :
    deployment.Invariant plan where
  system := hopened.system.invariant
  checkpoint record hrecord := by
    rw [hopened.checkpoint] at hrecord
    cases hrecord
  job job hjob := by
    rw [hopened.job] at hjob
    cases hjob
  idle _ := hopened.job

variable {redact : JsonDict → JsonDict} {plan : Plan} {deployment next : Deployment}

theorem Invariant.working (hinv : deployment.Invariant plan) {job : Job}
    (hjob : deployment.job = some job) : deployment.system.working = true := by
  by_contra hidle
  rw [Bool.not_eq_true] at hidle
  cases hjob.symm.trans (hinv.idle hidle)

theorem Invariant.moved (hinv : deployment.Invariant plan) {moment : Moment} {action : Action}
    {system : System} (hstep : deployment.system.step redact (moment, action) = some system) :
    (deployment.moved action system).Invariant plan where
  system := System.invariant_preserved redact _ _ _ hinv.system hstep
  checkpoint := hinv.checkpoint
  job job hjob := by
    unfold Deployment.moved at hjob
    dsimp only at hjob
    split_ifs at hjob
    · split at hjob
      · cases hjob
        trivial
      · exact hinv.job job hjob
  idle hidle := by
    unfold Deployment.moved at hidle ⊢
    simp [hidle]

/-- A step of the job that leaves the rows alone. -/
theorem Invariant.setJob (hinv : deployment.Invariant plan) {job after : Job}
    (hjob : deployment.job = some job) (hafter : JobSound plan deployment.checkpoint after) :
    Invariant plan { deployment with job := some after } where
  system := hinv.system
  checkpoint := hinv.checkpoint
  job other hother := by
    cases hother
    exact hafter
  idle hidle := by
    cases (hinv.working hjob).symm.trans hidle

theorem Invariant.afterCallback (hinv : deployment.Invariant plan) {job after : Job}
    (hjob : deployment.job = some job) (hafter : JobSound plan deployment.checkpoint after)
    {record : TaskRecord JsonDict} {unit : TaskUnit JsonDict} {result : Except String System}
    (hrecord : deployment.system.recordUnit redact record unit = some result)
    (interruption : Option String) :
    (deployment.afterCallback interruption after result).Invariant plan := by
  cases result with
  | error message => exact hinv.setJob hjob trivial
  | ok system =>
      have hfinished : deployment.system.step redact ({ now := 0 }, .unitFinished record unit) =
          some system := System.recordUnit_step hrecord
      have hsystem := System.invariant_preserved redact _ _ _ hinv.system hfinished
      have hworking : system.working = deployment.system.working := by
        unfold System.working
        rw [System.recordUnit_executor hrecord]
      refine ⟨hsystem, hinv.checkpoint, ?_, ?_⟩
      · intro other hother
        cases interruption with
        | none =>
            cases hother
            exact hafter
        | some message =>
            cases hother
            trivial
      · intro hidle
        cases (hworking.trans (hinv.working hjob)).symm.trans hidle

theorem Invariant.callRun (hinv : deployment.Invariant plan) {job : Job}
    (hjob : deployment.job = some job) (options : RunOptions) :
    (deployment.callRun options).Invariant plan := by
  unfold Deployment.callRun
  cases hbegin : RunProcess.begin options false deployment.checkpoint with
  | error message =>
      have hrefused : JobSound plan deployment.checkpoint (.refused message) := trivial
      exact hinv.setJob hjob hrefused
  | ok process =>
      obtain ⟨record, hrecord⟩ := begin_stored hbegin
      obtain ⟨hsound, hfingerprints⟩ := hinv.checkpoint record hrecord
      rw [hrecord] at hbegin
      have hprocess : process.record.fingerprints = plan.fingerprints := by
        cases RunProcess.begin_ok hbegin with
        | inl hresumed =>
            rw [hresumed.2]
            exact hfingerprints
        | inr hstarted =>
            rw [hstarted.2.2]
            exact hfingerprints
      have hrunning : JobSound plan deployment.checkpoint (.running options process none) := by
        refine ⟨?_, RunProcess.sound_begin hsound hbegin, hprocess⟩
        rw [hrecord]
        nofun
      exact hinv.setJob hjob hrunning

theorem Invariant.advance (hinv : deployment.Invariant plan) {options : RunOptions}
    {process after : RunProcess JsonDict} {finished : Option (TaskUnit JsonDict)}
    (hjob : deployment.job = some (.running options process finished))
    {choice : TaskService.Choice JsonDict} {written : Option (TaskRecord JsonDict)}
    (hmove : process.Move options choice deployment.checkpoint after written) :
    Invariant plan { deployment with
      checkpoint := written.or deployment.checkpoint
      job := some (deployment.advanced options process after) } := by
  obtain ⟨hexists, hsound, hfingerprints⟩ := hinv.job _ hjob
  obtain ⟨hafter, hwritten⟩ := hsound.move hmove
  refine ⟨hinv.system, ?_, ?_, ?_⟩
  · intro record hrecord
    cases written with
    | none => exact hinv.checkpoint record hrecord
    | some saved =>
        cases hrecord
        refine ⟨hwritten record rfl, ?_⟩
        rw [hmove.written_eq]
        exact hfingerprints
  · have hkept : written.or deployment.checkpoint ≠ none := by
      cases written with
      | none => exact hexists
      | some saved => nofun
    rintro job ⟨⟩
    unfold advanced
    split
    · trivial
    · split_ifs <;> trivial
    · split <;> exact ⟨hkept, hafter, hmove.fingerprints.trans hfingerprints⟩
  · intro hidle
    cases (hinv.working hjob).symm.trans hidle

/-- A step of the deployment that is one of the rows. -/
theorem step_rows {moment : Moment} {event : Event}
    (hevent : event = .finish ∨ ∃ action, event = .rows action)
    (hstep : deployment.step redact plan (moment, event) = some next) :
    ∃ action system, (event.dies = false → action ≠ .release) ∧
      deployment.system.step redact (moment, action) = some system ∧
      deployment.moved action system = next := by
  obtain rfl | ⟨action, rfl⟩ := hevent
  · simp only [step] at hstep
    split at hstep
    · obtain ⟨system, hsystem, hnext⟩ := Option.map_eq_some_iff.mp hstep
      exact ⟨_, system, by simp [Event.dies], hsystem, hnext⟩
    · cases hstep
  · cases action with
    | unitFinished record unit => cases hstep
    | finish state error => cases hstep
    | fail message =>
        simp only [step] at hstep
        split_ifs at hstep
        obtain ⟨system, hsystem, hnext⟩ := Option.map_eq_some_iff.mp hstep
        exact ⟨_, system, by simp [Event.dies], hsystem, hnext⟩
    | _ =>
        simp only [step] at hstep
        obtain ⟨system, hsystem, hnext⟩ := Option.map_eq_some_iff.mp hstep
        exact ⟨_, system, by simp [Event.dies], hsystem, hnext⟩

theorem invariant_preserved (redact : JsonDict → JsonDict) (plan : Plan) :
    Preserved (step redact plan) (Invariant plan) := by
  rintro deployment ⟨moment, event⟩ next hinv hstep
  cases event with
  | rows action =>
      obtain ⟨action, system, _, hsystem, rfl⟩ := step_rows (.inr ⟨action, rfl⟩) hstep
      exact hinv.moved hsystem
  | finish =>
      obtain ⟨action, system, _, hsystem, rfl⟩ := step_rows (.inl rfl) hstep
      exact hinv.moved hsystem
  | requestCancel =>
      cases hstep
      refine ⟨hinv.system, ?_, ?_, hinv.idle⟩
      · intro record hrecord
        obtain ⟨stored, hstored, rfl⟩ := Option.map_eq_some_iff.mp hrecord
        obtain ⟨hunits, hstate, hfingerprints⟩ := requestCancel_kept stored
        obtain ⟨hsound, hsame⟩ := hinv.checkpoint stored hstored
        exact ⟨hsound.congr hunits hstate, hfingerprints.trans hsame⟩
      · intro job hjob
        have hsound := hinv.job job hjob
        have hexists : deployment.checkpoint ≠ none →
            deployment.checkpoint.map (fun record => record.requestCancel.getD record) ≠ none := by
          simp
        cases job with
        | created => exact hexists hsound
        | replaying record rest => exact hexists hsound
        | running options process finished => exact ⟨hexists hsound.1, hsound.2⟩
        | _ => trivial
  | work work =>
      cases work with
      | readCheckpoint =>
          simp only [step, workStep] at hstep
          split at hstep
          · next hjob =>
              cases hstep
              apply hinv.setJob hjob
              split
              · trivial
              · next record hrecord =>
                  split_ifs
                  · split
                    · exact fun hnone => nomatch hrecord.symm.trans hnone
                    · trivial
                  · trivial
          · cases hstep
      | create uuid freezeProblem =>
          simp only [step, workStep] at hstep
          split at hstep
          · next hjob =>
              split at hstep
              · next record hcreate =>
                  cases hstep
                  refine ⟨hinv.system, ?_, ?_, ?_⟩
                  · rintro other ⟨⟩
                    have hcreated : TaskService.Created record := by
                      cases hcheckpoint : deployment.checkpoint with
                      | some stored => simp [hcheckpoint, TaskRecord.create] at hcreate
                      | none =>
                          rw [hcheckpoint] at hcreate
                          exact ⟨_, _, _, _, hcreate, createTaskUnits_queued uuid freezeProblem plan⟩
                    refine ⟨(TaskService.ServiceRecord.created hcreated).sound, ?_⟩
                    unfold TaskRecord.create at hcreate
                    split at hcreate <;> cases hcreate
                    rfl
                  · rintro job ⟨⟩
                    exact nofun
                  · intro hidle
                    cases (hinv.working hjob).symm.trans hidle
              · cases hstep
                exact hinv.setJob hjob trivial
          · cases hstep
      | replayUnit interruption =>
          simp only [step, workStep] at hstep
          split at hstep
          · next record unit rest hjob =>
              obtain ⟨result, hrecord, rfl⟩ := Option.map_eq_some_iff.mp hstep
              have hsound := hinv.job _ hjob
              have hrest : JobSound plan deployment.checkpoint (.replaying record rest) := hsound
              exact hinv.afterCallback hjob hrest hrecord interruption
          · cases hstep
      | callRun =>
          simp only [step, workStep] at hstep
          split at hstep
          · next hjob =>
              cases hstep
              exact hinv.callRun hjob _
          · next hjob =>
              cases hstep
              exact hinv.callRun hjob _
          · cases hstep
      | advance choice =>
          simp only [step, workStep] at hstep
          split at hstep
          · next hjob =>
              obtain ⟨⟨after, written⟩, hmoved, rfl⟩ := Option.map_eq_some_iff.mp hstep
              exact hinv.advance hjob (RunProcess.step_move hmoved)
          · cases hstep
      | recordUnit interruption =>
          simp only [step, workStep] at hstep
          split at hstep
          · next options process unit hjob =>
              obtain ⟨result, hrecord, rfl⟩ := Option.map_eq_some_iff.mp hstep
              have hsound := hinv.job _ hjob
              have hgoesOn : JobSound plan deployment.checkpoint (.running options process none) :=
                hsound
              exact hinv.afterCallback hjob hgoesOn hrecord interruption
          · cases hstep

/-! ## What the next worker does -/

/-- Until the next worker starts, only cancel requests reach the file. -/
def Untouched (found checkpoint : Option (TaskRecord JsonDict)) : Prop :=
  checkpoint.map (fun record => (record.units, record.state)) =
    found.map fun record => (record.units, record.state)

/-- The worker goes on from the checkpoint that was found. -/
def JobContinues (found checkpoint : Option (TaskRecord JsonDict)) : Job → Prop
  | .claimed | .replaying _ _ => Untouched found checkpoint
  | .creating => found = none ∧ checkpoint = none
  | .created => found = none ∧ ∃ record, checkpoint = some record ∧ record.state = .queued
  | .running options process _ =>
      ∃ initial : TaskRecord JsonDict, process.Invariant False options initial ∧
        ∀ record, found = some record → initial.units = record.units
  | .returned _ | .raised _ => True
  | .refused _ => False

structure Continues (found : Option (TaskRecord JsonDict)) (deployment : Deployment) : Prop where
  untouched : deployment.system.started = false → Untouched found deployment.checkpoint
  job : ∀ job, deployment.job = some job → JobContinues found deployment.checkpoint job

variable {found : Option (TaskRecord JsonDict)}

theorem Continues.moved (hcontinues : deployment.Continues found) {moment : Moment}
    {action : Action} {system : System} (hrelease : action ≠ .release)
    (hstep : deployment.system.step redact (moment, action) = some system) :
    (deployment.moved action system).Continues found where
  untouched hfresh := by
    apply hcontinues.untouched
    by_contra hstarted
    rw [Bool.not_eq_false] at hstarted
    rw [show (deployment.moved action system).system.started = true from
      System.started_step hstarted hrelease hstep] at hfresh
    cases hfresh
  job job hjob := by
    unfold Deployment.moved at hjob
    dsimp only at hjob
    split_ifs at hjob
    split at hjob
    · cases hjob
      exact hcontinues.untouched (System.not_started_of_start hstep)
    · exact hcontinues.job job hjob

/-- A step of the job: from now on only the job counts. -/
theorem Continues.setJob {job : Job} {system : System}
    {checkpoint : Option (TaskRecord JsonDict)} (hworking : system.working = true)
    (hjob : JobContinues found checkpoint job) :
    Continues found { system := system, checkpoint := checkpoint, job := some job } where
  untouched hfresh := by
    cases (System.started_of_working hworking).symm.trans hfresh
  job other hother := by
    cases hother
    exact hjob

theorem Continues.afterCallback (hinv : deployment.Invariant plan) {job after : Job}
    (hjob : deployment.job = some job) (hafter : JobContinues found deployment.checkpoint after)
    {record : TaskRecord JsonDict} {unit : TaskUnit JsonDict} {result : Except String System}
    (hrecord : deployment.system.recordUnit redact record unit = some result)
    (interruption : Option String) :
    (deployment.afterCallback interruption after result).Continues found := by
  have hworking := hinv.working hjob
  have hraised (message : String) : JobContinues found deployment.checkpoint (.raised message) :=
    trivial
  cases result with
  | error message => exact .setJob hworking (hraised message)
  | ok system =>
      have hsame : system.working = true := by
        unfold System.working at hworking ⊢
        rwa [System.recordUnit_executor hrecord]
      cases interruption with
      | none => exact .setJob hsame hafter
      | some message => exact .setJob hsame (hraised message)

/-- A checkpoint that is neither queued nor cancelled is resumed, and a missing
one is created. -/
theorem continues_readCheckpoint (hinv : deployment.Invariant plan)
    (hfound : ∀ record, found = some record → resumes record.state = true)
    (hcontinues : deployment.Continues found)
    (hstep : deployment.workStep redact plan .readCheckpoint = some next) :
    next.Continues found := by
  simp only [workStep] at hstep
  split at hstep
  · next hjob =>
      have huntouched : Untouched found deployment.checkpoint := hcontinues.job _ hjob
      cases hcheckpoint : deployment.checkpoint with
      | none =>
          rw [hcheckpoint] at hstep
          cases hstep
          refine .setJob (hinv.working hjob) ⟨?_, rfl⟩
          simpa [Untouched, hcheckpoint] using huntouched.symm
      | some record =>
          rw [Untouched, hcheckpoint] at huntouched
          obtain ⟨stored, hstored, hsame⟩ := Option.map_eq_some_iff.mp huntouched.symm
          have hstate : resumes record.state = true := by
            rw [← (Prod.mk.inj hsame).2]
            exact hfound stored hstored
          have hvalid := validateResumeFingerprints_of_eq (hinv.checkpoint record hcheckpoint).2
          rw [hcheckpoint] at hstep
          simp only [hstate, if_true, hvalid] at hstep
          cases hstep
          exact .setJob (hinv.working hjob) huntouched
  · cases hstep

/-- The call of `run` raises nothing on the worker's own checkpoint. -/
theorem continues_callRun (hinv : deployment.Invariant plan) {job : Job}
    (hjob : deployment.job = some job) {record : TaskRecord JsonDict}
    (hcheckpoint : deployment.checkpoint = some record) {resume : Bool}
    (hopen : resume = true ∨ record.state.terminal = false)
    (hunits : ∀ stored, found = some stored → record.units = stored.units) :
    (deployment.callRun (plan.options resume)).Continues found := by
  have hvalid := validateResumeFingerprints_of_eq (hinv.checkpoint record hcheckpoint).2
  have hbegin : ∃ process,
      RunProcess.begin (plan.options resume) false (some record) = .ok process := by
    cases resume with
    | true => simp [RunProcess.begin, Plan.options, hvalid]
    | false =>
        have hstate : record.state.terminal = false := by simpa using hopen
        simp [RunProcess.begin, Plan.options, hvalid, hstate]
  obtain ⟨process, hbegin⟩ := hbegin
  unfold callRun
  rw [hcheckpoint, hbegin]
  exact .setJob (hinv.working hjob)
    ⟨record, RunProcess.Invariant.begin hbegin nofun nofun, hunits⟩

theorem continues_work (hinv : deployment.Invariant plan)
    (hfound : ∀ record, found = some record → resumes record.state = true)
    (hcontinues : deployment.Continues found) {work : Work}
    (hstep : deployment.workStep redact plan work = some next) : next.Continues found := by
  cases work with
  | readCheckpoint => exact continues_readCheckpoint hinv hfound hcontinues hstep
  | create uuid freezeProblem =>
      simp only [workStep] at hstep
      split at hstep
      · next hjob =>
          obtain ⟨hnone, hcheckpoint⟩ := hcontinues.job _ hjob
          rw [hcheckpoint] at hstep
          cases hstep
          exact .setJob (hinv.working hjob) ⟨hnone, _, rfl, rfl⟩
      · cases hstep
  | replayUnit interruption =>
      simp only [workStep] at hstep
      split at hstep
      · next record unit rest hjob =>
          obtain ⟨result, hrecord, rfl⟩ := Option.map_eq_some_iff.mp hstep
          have huntouched := hcontinues.job _ hjob
          have hrest : JobContinues found deployment.checkpoint (.replaying record rest) :=
            huntouched
          exact .afterCallback hinv hjob hrest hrecord interruption
      · cases hstep
  | callRun =>
      simp only [workStep] at hstep
      split at hstep
      · next hjob =>
          cases hstep
          obtain ⟨hnone, record, hcheckpoint, hqueued⟩ := hcontinues.job _ hjob
          refine continues_callRun hinv hjob hcheckpoint (.inr (by rw [hqueued]; rfl)) ?_
          intro stored hstored
          cases hnone.symm.trans hstored
      · next hjob =>
          cases hstep
          have huntouched : Untouched found deployment.checkpoint := hcontinues.job _ hjob
          have hexists : deployment.checkpoint ≠ none := hinv.job _ hjob
          obtain ⟨record, hcheckpoint⟩ := Option.ne_none_iff_exists'.mp hexists
          refine continues_callRun hinv hjob hcheckpoint (.inl rfl) ?_
          intro stored hstored
          rw [Untouched, hcheckpoint, hstored] at huntouched
          exact (Prod.mk.inj (Option.some.inj huntouched)).1
      · cases hstep
  | advance choice =>
      simp only [workStep] at hstep
      split at hstep
      · next options process hjob =>
          obtain ⟨⟨after, written⟩, hmoved, rfl⟩ := Option.map_eq_some_iff.mp hstep
          obtain ⟨initial, hprocess, hunits⟩ := hcontinues.job _ hjob
          have hexists : deployment.checkpoint ≠ none := (hinv.job _ hjob).1
          have hafter := hprocess.move (RunProcess.step_move hmoved)
          refine .setJob (hinv.working hjob) ?_
          unfold advanced
          split
          · trivial
          · rw [Option.isNone_eq_false_iff.mpr (Option.isSome_iff_ne_none.mpr hexists),
              if_neg Bool.false_ne_true]
            trivial
          · split <;> exact ⟨initial, hafter, hunits⟩
      · cases hstep
  | recordUnit interruption =>
      simp only [workStep] at hstep
      split at hstep
      · next options process unit hjob =>
          obtain ⟨result, hrecord, rfl⟩ := Option.map_eq_some_iff.mp hstep
          have hrunning := hcontinues.job _ hjob
          have hgoesOn : JobContinues found deployment.checkpoint
              (.running options process none) := hrunning
          exact .afterCallback hinv hjob hgoesOn hrecord interruption
      · cases hstep

theorem continues_step {moment : Moment} {event : Event} (hinv : deployment.Invariant plan)
    (hfound : ∀ record, found = some record → resumes record.state = true)
    (hcontinues : deployment.Continues found) (hlives : event.dies = false)
    (hstep : deployment.step redact plan (moment, event) = some next) : next.Continues found := by
  cases event with
  | rows action =>
      obtain ⟨action, system, hrelease, hsystem, rfl⟩ := step_rows (.inr ⟨action, rfl⟩) hstep
      exact hcontinues.moved (hrelease hlives) hsystem
  | finish =>
      obtain ⟨action, system, hrelease, hsystem, rfl⟩ := step_rows (.inl rfl) hstep
      exact hcontinues.moved (hrelease hlives) hsystem
  | work work => exact continues_work hinv hfound hcontinues hstep
  | requestCancel =>
      cases hstep
      have hrequested : Untouched found deployment.checkpoint → Untouched found
          (deployment.checkpoint.map fun record => record.requestCancel.getD record) := by
        intro huntouched
        rw [Untouched, ← huntouched, Option.map_map]
        apply congrFun
        apply congrArg
        funext record
        obtain ⟨hunits, hstate, _⟩ := requestCancel_kept record
        exact Prod.ext hunits hstate
      refine ⟨fun hfresh => hrequested (hcontinues.untouched hfresh), ?_⟩
      intro job hjob
      have hkept := hcontinues.job job hjob
      cases job with
      | claimed => exact hrequested hkept
      | replaying record rest => exact hrequested hkept
      | creating => exact ⟨hkept.1, by simp [hkept.2]⟩
      | created =>
          obtain ⟨hnone, record, hrecord, hqueued⟩ := hkept
          refine ⟨hnone, _, by rw [hrecord, Option.map_some], ?_⟩
          rw [(requestCancel_kept record).2.1]
          exact hqueued
      | _ => exact hkept

end Deployment

/-! ## Tasks that no worker starts any more -/

namespace System

/-- The evaluation's task is over, and no call of `resume_evaluation` is under
way. -/
structure Over (system : System) : Prop where
  resuming : system.resuming = none
  task : ∃ task row, system.evaluation.row.asyncTaskId = some task ∧
    system.tasks task = some row ∧ (row.status = .completed ∨ row.status = .cancelled)
  executor : ∀ executor, system.executor = some executor →
    executor.phase = .owning ∨ (∃ task, executor.phase = .linked task) ∨
      (∃ task, executor.phase = .cancelling task) ∨ executor.phase = .leaving

variable {redact : JsonDict → JsonDict} {system next : System} {moment : Moment}

theorem Over.not_working (hover : system.Over) : system.working = false := by
  unfold working
  split
  · next hexecutor =>
      obtain hphase | ⟨_, hphase⟩ | ⟨_, hphase⟩ | hphase := hover.executor _ hexecutor <;>
        cases hphase
  · rfl

theorem over_workerStep {executor : Executor} {action : Action} (hinv : system.Invariant)
    (hover : system.Over) (hexecutor : system.executor = some executor)
    (hstep : workerStep redact system executor moment action = some next) : next.Over := by
  obtain ⟨hresuming, ⟨link, row, hlink, hrow, hended⟩, hphases⟩ := hover
  have hmoved : ∀ phase : Phase, (phase = .owning ∨ (∃ task, phase = .linked task) ∨
      (∃ task, phase = .cancelling task) ∨ phase = .leaving) →
      (system.setPhase executor phase).Over := by
    intro phase hphase
    refine ⟨hresuming, ⟨link, row, hlink, hrow, hended⟩, ?_⟩
    rintro other ⟨⟩
    exact hphase
  have hholds := hinv.holds executor hexecutor
  cases action with
  | release =>
      cases hstep
      exact ⟨hresuming, ⟨link, row, hlink, hrow, hended⟩, nofun⟩
  | readEvaluation =>
      simp only [workerStep, hlink] at hstep
      split at hstep
      · cases hstep
        exact hmoved _ (.inr (.inl ⟨link, rfl⟩))
      · cases hstep
  | readTask =>
      simp only [workerStep] at hstep
      split at hstep
      · next task hphase =>
          rw [hphase] at hholds
          obtain ⟨found, hfound, hlinked⟩ := hholds
          have hclosed : found.status = .completed ∨ found.status = .cancelled ∨
              found.status = .failed := by
            cases hlinked with
            | inr hfailed => exact .inr (.inr hfailed)
            | inl hsame =>
                obtain rfl : link = task := Option.some.inj (hlink.symm.trans hsame)
                obtain rfl : row = found := Option.some.inj (hrow.symm.trans hfound)
                cases hended with
                | inl hcompleted => exact .inl hcompleted
                | inr hcancelled => exact .inr (.inl hcancelled)
          rw [hfound] at hstep
          dsimp only at hstep
          unfold admission at hstep
          split_ifs at hstep with hleave hcancelled
          · cases hstep
            exact hmoved _ (.inr (.inr (.inr rfl)))
          · cases hstep
            exact hmoved _ (.inr (.inr (.inl ⟨task, rfl⟩)))
          · obtain hcase | hcase | hcase := hclosed
            · exact absurd (.inr (.inl hcase)) hleave
            · exact absurd hcase hcancelled
            · exact absurd (.inr (.inr (.inl hcase))) hleave
      · cases hstep
  | markCancelled =>
      simp only [workerStep] at hstep
      split at hstep
      · cases hstep
        refine ⟨hresuming, ⟨link, row, hlink, hrow, hended⟩, ?_⟩
        rintro other ⟨⟩
        exact .inr (.inr (.inr rfl))
      · cases hstep
  | _ =>
      obtain hphase | ⟨_, hphase⟩ | ⟨_, hphase⟩ | hphase := hphases executor hexecutor <;>
        simp [workerStep, hphase] at hstep

theorem over_userStep {action : Action} (hinv : system.Invariant) (hover : system.Over)
    (hstep : system.userStep moment action = some next) : next.Over := by
  have hexecutor := userStep_executor hstep
  obtain ⟨hresuming, ⟨link, row, hlink, hrow, hended⟩, hphases⟩ := hover
  have hterminal : row.status.terminal = true := by
    cases hended with
    | inl hcompleted => rw [hcompleted]; rfl
    | inr hcancelled => rw [hcancelled]; rfl
  have hlinked : system.linkedTask = some row := by simp [linkedTask, hlink, hrow]
  have hkept : ∀ executor, next.executor = some executor → executor.phase = .owning ∨
      (∃ task, executor.phase = .linked task) ∨ (∃ task, executor.phase = .cancelling task) ∨
      executor.phase = .leaving := by
    rw [hexecutor]
    exact hphases
  cases action with
  | manage task transaction =>
      simp only [userStep] at hstep
      split_ifs at hstep with huser
      obtain ⟨before, hbefore, rfl⟩ := Option.map_eq_some_iff.mp hstep
      have hmanaged : Managed { task := before, evaluation := system.evaluation } _ :=
        managed_userTransaction moment (hinv.known task before hbefore).2.1 huser
      refine ⟨hresuming, ?_, hkept⟩
      by_cases htask : link = task
      · subst htask
        obtain rfl : row = before := Option.some.inj (hrow.symm.trans hbefore)
        refine ⟨link, _, hmanaged.asyncTaskId.trans hlink, Function.update_self .., ?_⟩
        rw [hmanaged.settled.absorbing hterminal]
        exact hended
      · exact ⟨link, row, hmanaged.asyncTaskId.trans hlink,
          by simpa [write, writeTask, htask] using hrow, hended⟩
  | resumeTask task capacity userId =>
      simp only [userStep] at hstep
      obtain ⟨before, hbefore, hstep⟩ := Option.map_eq_some_iff.mp hstep
      split at hstep
      · next written hresume =>
          obtain ⟨hid, htype, _⟩ := hinv.known task before hbefore
          obtain ⟨hpaused, _, hcheck, _, _⟩ := resumeTask_eq_ok hresume
          have hsame : link = task := by
            by_contra hother
            simp [checkResumable, Rows.records, htype, hid, hlink, hother] at hcheck
          subst hsame
          obtain rfl : row = before := Option.some.inj (hrow.symm.trans hbefore)
          rw [show row.status = .paused from hpaused] at hterminal
          cases hterminal
      · subst hstep
        exact ⟨hresuming, ⟨link, row, hlink, hrow, hended⟩, hkept⟩
  | checkResume userId =>
      simp only [userStep, hlink, hlinked] at hstep
      split_ifs at hstep with hallowed
      obtain hpaused | hfailed := hallowed.2.2
      · rw [hpaused] at hterminal
        cases hterminal
      · simp [hfailed] at hended
  | linkResume userId => simp [userStep, hresuming] at hstep
  | abandonResume =>
      cases hstep
      exact ⟨rfl, ⟨link, row, hlink, hrow, hended⟩, hkept⟩
  | startEvaluation userId =>
      simp only [userStep, hlinked] at hstep
      split_ifs at hstep with hallowed
      obtain ⟨task, found, htask, hfound, hshared⟩ := hinv.linked
      obtain rfl : link = task := Option.some.inj (hlink.symm.trans htask)
      obtain rfl : row = found := Option.some.inj (hrow.symm.trans hfound)
      refine absurd hallowed.2.1 (hshared ?_)
      cases hended with
      | inl hcompleted => rw [hcompleted]; rfl
      | inr hcancelled => rw [hcancelled]; rfl
  | cancelEvaluation =>
      cases hstep
      exact ⟨hresuming, ⟨link, row, hlink, hrow, hended⟩, hkept⟩
  | recoverInterrupted =>
      simp only [userStep] at hstep
      split_ifs at hstep
      cases hstep
      exact ⟨hresuming, ⟨link, row, hlink, hrow, hended⟩, hkept⟩
  | _ => cases hstep

theorem over_step {action : Action} (hinv : system.Invariant) (hover : system.Over)
    (hstep : system.step redact (moment, action) = some next) : next.Over := by
  obtain ⟨generation, _, hfree, rfl⟩ | ⟨_, executor, hexecutor, hworker⟩ | huser :=
    step_cases hstep
  · refine ⟨hover.resuming, hover.task, ?_⟩
    rintro executor ⟨⟩
    exact .inl rfl
  · exact over_workerStep hinv hover hexecutor hworker
  · exact over_userStep hinv hover huser

end System

namespace Deployment

variable {redact : JsonDict → JsonDict} {plan : Plan} {deployment : Deployment}

/-! ## Checkpoints that stop every worker -/

/-- Some schedule without another crash ends in an exception of the worker's own
checkpoint. -/
def Refuses (redact : JsonDict → JsonDict) (plan : Plan) (deployment : Deployment) : Prop :=
  ∃ labels final message, (∀ label ∈ labels, label.2.dies = false) ∧
    run (step redact plan) deployment labels = some final ∧ final.job = some (.refused message)

theorem Refuses.cons {next : Deployment} {label : Moment × Event}
    (hrefuses : next.Refuses redact plan) (hlives : label.2.dies = false)
    (hstep : deployment.step redact plan label = some next) :
    deployment.Refuses redact plan := by
  obtain ⟨labels, final, message, hall, hrun, hjob⟩ := hrefuses
  refine ⟨label :: labels, final, message, ?_, ?_, hjob⟩
  · rw [List.forall_mem_cons]
    exact ⟨hlives, hall⟩
  · exact run_cons_eq_some.mpr ⟨next, hstep, hrun⟩

/-- The worker that has started neither resumes nor creates it. -/
theorem refuses_of_claimed {record : TaskRecord JsonDict} (hjob : deployment.job = some .claimed)
    (hrecord : deployment.checkpoint = some record) (hstuck : resumes record.state = false) :
    deployment.Refuses redact plan := by
  refine ⟨[({ now := 0 }, .work .readCheckpoint),
    ({ now := 0 }, .work (.create (fun _ => "") fun _ => ∅))],
    { deployment with job := some (.refused s!"Task '{plan.runId}' already exists") }, _, ?_, ?_,
    rfl⟩
  · simp [Event.dies]
  · simp [run, step, workStep, hjob, hrecord, hstuck, TaskRecord.create]

/-- A delivery of a pending or running task gets to the checkpoint. -/
theorem refuses_of_waiting {link : ℕ} {row : AsyncTask} {record : TaskRecord JsonDict}
    (hfree : deployment.system.executionFree = true)
    (hlink : deployment.system.evaluation.row.asyncTaskId = some link)
    (hrow : deployment.system.tasks link = some row)
    (hwaiting : row.status = .pending ∨ row.status = .running)
    (hrecord : deployment.checkpoint = some record) (hstuck : resumes record.state = false) :
    deployment.Refuses redact plan := by
  have hopen : row.status.terminal = false := by
    cases hwaiting with
    | inl hpending => rw [hpending]; rfl
    | inr hrunning => rw [hrunning]; rfl
  have hactive : row.status ≠ .paused ∧ row.status ≠ .completed ∧ row.status ≠ .failed ∧
      row.status ≠ .cancelled := by
    cases hwaiting with
    | inl hpending => simp [hpending]
    | inr hrunning => simp [hrunning]
  let executor (phase : Phase) : Executor := { generation := row.celeryTaskId, phase := phase }
  let delivered (phase : Phase) : Deployment :=
    { deployment with
      system := { deployment.system with executor := some (executor phase) }
      job := none }
  have hacquire : deployment.step redact plan
      ({ now := 0 }, .rows (.acquire row.celeryTaskId)) = some (delivered .owning) := by
    simp [step, System.step, hfree, moved, System.working, delivered, executor]
  have hread : (delivered .owning).step redact plan ({ now := 0 }, .rows .readEvaluation) =
      some (delivered (.linked link)) := by
    simp [step, System.step, Action.ofWorker, System.workerStep, System.setPhase, hlink, moved,
      System.working, delivered, executor]
  have hload : (delivered (.linked link)).step redact plan ({ now := 0 }, .rows .readTask) =
      some (delivered (.loaded link)) := by
    simp [step, System.step, Action.ofWorker, System.workerStep, System.setPhase, hrow, admission,
      hactive, moved, System.working, delivered, executor]
  have hstart : ∃ system, (delivered (.loaded link)).step redact plan
      ({ now := 0 }, .rows .start) =
        some { deployment with system := system, job := some .claimed } := by
    simp [step, System.step, Action.ofWorker, System.workerStep, System.setPhase, hrow, start,
      hopen, hactive, moved, System.working, delivered, executor]
  obtain ⟨system, hstart⟩ := hstart
  have hclaimed : Refuses redact plan
      { deployment with system := system, job := some .claimed } :=
    refuses_of_claimed rfl hrecord hstuck
  exact (((hclaimed.cons rfl hstart).cons rfl hload).cons rfl hread).cons rfl hacquire

/-- A paused or failed task is resumed first. -/
theorem refuses_of_stuck {link : ℕ} {row : AsyncTask} {record : TaskRecord JsonDict}
    (hfree : deployment.system.executionFree = true)
    (hlink : deployment.system.evaluation.row.asyncTaskId = some link)
    (hrow : deployment.system.tasks link = some row)
    (hgoesOn : row.status ≠ .completed ∧ row.status ≠ .cancelled)
    (hrecord : deployment.checkpoint = some record) (hstuck : resumes record.state = false) :
    deployment.Refuses redact plan := by
  by_cases hwaiting : row.status = .pending ∨ row.status = .running
  · exact refuses_of_waiting hfree hlink hrow hwaiting hrecord hstuck
  · have hresumable : row.status = .paused ∨ row.status = .failed := by
      cases hstatus : row.status <;> simp_all
    obtain ⟨hexecutor, hresuming⟩ := System.executionFree_iff.mp hfree
    let owner := deployment.system.evaluation.row.userId
    let checked : System := { deployment.system with resuming := some link }
    let linked : System := { checked.enqueue owner with resuming := none }
    have hworking : ∀ system : System, system.executor = none → system.working = false := by
      intro system hnone
      unfold System.working
      rw [hnone]
    have hcheck : deployment.step redact plan ({ now := 0 }, .rows (.checkResume owner)) =
        some { deployment with system := checked, job := none } := by
      have hidle : checked.working = false := hworking checked hexecutor
      simp [step, System.step, Action.ofWorker, System.userStep, System.linkedTask, hlink, hrow,
        hfree, hresumable, moved, hidle, owner, checked]
    have hlinked : Deployment.step redact plan { deployment with system := checked, job := none }
        ({ now := 0 }, .rows (.linkResume owner)) =
          some { deployment with system := linked, job := none } := by
      simp [step, System.step, Action.ofWorker, System.userStep, hlink, moved, owner, checked,
        linked]
    have hrefuses : Refuses redact plan { deployment with system := linked, job := none } := by
      have hlink : linked.evaluation.row.asyncTaskId = some deployment.system.nextTask := rfl
      have hfree : linked.executionFree = true := System.executionFree_iff.mpr ⟨hexecutor, rfl⟩
      exact refuses_of_waiting hfree hlink (Function.update_self ..) (.inl rfl) hrecord hstuck
    exact (hrefuses.cons rfl hlinked).cons rfl hcheck

/-! ## Recovery -/

/-- Whatever a further worker and the users do until the next crash, `create`
and `run` raise nothing on account of the checkpoint, so that their exception
handler does not mark the evaluation failed for it, and no unit that the
checkpoint records as finished is executed again. -/
def Recovers (redact : JsonDict → JsonDict) (plan : Plan) (deployment : Deployment) : Prop :=
  ∀ labels final, (∀ label ∈ labels, label.2.dies = false) →
    run (step redact plan) deployment labels = some final →
    (∀ message, final.job ≠ some (.refused message)) ∧
      ∀ record, deployment.checkpoint = some record → ∀ position ∈ final.submitted,
        ∀ unit, record.units[position]? = some unit → unit.status.finished = false

/-- The checkpoint is neither queued nor cancelled, or the task is over. -/
def Recoverable (deployment : Deployment) : Prop :=
  (∀ record, deployment.checkpoint = some record → resumes record.state = true) ∨
    ∃ row, deployment.system.linkedTask = some row ∧
      (row.status = .completed ∨ row.status = .cancelled)

theorem recovers_of_over (hinv : deployment.Invariant plan) (hover : deployment.system.Over) :
    deployment.Recovers redact plan := by
  intro labels final hlives hrun
  have hmeet : StepsMeet (step redact plan) (fun _ label => label.2.dies = false) deployment
      labels := .of_forall hlives
  have hfinal : final.Invariant plan ∧ final.system.Over := by
    refine hmeet.invariant_run (fun state => state.Invariant plan ∧ state.system.Over) ?_
      ⟨hinv, hover⟩ hrun
    rintro state ⟨moment, event⟩ next ⟨hinv, hover⟩ hlives hstep
    refine ⟨invariant_preserved redact plan state _ next hinv hstep, ?_⟩
    have hidle := hinv.idle hover.not_working
    cases event with
    | rows action =>
        obtain ⟨action, system, _, hsystem, rfl⟩ := step_rows (.inr ⟨action, rfl⟩) hstep
        exact System.over_step hinv.system hover hsystem
    | finish =>
        obtain ⟨action, system, _, hsystem, rfl⟩ := step_rows (.inl rfl) hstep
        exact System.over_step hinv.system hover hsystem
    | work work => cases work <;> simp [step, workStep, hidle] at hstep
    | requestCancel =>
        cases hstep
        exact hover
  have hidle := hfinal.1.idle hfinal.2.not_working
  constructor
  · intro message
    simp [hidle]
  · intro record _ position hsubmitted
    simp [submitted, hidle] at hsubmitted

theorem recovers_of_resumable (hinv : deployment.Invariant plan)
    (hfree : deployment.system.executionFree = true)
    (hresumes : ∀ record, deployment.checkpoint = some record → resumes record.state = true) :
    deployment.Recovers redact plan := by
  intro labels final hlives hrun
  have hidle : deployment.job = none := by
    apply hinv.idle
    unfold System.working
    rw [(System.executionFree_iff.mp hfree).1]
  have hstart : deployment.Continues deployment.checkpoint :=
    ⟨fun _ => rfl, fun job hjob => nomatch hidle.symm.trans hjob⟩
  have hmeet : StepsMeet (step redact plan) (fun _ label => label.2.dies = false) deployment
      labels := .of_forall hlives
  have hfinal : final.Invariant plan ∧ final.Continues deployment.checkpoint := by
    refine hmeet.invariant_run (fun state =>
      state.Invariant plan ∧ state.Continues deployment.checkpoint) ?_ ⟨hinv, hstart⟩ hrun
    rintro state ⟨moment, event⟩ next ⟨hinv, hcontinues⟩ hlives hstep
    exact ⟨invariant_preserved redact plan state _ next hinv hstep,
      continues_step hinv hresumes hcontinues hlives hstep⟩
  constructor
  · intro message hrefused
    exact hfinal.2.job _ hrefused
  · intro record hrecord position hsubmitted unit hunit
    unfold submitted at hsubmitted
    split at hsubmitted
    · next options process finished hjob =>
        obtain ⟨initial, hprocess, hunits⟩ := hfinal.2.job _ hjob
        have hopen := hprocess.submitted_open position hsubmitted unit (by
          rw [hunits record hrecord]
          exact hunit)
        by_contra hfinished
        rw [Bool.not_eq_false] at hfinished
        have hcertain := (hinv.checkpoint record hrecord).1.certain_of_finished
          (List.mem_of_getElem? hunit) hfinished
        simp [TaskUnit.confirmed, hfinished, hcertain] at hopen
    · cases hsubmitted

/-- Whatever has happened before the execution lock is free again, crashes of
workers between any two of their durable writes included, the evaluation is
recovered if and only if its checkpoint is neither queued nor cancelled or its
task is over. -/
theorem recovers_iff {opened : Deployment} (hopened : opened.Opened)
    (hreach : Reachable (step redact plan) opened deployment)
    (hfree : deployment.system.executionFree = true) :
    deployment.Recovers redact plan ↔ deployment.Recoverable := by
  have hinv := (invariant_preserved redact plan).reachable (hopened.invariant plan) hreach
  constructor
  · intro hrecovers
    by_contra hstuck
    unfold Recoverable at hstuck
    rw [not_or] at hstuck
    obtain ⟨hfile, htask⟩ := hstuck
    push Not at hfile
    obtain ⟨record, hrecord, hstate⟩ := hfile
    obtain ⟨link, row, hlink, hrow, _⟩ := hinv.system.linked
    have hgoesOn : row.status ≠ .completed ∧ row.status ≠ .cancelled := by
      rw [← not_or]
      intro hended
      exact htask ⟨row, by simp [System.linkedTask, hlink, hrow], hended⟩
    have hrefuses : deployment.Refuses redact plan :=
      refuses_of_stuck hfree hlink hrow hgoesOn hrecord (by simpa using hstate)
    obtain ⟨labels, final, message, hlives, hrun, hjob⟩ := hrefuses
    exact (hrecovers labels final hlives hrun).1 message hjob
  · intro hrecoverable
    cases hrecoverable with
    | inl hresumes => exact recovers_of_resumable hinv hfree hresumes
    | inr hended =>
        obtain ⟨row, hlinked, hended⟩ := hended
        obtain ⟨link, hlink, hrow⟩ := Option.bind_eq_some_iff.mp hlinked
        obtain ⟨hexecutor, hresuming⟩ := System.executionFree_iff.mp hfree
        refine recovers_of_over hinv ⟨hresuming, ⟨link, row, hlink, hrow, hended⟩, ?_⟩
        intro executor hother
        cases hexecutor.symm.trans hother

/-! ## Two crashes -/

/-- An evaluation of one unit. -/
def singlePlan : Plan :=
  { evaluationId := "e1"
    strategyNames := ["vanilla"]
    problemIds := ["two-sum"]
    configFingerprint := "config"
    datasetFingerprint := "dataset" }

def singleDeployment : Deployment :=
  { system :=
      { tasks := Function.update (fun _ => none) 1 (some (newTask 1 10 .evaluation "alice"))
        evaluation := { row := { userId := "alice", status := .pending, asyncTaskId := some 1 } }
        nextTask := 2
        issued := 11 } }

theorem singleDeployment_opened : singleDeployment.Opened := by
  refine ⟨⟨?_, ?_, ⟨_, rfl⟩, rfl⟩, rfl, rfl⟩
  · intro task row hrow
    by_cases htask : task = 1
    · subst htask
      obtain rfl : newTask 1 10 .evaluation "alice" = row := by
        simpa [singleDeployment] using hrow
      exact ⟨rfl, rfl, rfl, rfl⟩
    · simp [singleDeployment, htask] at hrow
  · intro task htask
    have hlater : 1 < task := htask
    simp [singleDeployment, hlater.ne']

/-- A delivery of the first message, up to the creation of the checkpoint. -/
def deliveredLabels : List (Moment × Event) :=
  [({ now := 1 }, .rows (.acquire 10)), ({ now := 2 }, .rows .readEvaluation),
    ({ now := 3 }, .rows .readTask), ({ now := 4 }, .rows .start),
    ({ now := 5 }, .work .readCheckpoint),
    ({ now := 6 }, .work (.create (fun _ => "u") fun _ => ∅))]

/-- The worker dies after the `running` save: the next one goes on. -/
theorem recovers_iff_running :
    ∃ deployment, run (step id singlePlan) singleDeployment
      (deliveredLabels ++ [({ now := 7 }, .work .callRun), ({ now := 8 }, .work (.advance {})),
        ({ now := 9 }, .work (.advance {})), ({ now := 10 }, .rows .release)]) =
          some deployment ∧
      deployment.Recovers id singlePlan := by
  have hfacts : (run (step id singlePlan) singleDeployment
      (deliveredLabels ++ [({ now := 7 }, .work .callRun), ({ now := 8 }, .work (.advance {})),
        ({ now := 9 }, .work (.advance {})), ({ now := 10 }, .rows .release)])).map
      (fun deployment => (deployment.system.executionFree,
        deployment.checkpoint.map (·.state))) = some (true, some .running) := by
    decide +kernel
  obtain ⟨deployment, hrun, hfacts⟩ := Option.map_eq_some_iff.mp hfacts
  obtain ⟨hfree, hstate⟩ := Prod.mk.inj hfacts
  refine ⟨deployment, hrun, (recovers_iff singleDeployment_opened ⟨_, hrun⟩ hfree).mpr (.inl ?_)⟩
  intro record hrecord
  rw [hrecord, Option.map_some, Option.some.injEq] at hstate
  rw [hstate]
  rfl

/-- The worker dies right after `create`: the next delivery of the same message
raises out of `create`, and its handler marks task and evaluation failed. -/
theorem not_recovered_after_create :
    ∃ deployment, run (step id singlePlan) singleDeployment
        (deliveredLabels ++ [({ now := 7 }, .rows .release)]) = some deployment ∧
      ¬deployment.Recovers id singlePlan ∧
      ∃ final, run (step id singlePlan) deployment
          (deliveredLabels ++ [({ now := 8 }, .rows (.fail "Task 'eval-e1' already exists")),
            ({ now := 9 }, .rows .settle)]) = some final ∧
        (final.system.tasks 1).map (·.status) = some .failed ∧
        final.system.evaluation.row.status = .failed ∧
        final.system.evaluation.row.errorMessage = some "Task 'eval-e1' already exists" := by
  have hrun : (run (step id singlePlan) singleDeployment
      (deliveredLabels ++ [({ now := 7 }, .rows .release)])).isSome = true := by
    decide +kernel
  obtain ⟨deployment, hrun⟩ := Option.isSome_iff_exists.mp hrun
  have hrefused : ((run (step id singlePlan) singleDeployment
      (deliveredLabels ++ [({ now := 7 }, .rows .release)])).bind fun deployment =>
        (run (step id singlePlan) deployment deliveredLabels).bind fun final =>
          final.job.bind fun
            | .refused message => some message
            | _ => none) = some "Task 'eval-e1' already exists" := by
    decide +kernel
  have hfailed : ((run (step id singlePlan) singleDeployment
      (deliveredLabels ++ [({ now := 7 }, .rows .release)])).bind fun deployment =>
        (run (step id singlePlan) deployment
          (deliveredLabels ++ [({ now := 8 }, .rows (.fail "Task 'eval-e1' already exists")),
            ({ now := 9 }, .rows .settle)])).map fun final =>
          ((final.system.tasks 1).map (·.status), final.system.evaluation.row.status,
            final.system.evaluation.row.errorMessage)) =
      some (some .failed, .failed, some "Task 'eval-e1' already exists") := by
    decide +kernel
  rw [hrun, Option.bind_some] at hrefused hfailed
  obtain ⟨stopped, hstopped, hjob⟩ := Option.bind_eq_some_iff.mp hrefused
  obtain ⟨final, hfinal, hstatuses⟩ := Option.map_eq_some_iff.mp hfailed
  refine ⟨deployment, hrun, ?_, final, hfinal, ?_⟩
  · intro hrecovers
    obtain ⟨job, hjob, hmessage⟩ := Option.bind_eq_some_iff.mp hjob
    cases job with
    | refused message =>
        exact (hrecovers deliveredLabels stopped (by decide) hstopped).1 message hjob
    | _ => cases hmessage
  · simpa using hstatuses

end Deployment

end AlgorithmHarness.EvaluationWorker
