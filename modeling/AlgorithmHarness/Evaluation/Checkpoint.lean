import AlgorithmHarness.Evaluation.Executor
import AlgorithmHarness.TaskService.Placement

/-!
# The worker's checkpoint

What the worker does between the commit that starts the evaluation and the one
that ends it: it decides from the checkpoint file whether to create or to
resume, replays the recorded units into the ledger and calls `run`, one durable
write a step.  The process may die between any two of them; the rows and the
file are all that the next worker finds.
-/

namespace AlgorithmHarness.EvaluationWorker

open TaskManager
open TaskService (TaskRecord TaskUnit TaskState RunOptions RunProcess Choice)

/-- The columns of the evaluation its checkpoint is made from, with the hashes
of its identifier and of its problems.  None of them changes after the
evaluation is created. -/
structure Plan where
  evaluationId : String
  strategyNames : List String
  problemIds : List String
  configFingerprint : String
  datasetFingerprint : String

def Plan.runId (plan : Plan) : String := s!"eval-{plan.evaluationId}"

/-- The arguments of the worker's call of `run`. -/
def Plan.options (plan : Plan) (resume : Bool) : RunOptions :=
  { runId := plan.runId
    maxWorkers := 1
    configFingerprint := some plan.configFingerprint
    datasetFingerprint := some plan.datasetFingerprint
    resume := resume }

/-- `_create_task_units`, with the frozen problem each unit gets; `uuid` numbers
the calls of `uuid4`. -/
def createTaskUnits (uuid : ℕ → String) (freezeProblem : String → JsonDict) (plan : Plan) :
    List (TaskUnit JsonDict) :=
  (plan.strategyNames.flatMap fun strategy =>
    plan.problemIds.map fun problemId => (strategy, problemId)).mapIdx
      fun index (strategy, problemId) =>
        { unitId := uuid index
          strategy := strategy
          problemId := problemId
          problemSnapshot := some (freezeProblem problemId) }

/-- `existing_record.state in ("running", "paused", "failed", "completed")`. -/
def resumes : TaskState → Bool
  | .running | .paused | .failed | .completed => true
  | .queued | .cancelled => false

/-- How far a started worker is.  An exception is told apart by its origin:
`refused` is what the checkpoint made `create`, the fingerprint check or `run`
raise, `raised` what a callback or a service did. -/
inductive Job where
  | claimed
  | creating
  | created
  | replaying (record : TaskRecord JsonDict) (rest : List (TaskUnit JsonDict))
  /-- Inside `run`; a unit whose checkpoint is saved may await its callback. -/
  | running (options : RunOptions) (process : RunProcess JsonDict)
      (finished : Option (TaskUnit JsonDict))
  | returned (record : TaskRecord JsonDict)
  | refused (message : String)
  | raised (message : String)

/-- The message an exception handler finds, if one is being handled. -/
def Job.exception : Job → Option String
  | .refused message | .raised message => some message
  | _ => none

structure Deployment where
  system : System
  checkpoint : Option (TaskRecord JsonDict) := none
  job : Option Job := none

/-- The worker's steps on the checkpoint.  `interruption` is what
`on_unit_finished` raises after its commit. -/
inductive Work where
  | readCheckpoint
  | create (uuid : ℕ → String) (freezeProblem : String → JsonDict)
  | replayUnit (interruption : Option String)
  | callRun
  | advance (choice : Choice JsonDict)
  | recordUnit (interruption : Option String)

inductive Event where
  | rows (action : Action)
  | work (work : Work)
  /-- Step 8, with what `run` returned. -/
  | finish
  /-- The write of `_request_evaluation_cancel`; the transaction of
  `cancel_task` it belongs to may still be rolled back. -/
  | requestCancel

/-- Whether the worker is between its two commits. -/
def System.working (system : System) : Bool :=
  match system.executor with
  | some { phase := .working _, .. } => true
  | _ => false

/-- The ledger commit of `on_unit_finished`, or what it raises. -/
def System.recordUnit (redact : JsonDict → JsonDict) (system : System)
    (record : TaskRecord JsonDict) (unit : TaskUnit JsonDict) : Option (Except String System) :=
  system.executor.bind fun executor =>
    match executor.phase with
    | .working task =>
        (system.tasks task).map fun row =>
          (onUnitFinished redact row executor.generation record unit system.evaluation).map
            fun evaluation => { system with evaluation := evaluation }
    | _ => none

namespace Deployment

/-- The deployment after an action on the rows: a job begins with the start of
the evaluation and ends with the worker's last commit. -/
def moved (deployment : Deployment) (action : Action) (system : System) : Deployment :=
  let job :=
    match action with
    | .start => some .claimed
    | _ => deployment.job
  { deployment with system := system, job := if system.working then job else none }

/-- The callback `on_unit_finished`, followed by `next` unless it raises. -/
def afterCallback (deployment : Deployment) (interruption : Option String) (next : Job) :
    Except String System → Deployment
  | .ok system =>
      { deployment with system := system, job := some (interruption.elim next .raised) }
  | .error message => { deployment with job := some (.raised message) }

/-- Inside the call of `run`, after one of its steps.  A load that finds no file
is the only exception of its own. -/
def advanced (deployment : Deployment) (options : RunOptions) (process next : RunProcess JsonDict) :
    Job :=
  match next.phase with
  | .returned => .returned next.record
  | .raised message =>
      if deployment.checkpoint.isNone then .refused message else .raised message
  | _ =>
      match process.phase with
      | .mergeSave (.unitFinished unit _) => .running options next next.record.units[unit]?
      | _ => .running options next none

/-- `task_service.run` up to its first load; each worker has its own
service. -/
def callRun (deployment : Deployment) (options : RunOptions) : Deployment :=
  match RunProcess.begin options false deployment.checkpoint with
  | .ok process => { deployment with job := some (.running options process none) }
  | .error message => { deployment with job := some (.refused message) }

variable (redact : JsonDict → JsonDict) (plan : Plan)

def workStep (deployment : Deployment) : Work → Option Deployment
  | .readCheckpoint =>
      match deployment.job with
      | some .claimed =>
          let job : Job :=
            match deployment.checkpoint with
            | none => .creating
            | some record =>
                if resumes record.state then
                  match record.validateResumeFingerprints (some plan.configFingerprint)
                    (some plan.datasetFingerprint) with
                  | .ok () => .replaying record (record.units.filter (·.confirmed))
                  | .error message => .refused message
                else .creating
          some { deployment with job := some job }
      | _ => none
  | .create uuid freezeProblem =>
      match deployment.job with
      | some .creating =>
          match TaskRecord.create deployment.checkpoint plan.runId
            (createTaskUnits uuid freezeProblem plan) plan.configFingerprint
            plan.datasetFingerprint with
          | .ok record =>
              some { deployment with checkpoint := some record, job := some .created }
          | .error message => some { deployment with job := some (.refused message) }
      | _ => none
  | .replayUnit interruption =>
      match deployment.job with
      | some (.replaying record (unit :: rest)) =>
          (deployment.system.recordUnit redact record unit).map
            (deployment.afterCallback interruption (.replaying record rest))
      | _ => none
  | .callRun =>
      match deployment.job with
      | some .created => some (deployment.callRun (plan.options false))
      | some (.replaying _ []) => some (deployment.callRun (plan.options true))
      | _ => none
  | .advance choice =>
      match deployment.job with
      | some (.running options process none) =>
          -- `on_unit_finished` has its own step, after the save of the unit.
          let choice :=
            match process.phase with
            | .mergeSave _ => { choice with callback := none }
            | _ => choice
          (process.step options choice deployment.checkpoint).map fun (next, written) =>
            { deployment with
              checkpoint := written.or deployment.checkpoint
              job := some (deployment.advanced options process next) }
      | _ => none
  | .recordUnit interruption =>
      match deployment.job with
      | some (.running options process (some unit)) =>
          (deployment.system.recordUnit redact process.record unit).map
            (deployment.afterCallback interruption (.running options process none))
      | _ => none

def step (deployment : Deployment) : Moment × Event → Option Deployment
  | (_, .rows (.unitFinished _ _)) | (_, .rows (.finish _ _)) => none
  | (moment, .rows (.fail message)) =>
      if (deployment.job.bind Job.exception).all (· = message) then
        (deployment.system.step redact (moment, .fail message)).map
          (deployment.moved (.fail message))
      else none
  | (moment, .rows action) =>
      (deployment.system.step redact (moment, action)).map (deployment.moved action)
  | (_, .work work) => deployment.workStep redact plan work
  | (moment, .finish) =>
      match deployment.job with
      | some (.returned record) =>
          let action : Action := .finish record.state record.error
          (deployment.system.step redact (moment, action)).map (deployment.moved action)
      | _ => none
  | (_, .requestCancel) =>
      some { deployment with
        checkpoint := deployment.checkpoint.map fun record => record.requestCancel.getD record }

/-- The units the worker has handed to the executor. -/
def submitted (deployment : Deployment) : List ℕ :=
  match deployment.job with
  | some (.running _ process _) => process.submitted
  | _ => []

/-- A new evaluation: nothing has been delivered and no checkpoint exists. -/
structure Opened (deployment : Deployment) : Prop where
  system : deployment.system.Opened
  checkpoint : deployment.checkpoint = none
  job : deployment.job = none

end Deployment

end AlgorithmHarness.EvaluationWorker
