import AlgorithmHarness.Core.Transition
import AlgorithmHarness.Evaluation.Worker

/-!
# The executor of an evaluation among its users

The task rows of one evaluation, the evaluation itself and the worker that owns
its execution lock, interleaved with the users' operations.  A resume needs the
lock.
-/

namespace AlgorithmHarness.EvaluationWorker

open Transition
open TaskManager
open TaskService (TaskRecord TaskUnit TaskState)

/-- Where the worker is between two of its transactions. -/
inductive Phase where
  | owning
  /-- It has read the evaluation's link. -/
  | linked (task : ℕ)
  /-- It has read the task, cancelled or executable. -/
  | cancelling (task : ℕ)
  | loaded (task : ℕ)
  /-- The evaluation is running. -/
  | working (task : ℕ)
  /-- The second commit is left, of a task that was found or not. -/
  | settling (task : Option ℕ) (settlement : Settlement)
  | leaving

/-- The worker that owns the execution lock, bound to `self.request.id`. -/
structure Executor where
  generation : Generation
  phase : Phase := .owning

/-- `issued` and `nextTask` are the next identifiers.  A call of
`resume_evaluation` owns the lock too; `resuming` is the task it has found
paused or failed. -/
structure System where
  tasks : ℕ → Option AsyncTask
  evaluation : Evaluation
  executor : Option Executor := none
  resuming : Option ℕ := none
  nextTask : ℕ
  issued : Generation

inductive Action where
  | acquire (generation : Generation)
  | readEvaluation
  | readTask
  | markCancelled
  | start
  | reportProgress (progress : JsonDict)
  | unitFinished (record : TaskRecord JsonDict) (unit : TaskUnit JsonDict)
  | finish (state : TaskState) (error : Option String)
  | fail (message : String)
  | settle
  /-- The worker returns, or its process dies. -/
  | release
  /-- A transaction of the API on one of the tasks. -/
  | manage (task : ℕ) (transaction : Transaction)
  | resumeTask (task : ℕ) (capacity : Bool) (userId : String)
  /-- `resume_evaluation` up to its check of the task, from there to the commit
  of the new link, and its other exits. -/
  | checkResume (userId : String)
  | linkResume (userId : String)
  | abandonResume
  | startEvaluation (userId : String)
  /-- The commit of `cancel_evaluation` that follows its `cancel_task`. -/
  | cancelEvaluation
  /-- The start of the API. -/
  | recoverInterrupted

/-- Whether a step is one of the worker's. -/
def Action.ofWorker : Action → Bool
  | .acquire _ | .readEvaluation | .readTask | .markCancelled | .start | .reportProgress _
  | .unitFinished _ _ | .finish _ _ | .fail _ | .settle | .release => true
  | .manage _ _ | .resumeTask _ _ _ | .checkResume _ | .linkResume _ | .abandonResume
  | .startEvaluation _ | .cancelEvaluation | .recoverInterrupted => false

/-- `INTERRUPTED_BY_RESTART`. -/
def interruptedByRestart : String := "interrupted by service restart"

namespace System

def writeTask (system : System) (task : ℕ) (row : AsyncTask) : System :=
  { system with tasks := Function.update system.tasks task (some row) }

def write (system : System) (task : ℕ) (rows : Rows) : System :=
  { system.writeTask task rows.task with evaluation := rows.evaluation }

def setPhase (system : System) (executor : Executor) (phase : Phase) : System :=
  { system with executor := some { executor with phase := phase } }

/-- `evaluation.status = status`, committed. -/
def setStatus (system : System) (status : Status) : System :=
  { system with
    evaluation :=
      { system.evaluation with row := { system.evaluation.row with status := status } } }

/-- A new task row, linked to the evaluation. -/
def enqueue (system : System) (userId : String) : System :=
  { system with
    tasks := Function.update system.tasks system.nextTask
      (some (newTask system.nextTask system.issued .evaluation userId))
    evaluation :=
      { system.evaluation with
        row :=
          { system.evaluation.row with status := .pending, asyncTaskId := some system.nextTask } }
    nextTask := system.nextTask + 1
    issued := system.issued + 1 }

/-- Nobody owns the execution lock. -/
def executionFree (system : System) : Bool :=
  system.executor.isNone && system.resuming.isNone

/-- The row the evaluation is linked to. -/
def linkedTask (system : System) : Option AsyncTask :=
  system.evaluation.row.asyncTaskId.bind system.tasks

variable (redact : JsonDict → JsonDict)

/-- The steps of the worker; `executor` owns the lock. -/
def workerStep (system : System) (executor : Executor) (moment : Moment) :
    Action → Option System
  | .readEvaluation =>
      match executor.phase with
      | .owning =>
          match system.evaluation.row.asyncTaskId with
          | none =>
              some (system.setPhase executor (.settling none
                { status := .failed, errorMessage := some "Evaluation has no associated async task" }))
          | some task => some (system.setPhase executor (.linked task))
      | _ => none
  | .readTask =>
      match executor.phase with
      | .linked task =>
          match system.tasks task with
          | none =>
              some (system.setPhase executor (.settling none
                { status := .failed, errorMessage := some "AsyncTask not found" }))
          | some row =>
              match admission executor.generation row with
              | .leave => some (system.setPhase executor .leaving)
              | .cancelled => some (system.setPhase executor (.cancelling task))
              | .proceed => some (system.setPhase executor (.loaded task))
      | _ => none
  | .markCancelled =>
      match executor.phase with
      | .cancelling _ =>
          some ((system.setStatus .cancelled).setPhase executor .leaving)
      | _ => none
  | .start =>
      match executor.phase with
      | .loaded task =>
          (system.tasks task).bind fun row =>
            match EvaluationWorker.start moment executor.generation
              { task := row, evaluation := system.evaluation } with
            | none => some (system.setPhase executor .leaving)
            | some rows => some ((system.write task rows).setPhase executor (.working task))
      | _ => none
  | .reportProgress progress =>
      match executor.phase with
      | .working task =>
          (system.tasks task).map fun row =>
            system.writeTask task (EvaluationWorker.reportProgress executor.generation progress row)
      | _ => none
  | .unitFinished record unit =>
      match executor.phase with
      | .working task =>
          (system.tasks task).map fun row =>
            match onUnitFinished redact row executor.generation record unit system.evaluation with
            | .ok evaluation => { system with evaluation := evaluation }
            | .error _ => system
      | _ => none
  | .finish state error =>
      match executor.phase with
      | .working task =>
          (system.tasks task).map fun row =>
            let (rows, settlement) := EvaluationWorker.finish moment executor.generation state error
              { task := row, evaluation := system.evaluation }
            (system.write task rows).setPhase executor
              (settlement.elim .leaving (.settling (some task)))
      | _ => none
  | .fail message =>
      match executor.phase with
      | .loaded task | .working task =>
          (system.tasks task).map fun row =>
            let (rows, settlement) := EvaluationWorker.fail moment executor.generation message
              { task := row, evaluation := system.evaluation }
            (system.write task rows).setPhase executor
              (settlement.elim .leaving (.settling (some task)))
      | _ => none
  | .settle =>
      match executor.phase with
      | .settling _ settlement =>
          some ({ system with
            evaluation := EvaluationWorker.settle moment.now settlement system.evaluation }.setPhase
              executor .leaving)
      | _ => none
  | .release => some { system with executor := none }
  | _ => none

/-- The steps of the API. -/
def userStep (system : System) (moment : Moment) : Action → Option System
  | .manage task transaction =>
      if userTransaction transaction then
        (system.tasks task).map fun row =>
          let rows : Rows := { task := row, evaluation := system.evaluation }
          system.write task (rows.commit (transaction.apply moment rows.records))
      else none
  | .resumeTask task capacity userId =>
      (system.tasks task).map fun row =>
        let rows : Rows := { task := row, evaluation := system.evaluation }
        match TaskManager.resumeTask moment
          { capacity := capacity, executionFree := system.executionFree } system.issued userId
          rows.records with
        | .ok written =>
            { system.write task (rows.commit written) with issued := system.issued + 1 }
        | .error _ => system
  | .checkResume userId =>
      match system.evaluation.row.asyncTaskId, system.linkedTask with
      | some task, some row =>
          if system.executionFree ∧ system.evaluation.row.userId = userId ∧
              (row.status = .paused ∨ row.status = .failed) then
            some { system with resuming := some task }
          else none
      | _, _ => none
  | .linkResume userId =>
      match system.resuming with
      | some task =>
          if system.evaluation.row.userId = userId ∧
              system.evaluation.row.asyncTaskId = some task then
            some { system.enqueue userId with resuming := none }
          else none
      | none => none
  | .abandonResume => some { system with resuming := none }
  | .startEvaluation userId =>
      match system.linkedTask with
      | some row =>
          if system.evaluation.row.userId = userId ∧ system.evaluation.row.status = .pending ∧
              row.status.terminal then
            some (system.enqueue userId)
          else none
      | none => none
  | .cancelEvaluation => some (system.setStatus .cancelled)
  | .recoverInterrupted =>
      -- The UPDATE asks this of every task of the evaluation.
      if (system.evaluation.row.status = .pending ∨ system.evaluation.row.status = .running) ∧
          system.linkedTask.all (·.status.terminal) then
        some { system with
          evaluation :=
            { system.evaluation with
              row :=
                { system.evaluation.row with
                  status := .failed
                  errorMessage := some interruptedByRestart } } }
      else none
  | _ => none

def step (system : System) : Moment × Action → Option System
  | (_, .acquire generation) =>
      if system.executionFree then
        some { system with executor := some { generation := generation } }
      else none
  | (moment, action) =>
      if action.ofWorker then
        system.executor.bind fun executor => workerStep redact system executor moment action
      else system.userStep moment action

variable {redact} in
/-- Who takes a step. -/
theorem step_cases {system next : System} {moment : Moment} {action : Action}
    (hstep : step redact system (moment, action) = some next) :
    (∃ generation, action = .acquire generation ∧ system.executionFree = true ∧
        next = { system with executor := some { generation := generation } }) ∨
      (action.ofWorker = true ∧ ∃ executor, system.executor = some executor ∧
        workerStep redact system executor moment action = some next) ∨
      userStep system moment action = some next := by
  cases action with
  | acquire generation =>
      rw [step] at hstep
      split_ifs at hstep with hfree
      exact .inl ⟨generation, rfl, hfree, (Option.some_inj.mp hstep).symm⟩
  | _ =>
      first
      | exact .inr (.inr hstep)
      | exact .inr (.inl ⟨rfl, Option.bind_eq_some_iff.mp hstep⟩)

-- The proofs unfold these two one action at a time; their equations are made here, once.
attribute [local simp] workerStep userStep

/-- A new evaluation with its first task, before any delivery. -/
structure Opened (system : System) : Prop where
  known : ∀ task row, system.tasks task = some row → row.id = task ∧
    row.taskType = .evaluation ∧ row.userId = system.evaluation.row.userId ∧
    row.status = .pending
  fresh : ∀ task, system.nextTask ≤ task → system.tasks task = none
  linked : ∃ row, system.linkedTask = some row
  free : system.executionFree = true

end System

end AlgorithmHarness.EvaluationWorker
