import AlgorithmHarness.TaskService.Record

/-!
# The dispatch loop of `TaskService.run`

One call of `run` as a process that takes a step at a time.  A step makes at
most one access to the task file: it reads what the file holds at that moment,
or it replaces it.  Everything `run` computes between two accesses belongs to
the step before them.  The answers of the caller's code (the workers, the
completion order, `pause_when` and the two unit callbacks) are in the label of
the step.
-/

namespace AlgorithmHarness.TaskService

/-- How the worker of a dispatched unit ended.  The payload of `returned` is
the serialised result; `_serialize_result` refuses any other value. -/
inductive Outcome (Json : Type) where
  | returned (data : Json)
  | unserializable
  | raised (message : String)
  deriving DecidableEq, Repr

/-- The arguments of one call of `run`. -/
structure RunOptions where
  runId : String
  maxWorkers : ℕ
  configFingerprint : Option String := none
  datasetFingerprint : Option String := none
  resume : Bool := false
  deriving DecidableEq, Repr

/-- What `run` goes on with after one of its `_save_with_external_events`. -/
inductive Continuation (Json : Type) where
  | started
  | cancelled
  | paused
  | dispatched (unit : ℕ)
  | unitFinished (unit : ℕ) (rest : List (ℕ × Outcome Json))
  | finished
  deriving DecidableEq, Repr

inductive Phase (Json : Type) where
  /-- Before the plain save that clears the cancellation latch on a resume. -/
  | resumeSave
  /-- Inside `_save_with_external_events`, before its load. -/
  | mergeLoad (next : Continuation Json)
  /-- Inside `_save_with_external_events`, between its load and its save. -/
  | mergeSave (next : Continuation Json)
  /-- The condition of `while queue or pending`. -/
  | loopTop
  /-- The condition of the inner dispatch loop. -/
  | dispatching (pauseRequested : Bool)
  /-- Before `wait(tuple(pending), timeout=0.1)`. -/
  | waiting
  /-- `for future in done`, with the futures still to be handled. -/
  | completing (done : List (ℕ × Outcome Json))
  | returned
  | raised (error : String)
  deriving DecidableEq, Repr

/-- The local state of one call.  `queue` and `pending` hold positions in
`record.units`; `submitted` is the history of `executor.submit`. -/
structure RunProcess (Json : Type) where
  record : TaskRecord Json
  cancelEvent : Bool
  queue : List ℕ := []
  pending : List ℕ := []
  submitted : List ℕ := []
  phase : Phase Json
  deriving DecidableEq, Repr

/-- The answers of the caller's code that one step may ask for.  `callback` is
what `on_unit_started` or `on_unit_finished` raises. -/
structure Choice (Json : Type) where
  pauseWhen : Bool := false
  done : List (ℕ × Outcome Json) := []
  callback : Option String := none
  deriving DecidableEq, Repr

variable {Json : Type}

/-- `[unit for unit in record.units if unit.status == "queued"]`. -/
def queuedUnits (units : List (TaskUnit Json)) : List ℕ :=
  (List.range units.length).filter fun position =>
    (units[position]?.map (·.status)) = some .queued

namespace RunProcess

/-- From the `_cancel_lock` block to the first `_save_with_external_events`. -/
def announceStart (process : RunProcess Json) : RunProcess Json :=
  { process with
    cancelEvent := process.cancelEvent || process.record.cancelRequested
    record := TaskRecord.appendEvent
      { process.record with cancelRequested := false, state := .running, error := none }
      .taskStarted none (some "Task running")
    phase := .mergeLoad .started }

/-- The start of `run` up to its first save, with what its first load returns.
`latched` says whether this service holds a set cancel event for the task. -/
def begin (options : RunOptions) (latched : Bool) (stored : Option (TaskRecord Json)) :
    Except String (RunProcess Json) :=
  if options.maxWorkers < 1 then .error "max_workers must be at least 1"
  else match stored with
  | none => .error s!"Task '{options.runId}' was not found"
  | some record =>
      match record.validateResumeFingerprints options.configFingerprint
          options.datasetFingerprint with
      | .error message => .error message
      | .ok () =>
          if record.state.terminal && !options.resume then
            .error s!"Task '{options.runId}' is already terminal; pass resume=True to continue"
          else if options.resume then
            .ok { record := record.prepareResume, cancelEvent := latched, phase := .resumeSave }
          else
            .ok (announceStart { record := record, cancelEvent := latched, phase := .loopTop })

/-- The body of `if cancel_event.is_set() or ...` up to its save. -/
def cancelAll (process : RunProcess Json) : RunProcess Json :=
  let latched := { process.record with cancelRequested := true }
  let undispatched := process.queue.foldl (TaskRecord.markCancelled false "Not dispatched") latched
  let marked := process.pending.foldl
    (TaskRecord.markCancelled true "In-flight request uncertain") undispatched
  { process with
    record := TaskRecord.appendEvent { marked with state := .cancelled }
      .taskCancelled none (some "Task cancelled")
    queue := []
    pending := []
    phase := .mergeLoad .cancelled }

/-- The body of `if pause_requested and not pending` up to its save. -/
def pause (process : RunProcess Json) : RunProcess Json :=
  { process with
    record := TaskRecord.appendEvent { process.record with state := .paused }
      .taskPaused none (some "Budget cap reached")
    phase := .mergeLoad .paused }

/-- One dispatch up to its save: the unit leaves the queue and is marked
running; `executor.submit` follows the save. -/
def dispatch (process : RunProcess Json) (unit : ℕ) (queue : List ℕ) : RunProcess Json :=
  let marked := process.record.setUnit unit fun unit =>
    { unit with status := .running, error := none }
  { process with
    record := marked.appendEvent .unitStarted marked.units[unit]? none
    queue := queue
    phase := .mergeLoad (.dispatched unit) }

/-- The text of the exception a failed unit records. -/
def Outcome.message : Outcome Json → Option String
  | .returned _ => none
  | .unserializable => some "Task worker must return a dict or Pydantic model"
  | .raised message => some message

/-- The `try` block of the completion loop on one finished future. -/
def recordOutcome (record : TaskRecord Json) (unit : ℕ) (outcome : Outcome Json) :
    TaskRecord Json :=
  match outcome with
  | .returned data =>
      let marked := record.setUnit unit fun unit =>
        { unit with result := some data, status := .completed, uncertain := false }
      marked.appendEvent .unitCompleted marked.units[unit]? none
  | .unserializable | .raised _ =>
      let marked := record.setUnit unit fun unit =>
        { unit with status := .failed, error := Outcome.message outcome }
      TaskRecord.appendEvent
        { marked with
          error := if (marked.error.getD "") = "" then Outcome.message outcome else marked.error }
        .unitFailed marked.units[unit]? (Outcome.message outcome)

/-- One iteration of `for future in done` up to its save.  The event is
appended before `completed_units` is counted again. -/
def complete (process : RunProcess Json) (unit : ℕ) (outcome : Outcome Json)
    (rest : List (ℕ × Outcome Json)) : RunProcess Json :=
  let recorded := recordOutcome process.record unit outcome
  { process with
    record := { recorded with completedUnits := finishedUnits recorded.units }
    pending := process.pending.erase unit
    phase := .mergeLoad (.unitFinished unit rest) }

/-- The code after the dispatch loop up to its save. -/
def finish (process : RunProcess Json) : RunProcess Json :=
  let state : TaskState :=
    if process.record.units.all (·.status = .completed) then .completed else .failed
  { process with
    record := TaskRecord.appendEvent
      { process.record with
        state := state
        completedUnits := finishedUnits process.record.units }
      .taskFinished none
      (some (if state = .completed then "Task completed" else "Task failed"))
    phase := .mergeLoad .finished }

/-- What follows the save inside `_save_with_external_events`; `on_unit_finished`
may raise. -/
def resumeAfter (process : RunProcess Json) (callback : Option String) :
    Continuation Json → RunProcess Json
  | .started =>
      { process with
        queue := queuedUnits process.record.units
        pending := []
        phase := .loopTop }
  | .cancelled | .paused | .finished => { process with phase := .returned }
  | .dispatched unit =>
      { process with
        pending := process.pending ++ [unit]
        submitted := process.submitted ++ [unit]
        phase := .dispatching false }
  | .unitFinished _ rest =>
      match callback with
      | none => { process with phase := .completing rest }
      | some error => { process with phase := .raised error }

/-- The top of the dispatch loop, with the record its load returns. -/
def inspect (process : RunProcess Json) (pauseWhen : Bool) (persisted : TaskRecord Json) :
    RunProcess Json :=
  let adopted := { process with record := process.record.adoptEvents persisted }
  if adopted.cancelEvent || adopted.record.cancelRequested || persisted.cancelRequested then
    adopted.cancelAll
  else
    let pauseRequested := !adopted.queue.isEmpty && pauseWhen
    if pauseRequested && adopted.pending.isEmpty then adopted.pause
    else { adopted with phase := .dispatching pauseRequested }

/-- A `store.load` that finds no file. -/
def notFound (options : RunOptions) (process : RunProcess Json) : RunProcess Json :=
  { process with phase := .raised s!"Task '{options.runId}' was not found" }

/-- `wait` returns futures that are pending, each at most once. -/
def validDone (process : RunProcess Json) (done : List (ℕ × Outcome Json)) : Bool :=
  (done.map Prod.fst).Nodup ∧ ∀ unit ∈ done.map Prod.fst, unit ∈ process.pending

/-- One step of `run` on what the task file holds; the second component is the
record the step writes.  A load that finds no file raises. -/
def step (options : RunOptions) (choice : Choice Json) (stored : Option (TaskRecord Json))
    (process : RunProcess Json) : Option (RunProcess Json × Option (TaskRecord Json)) :=
  match process.phase with
  | .resumeSave => some (process.announceStart, some process.record)
  | .mergeLoad next =>
      some ({ process with
        record := process.record.mergeExternal stored
        phase := .mergeSave next }, none)
  | .mergeSave next => some (process.resumeAfter choice.callback next, some process.record)
  | .loopTop =>
      if process.queue.isEmpty && process.pending.isEmpty then some (process.finish, none)
      else match stored with
      | none => some (process.notFound options, none)
      | some persisted => some (process.inspect choice.pauseWhen persisted, none)
  | .dispatching pauseRequested =>
      match process.queue with
      | [] => some ({ process with phase := .waiting }, none)
      | unit :: queue =>
          if process.pending.length < options.maxWorkers && !process.cancelEvent
              && !pauseRequested then
            match stored with
            | none => some (process.notFound options, none)
            | some persisted =>
                if persisted.cancelRequested then some ({ process with phase := .waiting }, none)
                else match choice.callback with
                | none => some (process.dispatch unit queue, none)
                | some error => some ({ process with phase := .raised error }, none)
          else some ({ process with phase := .waiting }, none)
  | .waiting =>
      if process.pending.isEmpty then some ({ process with phase := .loopTop }, none)
      else if process.validDone choice.done then
        some ({ process with
          phase := if choice.done.isEmpty then .loopTop else .completing choice.done }, none)
      else none
  | .completing [] => some ({ process with phase := .loopTop }, none)
  | .completing ((unit, outcome) :: rest) => some (process.complete unit outcome rest, none)
  | .returned | .raised _ => none

end RunProcess

end AlgorithmHarness.TaskService
