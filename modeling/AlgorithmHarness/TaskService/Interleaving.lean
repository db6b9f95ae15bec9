import AlgorithmHarness.Core.Transition
import AlgorithmHarness.TaskService.Move
import Mathlib.Logic.Function.Basic

/-!
# One run and other writers on one task file

`TaskService.run` in one process and calls of `request_cancel` and `fail` by
other service instances share nothing but the task file.  Each load and each
save is one step, and the schedule may interleave the steps in any order.
-/

namespace AlgorithmHarness.TaskService

/-- The calls another service instance makes on the task. -/
inductive Request where
  | requestCancel
  | fail (error : String)
  deriving DecidableEq, Repr

/-- One such call: its local copy exists between its load and its save. -/
inductive Writer (Json : Type) where
  | idle
  | loaded (record : TaskRecord Json)
  | returned
  deriving DecidableEq, Repr

structure System (Json : Type) where
  store : TaskRecord Json
  process : Option (RunProcess Json) := none
  writers : ℕ → Writer Json := fun _ => .idle

inductive Label (Json : Type) where
  /-- The first load of `run`, on a service that may hold a set cancel event. -/
  | begin (latched : Bool)
  | step (choice : Choice Json)
  /-- The in-process cancel event is set while `run` is under way. -/
  | signal
  | load (writer : ℕ) (request : Request)
  | save (writer : ℕ)
  deriving DecidableEq, Repr

variable {Json : Type}

/-- Whether the label belongs to a call other than `run`. -/
def Label.external : Label Json → Bool
  | .load _ _ | .save _ => true
  | .begin _ | .step _ | .signal => false

/-- The labels of a run and of one call of `request_cancel` elsewhere. -/
def Label.singleCancel : Label Json → Bool
  | .load writer request => writer = 0 && request = .requestCancel
  | .save writer => writer = 0
  | .begin _ | .step _ | .signal => true

/-- What a call holds after its load. -/
def Request.onLoaded (record : TaskRecord Json) : Request → Writer Json
  | .requestCancel =>
      match record.requestCancel with
      | none => .returned
      | some changed => .loaded changed
  | .fail error => .loaded (record.fail error)

theorem TaskRecord.requestCancel_eq_some {record changed : TaskRecord Json}
    (hchanged : record.requestCancel = some changed) :
    record.state.terminal = false ∧
      changed = appendEvent { record with cancelRequested := true }
        .cancelRequested none (some "Cancellation requested") := by
  unfold requestCancel at hchanged
  split at hchanged
  next => cases hchanged
  next hopen =>
    cases hchanged
    exact ⟨by simpa using hopen, rfl⟩

theorem Request.onLoaded_cancel {record changed : TaskRecord Json}
    (hloaded : Request.requestCancel.onLoaded record = .loaded changed) :
    record.requestCancel = some changed := by
  simp only [Request.onLoaded] at hloaded
  split at hloaded
  next => cases hloaded
  next hchanged =>
    cases hloaded
    exact hchanged

/-- A call of another service leaves the units it loaded as they were. -/
theorem Request.onLoaded_units {record changed : TaskRecord Json} {request : Request}
    (hloaded : request.onLoaded record = .loaded changed) : changed.units = record.units := by
  cases request with
  | requestCancel =>
      obtain ⟨-, rfl⟩ := TaskRecord.requestCancel_eq_some (onLoaded_cancel hloaded)
      rfl
  | fail error =>
      cases hloaded
      rfl

/-- A call of another service appends one event to the history it loaded. -/
theorem Request.onLoaded_events {record changed : TaskRecord Json} {request : Request}
    (hloaded : request.onLoaded record = .loaded changed) :
    ∃ event, changed.events = record.events ++ [event] ∧
      event.sequence = record.events.length + 1 := by
  cases request with
  | requestCancel =>
      obtain ⟨-, rfl⟩ := TaskRecord.requestCancel_eq_some (onLoaded_cancel hloaded)
      exact ⟨_, rfl, rfl⟩
  | fail error =>
      cases hloaded
      exact ⟨_, rfl, rfl⟩

namespace System

/-- `record` is stored and nothing has run yet. -/
def start (record : TaskRecord Json) : System Json := { store := record }

def setWriter (system : System Json) (writer : ℕ) (value : Writer Json) : System Json :=
  { system with writers := Function.update system.writers writer value }

theorem setWriter_loaded {system : System Json} {writer other : ℕ} {value : Writer Json}
    {record : TaskRecord Json}
    (hloaded : (system.setWriter writer value).writers other = .loaded record) :
    (other = writer ∧ value = .loaded record) ∨
      (other ≠ writer ∧ system.writers other = .loaded record) := by
  by_cases heq : other = writer
  · subst other
    simp only [setWriter, Function.update_self] at hloaded
    exact .inl ⟨rfl, hloaded⟩
  · simp only [setWriter, Function.update_of_ne heq] at hloaded
    exact .inr ⟨heq, hloaded⟩

def step (options : RunOptions) (system : System Json) :
    Label Json → Option (System Json)
  | .begin latched =>
      match system.process with
      | some _ => none
      | none =>
          match RunProcess.begin options latched (some system.store) with
          | .error _ => none
          | .ok process => some { system with process := some process }
  | .step choice =>
      match system.process with
      | none => none
      | some process =>
          (process.step options choice (some system.store)).map fun (next, written) =>
            { system with process := some next, store := written.getD system.store }
  | .signal =>
      match system.process with
      | none => none
      | some process =>
          some { system with process := some { process with cancelEvent := true } }
  | .load writer request =>
      match system.writers writer with
      | .idle => some (system.setWriter writer (request.onLoaded system.store))
      | .loaded _ | .returned => none
  | .save writer =>
      match system.writers writer with
      | .loaded record => some { system.setWriter writer .returned with store := record }
      | .idle | .returned => none

/-- The steps of the system. -/
inductive Move (options : RunOptions) (system : System Json) :
    Label Json → System Json → Prop where
  | begin (latched : Bool) (process : RunProcess Json) (hprocess : system.process = none)
      (hbegin : RunProcess.begin options latched (some system.store) = .ok process) :
      Move options system (.begin latched) { system with process := some process }
  | step (choice : Choice Json) (process next : RunProcess Json)
      (written : Option (TaskRecord Json)) (hprocess : system.process = some process)
      (hmove : process.Move options choice (some system.store) next written) :
      Move options system (.step choice)
        { system with process := some next, store := written.getD system.store }
  | signal (process : RunProcess Json) (hprocess : system.process = some process) :
      Move options system .signal
        { system with process := some { process with cancelEvent := true } }
  | load (writer : ℕ) (request : Request) (hidle : system.writers writer = .idle) :
      Move options system (.load writer request)
        (system.setWriter writer (request.onLoaded system.store))
  | save (writer : ℕ) (record : TaskRecord Json) (hloaded : system.writers writer = .loaded record) :
      Move options system (.save writer) { system.setWriter writer .returned with store := record }

theorem step_move {options : RunOptions} {system next : System Json} {label : Label Json}
    (hstep : system.step options label = some next) : Move options system label next := by
  cases label with
  | begin latched =>
      simp only [step] at hstep
      split at hstep
      next => cases hstep
      next hprocess =>
        split at hstep
        next => cases hstep
        next process hbegin =>
          cases hstep
          exact .begin latched process hprocess hbegin
  | step choice =>
      simp only [step] at hstep
      split at hstep
      next => cases hstep
      next process hprocess =>
        obtain ⟨⟨moved, written⟩, hmoved, rfl⟩ := Option.map_eq_some_iff.mp hstep
        exact .step choice process moved written hprocess (RunProcess.step_move hmoved)
  | signal =>
      simp only [step] at hstep
      split at hstep
      next => cases hstep
      next process hprocess =>
        cases hstep
        exact .signal process hprocess
  | load writer request =>
      simp only [step] at hstep
      split at hstep
      next hidle =>
        cases hstep
        exact .load writer request hidle
      next => cases hstep
      next => cases hstep
  | save writer =>
      simp only [step] at hstep
      split at hstep
      next record hloaded =>
        cases hstep
        exact .save writer record hloaded
      next => cases hstep
      next => cases hstep

/-- The runs of the system on a stored record. -/
abbrev run (options : RunOptions) (system : System Json) (schedule : List (Label Json)) :
    Option (System Json) :=
  Transition.run (step options) system schedule

end System

end AlgorithmHarness.TaskService
