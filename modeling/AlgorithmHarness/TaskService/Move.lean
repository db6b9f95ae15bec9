import AlgorithmHarness.TaskService.Run

/-!
# What one step of `run` can do

`Move` lists the steps of the dispatch loop with their guards, one constructor
for each, and `step_move` says that these are all.  Every invariant of a run is
a case analysis on `Move`; the step function itself is unfolded only here.
-/

namespace AlgorithmHarness.TaskService

variable {Json : Type}

namespace TaskRecord

section Fields

variable (record : TaskRecord Json) (kind : EventKind) (unit : Option (TaskUnit Json))
  (message : Option String) (position : ℕ) (assign : TaskUnit Json → TaskUnit Json)

@[simp]
theorem appendEvent_units : (record.appendEvent kind unit message).units = record.units := rfl

@[simp]
theorem appendEvent_state : (record.appendEvent kind unit message).state = record.state := rfl

@[simp]
theorem appendEvent_cancelRequested :
    (record.appendEvent kind unit message).cancelRequested = record.cancelRequested := rfl

@[simp]
theorem appendEvent_completedUnits :
    (record.appendEvent kind unit message).completedUnits = record.completedUnits := rfl

@[simp]
theorem setUnit_units : (record.setUnit position assign).units =
    record.units.modify position assign := rfl

@[simp]
theorem setUnit_state : (record.setUnit position assign).state = record.state := rfl

@[simp]
theorem setUnit_cancelRequested :
    (record.setUnit position assign).cancelRequested = record.cancelRequested := rfl

@[simp]
theorem setUnit_completedUnits :
    (record.setUnit position assign).completedUnits = record.completedUnits := rfl

@[simp]
theorem setUnit_events : (record.setUnit position assign).events = record.events := rfl

end Fields

section Merge

variable (record persisted : TaskRecord Json)

@[simp]
theorem adoptEvents_units : (record.adoptEvents persisted).units = record.units := by
  unfold adoptEvents; split <;> rfl

@[simp]
theorem adoptEvents_state : (record.adoptEvents persisted).state = record.state := by
  unfold adoptEvents; split <;> rfl

@[simp]
theorem adoptEvents_cancelRequested :
    (record.adoptEvents persisted).cancelRequested = record.cancelRequested := by
  unfold adoptEvents; split <;> rfl

@[simp]
theorem adoptEvents_completedUnits :
    (record.adoptEvents persisted).completedUnits = record.completedUnits := by
  unfold adoptEvents; split <;> rfl

variable (stored : Option (TaskRecord Json))

@[simp]
theorem mergeExternal_units : (record.mergeExternal stored).units = record.units := by
  cases stored <;> simp [mergeExternal]

@[simp]
theorem mergeExternal_state : (record.mergeExternal stored).state = record.state := by
  cases stored <;> simp [mergeExternal]

@[simp]
theorem mergeExternal_completedUnits :
    (record.mergeExternal stored).completedUnits = record.completedUnits := by
  cases stored <;> simp [mergeExternal]

@[simp]
theorem mergeExternal_cancelRequested : (record.mergeExternal (some persisted)).cancelRequested =
    (record.cancelRequested || persisted.cancelRequested) := by
  simp [mergeExternal]

end Merge

end TaskRecord

namespace RunProcess

/-- The local copy after the load at the top of the dispatch loop. -/
def adopt (process : RunProcess Json) (persisted : TaskRecord Json) : RunProcess Json :=
  { process with record := process.record.adoptEvents persisted }

/-- What makes the top of the dispatch loop cancel the run. -/
def cancelSeen (process : RunProcess Json) (persisted : TaskRecord Json) : Prop :=
  process.cancelEvent = true ∨ process.record.cancelRequested = true ∨
    persisted.cancelRequested = true

/-- The steps of `run`, with the record each of them writes. -/
inductive Move (options : RunOptions) (choice : Choice Json)
    (stored : Option (TaskRecord Json)) (process : RunProcess Json) :
    RunProcess Json → Option (TaskRecord Json) → Prop where
  | clearLatch (hphase : process.phase = .resumeSave) :
      Move options choice stored process process.announceStart (some process.record)
  | merge (next : Continuation Json) (hphase : process.phase = .mergeLoad next) :
      Move options choice stored process
        { process with record := process.record.mergeExternal stored, phase := .mergeSave next }
        none
  | save (next : Continuation Json) (hphase : process.phase = .mergeSave next) :
      Move options choice stored process (process.resumeAfter choice.callback next)
        (some process.record)
  | finish (hphase : process.phase = .loopTop) (hqueue : process.queue = [])
      (hpending : process.pending = []) : Move options choice stored process process.finish none
  | raise (hphase : process.phase = .loopTop ∨ process.phase = .dispatching false)
      (error : String) :
      Move options choice stored process { process with phase := .raised error } none
  | cancel (hphase : process.phase = .loopTop)
      (hbusy : process.queue ≠ [] ∨ process.pending ≠ []) (persisted : TaskRecord Json)
      (hstored : stored = some persisted) (hseen : process.cancelSeen persisted) :
      Move options choice stored process (process.adopt persisted).cancelAll none
  | pause (hphase : process.phase = .loopTop) (hqueue : process.queue ≠ [])
      (hpending : process.pending = []) (persisted : TaskRecord Json)
      (hstored : stored = some persisted) (hclear : ¬process.cancelSeen persisted)
      (hanswer : choice.pauseWhen = true) :
      Move options choice stored process (process.adopt persisted).pause none
  | enter (hphase : process.phase = .loopTop)
      (hbusy : process.queue ≠ [] ∨ process.pending ≠ []) (persisted : TaskRecord Json)
      (hstored : stored = some persisted) (hclear : ¬process.cancelSeen persisted)
      (pauseRequested : Bool) :
      Move options choice stored process
        { process.adopt persisted with phase := .dispatching pauseRequested } none
  | hold (pauseRequested : Bool) (hphase : process.phase = .dispatching pauseRequested) :
      Move options choice stored process { process with phase := .waiting } none
  | dispatch (hphase : process.phase = .dispatching false) (unit : ℕ) (queue : List ℕ)
      (hqueue : process.queue = unit :: queue)
      (hroom : process.pending.length < options.maxWorkers)
      (hevent : process.cancelEvent = false) (persisted : TaskRecord Json)
      (hstored : stored = some persisted) (hclear : persisted.cancelRequested = false) :
      Move options choice stored process (process.dispatch unit queue) none
  | idle (hphase : process.phase = .waiting) :
      Move options choice stored process { process with phase := .loopTop } none
  | collect (hphase : process.phase = .waiting) (hdone : process.validDone choice.done = true) :
      Move options choice stored process { process with phase := .completing choice.done } none
  | collected (hphase : process.phase = .completing []) :
      Move options choice stored process { process with phase := .loopTop } none
  | complete (unit : ℕ) (outcome : Outcome Json) (rest : List (ℕ × Outcome Json))
      (hphase : process.phase = .completing ((unit, outcome) :: rest)) :
      Move options choice stored process (process.complete unit outcome rest) none

/-- `run` writes nothing but its own copy. -/
theorem Move.written_eq {options : RunOptions} {choice : Choice Json}
    {stored : Option (TaskRecord Json)} {process next : RunProcess Json}
    {record : TaskRecord Json} (hmove : Move options choice stored process next (some record)) :
    record = process.record := by
  cases hmove with
  | clearLatch => rfl
  | save => rfl

/-- The step that ends a call of `run` is a save. -/
theorem Move.written_of_returned {options : RunOptions} {choice : Choice Json}
    {stored written : Option (TaskRecord Json)} {process next : RunProcess Json}
    (hmove : Move options choice stored process next written)
    (hreturned : next.phase = .returned) : written = some next.record := by
  cases hmove with
  | save after =>
      cases after with
      | unitFinished unit rest =>
          cases hcallback : choice.callback <;> simp [resumeAfter, hcallback] at hreturned
      | started => cases hreturned
      | dispatched unit => cases hreturned
      | _ => rfl
  | _ => cases hreturned

/-- A call that has returned takes no further step. -/
theorem Move.not_returned {options : RunOptions} {choice : Choice Json}
    {stored written : Option (TaskRecord Json)} {process next : RunProcess Json}
    (hmove : Move options choice stored process next written) :
    process.phase ≠ .returned := by
  intro hreturned
  cases hmove <;> simp_all

/-- A future that is being handled is completed next. -/
theorem Move.completes {options : RunOptions} {choice : Choice Json}
    {stored written : Option (TaskRecord Json)} {process next : RunProcess Json}
    (hmove : Move options choice stored process next written) {unit : ℕ}
    {outcome : Outcome Json} {rest : List (ℕ × Outcome Json)}
    (hphase : process.phase = .completing ((unit, outcome) :: rest)) :
    next = process.complete unit outcome rest := by
  cases hmove with
  | complete first result others hother =>
      cases hphase.symm.trans hother
      rfl
  | raise hother => rcases hother with hother | hother <;> cases hphase.symm.trans hother
  | clearLatch hother => cases hphase.symm.trans hother
  | merge after hother => cases hphase.symm.trans hother
  | save after hother => cases hphase.symm.trans hother
  | finish hother => cases hphase.symm.trans hother
  | cancel hother => cases hphase.symm.trans hother
  | pause hother => cases hphase.symm.trans hother
  | enter hother => cases hphase.symm.trans hother
  | hold pauseRequested hother => cases hphase.symm.trans hother
  | dispatch hother => cases hphase.symm.trans hother
  | idle hother => cases hphase.symm.trans hother
  | collect hother => cases hphase.symm.trans hother
  | collected hother => cases hphase.symm.trans hother

theorem inspect_of_seen {process : RunProcess Json} {persisted : TaskRecord Json}
    (hseen : process.cancelSeen persisted) (pauseWhen : Bool) :
    process.inspect pauseWhen persisted = (process.adopt persisted).cancelAll := by
  simp only [cancelSeen] at hseen
  simp [inspect, adopt, or_assoc, hseen]

theorem inspect_move {options : RunOptions} {choice : Choice Json}
    {process : RunProcess Json} {persisted : TaskRecord Json}
    (hphase : process.phase = .loopTop)
    (hbusy : process.queue ≠ [] ∨ process.pending ≠ []) :
    Move options choice (some persisted) process
      (process.inspect choice.pauseWhen persisted) none := by
  by_cases hseen : process.cancelSeen persisted
  · rw [inspect_of_seen hseen]
    exact .cancel hphase hbusy persisted rfl hseen
  · have hclear := hseen
    simp only [cancelSeen, not_or, Bool.not_eq_true] at hclear
    by_cases hpause : process.queue ≠ [] ∧ choice.pauseWhen = true ∧ process.pending = []
    · have hinspect : process.inspect choice.pauseWhen persisted =
          (process.adopt persisted).pause := by
        simp [inspect, adopt, hclear, hpause]
      rw [hinspect]
      exact .pause hphase hpause.1 hpause.2.2 persisted rfl hseen hpause.2.1
    · have hinspect : process.inspect choice.pauseWhen persisted =
          { process.adopt persisted with
            phase := .dispatching (!process.queue.isEmpty && choice.pauseWhen) } := by
        have hguard : ((!process.queue.isEmpty && choice.pauseWhen) &&
            process.pending.isEmpty) = false := by
          simp only [Bool.and_eq_false_iff, Bool.not_eq_false', List.isEmpty_iff,
            List.isEmpty_eq_false_iff]
          by_contra hcontra
          simp only [not_or, Bool.not_eq_false, not_not] at hcontra
          exact hpause ⟨hcontra.1.1, hcontra.1.2, hcontra.2⟩
        simp [inspect, adopt, hclear, hguard]
      rw [hinspect]
      exact .enter hphase hbusy persisted rfl hseen _

/-- Every step of the dispatch loop is one of the moves. -/
theorem step_move {options : RunOptions} {choice : Choice Json}
    {stored written : Option (TaskRecord Json)} {process next : RunProcess Json}
    (hstep : process.step options choice stored = some (next, written)) :
    Move options choice stored process next written := by
  unfold step at hstep
  split at hstep
  next hphase =>
    cases hstep
    exact .clearLatch hphase
  next after hphase =>
    cases hstep
    exact .merge after hphase
  next after hphase =>
    cases hstep
    exact .save after hphase
  next hphase =>
    split at hstep
    next hempty =>
      cases hstep
      simp only [Bool.and_eq_true, List.isEmpty_iff] at hempty
      exact .finish hphase hempty.1 hempty.2
    next hbusy =>
      split at hstep
      next =>
        cases hstep
        exact .raise (.inl hphase) _
      next persisted =>
        cases hstep
        refine inspect_move hphase ?_
        simpa only [Bool.and_eq_true, List.isEmpty_iff, not_and_or] using hbusy
  next pauseRequested hphase =>
    split at hstep
    next =>
      cases hstep
      exact .hold pauseRequested hphase
    next unit queue hqueue =>
      split at hstep
      next hguard =>
        simp only [Bool.and_eq_true, decide_eq_true_eq, Bool.not_eq_true'] at hguard
        obtain ⟨⟨hroom, hevent⟩, rfl⟩ := hguard
        split at hstep
        next =>
          cases hstep
          exact .raise (.inr hphase) _
        next persisted =>
          split at hstep
          next =>
            cases hstep
            exact .hold false hphase
          next hclear =>
            split at hstep
            next =>
              cases hstep
              exact .dispatch hphase unit queue hqueue hroom hevent persisted rfl
                (by simpa using hclear)
            next error hcallback =>
              cases hstep
              exact .raise (.inr hphase) error
      next =>
        cases hstep
        exact .hold pauseRequested hphase
  next hphase =>
    split at hstep
    next =>
      cases hstep
      exact .idle hphase
    next =>
      split at hstep
      next hdone =>
        cases hstep
        by_cases hempty : choice.done = []
        · have hidle : Move options choice stored process { process with phase := .loopTop } none :=
            .idle hphase
          simpa [hempty] using hidle
        · have hcollect : Move options choice stored process
              { process with phase := .completing choice.done } none := .collect hphase hdone
          simpa [hempty] using hcollect
      next => cases hstep
  next hphase =>
    cases hstep
    exact .collected hphase
  next unit outcome rest hphase =>
    cases hstep
    exact .complete unit outcome rest hphase
  next => cases hstep
  next => cases hstep

/-- A run starts either with the latch-clearing save of a resume or with the
announcement of a fresh run. -/
theorem begin_ok {options : RunOptions} {latched : Bool} {record : TaskRecord Json}
    {process : RunProcess Json} (hbegin : begin options latched (some record) = .ok process) :
    (options.resume = true ∧
      process = { record := record.prepareResume, cancelEvent := latched, phase := .resumeSave }) ∨
    (options.resume = false ∧ record.state.terminal = false ∧
      process = announceStart { record := record, cancelEvent := latched, phase := .loopTop }) := by
  unfold begin at hbegin
  split at hbegin
  next => cases hbegin
  next =>
    dsimp only at hbegin
    split at hbegin
    next => cases hbegin
    next =>
      split at hbegin
      next => cases hbegin
      next hterminal =>
        split at hbegin
        next hresume =>
          cases hbegin
          exact .inl ⟨hresume, rfl⟩
        next hresume =>
          cases hbegin
          simp only [Bool.not_eq_true] at hresume
          exact .inr ⟨hresume, by simpa [hresume] using hterminal, rfl⟩

end RunProcess

end AlgorithmHarness.TaskService
