import AlgorithmHarness.TaskService.Interleaving
import AlgorithmHarness.TaskService.Placement

/-!
# The lifecycle of one run

What holds of a call of `run` at every moment, whatever the workers, the pause
and cancel answers and the records other writers leave in the task file: the
units stand where their statuses say, nothing is dispatched twice, and a run
that returns has classified its units correctly.
-/

namespace AlgorithmHarness.TaskService

variable {Json : Type}

/-- What the units of a returned record look like, by its state. -/
def Ended (units : List (TaskUnit Json)) : TaskState → Prop
  | .completed => ∀ unit ∈ units, unit.status = .completed
  | .failed =>
      (∀ unit ∈ units, unit.status.finished = true) ∧ ∃ unit ∈ units, unit.status = .failed
  | .cancelled =>
      (∀ unit ∈ units, unit.status = .cancelled ∨ unit.status.finished = true) ∧
        ∃ unit ∈ units, unit.status = .cancelled
  | .paused =>
      (∀ unit ∈ units, unit.status = .queued ∨ unit.status.finished = true) ∧
        ∃ unit ∈ units, unit.status = .queued
  | .queued | .running => False

namespace RunProcess

/-- Units handed to the executor whose outcome the record does not show yet. -/
def inFlight (process : RunProcess Json) : List ℕ :=
  process.submitted.filter fun position =>
    !((process.record.units[position]?.map fun unit => unit.status.finished).getD true)

theorem mem_inFlight_iff {process : RunProcess Json} {position : ℕ} :
    position ∈ process.inFlight ↔ position ∈ process.submitted ∧
      ∃ unit, process.record.units[position]? = some unit ∧
        unit.status.finished = false := by
  unfold inFlight
  rw [List.mem_filter]
  cases process.record.units[position]? <;> simp

/-- The loop is running; `departing` has left the queue but is not submitted. -/
structure Looping (accounted : Prop) (process : RunProcess Json) (departing : List ℕ) :
    Prop where
  placed : Placed accounted process.record.units process.queue (process.pending ++ departing)
  pending_submitted : ∀ position ∈ process.pending, position ∈ process.submitted
  submitted_left : ∀ position ∈ process.submitted,
    position ∉ process.queue ∧ position ∉ departing

/-- What holds before and after the load of a `_save_with_external_events`. -/
def AtSave (accounted : Prop) (options : RunOptions) (process : RunProcess Json) :
    Continuation Json → Prop
  | .started => (accounted → Ready process.record.units) ∧ process.submitted = []
  | .dispatched unit =>
      process.Looping accounted [unit] ∧ process.pending.length < options.maxWorkers
  | .unitFinished _ rest => process.Looping accounted [] ∧ process.validDone rest = true
  | .cancelled =>
      process.record.state = .cancelled ∧ (accounted → Ended process.record.units .cancelled)
  | .paused =>
      process.record.state = .paused ∧ (accounted → Ended process.record.units .paused)
  | .finished =>
      (process.record.state = .completed ∨ process.record.state = .failed) ∧
        (accounted → Ended process.record.units process.record.state)

def Stage (accounted : Prop) (options : RunOptions) (process : RunProcess Json) :
    Phase Json → Prop
  | .resumeSave => process.AtSave accounted options .started
  | .mergeLoad next | .mergeSave next => process.AtSave accounted options next
  | .loopTop | .dispatching _ | .waiting => process.Looping accounted []
  | .completing done => process.Looping accounted [] ∧ process.validDone done = true
  | .returned => accounted → Ended process.record.units process.record.state
  | .raised _ => True

/-- The invariant of a run on the record `initial`. -/
structure Invariant (accounted : Prop) (options : RunOptions)
    (initial : TaskRecord Json) (process : RunProcess Json) : Prop where
  counted : options.resume = true ∨ initial.completedUnits = finishedUnits initial.units →
    process.record.completedUnits = finishedUnits process.record.units
  kept : ∀ (position : ℕ) (unit : TaskUnit Json), initial.units[position]? = some unit →
    unit.confirmed = true → process.record.units[position]? = some unit
  submitted_nodup : process.submitted.Nodup
  submitted_open : ∀ position ∈ process.submitted, ∀ unit : TaskUnit Json,
    initial.units[position]? = some unit → unit.confirmed = false
  flight : accounted → process.inFlight.length ≤ options.maxWorkers
  stage : process.Stage accounted options process.phase

variable {accounted : Prop}

/-! ## Moves that leave the units alone -/

theorem Looping.congr {process other : RunProcess Json} {departing : List ℕ}
    (hlooping : process.Looping accounted departing)
    (hunits : other.record.units = process.record.units)
    (hqueue : other.queue = process.queue) (hpending : other.pending = process.pending)
    (hsubmitted : other.submitted = process.submitted) : other.Looping accounted departing := by
  refine ⟨?_, ?_, ?_⟩
  · rw [hunits, hqueue, hpending]
    exact hlooping.placed
  · rw [hpending, hsubmitted]
    exact hlooping.pending_submitted
  · rw [hqueue, hsubmitted]
    exact hlooping.submitted_left

theorem AtSave.congr {options : RunOptions} {process other : RunProcess Json}
    {next : Continuation Json} (hsave : process.AtSave accounted options next)
    (hunits : other.record.units = process.record.units)
    (hstate : other.record.state = process.record.state)
    (hqueue : other.queue = process.queue) (hpending : other.pending = process.pending)
    (hsubmitted : other.submitted = process.submitted) : other.AtSave accounted options next := by
  cases next with
  | started => simpa only [AtSave, hunits, hsubmitted] using hsave
  | cancelled => simpa only [AtSave, hunits, hstate] using hsave
  | paused => simpa only [AtSave, hunits, hstate] using hsave
  | finished => simpa only [AtSave, hunits, hstate] using hsave
  | dispatched unit =>
      refine ⟨hsave.1.congr hunits hqueue hpending hsubmitted, ?_⟩
      rw [hpending]
      exact hsave.2
  | unitFinished unit rest =>
      refine ⟨hsave.1.congr hunits hqueue hpending hsubmitted, ?_⟩
      simpa only [validDone, hpending] using hsave.2

theorem Stage.congr {options : RunOptions} {process other : RunProcess Json}
    {phase : Phase Json} (hstage : process.Stage accounted options phase)
    (hrecord : other.record = process.record) (hqueue : other.queue = process.queue)
    (hpending : other.pending = process.pending)
    (hsubmitted : other.submitted = process.submitted) : other.Stage accounted options phase := by
  have hunits := congrArg TaskRecord.units hrecord
  have hstate := congrArg TaskRecord.state hrecord
  cases phase with
  | resumeSave =>
      have hsave : process.AtSave accounted options .started := hstage
      exact hsave.congr hunits hstate hqueue hpending hsubmitted
  | mergeLoad next => exact AtSave.congr hstage hunits hstate hqueue hpending hsubmitted
  | mergeSave next => exact AtSave.congr hstage hunits hstate hqueue hpending hsubmitted
  | loopTop => exact Looping.congr hstage hunits hqueue hpending hsubmitted
  | dispatching pause => exact Looping.congr hstage hunits hqueue hpending hsubmitted
  | waiting => exact Looping.congr hstage hunits hqueue hpending hsubmitted
  | completing done =>
      refine ⟨Looping.congr hstage.1 hunits hqueue hpending hsubmitted, ?_⟩
      simpa only [validDone, hpending] using hstage.2
  | returned => simpa only [Stage, hrecord] using hstage
  | raised error => trivial

/-- A move that keeps the units, the counter and the submissions only has to
establish its stage. -/
theorem Invariant.of_same_units {options : RunOptions} {initial : TaskRecord Json}
    {process other : RunProcess Json} (hinvariant : process.Invariant accounted options initial)
    (hunits : other.record.units = process.record.units)
    (hcompleted : other.record.completedUnits = process.record.completedUnits)
    (hsubmitted : other.submitted = process.submitted)
    (hstage : other.Stage accounted options other.phase) : other.Invariant accounted options initial := by
  refine ⟨?_, ?_, ?_, ?_, ?_, hstage⟩
  · rw [hcompleted, hunits]
    exact hinvariant.counted
  · rw [hunits]
    exact hinvariant.kept
  · rw [hsubmitted]
    exact hinvariant.submitted_nodup
  · rw [hsubmitted]
    exact hinvariant.submitted_open
  · simpa only [inFlight, hunits, hsubmitted] using hinvariant.flight

/-! ## Dispatching and submitting -/

/-- While the loop runs, the units in flight are pending. -/
theorem Looping.inFlight_length_le {process : RunProcess Json} {departing : List ℕ}
    (hlooping : process.Looping accounted departing) (haccounted : accounted)
    (hnodup : process.submitted.Nodup) : process.inFlight.length ≤ process.pending.length := by
  have hsubset : process.inFlight ⊆ process.pending := by
    intro position hmem
    obtain ⟨hsubmitted, unit, hunit, hopen⟩ := mem_inFlight_iff.mp hmem
    obtain ⟨hqueue, hdeparting⟩ := hlooping.submitted_left position hsubmitted
    by_contra hpending
    have hfinished := hlooping.placed.finished haccounted position unit hunit hqueue (by
      simp [hpending, hdeparting])
    rw [hopen] at hfinished
    cases hfinished
  exact (List.subperm_of_subset (hnodup.filter _) hsubset).length_le

theorem Invariant.dispatch {options : RunOptions} {initial : TaskRecord Json}
    {process : RunProcess Json} (hinvariant : process.Invariant accounted options initial)
    (hlooping : process.Looping accounted []) {unit : ℕ} {queue : List ℕ}
    (hqueue : process.queue = unit :: queue)
    (hroom : process.pending.length < options.maxWorkers) :
    (process.dispatch unit queue).Invariant accounted options initial := by
  have hplaced : Placed accounted process.record.units (unit :: queue) process.pending := by
    simpa [hqueue] using hlooping.placed
  obtain ⟨found, hfound, hstatus⟩ := hplaced.queued unit List.mem_cons_self
  have hflags : ∀ position : ℕ,
      (process.dispatch unit queue).record.units[position]?.map
          (fun unit => unit.status.finished) =
        process.record.units[position]?.map (fun unit => unit.status.finished) := by
    intro position
    simp only [RunProcess.dispatch, TaskRecord.appendEvent_units, TaskRecord.setUnit_units]
    by_cases heq : unit = position
    · subst position
      simp [hfound, hstatus, TaskState.finished]
    · rw [List.getElem?_modify_ne _ _ heq]
  refine ⟨?_, ?_, hinvariant.submitted_nodup, hinvariant.submitted_open, ?_, ?_⟩
  · rw [finishedUnits_eq_of_getElem? hflags]
    exact hinvariant.counted
  · intro position kept hinitial hconfirmed
    have hkept := hinvariant.kept position kept hinitial hconfirmed
    have hne : unit ≠ position := by
      rintro rfl
      rw [hfound] at hkept
      cases hkept
      simp [TaskUnit.confirmed, hstatus, TaskState.finished] at hconfirmed
    simpa [RunProcess.dispatch, List.getElem?_modify_ne _ _ hne] using hkept
  · have hflight := hinvariant.flight
    simp only [inFlight, hflags] at hflight ⊢
    exact hflight
  · refine ⟨⟨?_, hlooping.pending_submitted, ?_⟩, hroom⟩
    · exact hplaced.dispatch fun _ => rfl
    · intro position hsubmitted
      have hleft := (hlooping.submitted_left position hsubmitted).1
      rw [hqueue, List.mem_cons, not_or] at hleft
      exact ⟨hleft.2, by simpa using hleft.1⟩

theorem Invariant.submit {options : RunOptions} {initial : TaskRecord Json}
    {process : RunProcess Json} (hinvariant : process.Invariant accounted options initial) {unit : ℕ}
    (hsave : process.AtSave accounted options (.dispatched unit)) (callback : Option String) :
    (process.resumeAfter callback (.dispatched unit)).Invariant accounted options initial := by
  obtain ⟨hlooping, hroom⟩ := hsave
  have hmem : unit ∈ process.pending ++ [unit] := by simp
  obtain ⟨found, hfound, hstatus⟩ := hlooping.placed.running unit hmem
  have hfresh : unit ∉ process.submitted := fun hsubmitted =>
    (hlooping.submitted_left unit hsubmitted).2 List.mem_cons_self
  refine ⟨hinvariant.counted, hinvariant.kept, ?_, ?_, ?_, ?_⟩
  · exact (List.perm_append_singleton unit process.submitted).nodup_iff.mpr
      (List.nodup_cons.mpr ⟨hfresh, hinvariant.submitted_nodup⟩)
  · intro position hposition kept hinitial
    rcases List.mem_append.mp hposition with hold | hnew
    · exact hinvariant.submitted_open position hold kept hinitial
    · obtain rfl := List.mem_singleton.mp hnew
      by_contra hconfirmed
      rw [Bool.not_eq_false] at hconfirmed
      have hkept := hinvariant.kept position kept hinitial hconfirmed
      rw [hfound] at hkept
      cases hkept
      simp [TaskUnit.confirmed, hstatus, TaskState.finished] at hconfirmed
  · intro haccounted
    have hlength := hlooping.inFlight_length_le haccounted hinvariant.submitted_nodup
    have hsplit : (process.resumeAfter callback (.dispatched unit)).inFlight =
        process.inFlight ++ [unit] := by
      simp [inFlight, resumeAfter, List.filter_append, hfound, hstatus, TaskState.finished]
    rw [hsplit, List.length_append, List.length_singleton]
    omega
  · refine ⟨by simpa [resumeAfter] using hlooping.placed, ?_, ?_⟩
    · intro position hposition
      rcases List.mem_append.mp hposition with hold | hnew
      · exact List.mem_append_left _ (hlooping.pending_submitted position hold)
      · exact List.mem_append_right _ hnew
    · intro position hposition
      refine ⟨?_, by simp⟩
      rcases List.mem_append.mp hposition with hold | hnew
      · exact (hlooping.submitted_left position hold).1
      · obtain rfl := List.mem_singleton.mp hnew
        intro hqueued
        obtain ⟨other, hother, hqueuedStatus⟩ := hlooping.placed.queued position hqueued
        rw [hfound] at hother
        cases hother
        rw [hstatus] at hqueuedStatus
        cases hqueuedStatus

/-! ## Completing -/

theorem Invariant.complete {options : RunOptions} {initial : TaskRecord Json}
    {process : RunProcess Json} (hinvariant : process.Invariant accounted options initial)
    {unit : ℕ} {outcome : Outcome Json} {rest : List (ℕ × Outcome Json)}
    (hlooping : process.Looping accounted [])
    (hdone : process.validDone ((unit, outcome) :: rest) = true) :
    (process.complete unit outcome rest).Invariant accounted options initial := by
  obtain ⟨assign, hunits, hassign, -⟩ := recordOutcome_units process.record unit outcome
  simp only [validDone, List.map_cons, List.nodup_cons, List.mem_cons, decide_eq_true_eq,
    forall_eq_or_imp] at hdone
  obtain ⟨⟨hfresh, hnodup⟩, hpending, hrest⟩ := hdone
  have hplaced : Placed accounted process.record.units process.queue process.pending := by
    simpa using hlooping.placed
  have hpendingNodup : process.pending.Nodup := (List.nodup_append'.mp hplaced.nodup).2.1
  have hrecord : (process.complete unit outcome rest).record.units =
      process.record.units.modify unit assign := hunits
  refine ⟨fun _ => rfl, ?_, hinvariant.submitted_nodup, hinvariant.submitted_open, ?_, ?_⟩
  · intro position kept hinitial hconfirmed
    have hkept := hinvariant.kept position kept hinitial hconfirmed
    have hne : unit ≠ position := by
      rintro rfl
      have hopen := hplaced.not_finished (.inr hpending) hkept
      simp [TaskUnit.confirmed, hopen] at hconfirmed
    rw [hrecord, List.getElem?_modify_ne _ _ hne]
    exact hkept
  · -- finishing a unit can only take it out of the filter
    intro haccounted
    refine Nat.le_trans (List.Sublist.length_le ?_) (hinvariant.flight haccounted)
    refine List.monotone_filter_right _ fun position hopen => ?_
    rw [hrecord] at hopen
    by_cases heq : unit = position
    · subst position
      rw [List.getElem?_modify_eq] at hopen
      cases hunit : process.record.units[unit]? with
      | none => simp [hunit] at hopen
      | some found => simp [hunit, hassign found] at hopen
    · rwa [List.getElem?_modify_ne _ _ heq] at hopen
  · refine ⟨⟨?_, ?_, hlooping.submitted_left⟩, ?_⟩
    · rw [hrecord, List.append_nil]
      exact hplaced.complete hpending hassign
    · intro position hposition
      exact hlooping.pending_submitted position (List.mem_of_mem_erase hposition)
    · refine decide_eq_true ⟨hnodup, fun position hposition => ?_⟩
      refine hpendingNodup.mem_erase_iff.mpr ⟨?_, hrest position hposition⟩
      rintro rfl
      exact hfresh hposition

/-! ## The three exits -/

theorem Invariant.finish {options : RunOptions} {initial : TaskRecord Json}
    {process : RunProcess Json} (hinvariant : process.Invariant accounted options initial)
    (hlooping : process.Looping accounted []) (hqueue : process.queue = [])
    (hpending : process.pending = []) : process.finish.Invariant accounted options initial := by
  have hplaced : Placed accounted process.record.units [] [] := by
    simpa [hqueue, hpending] using hlooping.placed
  refine ⟨fun _ => rfl, hinvariant.kept, hinvariant.submitted_nodup, hinvariant.submitted_open,
    hinvariant.flight, ?_⟩
  change process.finish.AtSave accounted options .finished
  by_cases hall : ∀ unit ∈ process.record.units, unit.status = .completed
  · have hstate : process.finish.record.state = .completed := by
      simpa [RunProcess.finish] using hall
    refine ⟨.inl hstate, fun _ => ?_⟩
    rw [hstate]
    exact hall
  · have hstate : process.finish.record.state = .failed := by
      simpa [RunProcess.finish] using hall
    refine ⟨.inr hstate, fun haccounted => ?_⟩
    have hfinished := hplaced.all_finished haccounted
    rw [hstate]
    refine ⟨hfinished, ?_⟩
    simp only [not_forall] at hall
    obtain ⟨unit, hmem, hstatus⟩ := hall
    refine ⟨unit, hmem, ?_⟩
    have hunit := hfinished unit hmem
    cases hcase : unit.status <;> simp_all [TaskState.finished]

theorem Invariant.pause {options : RunOptions} {initial : TaskRecord Json}
    {process : RunProcess Json} (hinvariant : process.Invariant accounted options initial)
    (hlooping : process.Looping accounted []) (hqueue : process.queue ≠ [])
    (hpending : process.pending = []) (persisted : TaskRecord Json) :
    (process.adopt persisted).pause.Invariant accounted options initial := by
  have hplaced : Placed accounted process.record.units process.queue [] := by
    simpa [hpending] using hlooping.placed
  have hunits : (process.adopt persisted).pause.record.units = process.record.units := by
    simp [RunProcess.pause, adopt]
  refine hinvariant.of_same_units hunits (by simp [RunProcess.pause, adopt]) rfl ?_
  refine ⟨rfl, fun haccounted => ?_⟩
  rw [hunits]
  constructor
  · intro unit hmem
    obtain ⟨position, hunit⟩ := List.getElem?_of_mem hmem
    by_cases hposition : position ∈ process.queue
    · obtain ⟨found, hfound, hstatus⟩ := hplaced.queued position hposition
      rw [hunit] at hfound
      cases hfound
      exact .inl hstatus
    · exact .inr (hplaced.finished haccounted position unit hunit hposition (by simp))
  · obtain ⟨position, queue, hcons⟩ := List.exists_cons_of_ne_nil hqueue
    obtain ⟨unit, hunit, hstatus⟩ := hplaced.queued position (by simp [hcons])
    exact ⟨unit, List.mem_of_getElem? hunit, hstatus⟩

theorem Invariant.cancelAll {options : RunOptions} {initial : TaskRecord Json}
    {process : RunProcess Json} (hinvariant : process.Invariant accounted options initial)
    (hlooping : process.Looping accounted [])
    (hbusy : process.queue ≠ [] ∨ process.pending ≠ []) :
    process.cancelAll.Invariant accounted options initial := by
  have hplaced : Placed accounted process.record.units process.queue process.pending := by
    simpa using hlooping.placed
  have hflags : ∀ position : ℕ,
      process.cancelAll.record.units[position]?.map (fun unit => unit.status.finished) =
        process.record.units[position]?.map (fun unit => unit.status.finished) := by
    intro position
    rw [cancelAll_getElem?]
    cases hunit : process.record.units[position]? with
    | none => simp
    | some unit =>
        split_ifs with hpending hqueue
        · have hopen := hplaced.not_finished (.inr hpending) hunit
          simp only [Option.map_some, hopen]
          rfl
        · have hopen := hplaced.not_finished (.inl hqueue) hunit
          simp only [Option.map_some, hopen]
          rfl
        · rfl
  refine ⟨?_, ?_, hinvariant.submitted_nodup, hinvariant.submitted_open, ?_, rfl,
    fun haccounted => ⟨?_, ?_⟩⟩
  · intro hcounted
    rw [finishedUnits_eq_of_getElem? hflags, ← hinvariant.counted hcounted]
    simp [RunProcess.cancelAll, TaskRecord.foldl_markCancelled_completedUnits]
  · intro position kept hinitial hconfirmed
    have hkept := hinvariant.kept position kept hinitial hconfirmed
    have hfinished : kept.status.finished = true := by
      simp only [TaskUnit.confirmed, Bool.and_eq_true] at hconfirmed
      exact hconfirmed.1
    obtain ⟨hqueue, hpending⟩ := hplaced.not_mem_of_finished hkept hfinished
    rw [cancelAll_getElem?, if_neg hpending, if_neg hqueue]
    exact hkept
  · have hflight := hinvariant.flight
    simp only [inFlight, hflags] at hflight ⊢
    exact hflight
  · intro unit hmem
    obtain ⟨position, hunit⟩ := List.getElem?_of_mem hmem
    rw [cancelAll_getElem?] at hunit
    split_ifs at hunit with hpending hqueue
    · obtain ⟨old, -, rfl⟩ := Option.map_eq_some_iff.mp hunit
      exact .inl rfl
    · obtain ⟨old, -, rfl⟩ := Option.map_eq_some_iff.mp hunit
      exact .inl rfl
    · exact .inr (hplaced.finished haccounted position unit hunit hqueue hpending)
  · have hmarked : ∃ position, (position ∈ process.queue ∨ position ∈ process.pending) ∧
        ∃ unit, process.record.units[position]? = some unit := by
      rcases hbusy with hqueue | hpending
      · obtain ⟨position, queue, hcons⟩ := List.exists_cons_of_ne_nil hqueue
        have hposition : position ∈ process.queue := by simp [hcons]
        obtain ⟨unit, hunit, -⟩ := hplaced.queued position hposition
        exact ⟨position, .inl hposition, unit, hunit⟩
      · obtain ⟨position, pending, hcons⟩ := List.exists_cons_of_ne_nil hpending
        have hposition : position ∈ process.pending := by simp [hcons]
        obtain ⟨unit, hunit, -⟩ := hplaced.running position hposition
        exact ⟨position, .inr hposition, unit, hunit⟩
    obtain ⟨position, hposition, unit, hunit⟩ := hmarked
    have hmark := cancelAll_getElem? process position
    by_cases hpending : position ∈ process.pending
    · rw [if_pos hpending, hunit] at hmark
      exact ⟨_, List.mem_of_getElem? hmark, rfl⟩
    · have hqueue : position ∈ process.queue := hposition.resolve_right hpending
      rw [if_neg hpending, if_pos hqueue, hunit] at hmark
      exact ⟨_, List.mem_of_getElem? hmark, rfl⟩

/-! ## Every move keeps the invariant -/

theorem Invariant.begin {options : RunOptions} {latched : Bool} {record : TaskRecord Json}
    {process : RunProcess Json} (hbegin : begin options latched (some record) = .ok process)
    (hunits : accounted → NoPausedUnit record.units)
    (hfresh : accounted → options.resume = true ∨ Ready record.units) :
    process.Invariant accounted options record := by
  rcases begin_ok hbegin with ⟨hresume, rfl⟩ | ⟨hresume, -, rfl⟩
  · refine ⟨fun _ => rfl, ?_, .nil, by simp, by simp [inFlight], ?_, rfl⟩
    · intro position unit hunit hconfirmed
      simp [TaskRecord.prepareResume, hunit, requeueUnit_confirmed hconfirmed]
    · intro haccounted unit hmem
      obtain ⟨old, hold, rfl⟩ := List.mem_map.mp hmem
      exact requeueUnit_ready (hunits haccounted old hold)
  · have hready : accounted → Ready record.units := by
      intro haccounted
      refine (hfresh haccounted).resolve_left ?_
      simp [hresume]
    refine ⟨?_, fun _ _ hunit _ => hunit, .nil, by simp [announceStart],
      by simp [inFlight, announceStart], hready, rfl⟩
    rw [hresume]
    rintro (himpossible | hcounted)
    · cases himpossible
    · exact hcounted

theorem Invariant.resumeAfter {options : RunOptions} {initial : TaskRecord Json}
    {process : RunProcess Json} (hinvariant : process.Invariant accounted options initial)
    {next : Continuation Json} (hsave : process.AtSave accounted options next)
    (callback : Option String) :
    (process.resumeAfter callback next).Invariant accounted options initial := by
  cases next with
  | started =>
      refine hinvariant.of_same_units rfl rfl rfl ⟨?_, ?_, ?_⟩
      · exact Placed.of_ready hsave.1
      · exact fun _ hmem => absurd hmem List.not_mem_nil
      · intro position hmem
        have hnone : position ∈ process.submitted := hmem
        rw [hsave.2] at hnone
        cases hnone
  | dispatched unit => exact hinvariant.submit hsave callback
  | unitFinished unit rest =>
      cases callback with
      | none =>
          exact hinvariant.of_same_units rfl rfl rfl
            ⟨hsave.1.congr rfl rfl rfl rfl, hsave.2⟩
      | some error => exact hinvariant.of_same_units rfl rfl rfl trivial
  | cancelled =>
      refine hinvariant.of_same_units rfl rfl rfl ?_
      change accounted → Ended process.record.units process.record.state
      rw [hsave.1]
      exact hsave.2
  | paused =>
      refine hinvariant.of_same_units rfl rfl rfl ?_
      change accounted → Ended process.record.units process.record.state
      rw [hsave.1]
      exact hsave.2
  | finished => exact hinvariant.of_same_units rfl rfl rfl hsave.2

theorem Invariant.move {options : RunOptions} {initial : TaskRecord Json}
    {choice : Choice Json} {stored written : Option (TaskRecord Json)}
    {process next : RunProcess Json} (hinvariant : process.Invariant accounted options initial)
    (hmove : process.Move options choice stored next written) :
    next.Invariant accounted options initial := by
  have hstage := hinvariant.stage
  cases hmove with
  | clearLatch hphase =>
      rw [hphase] at hstage
      exact hinvariant.of_same_units rfl rfl rfl hstage
  | merge after hphase =>
      rw [hphase] at hstage
      have hsave : process.AtSave accounted options after := hstage
      exact hinvariant.of_same_units (by simp) (by simp) rfl
        (hsave.congr (by simp) (by simp) rfl rfl rfl)
  | save after hphase =>
      rw [hphase] at hstage
      exact hinvariant.resumeAfter hstage choice.callback
  | finish hphase hqueue hpending =>
      rw [hphase] at hstage
      exact hinvariant.finish hstage hqueue hpending
  | raise hphase error => exact hinvariant.of_same_units rfl rfl rfl trivial
  | cancel hphase hbusy persisted =>
      rw [hphase] at hstage
      have hunits : (process.adopt persisted).record.units = process.record.units := by
        simp [RunProcess.adopt]
      have hlooping := Looping.congr hstage hunits rfl rfl rfl
      refine Invariant.cancelAll ?_ hlooping hbusy
      refine hinvariant.of_same_units hunits (by simp [RunProcess.adopt]) rfl ?_
      change (process.adopt persisted).Stage accounted options process.phase
      rw [hphase]
      exact hlooping
  | pause hphase hqueue hpending persisted =>
      rw [hphase] at hstage
      exact hinvariant.pause hstage hqueue hpending persisted
  | enter hphase hbusy persisted hstored hclear pauseRequested =>
      rw [hphase] at hstage
      have hunits : (process.adopt persisted).record.units = process.record.units := by
        simp [RunProcess.adopt]
      exact hinvariant.of_same_units hunits (by simp [RunProcess.adopt]) rfl
        (Looping.congr hstage hunits rfl rfl rfl)
  | hold pauseRequested hphase =>
      rw [hphase] at hstage
      exact hinvariant.of_same_units rfl rfl rfl (Looping.congr hstage rfl rfl rfl rfl)
  | dispatch hphase unit queue hqueue hroom =>
      rw [hphase] at hstage
      exact hinvariant.dispatch hstage hqueue hroom
  | idle hphase =>
      rw [hphase] at hstage
      exact hinvariant.of_same_units rfl rfl rfl (Looping.congr hstage rfl rfl rfl rfl)
  | collect hphase hdone =>
      rw [hphase] at hstage
      exact hinvariant.of_same_units rfl rfl rfl
        ⟨Looping.congr hstage rfl rfl rfl rfl, hdone⟩
  | collected hphase =>
      rw [hphase] at hstage
      exact hinvariant.of_same_units rfl rfl rfl
        (Looping.congr hstage.1 rfl rfl rfl rfl)
  | complete unit outcome rest hphase =>
      rw [hphase] at hstage
      exact hinvariant.complete hstage.1 hstage.2

end RunProcess

end AlgorithmHarness.TaskService
