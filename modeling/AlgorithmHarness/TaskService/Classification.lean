import AlgorithmHarness.TaskService.Lifecycle
import AlgorithmHarness.TaskService.ServiceRecord

/-!
# What a call of `run` promises

The invariant of one call, read at the level of the system: for every record
the service itself can have written, every schedule of the run and of other
writers, the bound on the units in flight, the dispatch of each unit at most
once, the preservation of confirmed units and the meaning of the final state.
-/

namespace AlgorithmHarness.TaskService

variable {Json : Type}

/-! ## The call as a whole -/

namespace System

/-- The process of the system keeps the invariant of `RunProcess`. -/
def ProcessInvariant (accounted : Prop) (options : RunOptions)
    (initial : TaskRecord Json) (system : System Json) : Prop :=
  ∃ process, system.process = some process ∧ process.Invariant accounted options initial

theorem processInvariant_preserved (accounted : Prop) (options : RunOptions)
    (initial : TaskRecord Json) :
    Transition.Preserved (step options) (ProcessInvariant accounted options initial) := by
  rintro system label next ⟨process, hprocess, hinvariant⟩ hstep
  cases step_move hstep with
  | begin latched other hnone =>
      rw [hprocess] at hnone
      cases hnone
  | step choice other moved written hother hmove =>
      rw [hprocess] at hother
      cases hother
      exact ⟨moved, rfl, hinvariant.move hmove⟩
  | signal other hother =>
      rw [hprocess] at hother
      cases hother
      exact ⟨_, rfl, hinvariant.of_same_units rfl rfl rfl
        (RunProcess.Stage.congr hinvariant.stage rfl rfl rfl rfl)⟩
  | load writer request => exact ⟨process, hprocess, hinvariant⟩
  | save writer record => exact ⟨process, hprocess, hinvariant⟩

/-- Without other writers, what a run returns is what it has stored. -/
def Stored (system : System Json) : Prop :=
  ∀ process, system.process = some process → process.phase = .returned →
    system.store = process.record

theorem stored_of_quiet {options : RunOptions} {system next : System Json}
    {label : Label Json} (hstored : system.Stored) (hquiet : label.external = false)
    (hstep : system.step options label = some next) : next.Stored := by
  cases step_move hstep with
  | begin latched process hprocess hbegin =>
      rintro process ⟨⟩ hreturned
      rcases RunProcess.begin_ok hbegin with ⟨-, rfl⟩ | ⟨-, -, rfl⟩ <;> cases hreturned
  | step choice process moved written hprocess hmove =>
      rintro process ⟨⟩ hreturned
      rw [hmove.written_of_returned hreturned]
      rfl
  | signal process hprocess =>
      rintro next ⟨⟩ hreturned
      exact hstored process hprocess hreturned
  | load writer request => cases hquiet
  | save writer record => cases hquiet

theorem stored_run {options : RunOptions} {system final : System Json}
    {schedule : List (Label Json)} (hstored : system.Stored)
    (hquiet : ∀ label ∈ schedule, label.external = false)
    (hrun : System.run options system schedule = some final) : final.Stored := by
  have hmeet : Transition.StepsMeet (step options) (fun _ label => label.external = false)
      system schedule := .of_forall hquiet
  exact hmeet.invariant_run _ (fun _ _ _ => stored_of_quiet) hstored hrun

end System

namespace Ended

variable {units : List (TaskUnit Json)} {state : TaskState}

theorem completed_iff (hended : Ended units state) :
    state = .completed ↔ ∀ unit ∈ units, unit.status = .completed := by
  constructor
  · rintro rfl
    exact hended
  · intro hall
    cases state with
    | completed => rfl
    | queued => cases hended
    | running => cases hended
    | failed | cancelled | paused =>
        obtain ⟨-, unit, hmem, hstatus⟩ := hended
        rw [hall unit hmem] at hstatus
        cases hstatus

theorem failed_iff (hended : Ended units state) :
    state = .failed ↔ (∀ unit ∈ units, unit.status.finished = true) ∧
      ∃ unit ∈ units, unit.status = .failed := by
  constructor
  · rintro rfl
    exact hended
  · rintro ⟨hfinished, unit, hmem, hfailed⟩
    cases state with
    | failed => rfl
    | queued => cases hended
    | running => cases hended
    | completed =>
        rw [hended unit hmem] at hfailed
        cases hfailed
    | cancelled | paused =>
        obtain ⟨-, other, hother, hstatus⟩ := hended
        have hopen := hfinished other hother
        rw [hstatus] at hopen
        cases hopen

theorem cancelled (hended : Ended units .cancelled) :
    ∀ unit ∈ units, unit.status ≠ .queued ∧ unit.status ≠ .running := by
  intro unit hmem
  rcases hended.1 unit hmem with hcancelled | hfinished
  · simp [hcancelled]
  · constructor <;> intro hstatus <;> rw [hstatus] at hfinished <;> cases hfinished

theorem paused (hended : Ended units .paused) :
    (∀ unit ∈ units, unit.status ≠ .running) ∧ ∃ unit ∈ units, unit.status = .queued := by
  refine ⟨?_, hended.2⟩
  intro unit hmem hrunning
  rcases hended.1 unit hmem with hqueued | hfinished
  · rw [hrunning] at hqueued
    cases hqueued
  · rw [hrunning] at hfinished
    cases hfinished

end Ended

/-- A call of `run` on a freshly created record, or with `resume=True` on any
record of the service: whatever the workers answer, whenever the run is paused
or cancelled and whatever others write meanwhile, it respects `max_workers`,
dispatches no unit twice and no confirmed unit at all, and classifies its units
on return. -/
theorem run_lifecycle {options : RunOptions} {record : TaskRecord Json}
    (hrecord : Created record ∨ (options.resume = true ∧ ServiceRecord record))
    {latched : Bool} {schedule : List (Label Json)} {system : System Json}
    {process : RunProcess Json}
    (hrun : System.run options (System.start record) (.begin latched :: schedule) = some system)
    (hprocess : system.process = some process) :
    process.inFlight.length ≤ options.maxWorkers ∧
    process.submitted.Nodup ∧
    (∀ (position : ℕ) (unit : TaskUnit Json), record.units[position]? = some unit →
      unit.status.finished = true → unit.uncertain = false →
        position ∉ process.submitted ∧ process.record.units[position]? = some unit) ∧
    (process.phase = .returned →
      (process.record.state = .completed ↔
        ∀ unit ∈ process.record.units, unit.status = .completed) ∧
      (process.record.state = .failed ↔
        (∀ unit ∈ process.record.units, unit.status.finished = true) ∧
          ∃ unit ∈ process.record.units, unit.status = .failed) ∧
      (process.record.state = .cancelled →
        ∀ unit ∈ process.record.units, unit.status ≠ .queued ∧ unit.status ≠ .running) ∧
      (process.record.state = .paused →
        (∀ unit ∈ process.record.units, unit.status ≠ .running) ∧
          ∃ unit ∈ process.record.units, unit.status = .queued) ∧
      process.record.completedUnits = finishedUnits process.record.units ∧
      ((∀ label ∈ schedule, label.external = false) → system.store = process.record)) := by
  obtain ⟨started, hbegin, hrest⟩ := Transition.run_cons_eq_some.mp hrun
  have hservice : ServiceRecord record := by
    rcases hrecord with hcreated | ⟨-, hservice⟩
    · exact .created hcreated
    · exact hservice
  have hstarted : started.ProcessInvariant True options record := by
    cases System.step_move hbegin with
    | begin latched' begun hnone hbegun =>
        refine ⟨begun, rfl, .begin hbegun (fun _ => hservice.sound.unpaused) fun _ => ?_⟩
        rcases hrecord with hcreated | ⟨hresumed, -⟩
        · exact .inr fun unit hmem => .inl (hcreated.units_queued unit hmem).1
        · exact .inl hresumed
  obtain ⟨final, hfinal, hinvariant⟩ :=
    (System.processInvariant_preserved True options record).run hstarted hrest
  rw [hprocess] at hfinal
  cases hfinal
  refine ⟨hinvariant.flight trivial, hinvariant.submitted_nodup, ?_, ?_⟩
  · intro position unit hunit hfinished hcertain
    have hconfirmed : unit.confirmed = true := by simp [TaskUnit.confirmed, hfinished, hcertain]
    refine ⟨fun hsubmitted => ?_, hinvariant.kept position unit hunit hconfirmed⟩
    have hopen := hinvariant.submitted_open position hsubmitted unit hunit
    rw [hconfirmed] at hopen
    cases hopen
  · intro hreturned
    have hended : Ended process.record.units process.record.state := by
      have hstage := hinvariant.stage
      rw [hreturned] at hstage
      exact hstage trivial
    refine ⟨hended.completed_iff, hended.failed_iff, fun hcancelled => ?_, fun hpaused => ?_,
      hinvariant.counted ?_, fun hquiet => ?_⟩
    · rw [hcancelled] at hended
      exact hended.cancelled
    · rw [hpaused] at hended
      exact hended.paused
    · rcases hrecord with hcreated | ⟨hresumed, -⟩
      · exact .inr hcreated.completedUnits
      · exact .inl hresumed
    · have hinitial : (System.start record).Stored := by rintro process ⟨⟩
      refine System.stored_run hinitial ?_ hrun process hprocess hreturned
      exact List.forall_mem_cons.mpr ⟨rfl, hquiet⟩

/-! ## A run of one unit -/

/-- The record of one waiting unit, as `create` stores it. -/
def singleRecord : TaskRecord ℕ :=
  TaskRecord.appendEvent
    { runId := "task"
      configFingerprint := "config"
      datasetFingerprint := "dataset"
      totalUnits := 1
      units := [{ unitId := "unit", strategy := "direct", problemId := "problem" }] }
    .taskCreated none (some "Task queued")

def singleOptions : RunOptions := { runId := "task", maxWorkers := 1 }

/-- `count` steps of a run whose worker answers 7 as soon as it is waited for. -/
def answered (count : ℕ) : List (Label ℕ) :=
  List.replicate count (.step { done := [(0, .returned 7)] })

theorem singleRecord_created : Created singleRecord := by
  refine ⟨"task", singleRecord.units, "config", "dataset", rfl, ?_⟩
  simp [singleRecord]

theorem singleRecord_completes :
    ∃ system process,
      System.run singleOptions (System.start singleRecord) (.begin false :: answered 15) =
        some system ∧
      system.process = some process ∧ process.phase = .returned ∧
      process.record.state = .completed ∧ process.submitted = [0] :=
  ⟨_, _, rfl, rfl, rfl, rfl, rfl⟩

theorem run_lifecycle_single :
    ∃ system process,
      System.run singleOptions (System.start singleRecord) (.begin false :: answered 15) =
        some system ∧
      system.process = some process ∧ process.submitted = [0] ∧ process.submitted.Nodup ∧
      system.store = process.record ∧
      ∀ unit ∈ process.record.units, unit.status = .completed := by
  obtain ⟨system, process, hrun, hprocess, hphase, hstate, hsubmitted⟩ :=
    singleRecord_completes
  obtain ⟨-, hnodup, -, hreturned⟩ :=
    run_lifecycle (.inl singleRecord_created) hrun hprocess
  obtain ⟨hcompleted, -, -, -, -, hstored⟩ := hreturned hphase
  refine ⟨system, process, hrun, hprocess, hsubmitted, hnodup, hstored ?_, ?_⟩
  · intro label hlabel
    rw [List.eq_of_mem_replicate hlabel]
    rfl
  · exact hcompleted.mp hstate

end AlgorithmHarness.TaskService
