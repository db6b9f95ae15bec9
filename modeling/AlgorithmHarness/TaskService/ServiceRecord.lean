import AlgorithmHarness.TaskService.Interleaving
import AlgorithmHarness.TaskService.Placement

/-!
# The records a service writes

`ServiceRecord` closes the records `create` stores under everything calls of
`run`, `request_cancel` and `fail` can do to them.  No such record has a paused
unit, and only a cancelled run leaves uncertain ones.
-/

namespace AlgorithmHarness.TaskService

variable {Json : Type}

/-- A record `create` has just stored for units that all wait. -/
def Created (record : TaskRecord Json) : Prop :=
  ∃ runId units configFingerprint datasetFingerprint,
    TaskRecord.create none runId units configFingerprint datasetFingerprint = .ok record ∧
      ∀ unit ∈ units, unit.status = .queued ∧ unit.uncertain = false

/-- Records that `create` and then any calls of `run`, `request_cancel` and
`fail`, complete or interrupted at any step, can leave in the task file. -/
inductive ServiceRecord : TaskRecord Json → Prop
  | created {record : TaskRecord Json} (hcreated : Created record) : ServiceRecord record
  | written {record : TaskRecord Json} (hrecord : ServiceRecord record)
      (options : RunOptions) (schedule : List (Label Json)) (system : System Json)
      (hrun : System.run options (System.start record) schedule = some system) :
      ServiceRecord system.store

namespace Created

variable {record : TaskRecord Json}

theorem units_queued (hcreated : Created record) :
    ∀ unit ∈ record.units, unit.status = .queued ∧ unit.uncertain = false := by
  obtain ⟨runId, units, configFingerprint, datasetFingerprint, hcreate, hqueued⟩ := hcreated
  cases hcreate
  exact hqueued

theorem completedUnits (hcreated : Created record) :
    record.completedUnits = finishedUnits record.units := by
  have hqueued := hcreated.units_queued
  obtain ⟨runId, units, configFingerprint, datasetFingerprint, hcreate, -⟩ := hcreated
  cases hcreate
  symm
  refine List.countP_eq_zero.mpr fun unit hmem => ?_
  rw [(hqueued unit hmem).1]
  decide

end Created

/-! ## Units during a run -/

/-- No unit is paused and none is uncertain. -/
def Certain (units : List (TaskUnit Json)) : Prop :=
  ∀ unit ∈ units, unit.status ≠ .paused ∧ unit.uncertain = false

namespace Certain

variable {units : List (TaskUnit Json)}

theorem modify (hunits : Certain units) (position : ℕ)
    {assign : TaskUnit Json → TaskUnit Json} (hstatus : ∀ unit, (assign unit).status ≠ .paused)
    (hcertain : ∀ unit, unit.uncertain = false → (assign unit).uncertain = false) :
    Certain (units.modify position assign) := by
  intro unit hmem
  obtain ⟨other, hunit⟩ := List.getElem?_of_mem hmem
  rw [List.getElem?_modify] at hunit
  obtain ⟨old, hold, rfl⟩ := Option.map_eq_some_iff.mp hunit
  have hprevious := hunits old (List.mem_of_getElem? hold)
  by_cases heq : position = other
  · simpa [heq] using ⟨hstatus old, hcertain old hprevious.2⟩
  · simpa [heq] using hprevious

end Certain

/-! ## Sound records -/

/-- What every record of the service satisfies. -/
structure TaskRecord.Sound (record : TaskRecord Json) : Prop where
  unpaused : NoPausedUnit record.units
  uncertain : ∀ unit ∈ record.units, unit.uncertain = true →
    unit.status = .cancelled ∧ record.state.terminal = true

theorem Certain.sound {record : TaskRecord Json} (hcertain : Certain record.units) :
    record.Sound := by
  refine ⟨fun unit hmem => (hcertain unit hmem).1, fun unit hmem huncertain => ?_⟩
  rw [(hcertain unit hmem).2] at huncertain
  cases huncertain

namespace TaskRecord.Sound

variable {record : TaskRecord Json}

theorem congr {other : TaskRecord Json} (hsound : record.Sound)
    (hunits : other.units = record.units) (hstate : other.state = record.state) :
    other.Sound := by
  refine ⟨?_, ?_⟩
  · rw [hunits]
    exact hsound.unpaused
  · rw [hunits, hstate]
    exact hsound.uncertain

theorem certain_of_open (hsound : record.Sound) (hopen : record.state.terminal = false) :
    Certain record.units := by
  refine fun unit hmem => ⟨hsound.unpaused unit hmem, ?_⟩
  by_contra huncertain
  rw [Bool.not_eq_false] at huncertain
  have hterminal := (hsound.uncertain unit hmem huncertain).2
  rw [hopen] at hterminal
  cases hterminal

theorem certain_of_finished (hsound : record.Sound) {unit : TaskUnit Json}
    (hmem : unit ∈ record.units) (hfinished : unit.status.finished = true) :
    unit.uncertain = false := by
  by_contra huncertain
  rw [Bool.not_eq_false] at huncertain
  rw [(hsound.uncertain unit hmem huncertain).1] at hfinished
  cases hfinished

theorem prepareResume (hsound : record.Sound) : Certain record.prepareResume.units := by
  intro unit hmem
  obtain ⟨old, hold, rfl⟩ := List.mem_map.mp hmem
  unfold requeueUnit
  split
  next => simp
  next hkept =>
    refine ⟨hsound.unpaused old hold, ?_⟩
    simp only [requeued, Bool.or_eq_true, not_or, Bool.not_eq_true] at hkept
    exact hkept.1.1

theorem onLoaded (hsound : record.Sound) {request : Request} {changed : TaskRecord Json}
    (hloaded : request.onLoaded record = .loaded changed) : changed.Sound := by
  have hunits := Request.onLoaded_units hloaded
  refine ⟨by rw [hunits]; exact hsound.unpaused, ?_⟩
  rw [hunits]
  intro unit hmem huncertain
  obtain ⟨hcancelled, hterminal⟩ := hsound.uncertain unit hmem huncertain
  refine ⟨hcancelled, ?_⟩
  cases request with
  | requestCancel =>
      obtain ⟨-, rfl⟩ := TaskRecord.requestCancel_eq_some (Request.onLoaded_cancel hloaded)
      exact hterminal
  | fail error =>
      cases hloaded
      rfl

end TaskRecord.Sound

/-- The copy of a run: until it is cancelled no unit is uncertain. -/
def RunProcess.Sound (process : RunProcess Json) : Prop :=
  match process.phase with
  | .mergeLoad .cancelled | .mergeSave .cancelled | .returned | .raised _ =>
      process.record.Sound
  | _ => Certain process.record.units

namespace RunProcess

theorem Sound.record {process : RunProcess Json} (hsound : process.Sound) :
    process.record.Sound := by
  unfold Sound at hsound
  split at hsound <;> first | exact hsound | exact hsound.sound

theorem sound_begin {options : RunOptions} {latched : Bool} {record : TaskRecord Json}
    {process : RunProcess Json} (hsound : record.Sound)
    (hbegin : begin options latched (some record) = .ok process) : process.Sound := by
  rcases begin_ok hbegin with ⟨-, rfl⟩ | ⟨-, hopen, rfl⟩
  · exact hsound.prepareResume
  · exact hsound.certain_of_open hopen

theorem sound_cancelAll {process : RunProcess Json} (hcertain : Certain process.record.units) :
    process.cancelAll.record.Sound := by
  refine ⟨?_, ?_⟩ <;> intro unit hmem <;>
    obtain ⟨position, hunit⟩ := List.getElem?_of_mem hmem <;>
    rw [cancelAll_getElem?] at hunit
  · split_ifs at hunit
    · obtain ⟨old, -, rfl⟩ := Option.map_eq_some_iff.mp hunit
      simp
    · obtain ⟨old, -, rfl⟩ := Option.map_eq_some_iff.mp hunit
      simp
    · exact (hcertain unit (List.mem_of_getElem? hunit)).1
  · intro huncertain
    refine ⟨?_, rfl⟩
    split_ifs at hunit
    · obtain ⟨old, -, rfl⟩ := Option.map_eq_some_iff.mp hunit
      rfl
    · obtain ⟨old, -, rfl⟩ := Option.map_eq_some_iff.mp hunit
      rfl
    · rw [(hcertain unit (List.mem_of_getElem? hunit)).2] at huncertain
      cases huncertain

theorem Sound.resumeAfter {process : RunProcess Json} {next : Continuation Json}
    (hphase : process.phase = .mergeSave next) (hsound : process.Sound)
    (callback : Option String) : (process.resumeAfter callback next).Sound := by
  have hrecord := hsound.record
  unfold Sound at hsound
  rw [hphase] at hsound
  cases next with
  | unitFinished unit rest =>
      cases callback with
      | none => exact hsound
      | some error => exact hrecord
  | cancelled => exact hrecord
  | paused => exact hrecord
  | finished => exact hrecord
  | started => exact hsound
  | dispatched unit => exact hsound

/-- One step of `run` keeps its copy sound and writes only sound records. -/
theorem Sound.move {options : RunOptions} {choice : Choice Json}
    {stored written : Option (TaskRecord Json)} {process next : RunProcess Json}
    (hsound : process.Sound) (hmove : process.Move options choice stored next written) :
    next.Sound ∧ ∀ record, written = some record → record.Sound := by
  have hrecord := hsound.record
  cases hmove with
  | save after hphase =>
      refine ⟨hsound.resumeAfter hphase choice.callback, ?_⟩
      rintro record ⟨⟩
      exact hrecord
  | raise hphase error => exact ⟨hrecord, by simp⟩
  | clearLatch hphase =>
      simp only [Sound, hphase] at hsound
      refine ⟨hsound, ?_⟩
      rintro record ⟨⟩
      exact hrecord
  | merge after hphase =>
      refine ⟨?_, by simp⟩
      simp only [Sound, hphase] at hsound
      cases after with
      | cancelled =>
          change (process.record.mergeExternal stored).Sound
          exact hrecord.congr (by simp) (by simp)
      | _ => simpa [Sound] using hsound
  | finish hphase =>
      simp only [Sound, hphase] at hsound
      exact ⟨hsound, by simp⟩
  | cancel hphase hbusy persisted =>
      simp only [Sound, hphase] at hsound
      refine ⟨?_, by simp⟩
      have hadopted : Certain (process.adopt persisted).record.units := by
        simpa [RunProcess.adopt] using hsound
      exact sound_cancelAll hadopted
  | pause hphase hqueue hpending persisted =>
      simp only [Sound, hphase] at hsound
      exact ⟨by simpa [Sound, RunProcess.pause, RunProcess.adopt] using hsound, by simp⟩
  | enter hphase hbusy persisted =>
      simp only [Sound, hphase] at hsound
      exact ⟨by simpa [Sound, RunProcess.adopt] using hsound, by simp⟩
  | dispatch hphase unit queue =>
      simp only [Sound, hphase] at hsound
      exact ⟨hsound.modify unit (by simp) (by simp), by simp⟩
  | complete unit outcome rest hphase =>
      simp only [Sound, hphase] at hsound
      refine ⟨?_, by simp⟩
      obtain ⟨assign, hunits, hfinished, hcertain⟩ :=
        recordOutcome_units process.record unit outcome
      change Certain (recordOutcome process.record unit outcome).units
      rw [hunits]
      refine hsound.modify unit (fun unit hpaused => ?_) hcertain
      have hunit := hfinished unit
      rw [hpaused] at hunit
      cases hunit
  | hold pauseRequested hphase | idle hphase | collect hphase | collected hphase =>
      simp only [Sound, hphase] at hsound
      exact ⟨hsound, by simp⟩

end RunProcess

namespace System

/-- Every copy of the record, stored or local, is sound. -/
structure Sound (system : System Json) : Prop where
  store : system.store.Sound
  process : ∀ process, system.process = some process → process.Sound
  writers : ∀ writer record, system.writers writer = .loaded record → record.Sound

theorem sound_preserved (options : RunOptions) :
    Transition.Preserved (step options) (fun system : System Json => system.Sound) := by
  intro system label next hsound hstep
  cases step_move hstep with
  | begin latched process hprocess hbegin =>
      refine ⟨hsound.store, ?_, hsound.writers⟩
      rintro process ⟨⟩
      exact RunProcess.sound_begin hsound.store hbegin
  | step choice process moved written hprocess hmove =>
      obtain ⟨hmoved, hwritten⟩ := (hsound.process process hprocess).move hmove
      refine ⟨?_, ?_, hsound.writers⟩
      · cases written with
        | none => exact hsound.store
        | some record => exact hwritten record rfl
      · rintro process ⟨⟩
        exact hmoved
  | signal process hprocess =>
      refine ⟨hsound.store, ?_, hsound.writers⟩
      rintro next ⟨⟩
      exact hsound.process process hprocess
  | load writer request hidle =>
      refine ⟨hsound.store, hsound.process, ?_⟩
      intro other record hloaded
      rcases setWriter_loaded hloaded with ⟨-, hvalue⟩ | ⟨-, hother⟩
      · exact hsound.store.onLoaded hvalue
      · exact hsound.writers other record hother
  | save writer record hloaded =>
      refine ⟨hsound.writers writer record hloaded, hsound.process, ?_⟩
      intro other kept hkept
      rcases setWriter_loaded hkept with ⟨-, hvalue⟩ | ⟨-, hother⟩
      · cases hvalue
      · exact hsound.writers other kept hother

theorem sound_start {record : TaskRecord Json} (hsound : record.Sound) :
    (start record).Sound :=
  ⟨hsound, by rintro process ⟨⟩, by rintro writer record ⟨⟩⟩

end System

/-- No record a service leaves in the task file has a paused unit, and only a
terminal one has uncertain units. -/
theorem ServiceRecord.sound {record : TaskRecord Json} (hrecord : ServiceRecord record) :
    record.Sound := by
  induction hrecord with
  | created hcreated =>
      refine Certain.sound fun unit hmem => ?_
      obtain ⟨hqueued, hcertain⟩ := hcreated.units_queued unit hmem
      refine ⟨?_, hcertain⟩
      rw [hqueued]
      decide
  | written hrecord options schedule system hrun ih =>
      exact ((System.sound_preserved options).run (System.sound_start ih) hrun).store

end AlgorithmHarness.TaskService
