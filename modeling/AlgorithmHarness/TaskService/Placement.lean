import AlgorithmHarness.TaskService.Move
import Mathlib.Data.List.Nodup
import Mathlib.Data.List.Perm.Basic

/-!
# Where the units of a record stand

While the dispatch loop runs, a unit is in the queue, in flight or finished,
and its status says which.  `Placed` states this for the unit list and the two
position lists; the lemmas below say how dispatching and completing keep it.  A
run without `resume` on the record of an interrupted run leaves the units
alone that the other run had in flight, so the last of the three cases is
promised only under `accounted`.
-/

namespace AlgorithmHarness.TaskService

variable {Json : Type}

/-! ## Reading units after the record operations -/

theorem finishedUnits_eq_of_getElem? {left right : List (TaskUnit Json)}
    (hflags : ∀ position : ℕ, left[position]?.map (fun unit => unit.status.finished) =
      right[position]?.map (fun unit => unit.status.finished)) :
    finishedUnits left = finishedUnits right := by
  have hmap : left.map (fun unit => unit.status.finished) =
      right.map (fun unit => unit.status.finished) := by
    apply List.ext_getElem?
    intro position
    simpa only [List.getElem?_map] using hflags position
  have hcount := congrArg (List.countP id) hmap
  simpa only [finishedUnits, List.countP_map, Function.id_comp] using hcount

theorem mem_queuedUnits_iff {units : List (TaskUnit Json)} {position : ℕ} :
    position ∈ queuedUnits units ↔
      ∃ unit, units[position]? = some unit ∧ unit.status = .queued := by
  simp only [queuedUnits, List.mem_filter, List.mem_range, decide_eq_true_eq,
    Option.map_eq_some_iff]
  constructor
  · rintro ⟨-, hqueued⟩
    exact hqueued
  · rintro ⟨unit, hunit, hstatus⟩
    exact ⟨(List.getElem?_eq_some_iff.mp hunit).1, unit, hunit, hstatus⟩

theorem nodup_queuedUnits (units : List (TaskUnit Json)) : (queuedUnits units).Nodup :=
  List.nodup_range.filter _

namespace TaskRecord

/-- The fingerprints `_validate_resume_fingerprints` compares. -/
def fingerprints (record : TaskRecord Json) : String × String :=
  (record.configFingerprint, record.datasetFingerprint)

theorem adoptEvents_fingerprints (record persisted : TaskRecord Json) :
    (record.adoptEvents persisted).fingerprints = record.fingerprints := by
  unfold adoptEvents
  split <;> rfl

/-- Marking a list of positions touches exactly the units at these positions. -/
theorem foldl_markCancelled_getElem? (uncertain : Bool) (message : String)
    (positions : List ℕ) (record : TaskRecord Json) (position : ℕ) :
    (positions.foldl (markCancelled uncertain message) record).units[position]? =
      if position ∈ positions then
        record.units[position]?.map fun unit =>
          { unit with status := .cancelled, uncertain := uncertain }
      else record.units[position]? := by
  induction positions generalizing record with
  | nil => simp
  | cons head tail ih =>
      rw [List.foldl_cons, ih]
      simp only [markCancelled, appendEvent_units, setUnit_units, List.getElem?_modify]
      by_cases hhead : head = position
      · subst head
        cases record.units[position]? <;> simp
      · have hother : position ≠ head := fun heq => hhead heq.symm
        simp [hhead, hother]

/-- Marking a list of positions keeps what marking one of them keeps. -/
theorem foldl_markCancelled_kept {α : Type} (part : TaskRecord Json → α) (uncertain : Bool)
    (message : String)
    (hkept : ∀ record position, part (markCancelled uncertain message record position) = part record)
    (positions : List ℕ) (record : TaskRecord Json) :
    part (positions.foldl (markCancelled uncertain message) record) = part record := by
  induction positions generalizing record with
  | nil => rfl
  | cons head tail ih => rw [List.foldl_cons, ih, hkept]

theorem foldl_markCancelled_completedUnits (uncertain : Bool) (message : String)
    (positions : List ℕ) (record : TaskRecord Json) :
    (positions.foldl (markCancelled uncertain message) record).completedUnits =
      record.completedUnits :=
  foldl_markCancelled_kept (·.completedUnits) uncertain message (fun _ _ => rfl) positions record

end TaskRecord

namespace RunProcess

/-- The outcome of a worker finishes the unit, and makes no unit uncertain. -/
theorem recordOutcome_units (record : TaskRecord Json) (unit : ℕ) (outcome : Outcome Json) :
    ∃ assign : TaskUnit Json → TaskUnit Json,
      (recordOutcome record unit outcome).units = record.units.modify unit assign ∧
        (∀ unit, (assign unit).status.finished = true) ∧
        ∀ unit, unit.uncertain = false → (assign unit).uncertain = false := by
  cases outcome with
  | returned data => exact ⟨_, rfl, fun _ => rfl, fun _ _ => rfl⟩
  | unserializable => exact ⟨_, rfl, fun _ => rfl, fun _ hcertain => hcertain⟩
  | raised message => exact ⟨_, rfl, fun _ => rfl, fun _ hcertain => hcertain⟩

/-- Cancelling marks the queued and the pending units and no others. -/
theorem cancelAll_getElem? (process : RunProcess Json) (position : ℕ) :
    process.cancelAll.record.units[position]? =
      if position ∈ process.pending then
        process.record.units[position]?.map fun unit =>
          { unit with status := .cancelled, uncertain := true }
      else if position ∈ process.queue then
        process.record.units[position]?.map fun unit =>
          { unit with status := .cancelled, uncertain := false }
      else process.record.units[position]? := by
  simp only [cancelAll, TaskRecord.appendEvent_units,
    TaskRecord.foldl_markCancelled_getElem?]
  split_ifs <;> simp [Function.comp_def]

/-- Only the completion of a unit changes more of the units than how they stand. -/
theorem Move.map_units {Part : Type*} {part : TaskUnit Json → Part} {options : RunOptions}
    {choice : Choice Json} {stored written : Option (TaskRecord Json)}
    {process next : RunProcess Json} (hmove : Move options choice stored process next written)
    (hpart : ∀ unit status uncertain error,
      part { unit with status := status, uncertain := uncertain, error := error } = part unit)
    (hopen : ∀ done, process.phase = .completing done → done = []) :
    next.record.units.map part = process.record.units.map part := by
  have hmodify : ∀ (units : List (TaskUnit Json)) (position : ℕ)
      (assign : TaskUnit Json → TaskUnit Json), (∀ unit, part (assign unit) = part unit) →
      (units.modify position assign).map part = units.map part := by
    intro units position assign hassign
    apply List.ext_getElem?
    intro other
    rw [List.getElem?_map, List.getElem?_map, List.getElem?_modify]
    split_ifs <;> cases units[other]? <;> simp [hassign]
  cases hmove with
  | merge after => rw [TaskRecord.mergeExternal_units]
  | save after =>
      cases after with
      | unitFinished unit rest => cases hcallback : choice.callback <;> simp [resumeAfter]
      | _ => rfl
  | cancel hphase hbusy persisted =>
      apply List.ext_getElem?
      intro position
      rw [List.getElem?_map, List.getElem?_map, cancelAll_getElem?]
      have hunits : (process.adopt persisted).record.units = process.record.units := by
        simp [adopt]
      rw [hunits]
      split_ifs <;> cases hunit : process.record.units[position]? <;> simp
      · exact hpart _ _ _ _
      · exact hpart _ _ _ _
  | pause hphase hqueue hpending persisted => simp [RunProcess.pause, adopt]
  | enter hphase hbusy persisted => simp [adopt]
  | dispatch hphase unit queue => exact hmodify _ _ _ fun unit => hpart unit _ _ _
  | complete unit outcome rest hphase => cases hopen _ hphase
  | _ => rfl

/-- No step of a run changes what a resume compares. -/
theorem Move.fingerprints {options : RunOptions} {choice : Choice Json}
    {stored written : Option (TaskRecord Json)} {process next : RunProcess Json}
    (hmove : Move options choice stored process next written) :
    next.record.fingerprints = process.record.fingerprints := by
  have hmarked : ∀ (uncertain : Bool) (message : String) (positions : List ℕ)
      (record : TaskRecord Json),
      (positions.foldl (TaskRecord.markCancelled uncertain message) record).fingerprints =
        record.fingerprints := fun uncertain message =>
    TaskRecord.foldl_markCancelled_kept (·.fingerprints) uncertain message fun _ _ => rfl
  cases hmove with
  | merge after =>
      cases stored with
      | none => rfl
      | some persisted => exact process.record.adoptEvents_fingerprints persisted
  | save after =>
      cases after with
      | unitFinished unit rest => cases hcallback : choice.callback <;> simp [resumeAfter]
      | _ => rfl
  | cancel hphase hbusy persisted =>
      change TaskRecord.fingerprints (List.foldl _ (List.foldl _ _ _) _) = _
      rw [hmarked, hmarked]
      exact process.record.adoptEvents_fingerprints persisted
  | pause hphase hqueue hpending persisted => exact process.record.adoptEvents_fingerprints persisted
  | enter hphase hbusy persisted => exact process.record.adoptEvents_fingerprints persisted
  | complete unit outcome rest => cases outcome <;> rfl
  | _ => rfl

end RunProcess

/-- A finished unit whose outcome is certain; a resume keeps it. -/
def TaskUnit.confirmed (unit : TaskUnit Json) : Bool :=
  unit.status.finished && !unit.uncertain

theorem requeueUnit_confirmed {unit : TaskUnit Json} (hconfirmed : unit.confirmed = true) :
    TaskRecord.requeueUnit unit = unit := by
  simp only [TaskUnit.confirmed, Bool.and_eq_true, Bool.not_eq_true'] at hconfirmed
  have hkept : TaskRecord.requeued unit = false := by
    cases hstatus : unit.status <;>
      simp_all [TaskRecord.requeued, TaskState.finished]
  simp [TaskRecord.requeueUnit, hkept]

/-- No unit is in flight, and none was cancelled. -/
def Ready (units : List (TaskUnit Json)) : Prop :=
  ∀ unit ∈ units, unit.status = .queued ∨ unit.status.finished = true

/-- The service never gives a unit the status `paused`. -/
def NoPausedUnit (units : List (TaskUnit Json)) : Prop :=
  ∀ unit ∈ units, unit.status ≠ .paused

theorem requeueUnit_ready {unit : TaskUnit Json} (hstatus : unit.status ≠ .paused) :
    (TaskRecord.requeueUnit unit).status = .queued ∨
      (TaskRecord.requeueUnit unit).status.finished = true := by
  unfold TaskRecord.requeueUnit
  split
  next => exact .inl rfl
  next hkept =>
    cases hcase : unit.status <;>
      simp_all [TaskRecord.requeued, TaskState.finished]

/-! ## Placement -/

/-- The units in `queue` are queued, those in `inFlight` are running and, where
all units are accounted for, the rest are finished. -/
structure Placed (accounted : Prop) (units : List (TaskUnit Json))
    (queue inFlight : List ℕ) : Prop where
  nodup : (queue ++ inFlight).Nodup
  queued : ∀ position ∈ queue,
    ∃ unit, units[position]? = some unit ∧ unit.status = .queued
  running : ∀ position ∈ inFlight,
    ∃ unit, units[position]? = some unit ∧ unit.status = .running
  finished : accounted → ∀ position unit, units[position]? = some unit →
    position ∉ queue → position ∉ inFlight → unit.status.finished = true

namespace Placed

variable {accounted : Prop} {units : List (TaskUnit Json)} {queue inFlight : List ℕ}
  {position : ℕ} {unit : TaskUnit Json}

theorem not_finished (hplaced : Placed accounted units queue inFlight)
    (hmem : position ∈ queue ∨ position ∈ inFlight) (hunit : units[position]? = some unit) :
    unit.status.finished = false := by
  rcases hmem with hqueue | hflight
  · obtain ⟨found, hfound, hstatus⟩ := hplaced.queued position hqueue
    rw [hunit] at hfound
    cases hfound
    rw [hstatus]
    rfl
  · obtain ⟨found, hfound, hstatus⟩ := hplaced.running position hflight
    rw [hunit] at hfound
    cases hfound
    rw [hstatus]
    rfl

theorem not_mem_of_finished (hplaced : Placed accounted units queue inFlight)
    (hunit : units[position]? = some unit) (hfinished : unit.status.finished = true) :
    position ∉ queue ∧ position ∉ inFlight := by
  constructor <;> intro hmem
  · have hopen := hplaced.not_finished (.inl hmem) hunit
    rw [hfinished] at hopen
    cases hopen
  · have hopen := hplaced.not_finished (.inr hmem) hunit
    rw [hfinished] at hopen
    cases hopen

theorem of_ready (hready : accounted → Ready units) :
    Placed accounted units (queuedUnits units) [] where
  nodup := by simpa using nodup_queuedUnits units
  queued := fun position hmem => mem_queuedUnits_iff.mp hmem
  running := fun position hmem => by cases hmem
  finished := by
    intro haccounted position unit hunit hqueue _
    rcases hready haccounted unit (List.mem_of_getElem? hunit) with hqueued | hfinished
    · exact absurd (mem_queuedUnits_iff.mpr ⟨unit, hunit, hqueued⟩) hqueue
    · exact hfinished

theorem all_finished (hplaced : Placed accounted units [] []) (haccounted : accounted) :
    ∀ unit ∈ units, unit.status.finished = true := by
  intro unit hmem
  obtain ⟨position, hunit⟩ := List.getElem?_of_mem hmem
  exact hplaced.finished haccounted position unit hunit (by simp) (by simp)

/-- The head of the queue goes into flight. -/
theorem dispatch (hplaced : Placed accounted units (position :: queue) inFlight)
    {assign : TaskUnit Json → TaskUnit Json} (hassign : ∀ unit, (assign unit).status = .running) :
    Placed accounted (units.modify position assign) queue (inFlight ++ [position]) := by
  have hnodup : (position :: (queue ++ inFlight)).Nodup := hplaced.nodup
  obtain ⟨hfresh, hrest⟩ := List.nodup_cons.mp hnodup
  simp only [List.mem_append, not_or] at hfresh
  refine ⟨?_, ?_, ?_, ?_⟩
  · rw [← List.append_assoc]
    exact (List.perm_append_singleton position (queue ++ inFlight)).nodup_iff.mpr hnodup
  · intro other hother
    have hne : position ≠ other := fun heq => hfresh.1 (heq ▸ hother)
    rw [List.getElem?_modify_ne assign units hne]
    exact hplaced.queued other (List.mem_cons_of_mem _ hother)
  · intro other hother
    rcases List.mem_append.mp hother with hflight | hself
    · have hne : position ≠ other := fun heq => hfresh.2 (heq ▸ hflight)
      rw [List.getElem?_modify_ne assign units hne]
      exact hplaced.running other hflight
    · obtain rfl := List.mem_singleton.mp hself
      obtain ⟨unit, hunit, -⟩ := hplaced.queued other List.mem_cons_self
      exact ⟨assign unit, by simp [hunit], hassign unit⟩
  · intro haccounted other unit hunit hqueue hflight
    simp only [List.mem_append, List.mem_singleton, not_or] at hflight
    rw [List.getElem?_modify_ne assign units (Ne.symm hflight.2)] at hunit
    refine hplaced.finished haccounted other unit hunit ?_ hflight.1
    simpa [List.mem_cons, hflight.2] using hqueue

/-- A unit in flight finishes. -/
theorem complete (hplaced : Placed accounted units queue inFlight) (hmem : position ∈ inFlight)
    {assign : TaskUnit Json → TaskUnit Json}
    (hassign : ∀ unit, (assign unit).status.finished = true) :
    Placed accounted (units.modify position assign) queue (inFlight.erase position) := by
  obtain ⟨hqueue, hflight, hdisjoint⟩ := List.nodup_append'.mp hplaced.nodup
  refine ⟨?_, ?_, ?_, ?_⟩
  · refine List.nodup_append'.mpr ⟨hqueue, hflight.erase position, ?_⟩
    intro other hother herase
    exact hdisjoint hother (List.mem_of_mem_erase herase)
  · intro other hother
    have hne : position ≠ other := fun heq => hdisjoint hother (heq ▸ hmem)
    rw [List.getElem?_modify_ne assign units hne]
    exact hplaced.queued other hother
  · intro other hother
    obtain ⟨hne, hin⟩ := hflight.mem_erase_iff.mp hother
    rw [List.getElem?_modify_ne assign units (Ne.symm hne)]
    exact hplaced.running other hin
  · intro haccounted other unit hunit hnotQueue hnotFlight
    by_cases heq : position = other
    · subst other
      rw [List.getElem?_modify_eq] at hunit
      obtain ⟨old, -, rfl⟩ := Option.map_eq_some_iff.mp hunit
      exact hassign old
    · rw [List.getElem?_modify_ne assign units heq] at hunit
      refine hplaced.finished haccounted other unit hunit hnotQueue ?_
      intro hin
      exact hnotFlight (hflight.mem_erase_iff.mpr ⟨Ne.symm heq, hin⟩)

end Placed

end AlgorithmHarness.TaskService
