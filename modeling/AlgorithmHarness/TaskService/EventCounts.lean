import AlgorithmHarness.TaskService.Classification

/-!
# The counts in the event history

The event of a unit that has finished is appended before the finished units
are counted again.  Each of these events is compared with the units as they
stand after it.
-/

namespace AlgorithmHarness.TaskService

variable {Json : Type}

/-! ## Counting -/

/-- A unit that finishes is one more. -/
theorem finishedUnits_modify {units : List (TaskUnit Json)} {position : ℕ}
    {unit : TaskUnit Json} {assign : TaskUnit Json → TaskUnit Json}
    (hunit : units[position]? = some unit) (hopen : unit.status.finished = false)
    (hassign : (assign unit).status.finished = true) :
    finishedUnits (units.modify position assign) = finishedUnits units + 1 := by
  induction units generalizing position with
  | nil => cases hunit
  | cons first units ih =>
      cases position with
      | zero =>
          cases hunit
          rw [List.modify_zero_cons, finishedUnits, finishedUnits, List.countP_cons,
            List.countP_cons, hopen, hassign]
          rfl
      | succ position =>
          rw [List.modify_succ_cons, finishedUnits, finishedUnits, List.countP_cons,
            List.countP_cons]
          have hrest := ih hunit
          rw [finishedUnits, finishedUnits] at hrest
          rw [hrest, Nat.add_right_comm]

/-- The counter of a record is the number of its finished units. -/
def TaskRecord.Counted (record : TaskRecord Json) : Prop :=
  record.completedUnits = finishedUnits record.units

theorem Request.onLoaded_completedUnits {record changed : TaskRecord Json} {request : Request}
    (hloaded : request.onLoaded record = .loaded changed) :
    changed.completedUnits = record.completedUnits := by
  cases request with
  | requestCancel =>
      obtain ⟨-, rfl⟩ := TaskRecord.requestCancel_eq_some (onLoaded_cancel hloaded)
      rfl
  | fail error =>
      cases hloaded
      rfl

namespace System

/-- Every copy of the record counts its finished units. -/
structure Counted (options : RunOptions) (system : System Json) : Prop where
  store : system.store.Counted
  process : ∀ process, system.process = some process →
    ∃ initial : TaskRecord Json, initial.Counted ∧ process.Invariant False options initial
  writers : ∀ writer record, system.writers writer = .loaded record → record.Counted

theorem counted_start {options : RunOptions} {record : TaskRecord Json}
    (hcounted : record.Counted) : (start record).Counted options where
  store := hcounted
  process _ hprocess := by cases hprocess
  writers _ _ hloaded := by cases hloaded

theorem counted_preserved (options : RunOptions) :
    Transition.Preserved (step options) fun system : System Json => system.Counted options := by
  intro system label next hcounted hstep
  cases step_move hstep with
  | begin latched process hprocess hbegin =>
      refine ⟨hcounted.store, ?_, hcounted.writers⟩
      intro other hother
      cases hother
      exact ⟨system.store, hcounted.store, .begin hbegin (fun himpossible => himpossible.elim)
        fun himpossible => himpossible.elim⟩
  | step choice process moved written hprocess hmove =>
      obtain ⟨initial, hinitial, hinvariant⟩ := hcounted.process process hprocess
      refine ⟨?_, ?_, hcounted.writers⟩
      · cases written with
        | none => exact hcounted.store
        | some record =>
            obtain rfl := hmove.written_eq
            exact hinvariant.counted (.inr hinitial)
      · intro other hother
        cases hother
        exact ⟨initial, hinitial, hinvariant.move hmove⟩
  | signal process hprocess =>
      obtain ⟨initial, hinitial, hinvariant⟩ := hcounted.process process hprocess
      refine ⟨hcounted.store, ?_, hcounted.writers⟩
      intro other hother
      cases hother
      exact ⟨initial, hinitial, hinvariant.of_same_units rfl rfl rfl
        (RunProcess.Stage.congr hinvariant.stage rfl rfl rfl rfl)⟩
  | load writer request hidle =>
      refine ⟨hcounted.store, hcounted.process, ?_⟩
      intro other record hloaded
      rcases setWriter_loaded hloaded with ⟨-, hvalue⟩ | ⟨-, hother⟩
      · rw [TaskRecord.Counted, Request.onLoaded_completedUnits hvalue,
          Request.onLoaded_units hvalue]
        exact hcounted.store
      · exact hcounted.writers other record hother
  | save writer record hloaded =>
      refine ⟨hcounted.writers writer record hloaded, hcounted.process, ?_⟩
      intro other kept hkept
      rcases setWriter_loaded hkept with ⟨-, hvalue⟩ | ⟨-, hother⟩
      · cases hvalue
      · exact hcounted.writers other kept hother

end System

theorem ServiceRecord.counted {record : TaskRecord Json} (hrecord : ServiceRecord record) :
    record.Counted := by
  induction hrecord with
  | created hcreated => exact hcreated.completedUnits
  | written hrecord options schedule system hrun ih =>
      exact ((System.counted_preserved options).run (System.counted_start ih) hrun).store

/-! ## The event of a finished unit -/

/-- The event of a unit that has finished, and the number of units that are finished after it. -/
structure Finish where
  event : TaskEvent
  finished : ℕ
  deriving DecidableEq

/-- The event is appended to the history, and carries the counter of the copy before. -/
theorem RunProcess.complete_event (process : RunProcess Json) (unit : ℕ) (outcome : Outcome Json)
    (rest : List (ℕ × Outcome Json)) :
    ∃ event : TaskEvent, (process.complete unit outcome rest).record.events =
        process.record.events ++ [event] ∧
      (event.kind = .unitCompleted ∨ event.kind = .unitFailed) ∧
      event.completedUnits = process.record.completedUnits := by
  cases outcome with
  | returned data => exact ⟨_, rfl, .inl rfl, rfl⟩
  | unserializable => exact ⟨_, rfl, .inr rfl, rfl⟩
  | raised message => exact ⟨_, rfl, .inr rfl, rfl⟩

namespace System

/-- What a step reports: the run handles a finished future, or it does not. -/
def report (system : System Json) (label : Label Json) (next : System Json) : Option Finish :=
  match label, system.process, next.process with
  | .step _, some process, some moved =>
      match process.phase with
      | .completing (_ :: _) =>
          moved.record.events.getLast?.map fun event =>
            { event, finished := finishedUnits moved.record.units }
      | _ => none
  | _, _, _ => none

/-- The reports of a run, in the order of its steps. -/
def finishes (options : RunOptions) : System Json → List (Label Json) → List Finish
  | _, [] => []
  | system, label :: labels =>
      match system.step options label with
      | none => []
      | some next => (system.report label next).toList ++ finishes options next labels

/-- Each event of a finished unit carries the number of units that are finished with it: the
counts rise by one from the value at the start to that of the record. -/
structure CountsThemselves (options : RunOptions) (started : ℕ) (system : System Json)
    (schedule : List (Label Json)) : Prop where
  each : ∀ finish ∈ finishes options system schedule,
    finish.event.completedUnits = finish.finished
  rising : (finishes options system schedule).map (fun finish => finish.event.completedUnits) =
    List.range' (started + 1) (finishes options system schedule).length
  last : ∀ final process, run options system schedule = some final →
    final.process = some process →
    ∀ finish ∈ (finishes options system schedule).getLast?,
      finish.event.completedUnits = process.record.completedUnits

/-- The step handles no finished future. -/
def Unfinished (system : System Json) : Label Json → Prop
  | .step _ => ∀ process, system.process = some process →
      ∀ finished rest, process.phase ≠ .completing (finished :: rest)
  | .begin _ | .signal | .load _ _ | .save _ => True

variable {options : RunOptions} {system next : System Json} {label : Label Json}

theorem finishes_cons (hstep : system.step options label = some next)
    (labels : List (Label Json)) :
    finishes options system (label :: labels) =
      (system.report label next).toList ++ finishes options next labels := by
  rw [finishes, hstep]

/-- The event is one behind the units. -/
theorem report_behind (hcounted : system.Counted options)
    (hstep : system.step options label = some next) {finish : Finish}
    (hreport : system.report label next = some finish) :
    finish.event.completedUnits + 1 = finish.finished := by
  cases step_move hstep with
  | begin latched process hprocess hbegin => cases hreport
  | signal process hprocess => cases hreport
  | load writer request hidle => cases hreport
  | save writer record hloaded => cases hreport
  | step choice process moved written hprocess hmove =>
      obtain ⟨initial, hinitial, hinvariant⟩ := hcounted.process process hprocess
      have hbefore := hinvariant.counted (.inr hinitial)
      simp only [report, hprocess] at hreport
      split at hreport
      next unit rest hphase =>
        obtain ⟨unit, outcome⟩ := unit
        obtain rfl := hmove.completes hphase
        have hstage := hinvariant.stage
        rw [hphase] at hstage
        obtain ⟨hlooping, hdone⟩ := hstage
        have hpending : unit ∈ process.pending ++ [] := by
          rw [List.append_nil]
          exact (of_decide_eq_true hdone).2 unit List.mem_cons_self
        obtain ⟨running, hunit, hstatus⟩ := hlooping.placed.running unit hpending
        obtain ⟨event, hevents, -, hcount⟩ :=
          process.complete_event unit outcome rest
        rw [hevents, List.getLast?_concat, Option.map_some, Option.some_inj] at hreport
        obtain ⟨assign, hunits, hassign, -⟩ :=
          RunProcess.recordOutcome_units process.record unit outcome
        have hopen : running.status.finished = false := by
          rw [hstatus]
          rfl
        calc finish.event.completedUnits + 1
            = process.record.completedUnits + 1 := by rw [← hreport, hcount]
          _ = finishedUnits process.record.units + 1 := by rw [hbefore]
          _ = finishedUnits (process.record.units.modify unit assign) :=
              (finishedUnits_modify hunit hopen (hassign running)).symm
          _ = finish.finished := by
              rw [← hreport, ← hunits]
              rfl
      next => cases hreport

theorem report_eq_none_iff (hstep : system.step options label = some next) :
    system.report label next = none ↔ system.Unfinished label := by
  cases step_move hstep with
  | begin latched process hprocess hbegin => exact iff_of_true rfl trivial
  | signal process hprocess => exact iff_of_true rfl trivial
  | load writer request hidle => exact iff_of_true rfl trivial
  | save writer record hloaded => exact iff_of_true rfl trivial
  | step choice process moved written hprocess hmove =>
      simp only [report, hprocess, Unfinished, Option.some_inj, forall_eq']
      split
      next unit rest hphase =>
        obtain ⟨unit, outcome⟩ := unit
        obtain rfl := hmove.completes hphase
        obtain ⟨event, hevents, -⟩ := process.complete_event unit outcome rest
        rw [hevents, List.getLast?_concat]
        exact iff_of_false (Option.some_ne_none _) fun hnone => hnone _ _ hphase
      next hother => exact iff_of_true rfl fun finished rest hphase => hother _ _ hphase

/-- Over a whole run every event of a finished unit is one behind the units. -/
theorem finishes_behind (hcounted : system.Counted options) (schedule : List (Label Json)) :
    ∀ finish ∈ finishes options system schedule,
      finish.event.completedUnits + 1 = finish.finished := by
  induction schedule generalizing system with
  | nil => exact fun _ hmem => absurd hmem List.not_mem_nil
  | cons label labels ih =>
      intro finish hmem
      cases hstep : system.step options label with
      | none =>
          rw [finishes, hstep] at hmem
          cases hmem
      | some next =>
          rw [finishes_cons hstep] at hmem
          rcases List.mem_append.mp hmem with hfirst | hlater
          · exact report_behind hcounted hstep (Option.mem_toList.mp hfirst)
          · exact ih (counted_preserved options _ _ _ hcounted hstep) finish hlater

/-- A finished future can always be handled. -/
theorem unfinished_of_disabled (hstep : system.step options label = none) :
    system.Unfinished label := by
  cases label with
  | step choice =>
      rintro process hprocess ⟨unit, outcome⟩ rest hphase
      rw [step, hprocess, Option.map_eq_none_iff, RunProcess.step, hphase] at hstep
      cases hstep
  | begin latched => trivial
  | signal => trivial
  | load writer request => trivial
  | save writer => trivial

theorem finishes_eq_nil_iff (schedule : List (Label Json)) :
    finishes options system schedule = [] ↔
      Transition.StepsMeet (step options) Unfinished system schedule := by
  induction schedule generalizing system with
  | nil => exact iff_of_true rfl trivial
  | cons label labels ih =>
      cases hstep : system.step options label with
      | none =>
          refine iff_of_true (by rw [finishes, hstep]) ⟨unfinished_of_disabled hstep, ?_⟩
          intro next hnext
          rw [hstep] at hnext
          cases hnext
      | some next =>
          rw [finishes_cons hstep, List.append_eq_nil_iff, Option.toList_eq_nil_iff,
            report_eq_none_iff hstep, ih]
          constructor
          · rintro ⟨hfirst, hrest⟩
            exact .cons hfirst hstep hrest
          · rintro ⟨hfirst, hrest⟩
            exact ⟨hfirst, hrest next hstep⟩

end System

/-- The events of finished units count themselves in no run that finishes a unit. -/
theorem counts_themselves_iff {record : TaskRecord Json} (hrecord : ServiceRecord record)
    {options : RunOptions} {latched : Bool} {process : RunProcess Json}
    (hbegin : RunProcess.begin options latched (some record) = .ok process)
    (schedule : List (Label Json)) :
    System.CountsThemselves options process.record.completedUnits
        { System.start record with process := some process } schedule ↔
      Transition.StepsMeet (System.step options) System.Unfinished
        { System.start record with process := some process } schedule := by
  have hstep : (System.start record).step options (.begin latched) =
      some { System.start record with process := some process } := by
    simp only [System.step, System.start, hbegin]
  have hcounted := System.counted_preserved options _ _ _
    (System.counted_start hrecord.counted) hstep
  rw [← System.finishes_eq_nil_iff]
  constructor
  · intro hcounts
    apply List.eq_nil_iff_forall_not_mem.mpr
    intro finish hmem
    have hbehind := System.finishes_behind hcounted schedule finish hmem
    rw [hcounts.each finish hmem] at hbehind
    exact Nat.succ_ne_self _ hbehind
  · intro hnone
    constructor
    · rw [hnone]
      exact fun _ hmem => absurd hmem List.not_mem_nil
    · rw [hnone]
      rfl
    · rw [hnone]
      intro final moved _ _ finish hmem
      cases hmem

/-- The start of a run of one unit. -/
def singleStart : RunProcess ℕ :=
  RunProcess.announceStart { record := singleRecord, cancelEvent := false, phase := .loopTop }

theorem counts_themselves_iff_single :
    System.CountsThemselves singleOptions 0
        { System.start singleRecord with process := some singleStart } (answered 15) ↔
      Transition.StepsMeet (System.step singleOptions) System.Unfinished
        { System.start singleRecord with process := some singleStart } (answered 15) := by
  have hbegin : RunProcess.begin singleOptions false (some singleRecord) = .ok singleStart := rfl
  exact counts_themselves_iff (.created singleRecord_created) hbegin (answered 15)

/-- The only unit of a task is reported as none of one. -/
theorem not_counts_themselves :
    ¬System.CountsThemselves singleOptions 0
      { System.start singleRecord with process := some singleStart } (answered 15) := by
  intro hcounts
  have hreports : (System.finishes singleOptions
      { System.start singleRecord with process := some singleStart } (answered 15)).map
        (fun finish => (finish.event.completedUnits, finish.finished)) = [(0, 1)] := rfl
  obtain ⟨finish, hmem, hpair⟩ := List.mem_map.mp (hreports ▸ List.mem_singleton_self (0, 1))
  obtain ⟨hevent, hafter⟩ := Prod.mk.inj hpair
  have heach := hcounts.each finish hmem
  rw [hevent, hafter] at heach
  cases heach

end AlgorithmHarness.TaskService
