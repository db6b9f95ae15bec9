import AlgorithmHarness.TaskService.Classification

/-!
# Whether a run hears a cancel request

The run and the canceller share the task file only.  What becomes of a request
that has been saved is decided by what the run does at its next look at the
file: if the request is still there and the run is not about to submit a unit
or to return paused, the run ends cancelled or all of its units were finished
already.
-/

namespace AlgorithmHarness.TaskService

variable {Json : Type}

def AllFinished (units : List (TaskUnit Json)) : Prop :=
  ∀ unit ∈ units, unit.status.finished = true

theorem TaskState.terminal_of_finished {state : TaskState} (hfinished : state.finished = true) :
    state.terminal = true := by
  cases state <;> simp_all [TaskState.finished, TaskState.terminal]

theorem Ended.allFinished {units : List (TaskUnit Json)} {state : TaskState}
    (hended : Ended units state) (hstate : state = .completed ∨ state = .failed) :
    AllFinished units := by
  rcases hstate with rfl | rfl
  · intro unit hmem
    rw [hended unit hmem]
    rfl
  · exact hended.1

theorem Ended.cancelled_or_allFinished {units : List (TaskUnit Json)} {state : TaskState}
    (hended : Ended units state) (hpaused : state ≠ .paused) :
    state = .cancelled ∨ AllFinished units := by
  cases state with
  | completed => exact .inr (hended.allFinished (.inl rfl))
  | failed => exact .inr (hended.allFinished (.inr rfl))
  | cancelled => exact .inl rfl
  | paused => exact absurd rfl hpaused
  | queued => cases hended
  | running => cases hended

theorem exists_queued_of_ready {units : List (TaskUnit Json)} (hready : Ready units)
    (hopen : ¬AllFinished units) : queuedUnits units ≠ [] := by
  intro hnone
  apply hopen
  intro unit hmem
  rcases hready unit hmem with hqueued | hfinished
  · obtain ⟨position, hunit⟩ := List.getElem?_of_mem hmem
    have hposition := mem_queuedUnits_iff.mpr ⟨unit, hunit, hqueued⟩
    rw [hnone] at hposition
    cases hposition
  · exact hfinished

namespace RunProcess

/-- Whether the next step of the call loads the task file. -/
def looks (options : RunOptions) (process : RunProcess Json) : Bool :=
  match process.phase with
  | .mergeLoad _ => true
  | .loopTop => !(process.queue.isEmpty && process.pending.isEmpty)
  | .dispatching pauseRequested =>
      !process.queue.isEmpty && (process.pending.length < options.maxWorkers &&
        !process.cancelEvent && !pauseRequested)
  | .resumeSave | .mergeSave _ | .waiting | .completing _ | .returned | .raised _ => false

/-- A unit is left when the outcomes in `rest` have been handled. -/
def Busy (process : RunProcess Json) (rest : List (ℕ × Outcome Json)) : Prop :=
  process.queue ≠ [] ∨ ∃ position ∈ process.pending, position ∉ rest.map Prod.fst

/-! ## Once all units are finished -/

theorem Looping.idle_of_allFinished {process : RunProcess Json} {accounted : Prop}
    {departing : List ℕ} (hlooping : process.Looping accounted departing)
    (hall : AllFinished process.record.units) :
    process.queue = [] ∧ process.pending = [] ∧ departing = [] := by
  have hnone : ∀ position, position ∉ process.queue ∧
      position ∉ process.pending ++ departing := by
    intro position
    constructor <;> intro hmem
    · obtain ⟨unit, hunit, -⟩ := hlooping.placed.queued position hmem
      have hopen := hlooping.placed.not_finished (.inl hmem) hunit
      rw [hall unit (List.mem_of_getElem? hunit)] at hopen
      cases hopen
    · obtain ⟨unit, hunit, -⟩ := hlooping.placed.running position hmem
      have hopen := hlooping.placed.not_finished (.inr hmem) hunit
      rw [hall unit (List.mem_of_getElem? hunit)] at hopen
      cases hopen
  refine ⟨List.eq_nil_iff_forall_not_mem.mpr fun position => (hnone position).1, ?_, ?_⟩
  · refine List.eq_nil_iff_forall_not_mem.mpr fun position hmem => (hnone position).2 ?_
    exact List.mem_append_left _ hmem
  · refine List.eq_nil_iff_forall_not_mem.mpr fun position hmem => (hnone position).2 ?_
    exact List.mem_append_right _ hmem

/-- A run whose units are all finished changes none of them and submits none. -/
theorem allFinished_move {accounted : Prop} {options : RunOptions} {choice : Choice Json}
    {stored written : Option (TaskRecord Json)} {process next : RunProcess Json}
    (hstage : process.Stage accounted options process.phase)
    (hall : AllFinished process.record.units)
    (hmove : process.Move options choice stored next written) :
    AllFinished next.record.units ∧ next.submitted = process.submitted := by
  cases hmove with
  | merge =>
      refine ⟨?_, rfl⟩
      rw [TaskRecord.mergeExternal_units]
      exact hall
  | save after hphase =>
      rw [hphase] at hstage
      cases after with
      | dispatched unit =>
          obtain ⟨-, -, hdeparting⟩ := hstage.1.idle_of_allFinished hall
          cases hdeparting
      | unitFinished unit rest => cases hcallback : choice.callback <;> exact ⟨hall, rfl⟩
      | _ => exact ⟨hall, rfl⟩
  | cancel hphase hbusy =>
      rw [hphase] at hstage
      obtain ⟨hqueue, hpending, -⟩ := Looping.idle_of_allFinished hstage hall
      rcases hbusy with hqueued | hpended
      · exact absurd hqueue hqueued
      · exact absurd hpending hpended
  | pause hphase hqueue =>
      rw [hphase] at hstage
      exact absurd (Looping.idle_of_allFinished hstage hall).1 hqueue
  | enter => exact ⟨by simpa [adopt] using hall, rfl⟩
  | dispatch hphase unit queue hqueue =>
      rw [hphase] at hstage
      have hidle := (Looping.idle_of_allFinished hstage hall).1
      rw [hqueue] at hidle
      cases hidle
  | complete unit outcome rest hphase =>
      rw [hphase] at hstage
      obtain ⟨hlooping, hdone⟩ := hstage
      have hpending : unit ∈ process.pending :=
        (of_decide_eq_true hdone).2 unit List.mem_cons_self
      rw [(hlooping.idle_of_allFinished hall).2.1] at hpending
      cases hpending
  | _ => exact ⟨hall, rfl⟩

/-! ## Once the run has seen the request -/

/-- The run carries the request and cannot end before the top of its loop,
where it will cancel. -/
def Bound (process : RunProcess Json) (stored : TaskRecord Json) : Prop :=
  let flagged := process.record.cancelRequested = true ∨ stored.cancelRequested = true
  match process.phase with
  | .mergeSave .started =>
      process.record.cancelRequested = true ∧ ¬AllFinished process.record.units
  | .loopTop => flagged ∧ (process.queue ≠ [] ∨ process.pending ≠ [])
  | .waiting => flagged ∧ process.queue ≠ []
  | .completing rest | .mergeLoad (.unitFinished _ rest) => flagged ∧ process.Busy rest
  | .mergeSave (.unitFinished _ rest) =>
      process.record.cancelRequested = true ∧ process.Busy rest
  | .mergeLoad .cancelled | .mergeSave .cancelled | .raised _ => True
  | .returned => process.record.state = .cancelled
  | _ => False

theorem recordOutcome_cancelRequested (record : TaskRecord Json) (unit : ℕ)
    (outcome : Outcome Json) :
    (recordOutcome record unit outcome).cancelRequested = record.cancelRequested := by
  cases outcome <;> rfl

theorem Bound.move {options : RunOptions} {choice : Choice Json} {stored : TaskRecord Json}
    {written : Option (TaskRecord Json)} {process next : RunProcess Json}
    (hstage : process.Stage True options process.phase) (hbound : process.Bound stored)
    (hmove : process.Move options choice (some stored) next written) :
    next.Bound (written.getD stored) ∧ next.submitted = process.submitted := by
  unfold Bound at hbound
  cases hmove with
  | clearLatch hphase =>
      rw [hphase] at hbound
      cases hbound
  | merge after hphase =>
      rw [hphase] at hbound
      refine ⟨?_, rfl⟩
      cases after with
      | unitFinished unit rest =>
          exact ⟨by simpa using hbound.1, hbound.2⟩
      | cancelled => trivial
      | _ => cases hbound
  | save after hphase =>
      rw [hphase] at hbound hstage
      cases after with
      | started =>
          have hqueue := exists_queued_of_ready (hstage.1 trivial) hbound.2
          exact ⟨⟨.inl hbound.1, .inl hqueue⟩, rfl⟩
      | unitFinished unit rest =>
          cases hcallback : choice.callback with
          | none => exact ⟨⟨.inl hbound.1, hbound.2⟩, rfl⟩
          | some error => exact ⟨trivial, rfl⟩
      | cancelled => exact ⟨hstage.1, rfl⟩
      | _ => cases hbound
  | finish hphase hqueue hpending =>
      rw [hphase] at hbound
      rcases hbound.2 with hqueued | hpended
      · exact absurd hqueue hqueued
      · exact absurd hpending hpended
  | raise hphase error => exact ⟨trivial, rfl⟩
  | cancel => exact ⟨trivial, rfl⟩
  | pause hphase hqueue hpending persisted hstored hclear =>
      rw [hphase] at hbound
      cases hstored
      exact absurd (.inr hbound.1) hclear
  | enter hphase hbusy persisted hstored hclear =>
      rw [hphase] at hbound
      cases hstored
      exact absurd (.inr hbound.1) hclear
  | hold pauseRequested hphase =>
      rw [hphase] at hbound
      cases hbound
  | dispatch hphase =>
      rw [hphase] at hbound
      cases hbound
  | idle hphase =>
      rw [hphase] at hbound
      exact ⟨⟨hbound.1, .inl hbound.2⟩, rfl⟩
  | collect hphase =>
      rw [hphase] at hbound
      exact ⟨⟨hbound.1, .inl hbound.2⟩, rfl⟩
  | collected hphase =>
      rw [hphase] at hbound
      refine ⟨⟨hbound.1, ?_⟩, rfl⟩
      rcases hbound.2 with hqueue | ⟨position, hmem, -⟩
      · exact .inl hqueue
      · exact .inr (List.ne_nil_of_mem hmem)
  | complete unit outcome rest hphase =>
      rw [hphase] at hbound
      refine ⟨⟨?_, ?_⟩, rfl⟩
      · simpa [RunProcess.complete, recordOutcome_cancelRequested] using hbound.1
      · rcases hbound.2 with hqueue | ⟨position, hmem, hrest⟩
        · exact .inl hqueue
        · simp only [List.map_cons, List.mem_cons, not_or] at hrest
          exact .inr ⟨position, (List.mem_erase_of_ne hrest.1).mpr hmem, hrest.2⟩

/-! ## The look itself -/

/-- What lets a run hear a request that was saved since it last looked: it does
not return paused without looking, and when it looks the request is still in
the file and no dispatch or pause is under way.  Where several finished workers
are still to be handled, a unit must be left after them. -/
def Heeds (options : RunOptions) (process : RunProcess Json) (stored : TaskRecord Json) : Prop :=
  process.phase ≠ .mergeSave .paused ∧
    (process.looks options = true →
      (stored.cancelRequested = true ∨ AllFinished process.record.units) ∧
      match process.phase with
      | .mergeLoad .paused | .mergeLoad (.dispatched _) => False
      | .mergeLoad (.unitFinished _ rest) => rest = [] ∨ process.Busy rest
      | _ => True)

theorem Looping.allFinished_of_idle {process : RunProcess Json}
    (hlooping : process.Looping True []) (hbusy : ¬process.Busy []) :
    AllFinished process.record.units := by
  simp only [Busy, List.map_nil, List.not_mem_nil, not_false_eq_true, and_true, not_or,
    not_not, not_exists] at hbusy
  obtain ⟨hqueue, hpending⟩ := hbusy
  have hempty : process.pending = [] := List.eq_nil_iff_forall_not_mem.mpr hpending
  have hplaced : Placed True process.record.units [] [] := by
    simpa [hqueue, hempty] using hlooping.placed
  exact hplaced.all_finished trivial

/-- After the look the run is bound to cancel, or its units were all finished. -/
theorem Heeds.look {options : RunOptions} {choice : Choice Json} {stored : TaskRecord Json}
    {written : Option (TaskRecord Json)} {process next : RunProcess Json}
    (hstage : process.Stage True options process.phase)
    (hheeds : process.Heeds options stored) (hlooks : process.looks options = true)
    (hmove : process.Move options choice (some stored) next written) :
    next.submitted = process.submitted ∧
      ((AllFinished process.record.units ∧ AllFinished next.record.units) ∨
        next.Bound (written.getD stored)) := by
  by_cases hall : AllFinished process.record.units
  · obtain ⟨hnext, hsubmitted⟩ := allFinished_move hstage hall hmove
    exact ⟨hsubmitted, .inl ⟨hall, hnext⟩⟩
  · obtain ⟨hflag, hphases⟩ := hheeds.2 hlooks
    have hrequested : stored.cancelRequested = true := hflag.resolve_right hall
    cases hmove with
    | merge after hphase =>
        rw [hphase] at hstage hphases
        refine ⟨rfl, .inr ?_⟩
        cases after with
        | started => exact ⟨by simp [hrequested], by simpa using hall⟩
        | cancelled => trivial
        | finished => exact absurd ((hstage.2 trivial).allFinished hstage.1) hall
        | paused => cases hphases
        | dispatched unit => cases hphases
        | unitFinished unit rest =>
            refine ⟨by simp [hrequested], ?_⟩
            rcases hphases with rfl | hbusy
            · by_contra hidle
              exact hall (hstage.1.allFinished_of_idle hidle)
            · exact hbusy
    | raise hphase error => exact ⟨rfl, .inr trivial⟩
    | cancel => exact ⟨rfl, .inr trivial⟩
    | pause hphase hqueue hpending persisted hstored hclear =>
        cases hstored
        exact absurd (.inr (.inr hrequested)) hclear
    | enter hphase hbusy persisted hstored hclear =>
        cases hstored
        exact absurd (.inr (.inr hrequested)) hclear
    | hold pauseRequested hphase =>
        refine ⟨rfl, .inr ⟨.inr hrequested, ?_⟩⟩
        simp only [looks, hphase, Bool.and_eq_true, Bool.not_eq_true'] at hlooks
        exact List.isEmpty_eq_false_iff.mp hlooks.1
    | dispatch hphase unit queue hqueue hroom hevent persisted hstored hclear =>
        cases hstored
        rw [hrequested] at hclear
        cases hclear
    | clearLatch hphase | idle hphase | collect hphase | collected hphase | save after hphase
      | complete unit outcome rest hphase =>
        simp [looks, hphase] at hlooks
    | finish hphase hqueue hpending => simp [looks, hphase, hqueue, hpending] at hlooks

/-- A call that did not look returns cancelled, paused or with all units
finished. -/
theorem returned_of_move {options : RunOptions} {choice : Choice Json}
    {stored written : Option (TaskRecord Json)} {process next : RunProcess Json}
    (hstage : process.Stage True options process.phase)
    (hpaused : process.phase ≠ .mergeSave .paused)
    (hmove : process.Move options choice stored next written)
    (hreturned : next.phase = .returned) :
    next.record.state = .cancelled ∨ AllFinished next.record.units := by
  cases hmove with
  | save after hphase =>
      rw [hphase] at hstage hpaused
      cases after with
      | cancelled => exact .inl hstage.1
      | finished => exact .inr ((hstage.2 trivial).allFinished hstage.1)
      | paused => exact absurd rfl hpaused
      | unitFinished unit rest =>
          cases hcallback : choice.callback <;> simp [resumeAfter, hcallback] at hreturned
      | started => cases hreturned
      | dispatched unit => cases hreturned
  | _ => cases hreturned

end RunProcess

/-! ## A run that is watched -/

/-- The system with the history the statement is about: whether the canceller
has saved its request, and the run at its first look at the file after that. -/
structure Watched (Json : Type) where
  system : System Json
  saved : Bool := false
  look : Option (RunProcess Json) := none

namespace Watched

def start (record : TaskRecord Json) : Watched Json := { system := System.start record }

def step (options : RunOptions) (watched : Watched Json) (label : Label Json) :
    Option (Watched Json) :=
  (watched.system.step options label).map fun system =>
    match label with
    | .save _ => { watched with system := system, saved := true }
    | .step _ =>
        { watched with
          system := system
          look := watched.look <|>
            if watched.saved then watched.system.process.filter (·.looks options) else none }
    | .begin _ | .signal | .load _ _ => { watched with system := system }

/-- The request has been heard so far: a run that has returned was cancelled or
had all its units in a terminal state at its look, and it has submitted no unit
since then. -/
def CancelHeard (watched : Watched Json) : Prop :=
  ∀ process, watched.system.process = some process → watched.saved = true →
    (process.phase = .returned → process.record.state = .cancelled ∨
      ∀ unit ∈ (watched.look.getD process).record.units, unit.status.terminal = true) ∧
    ∀ look, watched.look = some look → process.submitted = look.submitted

/-- The condition on the steps of a schedule. -/
def Heeds (options : RunOptions) (watched : Watched Json) : Label Json → Prop
  | .save _ => ∀ process, watched.system.process = some process →
      process.phase = .returned → process.record.state ≠ .paused
  | .step _ => watched.saved = true → watched.look = none →
      ∀ process, watched.system.process = some process →
        process.Heeds options watched.system.store
  | .begin _ | .signal | .load _ _ => True

/-- What is known of the run between the look and its end. -/
def Following (watched : Watched Json) (process : RunProcess Json) : Prop :=
  match watched.look with
  | none => process.phase = .returned →
      process.record.state = .cancelled ∨ AllFinished process.record.units
  | some look => process.submitted = look.submitted ∧
      ((AllFinished look.record.units ∧ AllFinished process.record.units) ∨
        process.Bound watched.system.store)

structure Invariant (options : RunOptions) (initial : TaskRecord Json)
    (watched : Watched Json) : Prop where
  process : watched.system.ProcessInvariant True options initial
  writer : watched.saved = true → watched.system.writers 0 = .returned
  unsaved : watched.saved = false → watched.look = none
  following : watched.saved = true → ∀ process, watched.system.process = some process →
    watched.Following process

theorem invariant_step {options : RunOptions} {initial : TaskRecord Json}
    {watched next : Watched Json} {label : Label Json}
    (hinvariant : watched.Invariant options initial) (hsingle : label.singleCancel = true)
    (hheeds : watched.Heeds options label) (hstep : watched.step options label = some next) :
    next.Invariant options initial := by
  obtain ⟨system, hsystem, rfl⟩ := Option.map_eq_some_iff.mp hstep
  have hprocess := System.processInvariant_preserved True options initial watched.system label
    system hinvariant.process hsystem
  obtain ⟨current, hcurrent, hlifecycle⟩ := hinvariant.process
  have hstage := hlifecycle.stage
  cases System.step_move hsystem with
  | begin latched process hnone =>
      rw [hcurrent] at hnone
      cases hnone
  | step choice process moved written hrunning hmove =>
      rw [hcurrent] at hrunning
      cases hrunning
      refine ⟨hprocess, hinvariant.writer, ?_, ?_⟩
      · intro hunsaved
        have hfalse : watched.saved = false := hunsaved
        simp [hinvariant.unsaved hfalse, hfalse]
      · rintro hsaved other ⟨⟩
        have htrue : watched.saved = true := hsaved
        have hfollowing := hinvariant.following htrue current hcurrent
        cases hlook : watched.look with
        | none =>
            have hready := hheeds htrue hlook current hcurrent
            cases hlooks : current.looks options with
            | false =>
                simp only [Following, htrue, hcurrent, Option.filter, hlooks]
                exact RunProcess.returned_of_move hstage hready.1 hmove
            | true =>
                obtain ⟨hsubmitted, hbound⟩ := hready.look hstage hlooks hmove
                simp only [Following, htrue, hcurrent, Option.filter, hlooks]
                exact ⟨hsubmitted, hbound⟩
        | some look =>
            simp only [Following, hlook] at hfollowing
            obtain ⟨hsubmitted, hend⟩ := hfollowing
            simp only [Following]
            rcases hend with ⟨hlooked, hall⟩ | hbound
            · obtain ⟨hnext, hsame⟩ := RunProcess.allFinished_move hstage hall hmove
              exact ⟨hsame.trans hsubmitted, .inl ⟨hlooked, hnext⟩⟩
            · obtain ⟨hnext, hsame⟩ := hbound.move hstage hmove
              exact ⟨hsame.trans hsubmitted, .inr hnext⟩
  | signal process hrunning =>
      refine ⟨hprocess, hinvariant.writer, hinvariant.unsaved, ?_⟩
      rintro hsaved other ⟨⟩
      exact hinvariant.following hsaved process hrunning
  | load writer request hidle =>
      have hunsaved : watched.saved = false := by
        by_contra hsaved
        have hwriter := hinvariant.writer (by simpa using hsaved)
        simp only [Label.singleCancel, Bool.and_eq_true, decide_eq_true_eq] at hsingle
        rw [← hsingle.1, hidle] at hwriter
        cases hwriter
      refine ⟨hprocess, ?_, hinvariant.unsaved, ?_⟩
      · intro hsaved
        rw [hunsaved] at hsaved
        cases hsaved
      · intro hsaved
        rw [hunsaved] at hsaved
        cases hsaved
  | save writer record hloaded =>
      obtain rfl : writer = 0 := by simpa [Label.singleCancel] using hsingle
      have hunsaved : watched.saved = false := by
        by_contra hsaved
        have hwriter := hinvariant.writer (by simpa using hsaved)
        rw [hloaded] at hwriter
        cases hwriter
      refine ⟨hprocess, fun _ => by simp [System.setWriter], by simp, ?_⟩
      intro _ process hrunning
      have hsame : watched.system.process = some process := hrunning
      simp only [Following, hinvariant.unsaved hunsaved]
      intro hreturned
      have hpaused := hheeds process hsame hreturned
      rw [hcurrent] at hsame
      cases hsame
      rw [hreturned] at hstage
      exact (hstage trivial).cancelled_or_allFinished hpaused

theorem Invariant.cancelHeard {options : RunOptions} {initial : TaskRecord Json}
    {watched : Watched Json} (hinvariant : watched.Invariant options initial) :
    watched.CancelHeard := by
  intro process hprocess hsaved
  have hfollowing := hinvariant.following hsaved process hprocess
  unfold Following at hfollowing
  cases hlook : watched.look with
  | none =>
      rw [hlook] at hfollowing
      refine ⟨fun hreturned => ?_, by rintro look ⟨⟩⟩
      refine (hfollowing hreturned).imp_right fun hall unit hmem => ?_
      exact TaskState.terminal_of_finished (hall unit hmem)
  | some look =>
      rw [hlook] at hfollowing
      obtain ⟨hsubmitted, hend⟩ := hfollowing
      refine ⟨fun hreturned => ?_, by rintro other ⟨⟩; exact hsubmitted⟩
      rcases hend with ⟨hlooked, -⟩ | hbound
      · exact .inr fun unit hmem => TaskState.terminal_of_finished (hlooked unit hmem)
      · unfold RunProcess.Bound at hbound
        rw [hreturned] at hbound
        exact .inl hbound

end Watched

/-- A request is heard in every run that, at the first step at which it can
meet the request, finds it in the file and is neither submitting a unit nor
pausing. -/
theorem cancel_heard {record : TaskRecord Json} (hrecord : ServiceRecord record)
    {options : RunOptions} (hunits : options.resume = true ∨ Ready record.units)
    {latched : Bool} {schedule : List (Label Json)}
    (hsingle : ∀ label ∈ schedule, label.singleCancel = true)
    (hheeds : Transition.StepsMeet (Watched.step options) (Watched.Heeds options)
      (Watched.start record) (.begin latched :: schedule))
    {watched : Watched Json}
    (hrun : Transition.run (Watched.step options) (Watched.start record)
      (.begin latched :: schedule) = some watched) :
    watched.CancelHeard := by
  obtain ⟨started, hbegin, hrest⟩ := Transition.run_cons_eq_some.mp hrun
  have hstarted : started.Invariant options record := by
    obtain ⟨system, hsystem, rfl⟩ := Option.map_eq_some_iff.mp hbegin
    cases System.step_move hsystem with
    | begin latched process hnone hbegun =>
        refine ⟨⟨process, rfl, .begin hbegun (fun _ => hrecord.sound.unpaused) fun _ => hunits⟩,
          ?_, fun _ => rfl, ?_⟩
        · rintro ⟨⟩
        · rintro ⟨⟩
  have hmeets := (hheeds.2 started hbegin).and (.of_forall hsingle)
  have hfinal := hmeets.invariant_run _
    (fun _ _ _ hinvariant hlabel hstep =>
      Watched.invariant_step hinvariant hlabel.2 hlabel.1 hstep) hstarted hrest
  exact hfinal.cancelHeard

/-- A request saved before the first save of the run is heard. -/
theorem cancel_heard_single :
    ∃ watched, Transition.run (Watched.step singleOptions) (Watched.start singleRecord)
        (.begin false :: [.load 0 .requestCancel, .save 0] ++ answered 5) = some watched ∧
      watched.saved = true ∧ watched.CancelHeard := by
  have hruns : ∃ watched, Transition.run (Watched.step singleOptions)
      (Watched.start singleRecord)
      (.begin false :: [.load 0 .requestCancel, .save 0] ++ answered 5) = some watched ∧
        watched.saved = true := ⟨_, rfl, rfl⟩
  obtain ⟨watched, hrun, hsaved⟩ := hruns
  refine ⟨watched, hrun, hsaved, ?_⟩
  refine cancel_heard (.created singleRecord_created) ?_ (by decide) ?_ hrun
  · exact .inr fun unit hmem => .inl (singleRecord_created.units_queued unit hmem).1
  · refine .cons trivial rfl (.cons trivial rfl (.cons ?_ rfl (.cons ?_ rfl ?_)))
    · rintro process ⟨⟩ ⟨⟩
    · rintro - - process ⟨⟩
      exact ⟨by simp [RunProcess.announceStart], fun _ => ⟨.inl rfl, trivial⟩⟩
    · refine .cons ?_ rfl (.cons ?_ rfl (.cons ?_ rfl (.cons ?_ rfl trivial))) <;>
        rintro - ⟨⟩

/-- A request saved between the load and the save of the run's first
`_save_with_external_events` is erased: the only unit is dispatched all the
same and the run completes. -/
theorem cancel_lost :
    ∃ watched, Transition.run (Watched.step singleOptions) (Watched.start singleRecord)
        (.begin false :: answered 1 ++ [.load 0 .requestCancel, .save 0] ++ answered 14) =
          some watched ∧
      watched.saved = true ∧ ¬watched.CancelHeard := by
  have hruns : ∃ watched process look, Transition.run (Watched.step singleOptions)
      (Watched.start singleRecord)
      (.begin false :: answered 1 ++ [.load 0 .requestCancel, .save 0] ++ answered 14) =
        some watched ∧
      watched.saved = true ∧ watched.system.process = some process ∧
      watched.look = some look ∧ process.submitted = [0] ∧ look.submitted = [] :=
    ⟨_, _, _, rfl, rfl, rfl, rfl, rfl, rfl⟩
  obtain ⟨watched, process, look, hrun, hsaved, hprocess, hlook, hsubmitted, hnone⟩ := hruns
  refine ⟨watched, hrun, hsaved, fun hheard => ?_⟩
  have hsame := (hheard process hprocess hsaved).2 look hlook
  rw [hsubmitted, hnone] at hsame
  cases hsame

end AlgorithmHarness.TaskService
