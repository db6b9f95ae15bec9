import AlgorithmHarness.TaskService.CancelDelivery

/-!
# Resuming after a cancellation

One `TaskService` instance keeps a cancellation in three places: the stored
flag, the in-process event and the state of the record.  A resume clears the
flag and the state, but an event that no run has consumed survives it.
-/

namespace AlgorithmHarness.TaskService

variable {Json : Type}

namespace RunProcess

/-- No trace of a request is left for the run to see.  A resume still has to
overwrite the stored flag. -/
def Clear (process : RunProcess Json) (stored : TaskRecord Json) : Prop :=
  process.cancelEvent = false ∧ process.record.cancelRequested = false ∧
    (process.phase = .resumeSave ∨ stored.cancelRequested = false)

/-- The run has not cancelled. -/
def Uncancelled (process : RunProcess Json) : Prop :=
  match process.phase with
  | .mergeLoad .cancelled | .mergeSave .cancelled => False
  | .returned => process.record.state ≠ .cancelled
  | _ => True

/-- The unit at `position` has been submitted or will be, unless the run pauses. -/
def Awaits (process : RunProcess Json) (position : ℕ) : Prop :=
  match process.phase with
  | .resumeSave | .mergeLoad .started | .mergeSave .started =>
      position ∈ queuedUnits process.record.units
  | .mergeLoad (.dispatched unit) | .mergeSave (.dispatched unit) =>
      position ∈ process.queue ∨ position ∈ process.submitted ∨ position = unit
  | .loopTop | .dispatching _ | .waiting | .completing _ | .mergeLoad (.unitFinished _ _)
  | .mergeSave (.unitFinished _ _) => position ∈ process.queue ∨ position ∈ process.submitted
  | .mergeLoad .finished | .mergeSave .finished => position ∈ process.submitted
  | .returned => process.record.state = .paused ∨ position ∈ process.submitted
  | .mergeLoad .paused | .mergeSave .paused | .raised _ => True
  | .mergeLoad .cancelled | .mergeSave .cancelled => False

variable {options : RunOptions} {choice : Choice Json} {stored : TaskRecord Json}
  {written : Option (TaskRecord Json)} {process next : RunProcess Json}

theorem Clear.not_seen (hclear : process.Clear stored) (hphase : process.phase = .loopTop) :
    ¬process.cancelSeen stored := by
  obtain ⟨hevent, hrequested, hstored⟩ := hclear
  have hfile : stored.cancelRequested = false := by
    refine hstored.resolve_left fun hresume => ?_
    rw [hphase] at hresume
    cases hresume
  simp [cancelSeen, hevent, hrequested, hfile]

theorem Clear.move (hclear : process.Clear stored)
    (hmove : process.Move options choice (some stored) next written) :
    next.Clear (written.getD stored) := by
  obtain ⟨hevent, hrequested, hstored⟩ := hclear
  cases hmove with
  | clearLatch =>
      exact ⟨by simp [announceStart, hevent, hrequested], rfl, .inr hrequested⟩
  | merge after hphase =>
      have hfile := hstored.resolve_left (by simp [hphase])
      exact ⟨hevent, by simp [hrequested, hfile], .inr hfile⟩
  | save after =>
      cases after with
      | unitFinished unit rest =>
          cases hcallback : choice.callback <;> exact ⟨hevent, hrequested, .inr hrequested⟩
      | _ => exact ⟨hevent, hrequested, .inr hrequested⟩
  | cancel hphase hbusy persisted hpersisted hseen =>
      cases hpersisted
      exact absurd hseen (Clear.not_seen ⟨hevent, hrequested, hstored⟩ hphase)
  | pause hphase | enter hphase =>
      have hfile := hstored.resolve_left (by simp [hphase])
      exact ⟨hevent, by simpa [RunProcess.pause, adopt] using hrequested, .inr hfile⟩
  | raise hphase =>
      have hfile := hstored.resolve_left (by rcases hphase with hphase | hphase <;> simp [hphase])
      exact ⟨hevent, hrequested, .inr hfile⟩
  | complete unit outcome rest hphase =>
      have hfile := hstored.resolve_left (by simp [hphase])
      refine ⟨hevent, ?_, .inr hfile⟩
      simpa [RunProcess.complete, recordOutcome_cancelRequested] using hrequested
  | finish hphase | hold pauseRequested hphase | dispatch hphase | idle hphase
    | collect hphase | collected hphase =>
      have hfile := hstored.resolve_left (by simp [hphase])
      exact ⟨hevent, hrequested, .inr hfile⟩

/-- Nothing is left to make the run cancel, and no open unit is forgotten. -/
structure Continuing (initial : List (TaskUnit Json)) (process : RunProcess Json)
    (stored : TaskRecord Json) : Prop where
  clear : process.Clear stored ∨ AllFinished process.record.units
  uncancelled : process.Uncancelled
  awaits : ∀ (position : ℕ) (unit : TaskUnit Json), initial[position]? = some unit →
    unit.status.finished = false → process.Awaits position

theorem Continuing.not_cancel {initial : List (TaskUnit Json)}
    (hstage : process.Stage True options process.phase)
    (hcontinuing : process.Continuing initial stored) (hphase : process.phase = .loopTop)
    (hbusy : process.queue ≠ [] ∨ process.pending ≠ []) : ¬process.cancelSeen stored := by
  rcases hcontinuing.clear with hclear | hall
  · exact hclear.not_seen hphase
  · rw [hphase] at hstage
    obtain ⟨hqueue, hpending, -⟩ := Looping.idle_of_allFinished hstage hall
    exact absurd hbusy (by simp [hqueue, hpending])

theorem Uncancelled.move (huncancelled : process.Uncancelled)
    (hstage : process.Stage True options process.phase)
    (hcancel : process.phase = .loopTop → (process.queue ≠ [] ∨ process.pending ≠ []) →
      ¬process.cancelSeen stored)
    (hmove : process.Move options choice (some stored) next written) : next.Uncancelled := by
  unfold Uncancelled at huncancelled
  cases hmove with
  | merge after hphase =>
      rw [hphase] at huncancelled
      cases after with
      | cancelled => cases huncancelled
      | _ => trivial
  | save after hphase =>
      rw [hphase] at huncancelled hstage
      cases after with
      | cancelled => cases huncancelled
      | paused => simp [Uncancelled, resumeAfter, hstage.1]
      | finished => rcases hstage.1 with hstate | hstate <;> simp [Uncancelled, resumeAfter, hstate]
      | unitFinished unit rest => cases hcallback : choice.callback <;> trivial
      | _ => trivial
  | cancel hphase hbusy persisted hpersisted hseen =>
      cases hpersisted
      exact absurd hseen (hcancel hphase hbusy)
  | _ => trivial

theorem Awaits.move {position : ℕ} (hawaits : process.Awaits position)
    (hstage : process.Stage True options process.phase)
    (hcancel : process.phase = .loopTop → (process.queue ≠ [] ∨ process.pending ≠ []) →
      ¬process.cancelSeen stored)
    (hmove : process.Move options choice (some stored) next written) :
    next.Awaits position := by
  unfold Awaits at hawaits
  cases hmove with
  | clearLatch hphase =>
      rw [hphase] at hawaits
      exact hawaits
  | merge after hphase =>
      rw [hphase] at hawaits
      cases after with
      | started => simpa [Awaits] using hawaits
      | cancelled => cases hawaits
      | _ => exact hawaits
  | save after hphase =>
      rw [hphase] at hawaits hstage
      cases after with
      | started => exact .inl hawaits
      | cancelled => cases hawaits
      | paused => exact .inl hstage.1
      | finished => exact .inr hawaits
      | dispatched unit =>
          rcases hawaits with hqueue | hsubmitted | hunit
          · exact .inl hqueue
          · exact .inr (List.mem_append_left _ hsubmitted)
          · exact .inr (List.mem_append_right _ (by simp [hunit]))
      | unitFinished unit rest =>
          cases hcallback : choice.callback with
          | none => exact hawaits
          | some error => trivial
  | finish hphase hqueue hpending =>
      rw [hphase] at hawaits
      rw [hqueue] at hawaits
      exact hawaits.resolve_left List.not_mem_nil
  | raise => trivial
  | cancel hphase hbusy persisted hpersisted hseen =>
      cases hpersisted
      exact absurd hseen (hcancel hphase hbusy)
  | pause => trivial
  | dispatch hphase unit queue hqueue =>
      rw [hphase] at hawaits
      rw [hqueue] at hawaits
      rcases hawaits with hqueued | hsubmitted
      · rcases List.mem_cons.mp hqueued with hunit | hrest
        · exact .inr (.inr hunit)
        · exact .inl hrest
      · exact .inr (.inl hsubmitted)
  | enter hphase | hold pauseRequested hphase | idle hphase | collect hphase
    | collected hphase | complete unit outcome rest hphase =>
      rw [hphase] at hawaits
      exact hawaits

theorem Continuing.move {initial : List (TaskUnit Json)}
    (hcontinuing : process.Continuing initial stored)
    (hstage : process.Stage True options process.phase)
    (hmove : process.Move options choice (some stored) next written) :
    next.Continuing initial (written.getD stored) := by
  have hcancel := fun hphase hbusy => hcontinuing.not_cancel hstage hphase hbusy
  refine ⟨?_, hcontinuing.uncancelled.move hstage hcancel hmove, ?_⟩
  · rcases hcontinuing.clear with hclear | hall
    · exact .inl (hclear.move hmove)
    · exact .inr (allFinished_move hstage hall hmove).1
  · intro position unit hunit hopen
    exact (hcontinuing.awaits position unit hunit hopen).move hstage hcancel hmove

/-- A call that has ended; the `finally` block then forgets the cancel event. -/
def ended (process : RunProcess Json) : Bool :=
  match process.phase with
  | .returned | .raised _ => true
  | _ => false

end RunProcess

/-! ## One service instance -/

/-- A call of `request_cancel` on the instance, between its steps. -/
inductive CancelCall (Json : Type) where
  | idle
  | loaded (record : TaskRecord Json)
  /-- The in-process event is set, the record is not saved yet. -/
  | latched (record : TaskRecord Json)
  | returned
  deriving DecidableEq, Repr

def CancelCall.underWay : CancelCall Json → Bool
  | .loaded _ | .latched _ => true
  | .idle | .returned => false

/-- The instance and its task.  `cancelEvent` says whether `_cancel_events`
holds a set event; the run under way shares that event. -/
structure Service (Json : Type) where
  store : TaskRecord Json
  cancelEvent : Bool := false
  process : Option (RunOptions × RunProcess Json) := none
  requests : ℕ → CancelCall Json := fun _ => .idle

/-- The steps of the calls on the instance. -/
inductive Call (Json : Type) where
  | run (options : RunOptions)
  | step (choice : Choice Json)
  | load (request : ℕ)
  | latch (request : ℕ)
  | save (request : ℕ)
  deriving DecidableEq, Repr

/-- Whether the step belongs to a call that has started before. -/
def Call.goesOn : Call Json → Bool
  | .step _ | .latch _ | .save _ => true
  | .run _ | .load _ => false

namespace Service

def start (record : TaskRecord Json) : Service Json := { store := record }

def setRequest (service : Service Json) (request : ℕ) (value : CancelCall Json) :
    Service Json :=
  { service with requests := Function.update service.requests request value }

/-- A call of `run` is under way. -/
def running (service : Service Json) : Bool :=
  match service.process with
  | none => false
  | some (_, process) => !process.ended

def step (service : Service Json) : Call Json → Option (Service Json)
  | .run options =>
      if service.running then none
      else match RunProcess.begin options service.cancelEvent (some service.store) with
      | .error _ => none
      | .ok process =>
          some { service with
            cancelEvent := process.cancelEvent
            process := some (options, process) }
  | .step choice =>
      match service.process with
      | none => none
      | some (options, process) =>
          (process.step options choice (some service.store)).map fun (next, written) =>
            { service with
              store := written.getD service.store
              cancelEvent := next.cancelEvent && !next.ended
              process := some (options, next) }
  | .load request =>
      match service.requests request with
      | .idle =>
          some (service.setRequest request
            (match service.store.requestCancel with
            | none => .returned
            | some changed => .loaded changed))
      | .loaded _ | .latched _ | .returned => none
  | .latch request =>
      match service.requests request with
      | .loaded record =>
          some { service.setRequest request (.latched record) with
            cancelEvent := true
            process := service.process.map fun (options, process) =>
              (options, { process with cancelEvent := process.cancelEvent || !process.ended }) }
      | .idle | .latched _ | .returned => none
  | .save request =>
      match service.requests request with
      | .latched record => some { service.setRequest request .returned with store := record }
      | .idle | .loaded _ | .returned => none

/-- The steps of the instance. -/
inductive Move (service : Service Json) : Call Json → Service Json → Prop where
  | run (options : RunOptions) (process : RunProcess Json) (hidle : service.running = false)
      (hbegin : RunProcess.begin options service.cancelEvent (some service.store) =
        .ok process) :
      Move service (.run options)
        { service with cancelEvent := process.cancelEvent, process := some (options, process) }
  | step (choice : Choice Json) (options : RunOptions) (process next : RunProcess Json)
      (written : Option (TaskRecord Json)) (hprocess : service.process = some (options, process))
      (hmove : process.Move options choice (some service.store) next written) :
      Move service (.step choice)
        { service with
          store := written.getD service.store
          cancelEvent := next.cancelEvent && !next.ended
          process := some (options, next) }
  | load (request : ℕ) (value : CancelCall Json) (hidle : service.requests request = .idle)
      (hvalue : ∀ changed, value = .loaded changed →
        service.store.requestCancel = some changed) (hlatched : ∀ changed, value ≠ .latched changed) :
      Move service (.load request) (service.setRequest request value)
  | latch (request : ℕ) (record : TaskRecord Json)
      (hloaded : service.requests request = .loaded record) :
      Move service (.latch request)
        { service.setRequest request (.latched record) with
          cancelEvent := true
          process := service.process.map fun (options, process) =>
            (options, { process with cancelEvent := process.cancelEvent || !process.ended }) }
  | save (request : ℕ) (record : TaskRecord Json)
      (hlatched : service.requests request = .latched record) :
      Move service (.save request)
        { service.setRequest request .returned with store := record }

theorem step_move {service next : Service Json} {call : Call Json}
    (hstep : service.step call = some next) : service.Move call next := by
  cases call with
  | run options =>
      simp only [step] at hstep
      split at hstep
      next => cases hstep
      next hidle =>
        split at hstep
        next => cases hstep
        next process hbegin =>
          cases hstep
          exact .run options process (by simpa using hidle) hbegin
  | step choice =>
      simp only [step] at hstep
      split at hstep
      next => cases hstep
      next options process hprocess =>
        obtain ⟨⟨moved, written⟩, hmoved, rfl⟩ := Option.map_eq_some_iff.mp hstep
        exact .step choice options process moved written hprocess (RunProcess.step_move hmoved)
  | load request =>
      simp only [step] at hstep
      split at hstep
      next hidle =>
        cases hstep
        refine .load request _ hidle ?_ ?_
        · intro changed hvalue
          split at hvalue
          next => cases hvalue
          next hchanged =>
            cases hvalue
            exact hchanged
        · intro changed hvalue
          split at hvalue <;> cases hvalue
      all_goals cases hstep
  | latch request =>
      simp only [step] at hstep
      split at hstep
      next record hloaded =>
        cases hstep
        exact .latch request record hloaded
      all_goals cases hstep
  | save request =>
      simp only [step] at hstep
      split at hstep
      next record hlatched =>
        cases hstep
        exact .save request record hlatched
      all_goals cases hstep

theorem setRequest_requests (service : Service Json) (request other : ℕ)
    (value : CancelCall Json) : (service.setRequest request value).requests other =
      if other = request then value else service.requests other := by
  by_cases heq : other = request
  · subst other
    simp [setRequest]
  · simp [setRequest, heq]

/-- Every copy of the record is sound, and those of a canceller are flagged. -/
structure Sound (service : Service Json) : Prop where
  store : service.store.Sound
  process : ∀ options process, service.process = some (options, process) → process.Sound
  loaded : ∀ request record, service.requests request = .loaded record →
    record.Sound ∧ record.cancelRequested = true
  latched : ∀ request record, service.requests request = .latched record →
    record.Sound ∧ record.cancelRequested = true

theorem sound_preserved :
    Transition.Preserved step fun service : Service Json => service.Sound := by
  intro service call next hsound hstep
  cases step_move hstep with
  | run options process hidle hbegin =>
      refine ⟨hsound.store, ?_, hsound.loaded, hsound.latched⟩
      rintro options process ⟨⟩
      exact RunProcess.sound_begin hsound.store hbegin
  | step choice options process moved written hprocess hmove =>
      obtain ⟨hmoved, hwritten⟩ := (hsound.process options process hprocess).move hmove
      refine ⟨?_, ?_, hsound.loaded, hsound.latched⟩
      · cases written with
        | none => exact hsound.store
        | some record => exact hwritten record rfl
      · rintro options process ⟨⟩
        exact hmoved
  | load request value hidle hvalue hlatched =>
      refine ⟨hsound.store, hsound.process, ?_, ?_⟩ <;> intro other record hother <;>
        rw [setRequest_requests] at hother <;> split at hother
      · obtain ⟨hopen, rfl⟩ := TaskRecord.requestCancel_eq_some (hvalue record hother)
        exact ⟨hsound.store.congr rfl rfl, rfl⟩
      · exact hsound.loaded other record hother
      · exact absurd hother (hlatched record)
      · exact hsound.latched other record hother
  | latch request record hloaded =>
      refine ⟨hsound.store, ?_, ?_, ?_⟩
      · intro options process hprocess
        obtain ⟨⟨options, before⟩, hbefore, heq⟩ := Option.map_eq_some_iff.mp hprocess
        cases heq
        exact hsound.process options before hbefore
      · intro other kept hother
        change (service.setRequest request _).requests other = _ at hother
        rw [setRequest_requests] at hother
        split at hother
        · cases hother
        · exact hsound.loaded other kept hother
      · intro other kept hother
        change (service.setRequest request _).requests other = _ at hother
        rw [setRequest_requests] at hother
        split at hother
        · cases hother
          exact hsound.loaded request record hloaded
        · exact hsound.latched other kept hother
  | save request record hlatched =>
      refine ⟨(hsound.latched request record hlatched).1, hsound.process, ?_, ?_⟩ <;>
        intro other kept hother <;>
        change (service.setRequest request _).requests other = _ at hother <;>
        rw [setRequest_requests] at hother <;> split at hother
      · cases hother
      · exact hsound.loaded other kept hother
      · cases hother
      · exact hsound.latched other kept hother

theorem sound_start {record : TaskRecord Json} (hcreated : Created record) :
    (start record).Sound := by
  refine ⟨(ServiceRecord.created hcreated).sound, ?_, ?_, ?_⟩
  · rintro options process ⟨⟩
  · rintro request record ⟨⟩
  · rintro request record ⟨⟩

/-! ## The resume -/

/-- Whatever the calls that have already started still do, a run that returns
has not cancelled and, unless it has paused, has submitted every open unit. -/
def ResumeHonoured (initial : List (TaskUnit Json)) (started : Service Json) : Prop :=
  ∀ (continuation : List (Call Json)) (final : Service Json) (options : RunOptions)
    (process : RunProcess Json), (∀ call ∈ continuation, call.goesOn = true) →
    Transition.run step started continuation = some final →
    final.process = some (options, process) → process.phase = .returned →
      process.record.state ≠ .cancelled ∧
      (process.record.state ≠ .paused →
        ∀ (position : ℕ) (unit : TaskUnit Json), initial[position]? = some unit →
          unit.status.finished = false → position ∈ process.submitted)

/-- The resumed run goes on, and no request that has not ended can reach it. -/
structure Resumed (options : RunOptions) (initial : TaskRecord Json) (service : Service Json)
    (process : RunProcess Json) : Prop where
  current : service.process = some (options, process)
  invariant : process.Invariant True options initial
  continuing : process.Continuing initial.units service.store
  requests : (∀ request, (service.requests request).underWay = false) ∨
    AllFinished process.record.units

theorem Resumed.step {options : RunOptions} {initial : TaskRecord Json}
    {service next : Service Json} {process : RunProcess Json} {call : Call Json}
    (hresumed : service.Resumed options initial process) (hgoesOn : call.goesOn = true)
    (hstep : service.step call = some next) :
    ∃ process, next.Resumed options initial process := by
  have hcurrent := hresumed.current
  have hstage := hresumed.invariant.stage
  cases step_move hstep with
  | run => cases hgoesOn
  | load => cases hgoesOn
  | step choice options' process' moved written hprocess hmove =>
      rw [hcurrent] at hprocess
      cases hprocess
      refine ⟨moved, rfl, hresumed.invariant.move hmove, hresumed.continuing.move hstage hmove, ?_⟩
      exact hresumed.requests.imp_right fun hall =>
        (RunProcess.allFinished_move hstage hall hmove).1
  | latch request record hloaded =>
      have hall : AllFinished process.record.units := by
        refine hresumed.requests.resolve_left fun hquiet => ?_
        have hrequest := hquiet request
        rw [hloaded] at hrequest
        cases hrequest
      refine ⟨{ process with cancelEvent := process.cancelEvent || !process.ended },
        by rw [hcurrent]; rfl, ?_, ?_, .inr hall⟩
      · exact hresumed.invariant.of_same_units rfl rfl rfl
          (RunProcess.Stage.congr hstage rfl rfl rfl rfl)
      · exact ⟨.inr hall, hresumed.continuing.uncancelled, hresumed.continuing.awaits⟩
  | save request record hlatched =>
      have hall : AllFinished process.record.units := by
        refine hresumed.requests.resolve_left fun hquiet => ?_
        have hrequest := hquiet request
        rw [hlatched] at hrequest
        cases hrequest
      refine ⟨process, hcurrent, hresumed.invariant, ?_, .inr hall⟩
      exact ⟨.inr hall, hresumed.continuing.uncancelled, hresumed.continuing.awaits⟩

theorem Resumed.honoured {options : RunOptions} {initial : TaskRecord Json}
    {service : Service Json} {process : RunProcess Json}
    (hresumed : service.Resumed options initial process) :
    service.ResumeHonoured initial.units := by
  intro continuation
  induction continuation generalizing service process with
  | nil =>
      intro final options' final' _ hrun hfinal hreturned
      obtain rfl : service = final := by simpa using hrun
      rw [hresumed.current] at hfinal
      cases hfinal
      have huncancelled := hresumed.continuing.uncancelled
      simp only [RunProcess.Uncancelled, hreturned] at huncancelled
      refine ⟨huncancelled, fun hpaused position unit hunit hopen => ?_⟩
      have hawaits := hresumed.continuing.awaits position unit hunit hopen
      simp only [RunProcess.Awaits, hreturned] at hawaits
      exact hawaits.resolve_left hpaused
  | cons call continuation ih =>
      intro final options' final' hgoesOn hrun hfinal hreturned
      obtain ⟨next, hstep, hrest⟩ := Transition.run_cons_eq_some.mp hrun
      rw [List.forall_mem_cons] at hgoesOn
      obtain ⟨moved, hmoved⟩ := hresumed.step hgoesOn.1 hstep
      exact ih hmoved final options' final' hgoesOn.2 hrest hfinal hreturned

theorem requeueUnit_queued {unit : TaskUnit Json} (hpaused : unit.status ≠ .paused)
    (hopen : unit.status.finished = false) :
    (TaskRecord.requeueUnit unit).status = .queued := by
  unfold TaskRecord.requeueUnit
  split
  next => rfl
  next hkept =>
    cases hcase : unit.status <;> simp_all [TaskRecord.requeued, TaskState.finished]

theorem resumed_start {service : Service Json} (hsound : service.Sound) {options : RunOptions}
    (hclear : (service.cancelEvent = false ∧
      ∀ request, (service.requests request).underWay = false) ∨
        AllFinished service.store.units)
    {process : RunProcess Json} (hresume : options.resume = true)
    (hbegin : RunProcess.begin options service.cancelEvent (some service.store) = .ok process) :
    Resumed options service.store
      { service with cancelEvent := process.cancelEvent, process := some (options, process) }
      process := by
  have hinvariant : process.Invariant True options service.store :=
    .begin hbegin (fun _ => hsound.store.unpaused) fun _ => .inl hresume
  rcases RunProcess.begin_ok hbegin with ⟨-, rfl⟩ | ⟨hnot, -⟩
  · have hall : AllFinished service.store.units →
        AllFinished service.store.prepareResume.units := by
      intro hfinished unit hmem
      obtain ⟨old, hold, rfl⟩ := List.mem_map.mp hmem
      have hcertain := hsound.store.certain_of_finished hold (hfinished old hold)
      rw [requeueUnit_confirmed (by simp [TaskUnit.confirmed, hfinished old hold, hcertain])]
      exact hfinished old hold
    refine ⟨rfl, hinvariant, ⟨?_, trivial, ?_⟩, ?_⟩
    · exact hclear.imp (fun hquiet => ⟨hquiet.1, rfl, .inl rfl⟩) hall
    · intro position unit hunit hopen
      have hpaused := hsound.store.unpaused unit (List.mem_of_getElem? hunit)
      refine mem_queuedUnits_iff.mpr ⟨TaskRecord.requeueUnit unit, ?_,
        requeueUnit_queued hpaused hopen⟩
      simp [TaskRecord.prepareResume, hunit]
    · exact hclear.imp (fun hquiet => hquiet.2) hall
  · rw [hresume] at hnot
    cases hnot

/-! ## A request that survives -/

theorem step_of_process {service : Service Json} {options : RunOptions} {choice : Choice Json}
    {process next : RunProcess Json} {written : Option (TaskRecord Json)}
    (hprocess : service.process = some (options, process))
    (hstep : process.step options choice (some service.store) = some (next, written)) :
    service.step (.step choice) = some { service with
      store := written.getD service.store
      cancelEvent := next.cancelEvent && !next.ended
      process := some (options, next) } := by
  simp [step, hprocess, hstep]

/-- One `_save_with_external_events` of the run, undisturbed. -/
theorem run_merge_save (service : Service Json) {options : RunOptions}
    {process : RunProcess Json} {after : Continuation Json}
    (hprocess : service.process = some (options, process))
    (hphase : process.phase = .mergeLoad after) :
    ∃ final, Transition.run step service [.step {}, .step {}] = some final ∧
      final.store = process.record.mergeExternal (some service.store) ∧
      final.process = some (options, RunProcess.resumeAfter
        { process with
          record := process.record.mergeExternal (some service.store)
          phase := .mergeSave after } none after) := by
  have hmerge : process.step options {} (some service.store) =
      some ({ process with
        record := process.record.mergeExternal (some service.store)
        phase := .mergeSave after }, none) := by
    simp [RunProcess.step, hphase]
  have hload := step_of_process hprocess hmerge
  refine ⟨_, Transition.run_cons_eq_some.mpr ⟨_, hload, Transition.run_cons_eq_some.mpr
    ⟨_, step_of_process rfl rfl, rfl⟩⟩, rfl, rfl⟩

/-- A run that meets a request at the top of its loop returns cancelled. -/
theorem cancels_at_loopTop (service : Service Json) {options : RunOptions}
    {process : RunProcess Json} (hprocess : service.process = some (options, process))
    (hphase : process.phase = .loopTop) (hqueue : process.queue ≠ [])
    (hseen : process.cancelSeen service.store) :
    ∃ final returned,
      Transition.run step service [.step {}, .step {}, .step {}] = some final ∧
      final.process = some (options, returned) ∧ returned.phase = .returned ∧
      returned.record.state = .cancelled := by
  have hinspect : process.step options {} (some service.store) =
      some ((process.adopt service.store).cancelAll, none) := by
    simp [RunProcess.step, hphase, hqueue, RunProcess.inspect_of_seen hseen]
  have hcancel := step_of_process hprocess hinspect
  obtain ⟨final, hrun, -, hfinal⟩ := run_merge_save { service with
    cancelEvent := (process.adopt service.store).cancelAll.cancelEvent &&
      !(process.adopt service.store).cancelAll.ended
    process := some (options, (process.adopt service.store).cancelAll) } rfl rfl
  refine ⟨final, _, Transition.run_cons_eq_some.mpr ⟨_, hcancel, hrun⟩, hfinal, rfl, ?_⟩
  exact TaskRecord.mergeExternal_state _ _

/-- So does a run that has announced itself. -/
theorem cancels_at_start (service : Service Json) {options : RunOptions}
    {process : RunProcess Json} (hprocess : service.process = some (options, process))
    (hphase : process.phase = .mergeLoad .started) (hready : Ready process.record.units)
    (hopen : ¬AllFinished process.record.units)
    (hrequested : process.cancelEvent = true ∨ service.store.cancelRequested = true) :
    ∃ final returned, Transition.run step service (List.replicate 5 (.step {})) = some final ∧
      final.process = some (options, returned) ∧ returned.phase = .returned ∧
      returned.record.state = .cancelled := by
  obtain ⟨started, hstarted, hstore, hstartedProcess⟩ := run_merge_save service hprocess hphase
  obtain ⟨final, returned, hrun, hfinal⟩ := cancels_at_loopTop started hstartedProcess rfl
    (by simpa [RunProcess.resumeAfter] using exists_queued_of_ready hready hopen) (by
      rcases hrequested with hevent | hflag
      · exact .inl hevent
      · refine .inr (.inr ?_)
        simp [hstore, hflag])
  exact ⟨final, returned, Transition.run_append_eq_some.mpr ⟨started, hstarted, hrun⟩, hfinal⟩

/-- The resume's own first save, and what it leaves a request to meet. -/
theorem resume_ready {store : TaskRecord Json} (hsound : store.Sound)
    (hopen : ¬AllFinished store.units) :
    Ready store.prepareResume.units ∧ ¬AllFinished store.prepareResume.units := by
  constructor
  · intro unit hmem
    obtain ⟨old, hold, rfl⟩ := List.mem_map.mp hmem
    exact requeueUnit_ready (hsound.unpaused old hold)
  · intro hall
    apply hopen
    intro unit hmem
    by_contra hunit
    rw [Bool.not_eq_true] at hunit
    have hfinished := hall (TaskRecord.requeueUnit unit) (List.mem_map_of_mem hmem)
    rw [requeueUnit_queued (hsound.unpaused unit hmem) hunit] at hfinished
    cases hfinished

/-- The first save of a resume. -/
theorem step_resumeSave (service : Service Json) {options : RunOptions}
    {process : RunProcess Json} (hprocess : service.process = some (options, process))
    (hphase : process.phase = .resumeSave) :
    service.step (.step {}) = some { service with
      store := process.record
      cancelEvent := process.announceStart.cancelEvent && !process.announceStart.ended
      process := some (options, process.announceStart) } := by
  have hsave : process.step options {} (some service.store) =
      some (process.announceStart, some process.record) := by
    simp [RunProcess.step, hphase]
  exact step_of_process hprocess hsave

theorem cancels_of_latched (service : Service Json) {options : RunOptions}
    {process : RunProcess Json} (hprocess : service.process = some (options, process))
    (hphase : process.phase = .resumeSave) (hevent : process.cancelEvent = true)
    (hready : Ready process.record.units) (hopen : ¬AllFinished process.record.units) :
    ∃ final returned, Transition.run step service (List.replicate 6 (.step {})) = some final ∧
      final.process = some (options, returned) ∧ returned.phase = .returned ∧
      returned.record.state = .cancelled := by
  have hsaved := step_resumeSave service hprocess hphase
  have hannounced : process.announceStart.cancelEvent = true := by
    simp [RunProcess.announceStart, hevent]
  obtain ⟨final, returned, hrun, hfinal⟩ :=
    cancels_at_start { service with
      store := process.record
      cancelEvent := process.announceStart.cancelEvent && !process.announceStart.ended
      process := some (options, process.announceStart) } rfl rfl hready hopen (.inl hannounced)
  exact ⟨final, returned, Transition.run_cons_eq_some.mpr ⟨_, hsaved, hrun⟩, hfinal⟩

/-- A resume before its first save. -/
def resuming (record : TaskRecord Json) (cancelEvent : Bool) : RunProcess Json :=
  { record := record.prepareResume, cancelEvent := cancelEvent, phase := .resumeSave }

/-- With a request left anywhere in the instance, some continuation cancels. -/
theorem resume_cancels {service : Service Json} (hsound : service.Sound)
    (hopen : ¬AllFinished service.store.units) {options : RunOptions}
    (hresume : options.resume = true) {process : RunProcess Json}
    (hbegin : RunProcess.begin options service.cancelEvent (some service.store) = .ok process)
    (hleft : service.cancelEvent = true ∨
      ∃ request, (service.requests request).underWay = true) :
    ∃ (continuation : List (Call Json)) (final : Service Json) (returned : RunProcess Json),
      (∀ call ∈ continuation, call.goesOn = true) ∧
      Transition.run step
        { service with cancelEvent := process.cancelEvent, process := some (options, process) }
        continuation = some final ∧
      final.process = some (options, returned) ∧ returned.phase = .returned ∧
      returned.record.state = .cancelled := by
  obtain ⟨hready, hunfinished⟩ := resume_ready hsound.store hopen
  have hsteps : ∀ count, ∀ call ∈ List.replicate count (.step {} : Call Json),
      call.goesOn = true := by
    intro count call hmem
    rw [List.eq_of_mem_replicate hmem]
    rfl
  rcases RunProcess.begin_ok hbegin with ⟨-, rfl⟩ | ⟨hnot, -⟩
  · rcases hleft with hevent | ⟨request, hrequest⟩
    · obtain ⟨final, returned, hrun, hfinal⟩ :=
        cancels_of_latched { service with
          process := some (options, resuming service.store service.cancelEvent) }
          rfl rfl hevent hready hunfinished
      exact ⟨_, final, returned, hsteps 6, hrun, hfinal⟩
    · cases hcall : service.requests request with
      | idle => simp [hcall, CancelCall.underWay] at hrequest
      | returned => simp [hcall, CancelCall.underWay] at hrequest
      | loaded copy =>
          have hlatch : Service.step { service with
              process := some (options, resuming service.store service.cancelEvent) }
              (.latch request) =
              some { service.setRequest request (.latched copy) with
                cancelEvent := true
                process := some (options, resuming service.store true) } := by
            simp [step, hcall, setRequest, RunProcess.ended, resuming]
          obtain ⟨final, returned, hrun, hfinal⟩ :=
            cancels_of_latched { service.setRequest request (.latched copy) with
              cancelEvent := true
              process := some (options, resuming service.store true) }
              rfl rfl rfl hready hunfinished
          exact ⟨.latch request :: List.replicate 6 (.step {}), final, returned,
            List.forall_mem_cons.mpr ⟨rfl, hsteps 6⟩,
            Transition.run_cons_eq_some.mpr ⟨_, hlatch, hrun⟩, hfinal⟩
      | latched copy =>
          -- the canceller saves after the resume has cleared the stored flag
          let cleared : Service Json := { service with
            store := service.store.prepareResume
            cancelEvent := (resuming service.store service.cancelEvent).announceStart.cancelEvent
            process := some (options,
              (resuming service.store service.cancelEvent).announceStart) }
          have hclear : Service.step { service with
              process := some (options, resuming service.store service.cancelEvent) }
              (.step {}) = some cleared := by
            rw [step_resumeSave _ rfl rfl]
            simp [cleared, RunProcess.ended, RunProcess.announceStart, resuming]
          have hsave : cleared.step (.save request) =
              some { cleared.setRequest request .returned with store := copy } := by
            simp [step, cleared, hcall]
          obtain ⟨final, returned, hrun, hfinal⟩ :=
            cancels_at_start { cleared.setRequest request .returned with store := copy }
              rfl rfl hready hunfinished (.inr (hsound.latched request copy hcall).2)
          refine ⟨.step {} :: .save request :: List.replicate 5 (.step {}), final, returned, ?_,
            ?_, hfinal⟩
          · exact List.forall_mem_cons.mpr ⟨rfl, List.forall_mem_cons.mpr ⟨rfl, hsteps 5⟩⟩
          · exact Transition.run_cons_eq_some.mpr
              ⟨_, hclear, Transition.run_cons_eq_some.mpr ⟨_, hsave, hrun⟩⟩
  · rw [hresume] at hnot
    cases hnot

end Service

/-- A resume clears every earlier cancellation exactly when the instance holds
no set cancel event and no request is still under way, or no unit is open. -/
theorem resume_honoured_iff {record : TaskRecord Json} (hcreated : Created record)
    {service : Service Json}
    (hreach : Transition.Reachable Service.step (Service.start record) service)
    {options : RunOptions} (hresume : options.resume = true) {started : Service Json}
    (hstart : service.step (.run options) = some started) :
    started.ResumeHonoured service.store.units ↔
      (service.cancelEvent = false ∧
        ∀ request, (service.requests request).underWay = false) ∨
        AllFinished service.store.units := by
  have hsound : service.Sound :=
    Service.sound_preserved.reachable (Service.sound_start hcreated) hreach
  cases Service.step_move hstart with
  | run _ process hidle hbegin =>
      constructor
      · intro hhonoured
        by_contra hleft
        simp only [not_or, not_and_or, Bool.not_eq_false, not_forall] at hleft
        obtain ⟨continuation, final, returned, hgoesOn, hrun, hfinal, hphase, hstate⟩ :=
          Service.resume_cancels hsound hleft.2 hresume hbegin hleft.1
        exact (hhonoured continuation final options returned hgoesOn hrun hfinal hphase).1 hstate
      · intro hclear
        exact (Service.resumed_start hsound hclear hresume hbegin).honoured

/-- A request that a running call has consumed does not reach the resume. -/
theorem resume_honoured_after_run :
    ∃ service started,
      Transition.run Service.step (Service.start singleRecord)
        (.run singleOptions :: .load 0 :: .latch 0 :: .save 0 ::
          List.replicate 5 (.step {})) = some service ∧
      service.store.state = .cancelled ∧
      service.step (.run { singleOptions with resume := true }) = some started ∧
      started.ResumeHonoured service.store.units := by
  have hhistory : ∃ service started,
      Transition.run Service.step (Service.start singleRecord)
        (.run singleOptions :: .load 0 :: .latch 0 :: .save 0 ::
          List.replicate 5 (.step {})) = some service ∧
      service.store.state = .cancelled ∧
      service.step (.run { singleOptions with resume := true }) = some started ∧
      service.cancelEvent = false ∧
      ∀ request, (service.requests request).underWay = false := by
    refine ⟨_, _, rfl, rfl, rfl, rfl, fun request => ?_⟩
    cases request <;> rfl
  obtain ⟨service, started, hservice, hstate, hstarted, hquiet⟩ := hhistory
  refine ⟨service, started, hservice, hstate, hstarted, ?_⟩
  exact (resume_honoured_iff singleRecord_created ⟨_, hservice⟩ rfl hstarted).mpr (.inl hquiet)

/-- A request on the idle task sets the event of the instance; the deliberate
resume that follows is cancelled before it dispatches the unit. -/
theorem resume_not_honoured :
    ∃ service started,
      Transition.run Service.step (Service.start singleRecord) [.load 0, .latch 0, .save 0] =
        some service ∧
      service.step (.run { singleOptions with resume := true }) = some started ∧
      ¬started.ResumeHonoured service.store.units := by
  have hruns : ∃ service started final options process,
      Transition.run Service.step (Service.start singleRecord) [.load 0, .latch 0, .save 0] =
        some service ∧
      service.step (.run { singleOptions with resume := true }) = some started ∧
      Transition.run Service.step started (List.replicate 6 (.step {})) = some final ∧
      final.process = some (options, process) ∧ process.phase = .returned ∧
      process.record.state = .cancelled := ⟨_, _, _, _, _, rfl, rfl, rfl, rfl, rfl, rfl⟩
  obtain ⟨service, started, final, options, process, hservice, hstarted, hrun, hfinal, hphase,
    hstate⟩ := hruns
  refine ⟨service, started, hservice, hstarted, fun hhonoured => ?_⟩
  refine (hhonoured _ final options process ?_ hrun hfinal hphase).1 hstate
  intro call hmem
  rw [List.eq_of_mem_replicate hmem]
  rfl

end AlgorithmHarness.TaskService
