import AlgorithmHarness.Core.Sequence
import AlgorithmHarness.TaskService.Classification

/-!
# The event history of a record

Every writer numbers its events from its own copy and replaces the whole
record, so the stored histories extend each other only as long as each save
replaces the history its writer last synchronised with.  `Monitored` adds the
history the statement is about: which events have been saved, and what the run
has appended since its last synchronisation.
-/

namespace AlgorithmHarness.TaskService

variable {Json : Type}

/-- `events_since`, on the record it loads. -/
def eventsSince (record : TaskRecord Json) (sequence : ℕ) : List TaskEvent :=
  record.events.filter fun event => sequence < event.sequence

namespace TaskRecord

/-- The sequence numbers of the history are exactly 1 to its length. -/
def Numbered (record : TaskRecord Json) : Prop :=
  Sequence.Numbered TaskEvent.sequence record.events

variable {record persisted : TaskRecord Json}

theorem appendEvent_events (record : TaskRecord Json) (kind : EventKind)
    (unit : Option (TaskUnit Json)) (message : Option String) :
    ∃ event, (record.appendEvent kind unit message).events = record.events ++ [event] :=
  ⟨_, rfl⟩

theorem events_prefix_appendEvent (record : TaskRecord Json) (kind : EventKind)
    (unit : Option (TaskUnit Json)) (message : Option String) :
    record.events <+: (record.appendEvent kind unit message).events :=
  List.prefix_append _ _

theorem Numbered.appendEvent (hnumbered : record.Numbered) (kind : EventKind)
    (unit : Option (TaskUnit Json)) (message : Option String) :
    (record.appendEvent kind unit message).Numbered :=
  Sequence.Numbered.concat hnumbered rfl

theorem Numbered.adoptEvents (hnumbered : record.Numbered) (hpersisted : persisted.Numbered) :
    (record.adoptEvents persisted).Numbered := by
  unfold TaskRecord.adoptEvents
  split
  · exact hpersisted
  · exact hnumbered

theorem Numbered.mergeExternal (hnumbered : record.Numbered) (hpersisted : persisted.Numbered) :
    (record.mergeExternal (some persisted)).Numbered :=
  hnumbered.adoptEvents hpersisted

theorem foldl_markCancelled_events (uncertain : Bool) (message : String) (positions : List ℕ)
    (record : TaskRecord Json) :
    record.events <+: (positions.foldl (markCancelled uncertain message) record).events := by
  induction positions generalizing record with
  | nil => exact List.prefix_rfl
  | cons head tail ih =>
      have hmarked : record.events <+: (markCancelled uncertain message record head).events :=
        List.prefix_append _ _
      exact hmarked.trans (ih _)

theorem Numbered.foldl_markCancelled (hnumbered : record.Numbered) (uncertain : Bool)
    (message : String) (positions : List ℕ) :
    (positions.foldl (markCancelled uncertain message) record).Numbered := by
  induction positions generalizing record with
  | nil => exact hnumbered
  | cons head tail ih =>
      refine ih ?_
      have hset : (record.setUnit head fun unit =>
          { unit with status := .cancelled, uncertain := uncertain }).Numbered := hnumbered
      exact hset.appendEvent _ _ _

end TaskRecord

/-- A copy that is not ahead of the file has the file's history after the merge. -/
theorem TaskRecord.adoptEvents_events {record persisted : TaskRecord Json}
    (hextends : record.events <+: persisted.events) :
    (record.adoptEvents persisted).events = persisted.events := by
  unfold adoptEvents
  split
  · rfl
  · next hlonger => exact hextends.eq_of_length_le (Nat.le_of_not_lt hlonger)

/-- A client that polls with the last number it has seen misses no event, as
long as what it has seen is a prefix of the history. -/
theorem seen_append_eventsSince {record : TaskRecord Json} (hnumbered : record.Numbered)
    {seen : List TaskEvent} (hextends : seen <+: record.events) :
    seen ++ eventsSince record seen.length = record.events :=
  hnumbered.seen_append_filter hextends

namespace RunProcess

/-- The history of the copy after the load at the top of the dispatch loop. -/
def atLoopTop (process : RunProcess Json) (stored : TaskRecord Json) : List TaskEvent :=
  if process.queue.isEmpty && process.pending.isEmpty then process.record.events
  else (process.record.adoptEvents stored).events

theorem atLoopTop_of_busy {process : RunProcess Json} {stored : TaskRecord Json}
    (hbusy : process.queue ≠ [] ∨ process.pending ≠ []) :
    process.atLoopTop stored = (process.record.adoptEvents stored).events := by
  rcases hbusy with hqueue | hpending
  · simp [atLoopTop, hqueue]
  · simp [atLoopTop, hpending]

theorem cancelAll_events (process : RunProcess Json) :
    ∃ marks event, process.cancelAll.record.events =
      process.record.events ++ (marks ++ [event]) := by
  have hqueue := TaskRecord.foldl_markCancelled_events false "Not dispatched" process.queue
    { process.record with cancelRequested := true }
  have hpending := TaskRecord.foldl_markCancelled_events true "In-flight request uncertain"
    process.pending (process.queue.foldl (TaskRecord.markCancelled false "Not dispatched")
      { process.record with cancelRequested := true })
  obtain ⟨marks, hmarks⟩ := hqueue.trans hpending
  obtain ⟨event, hevent⟩ : ∃ event, process.cancelAll.record.events =
      (process.pending.foldl (TaskRecord.markCancelled true "In-flight request uncertain")
        (process.queue.foldl (TaskRecord.markCancelled false "Not dispatched")
          { process.record with cancelRequested := true })).events ++ [event] := ⟨_, rfl⟩
  refine ⟨marks, event, ?_⟩
  rw [hevent, ← hmarks, List.append_assoc]

theorem recordOutcome_events (record : TaskRecord Json) (unit : ℕ) (outcome : Outcome Json) :
    ∃ event, (recordOutcome record unit outcome).events = record.events ++ [event] := by
  cases outcome <;> exact ⟨_, rfl⟩

theorem recordOutcome_numbered {record : TaskRecord Json} (hnumbered : record.Numbered)
    (unit : ℕ) (outcome : Outcome Json) : (recordOutcome record unit outcome).Numbered := by
  cases outcome <;> exact Sequence.Numbered.concat hnumbered rfl

/-- No step of `run` breaks the numbering of its copy. -/
theorem Move.numbered {options : RunOptions} {choice : Choice Json} {stored : TaskRecord Json}
    {written : Option (TaskRecord Json)} {process next : RunProcess Json}
    (hprocess : process.record.Numbered) (hstored : stored.Numbered)
    (hmove : process.Move options choice (some stored) next written) :
    next.record.Numbered := by
  cases hmove with
  | clearLatch => exact Sequence.Numbered.concat hprocess rfl
  | merge => exact hprocess.mergeExternal hstored
  | save after =>
      cases after with
      | unitFinished unit rest => cases hcallback : choice.callback <;> exact hprocess
      | _ => exact hprocess
  | finish => exact Sequence.Numbered.concat hprocess rfl
  | cancel hphase hbusy persisted hpersisted =>
      cases hpersisted
      have hadopted := hprocess.adoptEvents hstored
      have hlatched : ({ process.record.adoptEvents stored with
          cancelRequested := true } : TaskRecord Json).Numbered := hadopted
      exact Sequence.Numbered.concat ((hlatched.foldl_markCancelled false "Not dispatched"
        process.queue).foldl_markCancelled true "In-flight request uncertain" process.pending) rfl
  | pause hphase hqueue hpending persisted hpersisted =>
      cases hpersisted
      exact Sequence.Numbered.concat (hprocess.adoptEvents hstored) rfl
  | enter hphase hbusy persisted hpersisted =>
      cases hpersisted
      exact hprocess.adoptEvents hstored
  | dispatch => exact Sequence.Numbered.concat hprocess rfl
  | complete unit outcome => exact recordOutcome_numbered hprocess unit outcome
  | _ => exact hprocess

end RunProcess

namespace System

/-- Every copy of the record is numbered. -/
structure Numbered (system : System Json) : Prop where
  store : system.store.Numbered
  process : ∀ process, system.process = some process → process.record.Numbered
  writers : ∀ writer record, system.writers writer = .loaded record → record.Numbered

theorem numbered_preserved (options : RunOptions) :
    Transition.Preserved (step options) fun system : System Json => system.Numbered := by
  intro system label next hnumbered hstep
  cases step_move hstep with
  | begin latched process hprocess hbegin =>
      refine ⟨hnumbered.store, ?_, hnumbered.writers⟩
      rintro process ⟨⟩
      rcases RunProcess.begin_ok hbegin with ⟨-, rfl⟩ | ⟨-, -, rfl⟩
      · exact hnumbered.store
      · exact Sequence.Numbered.concat hnumbered.store rfl
  | step choice process moved written hprocess hmove =>
      refine ⟨?_, ?_, hnumbered.writers⟩
      · cases written with
        | none => exact hnumbered.store
        | some record =>
            obtain rfl := hmove.written_eq
            exact hnumbered.process process hprocess
      · rintro process ⟨⟩
        exact hmove.numbered (hnumbered.process _ hprocess) hnumbered.store
  | signal process hprocess =>
      refine ⟨hnumbered.store, ?_, hnumbered.writers⟩
      rintro next ⟨⟩
      exact hnumbered.process process hprocess
  | load writer request hidle =>
      refine ⟨hnumbered.store, hnumbered.process, ?_⟩
      intro other record hloaded
      rcases setWriter_loaded hloaded with ⟨-, hvalue⟩ | ⟨-, hother⟩
      · obtain ⟨event, hevents, hsequence⟩ := Request.onLoaded_events hvalue
        change Sequence.Numbered _ record.events
        rw [hevents]
        exact Sequence.Numbered.concat hnumbered.store hsequence
      · exact hnumbered.writers other record hother
  | save writer record hloaded =>
      refine ⟨hnumbered.writers writer record hloaded, hnumbered.process, ?_⟩
      intro other kept hkept
      rcases setWriter_loaded hkept with ⟨-, hvalue⟩ | ⟨-, hother⟩
      · cases hvalue
      · exact hnumbered.writers other kept hother

theorem numbered_start {record : TaskRecord Json} (hnumbered : record.Numbered) :
    (start record).Numbered :=
  ⟨hnumbered, by rintro process ⟨⟩, by rintro writer record ⟨⟩⟩

end System

theorem ServiceRecord.numbered {record : TaskRecord Json} (hrecord : ServiceRecord record) :
    record.Numbered := by
  induction hrecord with
  | created hcreated =>
      obtain ⟨runId, units, configFingerprint, datasetFingerprint, hcreate, -⟩ := hcreated
      cases hcreate
      rfl
  | written hrecord options schedule system hrun ih =>
      exact ((System.numbered_preserved options).run (System.numbered_start ih) hrun).store

/-! ## A monitored run -/

/-- The system with the events that have been saved and, for the run, the
history it last synchronised its copy with and what it has appended since. -/
structure Monitored (Json : Type) where
  system : System Json
  published : List TaskEvent := []
  base : List TaskEvent := []
  unsaved : List TaskEvent := []

namespace Monitored

def start (record : TaskRecord Json) : Monitored Json := { system := System.start record }

/-- The bookkeeping for one step of the run: a save publishes what was unsaved,
and saves and the load at the top of the loop synchronise the copy. -/
def afterStep (monitored : Monitored Json) (process next : RunProcess Json)
    (system : System Json) : Monitored Json :=
  let appended := next.record.events.drop process.record.events.length
  match process.phase with
  | .mergeLoad _ => { monitored with system := system }
  | .resumeSave | .mergeSave _ =>
      { system := system
        published := monitored.published ++ monitored.unsaved
        base := process.record.events
        unsaved := appended }
  | .loopTop =>
      let adopted := process.atLoopTop monitored.system.store
      { monitored with
        system := system
        base := adopted
        unsaved := monitored.unsaved ++ next.record.events.drop adopted.length }
  | _ => { monitored with system := system, unsaved := monitored.unsaved ++ appended }

def step (options : RunOptions) (monitored : Monitored Json) (label : Label Json) :
    Option (Monitored Json) :=
  (monitored.system.step options label).map fun system =>
    match label with
    | .begin _ =>
        let base := monitored.system.store.events
        let events := (system.process.map fun process => process.record.events).getD base
        { monitored with system := system, base := base, unsaved := events.drop base.length }
    | .step _ =>
        match monitored.system.process, system.process with
        | some process, some next => monitored.afterStep process next system
        | _, _ => { monitored with system := system }
    | .save writer =>
        match monitored.system.writers writer with
        | .loaded record =>
            { monitored with
              system := system
              published := monitored.published ++ record.events.getLast?.toList }
        | .idle | .returned => { monitored with system := system }
    | .signal | .load _ _ => { monitored with system := system }

/-- The condition on the steps of a schedule: a save replaces the history its
writer last synchronised its copy with. -/
def Fresh (monitored : Monitored Json) : Label Json → Prop
  | .step _ => ∀ process, monitored.system.process = some process →
      (process.phase = .resumeSave ∨ ∃ next, process.phase = .mergeSave next) →
        monitored.base = monitored.system.store.events
  | .save writer => ∀ record, monitored.system.writers writer = .loaded record →
      record.events.dropLast = monitored.system.store.events
  | .begin _ | .signal | .load _ _ => True

/-- At any two moments of the schedule the later history is numbered, extends
the earlier one and consists of the initial events and of every saved event
exactly once. -/
def HistoryKept (options : RunOptions) (record : TaskRecord Json)
    (schedule : List (Label Json)) : Prop :=
  ∀ (first second rest : List (Label Json)) (middle final : Monitored Json),
    schedule = first ++ second ++ rest →
    Transition.run (step options) (start record) first = some middle →
    Transition.run (step options) middle second = some final →
      final.system.store.Numbered ∧
      middle.system.store.events <+: final.system.store.events ∧
      (record.events ++ final.published).Perm final.system.store.events

/-- How the copy of the run relates to its last synchronisation. -/
def Local (monitored : Monitored Json) (process : RunProcess Json) : Prop :=
  match process.phase with
  | .mergeLoad _ =>
      process.record.events = monitored.base ++ monitored.unsaved ∧ monitored.unsaved ≠ []
  | .mergeSave _ => monitored.unsaved ≠ [] ∧
      (process.record.events = monitored.base ++ monitored.unsaved ∨
        (monitored.base.length < monitored.system.store.events.length ∧
          process.record.events.length ≤ monitored.system.store.events.length))
  | .returned | .raised _ => True
  | _ => process.record.events = monitored.base ∧ monitored.unsaved = []

structure Invariant (initial : TaskRecord Json) (monitored : Monitored Json) : Prop where
  store : monitored.system.store.events = initial.events ++ monitored.published
  base : monitored.base <+: monitored.system.store.events
  process : ∀ process, monitored.system.process = some process → monitored.Local process
  writers : ∀ writer record, monitored.system.writers writer = .loaded record →
    ∃ loaded event, record.events = loaded ++ [event] ∧
      loaded <+: monitored.system.store.events

theorem Local.grow {monitored other : Monitored Json} {process : RunProcess Json}
    (hlocal : monitored.Local process) (hbase : other.base = monitored.base)
    (hunsaved : other.unsaved = monitored.unsaved)
    (hgrown : monitored.system.store.events.length ≤ other.system.store.events.length) :
    other.Local process := by
  unfold Local at hlocal ⊢
  rw [hbase, hunsaved]
  split at hlocal
  · exact hlocal
  · refine ⟨hlocal.1, hlocal.2.imp_right fun hbehind => ?_⟩
    exact ⟨Nat.lt_of_lt_of_le hbehind.1 hgrown, Nat.le_trans hbehind.2 hgrown⟩
  · trivial
  · trivial
  · exact hlocal

/-- A step that leaves the file alone. -/
theorem Invariant.quiet {initial : TaskRecord Json} {monitored other : Monitored Json}
    (hinvariant : monitored.Invariant initial)
    (hstore : other.system.store = monitored.system.store)
    (hwriters : other.system.writers = monitored.system.writers)
    (hpublished : other.published = monitored.published)
    (hbase : other.base <+: monitored.system.store.events)
    (hprocess : ∀ process, other.system.process = some process → other.Local process) :
    other.Invariant initial := by
  refine ⟨?_, ?_, hprocess, ?_⟩
  · rw [hstore, hpublished]
    exact hinvariant.store
  · rw [hstore]
    exact hbase
  · rw [hstore, hwriters]
    exact hinvariant.writers

/-- What the load at the top of the loop leaves the run with. -/
theorem Invariant.adopted_events {initial : TaskRecord Json} {monitored : Monitored Json}
    {process : RunProcess Json} (hinvariant : monitored.Invariant initial)
    (hprocess : monitored.system.process = some process) (hphase : process.phase = .loopTop) :
    (process.record.adoptEvents monitored.system.store).events =
      monitored.system.store.events := by
  have hlocal := hinvariant.process process hprocess
  simp only [Local, hphase] at hlocal
  apply TaskRecord.adoptEvents_events
  rw [hlocal.1]
  exact hinvariant.base

/-- A save of the run under the condition. -/
theorem Invariant.publish {initial : TaskRecord Json} {monitored other : Monitored Json}
    {process : RunProcess Json} (hinvariant : monitored.Invariant initial)
    (hfresh : monitored.base = monitored.system.store.events)
    (hevents : process.record.events = monitored.base ++ monitored.unsaved)
    (hstore : other.system.store = process.record)
    (hwriters : other.system.writers = monitored.system.writers)
    (hpublished : other.published = monitored.published ++ monitored.unsaved)
    (hbase : other.base = process.record.events)
    (hlocal : ∀ process, other.system.process = some process → other.Local process) :
    other.Invariant initial := by
  refine ⟨?_, ?_, hlocal, ?_⟩
  · rw [hstore, hpublished, hevents, hfresh, hinvariant.store, List.append_assoc]
  · simp only [hstore, hbase, List.prefix_rfl]
  · intro writer record hloaded
    rw [hwriters] at hloaded
    obtain ⟨loaded, event, hrecord, hextends⟩ := hinvariant.writers writer record hloaded
    refine ⟨loaded, event, hrecord, ?_⟩
    rw [hstore, hevents, hfresh]
    exact hextends.trans (List.prefix_append _ _)

/-- One step of the run under the condition. -/
theorem Invariant.move {initial : TaskRecord Json} {monitored : Monitored Json}
    {options : RunOptions} {choice : Choice Json} {process next : RunProcess Json}
    {written : Option (TaskRecord Json)} {system : System Json}
    (hinvariant : monitored.Invariant initial)
    (hprocess : monitored.system.process = some process)
    (hfresh : (process.phase = .resumeSave ∨ ∃ next, process.phase = .mergeSave next) →
      monitored.base = monitored.system.store.events)
    (hmove : process.Move options choice (some monitored.system.store) next written)
    (hsystem : system = { monitored.system with
      process := some next, store := written.getD monitored.system.store }) :
    (monitored.afterStep process next system).Invariant initial := by
  subst hsystem
  have hlocal := hinvariant.process process hprocess
  cases hmove with
  | clearLatch hphase =>
      simp only [Local, hphase] at hlocal
      obtain ⟨hevents, hunsaved⟩ := hlocal
      simp only [afterStep, hphase]
      refine hinvariant.publish (hfresh (.inl hphase)) ?_ rfl rfl rfl rfl ?_
      · rw [hevents, hunsaved, List.append_nil]
      · rintro next ⟨⟩
        simp [Local, RunProcess.announceStart, TaskRecord.appendEvent]
  | merge after hphase =>
      simp only [Local, hphase] at hlocal
      obtain ⟨hevents, hunsaved⟩ := hlocal
      simp only [afterStep, hphase]
      refine hinvariant.quiet rfl rfl rfl hinvariant.base ?_
      rintro next ⟨⟩
      refine ⟨hunsaved, ?_⟩
      by_cases hlonger : process.record.events.length < monitored.system.store.events.length
      · refine .inr ⟨?_, ?_⟩
        · rw [hevents, List.length_append] at hlonger
          exact Nat.lt_of_le_of_lt (Nat.le_add_right _ _) hlonger
        · simp [TaskRecord.mergeExternal, TaskRecord.adoptEvents, hlonger]
      · refine .inl ?_
        simpa [TaskRecord.mergeExternal, TaskRecord.adoptEvents, hlonger] using hevents
  | save after hphase =>
      simp only [Local, hphase] at hlocal
      obtain ⟨hunsaved, hevents⟩ := hlocal
      have hbase := hfresh (.inr ⟨after, hphase⟩)
      have hown : process.record.events = monitored.base ++ monitored.unsaved := by
        refine hevents.resolve_right fun hbehind => ?_
        rw [hbase] at hbehind
        exact Nat.lt_irrefl _ hbehind.1
      simp only [afterStep, hphase]
      refine hinvariant.publish hbase hown rfl rfl rfl rfl ?_
      rintro next ⟨⟩
      cases after with
      | unitFinished unit rest =>
          cases hcallback : choice.callback with
          | none => exact ⟨rfl, by simp [RunProcess.resumeAfter]⟩
          | some error => trivial
      | started => exact ⟨rfl, by simp [RunProcess.resumeAfter]⟩
      | dispatched unit => exact ⟨rfl, by simp [RunProcess.resumeAfter]⟩
      | _ => trivial
  | finish hphase hqueue hpending =>
      simp only [Local, hphase] at hlocal
      obtain ⟨hevents, hunsaved⟩ := hlocal
      have hadopted : process.atLoopTop monitored.system.store = process.record.events := by
        simp [RunProcess.atLoopTop, hqueue, hpending]
      simp only [afterStep, hphase, hadopted]
      refine hinvariant.quiet rfl rfl rfl (by simpa [hevents] using hinvariant.base) ?_
      rintro next ⟨⟩
      simp [Local, RunProcess.finish, TaskRecord.appendEvent, hunsaved]
  | cancel hphase hbusy persisted hpersisted =>
      cases hpersisted
      have hadopted := hinvariant.adopted_events hprocess hphase
      simp only [Local, hphase] at hlocal
      obtain ⟨marks, event, hevents⟩ :=
        RunProcess.cancelAll_events (process.adopt monitored.system.store)
      simp only [afterStep, hphase, RunProcess.atLoopTop_of_busy hbusy]
      refine hinvariant.quiet rfl rfl rfl (by simp only [hadopted, List.prefix_rfl]) ?_
      rintro next ⟨⟩
      change _ = _ ∧ _
      rw [hevents]
      simp [RunProcess.adopt, hlocal.2]
  | pause hphase hqueue hpending persisted hpersisted =>
      cases hpersisted
      have hadopted := hinvariant.adopted_events hprocess hphase
      simp only [Local, hphase] at hlocal
      simp only [afterStep, hphase, RunProcess.atLoopTop_of_busy (.inl hqueue)]
      refine hinvariant.quiet rfl rfl rfl (by simp only [hadopted, List.prefix_rfl]) ?_
      rintro next ⟨⟩
      simp [Local, RunProcess.pause, RunProcess.adopt, TaskRecord.appendEvent, hlocal.2]
  | enter hphase hbusy persisted hpersisted =>
      cases hpersisted
      have hadopted := hinvariant.adopted_events hprocess hphase
      simp only [Local, hphase] at hlocal
      simp only [afterStep, hphase, RunProcess.atLoopTop_of_busy hbusy]
      refine hinvariant.quiet rfl rfl rfl (by simp only [hadopted, List.prefix_rfl]) ?_
      rintro next ⟨⟩
      simp [Local, RunProcess.adopt, hlocal.2]
  | raise hphase error =>
      rcases hphase with hphase | hphase
      · simp only [afterStep, hphase]
        refine hinvariant.quiet rfl rfl rfl ?_ (by rintro next ⟨⟩; trivial)
        simp only [Local, hphase] at hlocal
        unfold RunProcess.atLoopTop
        split
        · rw [hlocal.1]
          exact hinvariant.base
        · simp only [hinvariant.adopted_events hprocess hphase, List.prefix_rfl]
      · simp only [afterStep, hphase]
        exact hinvariant.quiet rfl rfl rfl hinvariant.base (by rintro next ⟨⟩; trivial)
  | dispatch hphase unit queue =>
      simp only [Local, hphase] at hlocal
      simp only [afterStep, hphase]
      refine hinvariant.quiet rfl rfl rfl hinvariant.base ?_
      rintro next ⟨⟩
      simp [Local, RunProcess.dispatch, TaskRecord.appendEvent, hlocal]
  | complete unit outcome rest hphase =>
      simp only [Local, hphase] at hlocal
      obtain ⟨event, hevents⟩ := RunProcess.recordOutcome_events process.record unit outcome
      simp only [afterStep, hphase]
      refine hinvariant.quiet rfl rfl rfl hinvariant.base ?_
      rintro next ⟨⟩
      simp [Local, RunProcess.complete, hevents, hlocal]
  | hold pauseRequested hphase | idle hphase | collect hphase | collected hphase =>
      simp only [Local, hphase] at hlocal
      simp only [afterStep, hphase]
      refine hinvariant.quiet rfl rfl rfl hinvariant.base ?_
      rintro next ⟨⟩
      simp [Local, hlocal]

theorem afterStep_system (monitored : Monitored Json) (process next : RunProcess Json)
    (system : System Json) : (monitored.afterStep process next system).system = system := by
  unfold afterStep
  split <;> rfl

theorem published_afterStep (monitored : Monitored Json) (process next : RunProcess Json)
    (system : System Json) :
    monitored.published <+: (monitored.afterStep process next system).published := by
  unfold afterStep
  split <;> first | exact List.prefix_rfl | exact List.prefix_append _ _

/-- A step of the monitored system is a step of the system. -/
theorem step_system {options : RunOptions} {monitored next : Monitored Json}
    {label : Label Json} (hstep : monitored.step options label = some next) :
    monitored.system.step options label = some next.system ∧
      monitored.published <+: next.published := by
  obtain ⟨system, hsystem, rfl⟩ := Option.map_eq_some_iff.mp hstep
  rw [hsystem]
  cases label with
  | begin latched => exact ⟨rfl, List.prefix_rfl⟩
  | signal => exact ⟨rfl, List.prefix_rfl⟩
  | load writer request => exact ⟨rfl, List.prefix_rfl⟩
  | save writer =>
      dsimp only
      split
      · exact ⟨rfl, List.prefix_append _ _⟩
      · exact ⟨rfl, List.prefix_rfl⟩
      · exact ⟨rfl, List.prefix_rfl⟩
  | step choice =>
      dsimp only
      split
      · exact ⟨by rw [afterStep_system], published_afterStep _ _ _ _⟩
      · exact ⟨rfl, List.prefix_rfl⟩

theorem numbered_preserved (options : RunOptions) :
    Transition.Preserved (step options) fun monitored : Monitored Json =>
      monitored.system.Numbered :=
  fun _ _ _ hnumbered hstep =>
    System.numbered_preserved options _ _ _ hnumbered (step_system hstep).1

theorem invariant_step {initial : TaskRecord Json} {options : RunOptions}
    {monitored next : Monitored Json} {label : Label Json}
    (hinvariant : monitored.Invariant initial) (hfresh : monitored.Fresh label)
    (hstep : monitored.step options label = some next) : next.Invariant initial := by
  obtain ⟨system, hsystem, rfl⟩ := Option.map_eq_some_iff.mp hstep
  cases System.step_move hsystem with
  | begin latched process hprocess hbegin =>
      refine hinvariant.quiet rfl rfl rfl List.prefix_rfl ?_
      rintro process ⟨⟩
      rcases RunProcess.begin_ok hbegin with ⟨-, rfl⟩ | ⟨-, -, rfl⟩
      · simp [Local, TaskRecord.prepareResume]
      · simp [Local, RunProcess.announceStart, TaskRecord.appendEvent]
  | step choice process moved written hprocess hmove =>
      simp only [hprocess]
      exact hinvariant.move hprocess (hfresh process hprocess) hmove rfl
  | signal process hprocess =>
      refine hinvariant.quiet rfl rfl rfl hinvariant.base ?_
      rintro next ⟨⟩
      exact hinvariant.process process hprocess
  | load writer request hidle =>
      refine ⟨hinvariant.store, hinvariant.base, hinvariant.process, ?_⟩
      intro other record hloaded
      rcases System.setWriter_loaded hloaded with ⟨-, hvalue⟩ | ⟨-, hother⟩
      · obtain ⟨event, hevents, -⟩ := Request.onLoaded_events hvalue
        exact ⟨_, event, hevents, List.prefix_rfl⟩
      · exact hinvariant.writers other record hother
  | save writer record hloaded =>
      obtain ⟨loaded, event, hevents, -⟩ := hinvariant.writers writer record hloaded
      have hsame := hfresh record hloaded
      rw [hevents, List.dropLast_concat] at hsame
      subst hsame
      simp only [hloaded]
      have hgrown : monitored.system.store.events <+: record.events := by
        rw [hevents]
        exact List.prefix_append _ _
      refine ⟨?_, hinvariant.base.trans hgrown, ?_, ?_⟩
      · simp [hevents, hinvariant.store]
      · intro process hprocess
        exact (hinvariant.process process hprocess).grow rfl rfl hgrown.length_le
      · intro other kept hkept
        rcases System.setWriter_loaded hkept with ⟨-, hvalue⟩ | ⟨-, hother⟩
        · cases hvalue
        · obtain ⟨before, last, hlast, hextends⟩ := hinvariant.writers other kept hother
          exact ⟨before, last, hlast, hextends.trans hgrown⟩

theorem invariant_start (record : TaskRecord Json) : (start record).Invariant record := by
  refine ⟨by simp [start, System.start], List.nil_prefix, by rintro process ⟨⟩, ?_⟩
  rintro writer record ⟨⟩

/-- The run can always save, and then publishes what was unsaved. -/
theorem step_save (options : RunOptions) (choice : Choice Json) {monitored : Monitored Json}
    {process : RunProcess Json} (hprocess : monitored.system.process = some process)
    (hsaves : process.phase = .resumeSave ∨ ∃ next, process.phase = .mergeSave next) :
    ∃ next, monitored.step options (.step choice) = some next ∧
      next.system.store = process.record ∧
      next.published = monitored.published ++ monitored.unsaved := by
  rcases hsaves with hphase | ⟨after, hphase⟩
  · have hstep : monitored.system.step options (.step choice) =
        some { monitored.system with
          process := some process.announceStart, store := process.record } := by
      simp [System.step, hprocess, RunProcess.step, hphase]
    refine ⟨_, by simp only [step, hstep, Option.map_some, hprocess]; rfl, ?_, ?_⟩
    · rw [afterStep_system]
    · simp [afterStep, hphase]
  · have hstep : monitored.system.step options (.step choice) =
        some { monitored.system with
          process := some (process.resumeAfter choice.callback after)
          store := process.record } := by
      simp [System.step, hprocess, RunProcess.step, hphase]
    refine ⟨_, by simp only [step, hstep, Option.map_some, hprocess]; rfl, ?_, ?_⟩
    · rw [afterStep_system]
    · simp [afterStep, hphase]

/-- A save of the run that keeps every saved event is fresh. -/
theorem fresh_of_length {initial : TaskRecord Json} {monitored : Monitored Json}
    {process : RunProcess Json} (hinvariant : monitored.Invariant initial)
    (hprocess : monitored.system.process = some process)
    (hsaves : process.phase = .resumeSave ∨ ∃ next, process.phase = .mergeSave next)
    (hlength : process.record.events.length =
      monitored.system.store.events.length + monitored.unsaved.length) :
    monitored.base = monitored.system.store.events := by
  apply hinvariant.base.eq_of_length
  have hlocal := hinvariant.process process hprocess
  rcases hsaves with hphase | ⟨after, hphase⟩
  · simp only [Local, hphase] at hlocal
    rw [hlocal.1, hlocal.2] at hlength
    simpa using hlength
  · simp only [Local, hphase] at hlocal
    obtain ⟨hunsaved, hown | hbehind⟩ := hlocal
    · rw [hown, List.length_append] at hlength
      omega
    · have hpositive := List.length_pos_iff.mpr hunsaved
      omega

end Monitored

/-- The history of a record is append-only and loses no saved event exactly as
long as every save replaces the history its writer last synchronised with. -/
theorem history_kept_iff {record : TaskRecord Json} (hrecord : ServiceRecord record)
    {options : RunOptions} {schedule : List (Label Json)} :
    Monitored.HistoryKept options record schedule ↔
      Transition.StepsMeet (Monitored.step options) Monitored.Fresh (Monitored.start record)
        schedule := by
  have hstart := Monitored.invariant_start record
  constructor
  · intro hkept
    refine Transition.StepsMeet.of_prefixes
      (fun _ _ _ => Monitored.invariant_step) ?_ hstart
    intro before label after middle hsplit hrun hinvariant
    cases label with
    | begin | signal | load => trivial
    | save writer =>
        intro copy hloaded
        obtain ⟨loaded, event, hevents, hextends⟩ := hinvariant.writers writer copy hloaded
        have hsave : ∃ next, Transition.run (Monitored.step options) middle [.save writer] =
            some next ∧ next.system.store = copy ∧
              next.published = middle.published ++ [event] := by
          refine ⟨_, by simp [Transition.run, Monitored.step, System.step, hloaded]; rfl, ?_, ?_⟩
          · rfl
          · simp [hevents]
        obtain ⟨next, hnext, hstored, hpublished⟩ := hsave
        obtain ⟨-, -, hperm⟩ :=
          hkept before [.save writer] after middle next (by simp [hsplit]) hrun hnext
        have hlength := hperm.length_eq
        rw [hstored, hpublished, hevents, ← List.append_assoc, ← hinvariant.store] at hlength
        rw [hevents, List.dropLast_concat]
        apply hextends.eq_of_length
        simpa using hlength.symm
    | step choice =>
        intro process hprocess hsaves
        have hsave : ∃ next, Transition.run (Monitored.step options) middle [.step choice] =
            some next ∧ next.system.store = process.record ∧
              next.published = middle.published ++ middle.unsaved := by
          obtain ⟨next, hstep, hnext⟩ :=
            Monitored.step_save options choice hprocess hsaves
          exact ⟨next, by simp [Transition.run, hstep], hnext⟩
        obtain ⟨next, hnext, hstored, hpublished⟩ := hsave
        obtain ⟨-, -, hperm⟩ :=
          hkept before [.step choice] after middle next (by simp [hsplit]) hrun hnext
        have hlength := hperm.length_eq
        rw [hstored, hpublished, ← List.append_assoc, ← hinvariant.store,
          List.length_append] at hlength
        exact Monitored.fresh_of_length hinvariant hprocess hsaves hlength.symm
  · intro hmeet first second rest middle final hsplit hfirst hsecond
    have hrun := Transition.run_append_eq_some.mpr ⟨middle, hfirst, hsecond⟩
    rw [hsplit] at hmeet
    have hmiddle := hmeet.append_left.append_left.invariant_run _
      (fun _ _ _ => Monitored.invariant_step) hstart hfirst
    have hfinal := hmeet.append_left.invariant_run _
      (fun _ _ _ => Monitored.invariant_step) hstart hrun
    have hnumbered : (Monitored.start record).system.Numbered :=
      System.numbered_start hrecord.numbered
    have hpublished := Transition.relation_run (Monitored.numbered_preserved options)
      (fun state next => state.published <+: next.published)
      (fun state => List.prefix_refl state.published) .trans
      (fun _ _ _ _ hstep => (Monitored.step_system hstep).2)
      ((Monitored.numbered_preserved options).run hnumbered hfirst) hsecond
    refine ⟨((Monitored.numbered_preserved options).run hnumbered hrun).store, ?_, ?_⟩
    · rw [hmiddle.store, hfinal.store]
      exact (List.prefix_append_right_inj _).mpr hpublished
    · rw [hfinal.store]

/-- A cancel that is complete before the first save of the run loses nothing so
far. -/
theorem history_kept_early :
    Monitored.HistoryKept singleOptions singleRecord
      [.begin false, .load 0 .requestCancel, .save 0] := by
  refine (history_kept_iff (.created singleRecord_created)).mpr ?_
  refine .cons trivial rfl (.cons trivial rfl (.cons ?_ rfl trivial))
  rintro record ⟨⟩
  rfl

/-- A cancel that loads before and saves after the first save of the run takes
the event of the run, number 2, out of the history. -/
theorem history_not_kept :
    ¬Monitored.HistoryKept singleOptions singleRecord
      ((.begin false :: .load 0 .requestCancel :: answered 2) ++ [.save 0]) := by
  intro hkept
  have hruns : ∃ middle final,
      Transition.run (Monitored.step singleOptions) (Monitored.start singleRecord)
        (.begin false :: .load 0 .requestCancel :: answered 2) = some middle ∧
      Transition.run (Monitored.step singleOptions) middle [.save 0] = some final ∧
      middle.system.store.events.map (·.kind) = [.taskCreated, .taskStarted] ∧
      final.system.store.events.map (·.kind) = [.taskCreated, .cancelRequested] :=
    ⟨_, _, rfl, rfl, rfl, rfl⟩
  obtain ⟨middle, final, hmiddle, hfinal, hbefore, hafter⟩ := hruns
  obtain ⟨-, hextends, -⟩ := hkept _ [.save 0] [] middle final (by simp) hmiddle hfinal
  have hkinds := hextends.map fun event => event.kind
  rw [hbefore, hafter] at hkinds
  exact absurd hkinds (by decide)

end AlgorithmHarness.TaskService
