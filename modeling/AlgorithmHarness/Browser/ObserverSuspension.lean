import AlgorithmHarness.Browser.ObserverMoves

/-!
# The observer while the page is hidden or the browser offline

A paused observer is quiet: it has no timer, no socket and starts no request.
Hiding and going offline both pause it; recovering from either resumes it, also
while the other still holds.
-/

namespace AlgorithmHarness.Browser

open Transition

def Entry.isRequested : Entry → Bool
  | .requested _ _ => true
  | _ => false

theorem Entry.isRequested_eq_false {entry : Entry} (hplain : ¬entry.Supersedes) :
    entry.isRequested = false := by
  cases entry with
  | requested request evaluationId => exact absurd trivial hplain
  | _ => rfl

/-- The steps that turn a switch of the observer. -/
def Event.turns : Event → Bool
  | .setVisible _ | .setOnline _ | .dispose => true
  | _ => false

namespace Observer

/-! ## Quiet states -/

/-- No timer is armed and no socket is open. -/
structure Quiet (observer : Observer) : Prop where
  timers : ∀ timer, observer.armed timer = false
  conn : observer.conn = none
  sockets : observer.sockets = []

def halted (observer : Observer) : Bool := observer.disposed || observer.paused

/-- The page is hidden or the browser offline. -/
def suspended (observer : Observer) : Bool := !observer.visible || !observer.online

/-- The requests made so far. -/
def requested (observer : Observer) : List Entry := observer.log.filter Entry.isRequested

def switches (observer : Observer) : Bool × Bool × Bool × Bool :=
  (observer.disposed, observer.paused, observer.visible, observer.online)

/-- The variables of the timers and of the socket. -/
def handles (observer : Observer) :
    Option ℕ × Option ℕ × Option ℕ × Option ℕ × Option ℕ × Option Connection × List ℕ :=
  (observer.mergeTimer, observer.staleTimer, observer.pollTimer, observer.reconnectTimer,
    observer.rateLimitTimer, observer.conn, observer.sockets)

variable {observer before after : Observer}

theorem Quiet.of_handles (hquiet : Quiet before) (hhandles : after.handles = before.handles) :
    Quiet after := by
  simp only [handles, Prod.mk.injEq] at hhandles
  obtain ⟨hmerge, hstale, hpoll, hreconnect, hrate, hconn, hsockets⟩ := hhandles
  refine ⟨fun timer => ?_, hconn.trans hquiet.conn, hsockets.trans hquiet.sockets⟩
  rw [← hquiet.timers timer]
  cases timer with
  | merge => exact congrArg Option.isSome hmerge
  | stale => exact congrArg Option.isSome hstale
  | poll => exact congrArg Option.isSome hpoll
  | reconnect => exact congrArg Option.isSome hreconnect
  | rateLimit => exact congrArg Option.isSome hrate
  | subscribe => rw [armed, armed, hconn]

/-- Modes and entries hold no handle. -/
theorem handles_emit {entry : Entry} : (observer.emit entry).handles = observer.handles := by
  rw [emit]
  split <;> rfl

theorem handles_setMode {next : ObserverMode} :
    (observer.setMode next).handles = observer.handles := by
  rw [setMode]
  split
  · rfl
  · exact handles_emit

theorem handles_abortInFlight : observer.abortInFlight.handles = observer.handles := by
  rw [abortInFlight]
  split <;> rfl

theorem clearTimers_armed {timer : Timer} : observer.clearTimers.armed timer = false := by
  cases timer with
  | subscribe =>
    rw [armed, clearTimers]
    cases observer.conn <;> rfl
  | _ => rfl

theorem Wired.quiet_clear_teardown (hwired : Wired observer) :
    Quiet observer.clearTimers.teardownSocket := by
  rw [teardownSocket]
  cases hconn : observer.clearTimers.conn with
  | none =>
    have hnone : observer.conn = none := Option.map_eq_none_iff.mp hconn
    exact ⟨fun _ => clearTimers_armed, hconn, hwired.sockets_eq_nil hnone⟩
  | some connection =>
    obtain ⟨current, hcurrent, rfl⟩ := Option.map_eq_some_iff.mp hconn
    have hgone : observer.sockets.filter (· ≠ current.number) = [] := by
      refine List.filter_eq_nil_iff.mpr fun number hnumber => ?_
      simp [hwired.socket_eq hcurrent number hnumber]
    dsimp only
    refine ⟨fun timer => ?_, rfl, ?_⟩
    · split <;> cases timer <;> rfl
    · split <;> exact hgone

/-- Whoever stops observing is quiet afterwards. -/
theorem Wired.quiet_stop (hwired : Wired observer) : Quiet observer.stopObserving := by
  have haborted : Wired { observer.abortInFlight with pendingInvalidation := false } :=
    (keeps_abortInFlight.wired hwired).of_eq rfl rfl
  exact haborted.quiet_clear_teardown

theorem requested_of_plain {since : List Entry} (hlog : after.log = since ++ before.log)
    (hplain : ∀ entry ∈ since, ¬entry.Supersedes) : after.requested = before.requested := by
  have hnone : since.filter Entry.isRequested = [] := by
    refine List.filter_eq_nil_iff.mpr fun entry hentry => ?_
    simp [Entry.isRequested_eq_false (hplain entry hentry)]
  rw [requested, hlog, List.filter_append, hnone, List.nil_append, requested]

theorem Keeps.requested (hkeeps : Keeps before after) : after.requested = before.requested := by
  obtain ⟨since, hlog, hplain⟩ := hkeeps.plain
  exact requested_of_plain hlog hplain

/-! ## Steps that turn no switch -/

structure Stays (before after : Observer) : Prop where
  switches : after.switches = before.switches
  wired : Wired before → Wired after

theorem Stays.trans {first middle last : Observer} (hfirst : Stays first middle)
    (hlast : Stays middle last) : Stays first last :=
  ⟨hlast.switches.trans hfirst.switches, fun hwired => hlast.wired (hfirst.wired hwired)⟩

theorem Stays.of_eq (hswitches : after.switches = before.switches)
    (hconn : after.conn = before.conn) (hsockets : after.sockets = before.sockets) :
    Stays before after :=
  ⟨hswitches, fun hwired => hwired.of_eq hconn hsockets⟩

theorem Stays.refl (observer : Observer) : Stays observer observer := .of_eq rfl rfl rfl

theorem Stays.halted (hstays : Stays before after) : after.halted = before.halted := by
  have hswitches := hstays.switches
  simp only [Observer.switches, Prod.mk.injEq] at hswitches
  rw [Observer.halted, hswitches.1, hswitches.2.1, Observer.halted]

theorem Acts.stays (hacts : Acts before after) : Stays before after := by
  refine ⟨?_, hacts.wired⟩
  have hflags := hacts.flags
  simp only [Observer.flags, Prod.mk.injEq] at hflags
  obtain ⟨hdisposed, hpaused, hvisible, honline, -⟩ := hflags
  rw [switches, hdisposed, hpaused, hvisible, honline, switches]

theorem stays_fetchSnapshot {now : ℕ} {evaluationId : String} :
    Stays observer (observer.fetchSnapshot now evaluationId) := by
  rw [fetchSnapshot]
  split
  · split
    · exact .of_eq rfl rfl rfl
    · exact .refl observer
  · exact .of_eq rfl rfl rfl

theorem stays_requestSnapshot {now : ℕ} : Stays observer (observer.requestSnapshot now) := by
  rw [requestSnapshot]
  split
  · exact .refl observer
  split
  · exact .refl observer
  split
  · split
    · have haborted : Stays observer observer.abortInFlight := keeps_abortInFlight.stays
      have hdropped : Stays observer.abortInFlight
          { observer.abortInFlight with inFlight := none } := .of_eq rfl rfl rfl
      exact (haborted.trans hdropped).trans stays_fetchSnapshot
    · exact .of_eq rfl rfl rfl
  · exact stays_fetchSnapshot

theorem stays_resumeIfNeeded {now : ℕ} : Stays observer (observer.resumeIfNeeded now) := by
  rw [resumeIfNeeded]
  split
  · exact .refl observer
  · have hreset : Stays observer { observer with connectAttempts := 0, pollFailures := 0 } :=
      .of_eq rfl rfl rfl
    exact (hreset.trans stays_requestSnapshot).trans keeps_connect.stays

/-! ## Steps of a paused observer -/

/-- What a step must keep so that a paused observer is a quiet one. -/
structure Rests (before after : Observer) : Prop where
  wired : Wired before → Wired after
  quiet : Wired before → (before.halted = true → Quiet before) → after.halted = true →
    Quiet after ∧ after.requested = before.requested

/-- A step that turns no switch need only be looked at in a quiet state. -/
theorem Rests.of_stays (hstays : Stays before after)
    (hasleep : before.halted = true → Quiet before →
      Quiet after ∧ after.requested = before.requested) : Rests before after := by
  refine ⟨hstays.wired, fun _ hquiet hhalted => ?_⟩
  rw [hstays.halted] at hhalted
  exact hasleep hhalted (hquiet hhalted)

theorem Rests.of_keeps (hkeeps : Keeps before after)
    (hasleep : before.halted = true → Quiet before → Quiet after) : Rests before after :=
  .of_stays hkeeps.stays fun hhalted hquiet => ⟨hasleep hhalted hquiet, hkeeps.requested⟩

/-- A step that a halted observer does not take. -/
theorem Rests.of_awake (hstays : Stays before after)
    (hsame : before.halted = true → after = before) : Rests before after :=
  .of_stays hstays fun hhalted hquiet => by
    rw [hsame hhalted]
    exact ⟨hquiet, rfl⟩

theorem Rests.refl (observer : Observer) : Rests observer observer :=
  .of_keeps (.refl observer) fun _ hquiet => hquiet

/-- A step after which the observer is not halted. -/
theorem Rests.of_running (hwired : Wired before → Wired after)
    (hrunning : after.halted = false) : Rests before after :=
  ⟨hwired, fun _ _ hhalted => absurd hhalted (by simp [hrunning])⟩

/-- A step that stops observing. -/
theorem Rests.of_stop (hwired : Wired before → Wired after)
    (hquiet : Wired before → Quiet after) (hrequested : after.requested = before.requested) :
    Rests before after :=
  ⟨hwired, fun hbefore _ _ => ⟨hquiet hbefore, hrequested⟩⟩

theorem requestSnapshot_of_halted (hhalted : observer.halted = true) {now : ℕ} :
    observer.requestSnapshot now = observer := by
  rw [requestSnapshot]
  split
  · rfl
  · exact if_pos hhalted

theorem invalidate_of_halted (hhalted : observer.halted = true) :
    observer.invalidate = observer := by
  rw [invalidate]
  refine if_pos ?_
  simp_all [halted]

theorem resumeIfNeeded_of_halted (hhalted : observer.halted = true) {now : ℕ} :
    observer.resumeIfNeeded now = observer := by
  rw [resumeIfNeeded]
  refine if_pos ?_
  simp_all [halted]

theorem rests_requestSnapshot {now : ℕ} : Rests observer (observer.requestSnapshot now) :=
  .of_awake stays_requestSnapshot fun hhalted => requestSnapshot_of_halted hhalted

theorem rests_invalidate : Rests observer observer.invalidate :=
  .of_awake keeps_invalidate.stays invalidate_of_halted

/-! ## Pausing and resuming -/

/-- What becomes quiet, whatever switch was turned for it. -/
theorem rests_stop_of (turned : Observer) (hconn : turned.conn = before.conn)
    (hsockets : turned.sockets = before.sockets) (hrequested : turned.requested = before.requested)
    (hafter : Keeps turned.stopObserving after) (hhandles : after.handles =
      turned.stopObserving.handles) : Rests before after := by
  have hwired : Wired before → Wired turned := fun hbefore => hbefore.of_eq hconn hsockets
  refine .of_stop (fun hbefore => hafter.wired (keeps_stopObserving.wired (hwired hbefore))) ?_ ?_
  · exact fun hbefore => (hwired hbefore).quiet_stop.of_handles hhandles
  · rw [hafter.requested, keeps_stopObserving.requested, hrequested]

theorem rests_pause (turned : Observer) (hconn : turned.conn = before.conn)
    (hsockets : turned.sockets = before.sockets)
    (hrequested : turned.requested = before.requested) : Rests before turned.pause :=
  rests_stop_of ({ turned with paused := true }.record .pause) hconn hsockets hrequested
    (.refl _) rfl

theorem rests_resume (turned : Observer) (hhandles : turned.handles = before.handles)
    (hrequested : turned.requested = before.requested) (hpaused : turned.paused = false)
    (hdisposed : turned.disposed = before.disposed) {now : ℕ} :
    Rests before (turned.resumeIfNeeded now) := by
  have hwired : Wired before → Wired turned := by
    simp only [handles, Prod.mk.injEq] at hhandles
    exact fun hbefore => hbefore.of_eq hhandles.2.2.2.2.2.1 hhandles.2.2.2.2.2.2
  cases hgone : before.disposed with
  | true =>
    have hhalted : turned.halted = true := by simp [halted, hdisposed, hgone]
    rw [resumeIfNeeded_of_halted hhalted]
    refine ⟨hwired, fun _ hquiet _ => ⟨(hquiet ?_).of_handles hhandles, hrequested⟩⟩
    simp [halted, hgone]
  | false =>
    refine .of_running (fun hbefore => stays_resumeIfNeeded.wired (hwired hbefore)) ?_
    rw [stays_resumeIfNeeded.halted]
    simp [halted, hdisposed, hgone, hpaused]

theorem rests_setVisible {now : ℕ} {next : Bool} :
    Rests observer (observer.setVisible now next) := by
  rw [setVisible]
  split
  · exact .refl observer
  split
  · apply rests_resume { observer with visible := next, paused := false } <;> rfl
  · apply rests_pause { observer with visible := next } <;> rfl

theorem rests_setOnline {now : ℕ} {next : Bool} :
    Rests observer (observer.setOnline now next) := by
  rw [setOnline]
  split
  · exact .refl observer
  split
  · apply rests_resume { observer with online := next, paused := false } <;> rfl
  · apply rests_pause { observer with online := next } <;> rfl

theorem rests_dispose : Rests observer observer.dispose :=
  rests_stop_of ({ observer with disposed := true }.record .disposed) rfl rfl rfl
    (.of_core rfl) rfl

/-! ## The other steps -/

theorem stays_start {now : ℕ} {id : String} : Stays observer (observer.start now id) := by
  rw [start]
  split
  · exact .refl observer
  split
  · exact .refl observer
  · have hstopped : Stays observer observer.stopObserving := keeps_stopObserving.stays
    have hbegun : Stays observer
        { observer.stopObserving.record .started with
          evaluationId := some id, epoch := observer.epoch + 1 } :=
      hstopped.trans (.of_eq rfl rfl rfl)
    dsimp only
    split
    · exact hbegun.trans keeps_setMode.stays
    · exact ((hbegun.trans keeps_setMode.stays).trans stays_requestSnapshot).trans
        keeps_connect.stays

theorem Quiet.wired (hquiet : Quiet observer) : Wired observer where
  socket := by simp [hquiet.sockets]
  timer := by simp [hquiet.conn]

theorem rests_start {now : ℕ} {id : String} : Rests observer (observer.start now id) := by
  refine .of_stays stays_start fun hhalted hquiet => ?_
  rw [start]
  split
  · exact ⟨hquiet, rfl⟩
  split
  · exact ⟨hquiet, rfl⟩
  · have hstopped : Keeps observer observer.stopObserving := keeps_stopObserving
    have hidle : ({ observer.stopObserving.record .started with
        evaluationId := some id, epoch := observer.epoch + 1 } : Observer).running = false := by
      have hstill : observer.stopObserving.halted = true := hstopped.stays.halted.trans hhalted
      simp only [halted, Bool.or_eq_true] at hstill
      rcases hstill with hdisposed | hpaused
      · simp [running, record, hdisposed]
      · simp [running, record, hpaused]
    dsimp only
    rw [hidle]
    refine ⟨hquiet.wired.quiet_stop.of_handles ?_, ?_⟩
    · exact handles_setMode
    · exact (keeps_setMode.requested).trans hstopped.requested

theorem stays_runMutation : Stays observer observer.runMutation := by
  have hrecorded : Stays observer (observer.record .mutation) := .of_eq rfl rfl rfl
  exact (hrecorded.trans keeps_abortInFlight.stays).trans (.of_eq rfl rfl rfl)

theorem rests_runMutation : Rests observer observer.runMutation := by
  have haborted : Keeps (observer.record .mutation) (observer.record .mutation).abortInFlight :=
    keeps_abortInFlight
  exact .of_stays stays_runMutation fun _ hquiet =>
    ⟨hquiet.of_handles handles_abortInFlight, haborted.requested⟩

theorem stays_mutationDone : Stays observer observer.mutationDone := by
  have hdone : Stays observer { observer with mutations := observer.mutations - 1 } :=
    .of_eq rfl rfl rfl
  exact hdone.trans keeps_mutationDone.stays

theorem rests_mutationDone : Rests observer observer.mutationDone := by
  refine .of_stays stays_mutationDone fun hhalted hquiet => ?_
  have hsame : observer.mutationDone = { observer with mutations := observer.mutations - 1 } := by
    rw [mutationDone]
    dsimp only
    split
    · rfl
    · exact invalidate_of_halted hhalted
  rw [hsame]
  exact ⟨hquiet.of_handles rfl, rfl⟩

theorem isCurrent_of_quiet (hquiet : Quiet observer) {number : ℕ} :
    observer.isCurrent number = false := by
  rw [isCurrent, hquiet.conn]
  rfl

theorem Quiet.closeSocket (hquiet : Quiet observer) {number : ℕ} :
    Quiet (observer.closeSocket number) := by
  have hnone : (observer.closeSocket number).sockets = [] := by
    rw [Observer.closeSocket, hquiet.sockets]
    rfl
  exact ⟨hquiet.timers, hquiet.conn, hnone⟩

theorem rests_onOpen {number : ℕ} : Rests observer (observer.onOpen number) := by
  refine .of_keeps keeps_onOpen fun _ hquiet => ?_
  rw [onOpen, hquiet.conn]
  exact hquiet

theorem rests_onMessage {number : ℕ} {type : String} :
    Rests observer (observer.onMessage number type) := by
  refine .of_keeps keeps_onMessage fun _ hquiet => ?_
  rw [onMessage, isCurrent_of_quiet hquiet]
  exact hquiet

theorem rests_onClose {number code : ℕ} : Rests observer (observer.onClose number code) := by
  refine .of_keeps keeps_onClose fun _ hquiet => ?_
  rw [onClose, isCurrent_of_quiet hquiet]
  exact hquiet.closeSocket

theorem rests_onError {number : ℕ} : Rests observer (observer.onError number) := by
  refine .of_keeps keeps_onError fun _ hquiet => ?_
  rw [onError, isCurrent_of_quiet hquiet]
  exact hquiet.closeSocket

theorem stays_complete {request : ℕ} : Stays observer (observer.complete request) :=
  .of_eq rfl rfl rfl

/-- A halted observer looks at no completion. -/
theorem accepts_of_halted (hhalted : observer.halted = true) {request : ℕ} :
    observer.accepts request = false := by
  simp only [halted, Bool.or_eq_true] at hhalted
  rcases hhalted with hdisposed | hpaused
  · simp [accepts, hdisposed]
  · simp [accepts, hpaused]

theorem stays_deliverSnapshot {request : ℕ} {result : Evaluation} :
    Stays observer (observer.deliverSnapshot request result) := by
  have hshown : Stays observer (observer.emit (.snapshot request result observer.mode)) := by
    rw [emit]
    split <;> exact .of_eq rfl rfl rfl
  rw [deliverSnapshot]
  split
  · exact hshown.trans acts_settleWith.stays
  split <;> exact hshown.trans (.of_eq rfl rfl rfl)

theorem stays_fetched {now request : ℕ} {result : Evaluation} :
    Stays observer (observer.fetched now request result) := by
  have hdelivered : Stays observer ((observer.complete request).deliverSnapshot request result) :=
    stays_complete.trans stays_deliverSnapshot
  rw [fetched]
  dsimp only
  split
  · exact stays_complete
  split
  · refine hdelivered.trans (.trans ?_ stays_requestSnapshot)
    exact .of_eq rfl rfl rfl
  · exact hdelivered

theorem rests_fetched {now request : ℕ} {result : Evaluation} :
    Rests observer (observer.fetched now request result) := by
  refine .of_stays stays_fetched fun hhalted hquiet => ?_
  have hrefused : (observer.complete request).accepts request = false :=
    accepts_of_halted (stays_complete.halted.trans hhalted)
  rw [fetched, hrefused]
  exact ⟨hquiet.of_handles rfl, rfl⟩

theorem stays_fetchFailed {now request : ℕ} {error : FetchError} :
    Stays observer (observer.fetchFailed now request error) := by
  rw [fetchFailed]
  split
  · exact stays_complete.trans keeps_handleFetchError.stays
  · exact stays_complete

theorem rests_fetchFailed {now request : ℕ} {error : FetchError} :
    Rests observer (observer.fetchFailed now request error) := by
  refine .of_stays stays_fetchFailed fun hhalted hquiet => ?_
  have hrefused : (observer.complete request).accepts request = false :=
    accepts_of_halted (stays_complete.halted.trans hhalted)
  rw [fetchFailed, hrefused]
  exact ⟨hquiet.of_handles rfl, rfl⟩

theorem stays_recovered {now : ℕ} {success : Bool} :
    Stays observer (observer.recovered now success) := by
  have hresumed : Stays observer { observer with recovering := observer.recovering - 1 } :=
    .of_eq rfl rfl rfl
  rw [recovered]
  dsimp only
  split
  · exact hresumed
  split
  · refine hresumed.trans (.trans ?_ keeps_connect.stays)
    exact keeps_setMode.stays.trans stays_requestSnapshot
  · exact (hresumed.trans (keeps_emit id id).stays).trans keeps_setMode.stays

theorem rests_recovered {now : ℕ} {success : Bool} :
    Rests observer (observer.recovered now success) := by
  refine .of_stays stays_recovered fun hhalted hquiet => ?_
  have hsame : observer.recovered now success =
      { observer with recovering := observer.recovering - 1 } := if_pos hhalted
  rw [hsame]
  exact ⟨hquiet.of_handles rfl, rfl⟩

theorem stays_fire {now : ℕ} {timer : Timer} (hrunning : observer.halted = false) :
    Stays observer (observer.fire now timer) := by
  by_cases htimer : timer = .subscribe
  · subst htimer
    cases hconn : observer.conn with
    | none =>
      have hsame : observer.fire now .subscribe = observer.disarm .subscribe := by
        rw [fire, disarm, hconn]
        simp
      rw [hsame]
      refine .of_eq rfl ?_ rfl
      rw [disarm, hconn]
      rfl
    | some connection =>
      have hgone : Keeps observer { observer.closeSocket connection.number with conn := none } := by
        apply keeps_lost
        simp [isCurrent, hconn]
      have hfired : observer.fire now .subscribe =
          { observer.closeSocket connection.number with conn := none }.handleSocketFailure
            "subscribe timeout" := by
        simp only [halted] at hrunning
        simp [fire, disarm, hconn, hrunning, closeSocket]
      rw [hfired]
      exact hgone.stays.trans keeps_handleSocketFailure.stays
  · have hdisarmed : Stays observer (observer.disarm timer) := (keeps_disarm htimer).stays
    rw [fire.eq_def]
    dsimp only
    split
    · exact hdisarmed
    split
    · exact hdisarmed.trans keeps_connect.stays
    · exact absurd rfl htimer
    all_goals exact hdisarmed.trans stays_requestSnapshot

/-! ## Runs -/

/-- A halted observer is quiet. -/
structure Resting (observer : Observer) : Prop where
  wired : Wired observer
  quiet : observer.halted = true → Quiet observer

/-- A timer of a halted observer is not armed. -/
theorem Resting.running_of_armed (hresting : Resting observer) {timer : Timer}
    (harmed : observer.armed timer = true) : observer.halted = false := by
  cases hhalted : observer.halted with
  | false => rfl
  | true =>
    rw [(hresting.quiet hhalted).timers] at harmed
    cases harmed

theorem rests_step {label : ℕ × Event} (hresting : Resting before)
    (hstep : before.step label = some after) : Rests before after := by
  obtain ⟨now, event⟩ := label
  cases event with
  | start id => cases hstep; exact rests_start
  | refresh => cases hstep; exact rests_requestSnapshot
  | invalidate => cases hstep; exact rests_invalidate
  | setVisible visible => cases hstep; exact rests_setVisible
  | setOnline online => cases hstep; exact rests_setOnline
  | runMutation => cases hstep; exact rests_runMutation
  | dispose => cases hstep; exact rests_dispose
  | onOpen number => cases hstep; exact rests_onOpen
  | onMessage number type => cases hstep; exact rests_onMessage
  | onClose number code => cases hstep; exact rests_onClose
  | onError number => cases hstep; exact rests_onError
  | mutationDone =>
    obtain ⟨-, ⟨⟩⟩ := Option.ite_none_left_eq_some.mp hstep
    exact rests_mutationDone
  | fire timer =>
    obtain ⟨harmed, ⟨⟩⟩ := Option.ite_none_right_eq_some.mp hstep
    have hrunning := hresting.running_of_armed harmed
    have hstays : Stays before (before.fire now timer) := stays_fire hrunning
    exact .of_running hstays.wired (hstays.halted.trans hrunning)
  | fetched request result =>
    obtain ⟨-, ⟨⟩⟩ := Option.ite_none_right_eq_some.mp hstep
    exact rests_fetched
  | fetchFailed request error =>
    obtain ⟨-, ⟨⟩⟩ := Option.ite_none_right_eq_some.mp hstep
    exact rests_fetchFailed
  | recovered success =>
    obtain ⟨-, ⟨⟩⟩ := Option.ite_none_left_eq_some.mp hstep
    exact rests_recovered

/-- Only three functions turn a switch. -/
theorem stays_step {label : ℕ × Event} (hresting : Resting before)
    (hstep : before.step label = some after) (hturns : label.2.turns = false) :
    Stays before after := by
  obtain ⟨now, event⟩ := label
  cases event with
  | start id => cases hstep; exact stays_start
  | refresh => cases hstep; exact stays_requestSnapshot
  | invalidate => cases hstep; exact keeps_invalidate.stays
  | runMutation => cases hstep; exact stays_runMutation
  | onOpen number => cases hstep; exact keeps_onOpen.stays
  | onMessage number type => cases hstep; exact keeps_onMessage.stays
  | onClose number code => cases hstep; exact keeps_onClose.stays
  | onError number => cases hstep; exact keeps_onError.stays
  | mutationDone =>
    obtain ⟨-, ⟨⟩⟩ := Option.ite_none_left_eq_some.mp hstep
    exact stays_mutationDone
  | fire timer =>
    obtain ⟨harmed, ⟨⟩⟩ := Option.ite_none_right_eq_some.mp hstep
    exact stays_fire (hresting.running_of_armed harmed)
  | fetched request result =>
    obtain ⟨-, ⟨⟩⟩ := Option.ite_none_right_eq_some.mp hstep
    exact stays_fetched
  | fetchFailed request error =>
    obtain ⟨-, ⟨⟩⟩ := Option.ite_none_right_eq_some.mp hstep
    exact stays_fetchFailed
  | recovered success =>
    obtain ⟨-, ⟨⟩⟩ := Option.ite_none_left_eq_some.mp hstep
    exact stays_recovered
  | setVisible visible | setOnline online | dispose => cases hturns

theorem Resting.step {label : ℕ × Event} (hresting : Resting before)
    (hstep : before.step label = some after) : Resting after := by
  have hrests := rests_step hresting hstep
  exact ⟨hrests.wired hresting.wired, fun hhalted =>
    (hrests.quiet hresting.wired hresting.quiet hhalted).1⟩

/-! ## One recovery at a time -/

/-- The page is shown only while the browser is online, and the browser goes
online only while the page is visible. -/
def RecoversLast (observer : Observer) : ℕ × Event → Prop
  | (_, .setVisible next) => next = true → observer.online = true ∨ observer.disposed = true
  | (_, .setOnline next) => next = true → observer.visible = true ∨ observer.disposed = true
  | _ => True

/-- Whoever is suspended is halted. -/
def Obeys (observer : Observer) : Prop := observer.suspended = true → observer.halted = true

theorem Stays.obeys (hstays : Stays before after) (hobeys : Obeys before) : Obeys after := by
  intro hsuspended
  have hswitches := hstays.switches
  simp only [Observer.switches, Prod.mk.injEq] at hswitches
  rw [suspended, hswitches.2.2.1, hswitches.2.2.2] at hsuspended
  rw [hstays.halted]
  exact hobeys hsuspended

theorem obeys_pause : Obeys observer.pause := by
  have hstopped : Stays ({ observer with paused := true }.record .pause) observer.pause :=
    keeps_stopObserving.stays
  intro _
  rw [hstopped.halted]
  exact Bool.or_true _

theorem Obeys.setVisible (hobeys : Obeys observer) {now : ℕ} {next : Bool}
    (hrecovers : next = true → observer.online = true ∨ observer.disposed = true) :
    Obeys (observer.setVisible now next) := by
  rw [Observer.setVisible]
  split
  · exact hobeys
  split
  · rename_i hnext
    refine stays_resumeIfNeeded.obeys fun hsuspended => ?_
    rcases hrecovers hnext with honline | hdisposed
    · simp [suspended, hnext, honline] at hsuspended
    · simp [halted, hdisposed]
  · exact obeys_pause

theorem Obeys.setOnline (hobeys : Obeys observer) {now : ℕ} {next : Bool}
    (hrecovers : next = true → observer.visible = true ∨ observer.disposed = true) :
    Obeys (observer.setOnline now next) := by
  rw [Observer.setOnline]
  split
  · exact hobeys
  split
  · rename_i hnext
    refine stays_resumeIfNeeded.obeys fun hsuspended => ?_
    rcases hrecovers hnext with hvisible | hdisposed
    · simp [suspended, hnext, hvisible] at hsuspended
    · simp [halted, hdisposed]
  · exact obeys_pause

theorem obeys_dispose : Obeys observer.dispose := by
  have hstopped : Stays ({ observer with disposed := true }.record .disposed) observer.dispose :=
    keeps_stopObserving.stays.trans (.of_eq rfl rfl rfl)
  intro _
  rw [hstopped.halted]
  rfl

theorem Obeys.step {label : ℕ × Event} (hobeys : Obeys before) (hresting : Resting before)
    (hrecovers : before.RecoversLast label) (hstep : before.step label = some after) :
    Obeys after := by
  cases hturns : label.2.turns with
  | false => exact (stays_step hresting hstep hturns).obeys hobeys
  | true =>
    obtain ⟨now, event⟩ := label
    cases event with
    | setVisible visible => cases hstep; exact hobeys.setVisible hrecovers
    | setOnline online => cases hstep; exact hobeys.setOnline hrecovers
    | dispose => cases hstep; exact obeys_dispose
    | _ => cases hturns

theorem resting_initial : Resting {} := ⟨⟨nofun, nofun⟩, nofun⟩

theorem resting_obeys_of_run {labels : List (ℕ × Event)}
    (hrecovers : StepsMeet Observer.step RecoversLast {} labels)
    (hrun : Transition.run Observer.step {} labels = some observer) :
    Resting observer ∧ Obeys observer :=
  hrecovers.invariant_run (fun observer => Resting observer ∧ Obeys observer)
    (fun _ _ _ hinvariant hmeets hstep =>
      ⟨hinvariant.1.step hstep, hinvariant.2.step hinvariant.1 hmeets hstep⟩)
    ⟨resting_initial, nofun⟩ hrun

/-- In every run that recovers from hiding and from being offline one at a
time, a suspended observer has no armed timer and no open socket, and no step
that leaves it suspended starts a request. -/
theorem suspended_quiet {labels : List (ℕ × Event)}
    (hrecovers : StepsMeet Observer.step RecoversLast {} labels)
    (hrun : Transition.run Observer.step {} labels = some observer)
    (hsuspended : observer.suspended = true) :
    Quiet observer ∧
      ∀ earlier label before, labels = earlier ++ [label] →
        Transition.run Observer.step {} earlier = some before →
          observer.requested = before.requested := by
  obtain ⟨hresting, hobeys⟩ := resting_obeys_of_run hrecovers hrun
  refine ⟨hresting.quiet (hobeys hsuspended), ?_⟩
  rintro earlier label before rfl hbefore
  obtain ⟨hrestingBefore, -⟩ := resting_obeys_of_run hrecovers.append_left hbefore
  obtain ⟨middle, hmiddle, hlast⟩ := run_append_eq_some.mp hrun
  obtain rfl := Option.some.inj (hbefore.symm.trans hmiddle)
  obtain ⟨next, hstep, hnext⟩ := run_cons_eq_some.mp hlast
  obtain rfl : next = observer := by simpa using hnext
  have hrests := rests_step hrestingBefore hstep
  exact (hrests.quiet hrestingBefore.wired hrestingBefore.quiet (hobeys hsuspended)).2

/-- The page is hidden while a snapshot is outstanding, which arrives later. -/
def hiddenRun : List (ℕ × Event) :=
  [(0, .start "e"), (0, .onOpen 1), (0, .setVisible false), (0, .fetched 2 ⟨"running"⟩)]

theorem suspended_quiet_after_hiding : ∃ observer,
    Transition.run Observer.step {} hiddenRun = some observer ∧ observer.suspended = true ∧
      Quiet observer ∧
        ∀ earlier label before, hiddenRun = earlier ++ [label] →
          Transition.run Observer.step {} earlier = some before →
            observer.requested = before.requested := by
  have hrecovers : StepsMeet Observer.step RecoversLast {} hiddenRun := by
    refine .cons trivial rfl (.cons trivial rfl (.cons ?_ rfl (.cons trivial rfl trivial)))
    intro hnext
    cases hnext
  exact ⟨_, rfl, rfl, suspended_quiet hrecovers rfl rfl⟩

/-- The page is hidden and the browser goes offline; then the page is shown. -/
def shownOffline : List (ℕ × Event) :=
  [(0, .start "e"), (0, .setVisible false), (0, .setOnline false), (0, .fetched 2 ⟨"running"⟩)]

theorem suspended_not_quiet : ∃ before observer,
    Transition.run Observer.step {} shownOffline = some before ∧
      before.step (0, .setVisible true) = some observer ∧ observer.suspended = true ∧
        observer.sockets = [2] ∧ ¬Quiet observer ∧ observer.requested ≠ before.requested := by
  refine ⟨_, _, rfl, rfl, rfl, rfl, fun hquiet => ?_, by decide⟩
  exact absurd hquiet.sockets (by decide)

end Observer

end AlgorithmHarness.Browser
