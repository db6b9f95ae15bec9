import AlgorithmHarness.Browser.ObserverFreshness
import AlgorithmHarness.Browser.ObserverSuspension

/-!
# The observer never stops refreshing by itself

While an evaluation is observed something that will refresh it is pending.
What that may be depends on the mode: a connecting observer counts on its
socket or on the recovery of the session, a live one on a request, a timer, a
recovery or a mutation, a degraded one on any of these.
-/

namespace AlgorithmHarness.Browser

open Transition

/-- A snapshot is asked for when the timer fires. -/
def Timer.refreshes : Timer → Bool
  | .merge | .stale | .poll | .rateLimit => true
  | .reconnect | .subscribe => false

namespace Observer

/-! ## What is pending -/

/-- The fields a reason to go on may lie in. -/
def causes (observer : Observer) :
    (ℕ × Option Connection × List ℕ × List ℕ) ×
      Option ℕ × Option ℕ × Option ℕ × Option ℕ × ℕ :=
  ((observer.recovering, observer.conn, observer.requests, observer.aborted), observer.mergeTimer,
    observer.staleTimer, observer.pollTimer, observer.rateLimitTimer, observer.mutations)

/-- A session is being recovered, or a socket has not been subscribed yet. -/
def Attempting (observer : Observer) : Prop :=
  observer.recovering ≠ 0 ∨
    ∃ connection, observer.conn = some connection ∧ connection.subscribed = false

/-- A timer that leads to a request is armed. -/
def timed (observer : Observer) : Bool :=
  observer.mergeTimer.isSome || observer.staleTimer.isSome || observer.pollTimer.isSome ||
    observer.rateLimitTimer.isSome

def Refreshing (observer : Observer) : Prop :=
  (∃ request ∈ observer.requests, request ∉ observer.aborted) ∨ observer.timed = true ∨
    observer.recovering ≠ 0 ∨ observer.mutations ≠ 0

/-- There is a reason to go on that outlasts what the mode does not renew. -/
def Going (observer : Observer) : Prop :=
  match observer.mode with
  | .connecting => observer.Attempting
  | .live => observer.Refreshing
  | .degraded => observer.Refreshing ∨ observer.Attempting
  | .idle | .stopped => True

variable {observer before after : Observer}

theorem Attempting.of_causes (hattempting : Attempting before)
    (hcauses : after.causes = before.causes) : Attempting after := by
  simp only [causes, Prod.mk.injEq] at hcauses
  obtain ⟨⟨hrecovering, hconn, -⟩, -⟩ := hcauses
  rw [Attempting, hrecovering, hconn]
  exact hattempting

theorem Refreshing.of_causes (hrefreshing : Refreshing before)
    (hcauses : after.causes = before.causes) : Refreshing after := by
  simp only [causes, Prod.mk.injEq] at hcauses
  obtain ⟨⟨hrecovering, -, hrequests, haborted⟩, hmerge, hstale, hpoll, hrate, hmutations⟩ := hcauses
  rw [Refreshing, timed, hrecovering, hrequests, haborted, hmerge, hstale, hpoll, hrate, hmutations]
  exact hrefreshing

theorem Refreshing.of_timed (htimed : observer.timed = true) : Refreshing observer :=
  .inr (.inl htimed)

/-! ## Modes -/

theorem causes_emit {entry : Entry} : (observer.emit entry).causes = observer.causes := by
  rw [emit]
  split <;> rfl

theorem mode_emit {entry : Entry} : (observer.emit entry).mode = observer.mode := by
  rw [emit]
  split <;> rfl

theorem causes_setMode {next : ObserverMode} :
    (observer.setMode next).causes = observer.causes := by
  rw [setMode]
  split
  · rfl
  · exact causes_emit

theorem mode_setMode (hrunning : observer.halted = false) {next : ObserverMode} :
    (observer.setMode next).mode = next := by
  have hdisposed : observer.disposed = false := (Bool.or_eq_false_iff.mp hrunning).1
  rw [setMode, hdisposed]
  split
  · rename_i hsame
    simpa using hsame
  · exact mode_emit

theorem Going.of_connecting (hmode : observer.mode = .connecting)
    (hattempting : Attempting observer) : Going observer := by
  rw [Going, hmode]
  exact hattempting

theorem Going.of_stopped (hmode : observer.mode = .stopped) : Going observer := by
  rw [Going, hmode]
  exact trivial

theorem Going.of_degraded (hmode : observer.mode = .degraded)
    (hrefreshing : Refreshing observer) : Going observer := by
  rw [Going, hmode]
  exact .inl hrefreshing

theorem Going.of_both (hrefreshing : Refreshing observer) (hattempting : Attempting observer) :
    Going observer := by
  rw [Going]
  split
  · exact hattempting
  · exact hrefreshing
  · exact .inl hrefreshing
  · trivial
  · trivial

/-- What is recovering is going. -/
theorem Going.of_recovering (hrecovering : observer.recovering ≠ 0) : Going observer :=
  .of_both (.inr (.inr (.inl hrecovering))) (.inl hrecovering)

/-! ## Steps that keep every reason -/

structure Sustains (before after : Observer) : Prop where
  mode : after.mode = before.mode
  attempting : Attempting before → Attempting after
  refreshing : Refreshing before → Refreshing after

theorem Sustains.trans {first middle last : Observer} (hfirst : Sustains first middle)
    (hlast : Sustains middle last) : Sustains first last :=
  ⟨hlast.mode.trans hfirst.mode, fun hbefore => hlast.attempting (hfirst.attempting hbefore),
    fun hbefore => hlast.refreshing (hfirst.refreshing hbefore)⟩

theorem Sustains.of_causes (hmode : after.mode = before.mode)
    (hcauses : after.causes = before.causes) : Sustains before after :=
  ⟨hmode, fun hattempting => hattempting.of_causes hcauses,
    fun hrefreshing => hrefreshing.of_causes hcauses⟩

theorem Sustains.refl (observer : Observer) : Sustains observer observer := .of_causes rfl rfl

theorem Sustains.going (hsustains : Sustains before after) (hgoing : Going before) :
    Going after := by
  rw [Going, hsustains.mode]
  rw [Going] at hgoing
  split at hgoing
  · exact hsustains.attempting hgoing
  · exact hsustains.refreshing hgoing
  · exact hgoing.imp hsustains.refreshing hsustains.attempting
  · trivial
  · trivial

/-- A timer is armed, and nothing else changes. -/
theorem Sustains.of_timed (hmode : after.mode = before.mode)
    (hattempting : Attempting before → Attempting after) (htimed : after.timed = true) :
    Sustains before after :=
  ⟨hmode, hattempting, fun _ => .of_timed htimed⟩

theorem sustains_emit {entry : Entry} : Sustains observer (observer.emit entry) :=
  .of_causes mode_emit causes_emit

theorem sustains_invalidate : Sustains observer observer.invalidate := by
  rw [invalidate]
  split
  · exact .refl observer
  split
  · exact .refl observer
  · exact .of_timed rfl id (by simp [timed])

theorem sustains_closeSocket {number : ℕ} : Sustains observer (observer.closeSocket number) :=
  .of_causes rfl rfl

theorem sustains_onOpen {number : ℕ} : Sustains observer (observer.onOpen number) := by
  rw [onOpen]
  split
  · rename_i connection hconn
    split
    · refine ⟨rfl, fun hattempting => ?_, id⟩
      rcases hattempting with hrecovering | ⟨current, hcurrent, hsubscribed⟩
      · exact .inl hrecovering
      · obtain rfl := Option.some.inj (hconn.symm.trans hcurrent)
        exact .inr ⟨_, rfl, hsubscribed⟩
    · exact .refl observer
  · exact .refl observer

/-! ## Requests -/

/-- A request of the current epoch that is aborted but has not settled: it
swallows every request for a snapshot. -/
def Blocked (observer : Observer) : Prop :=
  ∃ request, observer.inFlight = some request ∧ request = observer.epoch ∧
    request ∈ observer.aborted

theorem refreshing_fetchSnapshot {now : ℕ} {evaluationId : String}
    (hold : ∀ request ∈ observer.aborted, request ≤ observer.epoch) :
    Refreshing (observer.fetchSnapshot now evaluationId) := by
  rw [fetchSnapshot]
  split
  · split
    · exact .of_timed (by simp [timed])
    · rename_i delay hdelay
      exact .of_timed (by simp [timed, hdelay])
  · refine .inl ⟨observer.epoch + 1, List.mem_cons_self, fun haborted => ?_⟩
    exact absurd (hold _ haborted) (Nat.not_succ_le_self _)

theorem fetchSnapshot_kept {now : ℕ} {evaluationId : String} :
    (observer.fetchSnapshot now evaluationId).mode = observer.mode ∧
      (Attempting observer → Attempting (observer.fetchSnapshot now evaluationId)) := by
  rw [fetchSnapshot]
  split
  · split <;> exact ⟨rfl, id⟩
  · exact ⟨rfl, id⟩

theorem sustains_fetchSnapshot {now : ℕ} {evaluationId : String}
    (hold : ∀ request ∈ observer.aborted, request ≤ observer.epoch) :
    Sustains observer (observer.fetchSnapshot now evaluationId) :=
  ⟨fetchSnapshot_kept.1, fetchSnapshot_kept.2, fun _ => refreshing_fetchSnapshot hold⟩

theorem mode_abortInFlight : observer.abortInFlight.mode = observer.mode := by
  rw [abortInFlight]
  split <;> rfl

theorem Attempting.abortInFlight (hattempting : Attempting observer) :
    Attempting observer.abortInFlight := by
  rw [Observer.abortInFlight]
  split <;> exact hattempting

theorem Fresh.sustains_requestSnapshot (hfresh : Fresh observer) {now : ℕ} :
    Sustains observer (observer.requestSnapshot now) := by
  rw [Observer.requestSnapshot]
  split
  · exact .refl observer
  split
  · exact .refl observer
  split
  · split
    · have hold : ∀ request ∈ observer.abortInFlight.aborted,
          request ≤ observer.abortInFlight.epoch :=
        (hfresh.keeps keeps_abortInFlight).abortedOld
      refine ⟨fetchSnapshot_kept.1.trans mode_abortInFlight, fun hattempting => ?_,
        fun _ => refreshing_fetchSnapshot hold⟩
      exact fetchSnapshot_kept.2 hattempting.abortInFlight
    · exact .of_causes rfl rfl
  · exact sustains_fetchSnapshot hfresh.abortedOld

/-- Unless it is swallowed, a request for a snapshot gives a reason to go on. -/
theorem Fresh.refreshing_requestSnapshot (hfresh : Fresh observer)
    (hrunning : observer.halted = false) (hobserved : observer.evaluationId ≠ none)
    (hunblocked : ¬Blocked observer) {now : ℕ} : Refreshing (observer.requestSnapshot now) := by
  rw [Observer.requestSnapshot]
  split
  · rename_i hnone
    exact absurd hnone hobserved
  split
  · rename_i hhalted
    exact absurd (hrunning.symm.trans hhalted) (by decide)
  split
  · rename_i request hflight
    split
    · exact refreshing_fetchSnapshot (hfresh.keeps keeps_abortInFlight).abortedOld
    · rename_i hcurrent
      refine .inl ⟨request, hfresh.outstanding request hflight, fun haborted => ?_⟩
      exact hunblocked ⟨request, hflight, not_not.mp hcurrent, haborted⟩
  · exact refreshing_fetchSnapshot hfresh.abortedOld

/-! ## Connecting -/

theorem connect_of_conn {connection : Connection} (hconn : observer.conn = some connection) :
    observer.connect = observer := by
  rw [connect, hconn]
  cases observer.evaluationId <;> rfl

/-- A new connection is not subscribed yet. -/
theorem connect_of_none (hrunning : observer.halted = false)
    (hobserved : observer.evaluationId ≠ none) (hconn : observer.conn = none) :
    Attempting observer.connect ∧
      observer.connect.mode ∈ [ObserverMode.connecting, .degraded] := by
  obtain ⟨target, htarget⟩ := Option.ne_none_iff_exists'.mp hobserved
  rw [connect, htarget, hconn]
  dsimp only
  split
  · rename_i hhalted
    exact absurd (hrunning.symm.trans hhalted) (by decide)
  · refine ⟨.inr ⟨_, rfl, rfl⟩, ?_⟩
    dsimp only
    split
    · rw [mode_setMode hrunning]
      exact List.mem_cons_self
    · rename_i hmode
      cases hcurrent : observer.mode <;> simp_all

theorem going_connect (hrunning : observer.halted = false)
    (hobserved : observer.evaluationId ≠ none)
    (hgoing : observer.conn ≠ none → Going observer) : Going observer.connect := by
  cases hconn : observer.conn with
  | some connection =>
    rw [connect_of_conn hconn]
    exact hgoing (by simp [hconn])
  | none =>
    obtain ⟨hattempting, hmode⟩ := connect_of_none hrunning hobserved hconn
    rcases List.mem_pair.mp hmode with hconnecting | hdegraded
    · exact .of_connecting hconnecting hattempting
    · rw [Going, hdegraded]
      exact .inr hattempting

/-! ## Ends of connections -/

theorem going_forbid (hrunning : observer.halted = false) : Going observer.forbid := by
  have hstopped : (observer.stopObserving.emit .forbidden).halted = false := by
    rw [(keeps_stopObserving.trans (keeps_emit id id)).stays.halted]
    exact hrunning
  exact .of_stopped (mode_setMode hstopped)

theorem going_settleWith (hrunning : observer.halted = false) {evaluation : Evaluation} :
    Going (observer.settleWith evaluation) := by
  have hstopped : (observer.stopObserving.emit (.settled evaluation)).halted = false := by
    rw [(keeps_stopObserving.toActs.trans (acts_emit id)).stays.halted]
    exact hrunning
  exact .of_stopped (mode_setMode hstopped)

theorem going_handleUnauthorized : Going observer.handleUnauthorized :=
  .of_recovering (Nat.succ_ne_zero _)

/-- A lost socket degrades the observer, which then polls. -/
theorem going_handleSocketFailure (hrunning : observer.halted = false) {reason : String} :
    Going (observer.handleSocketFailure reason) := by
  have hmode :
      ({ observer with connectAttempts := observer.connectAttempts + 1 }.setMode .degraded).mode =
        .degraded := by
    apply mode_setMode
    exact hrunning
  rw [handleSocketFailure]
  generalize { observer with connectAttempts := observer.connectAttempts + 1 }.setMode .degraded =
    failed at hmode
  have hpolled : (if failed.pollTimer.isNone then
      { failed with staleTimer := none }.schedulePoll degradedPollMs
      else { failed with staleTimer := none }).mode = .degraded ∧
      (if failed.pollTimer.isNone then
        { failed with staleTimer := none }.schedulePoll degradedPollMs
      else { failed with staleTimer := none }).timed = true := by
    split
    · exact ⟨hmode, by simp [timed, schedulePoll]⟩
    · rename_i hpoll
      refine ⟨hmode, ?_⟩
      simp only [Option.isNone_iff_eq_none, ← ne_eq, Option.ne_none_iff_isSome] at hpoll
      simp [timed, hpoll]
  dsimp only
  generalize (if failed.pollTimer.isNone then
    { failed with staleTimer := none }.schedulePoll degradedPollMs
    else { failed with staleTimer := none }) = polled at hpolled
  have hgoing : Going polled := .of_degraded hpolled.1 (.of_timed hpolled.2)
  split
  · exact sustains_emit.going hgoing
  split
  · exact (Sustains.of_causes rfl rfl).going hgoing
  · exact hgoing

theorem going_handleFrame (hrunning : observer.halted = false) (hgoing : Going observer)
    {type : String} : Going (observer.handleFrame type) := by
  rw [handleFrame]
  split
  · exact hgoing
  split
  · split
    · exact hgoing
    · rename_i connection hconn
      rw [Going]
      have hlive : ({ observer with
          conn := some { connection with subscribeTimer := none, subscribed := true }
          pollTimer := none
          connectAttempts := 0
          pollFailures := 0 }.setMode .live).armStale.mode = .live := by
        apply mode_setMode
        exact hrunning
      rw [hlive]
      exact .of_timed (by simp [timed, armStale])
  · exact sustains_invalidate.going hgoing

theorem going_onMessage (hrunning : observer.halted = false) (hgoing : Going observer)
    {number : ℕ} {type : String} : Going (observer.onMessage number type) := by
  rw [onMessage]
  split
  · exact going_handleFrame hrunning hgoing
  · exact hgoing

theorem going_onClose (hrunning : observer.halted = false) (hgoing : Going observer)
    {number code : ℕ} : Going (observer.onClose number code) := by
  rw [onClose]
  dsimp only
  split
  · exact sustains_closeSocket.going hgoing
  split
  · apply going_forbid
    exact hrunning
  split
  · exact going_handleUnauthorized
  · apply going_handleSocketFailure
    exact hrunning

theorem going_onError (hrunning : observer.halted = false) (hgoing : Going observer)
    {number : ℕ} : Going (observer.onError number) := by
  rw [onError]
  split
  · exact sustains_closeSocket.going hgoing
  · apply going_handleSocketFailure
    exact hrunning

/-! ## Snapshots -/

/-- A completion that does not count was not the request to count on. -/
theorem Fresh.sustains_complete (hfresh : Fresh observer) (hrunning : observer.halted = false)
    {request : ℕ} (hrefused : (observer.complete request).accepts request = false) :
    Sustains observer (observer.complete request) := by
  refine ⟨rfl, id, fun hrefreshing => ?_⟩
  rcases hrefreshing with ⟨other, hother, hlive⟩ | hrest
  · refine .inl ⟨other, List.mem_filter.mpr ⟨hother, ?_⟩, hlive⟩
    have hflight := hfresh.inFlight other hother hlive
    obtain ⟨hepoch, -⟩ := hfresh.current other hflight hlive
    refine decide_eq_true fun hsame => ?_
    subst hsame
    have haccepted : (observer.complete other).accepts other = true := by
      simp only [halted, Bool.or_eq_false_iff] at hrunning
      simp [accepts, Observer.complete, hrunning, hlive, ← hepoch]
    rw [haccepted] at hrefused
    cases hrefused
  · exact .inr hrest

/-- What a completion that counts leaves: a connecting observer still counts on
its attempt. -/
theorem attempting_of_going (hgoing : Going observer) (hmode : observer.mode = .connecting) :
    Attempting observer := by
  rw [Going, hmode] at hgoing
  exact hgoing

theorem going_of_refreshing (hrefreshing : Refreshing observer)
    (hconnecting : observer.mode = .connecting → Attempting observer) : Going observer := by
  rw [Going]
  split
  · rename_i hmode
    exact hconnecting hmode
  · exact hrefreshing
  · exact .inl hrefreshing
  · trivial
  · trivial

theorem going_of_timed (htimed : observer.timed = true)
    (hconnecting : observer.mode = .connecting → Attempting observer) : Going observer :=
  going_of_refreshing (.of_timed htimed) hconnecting

theorem going_of_untimed (hlive : observer.mode ≠ .live) (hdegraded : observer.mode ≠ .degraded)
    (hconnecting : observer.mode = .connecting → Attempting observer) : Going observer := by
  rw [Going]
  split
  · rename_i hmode
    exact hconnecting hmode
  · rename_i hmode
    exact absurd hmode hlive
  · rename_i hmode
    exact absurd hmode hdegraded
  · trivial
  · trivial

theorem going_deliverSnapshot (hrunning : observer.halted = false)
    (hconnecting : observer.mode = .connecting → Attempting observer) {request : ℕ}
    {result : Evaluation} : Going (observer.deliverSnapshot request result) := by
  have hshown : Sustains observer (observer.emit (.snapshot request result observer.mode)) :=
    sustains_emit
  have hstill : (observer.emit (.snapshot request result observer.mode)).halted = false := by
    rw [emit]
    split <;> exact hrunning
  rw [deliverSnapshot]
  generalize observer.emit (.snapshot request result observer.mode) = shown at hshown hstill ⊢
  split
  · exact going_settleWith hstill
  have hattempting (hmode : shown.mode = .connecting) : Attempting shown :=
    hshown.attempting (hconnecting (hshown.mode.symm.trans hmode))
  split
  · exact going_of_timed (by simp [timed, armStale]) hattempting
  · exact going_of_timed (by simp [timed, schedulePoll]) hattempting
  · rename_i hlive hdegraded
    exact going_of_untimed hlive hdegraded hattempting

theorem going_handleFetchError (hrunning : observer.halted = false)
    (hconnecting : observer.mode = .connecting → Attempting observer) {now : ℕ}
    {error : FetchError} : Going (observer.handleFetchError now error) := by
  rw [handleFetchError]
  split
  · exact going_forbid hrunning
  split
  · exact going_handleUnauthorized
  split
  · dsimp only
    have hlimited : Sustains observer ({ observer with rateLimitUntil := now + rateLimitMs }.emit
        (.error "rate limited" observer.mode)) := by
      refine .trans ?_ sustains_emit
      exact .of_causes rfl rfl
    generalize { observer with rateLimitUntil := now + rateLimitMs }.emit
      (.error "rate limited" observer.mode) = limited at hlimited
    have hattempting (hmode : limited.mode = .connecting) : Attempting limited :=
      hlimited.attempting (hconnecting (hlimited.mode.symm.trans hmode))
    split
    · exact going_of_timed (by simp [timed]) hattempting
    · rename_i delay hdelay
      exact going_of_timed (by simp [timed, hdelay]) hattempting
  · have htold : Sustains observer (observer.emit
        (.error (error.message.getD "snapshot failed") observer.mode)) := sustains_emit
    dsimp only
    generalize observer.emit (.error (error.message.getD "snapshot failed") observer.mode) = told
      at htold
    have hattempting (hmode : told.mode = .connecting) : Attempting told :=
      htold.attempting (hconnecting (htold.mode.symm.trans hmode))
    split
    · exact going_of_timed (by simp [timed, schedulePoll]) hattempting
    · exact going_of_timed (by simp [timed, armStale]) hattempting
    · rename_i hdegraded hlive
      exact going_of_untimed hlive hdegraded hattempting

/-! ## Which evaluation is observed -/

theorem Acts.evaluationId (hacts : Acts before after) :
    after.evaluationId = before.evaluationId := by
  have hflags := hacts.flags
  simp only [Observer.flags, Prod.mk.injEq] at hflags
  exact hflags.2.2.2.2.1

theorem evaluationId_fetchSnapshot {now : ℕ} {evaluationId : String} :
    (observer.fetchSnapshot now evaluationId).evaluationId = observer.evaluationId := by
  rw [fetchSnapshot]
  split
  · split <;> rfl
  · rfl

theorem evaluationId_requestSnapshot {now : ℕ} :
    (observer.requestSnapshot now).evaluationId = observer.evaluationId := by
  rw [requestSnapshot]
  split
  · rfl
  split
  · rfl
  split
  · split
    · exact evaluationId_fetchSnapshot.trans keeps_abortInFlight.evaluationId
    · rfl
  · exact evaluationId_fetchSnapshot

theorem evaluationId_deliverSnapshot {request : ℕ} {result : Evaluation} :
    (observer.deliverSnapshot request result).evaluationId = observer.evaluationId := by
  have hshown : (observer.emit (.snapshot request result observer.mode)).evaluationId =
      observer.evaluationId := by
    rw [emit]
    split <;> rfl
  rw [deliverSnapshot]
  split
  · exact acts_settleWith.evaluationId.trans hshown
  split <;> exact hshown

/-! ## Steps -/

/-- The parts of the invariant that hold of every run, and that an observer at
work keeps going. -/
structure Lasting (observer : Observer) : Prop where
  fresh : Fresh observer
  resting : Resting observer
  paused : observer.paused = true → observer.suspended = true
  going : observer.halted = false → observer.evaluationId ≠ none → Going observer

theorem going_fetched (hfresh : Fresh observer) (hrunning : observer.halted = false)
    (hgoing : Going observer) {now request : ℕ} {result : Evaluation}
    (hrequest : request ∈ observer.requests) : Going (observer.fetched now request result) := by
  have hattempting : observer.mode = .connecting → Attempting observer :=
    attempting_of_going hgoing
  rw [fetched]
  dsimp only
  split
  · rename_i hrefused
    refine (hfresh.sustains_complete hrunning ?_).going hgoing
    simpa using hrefused
  · rename_i haccepts
    obtain ⟨hquiet, hcurrent⟩ := hfresh.accepted hrequest (by simpa using haccepts)
    have hdelivered : Fresh ((observer.complete request).deliverSnapshot request result) :=
      ((hfresh.complete request).deliverSnapshot hquiet hcurrent).1
    have hgoingDelivered : Going ((observer.complete request).deliverSnapshot request result) := by
      apply going_deliverSnapshot
      · exact hrunning
      · exact hattempting
    split
    · have hcleared : Fresh
          { (observer.complete request).deliverSnapshot request result with
            pendingInvalidation := false } := by
        apply hdelivered.keeps
        exact .of_core rfl
      apply hcleared.sustains_requestSnapshot.going
      exact (Sustains.of_causes rfl rfl).going hgoingDelivered
    · exact hgoingDelivered

theorem going_fetchFailed (hfresh : Fresh observer) (hrunning : observer.halted = false)
    (hgoing : Going observer) {now request : ℕ} {error : FetchError} :
    Going (observer.fetchFailed now request error) := by
  have hattempting : observer.mode = .connecting → Attempting observer :=
    attempting_of_going hgoing
  rw [fetchFailed]
  split
  · apply going_handleFetchError
    · exact hrunning
    · exact hattempting
  · rename_i hrefused
    refine (hfresh.sustains_complete hrunning ?_).going hgoing
    simpa using hrefused

/-- A connection that exists has not been subscribed yet. -/
def Unsubscribed (observer : Observer) : Prop :=
  ∀ connection, observer.conn = some connection → connection.subscribed = false

theorem going_connecting (hrunning : observer.halted = false)
    (hobserved : observer.evaluationId ≠ none) (hmode : observer.mode = .connecting)
    (hunsubscribed : Unsubscribed observer) : Going observer.connect := by
  refine going_connect hrunning hobserved fun hconn => .of_connecting hmode (.inr ?_)
  obtain ⟨connection, hconnection⟩ := Option.ne_none_iff_exists'.mp hconn
  exact ⟨connection, hconnection, hunsubscribed connection hconnection⟩

theorem mode_requestSnapshot {now : ℕ} : (observer.requestSnapshot now).mode = observer.mode := by
  rw [requestSnapshot]
  split
  · rfl
  split
  · rfl
  split
  · split
    · exact fetchSnapshot_kept.1.trans mode_abortInFlight
    · rfl
  · exact fetchSnapshot_kept.1

theorem conn_fetchSnapshot {now : ℕ} {evaluationId : String} :
    (observer.fetchSnapshot now evaluationId).conn = observer.conn := by
  rw [fetchSnapshot]
  split
  · split <;> rfl
  · rfl

theorem conn_abortInFlight : observer.abortInFlight.conn = observer.conn := by
  rw [abortInFlight]
  split <;> rfl

theorem conn_requestSnapshot {now : ℕ} : (observer.requestSnapshot now).conn = observer.conn := by
  rw [requestSnapshot]
  split
  · rfl
  split
  · rfl
  split
  · split
    · exact conn_fetchSnapshot.trans conn_abortInFlight
    · rfl
  · exact conn_fetchSnapshot

/-- A request and a connection after it, while connecting. -/
theorem going_open (hrunning : observer.halted = false) (hobserved : observer.evaluationId ≠ none)
    (hmode : observer.mode = .connecting) (hunsubscribed : Unsubscribed observer) {now : ℕ} :
    Going (observer.requestSnapshot now).connect := by
  apply going_connecting
  · rw [stays_requestSnapshot.halted]
    exact hrunning
  · rw [evaluationId_requestSnapshot]
    exact hobserved
  · rw [mode_requestSnapshot]
    exact hmode
  · rw [Unsubscribed, conn_requestSnapshot]
    exact hunsubscribed

theorem going_recovered (hrunning : observer.halted = false)
    (hobserved : observer.evaluationId ≠ none) {now : ℕ} {success : Bool}
    (hunsubscribed : success = true → Unsubscribed observer) :
    Going (observer.recovered now success) := by
  have hawake : (observer.disposed || observer.paused) = false := hrunning
  rw [recovered]
  dsimp only
  rw [hawake]
  cases success with
  | true =>
    have hset : Keeps { observer with recovering := observer.recovering - 1 }
        ({ observer with recovering := observer.recovering - 1 }.setMode .connecting) :=
      keeps_setMode
    apply going_open
    · rw [hset.stays.halted]
      exact hrunning
    · rw [hset.evaluationId]
      exact hobserved
    · apply mode_setMode
      exact hrunning
    · rw [Unsubscribed, setMode_conn]
      exact hunsubscribed rfl
  | false =>
    apply Going.of_stopped
    apply mode_setMode
    rw [(keeps_emit id id).stays.halted]
    exact hrunning

/-- A timer that asks for a snapshot, while no aborted request swallows it. -/
theorem going_refresh (hfresh : Fresh observer) (hrunning : observer.halted = false)
    (hobserved : observer.evaluationId ≠ none) (hunblocked : ¬Blocked observer)
    (hconnecting : observer.mode = .connecting → Attempting observer) {now : ℕ} :
    Going (observer.requestSnapshot now) := by
  refine going_of_refreshing
    (hfresh.refreshing_requestSnapshot hrunning hobserved hunblocked) fun hmode => ?_
  rw [mode_requestSnapshot] at hmode
  exact hfresh.sustains_requestSnapshot.attempting (hconnecting hmode)

theorem going_fire (hfresh : Fresh observer) (hrunning : observer.halted = false)
    (hobserved : observer.evaluationId ≠ none) (hgoing : Going observer) {now : ℕ} {timer : Timer}
    (harmed : observer.armed timer = true)
    (hunblocked : timer.refreshes = true → ¬Blocked observer) :
    Going (observer.fire now timer) := by
  have hawake : (observer.disposed || observer.paused) = false := hrunning
  have hattempting : observer.mode = .connecting → Attempting observer :=
    attempting_of_going hgoing
  have hdisarmed : Fresh (observer.disarm timer) := by
    apply hfresh.of_flights
    · cases timer <;> rfl
    · cases timer <;> rfl
  cases timer with
  | reconnect =>
    have hfired : observer.fire now .reconnect = (observer.disarm .reconnect).connect := by
      rw [fire]
      exact if_neg (by simp [disarm, hawake])
    rw [hfired]
    apply going_connect
    · exact hrunning
    · exact hobserved
    · exact fun _ => (Sustains.of_causes rfl rfl).going hgoing
  | subscribe =>
    obtain ⟨connection, hconn⟩ : ∃ connection, observer.conn = some connection := by
      rw [armed] at harmed
      cases hconn : observer.conn with
      | some connection => exact ⟨connection, rfl⟩
      | none =>
        rw [hconn] at harmed
        cases harmed
    have hfired : observer.fire now .subscribe =
        { observer.closeSocket connection.number with conn := none }.handleSocketFailure
          "subscribe timeout" := by
      simp [fire, disarm, hconn, hawake, closeSocket]
    rw [hfired]
    apply going_handleSocketFailure
    exact hrunning
  | _ =>
    rw [fire]
    refine (congrArg Going (if_neg ?_)).mpr ?_
    · simp [disarm, hawake]
    · apply going_refresh hdisarmed
      · exact hrunning
      · exact hobserved
      · exact hunblocked rfl
      · exact hattempting

/-- Resuming connects an observer that has no connection. -/
theorem going_resumeIfNeeded (hfresh : Fresh observer) (hrunning : observer.halted = false)
    (hobserved : observer.evaluationId ≠ none) (hgoing : observer.conn ≠ none → Going observer)
    {now : ℕ} : Going (observer.resumeIfNeeded now) := by
  rw [resumeIfNeeded]
  split
  · rename_i hstays
    apply Going.of_stopped
    have hsome : observer.evaluationId.isNone = false :=
      Option.isNone_eq_false_iff.mpr (Option.isSome_iff_ne_none.mpr hobserved)
    simp only [halted] at hrunning
    simpa [hrunning, hsome] using hstays
  · have hreset : Fresh { observer with connectAttempts := 0, pollFailures := 0 } :=
      hfresh.of_flights rfl rfl
    apply going_connect
    · rw [stays_requestSnapshot.halted]
      exact hrunning
    · rw [evaluationId_requestSnapshot]
      exact hobserved
    · rw [conn_requestSnapshot]
      intro hconn
      apply hreset.sustains_requestSnapshot.going
      exact (Sustains.of_causes rfl rfl).going (hgoing hconn)

theorem going_start (hresting : Resting observer) (hrunning : observer.halted = false)
    (hgoing : observer.evaluationId ≠ none → Going observer) {now : ℕ} {id : String} :
    Going (observer.start now id) := by
  have hdisposed : observer.disposed = false := (Bool.or_eq_false_iff.mp hrunning).1
  rw [start]
  split
  · rename_i hgone
    rw [hdisposed] at hgone
    cases hgone
  split
  · rename_i hsame
    refine hgoing ?_
    simp only [ne_eq, Bool.and_eq_true, decide_eq_true_eq] at hsame
    simp [hsame.1.1]
  · have hstopped : observer.stopObserving.halted = false := by
      rw [keeps_stopObserving.stays.halted]
      exact hrunning
    have hquiet := hresting.wired.quiet_stop
    dsimp only
    split
    · rw [Going]
      have hidle : ({ observer.stopObserving.record .started with
          evaluationId := some id, epoch := observer.epoch + 1 }.setMode .idle).mode = .idle := by
        apply mode_setMode
        exact hstopped
      rw [hidle]
      trivial
    · apply going_open
      · rw [keeps_setMode.stays.halted]
        exact hstopped
      · rw [keeps_setMode.evaluationId]
        exact Option.some_ne_none id
      · apply mode_setMode
        exact hstopped
      · rw [Unsubscribed, setMode_conn]
        intro connection hconn
        cases hconn.symm.trans hquiet.conn

theorem going_runMutation (hgoing : Going observer) : Going observer.runMutation := by
  have hmutating : observer.runMutation.mutations ≠ 0 := by
    rw [runMutation]
    exact Nat.succ_ne_zero _
  have hmode : observer.runMutation.mode = observer.mode :=
    (observer.record .mutation).mode_abortInFlight
  refine going_of_refreshing (.inr (.inr (.inr hmutating))) fun hconnecting => ?_
  have hattempting : Attempting (observer.record .mutation) :=
    attempting_of_going hgoing (hmode.symm.trans hconnecting)
  exact hattempting.abortInFlight

theorem going_mutationDone (hrunning : observer.halted = false)
    (hobserved : observer.evaluationId ≠ none) (hgoing : Going observer) :
    Going observer.mutationDone := by
  simp only [halted, Bool.or_eq_false_iff] at hrunning
  have hsome : observer.evaluationId.isNone = false :=
    Option.isNone_eq_false_iff.mpr (Option.isSome_iff_ne_none.mpr hobserved)
  have hattempting : observer.mode = .connecting → Attempting observer :=
    attempting_of_going hgoing
  rw [mutationDone]
  dsimp only
  rw [hrunning.1, invalidate]
  simp only [hrunning, hsome, Bool.or_self, Bool.false_eq_true, if_false]
  split
  · rename_i hmerge
    exact going_of_timed (by simp [timed, hmerge]) hattempting
  · exact going_of_timed (by simp [timed]) hattempting

/-! ## Runs -/

/-- No timer asks for a snapshot while an aborted request swallows it, and no
session is recovered while a socket is subscribed. -/
def Unhindered (observer : Observer) : ℕ × Event → Prop
  | (_, .fire timer) => timer.refreshes = true → ¬observer.Blocked
  | (_, .recovered success) => success = true → observer.Unsubscribed
  | _ => True

theorem Stays.paused (hstays : Stays before after)
    (hpaused : before.paused = true → before.suspended = true) :
    after.paused = true → after.suspended = true := by
  have hswitches := hstays.switches
  simp only [Observer.switches, Prod.mk.injEq] at hswitches
  rw [suspended, hswitches.2.1, hswitches.2.2.1, hswitches.2.2.2]
  exact hpaused

/-- Whoever is paused is suspended. -/
theorem paused_step {label : ℕ × Event} (hresting : Resting before)
    (hpaused : before.paused = true → before.suspended = true)
    (hstep : before.step label = some after) :
    after.paused = true → after.suspended = true := by
  cases hturns : label.2.turns with
  | false => exact (stays_step hresting hstep hturns).paused hpaused
  | true =>
    obtain ⟨now, event⟩ := label
    cases event with
    | setVisible visible =>
      cases hstep
      rw [setVisible]
      split
      · exact hpaused
      split
      · apply Stays.paused stays_resumeIfNeeded
        intro hvisible
        cases hvisible
      · rename_i hnext
        apply Stays.paused keeps_stopObserving.stays
        exact fun _ => by simp [suspended, record, hnext]
    | setOnline online =>
      cases hstep
      rw [setOnline]
      split
      · exact hpaused
      split
      · apply Stays.paused stays_resumeIfNeeded
        intro hvisible
        cases hvisible
      · rename_i hnext
        apply Stays.paused keeps_stopObserving.stays
        exact fun _ => by simp [suspended, record, hnext]
    | dispose =>
      cases hstep
      have hstopped : Stays ({ before with disposed := true }.record .disposed) before.dispose :=
        keeps_stopObserving.stays.trans (.of_eq rfl rfl rfl)
      exact hstopped.paused hpaused
    | _ => cases hturns

theorem halted_pause : observer.pause.halted = true := by
  have hstopped : Stays ({ observer with paused := true }.record .pause) observer.pause :=
    keeps_stopObserving.stays
  exact hstopped.halted.trans (Bool.or_true _)

theorem halted_dispose : observer.dispose.halted = true := by
  have hstopped : Stays ({ observer with disposed := true }.record .disposed) observer.dispose :=
    keeps_stopObserving.stays.trans (.of_eq rfl rfl rfl)
  exact hstopped.halted

theorem evaluationId_resumeIfNeeded {now : ℕ} :
    (observer.resumeIfNeeded now).evaluationId = observer.evaluationId := by
  rw [resumeIfNeeded]
  split
  · rfl
  · rw [keeps_connect.evaluationId, evaluationId_requestSnapshot]

/-- Whether it was halted or not, an observer that is resumed is going. -/
theorem Lasting.going_resumed (hlasting : Lasting before) {turned : Observer}
    (hfresh : Fresh turned) (hmode : turned.mode = before.mode)
    (hcauses : turned.causes = before.causes)
    (hevaluation : turned.evaluationId = before.evaluationId) {now : ℕ}
    (hrunning : (turned.resumeIfNeeded now).halted = false)
    (hobserved : (turned.resumeIfNeeded now).evaluationId ≠ none) :
    Going (turned.resumeIfNeeded now) := by
  rw [stays_resumeIfNeeded.halted] at hrunning
  rw [evaluationId_resumeIfNeeded] at hobserved
  refine going_resumeIfNeeded hfresh hrunning hobserved fun hconn => ?_
  have hsame : turned.conn = before.conn := by
    simp only [causes, Prod.mk.injEq] at hcauses
    exact hcauses.1.2.1
  have hbefore : before.halted = false := by
    by_contra hhalted
    exact hconn (hsame.trans (hlasting.resting.quiet (by simpa using hhalted)).conn)
  exact (Sustains.of_causes hmode hcauses).going (hlasting.going hbefore (hevaluation ▸ hobserved))

theorem Lasting.going_setVisible (hlasting : Lasting before) {now : ℕ} {next : Bool}
    (hrunning : (before.setVisible now next).halted = false)
    (hobserved : (before.setVisible now next).evaluationId ≠ none) :
    Going (before.setVisible now next) := by
  rw [setVisible] at hrunning hobserved ⊢
  split
  · rename_i hsame
    rw [if_pos hsame] at hrunning hobserved
    exact hlasting.going hrunning hobserved
  · rename_i hturned
    rw [if_neg hturned] at hrunning hobserved
    cases next with
    | true =>
      have hfresh : Fresh { before with visible := true, paused := false } :=
        hlasting.fresh.of_flights rfl rfl
      exact hlasting.going_resumed hfresh rfl rfl rfl hrunning hobserved
    | false => exact absurd (hrunning.symm.trans halted_pause) (by decide)

theorem Lasting.going_setOnline (hlasting : Lasting before) {now : ℕ} {next : Bool}
    (hrunning : (before.setOnline now next).halted = false)
    (hobserved : (before.setOnline now next).evaluationId ≠ none) :
    Going (before.setOnline now next) := by
  rw [setOnline] at hrunning hobserved ⊢
  split
  · rename_i hsame
    rw [if_pos hsame] at hrunning hobserved
    exact hlasting.going hrunning hobserved
  · rename_i hturned
    rw [if_neg hturned] at hrunning hobserved
    cases next with
    | true =>
      have hfresh : Fresh { before with online := true, paused := false } :=
        hlasting.fresh.of_flights rfl rfl
      exact hlasting.going_resumed hfresh rfl rfl rfl hrunning hobserved
    | false => exact absurd (hrunning.symm.trans halted_pause) (by decide)

theorem evaluationId_fetched {now request : ℕ} {result : Evaluation} :
    (observer.fetched now request result).evaluationId = observer.evaluationId := by
  have hdelivered :
      ((observer.complete request).deliverSnapshot request result).evaluationId =
        observer.evaluationId := evaluationId_deliverSnapshot
  rw [fetched]
  dsimp only
  split
  · rfl
  split
  · exact evaluationId_requestSnapshot.trans hdelivered
  · exact hdelivered

theorem evaluationId_fetchFailed {now request : ℕ} {error : FetchError} :
    (observer.fetchFailed now request error).evaluationId = observer.evaluationId := by
  rw [fetchFailed]
  split
  · exact keeps_handleFetchError.evaluationId
  · rfl

theorem evaluationId_recovered {now : ℕ} {success : Bool} :
    (observer.recovered now success).evaluationId = observer.evaluationId := by
  rw [recovered]
  dsimp only
  split
  · rfl
  split
  · rw [keeps_connect.evaluationId, evaluationId_requestSnapshot, keeps_setMode.evaluationId]
  · rw [keeps_setMode.evaluationId, (keeps_emit id id).evaluationId]

theorem evaluationId_fire {now : ℕ} {timer : Timer} :
    (observer.fire now timer).evaluationId = observer.evaluationId := by
  have hdisarmed : (observer.disarm timer).evaluationId = observer.evaluationId := by
    cases timer <;> rfl
  rw [fire.eq_def]
  dsimp only
  split
  · exact hdisarmed
  split
  · rw [keeps_connect.evaluationId, hdisarmed]
  · split
    · rw [keeps_handleSocketFailure.evaluationId]
      exact hdisarmed
    · exact hdisarmed
  all_goals rw [evaluationId_requestSnapshot, hdisarmed]

theorem Lasting.going_step (hlasting : Lasting before) {label : ℕ × Event}
    (hunhindered : before.Unhindered label) (hstep : before.step label = some after)
    (hrunning : after.halted = false) (hobserved : after.evaluationId ≠ none) : Going after := by
  obtain ⟨now, event⟩ := label
  have hfresh := hlasting.fresh
  have hresting := hlasting.resting
  have hgoing := hlasting.going
  cases hturns : event.turns with
  | true =>
    cases event with
    | setVisible visible => cases hstep; exact hlasting.going_setVisible hrunning hobserved
    | setOnline online => cases hstep; exact hlasting.going_setOnline hrunning hobserved
    | dispose => cases hstep; exact absurd (hrunning.symm.trans halted_dispose) (by decide)
    | _ => cases hturns
  | false =>
    have hbefore : before.halted = false :=
      (stays_step hresting hstep hturns).halted.symm.trans hrunning
    cases event with
    | start id => cases hstep; exact going_start hresting hbefore (hgoing hbefore)
    | refresh =>
      cases hstep
      rw [evaluationId_requestSnapshot] at hobserved
      exact hfresh.sustains_requestSnapshot.going (hgoing hbefore hobserved)
    | invalidate =>
      cases hstep
      rw [keeps_invalidate.evaluationId] at hobserved
      exact sustains_invalidate.going (hgoing hbefore hobserved)
    | runMutation =>
      cases hstep
      have haborted : Keeps (before.record .mutation) (before.record .mutation).abortInFlight :=
        keeps_abortInFlight
      have hsame : before.runMutation.evaluationId = before.evaluationId := haborted.evaluationId
      exact going_runMutation (hgoing hbefore (hsame ▸ hobserved))
    | mutationDone =>
      obtain ⟨-, ⟨⟩⟩ := Option.ite_none_left_eq_some.mp hstep
      rw [keeps_mutationDone.evaluationId] at hobserved
      exact going_mutationDone hbefore hobserved (hgoing hbefore hobserved)
    | onOpen number =>
      cases hstep
      rw [keeps_onOpen.evaluationId] at hobserved
      exact sustains_onOpen.going (hgoing hbefore hobserved)
    | onMessage number type =>
      cases hstep
      rw [keeps_onMessage.evaluationId] at hobserved
      exact going_onMessage hbefore (hgoing hbefore hobserved)
    | onClose number code =>
      cases hstep
      rw [keeps_onClose.evaluationId] at hobserved
      exact going_onClose hbefore (hgoing hbefore hobserved)
    | onError number =>
      cases hstep
      rw [keeps_onError.evaluationId] at hobserved
      exact going_onError hbefore (hgoing hbefore hobserved)
    | fire timer =>
      obtain ⟨harmed, ⟨⟩⟩ := Option.ite_none_right_eq_some.mp hstep
      rw [evaluationId_fire] at hobserved
      exact going_fire hfresh hbefore hobserved (hgoing hbefore hobserved) harmed hunhindered
    | fetched request result =>
      obtain ⟨hrequest, ⟨⟩⟩ := Option.ite_none_right_eq_some.mp hstep
      rw [evaluationId_fetched] at hobserved
      exact going_fetched hfresh hbefore (hgoing hbefore hobserved) hrequest
    | fetchFailed request error =>
      obtain ⟨-, ⟨⟩⟩ := Option.ite_none_right_eq_some.mp hstep
      rw [evaluationId_fetchFailed] at hobserved
      exact going_fetchFailed hfresh hbefore (hgoing hbefore hobserved)
    | recovered success =>
      obtain ⟨-, ⟨⟩⟩ := Option.ite_none_left_eq_some.mp hstep
      rw [evaluationId_recovered] at hobserved
      exact going_recovered hbefore hobserved hunhindered
    | setVisible visible | setOnline online | dispose => cases hturns

theorem Lasting.step (hlasting : Lasting before) {label : ℕ × Event}
    (hunhindered : before.Unhindered label) (hstep : before.step label = some after) :
    Lasting after where
  fresh := hlasting.fresh.step hstep
  resting := hlasting.resting.step hstep
  paused := paused_step hlasting.resting hlasting.paused hstep
  going := hlasting.going_step hunhindered hstep

theorem lasting_initial : Lasting {} :=
  ⟨fresh_initial, resting_initial, nofun, fun _ hobserved => absurd rfl hobserved⟩

/-- Something that will refresh the observer is pending. -/
def Pending (observer : Observer) : Prop :=
  (∃ request ∈ observer.requests, request ∉ observer.aborted) ∨
    (∃ timer, observer.armed timer = true) ∨
    (∃ connection, observer.conn = some connection ∧ connection.isOpen = false) ∨
    observer.recovering ≠ 0 ∨ observer.mutations ≠ 0

theorem Attempting.pending (hattempting : Attempting observer) (hwired : Wired observer) :
    Pending observer := by
  rcases hattempting with hrecovering | ⟨connection, hconn, hsubscribed⟩
  · exact .inr (.inr (.inr (.inl hrecovering)))
  · cases hopen : connection.isOpen with
    | false => exact .inr (.inr (.inl ⟨connection, hconn, hopen⟩))
    | true =>
      refine .inr (.inl ⟨.subscribe, ?_⟩)
      rw [armed, hconn]
      exact hwired.timer connection hconn hopen hsubscribed

theorem Refreshing.pending (hrefreshing : Refreshing observer) : Pending observer := by
  rcases hrefreshing with hrequest | htimed | hrecovering | hmutations
  · exact .inl hrequest
  · simp only [timed, Bool.or_eq_true] at htimed
    refine .inr (.inl ?_)
    rcases htimed with ((hmerge | hstale) | hpoll) | hrate
    · exact ⟨.merge, hmerge⟩
    · exact ⟨.stale, hstale⟩
    · exact ⟨.poll, hpoll⟩
    · exact ⟨.rateLimit, hrate⟩
  · exact .inr (.inr (.inr (.inl hrecovering)))
  · exact .inr (.inr (.inr (.inr hmutations)))

theorem Going.pending (hgoing : Going observer) (hwired : Wired observer)
    (hmode : observer.mode ∈ [ObserverMode.connecting, .live, .degraded]) : Pending observer := by
  rw [Going] at hgoing
  split at hgoing
  · exact hgoing.pending hwired
  · exact hgoing.pending
  · exact hgoing.elim Refreshing.pending fun hattempting => hattempting.pending hwired
  · simp_all
  · simp_all

/-- In every run in which no swallowed request is asked for by a timer and no
session is recovered behind a subscribed socket, an observer at work always has
something pending that will refresh it. -/
theorem pending_of_run {labels : List (ℕ × Event)}
    (hunhindered : StepsMeet Observer.step Unhindered {} labels)
    (hrun : Transition.run Observer.step {} labels = some observer)
    (hobserved : observer.evaluationId ≠ none) (hvisible : observer.visible = true)
    (honline : observer.online = true) (hdisposed : observer.disposed = false)
    (hmode : observer.mode ∈ [ObserverMode.connecting, .live, .degraded]) : Pending observer := by
  have hlasting : Lasting observer := hunhindered.invariant_run Lasting
    (fun _ _ _ hlasting hmeets hstep => hlasting.step hmeets hstep) lasting_initial hrun
  have hpaused : observer.paused = false := by
    by_contra hpaused
    have hsuspended := hlasting.paused (by simpa using hpaused)
    simp [suspended, hvisible, honline] at hsuspended
  have hrunning : observer.halted = false := by simp [halted, hdisposed, hpaused]
  exact (hlasting.going hrunning hobserved).pending hlasting.resting.wired hmode

/-- A socket is lost, and the page polls. -/
def degradedRun : List (ℕ × Event) :=
  [(0, .start "e"), (0, .onClose 1 1006), (0, .fetched 2 ⟨"running"⟩), (3000, .fire .poll),
    (3000, .fetchFailed 3 ⟨some 429, none⟩)]

theorem pending_of_run_degraded : ∃ observer,
    Transition.run Observer.step {} degradedRun = some observer ∧ Pending observer := by
  have hunhindered : StepsMeet Observer.step Unhindered {} degradedRun := by
    refine .cons trivial rfl (.cons trivial rfl (.cons trivial rfl (.cons ?_ rfl
      (.cons trivial rfl trivial))))
    rintro - ⟨request, hflight, -, -⟩
    cases hflight
  exact ⟨_, rfl, pending_of_run hunhindered rfl (by decide) rfl rfl rfl (by decide)⟩

/-- The page is hidden and shown while a request is outstanding, which does not
settle before the next socket is subscribed and its timer fires. -/
def swallowedRun : List (ℕ × Event) :=
  [(0, .start "e"), (0, .setVisible false), (0, .setVisible true), (0, .onOpen 2),
    (0, .onMessage 2 "subscribed"), (15000, .fire .stale)]

/-- A session is recovered after the page has been hidden and shown. -/
def lateRecoveryRun : List (ℕ × Event) :=
  [(0, .start "e"), (0, .fetchFailed 2 ⟨some 401, none⟩), (0, .setVisible false),
    (0, .setVisible true), (0, .onOpen 2), (0, .onMessage 2 "subscribed"),
    (0, .fetched 3 ⟨"running"⟩), (0, .recovered true), (0, .fetched 4 ⟨"running"⟩),
    (15000, .fire .stale), (15000, .fetched 5 ⟨"running"⟩)]

theorem not_pending (hrequests : ∀ request ∈ observer.requests, request ∈ observer.aborted)
    (htimers : ∀ timer, observer.armed timer = false)
    (hconn : ∀ connection, observer.conn = some connection → connection.isOpen = true)
    (hrecovering : observer.recovering = 0) (hmutations : observer.mutations = 0) :
    ¬Pending observer := by
  rintro (⟨request, hrequest, hlive⟩ | ⟨timer, harmed⟩ | ⟨connection, hcurrent, hclosed⟩ |
    hrecovers | hmutates)
  · exact hlive (hrequests request hrequest)
  · rw [htimers timer] at harmed
    cases harmed
  · rw [hconn connection hcurrent] at hclosed
    cases hclosed
  · exact hrecovers hrecovering
  · exact hmutates hmutations

theorem stuck_runs :
    (∃ observer, Transition.run Observer.step {} swallowedRun = some observer ∧
      observer.evaluationId = some "e" ∧ observer.visible = true ∧ observer.online = true ∧
        observer.disposed = false ∧ observer.mode = .live ∧ ¬Pending observer) ∧
      ∃ observer, Transition.run Observer.step {} lateRecoveryRun = some observer ∧
        observer.evaluationId = some "e" ∧ observer.visible = true ∧ observer.online = true ∧
          observer.disposed = false ∧ observer.mode = .connecting ∧ ¬Pending observer := by
  refine ⟨⟨_, rfl, rfl, rfl, rfl, rfl, rfl, not_pending (by decide) ?_ ?_ rfl rfl⟩,
    ⟨_, rfl, rfl, rfl, rfl, rfl, rfl, not_pending (by decide) ?_ ?_ rfl rfl⟩⟩
  · intro timer
    cases timer <;> rfl
  · rintro connection ⟨⟩
    rfl
  · intro timer
    cases timer <;> rfl
  · rintro connection ⟨⟩
    rfl

end Observer

end AlgorithmHarness.Browser
