import AlgorithmHarness.Browser.ProgressObserver

/-!
# What the parts of the observer may change

Most functions of the observer leave the requests, the flags and the evaluation
alone, except that they may abort the request in flight; the lemmas here say so
once for each of them.
-/

namespace AlgorithmHarness.Browser

/-- What makes the requests before it worthless. -/
def Entry.Supersedes : Entry → Prop
  | .requested _ _ | .started | .mutation | .pause | .settled _ | .disposed => True
  | _ => False

def Entry.IsSnapshot : Entry → Prop
  | .snapshot _ _ _ => True
  | _ => False

namespace Observer

/-! ## Relations between two states -/

/-- Every socket is that of the connection, and a connection that has opened
and waits for its subscription has a timer. -/
structure Wired (observer : Observer) : Prop where
  socket : ∀ number ∈ observer.sockets, ∃ connection, observer.conn = some connection ∧
    connection.number = number
  timer : ∀ connection, observer.conn = some connection → connection.isOpen = true →
    connection.subscribed = false → connection.subscribeTimer.isSome = true

/-- What shows nothing and leaves the requests alone, except that it may abort
the one in flight. -/
structure Moves (before after : Observer) : Prop where
  requests : after.requests = before.requests
  epoch : before.epoch ≤ after.epoch
  inFlight : after.inFlight = before.inFlight
  aborted : before.aborted ⊆ after.aborted
  aborts : ∀ request ∈ after.aborted, request ∈ before.aborted ∨ before.inFlight = some request
  log : ∃ since, after.log = since ++ before.log ∧ ∀ entry ∈ since, ¬entry.IsSnapshot

def flags (observer : Observer) : Bool × Bool × Bool × Bool × Option String × ℕ :=
  (observer.disposed, observer.paused, observer.visible, observer.online, observer.evaluationId,
    observer.mutations)

/-- What moves and leaves the flags and the evaluation alone. -/
structure Acts (before after : Observer) : Prop extends Moves before after where
  flags : after.flags = before.flags
  wired : Wired before → Wired after

/-- What acts and supersedes nothing. -/
structure Keeps (before after : Observer) : Prop extends Acts before after where
  sameEpoch : after.epoch = before.epoch
  plain : ∃ since, after.log = since ++ before.log ∧ ∀ entry ∈ since, ¬entry.Supersedes

/-- The requests of a state. -/
def flights (observer : Observer) : List ℕ × Option ℕ × List ℕ × List Entry :=
  (observer.requests, observer.inFlight, observer.aborted, observer.log)

/-- Whatever `Keeps` reads. -/
def core (observer : Observer) :
    (List ℕ × Option ℕ × List ℕ × List Entry) × (Bool × Bool × Bool × Bool × Option String × ℕ) ×
      ℕ × Option Connection × List ℕ :=
  (observer.flights, observer.flags, observer.epoch, observer.conn, observer.sockets)

namespace Moves

theorem trans {first middle last : Observer} (hfirst : Moves first middle)
    (hlast : Moves middle last) : Moves first last := by
  obtain ⟨since, hsince, hunseen⟩ := hfirst.log
  obtain ⟨later, hlater, hlaterUnseen⟩ := hlast.log
  refine ⟨hlast.requests.trans hfirst.requests, Nat.le_trans hfirst.epoch hlast.epoch,
    hlast.inFlight.trans hfirst.inFlight, List.Subset.trans hfirst.aborted hlast.aborted, ?_,
    later ++ since, by rw [hlater, hsince, List.append_assoc], ?_⟩
  · intro request hrequest
    rcases hlast.aborts request hrequest with hmem | hflight
    · exact hfirst.aborts request hmem
    · exact .inr (hfirst.inFlight ▸ hflight)
  · intro entry hentry
    rcases List.mem_append.mp hentry with hmem | hmem
    · exact hlaterUnseen entry hmem
    · exact hunseen entry hmem

/-- What moves may follow what moves. -/
theorem after {first middle last : Observer} (hlast : Moves middle last)
    (hfirst : Moves first middle) : Moves first last :=
  hfirst.trans hlast

/-- Fields that requests do not depend on may change, and epochs may pass. -/
theorem of_flights {before after : Observer} (hflights : after.flights = before.flights)
    (hepoch : before.epoch ≤ after.epoch) : Moves before after := by
  simp only [flights, Prod.mk.injEq] at hflights
  obtain ⟨hrequests, hinFlight, haborted, hlog⟩ := hflights
  exact ⟨hrequests, hepoch, hinFlight, by rw [haborted]; exact List.Subset.refl _,
    fun _ hmem => .inl (haborted ▸ hmem), [], hlog, by simp⟩

end Moves

theorem Wired.of_eq {before after : Observer} (hwired : Wired before)
    (hconn : after.conn = before.conn) (hsockets : after.sockets = before.sockets) :
    Wired after where
  socket := by
    rw [hconn, hsockets]
    exact hwired.socket
  timer := by
    rw [hconn]
    exact hwired.timer

theorem Acts.trans {first middle last : Observer} (hfirst : Acts first middle)
    (hlast : Acts middle last) : Acts first last where
  toMoves := hfirst.toMoves.trans hlast.toMoves
  flags := hlast.flags.trans hfirst.flags
  wired hwired := hlast.wired (hfirst.wired hwired)

namespace Keeps

/-- Fields that are not read may change. -/
theorem of_core {before after : Observer} (hcore : after.core = before.core) :
    Keeps before after := by
  simp only [core, Prod.mk.injEq] at hcore
  obtain ⟨hflights, hflags, hepoch, hconn, hsockets⟩ := hcore
  refine ⟨⟨.of_flights hflights (Nat.le_of_eq hepoch.symm), hflags,
    fun hwired => hwired.of_eq hconn hsockets⟩, hepoch, [], ?_, by simp⟩
  simp only [flights, Prod.mk.injEq] at hflights
  exact hflights.2.2.2

theorem refl (observer : Observer) : Keeps observer observer := .of_core rfl

theorem trans {first middle last : Observer} (hfirst : Keeps first middle)
    (hlast : Keeps middle last) : Keeps first last := by
  obtain ⟨since, hsince, hplain⟩ := hfirst.plain
  obtain ⟨later, hlater, hlaterPlain⟩ := hlast.plain
  refine ⟨hfirst.toActs.trans hlast.toActs, hlast.sameEpoch.trans hfirst.sameEpoch,
    later ++ since, by rw [hlater, hsince, List.append_assoc], ?_⟩
  intro entry hentry
  rcases List.mem_append.mp hentry with hmem | hmem
  · exact hlaterPlain entry hmem
  · exact hplain entry hmem

/-- What keeps may follow what keeps. -/
theorem after {first middle last : Observer} (hlast : Keeps middle last)
    (hfirst : Keeps first middle) : Keeps first last :=
  hfirst.trans hlast

/-- The connection and its socket may change. -/
theorem of_conn {before after : Observer} (hflights : after.flights = before.flights)
    (hflags : after.flags = before.flags) (hepoch : after.epoch = before.epoch)
    (hwired : Wired before → Wired after) : Keeps before after := by
  refine ⟨⟨.of_flights hflights (Nat.le_of_eq hepoch.symm), hflags, hwired⟩, hepoch, [], ?_,
    by simp⟩
  simp only [flights, Prod.mk.injEq] at hflights
  exact hflights.2.2.2

end Keeps

variable {observer : Observer}

/-! ## The parts -/

theorem moves_record {entry : Entry} (hentry : ¬entry.IsSnapshot) :
    Moves observer (observer.record entry) :=
  ⟨rfl, Nat.le_refl _, rfl, List.Subset.refl _, fun _ hmem => .inl hmem, [entry], rfl,
    by simpa using hentry⟩

theorem acts_record {entry : Entry} (hentry : ¬entry.IsSnapshot) :
    Acts observer (observer.record entry) :=
  ⟨moves_record hentry, rfl, fun hwired => hwired.of_eq rfl rfl⟩

theorem keeps_record {entry : Entry} (hentry : ¬entry.IsSnapshot) (hplain : ¬entry.Supersedes) :
    Keeps observer (observer.record entry) :=
  ⟨acts_record hentry, rfl, [entry], rfl, by simpa using hplain⟩

theorem acts_emit {entry : Entry} (hentry : ¬entry.IsSnapshot) :
    Acts observer (observer.emit entry) := by
  rw [emit]
  split
  · exact (Keeps.refl observer).toActs
  · exact acts_record hentry

theorem keeps_emit {entry : Entry} (hentry : ¬entry.IsSnapshot) (hplain : ¬entry.Supersedes) :
    Keeps observer (observer.emit entry) := by
  rw [emit]
  split
  · exact .refl observer
  · exact keeps_record hentry hplain

theorem keeps_setMode {next : ObserverMode} : Keeps observer (observer.setMode next) := by
  rw [setMode]
  split
  · exact .refl observer
  · exact (keeps_emit id id).after (.of_core rfl)

theorem setMode_conn {next : ObserverMode} : (observer.setMode next).conn = observer.conn := by
  rw [setMode]
  split
  · rfl
  · rw [emit]
    split <;> rfl

theorem keeps_abortInFlight : Keeps observer observer.abortInFlight := by
  rw [abortInFlight]
  split
  · rename_i request hflight
    refine ⟨⟨⟨rfl, Nat.le_refl _, rfl, List.subset_cons_self _ _, ?_, [], rfl, by simp⟩, rfl,
      fun hwired => hwired.of_eq rfl rfl⟩, rfl, [], rfl, by simp⟩
    intro other hother
    rcases List.mem_cons.mp hother with rfl | hmem
    · exact .inr hflight
    · exact .inl hmem
  · exact .refl observer

theorem keeps_armStale : Keeps observer observer.armStale := .of_core rfl

theorem keeps_schedulePoll {delay : ℕ} : Keeps observer (observer.schedulePoll delay) :=
  .of_core rfl

/-- A socket that is gone takes its connection with it. -/
theorem keeps_lost {number : ℕ} (hcurrent : observer.isCurrent number = true) :
    Keeps observer { observer.closeSocket number with conn := none } := by
  refine .of_conn rfl rfl rfl fun hwired => ⟨?_, nofun⟩
  intro other hother
  obtain ⟨hmem, hne⟩ := List.mem_filter.mp hother
  obtain ⟨connection, hconn, rfl⟩ := hwired.socket other hmem
  rw [isCurrent, hconn] at hcurrent
  have hsame : connection.number = number := of_decide_eq_true hcurrent
  exact absurd hsame (of_decide_eq_true hne)

theorem keeps_closeSocket {number : ℕ} : Keeps observer (observer.closeSocket number) := by
  refine .of_conn rfl rfl rfl fun hwired => ⟨?_, hwired.timer⟩
  intro other hother
  exact hwired.socket other (List.mem_filter.mp hother).1

theorem Wired.socket_eq (hwired : Wired observer) {connection : Connection}
    (hconn : observer.conn = some connection) :
    ∀ number ∈ observer.sockets, number = connection.number := by
  intro number hnumber
  obtain ⟨current, hcurrent, rfl⟩ := hwired.socket number hnumber
  exact congrArg Connection.number (Option.some.inj (hcurrent.symm.trans hconn))

theorem Wired.sockets_eq_nil (hwired : Wired observer) (hconn : observer.conn = none) :
    observer.sockets = [] := by
  refine List.eq_nil_iff_forall_not_mem.mpr fun number hnumber => ?_
  obtain ⟨connection, hcurrent, -⟩ := hwired.socket number hnumber
  rw [hconn] at hcurrent
  cases hcurrent

theorem keeps_clear_teardown : Keeps observer observer.clearTimers.teardownSocket := by
  cases hconn : observer.conn with
  | none =>
    have hsame : observer.clearTimers.teardownSocket = observer.clearTimers := by
      rw [teardownSocket, clearTimers, hconn]
      rfl
    rw [hsame]
    refine .of_conn rfl rfl rfl fun hwired => hwired.of_eq ?_ rfl
    rw [clearTimers, hconn]
    rfl
  | some connection =>
    have hwired (hwired : Wired observer) : Wired observer.clearTimers.teardownSocket := by
      rw [teardownSocket, clearTimers, hconn]
      refine ⟨?_, nofun⟩
      dsimp only [Option.map_some]
      split <;> simpa [closeSocket, record] using hwired.socket_eq hconn
    cases hsubscribed : connection.subscribed with
    | false =>
      have htold : observer.clearTimers.teardownSocket =
          { observer.clearTimers.closeSocket connection.number with conn := none } := by
        rw [teardownSocket, clearTimers, hconn]
        simp [hsubscribed]
      refine .of_conn ?_ ?_ ?_ hwired <;> rw [htold] <;> rfl
    | true =>
      have htold : observer.clearTimers.teardownSocket =
          { (observer.record (.unsubscribe (observer.evaluationId.getD ""))).clearTimers.closeSocket
              connection.number with conn := none } := by
        rw [teardownSocket, clearTimers, hconn]
        simp [hsubscribed, clearTimers, record, closeSocket]
      have hrecorded : Keeps observer
          (observer.record (.unsubscribe (observer.evaluationId.getD ""))) := keeps_record id id
      refine hrecorded.trans (.of_conn ?_ ?_ ?_ ?_)
      · rw [htold]
        rfl
      · rw [htold]
        rfl
      · rw [htold]
        rfl
      · exact fun hbefore => hwired (hbefore.of_eq rfl rfl)

/-- What `stopObserving` does after it has aborted. -/
theorem keeps_stop : Keeps observer.abortInFlight observer.stopObserving := by
  rw [stopObserving]
  exact keeps_clear_teardown.after (.of_core rfl)

theorem keeps_stopObserving : Keeps observer observer.stopObserving :=
  keeps_abortInFlight.trans keeps_stop

theorem keeps_forbid : Keeps observer observer.forbid :=
  (keeps_stopObserving.trans (keeps_emit id id)).trans keeps_setMode

theorem acts_settleWith {evaluation : Evaluation} :
    Acts observer (observer.settleWith evaluation) :=
  (keeps_stopObserving.toActs.trans (acts_emit id)).trans keeps_setMode.toActs

theorem keeps_handleUnauthorized : Keeps observer observer.handleUnauthorized :=
  keeps_stopObserving.trans (.of_core rfl)

theorem keeps_handleFetchError {now : ℕ} {error : FetchError} :
    Keeps observer (observer.handleFetchError now error) := by
  rw [handleFetchError]
  split
  · exact keeps_forbid
  split
  · exact keeps_handleUnauthorized
  split
  · have hlimited : Keeps observer ({ observer with rateLimitUntil := now + rateLimitMs }.emit
        (.error "rate limited" observer.mode)) :=
      (keeps_emit id id).after (.of_core rfl)
    dsimp only
    split
    · exact hlimited.trans (.of_core rfl)
    · exact hlimited
  · have htold : Keeps observer (observer.emit
        (.error (error.message.getD "snapshot failed") observer.mode)) := keeps_emit id id
    dsimp only
    split
    · exact htold.trans (.of_core rfl)
    · exact htold.trans (.of_core rfl)
    · exact htold

theorem keeps_invalidate : Keeps observer observer.invalidate := by
  rw [invalidate]
  split
  · exact .refl observer
  split
  · exact .refl observer
  · exact .of_core rfl

theorem keeps_connect : Keeps observer observer.connect := by
  rw [connect]
  split
  · rename_i target hid hconn
    split
    · exact .refl observer
    · have hshown : Keeps observer
          (if observer.mode = .idle || observer.mode = .stopped || observer.mode = .live then
            observer.setMode .connecting else observer) := by
        split
        · exact keeps_setMode
        · exact .refl observer
      refine hshown.trans (.of_conn rfl rfl rfl fun hwired => ⟨?_, ?_⟩)
      · intro number hnumber
        have hnone : (if observer.mode = .idle || observer.mode = .stopped ||
            observer.mode = .live then observer.setMode .connecting else observer).conn = none := by
          split
          · rw [setMode_conn]
            exact hconn
          · exact hconn
        rcases List.mem_cons.mp hnumber with rfl | hmem
        · exact ⟨_, rfl, rfl⟩
        · rw [hwired.sockets_eq_nil hnone] at hmem
          exact absurd hmem List.not_mem_nil
      · rintro _ ⟨⟩ hopen -
        cases hopen
  · exact .refl observer

theorem keeps_handleSocketFailure {reason : String} :
    Keeps observer (observer.handleSocketFailure reason) := by
  have hfailed : Keeps observer
      ({ observer with connectAttempts := observer.connectAttempts + 1 }.setMode .degraded) :=
    keeps_setMode.after (.of_core rfl)
  rw [handleSocketFailure]
  generalize { observer with connectAttempts := observer.connectAttempts + 1 }.setMode .degraded =
    failed at hfailed
  have hpolled : Keeps observer
      (if failed.pollTimer.isNone then
        { failed with staleTimer := none }.schedulePoll degradedPollMs
      else { failed with staleTimer := none }) := by
    split
    · exact hfailed.trans (.of_core rfl)
    · exact hfailed.trans (.of_core rfl)
  dsimp only
  generalize (if failed.pollTimer.isNone then
    { failed with staleTimer := none }.schedulePoll degradedPollMs
    else { failed with staleTimer := none }) = polled at hpolled
  split
  · exact hpolled.trans (keeps_emit id id)
  split
  · exact hpolled.trans (.of_core rfl)
  · exact hpolled

theorem keeps_subscribed {connection : Connection} (hconn : observer.conn = some connection) :
    Keeps observer { observer with
      conn := some { connection with subscribeTimer := none, subscribed := true }
      pollTimer := none
      connectAttempts := 0
      pollFailures := 0 } := by
  refine .of_conn rfl rfl rfl fun hwired => ⟨?_, ?_⟩
  · intro number hnumber
    obtain ⟨current, hcurrent, rfl⟩ := hwired.socket number hnumber
    obtain rfl := Option.some.inj (hconn.symm.trans hcurrent)
    exact ⟨_, rfl, rfl⟩
  · rintro _ ⟨⟩ - hsubscribed
    cases hsubscribed

theorem keeps_handleFrame {type : String} : Keeps observer (observer.handleFrame type) := by
  rw [handleFrame]
  split
  · exact .refl observer
  split
  · split
    · exact .refl observer
    · rename_i connection hconn
      exact (keeps_armStale.after keeps_setMode).after (keeps_subscribed hconn)
  · exact keeps_invalidate

theorem keeps_disarm {timer : Timer} (htimer : timer ≠ .subscribe) :
    Keeps observer (observer.disarm timer) := by
  cases timer with
  | subscribe => exact absurd rfl htimer
  | _ => exact .of_core rfl

theorem keeps_mutationDone : Keeps { observer with mutations := observer.mutations - 1 }
    observer.mutationDone := by
  rw [mutationDone]
  dsimp only
  split
  · exact .refl _
  · exact keeps_invalidate

theorem keeps_onOpen {number : ℕ} : Keeps observer (observer.onOpen number) := by
  rw [onOpen]
  split
  · rename_i connection hconn
    split
    · refine (keeps_record id id).trans (.of_conn rfl rfl rfl fun hwired => ⟨?_, ?_⟩)
      · intro other hother
        obtain ⟨current, hcurrent, rfl⟩ := hwired.socket other hother
        obtain rfl := Option.some.inj (hconn.symm.trans hcurrent)
        exact ⟨_, rfl, rfl⟩
      · rintro _ ⟨⟩ - -
        rfl
    · exact .refl observer
  · exact .refl observer

theorem keeps_onMessage {number : ℕ} {type : String} :
    Keeps observer (observer.onMessage number type) := by
  rw [onMessage]
  split
  · exact keeps_handleFrame
  · exact .refl observer

theorem keeps_onClose {number code : ℕ} : Keeps observer (observer.onClose number code) := by
  rw [onClose]
  dsimp only
  split
  · exact keeps_closeSocket
  · rename_i hcurrent
    have hlost : Keeps observer { observer.closeSocket number with conn := none } :=
      keeps_lost (by simpa using hcurrent)
    split
    · exact hlost.trans keeps_forbid
    split
    · exact hlost.trans keeps_handleUnauthorized
    · exact hlost.trans keeps_handleSocketFailure

theorem keeps_onError {number : ℕ} : Keeps observer (observer.onError number) := by
  rw [onError]
  split
  · exact keeps_closeSocket
  · rename_i hcurrent
    exact (keeps_lost (by simpa using hcurrent)).trans keeps_handleSocketFailure

end Observer

end AlgorithmHarness.Browser
