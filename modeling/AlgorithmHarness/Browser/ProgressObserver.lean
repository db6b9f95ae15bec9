import AlgorithmHarness.Core.Transition
import Mathlib.Data.Nat.Notation
import Mathlib.Order.Basic

/-!
# The progress observer

`createProgressObserver` as a state machine.  An event is a call of one of its
functions, a message of a socket, a timer that fires, a promise that settles;
each runs to its end before the next.  A timer variable holds the delay of the
timer it has armed, or nothing: every assignment to one clears the timer it
held.  The callback `onChange` does not call back.
-/

namespace AlgorithmHarness.Browser

/-! ## Timing -/

def subscribeTimeoutMs : ℕ := 5000
def mergeWindowMs : ℕ := 2000
def staleLiveMs : ℕ := 15000
def degradedPollMs : ℕ := 3000
def reconnectBackoffMs : List ℕ := [3000, 6000, 12000, 30000]
def maxReconnects : ℕ := 5
def rateLimitMs : ℕ := 30000

def backoffFor (failures : ℕ) : ℕ :=
  reconnectBackoffMs.getD (min (failures - 1) (reconnectBackoffMs.length - 1)) 0

/-! ## Messages -/

inductive ObserverMode
  | idle
  | connecting
  | live
  | degraded
  | stopped
  deriving DecidableEq

structure Evaluation where
  status : String
  deriving DecidableEq

def isSettledStatus (status : String) : Bool :=
  status ∈ ["completed", "failed", "cancelled", "paused"]

/-- Why a snapshot has failed; the message is that of the error, if it is one. -/
structure FetchError where
  status : Option ℕ
  message : Option String

/-- What has happened, for the callback and for the reader. -/
inductive Entry
  /-- A snapshot of the request of this epoch. -/
  | snapshot (request : ℕ) (evaluation : Evaluation) (mode : ObserverMode)
  | mode (mode : ObserverMode)
  | error (message : String) (mode : ObserverMode)
  | forbidden
  | unauthorized
  | settled (evaluation : Evaluation)
  | subscribe (taskId : String)
  | unsubscribe (taskId : String)
  /-- A snapshot of an evaluation is requested. -/
  | requested (request : ℕ) (evaluationId : String)
  /-- `start` goes past its guards. -/
  | started
  | mutation
  | pause
  | disposed
  deriving DecidableEq

structure Connection where
  /-- Which of the connections made it is. -/
  number : ℕ
  /-- The evaluation it subscribes to. -/
  target : String
  isOpen : Bool
  subscribeSent : Bool
  subscribed : Bool
  subscribeTimer : Option ℕ
  deriving DecidableEq

/-- The variables of the closure; requests are named by their epochs. -/
structure Observer where
  disposed : Bool := false
  paused : Bool := false
  evaluationId : Option String := none
  epoch : ℕ := 0
  mode : ObserverMode := .idle
  conn : Option Connection := none
  connectAttempts : ℕ := 0
  pollFailures : ℕ := 0
  rateLimitUntil : ℕ := 0
  inFlight : Option ℕ := none
  pendingInvalidation : Bool := false
  mergeTimer : Option ℕ := none
  staleTimer : Option ℕ := none
  pollTimer : Option ℕ := none
  reconnectTimer : Option ℕ := none
  rateLimitTimer : Option ℕ := none
  visible : Bool := true
  online : Bool := true
  /-- The requests that have not settled. -/
  requests : List ℕ := []
  /-- The requests whose signal is aborted. -/
  aborted : List ℕ := []
  /-- The sockets that have not been closed. -/
  sockets : List ℕ := []
  connections : ℕ := 0
  /-- How many calls of `recoverSession` have not settled. -/
  recovering : ℕ := 0
  /-- How many mutations have not settled. -/
  mutations : ℕ := 0
  log : List Entry := []
  deriving DecidableEq

namespace Observer

variable (observer : Observer)

def running : Bool :=
  observer.visible && observer.online && !observer.disposed && !observer.paused

def record (entry : Entry) : Observer := { observer with log := entry :: observer.log }

def emit (entry : Entry) : Observer :=
  if observer.disposed then observer else observer.record entry

def setMode (next : ObserverMode) : Observer :=
  if observer.disposed || observer.mode = next then observer
  else { observer with mode := next }.emit (.mode next)

/-- `inFlight.controller.abort()`; a signal that is aborted stays so. -/
def abortInFlight : Observer :=
  match observer.inFlight with
  | some request => { observer with aborted := request :: observer.aborted }
  | none => observer

def clearTimers : Observer :=
  { observer with
    mergeTimer := none, staleTimer := none, pollTimer := none, reconnectTimer := none,
    rateLimitTimer := none,
    conn := observer.conn.map fun connection => { connection with subscribeTimer := none } }

def closeSocket (number : ℕ) : Observer :=
  { observer with sockets := observer.sockets.filter (· ≠ number) }

def teardownSocket : Observer :=
  match observer.conn with
  | none => observer
  | some connection =>
      let told :=
        if connection.subscribed then
          observer.record (.unsubscribe (observer.evaluationId.getD ""))
        else observer
      { told.closeSocket connection.number with conn := none }

def stopObserving : Observer :=
  ({ observer.abortInFlight with pendingInvalidation := false }).clearTimers.teardownSocket

def settleWith (evaluation : Evaluation) : Observer :=
  (observer.stopObserving.emit (.settled evaluation)).setMode .stopped

def armStale : Observer := { observer with staleTimer := some staleLiveMs }

def schedulePoll (delay : ℕ) : Observer := { observer with pollTimer := some delay }

/-- A new epoch whose request is in flight. -/
def beginEpoch (evaluationId : String) : Observer :=
  { observer with
    epoch := observer.epoch + 1
    inFlight := some (observer.epoch + 1)
    requests := (observer.epoch + 1) :: observer.requests
    log := .requested (observer.epoch + 1) evaluationId :: observer.log }

/-- The end of `requestSnapshot`, with nothing in flight. -/
def fetchSnapshot (now : ℕ) (evaluationId : String) : Observer :=
  if now < observer.rateLimitUntil then
    match observer.rateLimitTimer with
    | none => { observer with rateLimitTimer := some (observer.rateLimitUntil - now) }
    | some _ => observer
  else observer.beginEpoch evaluationId

def requestSnapshot (now : ℕ) : Observer :=
  match observer.evaluationId with
  | none => observer
  | some evaluationId =>
      if observer.disposed || observer.paused then observer
      else
        match observer.inFlight with
        | some request =>
            if request ≠ observer.epoch then
              -- A request of an older epoch does not hold up a new one.
              ({ observer.abortInFlight with inFlight := none }).fetchSnapshot now evaluationId
            else { observer with pendingInvalidation := true }
        | none => observer.fetchSnapshot now evaluationId

def deliverSnapshot (request : ℕ) (result : Evaluation) : Observer :=
  let shown := observer.emit (.snapshot request result observer.mode)
  if isSettledStatus result.status then shown.settleWith result
  else
    match shown.mode with
    | .live => shown.armStale
    | .degraded => { shown with pollFailures := 0 }.schedulePoll degradedPollMs
    | _ => shown

def handleUnauthorized : Observer :=
  { observer.stopObserving with recovering := observer.recovering + 1 }

def forbid : Observer := (observer.stopObserving.emit .forbidden).setMode .stopped

def handleFetchError (now : ℕ) (error : FetchError) : Observer :=
  if error.status = some 403 || error.status = some 404 then observer.forbid
  else if error.status = some 401 then observer.handleUnauthorized
  else if error.status = some 429 then
    let limited :=
      { observer with rateLimitUntil := now + rateLimitMs }.emit
        (.error "rate limited" observer.mode)
    match limited.rateLimitTimer with
    | none => { limited with rateLimitTimer := some rateLimitMs }
    | some _ => limited
  else
    let told := observer.emit (.error (error.message.getD "snapshot failed") observer.mode)
    match told.mode with
    | .degraded =>
        { told with pollFailures := told.pollFailures + 1 }.schedulePoll
          (backoffFor (told.pollFailures + 1 + 1))
    | .live => told.armStale
    | _ => told

def invalidate : Observer :=
  if observer.disposed || observer.paused || observer.evaluationId.isNone then observer
  else if observer.mergeTimer.isSome then observer
  else { observer with mergeTimer := some mergeWindowMs }

def connect : Observer :=
  match observer.evaluationId, observer.conn with
  | some target, none =>
      if observer.disposed || observer.paused then observer
      else
        let shown :=
          if observer.mode = .idle || observer.mode = .stopped || observer.mode = .live then
            observer.setMode .connecting
          else observer
        { shown with
          connections := shown.connections + 1
          sockets := (shown.connections + 1) :: shown.sockets
          conn := some
            { number := shown.connections + 1, target, isOpen := false, subscribeSent := false,
              subscribed := false, subscribeTimer := none } }
  | _, _ => observer

def handleSocketFailure (reason : String) : Observer :=
  let failed := { observer with connectAttempts := observer.connectAttempts + 1 }.setMode .degraded
  let quiet := { failed with staleTimer := none }
  let polled := if quiet.pollTimer.isNone then quiet.schedulePoll degradedPollMs else quiet
  if maxReconnects ≤ polled.connectAttempts then polled.emit (.error reason polled.mode)
  else if polled.reconnectTimer.isNone then
    { polled with reconnectTimer := some (backoffFor polled.connectAttempts) }
  else polled

def handleFrame (type : String) : Observer :=
  if type = "connected" || type = "pong" then observer
  else if type = "subscribed" then
    match observer.conn with
    | none => observer
    | some connection =>
        ({ observer with
          conn := some { connection with subscribeTimer := none, subscribed := true }
          pollTimer := none
          connectAttempts := 0
          pollFailures := 0 }.setMode .live).armStale
  else observer.invalidate

def pause : Observer := ({ observer with paused := true }.record .pause).stopObserving

def resumeIfNeeded (now : ℕ) : Observer :=
  if observer.disposed || observer.paused || observer.evaluationId.isNone ||
      observer.mode = .stopped then observer
  else
    ({ observer with connectAttempts := 0, pollFailures := 0 }.requestSnapshot now).connect

/-! ## The functions of the observer -/

def start (now : ℕ) (id : String) : Observer :=
  if observer.disposed then observer
  else if observer.evaluationId = some id && observer.mode ≠ .idle && observer.mode ≠ .stopped then
    observer
  else
    let begun :=
      { observer.stopObserving.record .started with
        evaluationId := some id, epoch := observer.epoch + 1 }
    if !begun.running then begun.setMode .idle
    else ((begun.setMode .connecting).requestSnapshot now).connect

def setVisible (now : ℕ) (next : Bool) : Observer :=
  if observer.visible = next then observer
  else if next then { observer with visible := next, paused := false }.resumeIfNeeded now
  else { observer with visible := next }.pause

def setOnline (now : ℕ) (next : Bool) : Observer :=
  if observer.online = next then observer
  else if next then { observer with online := next, paused := false }.resumeIfNeeded now
  else { observer with online := next }.pause

/-- `runMutation` up to its `await`. -/
def runMutation : Observer :=
  { (observer.record .mutation).abortInFlight with
    epoch := observer.epoch + 1, mutations := observer.mutations + 1 }

/-- The `finally` of `runMutation`. -/
def mutationDone : Observer :=
  let done := { observer with mutations := observer.mutations - 1 }
  if done.disposed then done else done.invalidate

def dispose : Observer :=
  { ({ observer with disposed := true }.record .disposed).stopObserving with mode := .stopped }

/-! ## What the host does -/

/-- The connection is the current one. -/
def isCurrent (number : ℕ) : Bool := observer.conn.any fun connection => connection.number = number

def onOpen (number : ℕ) : Observer :=
  match observer.conn with
  | some connection =>
      if connection.number = number && !connection.isOpen then
        { observer.record (.subscribe connection.target) with
          conn := some { connection with
            isOpen := true, subscribeSent := true, subscribeTimer := some subscribeTimeoutMs } }
      else observer
  | none => observer

def onMessage (number : ℕ) (type : String) : Observer :=
  if observer.isCurrent number then observer.handleFrame type else observer

def onClose (number code : ℕ) : Observer :=
  let gone := observer.closeSocket number
  if !observer.isCurrent number then gone
  else
    let lost := { gone with conn := none }
    if code = 4403 then lost.forbid
    else if code = 4401 then lost.handleUnauthorized
    else lost.handleSocketFailure ("closed " ++ toString code)

/-- A socket with an error is closed by the browser. -/
def onError (number : ℕ) : Observer :=
  let gone := observer.closeSocket number
  if !observer.isCurrent number then gone
  else { gone with conn := none }.handleSocketFailure "socket error"

/-- What a completion of a request does before it looks at its result. -/
def complete (request : ℕ) : Observer :=
  { observer with
    requests := observer.requests.filter (· ≠ request)
    inFlight := if observer.inFlight = some request then none else observer.inFlight }

/-- The completion is one of the current epoch that nobody has aborted. -/
def accepts (request : ℕ) : Bool :=
  !observer.disposed && !observer.paused && request = observer.epoch && request ∉ observer.aborted

def fetched (now request : ℕ) (result : Evaluation) : Observer :=
  let completed := observer.complete request
  if !completed.accepts request then completed
  else
    let delivered := completed.deliverSnapshot request result
    if delivered.pendingInvalidation && delivered.mode ≠ .stopped then
      { delivered with pendingInvalidation := false }.requestSnapshot now
    else delivered

def fetchFailed (now request : ℕ) (error : FetchError) : Observer :=
  let completed := observer.complete request
  if completed.accepts request then completed.handleFetchError now error else completed

/-- The rest of `handleUnauthorized`. -/
def recovered (now : ℕ) (success : Bool) : Observer :=
  let resumed := { observer with recovering := observer.recovering - 1 }
  if resumed.disposed || resumed.paused then resumed
  else if success then ((resumed.setMode .connecting).requestSnapshot now).connect
  else (resumed.emit .unauthorized).setMode .stopped

end Observer

inductive Timer
  | merge
  | stale
  | poll
  | reconnect
  | rateLimit
  | subscribe
  deriving DecidableEq

namespace Observer

variable (observer : Observer)

def armed : Timer → Bool
  | .merge => observer.mergeTimer.isSome
  | .stale => observer.staleTimer.isSome
  | .poll => observer.pollTimer.isSome
  | .reconnect => observer.reconnectTimer.isSome
  | .rateLimit => observer.rateLimitTimer.isSome
  | .subscribe => observer.conn.any fun connection => connection.subscribeTimer.isSome

def disarm : Timer → Observer
  | .merge => { observer with mergeTimer := none }
  | .stale => { observer with staleTimer := none }
  | .poll => { observer with pollTimer := none }
  | .reconnect => { observer with reconnectTimer := none }
  | .rateLimit => { observer with rateLimitTimer := none }
  | .subscribe =>
      { observer with
        conn := observer.conn.map fun connection => { connection with subscribeTimer := none } }

/-- A timer fires, behind the guard of `clock_timer`. -/
def fire (now : ℕ) (timer : Timer) : Observer :=
  let fired := observer.disarm timer
  if fired.disposed || fired.paused then fired
  else
    match timer with
    | .reconnect => fired.connect
    | .subscribe =>
        match fired.conn with
        | some connection =>
            ({ fired with conn := none }.closeSocket connection.number).handleSocketFailure
              "subscribe timeout"
        | none => fired
    | .merge | .stale | .poll | .rateLimit => fired.requestSnapshot now

end Observer

inductive Event
  | start (id : String)
  | refresh
  | invalidate
  | setVisible (next : Bool)
  | setOnline (next : Bool)
  | runMutation
  | mutationDone
  | dispose
  | onOpen (number : ℕ)
  | onMessage (number : ℕ) (type : String)
  | onClose (number code : ℕ)
  | onError (number : ℕ)
  | fire (timer : Timer)
  | fetched (request : ℕ) (result : Evaluation)
  | fetchFailed (request : ℕ) (error : FetchError)
  | recovered (success : Bool)

namespace Observer

/-- An event at a reading of the clock. -/
def step (observer : Observer) : ℕ × Event → Option Observer
  | (now, .start id) => some (observer.start now id)
  | (now, .refresh) => some (observer.requestSnapshot now)
  | (_, .invalidate) => some observer.invalidate
  | (now, .setVisible next) => some (observer.setVisible now next)
  | (now, .setOnline next) => some (observer.setOnline now next)
  | (_, .runMutation) => some observer.runMutation
  | (_, .mutationDone) => if observer.mutations = 0 then none else some observer.mutationDone
  | (_, .dispose) => some observer.dispose
  | (_, .onOpen number) => some (observer.onOpen number)
  | (_, .onMessage number type) => some (observer.onMessage number type)
  | (_, .onClose number code) => some (observer.onClose number code)
  | (_, .onError number) => some (observer.onError number)
  | (now, .fire timer) => if observer.armed timer then some (observer.fire now timer) else none
  | (now, .fetched request result) =>
      if request ∈ observer.requests then some (observer.fetched now request result) else none
  | (now, .fetchFailed request error) =>
      if request ∈ observer.requests then some (observer.fetchFailed now request error) else none
  | (now, .recovered success) =>
      if observer.recovering = 0 then none else some (observer.recovered now success)

end Observer

end AlgorithmHarness.Browser
