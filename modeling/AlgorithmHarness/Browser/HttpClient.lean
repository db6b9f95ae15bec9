import AlgorithmHarness.Core.Transition
import Mathlib.Data.Int.Notation

/-!
# The HTTP client of the browser

`createHttpClient` between two awaits.  A request runs its interceptor, may
wait for the shared refresh, is sent and answered, and may wait for a refresh
and be sent again; the stored session belongs to the page, which logs in and
out at any time.
-/

namespace AlgorithmHarness.Browser

/-! ## Addresses and methods -/

/-- `requestPath` -/
def requestPath (url : String) : List Char := url.toList.takeWhile (· ≠ '?')

def endsWithAny (path : List Char) (suffixes : List String) : Bool :=
  suffixes.any fun suffix => suffix.toList.isSuffixOf path

def skipsAccessToken (url : String) : Bool :=
  endsWithAny (requestPath url) ["/auth/login", "/auth/register", "/auth/refresh"]

/-- The requests that `assertCurrentSession` lets pass. -/
def createsSession (url : String) : Bool :=
  endsWithAny (requestPath url) ["/auth/login", "/auth/register"]

inductive Method
  | get
  | head
  | options
  | post
  | put
  | patch
  | delete
  deriving DecidableEq

/-- `unsafeMethods.has(method)` -/
def Method.changesState : Method → Bool
  | .post | .put | .patch | .delete => true
  | .get | .head | .options => false

/-! ## Errors -/

structure ApiClientError where
  message : String
  status : Option ℕ := none
  deriving DecidableEq

def unavailable : String := "服务暂时不可用"

def sessionLost : ApiClientError := ⟨"登录会话已失效", some 401⟩

/-- `message` is what `messageFrom` finds in the body. -/
def httpError (message : String) (status : Option ℕ) : ApiClientError :=
  ⟨if status.any (500 ≤ ·) then unavailable else message, status⟩

/-! ## Sessions, requests and refreshes -/

structure StoredSession where
  marker : String
  expiresAt : ℤ
  username : Option String
  csrfToken : Option String := none
  deriving DecidableEq

/-- What is read of a response: the token in its headers, the lifetime in a
body that `isRefreshPayload` accepts, and the message in its body. -/
structure Response where
  status : ℕ
  csrf : Option String
  expiresIn : Option ℤ
  message : String

inductive Answer
  | response (response : Response)
  /-- The status is that of the error's response. -/
  | error (status : Option ℕ) (hasConfig : Bool) (message : String)

/-- Where a request stands; a number is that of the refresh it awaits. -/
inductive Phase
  | called
  | waiting (refresh : ℕ)
  | prepared
  | onWire
  | recovering (refresh : ℕ)
  | settled (outcome : Except ApiClientError (Option ℤ))

structure Request where
  url : String
  method : Method
  csrfHeader : Option String := none
  /-- `__sessionMarker`, which may be absent and may be null. -/
  sessionMarker : Option (Option String) := none
  retried : Bool := false
  phase : Phase := .called
  sends : ℕ := 0

inductive Stage
  | posting (request : ℕ)
  /-- Awaiting `options.refresh`. -/
  | external
  | answered (outcome : Except ApiClientError StoredSession)
  | finishing (outcome : Except ApiClientError StoredSession)
  | done (outcome : Except ApiClientError StoredSession)

/-- A run of the function given to the coordinator. -/
structure Refresh where
  /-- The request that has begun it. -/
  starter : ℕ
  original : Option StoredSession
  stage : Stage

/-- A call of `write` or `clear`, or an assignment to `latestCsrf`. -/
inductive Call
  | write (session : StoredSession)
  | clear
  | csrf (token : String)

/-- A call with the requests it is made for and the marker stored at the time. -/
structure Effect where
  owners : List ℕ
  call : Call
  marker : Option String

structure Client where
  stored : Option StoredSession
  latestCsrf : Option String
  inflight : Option ℕ := none
  requests : List Request := []
  refreshes : List Refresh := []
  /-- The markers of all sessions so far. -/
  markers : List String
  effects : List Effect := []

def createHttpClient (stored : Option StoredSession) : Client where
  stored
  latestCsrf := stored.bind (·.csrfToken)
  markers := (stored.map (·.marker)).toList

namespace Request

variable (request : Request)

/-- The first turn of the request interceptor. -/
def stamp (marker : Option String) : Request :=
  if request.sessionMarker.isNone then { request with sessionMarker := some marker } else request

def attachCsrf (latestCsrf : Option String) : Request :=
  if request.method.changesState then { request with csrfHeader := latestCsrf } else request

def settle (outcome : Except ApiClientError (Option ℤ)) : Request :=
  { request with phase := .settled outcome }

/-- The refresh that a request awaits. -/
def awaits : Option ℕ :=
  match request.phase with
  | .waiting refresh | .recovering refresh => some refresh
  | _ => none

end Request

namespace Client

variable (client : Client)

/-- `options.read()?.marker ?? null` -/
def marker : Option String := client.stored.map (·.marker)

/-- `assertCurrentSession` does not throw. -/
def ownedBy (request : Request) : Bool :=
  createsSession request.url || request.sessionMarker = some client.marker

/-! ## Effects -/

def log (owners : List ℕ) (call : Call) : Client :=
  { client with effects := client.effects ++ [⟨owners, call, client.marker⟩] }

def hold (session : StoredSession) : Client :=
  { client with stored := some session, markers := client.markers ++ [session.marker] }

def drop : Client := { client with stored := none }

def write (owners : List ℕ) (session : StoredSession) : Client :=
  (client.log owners (.write session)).hold session

def clear (owners : List ℕ) : Client := (client.log owners .clear).drop

def setCsrf (owners : List ℕ) (token : String) : Client :=
  { client.log owners (.csrf token) with latestCsrf := some token }

def rememberCsrf (owners : List ℕ) (token : String) : Client :=
  let remembered := client.setCsrf owners token
  match client.stored with
  | some current =>
      if current.csrfToken ≠ some token then
        remembered.write owners { current with csrfToken := some token }
      else remembered
  | none => remembered

/-- The assignment in `attachCsrf`. -/
def syncCsrf (id : ℕ) (request : Request) : Client :=
  match (client.stored.bind (·.csrfToken)).filter (· ≠ "") with
  | some token => if request.method.changesState then client.setCsrf [id] token else client
  | none => client

/-! ## Requests and the coordinator -/

/-- `client.request` -/
def issue (url : String) (method : Method) : Client :=
  { client with requests := client.requests ++ [({ url, method } : Request)] }

def replace (id : ℕ) (request : Request) : Client :=
  { client with requests := client.requests.set id request }

/-- The refresh whose promise `coordinator.refresh()` returns. -/
def refreshId : ℕ := client.inflight.getD client.refreshes.length

def launch (run : Refresh) : Client :=
  { client with
    inflight := some client.refreshes.length
    refreshes := client.refreshes ++ [run] }

/-- `coordinator.refresh()` up to the first await of the function it runs;
`custom` if there is an `options.refresh`. -/
def beginRefresh (custom : Bool) (id : ℕ) : Client :=
  match client.inflight, client.stored with
  | some _, _ => client
  | none, none => client.launch ⟨id, none, .finishing (.error sessionLost)⟩
  | none, some original =>
      if custom then client.launch ⟨id, some original, .external⟩
      else (client.issue "/auth/refresh" .post).launch
        ⟨id, some original, .posting client.requests.length⟩

def refreshWindowMs : ℤ := 30000

def shouldRefreshBeforeRequest (expiresAt now : ℤ) : Bool := expiresAt - now < refreshWindowMs

/-- The request interceptor after its last await. -/
def prepare (id : ℕ) (request : Request) : Client :=
  if client.ownedBy request then
    let synced := client.syncCsrf id request
    synced.replace id { request.attachCsrf synced.latestCsrf with phase := .prepared }
  else client.replace id (request.settle (.error sessionLost))

/-- The request interceptor of a request that has its marker, up to the await. -/
def enter (custom : Bool) (id : ℕ) (request : Request) (now : ℤ) : Client :=
  if client.ownedBy request then
    let synced := client.syncCsrf id request
    let attached := request.attachCsrf synced.latestCsrf
    if skipsAccessToken request.url then synced.replace id { attached with phase := .prepared }
    else if synced.stored.any fun current => shouldRefreshBeforeRequest current.expiresAt now then
      (synced.beginRefresh custom id).replace id
        { attached with phase := .waiting synced.refreshId }
    else synced.prepare id attached
  else client.replace id (request.settle (.error sessionLost))

def intercept (custom : Bool) (id : ℕ) (request : Request) (now : ℤ) : Client :=
  let stamped := request.stamp client.marker
  (client.replace id stamped).enter custom id stamped now

def recover (custom : Bool) (id : ℕ) (request : Request) (hasConfig : Bool)
    (error : ApiClientError) : Client :=
  if !hasConfig || request.retried || skipsAccessToken request.url then
    client.replace id (request.settle (.error error))
  else (client.beginRefresh custom id).replace id
    { request with phase := .recovering client.refreshId }

/-- What is done with an owned response before its status is read. -/
def accept (id : ℕ) (response : Response) : Client :=
  match response.csrf with
  | some token => client.rememberCsrf [id] token
  | none => client

/-- The response interceptor. -/
def answer (custom : Bool) (id : ℕ) (request : Request) : Answer → Client
  | .response response =>
      if client.ownedBy request then
        let accepted := client.accept id response
        if response.status = 204 then accepted.replace id (request.settle (.ok none))
        else if response.status = 401 then
          accepted.recover custom id request true (httpError response.message response.status)
        else if response.status < 200 ∨ 300 ≤ response.status then
          accepted.replace id
            (request.settle (.error (httpError response.message response.status)))
        else accepted.replace id (request.settle (.ok response.expiresIn))
      else client.replace id (request.settle (.error sessionLost))
  | .error status hasConfig message =>
      if hasConfig && !client.ownedBy request then
        client.replace id (request.settle (.error sessionLost))
      else if status = some 401 then
        client.recover custom id request hasConfig (httpError message status)
      else client.replace id (request.settle (.error (httpError message status)))

/-- A request whose refresh has settled. -/
def resume (id : ℕ) (request : Request) (outcome : Except ApiClientError StoredSession) : Client :=
  match outcome with
  | .error error => client.replace id (request.settle (.error error))
  | .ok _ =>
      match request.phase with
      | .recovering _ => client.replace id { request with retried := true, phase := .called }
      | _ => client.prepare id request

/-- What `refreshSession` makes of the answer to its request. -/
def refreshed (original : StoredSession) (now : ℤ) :
    Except ApiClientError (Option ℤ) → Except ApiClientError StoredSession
  | .error error => .error error
  | .ok none => .error ⟨unavailable, none⟩
  | .ok (some expiresIn) =>
      .ok {
        marker := original.marker
        expiresAt := now + expiresIn * 1000
        username := original.username
        csrfToken := (client.latestCsrf.or original.csrfToken).filter (· ≠ "") }

/-- `options.refresh` gives a session of the same login, or one with a marker of its own. -/
def admits (original : StoredSession) : Except ApiClientError StoredSession → Bool
  | .ok next => next.marker = original.marker || next.marker ∉ client.markers
  | .error _ => true

/-- The requests that await a refresh. -/
def waiters (refresh : ℕ) : List ℕ :=
  (List.range client.requests.length).filter fun id =>
    client.requests[id]?.any (·.awaits = some refresh)

def setStage (refresh : ℕ) (run : Refresh) (stage : Stage) : Client :=
  { client with refreshes := client.refreshes.set refresh { run with stage } }

/-- The rest of the function given to the coordinator. -/
def complete (refresh : ℕ) (run : Refresh) (original : StoredSession)
    (outcome : Except ApiClientError StoredSession) : Client :=
  let owners := run.starter :: client.waiters refresh
  if client.marker = some original.marker then
    match outcome with
    | .ok next => (client.write owners next).setStage refresh run (.finishing outcome)
    | .error _ => (client.clear owners).setStage refresh run (.finishing outcome)
  else
    match outcome with
    | .ok _ => client.setStage refresh run (.finishing (.error sessionLost))
    | .error error => client.setStage refresh run (.finishing (.error error))

end Client

/-! ## Steps -/

inductive ClientStep
  | call (url : String) (method : Method)
  | intercept (id : ℕ) (now : ℤ)
  | dispatch (id : ℕ)
  | answer (id : ℕ) (answer : Answer)
  | resume (id : ℕ)
  | answerRefresh (refresh : ℕ) (now : ℤ)
  | complete (refresh : ℕ)
  | completeExternal (refresh : ℕ) (outcome : Except ApiClientError StoredSession)
  | release (refresh : ℕ)
  | login (session : StoredSession)
  | update (session : StoredSession)
  | logout

/-- What the page does to the stored session without the client. -/
def ClientStep.ofPage : ClientStep → Bool
  | .login _ | .update _ | .logout => true
  | _ => false

namespace Client

variable (custom : Bool) (client : Client)

def step : ClientStep → Option Client
  | .call url method => some (client.issue url method)
  | .intercept id now =>
      client.requests[id]?.bind fun request =>
        match request.phase with
        | .called => some (client.intercept custom id request now)
        | _ => none
  | .dispatch id =>
      client.requests[id]?.bind fun request =>
        match request.phase with
        | .prepared =>
            some (client.replace id { request with phase := .onWire, sends := request.sends + 1 })
        | _ => none
  | .answer id answer =>
      client.requests[id]?.bind fun request =>
        match request.phase with
        | .onWire => some (client.answer custom id request answer)
        | _ => none
  | .resume id =>
      client.requests[id]?.bind fun request =>
        request.awaits.bind fun refresh =>
          client.refreshes[refresh]?.bind fun awaited =>
            match awaited.stage with
            | .done outcome => some (client.resume id request outcome)
            | _ => none
  | .answerRefresh refresh now =>
      client.refreshes[refresh]?.bind fun running =>
        match running.stage, running.original with
        | .posting post, some original =>
            client.requests[post]?.bind fun request =>
              match request.phase with
              | .settled outcome =>
                  some (client.setStage refresh running
                    (.answered (client.refreshed original now outcome)))
              | _ => none
        | _, _ => none
  | .complete refresh =>
      client.refreshes[refresh]?.bind fun running =>
        match running.stage, running.original with
        | .answered outcome, some original =>
            some (client.complete refresh running original outcome)
        | _, _ => none
  | .completeExternal refresh outcome =>
      client.refreshes[refresh]?.bind fun running =>
        match running.stage, running.original with
        | .external, some original =>
            if client.admits original outcome then
              some (client.complete refresh running original outcome)
            else none
        | _, _ => none
  | .release refresh =>
      client.refreshes[refresh]?.bind fun running =>
        match running.stage with
        | .finishing outcome =>
            some { client.setStage refresh running (.done outcome) with inflight := none }
        | _ => none
  | .login session => if session.marker ∈ client.markers then none else some (client.hold session)
  | .update session =>
      if client.marker = some session.marker then some (client.hold session) else none
  | .logout => some client.drop

end Client

end AlgorithmHarness.Browser
