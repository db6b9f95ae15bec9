import AlgorithmHarness.Auth.CsrfGate
import AlgorithmHarness.Browser.HttpClient
import Mathlib.Logic.Function.Basic

/-!
# The CSRF token between page, browser and server

The page of the application and pages of other origins share one browser.  A
request takes the browser's cookies along when it is sent, is served at some
later time, and brings its cookies and its token back at a time later still.
The page keeps the token of each response in `createHttpClient` and in its
session; a foreign page sees no response and guesses.
-/

namespace AlgorithmHarness.Csrf

open Transition

/-! ## Responses -/

/-- The lifetimes of `AuthSettings`, which are positive. -/
structure Settings where
  accessSeconds : ℤ
  refreshDays : ℤ
  accessPositive : 0 < accessSeconds
  refreshPositive : 0 < refreshDays
  /-- The text of the moment a deleted cookie expires. -/
  date : List Char

structure Tokens where
  access : Token
  refresh : Token
  csrf : Token
  deriving DecidableEq

theorem legal_singleton {letter : Char} (hlegal : isLegal letter = true) :
    [letter].all isLegal = true := by
  rw [List.all_cons, hlegal]
  rfl

theorem legal_one : isLegal '1' = true := by
  decide

/-- The value of the cookie that marks a persistent session. -/
def persistMark : Token := ⟨['1'], List.cons_ne_nil _ _, legal_singleton legal_one⟩

structure Response where
  status : ℕ
  setCookies : List SetCookie := []
  csrfHeader : Option (List Char) := none
  deriving DecidableEq

namespace Settings

variable (settings : Settings)

/-- `set_auth_cookies` -/
def setAuthCookies (tokens : Tokens) (persistent secure : Bool) : List SetCookie :=
  let accessAge := if persistent then some settings.accessSeconds else none
  let refreshAge := if persistent then some (settings.refreshDays * 86400) else none
  [⟨.access, some tokens.access, accessAge, true, secure⟩,
    ⟨.refresh, some tokens.refresh, refreshAge, true, secure⟩] ++
  (if persistent then [⟨.persist, some persistMark, refreshAge, true, secure⟩] else []) ++
  [⟨.csrf, some tokens.csrf, refreshAge, false, secure⟩]

/-- `persist_max_age` -/
def persistMaxAge (scope : Scope) : Option ℤ :=
  if scope.cookies .persist = some persistMark.text then some (settings.refreshDays * 86400)
  else none

/-- `csrf_set_cookie` -/
def csrfSetCookie (scope : Scope) (token : Token) : SetCookie :=
  ⟨.csrf, some token, settings.persistMaxAge scope, false, scope.secure⟩

/-- `publish_csrf`, where `fresh` is the answer of `new_csrf_token`. -/
def publishCsrf (scope : Scope) (fresh : Token) (response : Response) : Response :=
  let values := response.setCookies.filterMap fun cookie =>
    cookiePairValue (cookie.render settings.date) Cookie.csrf.name
  let issued := (values.filter (· ≠ [])).getLast?
  let cleared := values.contains []
  let token := if issued = none ∧ cleared = false then scope.cookies .csrf else issued
  if token = none ∧ cleared = false ∧ response.status < 400 ∧
      ((scope.cookies .access).isSome ∨ (scope.cookies .refresh).isSome) then
    { response with
      setCookies := response.setCookies ++ [settings.csrfSetCookie scope fresh]
      csrfHeader := some fresh.text }
  else if token = none then response
  else { response with csrfHeader := token }

end Settings

/-- `clear_auth_cookies` -/
def clearAuthCookies (secure : Bool) : List SetCookie :=
  [⟨.access, none, some 0, true, secure⟩, ⟨.refresh, none, some 0, true, secure⟩,
    ⟨.persist, none, some 0, true, secure⟩, ⟨.csrf, none, some 0, false, secure⟩]

/-- What a route answers: a status, new tokens, or the end of a session. -/
inductive Answer where
  | plain (status : ℕ)
  | tokens (issued : Tokens) (persistent : Bool)
  | cleared
  deriving DecidableEq

namespace Answer

/-- Which answers a route has: `login` and `refresh` issue tokens, `logout` clears them, and
a route that acts for nobody fails. -/
def fits (scope : Scope) (authority : Option Authority) : Answer → Bool
  | .plain status => authority.isSome || !scope.changesState || 400 ≤ status
  | .tokens _ _ =>
      authority.isSome && scope.route?.any (["/auth/login", "/auth/refresh"].contains ·.path)
  | .cleared => authority.isSome && scope.route?.any (·.path = "/auth/logout")

/-- The response of the route; a refreshed session stays as persistent as it was. -/
def response (settings : Settings) (scope : Scope) : Answer → Response
  | .plain status => { status }
  | .tokens issued persistent =>
      let persists :=
        if scope.endsWith "/auth/refresh" then
          decide (scope.cookies .persist = some persistMark.text)
        else persistent
      { status := 200, setCookies := settings.setAuthCookies issued persists scope.secure }
  | .cleared => { status := 204, setCookies := clearAuthCookies scope.secure }

end Answer

/-! ## The browser -/

/-- The cookies a browser holds. -/
abbrev Jar := Cookie → Option Token

/-- Whether a browser sends a cookie to a path. -/
def Cookie.goesTo (cookie : Cookie) (path : List Char) : Bool :=
  cookie.path = ['/'] || path = cookie.path || (cookie.path ++ ['/']).isPrefixOf path

namespace Jar

variable (jar : Jar)

def sentTo (path : List Char) (cookie : Cookie) : Option (List Char) :=
  if cookie.goesTo path then (jar cookie).map Token.text else none

/-- A cookie without time left is deleted. -/
def take (cookie : SetCookie) : Jar :=
  Function.update jar cookie.cookie
    (if cookie.maxAge.any (· ≤ 0) then none else cookie.value)

def answer (setCookies : List SetCookie) : Jar := setCookies.foldl take jar

end Jar

/-- Who has sent a request: the page, through its client, or a foreign page. -/
inductive Origin where
  | page (request : Browser.Request)
  | foreign

inductive Phase where
  | sent
  | answered (response : Response)
  | done
  deriving DecidableEq

structure Flight where
  origin : Origin
  scope : Scope
  arrived : List Message
  phase : Phase := .sent

/-- What a route has done, on whose word, for a request of which page. -/
structure Act where
  origin : Origin
  scope : Scope
  authority : Authority

/-- The browser with its pages, and the server.  `captured` is the `csrfToken` of the page's
store, `signing` that of the session its `login` holds on to. -/
structure System where
  jar : Jar := fun _ => none
  client : Browser.Client
  captured : Option String := none
  signing : Option String := none
  flights : List Flight := []
  issued : List Token := []
  acts : List Act := []

/-- A step of the page, of a foreign page, of the server, or of the browser. -/
inductive Label where
  | send (request : Browser.Request) (path : List Char) (secure jsonBody : Bool)
      (arrived : List Message)
  | forge (scope : Scope) (attached : Bool) (arrived : List Message)
  | serve (id : ℕ) (answer : Answer) (fresh : Token)
  | arrive (id : ℕ)
  | expire (cookie : Cookie)
  | beginLogin
  | signIn (session : Browser.StoredSession)
  | completeProfile (session : Browser.StoredSession)
  | renew (expiresAt : ℤ)
  | signOut

def methodText : Browser.Method → String
  | .get => "GET"
  | .head => "HEAD"
  | .options => "OPTIONS"
  | .post => "POST"
  | .put => "PUT"
  | .patch => "PATCH"
  | .delete => "DELETE"

/-- The values of the CSRF cookies in a response. -/
def Response.csrfTokens (response : Response) : List Token :=
  response.setCookies.filterMap fun cookie =>
    if cookie.cookie = .csrf then cookie.value else none

namespace System

variable (state : System)

/-- The request interceptor: `attachCsrf` with the request that leaves. -/
def send (request : Browser.Request) (path : List Char) (secure jsonBody : Bool)
    (arrived : List Message) : System :=
  let client := state.client.syncCsrf 0 request
  let scope : Scope :=
    { method := methodText request.method
      path
      authorization := none
      cookies := state.jar.sentTo path
      csrfHeader := (request.attachCsrf client.latestCsrf).csrfHeader.map String.toList
      secure
      jsonBody }
  { state with
    client
    flights :=
      state.flights ++ [{ origin := .page (request.stamp state.client.marker), scope, arrived }] }

/-- A foreign page has no `Authorization` header to give, as the browser asks the server
before it lets one pass, and the token in its request, if any, is a guess. -/
def forge (scope : Scope) (attached : Bool) (arrived : List Message) : Option System :=
  if scope.authorization = none ∧ ∀ token ∈ state.issued, scope.csrfHeader ≠ some token.text then
    let cookies := if attached then state.jar.sentTo scope.path else fun _ => none
    some { state with
      flights :=
        state.flights ++ [{ origin := .foreign, scope := { scope with cookies }, arrived }] }
  else none

/-- A response on its way back. -/
def respond (id : ℕ) (flight : Flight) (response : Response) : System :=
  { state with
    flights := state.flights.set id { flight with phase := .answered response }
    issued := state.issued ++ response.csrfTokens }

variable (settings : Settings) (loads : List UInt8 → Loaded)

/-- A request passes the gate, the boundary and its route. -/
def serve (id : ℕ) (flight : Flight) (answer : Answer) (fresh : Token) : Option System :=
  match flight.scope.gate loads flight.arrived with
  | .answers status => some (state.respond id flight { status })
  | .raises => some (state.respond id flight { status := 500 })
  | .drops | .waits => none
  | .forwards passed =>
      let publish := fun response =>
        if flight.scope.ofApi then settings.publishCsrf flight.scope fresh response else response
      match flight.scope.boundary passed with
      | .answers status => some (state.respond id flight (publish { status }))
      | .raises => some (state.respond id flight (publish { status := 500 }))
      | .drops | .waits => none
      | .forwards stream =>
          let authority := flight.scope.authority loads stream
          if answer.fits flight.scope authority then
            let served := state.respond id flight
              (publish (answer.response settings flight.scope))
            some { served with
              acts := served.acts ++
                (authority.map fun authority => ⟨flight.origin, flight.scope, authority⟩).toList }
          else none

/-- The token of a response: `csrfFrom` and `rememberCsrf`. -/
def remember (token : Option (List Char)) : System :=
  match token.filter (· ≠ []) with
  | some token =>
      { state with
        client := state.client.rememberCsrf [] (String.ofList token)
        captured := some (String.ofList token) }
  | none => state

/-- The response interceptor reads the token of a response that is no error, to a request of
the session that the page still has. -/
def reads (flight : Flight) (response : Response) : Bool :=
  match flight.origin with
  | .page request =>
      state.client.ownedBy request && 200 ≤ response.status && response.status < 300
  | .foreign => false

/-- A response arrives: the browser takes its cookies, and the page may read its token. -/
def arrive (id : ℕ) (flight : Flight) (response : Response) : System :=
  let returned : System :=
    { state with
      jar := state.jar.answer response.setCookies
      flights := state.flights.set id { flight with phase := .done } }
  if state.reads flight response then returned.remember response.csrfHeader else returned

def step : Label → Option System
  | .send request path secure jsonBody arrived =>
      if state.client.ownedBy (request.stamp state.client.marker) then
        some (state.send request path secure jsonBody arrived)
      else none
  | .forge scope attached arrived => state.forge scope attached arrived
  | .serve id answer fresh =>
      state.flights[id]?.bind fun flight =>
        match flight.phase with
        | .sent => state.serve settings loads id flight answer fresh
        | _ => none
  | .arrive id =>
      state.flights[id]?.bind fun flight =>
        match flight.phase with
        | .answered response => some (state.arrive id flight response)
        | _ => none
  | .expire cookie => some { state with jar := Function.update state.jar cookie none }
  | .beginLogin => some { state with captured := none }
  | .signIn session =>
      some { state with
        client := state.client.write [] { session with csrfToken := state.captured }
        signing := state.captured }
  | .completeProfile session =>
      if state.client.marker = some session.marker then
        some { state with
          client := state.client.write [] { session with csrfToken := state.signing } }
      else none
  | .renew expiresAt =>
      state.client.stored.map fun current =>
        { state with
          client := state.client.write []
            { current with expiresAt, csrfToken := state.client.latestCsrf.or current.csrfToken } }
  | .signOut => some { state with client := state.client.clear [] }

end System

/-- A browser without cookies, with the page just loaded. -/
def start : System where
  client := Browser.createHttpClient none

/-! ### A visit -/

def letterToken (letter : Char) (hlegal : isLegal letter = true) : Token :=
  ⟨[letter], List.cons_ne_nil _ _, legal_singleton hlegal⟩

theorem legal_letters : isLegal 'a' = true ∧ isLegal 'r' = true ∧ isLegal 't' = true := by
  decide

def adaTokens : Tokens where
  access := letterToken 'a' legal_letters.1
  refresh := letterToken 'r' legal_letters.2.1
  csrf := letterToken 't' legal_letters.2.2

def weekSettings : Settings where
  accessSeconds := 1800
  refreshDays := 7
  accessPositive := Int.ofNat_succ_pos 1799
  refreshPositive := Int.ofNat_succ_pos 6
  date := "Thu, 01 Jan 2026 00:00:00 GMT".toList

/-- A request of the page. -/
def ask (path : String) : Label :=
  .send { url := path, method := .post } ("/api/v1" ++ path).toList true true [.request [] false]

/-- A foreign page prices a model named like the path of the login. -/
def pricing : Label :=
  .forge
    { method := "POST"
      path := "/api/v1/pricing/m/auth/login".toList
      authorization := none
      cookies := fun _ => none
      csrfHeader := none
      secure := true
      jsonBody := true } true [.request [] false]

def visit : List Label :=
  [.beginLogin, ask "/auth/login", .serve 0 (.tokens adaTokens false) adaTokens.csrf, .arrive 0,
    .signIn ⟨"m", 0, none, none⟩, ask "/evaluations", .serve 1 (.plain 201) adaTokens.csrf,
    pricing, .serve 2 (.plain 201) adaTokens.csrf]

def visited : System :=
  (run (System.step · weekSettings noJson) start visit).getD start

theorem run_visit : run (System.step · weekSettings noJson) start visit = some visited := by
  rfl

/-! ## What a response tells the page -/

theorem csrfValues (date : List Char) (cookies : List SetCookie) :
    (cookies.filterMap fun cookie => cookiePairValue (cookie.render date) Cookie.csrf.name) =
      (cookies.filter (·.cookie = .csrf)).map SetCookie.text := by
  induction cookies with
  | nil => rfl
  | cons cookie cookies ih =>
      rw [List.filterMap_cons, cookiePairValue_render, ih]
      by_cases hcsrf : cookie.cookie = .csrf
      · simp [hcsrf]
      · have hname : cookie.cookie.name ≠ Cookie.csrf.name := fun hname =>
          hcsrf (Cookie.name_injective hname)
        simp [hcsrf, hname]

@[simp]
theorem Jar.answer_nil (jar : Jar) : jar.answer [] = jar := rfl

@[simp]
theorem Jar.answer_cons (jar : Jar) (cookie : SetCookie) (cookies : List SetCookie) :
    jar.answer (cookie :: cookies) = (jar.take cookie).answer cookies := rfl

theorem Jar.answer_append (jar : Jar) (first last : List SetCookie) :
    jar.answer (first ++ last) = (jar.answer first).answer last :=
  List.foldl_append ..

theorem Jar.take_of_ne (jar : Jar) {cookie : SetCookie} {kind : Cookie}
    (hne : kind ≠ cookie.cookie) : jar.take cookie kind = jar kind :=
  Function.update_of_ne hne ..

theorem Jar.take_live (jar : Jar) {cookie : SetCookie}
    (hlive : cookie.maxAge.any (· ≤ 0) = false) :
    jar.take cookie cookie.cookie = cookie.value := by
  simp [Jar.take, hlive]

/-- A response leaves the CSRF cookie a token that it names, or deletes the cookie and names
none, or leaves the cookie as it is and names none or that of its request. -/
def Response.Published (scope : Scope) (response : Response) : Prop :=
  (∃ token, response.csrfHeader = some token.text ∧
    ∀ jar : Jar, jar.answer response.setCookies .csrf = some token) ∨
  (response.csrfHeader = none ∧ ∀ jar : Jar, jar.answer response.setCookies .csrf = none) ∨
  ((∀ jar : Jar, jar.answer response.setCookies .csrf = jar .csrf) ∧
    (response.csrfHeader = none ∨ response.csrfHeader = scope.cookies .csrf))

theorem published_status (scope : Scope) (status : ℕ) :
    Response.Published scope { status } :=
  .inr (.inr ⟨fun _ => rfl, .inl rfl⟩)

variable (settings : Settings)

theorem refreshAge_live : (some (settings.refreshDays * 86400)).any (· ≤ 0) = false := by
  have hpositive := settings.refreshPositive
  simp only [Option.any_some, decide_eq_false_iff_not]
  omega

theorem csrfSetCookie_live (scope : Scope) (token : Token) :
    (settings.csrfSetCookie scope token).maxAge.any (· ≤ 0) = false := by
  unfold Settings.csrfSetCookie Settings.persistMaxAge
  split
  · exact refreshAge_live settings
  · rfl

/-- The middleware finds no CSRF cookie in a response without cookies. -/
theorem publishCsrf_status (scope : Scope) (fresh : Token) (status : ℕ) :
    (settings.publishCsrf scope fresh { status }).Published scope := by
  unfold Settings.publishCsrf
  simp only [List.filterMap_nil, List.filter_nil, List.getLast?_nil, List.contains_nil, and_self,
    ↓reduceIte, List.nil_append]
  split
  · refine .inl ⟨fresh, rfl, fun jar => ?_⟩
    exact jar.take_live (csrfSetCookie_live settings scope fresh)
  · split
    · exact published_status scope status
    · exact .inr (.inr ⟨fun _ => rfl, .inr rfl⟩)

theorem publishCsrf_tokens (scope : Scope) (fresh : Token) (status : ℕ) (tokens : Tokens)
    (persistent secure : Bool) :
    (settings.publishCsrf scope fresh
      { status, setCookies := settings.setAuthCookies tokens persistent secure }).Published
      scope := by
  have hvalues : (((settings.setAuthCookies tokens persistent secure).filter
      (·.cookie = .csrf)).map SetCookie.text) = [tokens.csrf.text] := by
    cases persistent <;> simp [Settings.setAuthCookies, SetCookie.text]
  have hnonempty := tokens.csrf.nonempty
  have hpublished : settings.publishCsrf scope fresh
      { status, setCookies := settings.setAuthCookies tokens persistent secure } =
      { status, setCookies := settings.setAuthCookies tokens persistent secure,
        csrfHeader := some tokens.csrf.text } := by
    unfold Settings.publishCsrf
    simp [csrfValues, hvalues, hnonempty]
  rw [hpublished]
  refine .inl ⟨tokens.csrf, rfl, fun jar => ?_⟩
  rw [Settings.setAuthCookies, Jar.answer_append, Jar.answer_cons, Jar.answer_nil]
  refine Jar.take_live _ ?_
  cases persistent with
  | true => exact refreshAge_live settings
  | false => rfl

theorem publishCsrf_cleared (scope : Scope) (fresh : Token) (status : ℕ) (secure : Bool) :
    (settings.publishCsrf scope fresh
      { status, setCookies := clearAuthCookies secure }).Published scope := by
  have hvalues : (((clearAuthCookies secure).filter
      (·.cookie = .csrf)).map SetCookie.text) = [[]] := by
    simp [clearAuthCookies, SetCookie.text]
  unfold Settings.publishCsrf
  simp only [csrfValues, hvalues]
  refine .inr (.inl ⟨?_, fun jar => ?_⟩)
  · simp
  · simp [clearAuthCookies, Jar.take]

theorem publishCsrf_published (scope : Scope) (fresh : Token) (answer : Answer) :
    (settings.publishCsrf scope fresh (answer.response settings scope)).Published scope := by
  cases answer with
  | plain status => exact publishCsrf_status settings scope fresh status
  | tokens issued persistent => exact publishCsrf_tokens settings scope fresh _ issued _ _
  | cleared => exact publishCsrf_cleared settings scope fresh _ _

/-! ## Foreign pages -/

/-- A new price for a model whose identifier ends like the path of a route with a rule of its
own: the gate takes the request for one of these, and the route does not. -/
def Scope.Overlooked (scope : Scope) : Prop :=
  scope.route? = some pricingRoute ∧
    (scope.skipsCsrf = true ∨ scope.endsWith "/auth/refresh" = true)

/-- What keeps a foreign page from acting: no token of the browser is known to it. -/
structure System.Guarded (state : System) : Prop where
  jarIssued : ∀ token, state.jar .csrf = some token → token ∈ state.issued
  answersIssued : ∀ flight ∈ state.flights, ∀ response, flight.phase = .answered response →
    ∀ cookie ∈ response.setCookies, ∀ token, cookie.cookie = .csrf → cookie.value = some token →
      token ∈ state.issued
  forged : ∀ flight ∈ state.flights, flight.origin = .foreign →
    flight.scope.authorization = none ∧ ¬ flight.scope.Repeats
  acts : ∀ act ∈ state.acts, act.authority = .cookie → act.origin = .foreign →
    act.scope.Overlooked

theorem start_guarded : start.Guarded where
  jarIssued token htoken := by cases htoken
  answersIssued flight hflight := by cases hflight
  forged flight hflight := by cases hflight
  acts act hact := by cases hact

theorem Jar.answer_csrf {jar : Jar} {cookies : List SetCookie} {token : Token}
    (hanswer : jar.answer cookies .csrf = some token) :
    jar .csrf = some token ∨
      ∃ cookie ∈ cookies, cookie.cookie = .csrf ∧ cookie.value = some token := by
  induction cookies generalizing jar with
  | nil => exact .inl hanswer
  | cons cookie cookies ih =>
      rcases ih hanswer with hjar | ⟨later, hlater, hfields⟩
      · by_cases hcsrf : cookie.cookie = .csrf
        · rw [Jar.take, hcsrf, Function.update_self] at hjar
          split at hjar
          · simp at hjar
          · exact .inr ⟨cookie, List.mem_cons_self .., hcsrf, hjar⟩
        · rw [Jar.take_of_ne jar (Ne.symm hcsrf)] at hjar
          exact .inl hjar
      · exact .inr ⟨later, List.mem_cons_of_mem _ hlater, hfields⟩

theorem mem_csrfTokens {response : Response} {cookie : SetCookie} {token : Token}
    (hcookie : cookie ∈ response.setCookies) (hcsrf : cookie.cookie = .csrf)
    (hvalue : cookie.value = some token) : token ∈ response.csrfTokens :=
  List.mem_filterMap.mpr ⟨cookie, hcookie, by rw [if_pos hcsrf, hvalue]⟩

namespace System.Guarded

variable {state next : System} {settings : Settings} {loads : List UInt8 → Loaded}

/-- The page's own state guards nothing. -/
theorem of_same (hguarded : state.Guarded)
    (hjar : ∀ token, next.jar .csrf = some token → state.jar .csrf = some token)
    (hflights : next.flights = state.flights) (hissued : next.issued = state.issued)
    (hacts : next.acts = state.acts) : next.Guarded where
  jarIssued token htoken := hissued ▸ hguarded.jarIssued token (hjar token htoken)
  answersIssued := by
    rw [hflights, hissued]
    exact hguarded.answersIssued
  forged := by
    rw [hflights]
    exact hguarded.forged
  acts := by
    rw [hacts]
    exact hguarded.acts

theorem send (hguarded : state.Guarded) (request : Browser.Request) (path : List Char)
    (secure jsonBody : Bool) (arrived : List Message) :
    (state.send request path secure jsonBody arrived).Guarded where
  jarIssued := hguarded.jarIssued
  answersIssued flight hflight response hphase := by
    rcases List.mem_append.mp hflight with hold | hnew
    · exact hguarded.answersIssued flight hold response hphase
    · rw [List.mem_singleton.mp hnew] at hphase
      cases hphase
  forged flight hflight horigin := by
    rcases List.mem_append.mp hflight with hold | hnew
    · exact hguarded.forged flight hold horigin
    · rw [List.mem_singleton.mp hnew] at horigin
      cases horigin
  acts := hguarded.acts

theorem sentIssued (hguarded : state.Guarded) {path : List Char} {attached : Bool}
    (hsent : ((if attached then state.jar.sentTo path else fun _ => none) Cookie.csrf).isSome) :
    ∃ token ∈ state.issued,
      (if attached then state.jar.sentTo path else fun _ => none) Cookie.csrf =
        some token.text := by
  cases attached with
  | false => simp at hsent
  | true =>
      simp only [↓reduceIte, Jar.sentTo] at hsent ⊢
      split at hsent
      · rename_i hgoes
        obtain ⟨token, htoken⟩ := Option.isSome_iff_exists.mp (by simpa using hsent)
        exact ⟨token, hguarded.jarIssued token htoken, by rw [if_pos hgoes, htoken]; rfl⟩
      · simp at hsent

/-- A guess does not repeat a cookie, whose value has been issued. -/
theorem forge (hguarded : state.Guarded) {scope : Scope} {attached : Bool}
    {arrived : List Message} (hforge : state.forge scope attached arrived = some next) :
    next.Guarded := by
  unfold System.forge at hforge
  split at hforge
  · rename_i hguess
    obtain ⟨hheader, hguess⟩ := hguess
    cases hforge
    refine ⟨hguarded.jarIssued, ?_, ?_, hguarded.acts⟩
    · intro flight hflight response hphase
      rcases List.mem_append.mp hflight with hold | hnew
      · exact hguarded.answersIssued flight hold response hphase
      · rw [List.mem_singleton.mp hnew] at hphase
        cases hphase
    · intro flight hflight horigin
      rcases List.mem_append.mp hflight with hold | hnew
      · exact hguarded.forged flight hold horigin
      · rw [List.mem_singleton.mp hnew]
        refine ⟨hheader, ?_⟩
        rintro ⟨hsome, hrepeats⟩
        obtain ⟨token, hissued, hheader⟩ := hguarded.sentIssued (hrepeats ▸ hsome)
        exact hguess token hissued (hrepeats.symm.trans hheader)
  · cases hforge

theorem respond (hguarded : state.Guarded) {id : ℕ} {flight : Flight}
    (hflight : state.flights[id]? = some flight) (response : Response) :
    (state.respond id flight response).Guarded where
  jarIssued token htoken := List.mem_append_left _ (hguarded.jarIssued token htoken)
  answersIssued other hother answer hphase cookie hcookie token hcsrf hvalue := by
    rcases List.mem_or_eq_of_mem_set hother with hold | rfl
    · exact List.mem_append_left _
        (hguarded.answersIssued other hold answer hphase cookie hcookie token hcsrf hvalue)
    · cases hphase
      exact List.mem_append_right _ (mem_csrfTokens hcookie hcsrf hvalue)
  forged other hother horigin := by
    rcases List.mem_or_eq_of_mem_set hother with hold | rfl
    · exact hguarded.forged other hold horigin
    · exact hguarded.forged flight (List.mem_of_getElem? hflight) horigin
  acts := hguarded.acts

theorem serve (hguarded : state.Guarded) {id : ℕ} {flight : Flight} {answer : Answer}
    {fresh : Token} (hflight : state.flights[id]? = some flight)
    (hserve : state.serve settings loads id flight answer fresh = some next) :
    next.Guarded := by
  unfold System.serve at hserve
  split at hserve
  · cases hserve
    exact hguarded.respond hflight _
  · cases hserve
    exact hguarded.respond hflight _
  · cases hserve
  · cases hserve
  · rename_i passed hgate
    simp only at hserve
    split at hserve
    · cases hserve
      exact hguarded.respond hflight _
    · cases hserve
      exact hguarded.respond hflight _
    · cases hserve
    · cases hserve
    · rename_i stream hboundary
      split at hserve
      · cases hserve
        have hresponded := hguarded.respond hflight
          (if flight.scope.ofApi then
            settings.publishCsrf flight.scope fresh (answer.response settings flight.scope)
          else answer.response settings flight.scope)
        refine ⟨hresponded.jarIssued, hresponded.answersIssued, hresponded.forged, ?_⟩
        intro act hact hcookie horigin
        rcases List.mem_append.mp hact with hold | hnew
        · exact hguarded.acts act hold hcookie horigin
        · obtain ⟨authority, hauthority, rfl⟩ := Option.map_eq_some_iff.mp
            (Option.mem_toList.mp hnew)
          have hserved : flight.scope.served loads flight.arrived = some .cookie := by
            simp only [Scope.served, Scope.passage, hgate, hboundary, hauthority]
            exact congrArg some hcookie
          obtain ⟨hheader, hrepeats⟩ :=
            hguarded.forged flight (List.mem_of_getElem? hflight) horigin
          rcases served_by_cookie hserved with hsame | hoverlooked | ⟨-, hsome⟩
          · exact absurd hsame hrepeats
          · exact hoverlooked
          · rw [hheader] at hsome
            cases hsome
      · cases hserve

theorem remember (hguarded : state.Guarded) (token : Option (List Char)) :
    (state.remember token).Guarded := by
  unfold System.remember
  split
  · exact hguarded.of_same (fun _ htoken => htoken) rfl rfl rfl
  · exact hguarded

theorem arrive (hguarded : state.Guarded) {id : ℕ} {flight : Flight} {response : Response}
    (hflight : state.flights[id]? = some flight) (hphase : flight.phase = .answered response) :
    (state.arrive id flight response).Guarded := by
  have hmem := List.mem_of_getElem? hflight
  have hreturned : ({ state with
      jar := state.jar.answer response.setCookies
      flights := state.flights.set id { flight with phase := .done } } : System).Guarded := by
    refine ⟨?_, ?_, ?_, hguarded.acts⟩
    · intro token htoken
      rcases Jar.answer_csrf htoken with hjar | ⟨cookie, hcookie, hcsrf, hvalue⟩
      · exact hguarded.jarIssued token hjar
      · exact hguarded.answersIssued flight hmem response hphase cookie hcookie token hcsrf hvalue
    · intro other hother answer hanswer
      rcases List.mem_or_eq_of_mem_set hother with hold | rfl
      · exact hguarded.answersIssued other hold answer hanswer
      · cases hanswer
    · intro other hother horigin
      rcases List.mem_or_eq_of_mem_set hother with hold | rfl
      · exact hguarded.forged other hold horigin
      · exact hguarded.forged flight hmem horigin
  unfold System.arrive
  simp only
  split
  · exact hreturned.remember _
  · exact hreturned

end System.Guarded

theorem guarded_preserved (settings : Settings) (loads : List UInt8 → Loaded) :
    Preserved (System.step · settings loads) System.Guarded := by
  intro state label next hguarded hstep
  cases label with
  | send request path secure jsonBody arrived =>
      simp only [System.step] at hstep
      split at hstep
      · cases hstep
        exact hguarded.send request path secure jsonBody arrived
      · cases hstep
  | forge scope attached arrived => exact hguarded.forge hstep
  | serve id answer fresh =>
      obtain ⟨flight, hflight, hstep⟩ := Option.bind_eq_some_iff.mp hstep
      split at hstep
      · exact hguarded.serve hflight hstep
      · cases hstep
  | arrive id =>
      obtain ⟨flight, hflight, hstep⟩ := Option.bind_eq_some_iff.mp hstep
      split at hstep
      · rename_i response hphase
        cases hstep
        exact hguarded.arrive hflight hphase
      · cases hstep
  | expire cookie =>
      cases hstep
      refine hguarded.of_same (fun token htoken => ?_) rfl rfl rfl
      simp only [Function.update_apply] at htoken
      split at htoken
      · cases htoken
      · exact htoken
  | beginLogin =>
      cases hstep
      exact hguarded.of_same (fun _ htoken => htoken) rfl rfl rfl
  | signIn session =>
      cases hstep
      exact hguarded.of_same (fun _ htoken => htoken) rfl rfl rfl
  | completeProfile session =>
      simp only [System.step] at hstep
      split at hstep
      · cases hstep
        exact hguarded.of_same (fun _ htoken => htoken) rfl rfl rfl
      · cases hstep
  | renew expiresAt =>
      obtain ⟨current, -, rfl⟩ := Option.map_eq_some_iff.mp hstep
      exact hguarded.of_same (fun _ htoken => htoken) rfl rfl rfl
  | signOut =>
      cases hstep
      exact hguarded.of_same (fun _ htoken => htoken) rfl rfl rfl

/-- In every run of a browser with the page and foreign pages, what a foreign page makes a
route do on the word of the browser's cookies is to price an overlooked model. -/
theorem foreign_pages_act_for_nobody (settings : Settings) (loads : List UInt8 → Loaded)
    {state : System} (hreach : Reachable (System.step · settings loads) start state) :
    ∀ act ∈ state.acts, act.authority = .cookie → act.origin = .foreign →
      act.scope.Overlooked :=
  ((guarded_preserved settings loads).reachable start_guarded hreach).acts

theorem foreign_pages_act_for_nobody_visited :
    (∃ act, visited.acts[2]? = some act ∧ act.authority = .cookie ∧ act.origin = .foreign) ∧
      ∀ act ∈ visited.acts, act.authority = .cookie → act.origin = .foreign →
        act.scope.Overlooked :=
  ⟨⟨_, rfl, rfl, rfl⟩, foreign_pages_act_for_nobody weekSettings noJson ⟨visit, run_visit⟩⟩

/-! ## The page's own requests -/

/-- The step brings the page no token that the browser has replaced meanwhile: a response that
the page reads and that names the token of its own request comes while the browser still holds
it, or holds none, and so does the session that `login` completes.  A response that the page does
not read brings no new CSRF cookie. -/
def System.Undisturbed (state : System) : Label → Prop
  | .arrive id => ∀ flight response, state.flights[id]? = some flight →
      flight.phase = .answered response →
      if state.reads flight response then
        response.csrfHeader = flight.scope.cookies .csrf →
          ∀ token, state.jar .csrf = some token → ∀ named, response.csrfHeader = some named →
            named = token.text
      else ∀ token, state.jar.answer response.setCookies .csrf = some token →
        state.jar .csrf = some token
  | .completeProfile _ => ∀ token, state.jar .csrf = some token →
      ∀ named, state.signing = some named → named = String.ofList token.text
  | _ => True

/-- The page knows the CSRF cookie of its browser. -/
structure System.InStep (state : System) : Prop where
  latest : ∀ token, state.jar .csrf = some token →
    state.client.latestCsrf = some (String.ofList token.text)
  stored : ∀ token, state.jar .csrf = some token → ∀ session, state.client.stored = some session →
    ∀ named, session.csrfToken = some named → named = String.ofList token.text
  captured : ∀ token, state.jar .csrf = some token → ∀ named, state.captured = some named →
    named = String.ofList token.text
  published : ∀ flight ∈ state.flights, ∀ response, flight.phase = .answered response →
    response.Published flight.scope
  repeats : ∀ flight ∈ state.flights, flight.origin ≠ .foreign →
    flight.scope.changesState = true →
    ∀ value, flight.scope.cookies .csrf = some value →
      flight.scope.csrfHeader = some value ∧ ∃ token : Token, value = token.text

theorem start_inStep : start.InStep where
  latest token htoken := by cases htoken
  stored token htoken := by cases htoken
  captured token htoken := by cases htoken
  published flight hflight := by cases hflight
  repeats flight hflight := by cases hflight

theorem changesState_methodText (method : Browser.Method) :
    unsafeMethods.contains ((methodText method).toList.map Char.toUpper) =
      method.changesState := by
  cases method <;> decide

@[simp]
theorem stored_setCsrf (client : Browser.Client) (owners : List ℕ) (token : String) :
    (client.setCsrf owners token).stored = client.stored := rfl

@[simp]
theorem latestCsrf_setCsrf (client : Browser.Client) (owners : List ℕ) (token : String) :
    (client.setCsrf owners token).latestCsrf = some token := rfl

theorem stored_syncCsrf (client : Browser.Client) (request : Browser.Request) :
    (client.syncCsrf 0 request).stored = client.stored := by
  unfold Browser.Client.syncCsrf
  split
  · split <;> rfl
  · rfl

/-- What a session says and what the client remembers come to the same token. -/
theorem latestCsrf_syncCsrf {client : Browser.Client} {token : String}
    (hlatest : client.latestCsrf = some token)
    (hstored : ∀ session, client.stored = some session → ∀ named,
      session.csrfToken = some named → named = token) (request : Browser.Request) :
    (client.syncCsrf 0 request).latestCsrf = some token := by
  unfold Browser.Client.syncCsrf
  split
  · rename_i named hnamed
    split
    · obtain ⟨hbind, -⟩ := Option.filter_eq_some_iff.mp hnamed
      obtain ⟨session, hsession, hcsrf⟩ := Option.bind_eq_some_iff.mp hbind
      rw [latestCsrf_setCsrf, hstored session hsession named hcsrf]
    · exact hlatest
  · exact hlatest

theorem rememberCsrf_spec (client : Browser.Client) (token : String) :
    (client.rememberCsrf [] token).latestCsrf = some token ∧
      ∀ session, (client.rememberCsrf [] token).stored = some session →
        session.csrfToken = some token := by
  unfold Browser.Client.rememberCsrf
  cases hstored : client.stored with
  | none => exact ⟨rfl, fun session hsession => by simp [hstored] at hsession⟩
  | some current =>
      by_cases hsame : current.csrfToken = some token
      · refine ⟨by simp [hsame], fun session hsession => ?_⟩
        simp only [hsame, ne_eq, not_true_eq_false, ↓reduceIte, stored_setCsrf, hstored,
          Option.some.injEq] at hsession
        exact hsession ▸ hsame
      · refine ⟨by simp [hsame, Browser.Client.write, Browser.Client.hold, Browser.Client.log],
          fun session hsession => ?_⟩
        simp only [hsame, ne_eq, not_false_eq_true, ↓reduceIte, Browser.Client.write,
          Browser.Client.hold, Option.some.injEq] at hsession
        rw [← hsession]

/-- A route under no rule of the API answers without cookies. -/
theorem response_unrouted {scope : Scope} {authority : Option Authority} {answer : Answer}
    (hapi : scope.ofApi = false) (hfits : answer.fits scope authority = true) :
    (answer.response settings scope).Published scope := by
  have hroute : scope.route? = none := by
    cases hroute : scope.route? with
    | none => rfl
    | some route => simp [Scope.ofApi_of_route hroute] at hapi
  cases answer with
  | plain status => exact published_status scope status
  | tokens issued persistent => simp [Answer.fits, hroute] at hfits
  | cleared => simp [Answer.fits, hroute] at hfits

namespace System.InStep

variable {settings} {state next : System} {loads : List UInt8 → Loaded}

theorem send (hstep : state.InStep) (request : Browser.Request) (path : List Char)
    (secure jsonBody : Bool) (arrived : List Message) :
    (state.send request path secure jsonBody arrived).InStep where
  latest token htoken :=
    latestCsrf_syncCsrf (hstep.latest token htoken) (hstep.stored token htoken) request
  stored token htoken session hsession := by
    refine hstep.stored token htoken session ?_
    rw [← hsession]
    exact (stored_syncCsrf state.client request).symm
  captured := hstep.captured
  published flight hflight response hphase := by
    rcases List.mem_append.mp hflight with hold | hnew
    · exact hstep.published flight hold response hphase
    · rw [List.mem_singleton.mp hnew] at hphase
      cases hphase
  repeats flight hflight horigin hchanges value hvalue := by
    rcases List.mem_append.mp hflight with hold | hnew
    · exact hstep.repeats flight hold horigin hchanges value hvalue
    · rw [List.mem_singleton.mp hnew] at hchanges hvalue ⊢
      have hmethod : request.method.changesState = true := by
        rw [← changesState_methodText]
        exact hchanges
      simp only [Jar.sentTo] at hvalue
      split at hvalue
      · obtain ⟨token, htoken, rfl⟩ := Option.map_eq_some_iff.mp hvalue
        have hlatest := latestCsrf_syncCsrf (hstep.latest token htoken)
          (hstep.stored token htoken) request
        refine ⟨?_, token, rfl⟩
        simp only [Browser.Request.attachCsrf, hmethod, ↓reduceIte, hlatest, Option.map_some,
          String.toList_ofList]
      · cases hvalue

theorem forge (hstep : state.InStep) {scope : Scope} {attached : Bool}
    {arrived : List Message} (hforge : state.forge scope attached arrived = some next) :
    next.InStep := by
  unfold System.forge at hforge
  split at hforge
  · cases hforge
    refine ⟨hstep.latest, hstep.stored, hstep.captured, ?_, ?_⟩
    · intro flight hflight response hphase
      rcases List.mem_append.mp hflight with hold | hnew
      · exact hstep.published flight hold response hphase
      · rw [List.mem_singleton.mp hnew] at hphase
        cases hphase
    · intro flight hflight horigin
      rcases List.mem_append.mp hflight with hold | hnew
      · exact hstep.repeats flight hold horigin
      · rw [List.mem_singleton.mp hnew] at horigin
        exact absurd rfl horigin
  · cases hforge

/-- A flight in another phase. -/
theorem setFlight (hstep : state.InStep) {id : ℕ} {flight : Flight} {phase : Phase}
    (hflight : state.flights[id]? = some flight)
    (hpublished : ∀ response, phase = .answered response → response.Published flight.scope)
    (hflights : next.flights = state.flights.set id { flight with phase })
    (hlatest : ∀ token, next.jar .csrf = some token →
      next.client.latestCsrf = some (String.ofList token.text))
    (hstored : ∀ token, next.jar .csrf = some token → ∀ session,
      next.client.stored = some session → ∀ named, session.csrfToken = some named →
        named = String.ofList token.text)
    (hcaptured : ∀ token, next.jar .csrf = some token → ∀ named, next.captured = some named →
      named = String.ofList token.text) : next.InStep where
  latest := hlatest
  stored := hstored
  captured := hcaptured
  published other hother response hphase := by
    rw [hflights] at hother
    rcases List.mem_or_eq_of_mem_set hother with hold | rfl
    · exact hstep.published other hold response hphase
    · exact hpublished response hphase
  repeats other hother horigin := by
    rw [hflights] at hother
    rcases List.mem_or_eq_of_mem_set hother with hold | rfl
    · exact hstep.repeats other hold horigin
    · exact hstep.repeats flight (List.mem_of_getElem? hflight) horigin

theorem respond (hstep : state.InStep) {id : ℕ} {flight : Flight} {response : Response}
    (hflight : state.flights[id]? = some flight) (hpublished : response.Published flight.scope) :
    (state.respond id flight response).InStep := by
  refine hstep.setFlight hflight (fun answer hanswer => ?_) rfl hstep.latest hstep.stored
    hstep.captured
  cases hanswer
  exact hpublished

theorem serve (hstep : state.InStep) {id : ℕ} {flight : Flight} {answer : Answer}
    {fresh : Token} (hflight : state.flights[id]? = some flight)
    (hserve : state.serve settings loads id flight answer fresh = some next) :
    next.InStep := by
  have hstatus (status : ℕ) :
      (if flight.scope.ofApi then
        settings.publishCsrf flight.scope fresh { status }
      else ({ status } : Response)).Published flight.scope := by
    split
    · exact publishCsrf_status settings flight.scope fresh status
    · exact published_status flight.scope status
  unfold System.serve at hserve
  split at hserve
  · cases hserve
    exact hstep.respond hflight (published_status ..)
  · cases hserve
    exact hstep.respond hflight (published_status ..)
  · cases hserve
  · cases hserve
  · simp only at hserve
    split at hserve
    · cases hserve
      exact hstep.respond hflight (hstatus _)
    · cases hserve
      exact hstep.respond hflight (hstatus _)
    · cases hserve
    · cases hserve
    · split at hserve
      · rename_i hfits
        cases hserve
        have hpublished : (if flight.scope.ofApi then
            settings.publishCsrf flight.scope fresh (answer.response settings flight.scope)
          else answer.response settings flight.scope).Published flight.scope := by
          cases hapi : flight.scope.ofApi with
          | true => exact publishCsrf_published settings flight.scope fresh answer
          | false => exact response_unrouted settings hapi hfits
        have hresponded := hstep.respond hflight hpublished
        exact ⟨hresponded.latest, hresponded.stored, hresponded.captured,
          hresponded.published, hresponded.repeats⟩
      · cases hserve

/-- The page reads a token: it knows that one and no other. -/
theorem remember_spec {named : List Char} (hnamed : named ≠ []) :
    (state.remember (some named)).client.latestCsrf = some (String.ofList named) ∧
      (∀ session, (state.remember (some named)).client.stored = some session →
        session.csrfToken = some (String.ofList named)) ∧
      (state.remember (some named)).captured = some (String.ofList named) := by
  unfold System.remember
  simp only [Option.filter_some, decide_not, hnamed, decide_false, Bool.not_false, ↓reduceIte]
  obtain ⟨hlatest, hstored⟩ := rememberCsrf_spec state.client (String.ofList named)
  exact ⟨hlatest, hstored, trivial⟩

theorem jar_remember (named : Option (List Char)) :
    (state.remember named).jar = state.jar ∧ (state.remember named).flights = state.flights := by
  unfold System.remember
  split <;> exact ⟨rfl, rfl⟩

theorem arrive (hstep : state.InStep) {id : ℕ} {flight : Flight} {response : Response}
    (hflight : state.flights[id]? = some flight) (hphase : flight.phase = .answered response)
    (hundisturbed : state.Undisturbed (.arrive id)) :
    (state.arrive id flight response).InStep := by
  have hpublished := hstep.published flight (List.mem_of_getElem? hflight) response hphase
  have hcondition := hundisturbed flight response hflight hphase
  have hdone : ∀ answer, Phase.done = .answered answer → answer.Published flight.scope :=
    fun answer hanswer => by cases hanswer
  unfold System.arrive
  simp only
  split
  · rename_i hreads
    rw [if_pos hreads] at hcondition
    have hnamed : ∀ token, state.jar.answer response.setCookies .csrf = some token →
        response.csrfHeader = some token.text ∨
          response.csrfHeader = none ∧ state.jar .csrf = some token := by
      intro token htoken
      rcases hpublished with ⟨fresh, hheader, hjar⟩ | ⟨-, hjar⟩ | ⟨hjar, hheader⟩
      · rw [hjar, Option.some.injEq] at htoken
        exact .inl (htoken ▸ hheader)
      · rw [hjar] at htoken
        cases htoken
      · rw [hjar] at htoken
        cases hcsrf : response.csrfHeader with
        | none => exact .inr ⟨rfl, htoken⟩
        | some named =>
            rcases hheader with hnone | hsame
            · rw [hcsrf] at hnone
              cases hnone
            · rw [hcondition hsame token htoken named hcsrf]
              exact .inl rfl
    refine hstep.setFlight hflight hdone (jar_remember _).2 ?_ ?_ ?_
    all_goals
      intro token htoken
      rw [(jar_remember _).1] at htoken
      rcases hnamed token htoken with hheader | ⟨hheader, hjar⟩
    · rw [hheader]
      exact (remember_spec token.nonempty).1
    · rw [hheader]
      exact hstep.latest token hjar
    · rw [hheader]
      intro session hsession named hcsrf
      rw [(remember_spec token.nonempty).2.1 session hsession, Option.some.injEq] at hcsrf
      exact hcsrf.symm
    · rw [hheader]
      exact hstep.stored token hjar
    · rw [hheader]
      intro named hcaptured
      rw [(remember_spec token.nonempty).2.2, Option.some.injEq] at hcaptured
      exact hcaptured.symm
    · rw [hheader]
      exact hstep.captured token hjar
  · rename_i hreads
    rw [if_neg hreads] at hcondition
    exact hstep.setFlight hflight hdone rfl
      (fun token htoken => hstep.latest token (hcondition token htoken))
      (fun token htoken => hstep.stored token (hcondition token htoken))
      (fun token htoken => hstep.captured token (hcondition token htoken))

/-- The page writes a session that names the token it knows, or none. -/
theorem writeSession (hstep : state.InStep) (session : Browser.StoredSession)
    (hsession : ∀ token, state.jar .csrf = some token → ∀ named,
      session.csrfToken = some named → named = String.ofList token.text) :
    ({ state with client := state.client.write [] session } : System).InStep where
  latest := hstep.latest
  stored token htoken other hother named hnamed := by
    obtain rfl : session = other := Option.some.inj hother
    exact hsession token htoken named hnamed
  captured := hstep.captured
  published := hstep.published
  repeats := hstep.repeats

theorem step (hstep : state.InStep) {label : Label} (hundisturbed : state.Undisturbed label)
    (hnext : state.step settings loads label = some next) : next.InStep := by
  cases label with
  | send request path secure jsonBody arrived =>
      simp only [System.step] at hnext
      split at hnext
      · cases hnext
        exact hstep.send request path secure jsonBody arrived
      · cases hnext
  | forge scope attached arrived => exact hstep.forge hnext
  | serve id answer fresh =>
      obtain ⟨flight, hflight, hnext⟩ := Option.bind_eq_some_iff.mp hnext
      split at hnext
      · exact hstep.serve hflight hnext
      · cases hnext
  | arrive id =>
      obtain ⟨flight, hflight, hnext⟩ := Option.bind_eq_some_iff.mp hnext
      split at hnext
      · rename_i response hphase
        cases hnext
        exact hstep.arrive hflight hphase hundisturbed
      · cases hnext
  | expire cookie =>
      cases hnext
      have hkept : ∀ token, Function.update state.jar cookie none .csrf = some token →
          state.jar .csrf = some token := by
        intro token htoken
        rw [Function.update_apply] at htoken
        split at htoken
        · cases htoken
        · exact htoken
      exact ⟨fun token htoken => hstep.latest token (hkept token htoken),
        fun token htoken => hstep.stored token (hkept token htoken),
        fun token htoken => hstep.captured token (hkept token htoken),
        hstep.published, hstep.repeats⟩
  | beginLogin =>
      cases hnext
      exact ⟨hstep.latest, hstep.stored, fun _ _ _ hcaptured => (by cases hcaptured),
        hstep.published, hstep.repeats⟩
  | signIn session =>
      cases hnext
      have hwritten := hstep.writeSession { session with csrfToken := state.captured }
        hstep.captured
      exact ⟨hwritten.latest, hwritten.stored, hwritten.captured, hwritten.published,
        hwritten.repeats⟩
  | completeProfile session =>
      simp only [System.step] at hnext
      split at hnext
      · cases hnext
        exact hstep.writeSession { session with csrfToken := state.signing } hundisturbed
      · cases hnext
  | renew expiresAt =>
      obtain ⟨current, -, rfl⟩ := Option.map_eq_some_iff.mp hnext
      refine hstep.writeSession _ fun token htoken named hnamed => ?_
      rw [hstep.latest token htoken, Option.some_or, Option.some.injEq] at hnamed
      exact hnamed.symm
  | signOut =>
      cases hnext
      exact ⟨hstep.latest, fun _ _ _ hsession => (by cases hsession), hstep.captured,
        hstep.published, hstep.repeats⟩

end System.InStep

/-- A request that repeats its cookie is not refused as a forgery. -/
theorem gate_repeats {scope : Scope} {token : Token} (loads : List UInt8 → Loaded)
    (arrived : List Message) (hcookie : scope.cookies .csrf = some token.text)
    (hheader : scope.csrfHeader = some token.text) :
    scope.gate loads arrived ≠ .answers 403 := by
  have hcompared (stream : List Message) : scope.compared stream = .forwards stream := by
    rw [Scope.compared, hcookie, hheader, csrfMatches_self]
  unfold Scope.gate
  simp only [hcompared]
  split
  · split
    · split
      · split <;> simp
      all_goals simp
    · simp
  · simp

/-- In every run that brings the page no replaced token and the browser no unread one, a
state-changing request of the page that has a CSRF cookie repeats it, and is not refused as a
forgery. -/
theorem own_requests_pass (loads : List UInt8 → Loaded) {labels : List Label} {final : System}
    (hundisturbed : StepsMeet (System.step · settings loads) System.Undisturbed start labels)
    (hrun : run (System.step · settings loads) start labels = some final) :
    ∀ flight ∈ final.flights, flight.origin ≠ .foreign → flight.scope.changesState = true →
      (flight.scope.cookies .csrf).isSome → flight.scope.Repeats ∧
        flight.scope.gate loads flight.arrived ≠ .answers 403 := by
  intro flight hflight horigin hchanges hcookie
  have hstep : final.InStep := hundisturbed.invariant_run System.InStep
    (fun _ _ _ hstep hcondition hnext => hstep.step hcondition hnext) start_inStep hrun
  obtain ⟨value, hvalue⟩ := Option.isSome_iff_exists.mp hcookie
  obtain ⟨hheader, token, rfl⟩ := hstep.repeats flight hflight horigin hchanges value hvalue
  refine ⟨⟨by rw [hheader]; rfl, hvalue.trans hheader.symm⟩, ?_⟩
  exact gate_repeats loads flight.arrived hvalue hheader

theorem visit_undisturbed :
    StepsMeet (System.step · weekSettings noJson) System.Undisturbed start visit := by
  refine .cons trivial rfl <| .cons trivial rfl <| .cons trivial rfl <| .cons ?_ rfl <|
    .cons trivial rfl <| .cons trivial rfl <| .cons trivial rfl <| .cons trivial rfl <|
    .cons trivial rfl trivial
  rintro flight response hflight hphase
  cases hflight
  cases hphase
  intro hsame
  cases hsame

theorem own_requests_pass_visited :
    (∃ flight request, visited.flights[1]? = some flight ∧ flight.origin = .page request ∧
      (flight.scope.cookies .csrf).isSome) ∧
      ∀ flight ∈ visited.flights, flight.origin ≠ .foreign → flight.scope.changesState = true →
        (flight.scope.cookies .csrf).isSome → flight.scope.Repeats ∧
          flight.scope.gate noJson flight.arrived ≠ .answers 403 :=
  ⟨⟨_, _, rfl, rfl, rfl⟩,
    own_requests_pass weekSettings noJson visit_undisturbed run_visit⟩

end AlgorithmHarness.Csrf
