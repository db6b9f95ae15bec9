import AlgorithmHarness.Core.Json
import Mathlib.Data.List.TakeWhile
import Mathlib.Data.Nat.Notation

/-!
# The gate for cookie-authenticated mutations

`CsrfMiddleware` lets a state-changing request that is authenticated by cookies
pass if its header repeats the CSRF cookie, or if it is a refresh that brings its
own token.  For the second it reads the body, under a limit of size and time, and
replays it.  On the way back `publish_csrf` tells the page which token its
browser holds.
-/

namespace AlgorithmHarness.Csrf

/-! ## Cookies as text -/

/-- The cookies of a session. -/
inductive Cookie where
  | access
  | refresh
  | persist
  | csrf
  deriving DecidableEq, Repr

def Cookie.name : Cookie → List Char
  | .access => "harness_access_token".toList
  | .refresh => "harness_refresh_token".toList
  | .persist => "harness_persist".toList
  | .csrf => "harness_csrf".toList

def Cookie.path : Cookie → List Char
  | .access | .persist => "/api".toList
  | .refresh => "/api/v1/auth".toList
  | .csrf => "/".toList

/-- A character that `http.cookies` writes as it is. -/
def isLegal (letter : Char) : Bool :=
  letter.isAlphanum || "!#$%&'*+-.^_`|~:".toList.contains letter

/-- The whitespace of Latin-1, which `str.strip` removes. -/
def spaces : List Char :=
  [' ', '\t', '\n', '\x0b', '\x0c', '\r', '\x1c', '\x1d', '\x1e', '\x1f', '\u0085', '\u00a0']

/-- The characters with a meaning in a cookie's text. -/
def cookieMarks : List Char := [';', '=', '"']

theorem not_legal_mark : (spaces ++ cookieMarks).all (fun mark => !isLegal mark) = true := by
  decide

theorem legal_ne {letter mark : Char} (hlegal : isLegal letter = true)
    (hmark : mark ∈ spaces ++ cookieMarks) : letter ≠ mark := by
  rintro rfl
  have hillegal := List.all_eq_true.mp not_legal_mark letter hmark
  simp [hlegal] at hillegal

/-- A token: `secrets.token_urlsafe`, a signed token, or the mark of a persistent session. -/
structure Token where
  text : List Char
  nonempty : text ≠ []
  legal : text.all isLegal = true
  deriving DecidableEq

namespace Token

variable (token : Token)

theorem mem_ne {letter mark : Char} (hletter : letter ∈ token.text)
    (hmark : mark ∈ spaces ++ cookieMarks) : letter ≠ mark :=
  legal_ne (List.all_eq_true.mp token.legal letter hletter) hmark

end Token

/-- A `Set-Cookie` header of `set_cookie`, or without a value of `delete_cookie`. -/
structure SetCookie where
  cookie : Cookie
  value : Option Token
  maxAge : Option ℤ
  httponly : Bool
  secure : Bool
  deriving DecidableEq

def SetCookie.text (cookie : SetCookie) : List Char :=
  match cookie.value with
  | some token => token.text
  | none => []

/-- The value as `SimpleCookie` writes it: an empty value stands in quotes. -/
def SetCookie.coded (cookie : SetCookie) : List Char :=
  match cookie.value with
  | some token => token.text
  | none => ['"', '"']

/-- The attributes in the order of their names; `date` is the moment a deleted cookie expires. -/
def SetCookie.attributes (date : List Char) (cookie : SetCookie) : List (List Char) :=
  (if cookie.value.isNone then ["expires=".toList ++ date] else []) ++
  (if cookie.httponly then ["HttpOnly".toList] else []) ++
  (cookie.maxAge.map fun age => "Max-Age=".toList ++ (toString age).toList).toList ++
  ["Path=".toList ++ cookie.cookie.path, "SameSite=lax".toList] ++
  (if cookie.secure then ["Secure".toList] else [])

/-- The header as `SimpleCookie` writes it. -/
def SetCookie.render (date : List Char) (cookie : SetCookie) : List Char :=
  cookie.cookie.name ++ '=' :: cookie.coded ++
    (cookie.attributes date).flatMap fun part => ';' :: ' ' :: part

/-- `str.strip` -/
def strip (text : List Char) : List Char :=
  ((text.dropWhile spaces.contains).reverse.dropWhile spaces.contains).reverse

/-- `value[1:-1]` of a value in double quotes. -/
def unquote (value : List Char) : List Char :=
  if 2 ≤ value.length && value.head? = some '"' && value.getLast? = some '"' then
    value.tail.dropLast
  else value

/-- `cookie_pair_value` -/
def cookiePairValue (header name : List Char) : Option (List Char) :=
  let pair := header.takeWhile (· ≠ ';')
  let key := pair.takeWhile (· ≠ '=')
  match pair.dropWhile (· ≠ '=') with
  | [] => none
  | _ :: value => if strip key = name then some (unquote (strip value)) else none

/-! ### What `set_cookie` writes, `cookie_pair_value` reads -/

theorem dropWhile_spaces {text : List Char} (hplain : ∀ letter ∈ text, letter ∉ spaces) :
    text.dropWhile spaces.contains = text := by
  cases text with
  | nil => rfl
  | cons letter rest =>
      have hletter : letter ∉ spaces := hplain letter (List.mem_cons_self ..)
      exact List.dropWhile_cons_of_neg (by simpa using hletter)

theorem strip_plain {text : List Char} (hplain : ∀ letter ∈ text, letter ∉ spaces) :
    strip text = text := by
  unfold strip
  rw [dropWhile_spaces hplain, dropWhile_spaces, List.reverse_reverse]
  intro letter hletter
  exact hplain letter (List.mem_reverse.mp hletter)

theorem takeWhile_stop {text rest : List Char} {mark : Char}
    (hfree : ∀ letter ∈ text, letter ≠ mark) :
    (text ++ mark :: rest).takeWhile (· ≠ mark) = text := by
  rw [List.takeWhile_append_of_pos (by simpa using hfree)]
  simp

theorem dropWhile_stop {text rest : List Char} {mark : Char}
    (hfree : ∀ letter ∈ text, letter ≠ mark) :
    (text ++ mark :: rest).dropWhile (· ≠ mark) = mark :: rest := by
  rw [List.dropWhile_append_of_pos (by simpa using hfree)]
  simp

theorem takeWhile_free {text : List Char} {mark : Char}
    (hfree : ∀ letter ∈ text, letter ≠ mark) : text.takeWhile (· ≠ mark) = text :=
  List.takeWhile_eq_self_iff.mpr (by simpa using hfree)

theorem names_plain :
    [Cookie.access, .refresh, .persist, .csrf].all
      (fun cookie => cookie.name.all isLegal) = true := by
  decide

theorem Cookie.name_legal (cookie : Cookie) {letter : Char} (hletter : letter ∈ cookie.name) :
    isLegal letter = true := by
  have hplain : cookie.name.all isLegal = true :=
    List.all_eq_true.mp names_plain cookie (by cases cookie <;> simp)
  exact List.all_eq_true.mp hplain letter hletter

theorem Cookie.name_injective : Function.Injective Cookie.name := by
  intro first second hname
  revert hname
  cases first <;> cases second <;> decide

theorem SetCookie.coded_plain (cookie : SetCookie) {letter : Char}
    (hletter : letter ∈ cookie.coded) : letter ∉ ';' :: spaces := by
  intro hmark
  unfold SetCookie.coded at hletter
  split at hletter
  · rename_i token _
    have hmarks : letter ∈ spaces ++ cookieMarks := by
      rcases List.mem_cons.mp hmark with hsemicolon | hspace
      · simp [cookieMarks, hsemicolon]
      · exact List.mem_append_left _ hspace
    exact token.mem_ne hletter hmarks rfl
  · obtain rfl : letter = '"' := by simpa using hletter
    exact absurd hmark (by decide)

/-- A token is not in quotes, so only the quotes of the empty value are taken off. -/
theorem SetCookie.unquote_coded (cookie : SetCookie) : unquote cookie.coded = cookie.text := by
  unfold SetCookie.coded SetCookie.text
  split
  · rename_i token _
    have hunquoted : token.text.head? ≠ some '"' := by
      intro hhead
      exact token.mem_ne (List.mem_of_mem_head? hhead) (by simp [cookieMarks]) rfl
    simp [unquote, hunquoted]
  · rfl

theorem cookiePairValue_render (date name : List Char) (cookie : SetCookie) :
    cookiePairValue (cookie.render date) name =
      if cookie.cookie.name = name then some cookie.text else none := by
  have hkey {mark : Char} (hmark : mark ∈ spaces ++ cookieMarks) :
      ∀ letter ∈ cookie.cookie.name, letter ≠ mark := fun letter hletter =>
    legal_ne (cookie.cookie.name_legal hletter) hmark
  have hpairFree : ∀ letter ∈ cookie.cookie.name ++ '=' :: cookie.coded, letter ≠ ';' := by
    intro letter hletter
    rcases List.mem_append.mp hletter with hname | hrest
    · exact hkey (by simp [cookieMarks]) letter hname
    · rcases List.mem_cons.mp hrest with rfl | hcoded
      · decide
      · rintro rfl
        exact cookie.coded_plain hcoded (List.mem_cons_self ..)
  have hpair : (cookie.render date).takeWhile (· ≠ ';') =
      cookie.cookie.name ++ '=' :: cookie.coded := by
    unfold SetCookie.render
    cases (cookie.attributes date) with
    | nil => simpa using takeWhile_free hpairFree
    | cons part rest =>
        rw [List.flatMap_cons, List.cons_append]
        simpa using takeWhile_stop hpairFree
  have hequals : ∀ letter ∈ cookie.cookie.name, letter ≠ '=' := hkey (by simp [cookieMarks])
  have hstripName : strip cookie.cookie.name = cookie.cookie.name := by
    refine strip_plain fun letter hletter hspace => ?_
    exact hkey (List.mem_append_left _ hspace) letter hletter rfl
  have hstripCoded : strip cookie.coded = cookie.coded :=
    strip_plain fun letter hletter hspace =>
      cookie.coded_plain hletter (List.mem_cons_of_mem _ hspace)
  simp only [cookiePairValue, hpair, takeWhile_stop hequals, dropWhile_stop hequals, hstripName,
    hstripCoded, cookie.unquote_coded]

/-! ## Bodies -/

/-- A message of `receive`. -/
inductive Message where
  | request (body : List UInt8) (moreBody : Bool)
  | disconnect
  deriving DecidableEq, Repr

/-- `REFRESH_BODY_MAX_BYTES`, and the limit of `AuthBoundaryMiddleware`. -/
def refreshBodyMaxBytes : ℕ := 16384

/-- How the loop over the messages of a body ends. -/
inductive Received where
  | whole (chunks : List (List UInt8)) (later : List Message)
  | tooLarge
  | disconnected
  | timedOut
  deriving DecidableEq, Repr

/-- The loop of `explicit_refresh_token` over the messages that arrive in time. -/
def receiveBody (chunks : List (List UInt8)) (size : ℕ) : List Message → Received
  | [] => .timedOut
  | .disconnect :: _ => .disconnected
  | .request chunk moreBody :: later =>
      if refreshBodyMaxBytes < size + chunk.length then .tooLarge
      else
        let kept := if chunk = [] then chunks else chunks ++ [chunk]
        if moreBody then receiveBody kept (size + chunk.length) later else .whole kept later

/-- What `json.loads` makes of a body: a value, a `JSONDecodeError`, or another error. -/
inductive Loaded where
  | value (payload : Json)
  | malformed
  | raised

/-- What `explicit_refresh_token` returns or raises; `replay` is what its `receive` delivers. -/
inductive Reading where
  | read (supplied : Bool) (replay : List Message)
  | tooLarge
  | disconnected
  | timedOut
  | raised
  deriving DecidableEq, Repr

/-- `payload.get("refresh_token")` is a string with a character in it. -/
def suppliesToken : Json → Bool
  | .obj members =>
      match members.lookup "refresh_token" with
      | some (.str token) => token ≠ ""
      | _ => false
  | _ => false

section Loading

variable (loads : List UInt8 → Loaded)

/-- The end of `explicit_refresh_token`, which has the whole body. -/
def readToken (body : List UInt8) (later : List Message) : Reading :=
  let replay := .request body false :: later
  if body = [] then .read false replay
  else
    match loads body with
    | .value payload => .read (suppliesToken payload) replay
    | .malformed => .read false replay
    | .raised => .raised

/-- `explicit_refresh_token` -/
def explicitRefreshToken (arrived : List Message) : Reading :=
  match receiveBody [] 0 arrived with
  | .whole chunks later => readToken loads chunks.flatten later
  | .tooLarge => .tooLarge
  | .disconnected => .disconnected
  | .timedOut => .timedOut

end Loading

/-- How a body ends, after the pieces with more to come. -/
inductive Ending where
  | complete (last : List UInt8) (later : List Message)
  | broken (later : List Message)
  | silent
  deriving DecidableEq, Repr

def Ending.bytes : Ending → List UInt8
  | .complete last _ => last
  | .broken _ | .silent => []

def Ending.messages : Ending → List Message
  | .complete last later => .request last false :: later
  | .broken later => .disconnect :: later
  | .silent => []

/-- The messages of a body that comes in pieces. -/
def arrivals (pieces : List (List UInt8)) (ending : Ending) : List Message :=
  pieces.map (.request · true) ++ ending.messages

/-- Every sequence of messages is a body in pieces with an ending. -/
theorem exists_arrivals (arrived : List Message) :
    ∃ pieces ending, arrived = arrivals pieces ending := by
  induction arrived with
  | nil => exact ⟨[], .silent, rfl⟩
  | cons message later ih =>
      obtain ⟨pieces, ending, hlater⟩ := ih
      cases message with
      | disconnect => exact ⟨[], .broken later, rfl⟩
      | request body moreBody =>
          cases moreBody with
          | false => exact ⟨[], .complete body later, rfl⟩
          | true => exact ⟨body :: pieces, ending, by rw [hlater]; rfl⟩

/-- What is read of the bytes that have come. -/
def Ending.received (chunks : List (List UInt8)) : Ending → Received
  | .complete last later => .whole (chunks ++ [last].filter (· ≠ [])) later
  | .broken _ => .disconnected
  | .silent => .timedOut

/-- Over the limit once is over the limit at the end, and an empty piece is not kept. -/
theorem receiveBody_arrivals (pieces : List (List UInt8)) (ending : Ending)
    (chunks : List (List UInt8)) {size : ℕ} (hsize : size ≤ refreshBodyMaxBytes) :
    receiveBody chunks size (arrivals pieces ending) =
      if refreshBodyMaxBytes < size + (pieces.flatten ++ ending.bytes).length then .tooLarge
      else ending.received (chunks ++ pieces.filter (· ≠ [])) := by
  induction pieces generalizing chunks size with
  | nil =>
      cases ending with
      | complete last later =>
          by_cases hempty : last = [] <;>
            simp [arrivals, Ending.messages, Ending.bytes, Ending.received, receiveBody, hempty]
      | broken later =>
          simp [arrivals, Ending.messages, Ending.bytes, Ending.received, receiveBody, hsize]
      | silent =>
          simp [arrivals, Ending.messages, Ending.bytes, Ending.received, receiveBody, hsize]
  | cons piece pieces ih =>
      have hfirst : arrivals (piece :: pieces) ending =
          .request piece true :: arrivals pieces ending := rfl
      have hlength : size + ((piece :: pieces).flatten ++ ending.bytes).length =
          size + piece.length + (pieces.flatten ++ ending.bytes).length := by
        simp only [List.flatten_cons, List.length_append]
        omega
      rw [hfirst, receiveBody, hlength]
      by_cases hover : refreshBodyMaxBytes < size + piece.length
      · rw [if_pos hover, if_pos (by omega)]
      · rw [if_neg hover]
        simp only [↓reduceIte, ih _ (Nat.not_lt.mp hover)]
        by_cases hempty : piece = [] <;> simp [hempty]

theorem flatten_filter_nonempty {Item : Type*} [DecidableEq Item] (pieces : List (List Item)) :
    (pieces.filter (· ≠ [])).flatten = pieces.flatten := by
  induction pieces with
  | nil => rfl
  | cons piece pieces ih => by_cases hempty : piece = [] <;> simp_all

/-- The answer to the bytes of a body under the limit. -/
def Ending.answer (loads : List UInt8 → Loaded) (bytes : List UInt8) : Ending → Reading
  | .complete _ later => readToken loads bytes later
  | .broken _ => .disconnected
  | .silent => .timedOut

/-- What is read of a body depends on its bytes and not on the pieces it comes in. -/
theorem explicitRefreshToken_arrivals (loads : List UInt8 → Loaded)
    (pieces : List (List UInt8)) (ending : Ending) :
    explicitRefreshToken loads (arrivals pieces ending) =
      if refreshBodyMaxBytes < (pieces.flatten ++ ending.bytes).length then .tooLarge
      else ending.answer loads (pieces.flatten ++ ending.bytes) := by
  unfold explicitRefreshToken
  rw [receiveBody_arrivals pieces ending [] (Nat.zero_le _), Nat.zero_add]
  by_cases hover : refreshBodyMaxBytes < (pieces.flatten ++ ending.bytes).length
  · simp only [if_pos hover]
  · simp only [if_neg hover, List.nil_append]
    cases ending with
    | complete last later =>
        simp only [Ending.received, Ending.answer, Ending.bytes, List.flatten_append,
          flatten_filter_nonempty, List.flatten_singleton]
    | broken later => rfl
    | silent => rfl

/-! ## The gate -/

/-- What is read of a request before its body; `jsonBody` says how its body is declared. -/
structure Scope where
  method : String
  path : List Char
  authorization : Option String
  cookies : Cookie → Option (List Char)
  csrfHeader : Option (List Char)
  secure : Bool
  jsonBody : Bool

/-- How a middleware ends: it hands the request on, with the messages that are
still to be received, or it does not. -/
inductive Verdict where
  | forwards (stream : List Message)
  | answers (status : ℕ)
  | drops
  | raises
  | waits
  deriving DecidableEq, Repr

/-- `UNSAFE_METHODS` -/
def unsafeMethods : List (List Char) :=
  ["POST".toList, "PUT".toList, "PATCH".toList, "DELETE".toList]

/-- `hmac.compare_digest` of two strings raises a `TypeError` if one is not ASCII. -/
def csrfMatches (expected provided : Option (List Char)) : Option Bool :=
  match expected, provided with
  | some expected, some provided =>
      if expected = [] ∨ provided = [] ∨ expected.length ≠ provided.length then some false
      else if expected.all (·.toNat < 128) && provided.all (·.toNat < 128) then
        some (expected = provided)
      else none
  | _, _ => some false

namespace Scope

variable (scope : Scope)

def changesState : Bool := unsafeMethods.contains (scope.method.toList.map Char.toUpper)

def cookieAuthenticated : Bool :=
  scope.authorization.isNone &&
    ((scope.cookies .access).isSome || (scope.cookies .refresh).isSome)

def ofApi : Bool := "/api/v1/".toList.isPrefixOf scope.path

def endsWith (suffix : String) : Bool := suffix.toList.isSuffixOf scope.path

def skipsCsrf : Bool := scope.endsWith "/auth/login" || scope.endsWith "/auth/register"

def compared (stream : List Message) : Verdict :=
  match csrfMatches (scope.cookies .csrf) scope.csrfHeader with
  | some true => .forwards stream
  | some false => .answers 403
  | none => .raises

section Loading

variable (loads : List UInt8 → Loaded)

/-- `CsrfMiddleware.__call__`, up to the application. -/
def gate (arrived : List Message) : Verdict :=
  if scope.ofApi && scope.changesState && scope.cookieAuthenticated && !scope.skipsCsrf then
    if scope.endsWith "/auth/refresh" then
      match explicitRefreshToken loads arrived with
      | .read supplied replay => if supplied then .forwards replay else scope.compared replay
      | .tooLarge => .answers 413
      | .disconnected => .drops
      | .timedOut => .answers 408
      | .raised => .raises
    else scope.compared arrived
  else .forwards arrived

/-- The paths whose bodies `AuthBoundaryMiddleware` reads. -/
def hasSensitiveInput : Bool :=
  ["/api/v1/auth/", "/api/v1/api-keys", "/api/v1/users/", "/api/v1/problems/import"].any
    fun start => start.toList.isPrefixOf scope.path

/-- The loop of `AuthBoundaryMiddleware`, which has no time limit and keeps every piece. -/
def boundBody (body : List UInt8) : List Message → Verdict
  | [] => .waits
  | .disconnect :: _ => .drops
  | .request chunk moreBody :: later =>
      if refreshBodyMaxBytes < (body ++ chunk).length then .answers 413
      else if moreBody then boundBody (body ++ chunk) later
      else .forwards (.request (body ++ chunk) false :: later)

/-- `AuthBoundaryMiddleware.__call__`, up to the application. -/
def boundary (arrived : List Message) : Verdict :=
  if scope.ofApi && scope.hasSensitiveInput && ["POST", "PATCH", "PUT"].contains scope.method then
    boundBody [] arrived
  else .forwards arrived

/-- A request on its way to its route. -/
def passage (arrived : List Message) : Verdict :=
  match scope.gate loads arrived with
  | .forwards stream => scope.boundary stream
  | verdict => verdict

end Loading

end Scope

/-- A body under the limit goes through the boundary as it is. -/
theorem boundary_replay (scope : Scope) {body : List UInt8} {later : List Message}
    (hsize : body.length ≤ refreshBodyMaxBytes) :
    scope.boundary (.request body false :: later) = .forwards (.request body false :: later) := by
  unfold Scope.boundary
  split
  · simp [Scope.boundBody, hsize]
  · rfl

theorem csrfMatches_true {expected provided : Option (List Char)}
    (hmatch : csrfMatches expected provided = some true) :
    expected = provided ∧ expected.isSome := by
  unfold csrfMatches at hmatch
  split at hmatch
  · split at hmatch
    · simp at hmatch
    · split at hmatch
      · exact ⟨congrArg some (by simpa using hmatch), rfl⟩
      · simp at hmatch
  · simp at hmatch

theorem legal_ascii {letter : Char} (hlegal : isLegal letter = true) : letter.toNat < 128 := by
  unfold isLegal at hlegal
  rcases Bool.or_eq_true_iff.mp hlegal with halphanum | hsign
  · have hbelow : ∀ last : Char, last.toNat < 128 → letter.val ≤ last.val →
        letter.toNat < 128 := fun last hascii hle =>
      (UInt32.le_iff_toNat_le.mp hle).trans_lt hascii
    rcases Bool.or_eq_true_iff.mp halphanum with halpha | hdigit
    · rcases Bool.or_eq_true_iff.mp halpha with hupper | hlower
      · exact hbelow 'Z' (by decide) (of_decide_eq_true hupper).2
      · exact hbelow 'z' (by decide) (of_decide_eq_true (Bool.and_eq_true_iff.mp hlower).2)
    · exact hbelow '9' (by decide) (of_decide_eq_true (Bool.and_eq_true_iff.mp hdigit).2)
  · have hsigns : "!#$%&'*+-.^_`|~:".toList.all (·.toNat < 128) = true := by decide
    exact of_decide_eq_true (List.all_eq_true.mp hsigns letter (by simpa using hsign))

theorem csrfMatches_self (token : Token) :
    csrfMatches (some token.text) (some token.text) = some true := by
  have hascii : token.text.all (·.toNat < 128) = true := by
    refine List.all_eq_true.mpr fun letter hletter => decide_eq_true ?_
    exact legal_ascii (List.all_eq_true.mp token.legal letter hletter)
  simp [csrfMatches, token.nonempty, hascii]

/-! ## Routes -/

/-- A part of a route's path between two slashes; `rest` takes all that follows. -/
inductive Segment where
  | literal (text : List Char)
  | param
  | rest
  deriving DecidableEq, Repr

/-- `path.split("/")` -/
def segments : List Char → List (List Char)
  | [] => [[]]
  | letter :: later =>
      if letter = '/' then [] :: segments later
      else
        match segments later with
        | [] => [[letter]]
        | first :: others => (letter :: first) :: others

def Segment.ofText (text : List Char) : Segment :=
  if text.head? = some '{' then
    if (":path".toList ++ ['}']).isSuffixOf text then .rest else .param
  else .literal text

/-- Whether a path's parts are those of a route. -/
def accepts : List Segment → List (List Char) → Bool
  | [], [] => true
  | .literal text :: pattern, part :: parts => text = part && accepts pattern parts
  | .param :: pattern, part :: parts => part ≠ [] && accepts pattern parts
  | [.rest], _ :: _ => true
  | _, _ => false

/-- How a route learns who asks. -/
inductive Identity where
  | credentials
  | refreshToken
  | currentUser
  deriving DecidableEq, Repr

/-- A route that changes state. -/
structure Route where
  method : String
  path : String
  identity : Identity := .currentUser
  deriving DecidableEq, Repr

def Route.pattern (route : Route) : List Segment :=
  (segments ("/api/v1".toList ++ route.path.toList)).map Segment.ofText

/-- The routes of all routers with a method of `UNSAFE_METHODS`. -/
def routes : List Route :=
  [⟨"POST", "/evaluations", .currentUser⟩,
    ⟨"PATCH", "/evaluations/{evaluation_id}", .currentUser⟩,
    ⟨"DELETE", "/evaluations/{evaluation_id}", .currentUser⟩,
    ⟨"POST", "/evaluations/{evaluation_id}/start", .currentUser⟩,
    ⟨"POST", "/evaluations/{evaluation_id}/cancel", .currentUser⟩,
    ⟨"POST", "/results/{run_id}/publication/retry", .currentUser⟩,
    ⟨"POST", "/tasks", .currentUser⟩,
    ⟨"DELETE", "/tasks/{task_id}", .currentUser⟩,
    ⟨"POST", "/tasks/{task_id}/pause", .currentUser⟩,
    ⟨"POST", "/tasks/{task_id}/resume", .currentUser⟩,
    ⟨"POST", "/auth/register", .credentials⟩,
    ⟨"POST", "/auth/login", .credentials⟩,
    ⟨"POST", "/auth/refresh", .refreshToken⟩,
    ⟨"POST", "/auth/logout", .currentUser⟩,
    ⟨"POST", "/users/me/password", .currentUser⟩,
    ⟨"PATCH", "/users/me", .currentUser⟩,
    ⟨"POST", "/api-keys", .currentUser⟩,
    ⟨"PATCH", "/api-keys/{key_id}", .currentUser⟩,
    ⟨"DELETE", "/api-keys/{key_id}", .currentUser⟩,
    ⟨"POST", "/api-keys/{key_id}/verify", .currentUser⟩,
    ⟨"POST", "/files/upload", .currentUser⟩,
    ⟨"POST", "/problems/upload", .currentUser⟩,
    ⟨"POST", "/problems/import", .currentUser⟩,
    ⟨"POST", "/configs/upload", .currentUser⟩,
    ⟨"DELETE", "/files/{file_id}", .currentUser⟩,
    ⟨"POST", "/experiments", .currentUser⟩,
    ⟨"DELETE", "/experiments/{experiment_id}", .currentUser⟩,
    ⟨"POST", "/experiments/{experiment_id}/run", .currentUser⟩,
    ⟨"POST", "/benchmarks/suites", .currentUser⟩,
    ⟨"PATCH", "/benchmarks/suites/{suite_id}", .currentUser⟩,
    ⟨"POST", "/benchmarks/suites/{suite_id}/run", .currentUser⟩,
    ⟨"POST", "/ab-tests", .currentUser⟩,
    ⟨"DELETE", "/ab-tests/{test_id}", .currentUser⟩,
    ⟨"POST", "/ab-tests/{test_id}/run", .currentUser⟩,
    ⟨"POST", "/pareto/analyze", .currentUser⟩,
    ⟨"POST", "/optimize", .currentUser⟩,
    ⟨"POST", "/budgets", .currentUser⟩,
    ⟨"PATCH", "/budgets", .currentUser⟩,
    ⟨"POST", "/alerts", .currentUser⟩,
    ⟨"PATCH", "/alerts/{rule_id}", .currentUser⟩,
    ⟨"DELETE", "/alerts/{rule_id}", .currentUser⟩,
    ⟨"POST", "/pricing/{model_id:path}", .currentUser⟩,
    ⟨"POST", "/notifications/read-all", .currentUser⟩,
    ⟨"POST", "/notifications/clear", .currentUser⟩,
    ⟨"POST", "/notifications/{notification_id}/read", .currentUser⟩]

/-- On whose word a route acts. -/
inductive Authority where
  | credentials
  | header
  | suppliedToken
  | cookie
  deriving DecidableEq, Repr

namespace Scope

variable (scope : Scope)

def route? : Option Route :=
  routes.find? fun route =>
    route.method = scope.method && accepts route.pattern (segments scope.path)

section Loading

variable (loads : List UInt8 → Loaded)

/-- `RefreshInput` of a body: `none` is an answer 422, the inner option is `refresh_token`. -/
def refreshInput (body : List UInt8) : Option (Option String) :=
  if scope.jsonBody && body ≠ [] then
    match loads body with
    | .value (.obj members) =>
        if members.any (·.1 ≠ "refresh_token") then none
        else
          match members.lookup "refresh_token" with
          | none | some .null => some none
          | some (.str token) =>
              if 1 ≤ token.length ∧ token.length ≤ 4096 then some (some token) else none
          | some _ => none
    | _ => none
  else none

/-- Whose token `refresh` takes. -/
def refreshAuthority (stream : List Message) : Option Authority :=
  match stream with
  | .request body false :: _ =>
      match scope.refreshInput loads body with
      | some (some _) => some .suppliedToken
      | some none => if (scope.cookies .refresh).any (· ≠ []) then some .cookie else none
      | none => none
  | _ => none

/-- `current_user` -/
def userAuthority : Option Authority :=
  if scope.authorization.isSome then some .header
  else if (scope.cookies .access).isSome then some .cookie
  else none

/-- On whose word the route of a request acts; `none` if it has no route or acts for nobody. -/
def authority (stream : List Message) : Option Authority :=
  scope.route?.bind fun route =>
    match route.identity with
    | .credentials => some .credentials
    | .refreshToken => scope.refreshAuthority loads stream
    | .currentUser => scope.userAuthority

/-- On whose word a request is served, once it has passed the middleware. -/
def served (arrived : List Message) : Option Authority :=
  match scope.passage loads arrived with
  | .forwards stream => scope.authority loads stream
  | _ => none

end Loading

end Scope

/-! ### Paths and the parts of routes -/

theorem segments_ne_nil (path : List Char) : segments path ≠ [] := by
  cases path with
  | nil => simp [segments]
  | cons letter later =>
      rw [segments]
      split
      · simp
      · split <;> simp

theorem segments_append (path later : List Char) :
    segments (path ++ '/' :: later) = segments path ++ segments later := by
  induction path with
  | nil => simp [segments]
  | cons letter path ih =>
      rw [List.cons_append, segments, segments, ih]
      by_cases hslash : letter = '/'
      · simp [hslash]
      · simp only [if_neg hslash]
        cases hparts : segments path with
        | nil => exact absurd hparts (segments_ne_nil path)
        | cons first others => rfl

/-- A path is its parts with slashes between them. -/
theorem intercalate_segments (path : List Char) :
    List.intercalate ['/'] (segments path) = path := by
  induction path with
  | nil => rfl
  | cons letter path ih =>
      rw [segments]
      cases hparts : segments path with
      | nil => exact absurd hparts (segments_ne_nil path)
      | cons first others =>
          rw [hparts] at ih
          by_cases hslash : letter = '/'
          · rw [if_pos hslash, List.intercalate_cons_cons, ih, hslash]
            rfl
          · rw [if_neg hslash]
            cases others with
            | nil => simpa using ih
            | cons second others =>
                simp only [List.intercalate_cons_cons, List.cons_append] at ih ⊢
                rw [ih]

/-- Without a `rest`, the parts of a route stand against those of the path one by one. -/
theorem accepts_split {pattern : List Segment} {first last : List (List Char)}
    (haccepts : accepts pattern (first ++ last) = true) (hexact : Segment.rest ∉ pattern) :
    accepts (pattern.drop first.length) last = true := by
  induction first generalizing pattern with
  | nil => simpa using haccepts
  | cons part first ih =>
      cases pattern with
      | nil => simp [accepts] at haccepts
      | cons segment pattern =>
          have hpattern : Segment.rest ∉ pattern := fun hmem =>
            hexact (List.mem_cons_of_mem _ hmem)
          have hlater : accepts pattern (first ++ last) = true := by
            cases segment with
            | literal text =>
                simp only [List.cons_append, accepts, Bool.and_eq_true] at haccepts
                exact haccepts.2
            | param =>
                simp only [List.cons_append, accepts, Bool.and_eq_true] at haccepts
                exact haccepts.2
            | rest => exact absurd (List.mem_cons_self ..) hexact
          simpa using ih hlater hpattern

theorem accepts_length {pattern : List Segment} {parts : List (List Char)}
    (haccepts : accepts pattern parts = true) (hexact : Segment.rest ∉ pattern) :
    pattern.length = parts.length := by
  induction parts generalizing pattern with
  | nil =>
      cases pattern with
      | nil => rfl
      | cons segment pattern => cases segment <;> simp [accepts] at haccepts
  | cons part parts ih =>
      cases pattern with
      | nil => simp [accepts] at haccepts
      | cons segment pattern =>
          have hpattern : Segment.rest ∉ pattern := fun hmem =>
            hexact (List.mem_cons_of_mem _ hmem)
          cases segment with
          | literal text =>
              simp only [accepts, Bool.and_eq_true] at haccepts
              simp [ih haccepts.2 hpattern]
          | param =>
              simp only [accepts, Bool.and_eq_true] at haccepts
              simp [ih haccepts.2 hpattern]
          | rest => exact absurd (List.mem_cons_self ..) hexact

theorem segments_of_endsWith {scope : Scope} (first last : String)
    (hends : scope.endsWith ("/" ++ first ++ "/" ++ last) = true)
    (hfirst : segments first.toList = [first.toList])
    (hlast : segments last.toList = [last.toList]) :
    ∃ before, segments scope.path = before ++ [first.toList, last.toList] := by
  obtain ⟨before, hpath⟩ := List.isSuffixOf_iff_suffix.mp hends
  refine ⟨segments before, ?_⟩
  have hparts : ("/" ++ first ++ "/" ++ last).toList =
      '/' :: first.toList ++ '/' :: last.toList := by simp
  rw [← hpath, hparts, List.cons_append, segments_append, segments_append, hfirst, hlast]
  rfl

/-! ### The table of routes -/

def pricingRoute : Route := ⟨"POST", "/pricing/{model_id:path}", .currentUser⟩

/-- The last two parts of a path the gate treats on its own. -/
def specialEndings : List (List (List Char)) :=
  [["auth".toList, "login".toList], ["auth".toList, "register".toList],
    ["auth".toList, "refresh".toList]]

/-- What is checked of each route: it is under `/api/v1`, changes state, and unless it is
the pricing route or one of the three meant, its path has no special ending. -/
def Route.regular (route : Route) : Bool :=
  unsafeMethods.contains (route.method.toList.map Char.toUpper) &&
    route.pattern.take 3 = [.literal [], .literal "api".toList, .literal "v1".toList] &&
    3 < route.pattern.length &&
    (route = pricingRoute ||
      !route.pattern.contains .rest &&
        (route.identity = .currentUser &&
            specialEndings.all (fun ending =>
              !accepts (route.pattern.drop (route.pattern.length - 2)) ending) ||
          route.identity = .credentials ||
          route.identity = .refreshToken && route.path = "/auth/refresh"))

theorem routes_regular : routes.all Route.regular = true := by
  decide +kernel

theorem Scope.route?_spec {scope : Scope} {route : Route} (hroute : scope.route? = some route) :
    route.regular = true ∧ route.method = scope.method ∧
      accepts route.pattern (segments scope.path) = true := by
  have hfound := List.find?_some hroute
  rw [Bool.and_eq_true, decide_eq_true_eq] at hfound
  exact ⟨List.all_eq_true.mp routes_regular route (List.mem_of_find?_eq_some hroute), hfound⟩

theorem accepts_literal {text : List Char} {pattern : List Segment} {parts : List (List Char)}
    (haccepts : accepts (.literal text :: pattern) parts = true) :
    ∃ later, parts = text :: later ∧ accepts pattern later = true := by
  cases parts with
  | nil => simp [accepts] at haccepts
  | cons part later =>
      simp only [accepts, Bool.and_eq_true, decide_eq_true_eq] at haccepts
      exact ⟨later, by rw [haccepts.1], haccepts.2⟩

theorem accepts_literals {texts parts : List (List Char)}
    (haccepts : accepts (texts.map .literal) parts = true) : parts = texts := by
  induction texts generalizing parts with
  | nil =>
      cases parts with
      | nil => rfl
      | cons part parts => simp [accepts] at haccepts
  | cons text texts ih =>
      obtain ⟨later, rfl, hlater⟩ := accepts_literal haccepts
      rw [ih hlater]

theorem accepts_ne_nil {pattern : List Segment} {parts : List (List Char)}
    (haccepts : accepts pattern parts = true) (hpattern : pattern ≠ []) : parts ≠ [] := by
  rintro rfl
  cases pattern with
  | nil => exact hpattern rfl
  | cons segment pattern => cases segment <;> simp [accepts] at haccepts

/-- The parts of a path under a route's first three. -/
theorem parts_of_route {scope : Scope} {route : Route} (hroute : scope.route? = some route) :
    ∃ part parts, segments scope.path =
      [] :: "api".toList :: "v1".toList :: part :: parts ∧
        accepts (route.pattern.drop 3) (part :: parts) = true := by
  obtain ⟨hregular, -, haccepts⟩ := Scope.route?_spec hroute
  simp only [Route.regular, Bool.and_eq_true, decide_eq_true_eq] at hregular
  obtain ⟨⟨⟨-, hstart⟩, hlength⟩, -⟩ := hregular
  rw [← List.take_append_drop 3 route.pattern, hstart] at haccepts
  obtain ⟨second, hfirst, hsecond⟩ := accepts_literal haccepts
  obtain ⟨third, rfl, hthird⟩ := accepts_literal hsecond
  obtain ⟨parts, rfl, hparts⟩ := accepts_literal hthird
  have hrest : route.pattern.drop 3 ≠ [] := by
    rw [Ne, List.drop_eq_nil_iff]
    omega
  obtain ⟨part, later, hlater⟩ := List.exists_cons_of_ne_nil (accepts_ne_nil hparts hrest)
  subst hlater
  exact ⟨part, later, hfirst, hparts⟩

/-- A routed path is under `/api/v1/`. -/
theorem Scope.ofApi_of_route {scope : Scope} {route : Route}
    (hroute : scope.route? = some route) : scope.ofApi = true := by
  obtain ⟨part, parts, hparts, -⟩ := parts_of_route hroute
  unfold Scope.ofApi
  rw [List.isPrefixOf_iff_prefix, ← intercalate_segments scope.path, hparts]
  exact ⟨List.intercalate ['/'] (part :: parts), by simp [List.intercalate_cons_cons]⟩

/-- What the three special endings leave to a route. -/
theorem endsWith_of_route {scope : Scope} {route : Route} (hroute : scope.route? = some route)
    (last : String) (hends : scope.endsWith ("/" ++ "auth" ++ "/" ++ last) = true)
    (hlast : segments last.toList = [last.toList])
    (hspecial : ["auth".toList, last.toList] ∈ specialEndings) :
    route = pricingRoute ∨ route.identity = .credentials ∨ route.identity = .refreshToken := by
  obtain ⟨hregular, -, haccepts⟩ := Scope.route?_spec hroute
  simp only [Route.regular, Bool.and_eq_true, Bool.or_eq_true, decide_eq_true_eq] at hregular
  obtain ⟨-, hpricing | ⟨hexact, (⟨-, hendings⟩ | hcredentials) | ⟨hrefresh, -⟩⟩⟩ := hregular
  · exact .inl hpricing
  · have hrest : Segment.rest ∉ route.pattern := by simpa using hexact
    obtain ⟨before, hbefore⟩ := segments_of_endsWith "auth" last hends rfl hlast
    have hcount := accepts_length haccepts hrest
    rw [hbefore] at haccepts hcount
    have hend := accepts_split haccepts hrest
    have hbeforeLength : before.length = route.pattern.length - 2 := by
      simp only [List.length_append, List.length_cons, List.length_nil] at hcount
      omega
    have hno := List.all_eq_true.mp hendings _ hspecial
    rw [← hbeforeLength, hend] at hno
    simp at hno
  · exact .inr (.inl hcredentials)
  · exact .inr (.inr hrefresh)

/-! ### What the cookies of a browser can do -/

variable {loads : List UInt8 → Loaded}

theorem readToken_read {body : List UInt8} {later replay : List Message} {supplied : Bool}
    (hread : readToken loads body later = .read supplied replay) :
    replay = .request body false :: later ∧
      (supplied = true → ∃ payload, loads body = .value payload ∧
        suppliesToken payload = true) := by
  unfold readToken at hread
  split at hread
  · obtain ⟨rfl, rfl⟩ : false = supplied ∧ _ = replay := by simpa using hread
    exact ⟨rfl, by simp⟩
  · split at hread
    · rename_i payload hloads
      obtain ⟨hsupplied, rfl⟩ : suppliesToken payload = supplied ∧ _ = replay := by
        simpa using hread
      exact ⟨rfl, fun htrue => ⟨payload, hloads, hsupplied.trans htrue⟩⟩
    · obtain ⟨rfl, rfl⟩ : false = supplied ∧ _ = replay := by simpa using hread
      exact ⟨rfl, by simp⟩
    · simp at hread

/-- The replay is one message with the whole body, which is under the limit. -/
theorem explicitRefreshToken_read {arrived replay : List Message} {supplied : Bool}
    (hread : explicitRefreshToken loads arrived = .read supplied replay) :
    ∃ body later, replay = .request body false :: later ∧
      body.length ≤ refreshBodyMaxBytes ∧
      (supplied = true → ∃ payload, loads body = .value payload ∧
        suppliesToken payload = true) := by
  obtain ⟨pieces, ending, rfl⟩ := exists_arrivals arrived
  rw [explicitRefreshToken_arrivals] at hread
  split at hread
  · simp at hread
  · rename_i hlimit
    cases ending with
    | complete last later =>
        obtain ⟨hreplay, hpayload⟩ := readToken_read hread
        exact ⟨_, later, hreplay, Nat.not_lt.mp hlimit, hpayload⟩
    | broken later => simp [Ending.answer] at hread
    | silent => simp [Ending.answer] at hread

/-- The gate and the route read the same body: what the gate takes for a token of the
request's own, the route does not replace by the cookie. -/
theorem refreshAuthority_supplied {scope : Scope} {body : List UInt8} {later : List Message}
    {payload : Json} (hloads : loads body = .value payload)
    (hsupplies : suppliesToken payload = true) :
    scope.refreshAuthority loads (.request body false :: later) ≠ some .cookie := by
  have hinput : scope.refreshInput loads body ≠ some none := by
    unfold suppliesToken at hsupplies
    split at hsupplies
    · rename_i members
      split at hsupplies
      · rename_i token hlookup
        unfold Scope.refreshInput
        rw [hloads]
        simp only [hlookup]
        split <;> [split <;> [simp; split <;> simp]; simp]
      · simp at hsupplies
    · simp at hsupplies
  unfold Scope.refreshAuthority
  intro hcookie
  simp only at hcookie
  split at hcookie
  · simp at hcookie
  · rename_i hnone
    exact hinput hnone
  · simp at hcookie

/-- The header of a request repeats its CSRF cookie. -/
def Scope.Repeats (scope : Scope) : Prop :=
  scope.csrfHeader.isSome ∧ scope.cookies .csrf = scope.csrfHeader

theorem compared_forwards {scope : Scope} {arrived stream : List Message}
    (hcompared : scope.compared arrived = .forwards stream) :
    stream = arrived ∧ scope.Repeats := by
  unfold Scope.compared at hcompared
  split at hcompared
  · rename_i hmatch
    obtain ⟨hequal, hsome⟩ := csrfMatches_true hmatch
    exact ⟨(Verdict.forwards.inj hcompared).symm, hequal ▸ hsome, hequal⟩
  · simp at hcompared
  · simp at hcompared

theorem changesState_of_route {scope : Scope} {route : Route}
    (hroute : scope.route? = some route) : scope.changesState = true := by
  obtain ⟨hregular, hmethod, -⟩ := Scope.route?_spec hroute
  simp only [Route.regular, Bool.and_eq_true] at hregular
  unfold Scope.changesState
  rw [← hmethod]
  exact hregular.1.1.1

/-- A path has one ending. -/
theorem not_skipsCsrf_of_refresh {scope : Scope}
    (hrefresh : scope.endsWith "/auth/refresh" = true) : scope.skipsCsrf = false := by
  obtain ⟨before, hbefore⟩ :=
    segments_of_endsWith "auth" "refresh" hrefresh rfl rfl
  have hother (last : String) (hlast : segments last.toList = [last.toList])
      (hne : "refresh".toList ≠ last.toList) :
      scope.endsWith ("/" ++ "auth" ++ "/" ++ last) = false := by
    rw [Bool.eq_false_iff]
    intro hends
    obtain ⟨before', hbefore'⟩ := segments_of_endsWith "auth" last hends rfl hlast
    have hlasts := congrArg List.getLast? (hbefore.symm.trans hbefore')
    simp only [List.getLast?_append, List.getLast?_cons_cons, List.getLast?_singleton,
      Option.some_or, Option.some.injEq] at hlasts
    exact hne hlasts
  have hlogin : scope.endsWith "/auth/login" = false :=
    hother "login" rfl (by decide)
  have hregister : scope.endsWith "/auth/register" = false :=
    hother "register" rfl (by decide)
  rw [Scope.skipsCsrf, hlogin, hregister]
  rfl

theorem path_of_refresh {scope : Scope} {route : Route}
    (hroute : scope.route? = some route) (hidentity : route.identity = .refreshToken) :
    scope.path = "/api/v1/auth/refresh".toList := by
  obtain ⟨hregular, -, haccepts⟩ := Scope.route?_spec hroute
  simp only [Route.regular, Bool.and_eq_true, Bool.or_eq_true, decide_eq_true_eq, hidentity,
    reduceCtorEq, false_and, or_false, false_or, true_and] at hregular
  obtain ⟨-, rfl | ⟨-, hpath⟩⟩ := hregular
  · simp [pricingRoute] at hidentity
  · have hpattern : route.pattern =
        (segments "/api/v1/auth/refresh".toList).map .literal := by
      rw [Route.pattern, hpath]
      rfl
    rw [hpattern] at haccepts
    rw [← intercalate_segments scope.path, accepts_literals haccepts]
    rfl

theorem endsWith_refresh_of_route {scope : Scope} {route : Route}
    (hroute : scope.route? = some route) (hidentity : route.identity = .refreshToken) :
    scope.endsWith "/auth/refresh" = true := by
  rw [Scope.endsWith, path_of_refresh hroute hidentity]
  rfl

/-- A request that passes the comparison repeats its cookie. -/
theorem repeats_of_gate {scope : Scope} {arrived stream : List Message} {route : Route}
    (hroute : scope.route? = some route) (hgate : scope.gate loads arrived = .forwards stream)
    (hcookies : scope.cookieAuthenticated = true) (hskips : scope.skipsCsrf = false)
    (hrefresh : scope.endsWith "/auth/refresh" = false) : scope.Repeats := by
  unfold Scope.gate at hgate
  simp only [Scope.ofApi_of_route hroute, changesState_of_route hroute, hcookies, hskips,
    hrefresh, Bool.not_false, Bool.and_true, ↓reduceIte, Bool.false_eq_true] at hgate
  exact (compared_forwards hgate).2

/-- A refresh that passes the gate repeats its cookie or brings its own token. -/
theorem repeats_of_refresh {scope : Scope} {arrived stream : List Message} {route : Route}
    (hroute : scope.route? = some route) (hgate : scope.gate loads arrived = .forwards stream)
    (hcookies : scope.cookieAuthenticated = true)
    (hrefresh : scope.endsWith "/auth/refresh" = true) :
    ∃ body later, stream = .request body false :: later ∧
      body.length ≤ refreshBodyMaxBytes ∧
      (scope.Repeats ∨ ∃ payload, loads body = .value payload ∧ suppliesToken payload = true) := by
  unfold Scope.gate at hgate
  simp only [Scope.ofApi_of_route hroute, changesState_of_route hroute, hcookies, hrefresh,
    not_skipsCsrf_of_refresh hrefresh, Bool.not_false, Bool.and_true, ↓reduceIte] at hgate
  split at hgate
  · rename_i supplied replay hread
    obtain ⟨body, later, rfl, hlimit, hpayload⟩ := explicitRefreshToken_read hread
    cases supplied with
    | true =>
        refine ⟨body, later, ?_, hlimit, .inr (hpayload rfl)⟩
        exact (Verdict.forwards.inj hgate).symm
    | false =>
        obtain ⟨hstream, hrepeats⟩ := compared_forwards hgate
        exact ⟨body, later, hstream, hlimit, .inl hrepeats⟩
  all_goals simp at hgate

theorem refresh_of_refreshAuthority {scope : Scope} {stream : List Message}
    (hauthority : scope.refreshAuthority loads stream = some .cookie) :
    (scope.cookies .refresh).isSome = true := by
  unfold Scope.refreshAuthority at hauthority
  split at hauthority
  · split at hauthority
    · simp at hauthority
    · split at hauthority
      · rename_i hany
        cases hcookie : scope.cookies .refresh with
        | none => simp [hcookie] at hany
        | some token => rfl
      · simp at hauthority
    · simp at hauthority
  · simp at hauthority

theorem cookieAuthenticated_of_user {scope : Scope}
    (hauthority : scope.userAuthority = some .cookie) : scope.cookieAuthenticated = true := by
  unfold Scope.userAuthority at hauthority
  split at hauthority
  · simp at hauthority
  · rename_i hheader
    split at hauthority
    · rename_i haccess
      simp [Scope.cookieAuthenticated, haccess, Option.isNone_iff_eq_none.mpr
        (Option.not_isSome_iff_eq_none.mp hheader)]
    · simp at hauthority

theorem passage_forwards {scope : Scope} {arrived stream : List Message}
    (hpasses : scope.passage loads arrived = .forwards stream) :
    ∃ passed, scope.gate loads arrived = .forwards passed ∧
      scope.boundary passed = .forwards stream := by
  unfold Scope.passage at hpasses
  split at hpasses
  · rename_i passed hpassed
    exact ⟨passed, hpassed, hpasses⟩
  · rename_i hblocked
    exact absurd hpasses (hblocked stream)

/-- What a route does on the word of the cookies alone, it does for a request that repeats
the CSRF cookie.  Two requests are left out: a new price for a model whose identifier ends
like the path of the three routes with a rule of their own, and a refresh with an
`Authorization` header, which the gate takes for its identity and the route does not read. -/
theorem served_by_cookie {scope : Scope} {arrived : List Message}
    (hserved : scope.served loads arrived = some .cookie) :
    scope.Repeats ∨
      (scope.route? = some pricingRoute ∧
        (scope.skipsCsrf = true ∨ scope.endsWith "/auth/refresh" = true)) ∨
      (scope.endsWith "/auth/refresh" = true ∧ scope.authorization.isSome) := by
  unfold Scope.served at hserved
  split at hserved
  · rename_i stream hpasses
    unfold Scope.authority at hserved
    obtain ⟨route, hroute, hauthority⟩ := Option.bind_eq_some_iff.mp hserved
    obtain ⟨passed, hgate, hboundary⟩ := passage_forwards hpasses
    cases hidentity : route.identity with
    | credentials => simp [hidentity] at hauthority
    | refreshToken =>
        simp only [hidentity] at hauthority
        have hends := endsWith_refresh_of_route hroute hidentity
        cases hheader : scope.authorization.isSome with
        | true => exact .inr (.inr ⟨hends, rfl⟩)
        | false =>
            have hcookies : scope.cookieAuthenticated = true := by
              simp [Scope.cookieAuthenticated, Option.isSome_eq_false_iff.mp hheader,
                refresh_of_refreshAuthority hauthority]
            obtain ⟨body, later, rfl, hlimit, hrepeats | ⟨payload, hloads, hsupplies⟩⟩ :=
              repeats_of_refresh hroute hgate hcookies hends
            · exact .inl hrepeats
            · rw [boundary_replay scope hlimit] at hboundary
              rw [← Verdict.forwards.inj hboundary] at hauthority
              exact absurd hauthority (refreshAuthority_supplied hloads hsupplies)
    | currentUser =>
        simp only [hidentity] at hauthority
        have hcookies := cookieAuthenticated_of_user hauthority
        have hpricing (hspecial : route = pricingRoute ∨ route.identity = .credentials ∨
            route.identity = .refreshToken) : scope.route? = some pricingRoute := by
          rcases hspecial with rfl | hother | hother
          · exact hroute
          all_goals simp [hidentity] at hother
        cases hrefresh : scope.endsWith "/auth/refresh" with
        | true =>
            have hspecial := endsWith_of_route hroute "refresh" hrefresh rfl
              (by simp [specialEndings])
            exact .inr (.inl ⟨hpricing hspecial, .inr rfl⟩)
        | false =>
            cases hskips : scope.skipsCsrf with
            | false => exact .inl (repeats_of_gate hroute hgate hcookies hskips hrefresh)
            | true =>
                refine .inr (.inl ⟨hpricing ?_, .inl rfl⟩)
                rcases Bool.or_eq_true_iff.mp hskips with hlogin | hregister
                · exact endsWith_of_route hroute "login" hlogin rfl
                    (by simp [specialEndings])
                · exact endsWith_of_route hroute "register" hregister rfl
                    (by simp [specialEndings])
  · simp at hserved

/-! ### The pieces of a body -/

/-- The ending with all bytes before it. -/
def Ending.bare : Ending → Ending
  | .complete _ later => .complete [] later
  | .broken later => .broken later
  | .silent => .silent

/-- What the boundary makes of the bytes that have come. -/
def Ending.bounded (bytes : List UInt8) : Ending → Verdict
  | .complete _ later => .forwards (.request bytes false :: later)
  | .broken _ => .drops
  | .silent => .waits

@[simp]
theorem Ending.bytes_bare (ending : Ending) : ending.bare.bytes = [] := by
  cases ending <;> rfl

@[simp]
theorem Ending.answer_bare (ending : Ending) (bytes : List UInt8) :
    ending.bare.answer loads bytes = ending.answer loads bytes := by
  cases ending <;> rfl

@[simp]
theorem Ending.bounded_bare (ending : Ending) (bytes : List UInt8) :
    ending.bare.bounded bytes = ending.bounded bytes := by
  cases ending <;> rfl

theorem boundBody_arrivals (pieces : List (List UInt8)) (ending : Ending) {body : List UInt8}
    (hbody : body.length ≤ refreshBodyMaxBytes) :
    Scope.boundBody body (arrivals pieces ending) =
      if refreshBodyMaxBytes < (body ++ (pieces.flatten ++ ending.bytes)).length then .answers 413
      else ending.bounded (body ++ (pieces.flatten ++ ending.bytes)) := by
  induction pieces generalizing body with
  | nil =>
      cases ending with
      | complete last later =>
          simp [arrivals, Ending.messages, Ending.bytes, Ending.bounded, Scope.boundBody]
      | broken later =>
          simp [arrivals, Ending.messages, Ending.bytes, Ending.bounded, Scope.boundBody, hbody]
      | silent =>
          simp [arrivals, Ending.messages, Ending.bytes, Ending.bounded, Scope.boundBody, hbody]
  | cons piece pieces ih =>
      have hfirst : arrivals (piece :: pieces) ending =
          .request piece true :: arrivals pieces ending := rfl
      have hbytes : body ++ ((piece :: pieces).flatten ++ ending.bytes) =
          body ++ piece ++ (pieces.flatten ++ ending.bytes) := by
        simp [List.append_assoc]
      rw [hfirst, Scope.boundBody, hbytes]
      by_cases hover : refreshBodyMaxBytes < (body ++ piece).length
      · rw [if_pos hover, if_pos]
        rw [List.length_append]
        exact Nat.lt_add_right _ hover
      · rw [if_neg hover]
        simp only [↓reduceIte, ih (Nat.not_lt.mp hover)]

def refreshRoute : Route := ⟨"POST", "/auth/refresh", .refreshToken⟩

/-- The gate compares, unless it reads a token of the request's own. -/
theorem gate_refresh {scope : Scope} (hroute : scope.route? = some refreshRoute)
    (arrived : List Message) :
    scope.gate loads arrived =
      if scope.cookieAuthenticated then
        match explicitRefreshToken loads arrived with
        | .read supplied replay => if supplied then .forwards replay else scope.compared replay
        | .tooLarge => .answers 413
        | .disconnected => .drops
        | .timedOut => .answers 408
        | .raised => .raises
      else .forwards arrived := by
  have hrefresh := endsWith_refresh_of_route hroute rfl
  unfold Scope.gate
  simp only [Scope.ofApi_of_route hroute, changesState_of_route hroute, hrefresh,
    not_skipsCsrf_of_refresh hrefresh, Bool.not_false, Bool.and_true, Bool.true_and, ↓reduceIte]

theorem boundary_refresh {scope : Scope} (hroute : scope.route? = some refreshRoute)
    (arrived : List Message) : scope.boundary arrived = Scope.boundBody [] arrived := by
  have hmethod : "POST" = scope.method := (Scope.route?_spec hroute).2.1
  have hsensitive : scope.hasSensitiveInput = true := by
    rw [Scope.hasSensitiveInput, path_of_refresh hroute rfl]
    rfl
  rw [Scope.boundary, Scope.ofApi_of_route hroute, hsensitive, ← hmethod]
  rfl

/-- What passes the gate of a refresh is what has come, or one message with all its bytes. -/
theorem gate_refresh_forwards {scope : Scope} (hroute : scope.route? = some refreshRoute)
    {pieces : List (List UInt8)} {ending : Ending} {passed : List Message}
    (hgate : scope.gate loads (arrivals pieces ending) = .forwards passed) :
    passed = arrivals pieces ending ∨
      (pieces.flatten ++ ending.bytes).length ≤ refreshBodyMaxBytes ∧
        ∃ later, passed = .request (pieces.flatten ++ ending.bytes) false :: later := by
  rw [gate_refresh hroute] at hgate
  split at hgate
  · split at hgate
    · rename_i supplied replay hread
      rw [explicitRefreshToken_arrivals] at hread
      split at hread
      · cases hread
      · rename_i hlimit
        have hpassed : passed = replay := by
          cases supplied with
          | true => exact (Verdict.forwards.inj hgate).symm
          | false => exact (compared_forwards hgate).1
        cases ending with
        | complete last later =>
            exact .inr ⟨Nat.not_lt.mp hlimit, later, hpassed.trans (readToken_read hread).1⟩
        | broken later => cases hread
        | silent => cases hread
    all_goals cases hgate
  · exact .inl (Verdict.forwards.inj hgate).symm

/-- A refresh is read by its bytes: however a server cuts the body, the two middlewares decide
alike, and what they let pass is one message with these bytes, which are under the limit. -/
theorem refresh_read_by_bytes (loads : List UInt8 → Loaded) {scope : Scope}
    (hroute : scope.route? = some refreshRoute) (pieces : List (List UInt8)) (ending : Ending) :
    scope.passage loads (arrivals pieces ending) =
        scope.passage loads (arrivals [pieces.flatten ++ ending.bytes] ending.bare) ∧
      ∀ stream, scope.passage loads (arrivals pieces ending) = .forwards stream →
        (pieces.flatten ++ ending.bytes).length ≤ refreshBodyMaxBytes ∧
          ∃ later, stream = .request (pieces.flatten ++ ending.bytes) false :: later := by
  have hflat : [pieces.flatten ++ ending.bytes].flatten ++ ending.bare.bytes =
      pieces.flatten ++ ending.bytes := by simp
  have hread : explicitRefreshToken loads (arrivals pieces ending) =
      explicitRefreshToken loads (arrivals [pieces.flatten ++ ending.bytes] ending.bare) := by
    rw [explicitRefreshToken_arrivals, explicitRefreshToken_arrivals, hflat, Ending.answer_bare]
  have hbound : scope.boundary (arrivals pieces ending) =
      scope.boundary (arrivals [pieces.flatten ++ ending.bytes] ending.bare) := by
    rw [boundary_refresh hroute, boundary_refresh hroute,
      boundBody_arrivals _ _ (Nat.zero_le _), boundBody_arrivals _ _ (Nat.zero_le _), hflat,
      Ending.bounded_bare]
  constructor
  · unfold Scope.passage
    rw [gate_refresh hroute, gate_refresh hroute, ← hread]
    cases scope.cookieAuthenticated with
    | true => simp only [↓reduceIte]
    | false => simpa only [Bool.false_eq_true, ↓reduceIte] using hbound
  · intro stream hpasses
    obtain ⟨passed, hgate, hboundary⟩ := passage_forwards hpasses
    rcases gate_refresh_forwards hroute hgate with rfl | ⟨hlimit, later, rfl⟩
    · rw [boundary_refresh hroute, boundBody_arrivals _ _ (Nat.zero_le _)] at hboundary
      split at hboundary
      · cases hboundary
      · rename_i hlimit
        refine ⟨Nat.not_lt.mp hlimit, ?_⟩
        cases ending with
        | complete last later => exact ⟨later, (Verdict.forwards.inj hboundary).symm⟩
        | broken later => cases hboundary
        | silent => cases hboundary
    · rw [boundary_replay scope hlimit] at hboundary
      exact ⟨hlimit, later, (Verdict.forwards.inj hboundary).symm⟩

def noJson : List UInt8 → Loaded := fun _ => .malformed

/-- A refresh on the word of a cookie. -/
def cookieRefresh : Scope where
  method := "POST"
  path := "/api/v1/auth/refresh".toList
  authorization := none
  cookies := fun cookie => if cookie = .refresh then some ['r'] else some ['t']
  csrfHeader := some ['t']
  secure := true
  jsonBody := true

theorem route_cookieRefresh : cookieRefresh.route? = some refreshRoute := by
  rfl

theorem refresh_read_by_bytes_cut :
    cookieRefresh.passage noJson (arrivals [[123], []] (.complete [125] [])) =
        cookieRefresh.passage noJson (arrivals [[123, 125]] (.complete [] [])) ∧
      ∀ stream, cookieRefresh.passage noJson (arrivals [[123], []] (.complete [125] [])) =
          .forwards stream →
        [123, 125].length ≤ refreshBodyMaxBytes ∧
          ∃ later, stream = .request [123, 125] false :: later :=
  refresh_read_by_bytes noJson route_cookieRefresh [[123], []] (.complete [125] [])

end AlgorithmHarness.Csrf
