import AlgorithmHarness.Core.Table
import AlgorithmHarness.Core.Transition
import Mathlib.Logic.Function.Basic

/-!
# Logins, refresh tokens and sessions

`AuthService` over `AuthStore`.  The row of a session holds the digest of its
refresh token.  Requests run side by side; each statement of the store is a
transaction of its own.
-/

namespace AlgorithmHarness.Auth

open Table

inductive TokenKind
  | access
  | refresh
  deriving DecidableEq

/-- What a token says; the issuer and the audience are the same in all of them. -/
structure Claims (Id : Type*) where
  sub : Id
  sid : Id
  kind : TokenKind
  exp : ℕ
  iat : ℕ
  nbf : ℕ
  jti : Id
  deriving DecidableEq

/-- The signed tokens under the key of the service, SHA-256 and Argon2.  `Id`
is the type of UUIDs; a token that says three of them has a few hundred
characters, so the bound on the length is part of `verify`. -/
structure Primitives (Id Token Digest : Type*) where
  encode : Claims Id → Token
  verify : Token → Option (Claims Id)
  digest : Token → Digest
  verifyPassword : String → String → Bool
  casefold : String → String
  verify_encode : ∀ claims, verify (encode claims) = some claims
  digest_injective : Function.Injective digest

structure AuthSettings where
  refreshTokenExpireDays : ℕ
  accessTokenExpireMinutes : ℕ

structure User (Id : Type*) where
  id : Id
  username : String
  email : String
  passwordHash : String

structure Session (Id Digest : Type*) where
  id : Id
  userId : Id
  refreshHash : Digest
  expiresAt : ℕ
  revoked : Bool

structure Tokens (Token : Type*) where
  accessToken : Token
  refreshToken : Token
  expiresIn : ℕ

variable {Id Token Digest Request : Type*} [DecidableEq Id] [DecidableEq Digest]
  [DecidableEq Request]

/-! ## The store -/

def Session.live (now : ℕ) (session : Session Id Digest) : Bool :=
  !session.revoked && now < session.expiresAt

/-- The row of `AuthStore.session`. -/
def findSession (now : ℕ) (sid userId : Id) (sessions : List (Session Id Digest)) :
    Option (Session Id Digest) :=
  sessions.find? fun session => session.id = sid && session.userId = userId && session.live now

def addSession (now : ℕ) (session : Session Id Digest) (sessions : List (Session Id Digest)) :
    List (Session Id Digest) :=
  sessions.filter (fun session => now < session.expiresAt) ++ [session]

/-- The rows `AuthStore.rotate` selects. -/
def rotates (now : ℕ) (sid userId : Id) (old : Digest) (session : Session Id Digest) : Bool :=
  session.id = sid && session.userId = userId && session.refreshHash = old && session.live now

/-- The table after `UPDATE` and whether one row was changed. -/
def rotate (now : ℕ) (sid userId : Id) (old new : Digest) (sessions : List (Session Id Digest)) :
    List (Session Id Digest) × Bool :=
  (updateWhere (rotates now sid userId old) (fun session => { session with refreshHash := new })
      sessions,
    (sessions.filter (rotates now sid userId old)).length = 1)

def revoke (sid userId : Id) (sessions : List (Session Id Digest)) : List (Session Id Digest) :=
  updateWhere (fun session => session.id = sid && session.userId = userId)
    (fun session => { session with revoked := true }) sessions

def findUser (primitives : Primitives Id Token Digest) (identity : String)
    (users : List (User Id)) : Option (User Id) :=
  users.find? fun user =>
    user.username = primitives.casefold identity || user.email = primitives.casefold identity

def updatePassword (userId : Id) (passwordHash : String) (users : List (User Id)) :
    List (User Id) :=
  updateWhere (fun user => user.id = userId) (fun user => { user with passwordHash }) users

/-! ## The service -/

/-- `_tokens` with two new UUIDs. -/
def issueTokens (primitives : Primitives Id Token Digest) (settings : AuthSettings) (now : ℕ)
    (userId sid accessJti refreshJti : Id) (sessionExpires : ℕ) : Tokens Token :=
  let accessExpires := min (now + settings.accessTokenExpireMinutes * 60) sessionExpires
  { accessToken := primitives.encode
      { sub := userId, sid := sid, kind := .access, exp := accessExpires, iat := now, nbf := now,
        jti := accessJti }
    refreshToken := primitives.encode
      { sub := userId, sid := sid, kind := .refresh, exp := sessionExpires, iat := now, nbf := now,
        jti := refreshJti }
    expiresIn := accessExpires - now }

def decode (primitives : Primitives Id Token Digest) (now : ℕ) (token : Token)
    (kind : TokenKind) : Option (Claims Id) :=
  (primitives.verify token).filter fun claims =>
    now < claims.exp && claims.iat ≤ now && claims.nbf ≤ now && claims.kind = kind

/-- How far the handler of a request has come. -/
inductive Phase (Id Token Digest : Type*)
  | waiting
  | passwordMatched (userId : Id)
  | opening (userId sid : Id) (tokens : Tokens Token) (expires : ℕ)
  | loggedIn (tokens : Tokens Token)
  | decoded (token : Token) (claims : Claims Id)
  | found (token : Token) (claims : Claims Id) (session : Session Id Digest)
  | rotating (token : Token) (claims : Claims Id) (tokens : Tokens Token)
  | refreshed (token : Token) (tokens : Tokens Token)
  | authenticated (userId sid : Id)
  | changingPassword (userId : Id)
  | answered

/-- The clock, the tables, the UUIDs drawn so far and the requests. -/
structure System (Id Token Digest Request : Type*) where
  now : ℕ
  users : List (User Id)
  sessions : List (Session Id Digest)
  drawn : List Id
  phase : Request → Phase Id Token Digest

inductive AuthStep (Id Token Request : Type*)
  | elapse (seconds : ℕ)
  | register (id : Id) (username email passwordHash : String)
  | login (request : Request) (identity password : String)
  | issueLogin (request : Request) (sid accessJti refreshJti : Id)
  | addSession (request : Request)
  | present (request : Request) (token : Token)
  | readSession (request : Request)
  | issueRefresh (request : Request) (accessJti refreshJti : Id)
  | rotate (request : Request)
  | authenticate (request : Request) (token : Token)
  | logout (request : Request)
  | checkPassword (request : Request) (password : String)
  | updatePassword (request : Request) (passwordHash : String)

namespace System

variable (primitives : Primitives Id Token Digest) (settings : AuthSettings)

def enter (state : System Id Token Digest Request) (request : Request)
    (phase : Phase Id Token Digest) : System Id Token Digest Request :=
  { state with phase := Function.update state.phase request phase }

/-- UUIDs that have not been drawn before. -/
def draw (state : System Id Token Digest Request) (ids : List Id) :
    Option (System Id Token Digest Request) :=
  if ids.Nodup ∧ ∀ id ∈ ids, id ∉ state.drawn then some { state with drawn := ids ++ state.drawn }
  else none

def knows (state : System Id Token Digest Request) (userId : Id) : Bool :=
  state.users.any fun user => user.id = userId

def step (state : System Id Token Digest Request) :
    AuthStep Id Token Request → Option (System Id Token Digest Request)
  | .elapse seconds => some { state with now := state.now + seconds }
  | .register id username email passwordHash =>
      (state.draw [id]).map fun drawn =>
        -- a name or an address that is taken is an integrity error
        if state.users.any fun user => user.username = primitives.casefold username ||
            user.email = primitives.casefold email then drawn
        else
          let user : User Id :=
            { id := id, username := primitives.casefold username,
              email := primitives.casefold email, passwordHash := passwordHash }
          { drawn with users := state.users ++ [user] }
  | .login request identity password =>
      match state.phase request with
      | .waiting =>
          match findUser primitives identity state.users with
          | none => some (state.enter request .answered)
          | some user =>
              if primitives.verifyPassword user.passwordHash password then
                some (state.enter request (.passwordMatched user.id))
              else some (state.enter request .answered)
      | _ => none
  | .issueLogin request sid accessJti refreshJti =>
      match state.phase request with
      | .passwordMatched userId =>
          (state.draw [sid, accessJti, refreshJti]).map fun drawn =>
            let expires := state.now + settings.refreshTokenExpireDays * 86400
            drawn.enter request (.opening userId sid
              (issueTokens primitives settings state.now userId sid accessJti refreshJti expires)
              expires)
      | _ => none
  | .addSession request =>
      match state.phase request with
      | .opening userId sid tokens expires =>
          some { state.enter request (.loggedIn tokens) with
            sessions := Auth.addSession state.now
              { id := sid, userId := userId, refreshHash := primitives.digest tokens.refreshToken,
                expiresAt := expires, revoked := false }
              state.sessions }
      | _ => none
  | .present request token =>
      match state.phase request with
      | .waiting =>
          match decode primitives state.now token .refresh with
          | none => some (state.enter request .answered)
          | some claims => some (state.enter request (.decoded token claims))
      | _ => none
  | .readSession request =>
      match state.phase request with
      | .decoded token claims =>
          match findSession state.now claims.sid claims.sub state.sessions with
          | none => some (state.enter request .answered)
          | some session => some (state.enter request (.found token claims session))
      | _ => none
  | .issueRefresh request accessJti refreshJti =>
      match state.phase request with
      | .found token claims session =>
          if state.knows claims.sub then
            (state.draw [accessJti, refreshJti]).map fun drawn =>
              drawn.enter request (.rotating token claims
                (issueTokens primitives settings state.now claims.sub claims.sid accessJti
                  refreshJti session.expiresAt))
          else some (state.enter request .answered)
      | _ => none
  | .rotate request =>
      match state.phase request with
      | .rotating token claims tokens =>
          let (sessions, changed) := Auth.rotate state.now claims.sid claims.sub
            (primitives.digest token) (primitives.digest tokens.refreshToken) state.sessions
          some { state.enter request (if changed then .refreshed token tokens else .answered) with
            sessions }
      | _ => none
  | .authenticate request token =>
      match state.phase request with
      | .waiting =>
          match decode primitives state.now token .access with
          | none => some (state.enter request .answered)
          | some claims =>
              if (findSession state.now claims.sid claims.sub state.sessions).isSome &&
                  state.knows claims.sub then
                some (state.enter request (.authenticated claims.sub claims.sid))
              else some (state.enter request .answered)
      | _ => none
  | .logout request =>
      match state.phase request with
      | .authenticated userId sid =>
          some { state.enter request .answered with sessions := revoke sid userId state.sessions }
      | _ => none
  | .checkPassword request password =>
      match state.phase request with
      | .authenticated userId _ =>
          match state.users.find? fun user => user.id = userId with
          | none => some (state.enter request .answered)
          | some user =>
              if primitives.verifyPassword user.passwordHash password then
                some (state.enter request (.changingPassword userId))
              else some (state.enter request .answered)
      | _ => none
  | .updatePassword request passwordHash =>
      match state.phase request with
      | .changingPassword userId =>
          some { state.enter request .answered with
            users := Auth.updatePassword userId passwordHash state.users }
      | _ => none

/-- The database as it is created. -/
def initial (now : ℕ) : System Id Token Digest Request where
  now
  users := []
  sessions := []
  drawn := []
  phase := fun _ => .waiting

/-- Whether a refresh with the token would succeed if it had the store to itself. -/
def accepts (state : System Id Token Digest Request) (token : Token) : Bool :=
  match decode primitives state.now token .refresh with
  | none => false
  | some claims =>
      (findSession state.now claims.sid claims.sub state.sessions).isSome &&
        state.knows claims.sub &&
        (state.sessions.filter
          (rotates state.now claims.sid claims.sub (primitives.digest token))).length = 1

end System

end AlgorithmHarness.Auth
