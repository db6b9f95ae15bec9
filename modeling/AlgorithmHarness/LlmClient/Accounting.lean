import Mathlib.Algebra.Order.Ring.Rat
import Mathlib.Data.List.Count
import Mathlib.Data.List.Range

/-!
# The accounting of one call

`LLMClient.generate` and `_call_with_retry`: attempts at a provider, retries
with a growing delay, and what `on_response` is told.  What the provider, the
admission control, the cache, the clock and the callbacks come to is given by
the surroundings of the call; telemetry, which never raises, is left out.
-/

namespace AlgorithmHarness.LlmClient

/-! ## Errors of a provider -/

/-- An exception by what `_is_retryable_error` reads. -/
structure ProviderError where
  /-- `_status_code` -/
  status : Option ℤ
  className : String

def retryableNames : List String := ["ratelimit", "timeout", "connection", "internalserver"]

/-- `_is_retryable_error` -/
def ProviderError.retryable (error : ProviderError) : Bool :=
  let byName := retryableNames.any fun token =>
    (error.className.toList.map Char.toLower).tails.any token.toList.isPrefixOf
  match error.status with
  | none => byName
  | some status =>
      if status = 401 || status = 403 || (400 ≤ status && status < 500 && status ≠ 429) then false
      else if status = 429 || 500 ≤ status then true
      else byName

/-! ## Configurations and surroundings -/

/-- The fields of `LLMConfig` that a call reads, with their bounds. -/
structure LLMConfig where
  provider : String
  retryMaxAttempts : ℕ
  retryBackoffSeconds : ℚ
  retryMaxElapsedSeconds : ℚ
  cacheEnabled : Bool
  attempts_pos : 1 ≤ retryMaxAttempts
  attempts_le : retryMaxAttempts ≤ 5
  backoff_nonneg : 0 ≤ retryBackoffSeconds
  backoff_le : retryBackoffSeconds ≤ 60
  elapsed_nonneg : 0 ≤ retryMaxElapsedSeconds
  elapsed_le : retryMaxElapsedSeconds ≤ 600

def supportedProviders : List String := ["openai", "local", "siliconflow", "deepseek", "anthropic"]

/-- One call of `on_response`; identifiers are numbered as they are drawn. -/
structure Event (Response : Type*) where
  id : ℕ
  response : Option Response
  cached : Bool

/-- What an attempt at the provider comes to. -/
inductive Attempt (Raw : Type*)
  | answered (raw : Raw)
  | failed (error : ProviderError)

/-- All that a call asks for; attempts are numbered from 0. -/
structure Surroundings (Raw Response : Type*) where
  /-- `before_generate` and the client behind it raise nothing. -/
  ready : Bool
  /-- The lookup in the cache; `none` if it raises. -/
  lookup : Option (Option Response)
  /-- `_reserve_api_attempt` lets an attempt go on. -/
  admitted : ℕ → Bool
  attempt : ℕ → Attempt Raw
  /-- The time behind an attempt, without admission and telemetry. -/
  elapsed : ℕ → ℚ
  /-- The response read from what a provider sends; `none` if that raises. -/
  read : Raw → Option Response
  /-- There is a callback. -/
  observed : Bool
  /-- The callback raises behind these events. -/
  raises : List (Event Response) → Bool
  /-- Storing a response in the cache raises nothing. -/
  stored : Bool

/-! ## Calls -/

/-- How a call ends. -/
inductive Ending (Response : Type*)
  | returned (response : Response)
  /-- An `LLMAdmissionError`. -/
  | refused
  /-- An `LLMAccountingError`. -/
  | unaccounted
  /-- Any other exception. -/
  | failed

/-- The events of a call, its attempts and its end. -/
structure Run (Response Result : Type*) where
  events : List (Event Response)
  attempts : ℕ
  ending : Ending Result

section Generate

variable {Raw Response : Type*} (config : LLMConfig) (around : Surroundings Raw Response)

/-- The events with one more, if someone listens. -/
def told (events : List (Event Response)) (event : Event Response) : List (Event Response) :=
  if around.observed then events ++ [event] else events

/-- The callback is there and raises at this event. -/
def breaks (events : List (Event Response)) (event : Event Response) : Bool :=
  around.observed && around.raises (told around events event)

/-- The event of an attempt that is retried. -/
def retriedEvent (attempt : ℕ) : Event Response :=
  { id := attempt + 1, response := none, cached := false }

/-- The loop of `_call_with_retry` with the attempts that remain. -/
def callWithRetry : ℕ → ℕ → List (Event Response) → Run Response Raw
  | 0, attempt, events => { events, attempts := attempt, ending := .failed }
  | remaining + 1, attempt, events =>
      if !around.admitted attempt then { events, attempts := attempt, ending := .refused }
      else
        match around.attempt attempt with
        | .answered raw => { events, attempts := attempt + 1, ending := .returned raw }
        | .failed error =>
            let delay := config.retryBackoffSeconds * 2 ^ attempt
            if !error.retryable || remaining = 0 then
              { events, attempts := attempt + 1, ending := .failed }
            else if config.retryMaxElapsedSeconds ≤ around.elapsed attempt + delay then
              { events, attempts := attempt + 1, ending := .failed }
            else
              -- The attempt may have consumed tokens, even if a later one succeeds.
              let event := retriedEvent attempt
              if breaks around events event then
                { events := told around events event, attempts := attempt + 1,
                  ending := .unaccounted }
              else callWithRetry remaining (attempt + 1) (told around events event)

/-- The event of the whole call. -/
def callEvent (response : Option Response) (cached : Bool) : Event Response :=
  { id := 0, response, cached }

/-- A failure is told under the identifier of the call. -/
def failure (events : List (Event Response)) (attempts : ℕ) : Run Response Response :=
  { events := told around events (callEvent none false), attempts, ending := .failed }

/-- What `generate` does with what the provider call came to. -/
def settle (run : Run Response Raw) : Run Response Response :=
  match run.ending with
  | .refused => { run with ending := .refused }
  | .unaccounted => { run with ending := .unaccounted }
  | .failed => failure around run.events run.attempts
  | .returned raw =>
      match around.read raw with
      | none => failure around run.events run.attempts
      | some response =>
          let event := callEvent (some response) false
          { events := told around run.events event
            attempts := run.attempts
            ending :=
              if breaks around run.events event then .failed
              else if config.cacheEnabled && !around.stored then .failed
              else .returned response }

/-- A response from the cache is told as such. -/
def fromCache (response : Response) : Run Response Response :=
  let event := callEvent (some response) true
  { events := told around [] event
    attempts := 0
    ending := if breaks around [] event then .failed else .returned response }

/-- `generate` -/
def generate : Run Response Response :=
  if !around.ready then { events := [], attempts := 0, ending := .failed }
  else
    let provided :=
      if config.provider ∈ supportedProviders then
        settle config around (callWithRetry config around config.retryMaxAttempts 0 [])
      else failure around [] 0
    if config.cacheEnabled then
      match around.lookup with
      | none => { events := [], attempts := 0, ending := .failed }
      | some (some response) => fromCache around response
      | some none => provided
    else provided

end Generate

/-! ## Events and attempts -/

section Accounting

variable {Raw Response : Type*} {config : LLMConfig} {around : Surroundings Raw Response}

/-- The response of an attempt, if there is one. -/
def responseOf (around : Surroundings Raw Response) (attempt : ℕ) : Option Response :=
  match around.attempt attempt with
  | .answered raw => around.read raw
  | .failed _ => none

/-- Someone listens, and that never raises. -/
structure Listens (around : Surroundings Raw Response) : Prop where
  observed : around.observed = true
  quiet : ∀ events, around.raises events = false

theorem Listens.told (hlistens : Listens around) (events : List (Event Response))
    (event : Event Response) : told around events event = events ++ [event] := by
  rw [LlmClient.told, if_pos hlistens.observed]

theorem Listens.breaks (hlistens : Listens around) (events : List (Event Response))
    (event : Event Response) : breaks around events event = false := by
  rw [LlmClient.breaks, hlistens.quiet, Bool.and_false]

/-- The events are those of the first attempts, one each. -/
def Accounts (around : Surroundings Raw Response) (events : List (Event Response))
    (attempts : ℕ) : Prop :=
  events.map Event.response = (List.range attempts).map (responseOf around)

theorem Accounts.concat {events : List (Event Response)} {attempts : ℕ}
    (haccounts : Accounts around events attempts) {event : Event Response}
    (hresponse : event.response = responseOf around attempts) :
    Accounts around (events ++ [event]) (attempts + 1) := by
  rw [Accounts, List.map_append, haccounts, List.range_succ, List.map_append, List.map_singleton,
    List.map_singleton, hresponse]

theorem Accounts.length {events : List (Event Response)} {attempts : ℕ}
    (haccounts : Accounts around events attempts) : events.length = attempts := by
  simpa only [List.length_map, List.length_range] using congrArg List.length haccounts

/-- The first attempts all failed. -/
def FailedBefore (around : Surroundings Raw Response) (attempts : ℕ) : Prop :=
  ∀ earlier < attempts, ∃ error, around.attempt earlier = .failed error

theorem FailedBefore.succ {attempts : ℕ} (hfailed : FailedBefore around attempts)
    {error : ProviderError} (hlast : around.attempt attempts = .failed error) :
    FailedBefore around (attempts + 1) := by
  intro earlier hearlier
  rcases Nat.lt_succ_iff_lt_or_eq.mp hearlier with hbefore | rfl
  · exact hfailed earlier hbefore
  · exact ⟨error, hlast⟩

theorem FailedBefore.responseOf_eq_none {attempts earlier : ℕ}
    (hfailed : FailedBefore around attempts) (hearlier : earlier < attempts) :
    responseOf around earlier = none := by
  obtain ⟨error, hattempt⟩ := hfailed earlier hearlier
  rw [responseOf, hattempt]

/-- The loop ends at a refusal, with every attempt told, or behind a last attempt of which
`generate` has yet to tell. -/
inductive Looped (config : LLMConfig) (around : Surroundings Raw Response) :
    Run Response Raw → Prop
  | refused {events : List (Event Response)} {attempts : ℕ}
      (haccounts : Accounts around events attempts) (hfailed : FailedBefore around attempts)
      (hbound : attempts < config.retryMaxAttempts)
      (hadmitted : 0 < attempts → around.admitted 0 = true) :
      Looped config around { events, attempts, ending := .refused }
  | failed {events : List (Event Response)} {last : ℕ} {error : ProviderError}
      (haccounts : Accounts around events last) (hfailed : FailedBefore around last)
      (hbound : last < config.retryMaxAttempts) (hadmitted : around.admitted 0 = true)
      (hlast : around.attempt last = .failed error) :
      Looped config around { events, attempts := last + 1, ending := .failed }
  | returned {events : List (Event Response)} {last : ℕ} {raw : Raw}
      (haccounts : Accounts around events last) (hfailed : FailedBefore around last)
      (hbound : last < config.retryMaxAttempts) (hadmitted : around.admitted 0 = true)
      (hlast : around.attempt last = .answered raw) :
      Looped config around { events, attempts := last + 1, ending := .returned raw }

theorem callWithRetry_looped (hlistens : Listens around) (remaining attempt : ℕ)
    {events : List (Event Response)} (haccounts : Accounts around events attempt)
    (hfailed : FailedBefore around attempt)
    (hadmitted : 0 < attempt → around.admitted 0 = true)
    (hremains : attempt + remaining = config.retryMaxAttempts) (hsome : 0 < remaining) :
    Looped config around (callWithRetry config around remaining attempt events) := by
  induction remaining generalizing attempt events with
  | zero => cases hsome
  | succ remaining ih =>
      have hbound : attempt < config.retryMaxAttempts := by omega
      rw [callWithRetry]
      cases hnow : around.admitted attempt with
      | false => exact .refused haccounts hfailed hbound hadmitted
      | true =>
          have hfirst : around.admitted 0 = true := by
            rcases Nat.eq_zero_or_pos attempt with rfl | hpos
            · exact hnow
            · exact hadmitted hpos
          rw [if_neg (by simp)]
          cases hattempt : around.attempt attempt with
          | answered raw => exact .returned haccounts hfailed hbound hfirst hattempt
          | failed error =>
              have hends := Looped.failed haccounts hfailed hbound hfirst hattempt
              dsimp only
              split_ifs with hfinal hlate hbroken
              · exact hends
              · exact hends
              · rw [hlistens.breaks] at hbroken
                cases hbroken
              · rw [hlistens.told]
                apply ih
                · apply haccounts.concat
                  rw [responseOf, hattempt]
                  rfl
                · exact hfailed.succ hattempt
                · exact fun _ => hfirst
                · omega
                · have hremaining : remaining ≠ 0 := by
                    intro hzero
                    exact hfinal (by simp [hzero])
                  exact Nat.pos_of_ne_zero hremaining

/-- How the events of a call account for its attempts. -/
structure Accounted (config : LLMConfig) (around : Surroundings Raw Response)
    (run : Run Response Response) : Prop where
  /-- One event per attempt, with the response of that attempt. -/
  events : Accounts around run.events run.attempts
  bounded : run.attempts ≤ config.retryMaxAttempts
  atMostOne : (run.events.filter fun event => event.response.isSome).length ≤ 1
  one : ∀ response, run.ending = .returned response →
    (run.events.filter fun event => event.response.isSome).length = 1
  refused : around.admitted 0 = false → run.events = [] ∧ run.attempts = 0

/-- Only the last of the attempts can carry a response. -/
theorem Accounts.responses {events : List (Event Response)} {last : ℕ}
    (haccounts : Accounts around events last) (hfailed : FailedBefore around last) :
    events.filter (fun event => event.response.isSome) = [] := by
  rw [List.filter_eq_nil_iff]
  intro event hevent
  have hresponse : event.response ∈ (List.range last).map (responseOf around) := by
    rw [← haccounts]
    exact List.mem_map_of_mem hevent
  obtain ⟨earlier, hearlier, hequal⟩ := List.mem_map.mp hresponse
  rw [← hequal, hfailed.responseOf_eq_none (List.mem_range.mp hearlier)]
  exact Bool.false_ne_true

/-- Telling of the last attempt accounts for the call. -/
theorem Accounts.accounted {events : List (Event Response)} {last : ℕ}
    (haccounts : Accounts around events last) (hfailed : FailedBefore around last)
    (hbound : last < config.retryMaxAttempts) (hadmitted : around.admitted 0 = true)
    {ending : Ending Response}
    (hending : ∀ response, ending = .returned response → (responseOf around last).isSome) :
    Accounted config around
      { events := events ++ [callEvent (responseOf around last) false]
        attempts := last + 1
        ending } := by
  have hfilter := haccounts.responses hfailed
  constructor
  · exact haccounts.concat rfl
  · exact hbound
  · rw [List.filter_append, hfilter, List.nil_append]
    exact List.length_filter_le _ _
  · intro response hreturned
    rw [List.filter_append, hfilter, List.nil_append, List.filter_cons_of_pos]
    · rfl
    · exact hending response hreturned
  · intro hrefused
    rw [hadmitted] at hrefused
    cases hrefused

theorem Looped.settle (hlistens : Listens around) {run : Run Response Raw}
    (hlooped : Looped config around run) : Accounted config around (settle config around run) := by
  cases hlooped with
  | @refused events attempts haccounts hfailed hbound hadmitted =>
      rw [LlmClient.settle]
      constructor
      · exact haccounts
      · exact hbound.le
      · rw [haccounts.responses hfailed]
        exact Nat.zero_le 1
      · intro response hreturned
        cases hreturned
      · intro hrefused
        have hnone : attempts = 0 := by
          by_contra hsome
          rw [hadmitted (Nat.pos_of_ne_zero hsome)] at hrefused
          cases hrefused
        exact ⟨List.length_eq_zero_iff.mp (haccounts.length.trans hnone), hnone⟩
  | @failed events last error haccounts hfailed hbound hadmitted hlast =>
      have hresponse : responseOf around last = none := by rw [responseOf, hlast]
      rw [LlmClient.settle, failure, hlistens.told, ← hresponse]
      apply haccounts.accounted hfailed hbound hadmitted
      intro response hreturned
      cases hreturned
  | @returned events last raw haccounts hfailed hbound hadmitted hlast =>
      have hresponse : responseOf around last = around.read raw := by rw [responseOf, hlast]
      rw [LlmClient.settle]
      dsimp only
      cases hread : around.read raw with
      | none =>
          have hnone := hresponse.trans hread
          dsimp only
          rw [failure, hlistens.told, ← hnone]
          apply haccounts.accounted hfailed hbound hadmitted
          intro response hreturned
          cases hreturned
      | some response =>
          have hsome := hresponse.trans hread
          dsimp only
          rw [hlistens.told, ← hsome]
          apply haccounts.accounted hfailed hbound hadmitted
          intro _ _
          rw [hsome]
          rfl

theorem callWithRetry_start (hlistens : Listens around) :
    Looped config around (callWithRetry config around config.retryMaxAttempts 0 []) := by
  apply callWithRetry_looped hlistens
  · rfl
  · exact fun earlier hearlier => absurd hearlier earlier.not_lt_zero
  · exact fun hpos => absurd hpos (lt_irrefl 0)
  · exact Nat.zero_add _
  · exact config.attempts_pos

/-- A call that ends before any attempt tells of nothing. -/
theorem accounted_silent :
    Accounted config around { events := [], attempts := 0, ending := .failed } where
  events := rfl
  bounded := Nat.zero_le _
  atMostOne := Nat.zero_le _
  one := by
    intro response hreturned
    cases hreturned
  refused := fun _ => ⟨rfl, rfl⟩

/-- A call that the cache does not answer is told of attempt by attempt. -/
theorem generate_accounted (hlistens : Listens around)
    (hprovider : config.provider ∈ supportedProviders)
    (huncached : ∀ response, ¬(config.cacheEnabled = true ∧
      around.lookup = some (some response))) :
    Accounted config around (generate config around) := by
  have hstart : Looped config around (callWithRetry config around config.retryMaxAttempts 0 []) :=
    callWithRetry_start hlistens
  have hprovided := hstart.settle hlistens
  rw [generate]
  split_ifs with hready hcache
  · exact accounted_silent
  · dsimp only
    cases hlookup : around.lookup with
    | none => exact accounted_silent
    | some found =>
        cases found with
        | none => exact hprovided
        | some response => exact (huncached response ⟨hcache, hlookup⟩).elim
  · exact hprovided

/-- A provider that is unavailable once and answers then. -/
def recovering : Surroundings String String where
  ready := true
  lookup := some none
  admitted _ := true
  attempt
    | 0 => .failed { status := some 503, className := "APIStatusError" }
    | _ => .answered "def solve(): ..."
  elapsed _ := 0
  read := some
  observed := true
  raises _ := false
  stored := true

def thriceConfig : LLMConfig where
  provider := "deepseek"
  retryMaxAttempts := 3
  retryBackoffSeconds := 1
  retryMaxElapsedSeconds := 60
  cacheEnabled := false
  attempts_pos := by decide
  attempts_le := by decide
  backoff_nonneg := by decide +kernel
  backoff_le := by decide +kernel
  elapsed_nonneg := by decide +kernel
  elapsed_le := by decide +kernel

theorem generate_accounted_recovering :
    Accounted thriceConfig recovering (generate thriceConfig recovering) :=
  generate_accounted ⟨rfl, fun _ => rfl⟩ (by decide) fun _ hcached => nomatch hcached.1

example : (generate thriceConfig recovering).events.map Event.response =
    [none, some "def solve(): ..."] := by decide +kernel

end Accounting

end AlgorithmHarness.LlmClient
