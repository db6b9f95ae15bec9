import AlgorithmHarness.Core.Transition
import AlgorithmHarness.Harness.Cost
import AlgorithmHarness.RunAlerts.StateFile

/-!
# `CostAlertManager`

`process` delivers every threshold the cost of a run has reached to every
channel that did not have it yet, and saves the state after each delivery.
Costs are the decimals that they print; what an attempt of a transport ends
with, and the conversion of a decimal to a float, are parameters.
-/

namespace AlgorithmHarness.RunAlerts

open KeyedRows
open Transition
open CostAlerts (Channel)
open Harness (Amount)

/-- `CostAlertConfig`, with what its validators check. -/
structure AlertConfig where
  thresholds : List ℕ
  slack : Bool
  webhook : Bool
  smtp : Bool
  maxRetries : ℕ
  nonempty : thresholds ≠ []
  percentages : ∀ threshold ∈ thresholds, 1 ≤ threshold ∧ threshold ≤ 99
  unique : thresholds.Nodup
  ascending : thresholds.Pairwise (· ≤ ·)
  retries : maxRetries ≤ 5

/-- `_channels` -/
def AlertConfig.channels (config : AlertConfig) : List Channel :=
  let configured := (if config.slack then [Channel.slack] else []) ++
    (if config.webhook then [Channel.webhook] else []) ++
    (if config.smtp then [Channel.smtp] else [])
  if configured.isEmpty then [.log] else configured

/-! ## A delivery -/

/-- What an attempt to send ends with: nothing is raised, or an exception by the
clause of `_deliver` that catches it. -/
inductive Attempt where
  | sent
  | httpError (status : Option ℕ)
  | sslError
  | unreachable
  | requestError
  | smtpResponse (code : ℤ)
  | smtpDisconnected
  | smtpError
  | tlsError
  | osError
  | otherError
  deriving DecidableEq, Repr

/-- The error of a failed attempt, and whether another one is made. -/
def Attempt.failure (channel : Channel) : Attempt → Option (String × Bool)
  | .sent => none
  | .httpError none => some ("http_error", false)
  | .httpError (some status) =>
      some ("http_status_" ++ toString status, status = 429 || (500 ≤ status && status ≤ 599))
  | .sslError => some ("network_error", false)
  | .unreachable => some ("network_error", true)
  | .requestError => some ("request_error", false)
  | .smtpResponse code => some ("smtp_error", 400 ≤ code && code ≤ 499)
  | .smtpDisconnected => some ("smtp_error", true)
  | .smtpError => some ("smtp_error", false)
  | .tlsError => some ("smtp_error", false)
  | .osError => some (if channel = .smtp then "smtp_error" else "network_error", true)
  | .otherError => some ("delivery_error", false)

/-- Whether a delivery succeeded, its attempts and its error. -/
structure Delivery where
  successful : Bool
  attempts : ℕ
  error : Option String
  deriving DecidableEq, Repr

/-- The loop of `_deliver` from an attempt on, when so many remain. -/
def deliverFrom (channel : Channel) (transport : ℕ → Attempt) (maxRetries : ℕ) :
    ℕ → ℕ → Option String → Delivery
  | 0, _, lastError => { successful := false, attempts := maxRetries + 1, error := lastError }
  | remaining + 1, attempt, _ =>
      match (transport attempt).failure channel with
      | none => { successful := true, attempts := attempt, error := none }
      | some (error, again) =>
          if again then
            deliverFrom channel transport maxRetries remaining (attempt + 1) (some error)
          else { successful := false, attempts := attempt, error := some error }

/-- `_deliver` -/
def deliver (channel : Channel) (transport : ℕ → Attempt) (maxRetries : ℕ) : Delivery :=
  if channel = .log then { successful := true, attempts := 0, error := none }
  else deliverFrom channel transport maxRetries (maxRetries + 1) 1 none

/-! ## The costs of a call -/

/-- The checked arguments of `process`. -/
structure Costs where
  accumulated : ℚ
  cap : ℚ
  unknown : ℕ
  deriving DecidableEq, Repr

/-- `_amount` -/
def amount (value : Amount) (name : String) (positive : Bool) : Except String ℚ :=
  let refused := name ++ " must be a finite " ++
    (if positive then "positive" else "non-negative") ++ " number"
  match value with
  | .finite decimal =>
      if decimal < 0 || (positive && decimal = 0) then .error refused else .ok decimal
  | .nonfinite => .error refused

/-- The checks of `process`. -/
def checkedCosts (accumulated cap : Amount) (unknown : ℤ) : Except String Costs := do
  let accumulated ← amount accumulated "accumulated_cost_usd" false
  let cap ← amount cap "budget_cap_usd" true
  if unknown < 0 then
    throw "unknown_usage_results must be a non-negative integer"
  return { accumulated, cap, unknown := unknown.toNat }

namespace Costs

variable (costs : Costs)

/-- `accumulated * 100` -/
def scaled : Option ℚ := DecimalContext.default.round (costs.accumulated * 100)

/-- `cap * threshold` -/
def bound (threshold : ℕ) : Option ℚ := DecimalContext.default.round (costs.cap * threshold)

/-- `not accumulated * 100 < cap * threshold`; `none` is an `Overflow`. -/
def due (threshold : ℕ) : Option Bool := do
  let scaled ← costs.scaled
  let bound ← costs.bound threshold
  return !decide (scaled < bound)

/-- The cost reached a threshold, without any rounding. -/
def Reached (threshold : ℕ) : Prop := costs.cap * threshold ≤ costs.accumulated * 100

end Costs

structure Payload where
  event : String
  runId : String
  thresholdPercent : ℕ
  accumulatedCostUsd : Amount
  budgetCapUsd : Amount
  knownBudgetPercent : Amount
  unknownUsageResults : ℕ
  costBasis : String

/-- `_payload` -/
def payload (toFloat : ℚ → Amount) (runId : String) (costs : Costs) (threshold : ℕ) :
    Option Payload := do
  let scaled ← costs.scaled
  let percent ← DecimalContext.default.round (scaled / costs.cap)
  return {
    event := "cost_alert"
    runId
    thresholdPercent := threshold
    accumulatedCostUsd := toFloat costs.accumulated
    budgetCapUsd := toFloat costs.cap
    knownBudgetPercent := toFloat percent
    unknownUsageResults := costs.unknown
    costBasis := "known_pricing_usage" }

/-! ## `process` -/

/-- An event that `process` returns. -/
structure AlertEvent where
  runId : String
  thresholdPercent : ℕ
  channel : Channel
  status : String
  accumulatedCostUsd : Amount
  budgetCapUsd : Amount
  unknownUsageResults : ℕ
  attempts : ℕ
  errorType : Option String

def AlertEvent.pair (event : AlertEvent) : ℕ × Channel := (event.thresholdPercent, event.channel)

/-- A successful delivery, with the costs of its call. -/
structure Sent where
  threshold : ℕ
  channel : Channel
  costs : Costs
  deriving DecidableEq, Repr

def Sent.pair (sent : Sent) : ℕ × Channel := (sent.threshold, sent.channel)

/-- What a call changes; every file it wrote is kept with the state it was
written for. -/
structure Progress where
  attempted : List (ℕ × Channel)
  state : AlertState
  file : Option Json
  events : List AlertEvent
  sent : List Sent
  saves : List (Json × AlertState)

/-- The parts of a call that its loops only read. -/
structure Call where
  runId : String
  config : AlertConfig
  costs : Costs
  transport : ℕ → Channel → ℕ → Attempt
  toFloat : ℚ → Amount

namespace Call

variable (call : Call)

/-- The result of a delivery in the state. -/
def record (threshold : ℕ) (channel : Channel) (delivery : Delivery) (state : AlertState) :
    AlertState :=
  if delivery.successful then state.recordSuccess threshold channel
  else
    state.recordFailure threshold channel
      { attempts := delivery.attempts, errorType := delivery.error.getD "delivery_error" }

/-- One turn of the inner loop that delivers; `false` when it raises. -/
def attempt (threshold : ℕ) (channel : Channel) (progress : Progress) : Progress × Bool :=
  let attempted := (threshold, channel) :: progress.attempted
  match payload call.toFloat call.runId call.costs threshold with
  | none => ({ progress with attempted }, false)
  | some payload =>
      let delivery := deliver channel (call.transport threshold channel) call.config.maxRetries
      let state := record threshold channel delivery progress.state
      let event : AlertEvent :=
        { runId := call.runId
          thresholdPercent := threshold
          channel
          status := if channel = .log then "triggered"
            else if delivery.successful then "sent" else "failed"
          accumulatedCostUsd := payload.accumulatedCostUsd
          budgetCapUsd := payload.budgetCapUsd
          unknownUsageResults := call.costs.unknown
          attempts := delivery.attempts
          errorType := if delivery.successful then none
            else some (delivery.error.getD "delivery_error") }
      ({ attempted
         state
         file := some (saveState call.runId state)
         events := progress.events ++ [event]
         sent := if delivery.successful then
             progress.sent ++ [{ threshold, channel, costs := call.costs }]
           else progress.sent
         saves := progress.saves ++ [(saveState call.runId state, state)] }, true)

/-- A channel that has the threshold, or was tried by this manager. -/
def skips (threshold : ℕ) (channel : Channel) (progress : Progress) : Bool :=
  decide (channel ∈ progress.state.deliveredAt threshold) ||
    decide ((threshold, channel) ∈ progress.attempted)

/-- The loop over the channels. -/
def processChannels (threshold : ℕ) : List Channel → Progress → Progress × Bool
  | [], progress => (progress, true)
  | channel :: channels, progress =>
      if skips threshold channel progress then processChannels threshold channels progress
      else
        match call.attempt threshold channel progress with
        | (progress, true) => processChannels threshold channels progress
        | (progress, false) => (progress, false)

/-- The loop over the thresholds. -/
def processThresholds : List ℕ → Progress → Progress × Bool
  | [], progress => (progress, true)
  | threshold :: thresholds, progress =>
      match call.costs.due threshold with
      | none => (progress, false)
      | some false => processThresholds thresholds progress
      | some true =>
          match call.processChannels threshold call.config.channels
            { progress with state := progress.state.setDefault threshold } with
          | (progress, true) => processThresholds thresholds progress
          | (progress, false) => (progress, false)

end Call

/-! ## A run with restarts -/

/-- A `CostAlertManager` of a process. -/
structure Manager where
  config : AlertConfig
  attempted : List (ℕ × Channel)
  state : AlertState

/-- A run: its state file, the manager of the process that works on it, what has
been delivered and the files that were written. -/
structure World where
  file : Option Json := none
  manager : Option Manager := none
  sent : List Sent := []
  saves : List (Json × AlertState) := []

inductive Label where
  /-- A process begins, in the place of an earlier one. -/
  | start (config : AlertConfig)
  | process (accumulated : Amount) (cap : Option Amount) (unknown : ℤ)
    (transport : ℕ → Channel → ℕ → Attempt)

namespace World

variable (toFloat : ℚ → Amount) (runId : String)

/-- `process` of a manager: the world after it, and what it returns. -/
def process (world : World) (manager : Manager) (accumulated : Amount) (cap : Option Amount)
    (unknown : ℤ) (transport : ℕ → Channel → ℕ → Attempt) :
    World × Except String (List AlertEvent) :=
  match cap with
  | none => (world, .ok [])
  | some cap =>
      match checkedCosts accumulated cap unknown with
      | .error error => (world, .error error)
      | .ok costs =>
          let call : Call := { runId, config := manager.config, costs, transport, toFloat }
          let progress := call.processThresholds manager.config.thresholds
            { attempted := manager.attempted
              state := manager.state
              file := world.file
              events := []
              sent := world.sent
              saves := world.saves }
          ({ file := progress.1.file
             manager := some
               { manager with attempted := progress.1.attempted, state := progress.1.state }
             sent := progress.1.sent
             saves := progress.1.saves },
            if progress.2 then .ok progress.1.events else .error "Overflow")

/-- A step of the run; a manager whose state file is refused does not begin. -/
def step (world : World) : Label → Option World
  | .start config =>
      match loadState runId world.file with
      | .error _ => none
      | .ok state => some { world with manager := some { config, attempted := [], state } }
  | .process accumulated cap unknown transport =>
      world.manager.map fun manager =>
        (world.process toFloat runId manager accumulated cap unknown transport).1

end World

end AlgorithmHarness.RunAlerts
