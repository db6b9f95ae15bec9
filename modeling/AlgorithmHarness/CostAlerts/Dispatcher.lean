import AlgorithmHarness.Core.Table
import AlgorithmHarness.Core.Transition
import Mathlib.Algebra.Order.Field.Rat
import Mathlib.Data.List.Sort
import Mathlib.Data.String.Basic
import Mathlib.Logic.Function.Basic

/-!
# Web cost alerts

`WebCostAlertDispatcher` claims a crossing with a pending row in
`alert_events`, delivers the alert without a transaction, and finishes the row.
Any number of dispatchers work on one database; each reads the clock, looks at
the table and takes a claim in separate steps, and others may come between.
Times are microseconds.  The notification that is staged with a claim and the
contents of the alert are left out.
-/

namespace AlgorithmHarness.CostAlerts

open Table
open Transition

/-- `_CHANNELS` -/
inductive Channel where
  | slack
  | webhook
  | smtp
  | log
  deriving DecidableEq, Repr

/-- A row of `alert_rules`. -/
structure AlertRule where
  id : String
  userId : String
  thresholdPct : ℕ
  channel : Channel
  enabled : Bool
  deriving DecidableEq, Repr

/-- A row of `alert_events`; the channel of a pending row is absent. -/
structure AlertEvent where
  id : String
  userId : String
  ruleId : Option String
  thresholdPct : ℕ
  usedUsd : ℚ
  capUsd : ℚ
  channel : Option Channel
  createdAt : ℕ
  deriving DecidableEq, Repr

/-- What an alert is about: one crossing of one rule by one owner's costs. -/
structure Key where
  ownerId : String
  ruleId : String
  thresholdPct : ℕ
  cap : ℚ
  deriving DecidableEq, Repr

/-- The columns `_claim` selects by. -/
def AlertEvent.isAbout (event : AlertEvent) (key : Key) : Bool :=
  event.userId = key.ownerId && event.ruleId = some key.ruleId &&
    event.thresholdPct = key.thresholdPct && event.capUsd = key.cap

/-- `timedelta(minutes=5)` -/
def lease : ℕ := 300000000

/-! ## The transactions of a dispatcher -/

section Claim

-- `uuid5` of the text of the key.
variable (eventId : Key → String)

/-- The first query of `_claim`. -/
def findExisting (key : Key) (events : List AlertEvent) : Option AlertEvent :=
  events.find? fun event => event.isAbout key

/-- The pending row with an identifier and a claim time. -/
def isLease (id : String) (claimedAt : ℕ) (event : AlertEvent) : Bool :=
  event.id = id && event.channel = none && event.createdAt = claimedAt

/-- The row `_claim` adds. -/
def pendingEvent (key : Key) (used : ℚ) (now : ℕ) : AlertEvent :=
  { id := eventId key
    userId := key.ownerId
    ruleId := some key.ruleId
    thresholdPct := key.thresholdPct
    usedUsd := used
    capUsd := key.cap
    channel := none
    createdAt := now }

/-- The row of `_claim`, unless its identifier is taken or its rule is gone: that
is an `IntegrityError`. -/
def insertEvent (key : Key) (used : ℚ) (now : ℕ) (rules : List AlertRule)
    (events : List AlertEvent) : Option (List AlertEvent) :=
  if eventId key ∈ events.map AlertEvent.id then none
  else if key.ruleId ∈ rules.map AlertRule.id then
    some (events ++ [pendingEvent eventId key used now])
  else none

/-- The rest of `_claim`, from what its query found; `none` is no claim, which
leaves the table as it was. -/
def takeClaim (key : Key) (used : ℚ) (now : ℕ) (existing : Option AlertEvent)
    (rules : List AlertRule) (events : List AlertEvent) : Option (List AlertEvent) :=
  match existing with
  | none => insertEvent eventId key used now rules events
  | some existing =>
      if existing.channel ≠ none ∨ now < existing.createdAt + lease then none
      else if events.any (isLease existing.id existing.createdAt) then
        insertEvent eventId key used now rules
          (events.filter fun event => !isLease existing.id existing.createdAt event)
      else none

/-- `_finish` of a claim at a time. -/
def finish (key : Key) (claimedAt : ℕ) (channel : Channel) (success : Bool) (now : ℕ)
    (events : List AlertEvent) : List AlertEvent :=
  if success then
    updateWhere (isLease (eventId key) claimedAt)
      (fun event => { event with channel := some channel, createdAt := now }) events
  else events.filter fun event => !isLease (eventId key) claimedAt event

end Claim

/-! ## Dispatchers -/

/-- Where a dispatcher is in `_process`. -/
inductive Phase where
  | idle
  /-- `now = utcnow()` of `_claim` -/
  | clocked (key : Key) (channel : Channel) (now : ℕ)
  | looked (key : Key) (channel : Channel) (now : ℕ) (existing : Option AlertEvent)
  | delivering (key : Key) (channel : Channel) (claimedAt : ℕ)
  | delivered (key : Key) (channel : Channel) (claimedAt : ℕ) (success : Bool)
  | crashed
  deriving DecidableEq, Repr

/-- A `WebCostAlertDispatcher`, with the costs and the rules its `_process` still
has to go through. -/
structure Dispatcher where
  ownerId : String := ""
  used : ℚ := 0
  cap : ℚ := 0
  rules : List AlertRule := []
  attempted : List (String × ℕ × ℚ) := []
  phase : Phase := .idle

/-- The key of a rule under the costs of the loop. -/
def Dispatcher.key (dispatcher : Dispatcher) (rule : AlertRule) : Key :=
  { ownerId := dispatcher.ownerId
    ruleId := rule.id
    thresholdPct := rule.thresholdPct
    cap := dispatcher.cap }

/-- The tests of the loop of `_process` before a claim. -/
def Dispatcher.considers (dispatcher : Dispatcher) (rule : AlertRule) : Bool :=
  !decide (dispatcher.used * 100 < dispatcher.cap * rule.thresholdPct) &&
    decide ((rule.id, rule.thresholdPct, dispatcher.cap) ∉ dispatcher.attempted)

/-- The enabled rules of an owner, `ORDER BY threshold_pct, id`. -/
def rulesOf (ownerId : String) (rules : List AlertRule) : List AlertRule :=
  (rules.filter fun rule => rule.userId = ownerId && rule.enabled).insertionSort
    fun first second => first.thresholdPct < second.thresholdPct ∨
      first.thresholdPct = second.thresholdPct ∧ first.id ≤ second.id

/-- The tables, the clock and the dispatchers.  The successful deliveries, those of
them that are not finished and the last claim of a key, with its dispatcher and
its time, are kept beside them. -/
structure System where
  rules : List AlertRule := []
  events : List AlertEvent := []
  clock : ℕ := 0
  dispatchers : ℕ → Dispatcher := fun _ => {}
  successes : List Key := []
  unfinished : List (ℕ × ℕ) := []
  holder : Key → Option (ℕ × ℕ) := fun _ => none

inductive Action where
  /-- `process`, with the costs it reads. -/
  | start (ownerId : String) (used cap : ℚ)
  | skip
  | readClock (time : ℕ)
  | look
  | take
  | deliver (success : Bool)
  | finish (time : ℕ)
  /-- An exception that leaves `_process`. -/
  | abort
  | crash
  deriving DecidableEq, Repr

inductive Label where
  | putRule (rule : AlertRule)
  | deleteRule (ruleId : String)
  | pass (time : ℕ)
  | act (dispatcher : ℕ) (action : Action)
  deriving DecidableEq, Repr

namespace System

def setPhase (system : System) (name : ℕ) (phase : Phase) : System :=
  { system with
    dispatchers := Function.update system.dispatchers name
      { system.dispatchers name with phase := phase } }

/-- A successful delivery is finished within its lease, so time does not pass its
end before. -/
def mayPass (system : System) (time : ℕ) : Bool :=
  system.clock ≤ time && system.unfinished.all fun claim => time < claim.2 + lease

variable (eventId : Key → String)

/-- A step of a dispatcher.  A live delivery succeeds within its lease, and its
dispatcher does not crash before it finished. -/
def act (system : System) (name : ℕ) : Action → Option System
  | .start ownerId used cap =>
      let dispatcher := system.dispatchers name
      if dispatcher.phase = .idle ∧ dispatcher.rules = [] ∧ cap ≠ 0 then
        some
          { system with
            dispatchers := Function.update system.dispatchers name
              { dispatcher with
                ownerId := ownerId
                used := used
                cap := cap
                rules := rulesOf ownerId system.rules } }
      else none
  | .skip =>
      let dispatcher := system.dispatchers name
      match dispatcher.phase, dispatcher.rules with
      | .idle, rule :: rules =>
          if dispatcher.considers rule then none
          else
            some
              { system with
                dispatchers := Function.update system.dispatchers name
                  { dispatcher with rules := rules } }
      | _, _ => none
  | .readClock time =>
      let dispatcher := system.dispatchers name
      match dispatcher.phase, dispatcher.rules with
      | .idle, rule :: rules =>
          if dispatcher.considers rule && system.mayPass time then
            some
              { system with
                clock := time
                dispatchers := Function.update system.dispatchers name
                  { dispatcher with
                    rules := rules
                    phase := .clocked (dispatcher.key rule) rule.channel time } }
          else none
      | _, _ => none
  | .look =>
      match (system.dispatchers name).phase with
      | .clocked key channel now =>
          some (system.setPhase name
            (.looked key channel now (findExisting key system.events)))
      | _ => none
  | .take =>
      let dispatcher := system.dispatchers name
      match dispatcher.phase with
      | .looked key channel now existing =>
          match takeClaim eventId key dispatcher.used now existing system.rules system.events with
          | none => some (system.setPhase name .idle)
          | some events =>
              some
                { system with
                  events := events
                  holder := Function.update system.holder key (some (name, now))
                  dispatchers := Function.update system.dispatchers name
                    { dispatcher with
                      attempted :=
                        (key.ruleId, key.thresholdPct, key.cap) :: dispatcher.attempted
                      phase := .delivering key channel now } }
      | _ => none
  | .deliver success =>
      match (system.dispatchers name).phase with
      | .delivering key channel claimedAt =>
          if success then
            if system.clock < claimedAt + lease then
              some
                { system.setPhase name (.delivered key channel claimedAt true) with
                  successes := key :: system.successes
                  unfinished := (name, claimedAt) :: system.unfinished }
            else none
          else some (system.setPhase name (.delivered key channel claimedAt false))
      | _ => none
  | .finish time =>
      match (system.dispatchers name).phase with
      | .delivered key channel claimedAt success =>
          if system.mayPass time then
            some
              { system.setPhase name .idle with
                clock := time
                events := CostAlerts.finish eventId key claimedAt channel success time
                  system.events
                unfinished := system.unfinished.filter fun claim => claim ≠ (name, claimedAt) }
          else none
      | _ => none
  | .abort =>
      match (system.dispatchers name).phase with
      | .crashed | .delivered _ _ _ true => none
      | _ =>
          some
            { system with
              dispatchers := Function.update system.dispatchers name
                { system.dispatchers name with phase := .idle, rules := [] } }
  | .crash =>
      match (system.dispatchers name).phase with
      | .delivered _ _ _ true => none
      | _ => some (system.setPhase name .crashed)

/-- A step of the system.  A rule that is deleted is taken from the events. -/
def step (system : System) : Label → Option System
  | .putRule rule =>
      some { system with
        rules := rule :: system.rules.filter fun other => other.id ≠ rule.id }
  | .deleteRule ruleId =>
      some { system with
        rules := system.rules.filter fun rule => rule.id ≠ ruleId
        events := updateWhere (fun event => event.ruleId = some ruleId)
          (fun event => { event with ruleId := none }) system.events }
  | .pass time => if system.mayPass time then some { system with clock := time } else none
  | .act name action => system.act eventId name action

end System

end AlgorithmHarness.CostAlerts
