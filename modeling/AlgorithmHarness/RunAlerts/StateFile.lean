import AlgorithmHarness.Core.Decimals
import AlgorithmHarness.Core.Json
import AlgorithmHarness.Core.KeyedRows
import AlgorithmHarness.CostAlerts.Dispatcher

/-!
# The state file of a run's cost alerts

`CostAlertManager` keeps what it delivered and what failed in one JSON file for
each run.  A file is represented by the JSON value it holds.
-/

namespace AlgorithmHarness.RunAlerts

open KeyedRows
open CostAlerts (Channel)

def Channel.name : Channel → String
  | .slack => "slack"
  | .webhook => "webhook"
  | .smtp => "smtp"
  | .log => "log"

def Channel.ofName (name : String) : Option Channel :=
  if name = "slack" then some .slack
  else if name = "webhook" then some .webhook
  else if name = "smtp" then some .smtp
  else if name = "log" then some .log
  else none

@[simp]
theorem Channel.ofName_name (channel : Channel) :
    Channel.ofName (Channel.name channel) = some channel := by
  cases channel <;> decide

/-- The entry of a channel whose delivery failed. -/
structure Failure where
  attempts : ℕ
  errorType : String
  deriving DecidableEq, Repr

/-- `_state`, by the texts of the thresholds. -/
structure AlertState where
  delivered : List (String × List Channel) := []
  failed : List (String × List (Channel × Failure)) := []
  deriving DecidableEq, Repr

namespace AlertState

/-- `_state["delivered"].get(key, [])` -/
def deliveredAt (state : AlertState) (threshold : ℕ) : List Channel :=
  ((fetch Prod.fst (toString threshold) state.delivered).map Prod.snd).getD []

/-- `_state["failed"].get(key, {})` -/
def failedAt (state : AlertState) (threshold : ℕ) : List (Channel × Failure) :=
  ((fetch Prod.fst (toString threshold) state.failed).map Prod.snd).getD []

/-- `_state["delivered"].setdefault(key, [])` -/
def setDefault (state : AlertState) (threshold : ℕ) : AlertState :=
  { state with
    delivered := put Prod.fst (toString threshold, state.deliveredAt threshold) state.delivered }

/-- `delivered.append(channel)`, and the failure of the channel is dropped. -/
def recordSuccess (state : AlertState) (threshold : ℕ) (channel : Channel) : AlertState :=
  { delivered :=
      put Prod.fst (toString threshold, state.deliveredAt threshold ++ [channel]) state.delivered
    failed := state.failed.map fun entry =>
      if entry.1 = toString threshold then
        (entry.1, entry.2.filter fun detail => detail.1 ≠ channel)
      else entry }

def recordFailure (state : AlertState) (threshold : ℕ) (channel : Channel) (failure : Failure) :
    AlertState :=
  { state with
    failed := put Prod.fst
      (toString threshold, put Prod.fst (channel, failure) (state.failedAt threshold))
      state.failed }

end AlertState

/-! ## Writing -/

/-- `sort_keys` for one object. -/
def sortKeys {Value : Type} (members : List (String × Value)) : List (String × Value) :=
  members.insertionSort fun first second => first.1 ≤ second.1

def Failure.toJson (failure : Failure) : Json :=
  .obj [("attempts", .num failure.attempts), ("error_type", .str failure.errorType)]

/-- What `_save_state` writes. -/
def saveState (runId : String) (state : AlertState) : Json :=
  .obj
    [("delivered", .obj (sortKeys (state.delivered.map fun entry =>
        (entry.1, .arr (entry.2.map fun channel => .str (Channel.name channel)))))),
      ("failed", .obj (sortKeys (state.failed.map fun entry =>
        (entry.1, .obj (sortKeys (entry.2.map fun detail =>
          (Channel.name detail.1, detail.2.toJson))))))),
      ("run_id", .str runId),
      ("version", .num 1)]

/-! ## Reading -/

/-- An entry of a list of channels. -/
def readChannel : Json → Option Channel
  | .str name => Channel.ofName name
  | _ => none

def invalidDelivery : String := "Cost alert state has invalid delivery entries"

def invalidFailure : String := "Cost alert state has invalid failure entries"

/-- The check of an entry of `delivered`. -/
def readDelivered (entry : String × Json) : Except String (String × List Channel) :=
  match entry.2 with
  | .arr items =>
      match items.mapM readChannel with
      | some channels =>
          if isNumeral entry.1 then .ok (entry.1, channels) else .error invalidDelivery
      | none => .error invalidDelivery
  | _ => .error invalidDelivery

/-- The error types of failures without a status. -/
def errorTypes : List String :=
  ["http_error", "network_error", "request_error", "smtp_error", "delivery_error"]

def acceptsError (errorType : String) : Bool :=
  errorType ∈ errorTypes || "http_status_".toList.isPrefixOf errorType.toList

/-- The check of a failed channel. -/
def readFailure (detail : String × Json) : Except String (Channel × Failure) :=
  match Channel.ofName detail.1, detail.2.member "attempts", detail.2.member "error_type" with
  | some channel, .num attempts, .str errorType =>
      if channel ≠ .log ∧ attempts.den = 1 ∧ 1 ≤ attempts.num ∧ acceptsError errorType then
        .ok (channel, { attempts := attempts.num.toNat, errorType })
      else .error invalidFailure
  | _, _, _ => .error invalidFailure

/-- The check of an entry of `failed`. -/
def readFailed (entry : String × Json) : Except String (String × List (Channel × Failure)) :=
  match entry.2 with
  | .obj details =>
      if isNumeral entry.1 then (details.mapM readFailure).map fun failures => (entry.1, failures)
      else .error invalidFailure
  | _ => .error invalidFailure

/-- `state.get("version") != 1`; `True` is one too. -/
def isVersionOne : Json → Bool
  | .num value => value = 1
  | .bool value => value
  | _ => false

/-- `_load_state`; the state of an absent file is empty. -/
def loadState (runId : String) (file : Option Json) : Except String AlertState :=
  match file with
  | none => .ok {}
  | some content =>
      match content.member "delivered", content.member "failed" with
      | .obj delivered, .obj failed =>
          if isVersionOne (content.member "version") && (content.member "run_id").isStr runId then do
            let delivered ← delivered.mapM readDelivered
            let failed ← failed.mapM readFailed
            return { delivered, failed }
          else .error "Cost alert state is invalid or belongs to another run"
      | _, _ => .error "Cost alert state is invalid or belongs to another run"

/-! ## A file that was written is accepted -/

theorem sortKeys_perm {Value : Type} (members : List (String × Value)) :
    (sortKeys members).Perm members := List.perm_insertionSort _ _

/-- Sorting by keys does not look at the values. -/
theorem sortKeys_map {Value Other : Type} (change : Value → Other)
    (members : List (String × Value)) :
    sortKeys (members.map fun member => (member.1, change member.2)) =
      (sortKeys members).map fun member => (member.1, change member.2) := by
  symm
  apply List.map_insertionSort
  intro first _ second _
  rfl

namespace AlertState

/-- What a manager keeps. -/
structure Fit (state : AlertState) : Prop where
  keys : (state.delivered.map Prod.fst).Nodup
  numerals : ∀ entry ∈ state.delivered, isNumeral entry.1 = true
  failedNumerals : ∀ entry ∈ state.failed, isNumeral entry.1 = true
  failures : ∀ entry ∈ state.failed, ∀ detail ∈ entry.2, detail.1 ≠ .log ∧
    1 ≤ detail.2.attempts ∧ acceptsError detail.2.errorType = true

/-- The channels of a dictionary by their names. -/
def sortChannels (details : List (Channel × Failure)) : List (Channel × Failure) :=
  (sortKeys (details.map fun detail => (Channel.name detail.1, detail))).map Prod.snd

/-- A state as it comes back from its file. -/
def sorted (state : AlertState) : AlertState :=
  { delivered := sortKeys state.delivered
    failed := sortKeys (state.failed.map fun entry => (entry.1, sortChannels entry.2)) }

theorem sortChannels_perm (details : List (Channel × Failure)) :
    (sortChannels details).Perm details := by
  have hperm := (sortKeys_perm (details.map fun detail => (Channel.name detail.1, detail))).map
    Prod.snd
  rw [List.map_map] at hperm
  change (sortChannels details).Perm (details.map id) at hperm
  rwa [List.map_id] at hperm

theorem Fit.sorted {state : AlertState} (hfit : state.Fit) : state.sorted.Fit where
  keys := (((sortKeys_perm _).map Prod.fst).nodup_iff).mpr hfit.keys
  numerals entry hentry := hfit.numerals entry ((sortKeys_perm _).mem_iff.mp hentry)
  failedNumerals entry hentry := by
    obtain ⟨before, hbefore, rfl⟩ := List.mem_map.mp ((sortKeys_perm _).mem_iff.mp hentry)
    exact hfit.failedNumerals before hbefore
  failures entry hentry detail hdetail := by
    obtain ⟨before, hbefore, rfl⟩ := List.mem_map.mp ((sortKeys_perm _).mem_iff.mp hentry)
    exact hfit.failures before hbefore detail ((sortChannels_perm _).mem_iff.mp hdetail)

theorem deliveredAt_sorted {state : AlertState} (hfit : state.Fit) (threshold : ℕ) :
    state.sorted.deliveredAt threshold = state.deliveredAt threshold := by
  rw [deliveredAt, deliveredAt, fetch_perm (sortKeys_perm _).symm hfit.keys]
  rfl

end AlertState

theorem readDelivered_written {entry : String × List Channel} (hnumeral : isNumeral entry.1 = true) :
    readDelivered (entry.1, .arr (entry.2.map fun channel => .str (Channel.name channel))) =
      .ok entry := by
  have hchannels : ∀ channels : List Channel,
      (channels.map fun channel => Json.str (Channel.name channel)).mapM readChannel =
        some channels := by
    intro channels
    induction channels with
    | nil => rfl
    | cons channel channels ih =>
        rw [List.map_cons, List.mapM_cons, ih, readChannel, Channel.ofName_name]
        rfl
  simp only [readDelivered, hchannels, if_pos hnumeral]

theorem readFailure_written {detail : Channel × Failure} (hlog : detail.1 ≠ .log)
    (hattempts : 1 ≤ detail.2.attempts) (herror : acceptsError detail.2.errorType = true) :
    readFailure (Channel.name detail.1, detail.2.toJson) = .ok detail := by
  have hmember : detail.2.toJson.member "attempts" = .num detail.2.attempts := rfl
  have herrorType : detail.2.toJson.member "error_type" = .str detail.2.errorType := rfl
  have hnum : ((detail.2.attempts : ℚ)).num = detail.2.attempts := Rat.num_natCast _
  have hden : ((detail.2.attempts : ℚ)).den = 1 := Rat.den_natCast _
  simp only [readFailure, Channel.ofName_name, hmember, herrorType]
  rw [if_pos ⟨hlog, hden, by rw [hnum]; exact_mod_cast hattempts, herror⟩, hnum]
  rfl

theorem readFailed_written {entry : String × List (Channel × Failure)}
    (hnumeral : isNumeral entry.1 = true)
    (hdetails : ∀ detail ∈ entry.2, detail.1 ≠ .log ∧ 1 ≤ detail.2.attempts ∧
      acceptsError detail.2.errorType = true) :
    readFailed (entry.1, .obj (sortKeys (entry.2.map fun detail =>
      (Channel.name detail.1, detail.2.toJson)))) =
        .ok (entry.1, AlertState.sortChannels entry.2) := by
  have hsorted : sortKeys (entry.2.map fun detail => (Channel.name detail.1, detail.2.toJson)) =
      (sortKeys (entry.2.map fun detail => (Channel.name detail.1, detail))).map fun member =>
        (member.1, member.2.2.toJson) := by
    rw [← sortKeys_map (fun detail : Channel × Failure => detail.2.toJson), List.map_map]
    rfl
  have hread : ((sortKeys (entry.2.map fun detail => (Channel.name detail.1, detail))).map
      fun member => (member.1, member.2.2.toJson)).mapM readFailure =
        .ok (AlertState.sortChannels entry.2) := by
    apply mapM_map_ok
    intro member hmember
    obtain ⟨detail, hdetail, rfl⟩ := List.mem_map.mp ((sortKeys_perm _).mem_iff.mp hmember)
    obtain ⟨hlog, hattempts, herror⟩ := hdetails detail hdetail
    exact readFailure_written hlog hattempts herror
  simp only [readFailed, if_pos hnumeral, hsorted, hread]
  rfl

/-- A file that was written is read back, with its keys sorted. -/
theorem loadState_saveState {runId : String} {state : AlertState} (hfit : state.Fit) :
    loadState runId (some (saveState runId state)) = .ok state.sorted := by
  have hdelivered : (sortKeys (state.delivered.map fun entry =>
      (entry.1, Json.arr (entry.2.map fun channel => .str (Channel.name channel))))).mapM
        readDelivered = .ok state.sorted.delivered := by
    rw [sortKeys_map fun channels : List Channel =>
      Json.arr (channels.map fun channel => .str (Channel.name channel))]
    have hread : ((sortKeys state.delivered).map fun entry =>
        (entry.1, Json.arr (entry.2.map fun channel => .str (Channel.name channel)))).mapM
          readDelivered = .ok ((sortKeys state.delivered).map id) :=
      mapM_map_ok fun entry hentry =>
        readDelivered_written (hfit.numerals entry ((sortKeys_perm _).mem_iff.mp hentry))
    rwa [List.map_id] at hread
  have hfailed : (sortKeys (state.failed.map fun entry =>
      (entry.1, Json.obj (sortKeys (entry.2.map fun detail =>
        (Channel.name detail.1, detail.2.toJson)))))).mapM readFailed =
          .ok state.sorted.failed := by
    rw [AlertState.sorted, sortKeys_map AlertState.sortChannels,
      sortKeys_map fun details : List (Channel × Failure) =>
        Json.obj (sortKeys (details.map fun detail => (Channel.name detail.1, detail.2.toJson)))]
    apply mapM_map_ok
    intro entry hentry
    have hmem := (sortKeys_perm _).mem_iff.mp hentry
    exact readFailed_written (hfit.failedNumerals entry hmem) (hfit.failures entry hmem)
  have hrun : (Json.str runId).isStr runId = true := by simp [Json.isStr]
  change (if isVersionOne (.num 1) && (Json.str runId).isStr runId then _ else _) = _
  rw [hrun]
  change ((sortKeys _).mapM readDelivered >>= fun delivered =>
    (sortKeys _).mapM readFailed >>= fun failed =>
      Except.ok ({ delivered, failed } : AlertState)) = _
  rw [hdelivered, hfailed]
  rfl

end AlgorithmHarness.RunAlerts
