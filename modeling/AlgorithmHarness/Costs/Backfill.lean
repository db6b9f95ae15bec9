import AlgorithmHarness.Core.Json
import AlgorithmHarness.Costs.SpendRows
import Mathlib.Algebra.Order.BigOperators.Group.List
import Mathlib.Algebra.Order.Ring.Unbundled.Rat
import Mathlib.Data.List.Nodup

/-!
# Backfilling spend

`backfill_spend` reads the artifacts of old experiments and stores one spend
record for each combination with verifiable costs.  The files, `uuid5` and
what the database takes are the surroundings.  A number no double can hold is
an integer; infinities and NaN read like a missing cost.
-/

namespace AlgorithmHarness.SpendRecords

open Calendar (DateTime)
open Costs (Source)

/-- What is raised: one of `OSError`, `ValueError`, `KeyError` and `TypeError`, or anything
else. -/
inductive Raised where
  | caught
  | uncaught
  deriving DecidableEq

/-- The columns of `spend_records`. -/
structure SpendRecord where
  id : String
  userId : String
  source : Source
  taskId : String
  occurredAt : DateTime
  model : Json
  strategy : String
  costUsd : Option ℚ
  cached : Bool
  unknownReason : Option String
  pricing : Option JsonDict

/-- The columns of `experiments` the backfill reads. -/
structure Experiment where
  id : String
  userId : String
  costTrackingComplete : Bool := false
  outputDir : Option String
  createdAt : DateTime
  startedAt : Option DateTime := none
  completedAt : Option DateTime := none

/-- `output_dir`, unless it is missing or empty. -/
def Experiment.artifactRoot (job : Experiment) : Option String :=
  job.outputDir.filter fun root => root ≠ ""

structure Database where
  experiments : List Experiment
  spendRecords : List SpendRecord := []

/-- The files under an output directory, the ids of events and the refusals of the database. -/
structure Surroundings where
  /-- `Path(output_dir).resolve()` raises nothing. -/
  resolves : String → Bool
  /-- `experiment.json`. -/
  metadata : String → Except Raised Json
  /-- `(root / combo_dir).resolve().is_relative_to(root)`. -/
  inside : String → String → Except Raised Bool
  /-- `summary.json` of a combination. -/
  summary : String → String → Except Raised Json
  /-- `uuid5` of `spend:experiments:{job.id}:{combo_id}`. -/
  eventId : String → Json → String
  /-- A refusal is an error of the database, which nothing catches. -/
  accepts : SpendRecord → Bool

/-! ## Reading a combination -/

/-- `value[key]` of a dictionary. -/
def item (members : List (String × Json)) (key : String) : Except Raised Json :=
  match members.lookup key with
  | some value => .ok value
  | none => .error .caught

/-- A value used as a path or as a key of a summary. -/
def text : Json → Except Raised String
  | .str value => .ok value
  | _ => .error .caught

/-- `_amount`. -/
def amount : Json → Except Raised (Option ℚ)
  | .num value =>
      -- `math.isfinite` of an integer beyond the doubles is an `OverflowError`
      if 2 ^ 1024 - 2 ^ 970 ≤ |value| then .error .uncaught
      else .ok (if 0 ≤ value then some value else none)
  | _ => .ok none

/-- A combination with verifiable costs. -/
structure Evidence where
  combo : List (String × Json)
  comboDir : String
  comboId : Json
  strategy : String
  pricing : List (String × Json)
  cost : ℚ

/-- The body of the loop up to `event_id`, which the database has no part in. -/
def readCombination (surroundings : Surroundings) (root : String) :
    Json → Except Raised (Option Evidence)
  | .obj combo => do
      let comboDir ← (item combo "combo_dir").bind text
      if !(← surroundings.inside root comboDir) then throw .caught
      match ← surroundings.summary root comboDir with
      | .obj summary =>
          let strategy ← (item combo "strategy").bind text
          match summary.lookup strategy with
          | some (.obj results) =>
              match ((results.lookup "pricing_metadata").getD .null).orEmpty with
              | .obj pricing =>
                  let cost ← amount ((pricing.lookup "total_cost").getD .null)
                  match ((pricing.lookup "has_actual_pricing").getD .null).truthy, cost with
                  | true, some cost =>
                      let comboId ← item combo "combo_id"
                      return some { combo, comboDir, comboId, strategy, pricing, cost }
                  | _, _ => return none
              | _ => throw .caught
          | _ => throw .caught
      | _ => throw .caught
  | _ => .error .caught

abbrev Reading := Except Raised (Option Evidence)

/-- What the loop reads, combination by combination.  Metadata that cannot be read count as one
combination that cannot. -/
def artifactReadings (surroundings : Surroundings) (root : String) : List Reading :=
  if !surroundings.resolves root then [.error .uncaught]
  else
    match surroundings.metadata root with
    | .ok (.obj metadata) =>
        match metadata.lookup "combinations" with
        | some (.arr combos) => combos.map (readCombination surroundings root)
        | _ => [.error .caught]
    | .ok _ => [.error .caught]
    | .error raised => [.error raised]

/-! ## Storing records -/

variable (surroundings : Surroundings) (job : Experiment)

def Evidence.eventId (evidence : Evidence) : String :=
  surroundings.eventId job.id evidence.comboId

/-- The new `SpendRecord`; only now is the model read. -/
def Evidence.spendRecord (evidence : Evidence) : Except Raised SpendRecord :=
  (item evidence.combo "model").map fun model =>
    let flag key := ((evidence.pricing.lookup key).getD .null).truthy
    { id := evidence.eventId surroundings job
      userId := job.userId
      source := .experiments
      taskId := job.id
      occurredAt := (job.completedAt.or job.startedAt).getD job.createdAt
      model
      strategy := evidence.strategy
      costUsd := some evidence.cost
      cached := false
      unknownReason :=
        if flag "unknown_usage" || flag "unknown_pricing" then some "historical_partial" else none
      pricing :=
        some
          ((JsonDict.ofMembers
            [("origin", .str "historical_snapshot"),
              ("timestamp_basis",
                .str (if job.completedAt.isSome then "legacy_completed_at"
                  else "legacy_task_time")),
              ("artifact", .str (evidence.comboDir ++ "/summary.json"))]).merge
            (JsonDict.ofMembers evidence.pricing)) }

/-- `session.add` and `session.flush`. -/
def Evidence.flush (evidence : Evidence) : Except Raised SpendRecord :=
  (evidence.spendRecord surroundings job).bind fun record =>
    if surroundings.accepts record then .ok record else .error .uncaught

structure Scan where
  records : List SpendRecord
  inserted : ℕ := 0
  evidenceFound : Bool := false

/-- The loop over the combinations of a job, with what it raises. -/
def scanReadings (dryRun : Bool) : List Reading → Scan → Scan × Option Raised
  | [], scan => (scan, none)
  | .error raised :: _, scan => (scan, some raised)
  | .ok none :: rest, scan => scanReadings dryRun rest scan
  | .ok (some evidence) :: rest, scan =>
      if evidence.eventId surroundings job ∈ scan.records.map SpendRecord.id then
        scanReadings dryRun rest { scan with evidenceFound := true }
      else if dryRun then
        scanReadings dryRun rest
          { scan with evidenceFound := true, inserted := scan.inserted + 1 }
      else
        match evidence.flush surroundings job with
        | .error raised => ({ scan with evidenceFound := true }, some raised)
        | .ok record =>
            scanReadings dryRun rest
              { records := scan.records ++ [record]
                inserted := scan.inserted + 1
                evidenceFound := true }

inductive Reason where
  | liveRecordsPresent
  | missingArtifacts
  | noVerifiableCost
  | unverifiableArtifacts
  deriving DecidableEq

structure Progress where
  records : List SpendRecord
  inserted : ℕ := 0
  skipped : List (String × Reason) := []

/-- A record of the job that no backfill has stored. -/
def live (records : List SpendRecord) : Bool :=
  records.any fun record =>
    record.source = .experiments && record.taskId = job.id && record.userId = job.userId &&
      !((record.pricing.getD ∅).get "origin").isStr "historical_snapshot"

/-- One round of the loop over the jobs, unless it raises. -/
def backfillJob (dryRun : Bool) (progress : Progress) (job : Experiment) : Option Progress :=
  let skip reason := { progress with skipped := progress.skipped ++ [(job.id, reason)] }
  if live job progress.records then some (skip .liveRecordsPresent)
  else
    match job.artifactRoot with
    | none => some (skip .missingArtifacts)
    | some root =>
        let (scan, raised) :=
          scanReadings surroundings job dryRun (artifactReadings surroundings root)
            { records := progress.records }
        let after :=
          { progress with records := scan.records, inserted := progress.inserted + scan.inserted }
        match raised with
        | some .uncaught => none
        | some .caught =>
            some { after with skipped := progress.skipped ++ [(job.id, .unverifiableArtifacts)] }
        | none =>
            if scan.evidenceFound then some after
            else some { after with skipped := progress.skipped ++ [(job.id, .noVerifiableCost)] }

structure Report where
  inserted : ℕ
  skipped : List (String × Reason)
  dryRun : Bool

/-- The experiments without complete cost tracking. -/
def Database.pending (database : Database) : List Experiment :=
  database.experiments.filter fun job => !job.costTrackingComplete

/-- `backfill_spend` is one transaction: what it raises rolls everything back. -/
def backfillSpend (dryRun : Bool) (database : Database) : Option Report × Database :=
  match database.pending.foldlM (backfillJob surroundings dryRun)
      { records := database.spendRecords } with
  | none => (none, database)
  | some progress =>
      (some { inserted := progress.inserted, skipped := progress.skipped, dryRun },
        { database with spendRecords := progress.records })

/-! ## What the readings of a job offer -/

/-- The evidence before the first combination that cannot be read. -/
def verified : List Reading → List Evidence
  | .ok (some evidence) :: rest => evidence :: verified rest
  | .ok none :: rest => verified rest
  | _ => []

/-- What the first combination that cannot be read raises. -/
def failure : List Reading → Option Raised
  | [] => none
  | .error raised :: _ => some raised
  | .ok _ :: rest => failure rest

/-- The evidence whose event is not in the table. -/
def fresh (known : List String) (readings : List Reading) : List Evidence :=
  (verified readings).filter fun evidence => evidence.eventId surroundings job ∉ known

/-- The database takes the record. -/
def Storable (evidence : Evidence) : Prop :=
  ∃ record, evidence.flush surroundings job = .ok record

/-- What ends the loop when it stores records: a combination that cannot be read, or new evidence
that cannot be stored. -/
def obstacle : List String → List Reading → Option Raised
  | _, [] => none
  | _, .error raised :: _ => some raised
  | known, .ok none :: rest => obstacle known rest
  | known, .ok (some evidence) :: rest =>
      if evidence.eventId surroundings job ∈ known then obstacle known rest
      else
        match evidence.flush surroundings job with
        | .error raised => some raised
        | .ok record => obstacle (known ++ [record.id]) rest

/-- The records the loop stores. -/
def recorded : List String → List Reading → List SpendRecord
  | _, [] => []
  | _, .error _ :: _ => []
  | known, .ok none :: rest => recorded known rest
  | known, .ok (some evidence) :: rest =>
      if evidence.eventId surroundings job ∈ known then recorded known rest
      else
        match evidence.flush surroundings job with
        | .error _ => []
        | .ok record => record :: recorded (known ++ [record.id]) rest

section Readings

variable {surroundings : Surroundings} {job : Experiment} {known : List String}

theorem Evidence.flush_ok {evidence : Evidence} {record : SpendRecord}
    (hflush : evidence.flush surroundings job = .ok record) :
    record.id = evidence.eventId surroundings job ∧ record.taskId = job.id := by
  cases hrecord : evidence.spendRecord surroundings job with
  | error raised =>
      rw [Evidence.flush, hrecord] at hflush
      cases hflush
  | ok offered =>
      rw [Evidence.flush, hrecord] at hflush
      change (if surroundings.accepts offered then Except.ok offered else .error Raised.uncaught)
        = _ at hflush
      split_ifs at hflush
      cases hflush
      rw [Evidence.spendRecord, map_eq_ok] at hrecord
      obtain ⟨model, -, rfl⟩ := hrecord
      exact ⟨rfl, rfl⟩

theorem fresh_cons_known {evidence : Evidence} {rest : List Reading}
    (hknown : evidence.eventId surroundings job ∈ known) :
    fresh surroundings job known (.ok (some evidence) :: rest) =
      fresh surroundings job known rest := by
  rw [fresh, verified]
  exact List.filter_cons_of_neg fun hnew => of_decide_eq_true hnew hknown

theorem fresh_cons_new {evidence : Evidence} {rest : List Reading}
    (hnew : evidence.eventId surroundings job ∉ known) :
    fresh surroundings job known (.ok (some evidence) :: rest) =
      evidence :: fresh surroundings job known rest := by
  rw [fresh, verified]
  exact List.filter_cons_of_pos (decide_eq_true hnew)

theorem scanReadings_store (readings : List Reading) (scan : Scan) :
    scanReadings surroundings job false readings scan =
      ({ records :=
          scan.records ++ recorded surroundings job (scan.records.map SpendRecord.id) readings
         inserted := scan.inserted +
          (recorded surroundings job (scan.records.map SpendRecord.id) readings).length
         evidenceFound := (scanReadings surroundings job false readings scan).1.evidenceFound },
        obstacle surroundings job (scan.records.map SpendRecord.id) readings) := by
  induction readings generalizing scan with
  | nil =>
      rw [scanReadings, recorded, obstacle, List.append_nil]
      rfl
  | cons reading rest ih =>
      match reading with
      | .error raised =>
          rw [scanReadings, recorded, obstacle, List.append_nil]
          rfl
      | .ok none => exact ih scan
      | .ok (some evidence) =>
          rw [scanReadings, recorded, obstacle]
          by_cases hknown : evidence.eventId surroundings job ∈ scan.records.map SpendRecord.id
          · rw [if_pos hknown, if_pos hknown, if_pos hknown]
            exact ih _
          · rw [if_neg hknown, if_neg hknown, if_neg hknown, if_neg Bool.false_ne_true]
            cases hflush : evidence.flush surroundings job with
            | error raised =>
                rw [List.append_nil]
                rfl
            | ok record =>
                dsimp only
                rw [ih, List.map_append, List.map_singleton, List.append_assoc,
                  List.singleton_append, List.length_cons, Nat.add_assoc, Nat.add_comm 1]

theorem scanReadings_dryRun (readings : List Reading) (scan : Scan) :
    scanReadings surroundings job true readings scan =
      ({ records := scan.records
         inserted := scan.inserted +
          (fresh surroundings job (scan.records.map SpendRecord.id) readings).length
         evidenceFound := (scanReadings surroundings job true readings scan).1.evidenceFound },
        failure readings) := by
  induction readings generalizing scan with
  | nil => rfl
  | cons reading rest ih =>
      match reading with
      | .error raised => rfl
      | .ok none => exact ih scan
      | .ok (some evidence) =>
          rw [scanReadings, failure]
          by_cases hknown : evidence.eventId surroundings job ∈ scan.records.map SpendRecord.id
          · rw [if_pos hknown, fresh_cons_known hknown]
            exact ih _
          · rw [if_neg hknown, if_pos rfl, fresh_cons_new hknown, ih, List.length_cons,
              Nat.add_assoc, Nat.add_comm 1]

/-- Evidence is found unless something is raised first. -/
theorem scanReadings_evidenceFound {dryRun : Bool} (readings : List Reading) {scan : Scan}
    (hreached : (scanReadings surroundings job dryRun readings scan).2 = none) :
    (scanReadings surroundings job dryRun readings scan).1.evidenceFound =
      (scan.evidenceFound || !(verified readings).isEmpty) := by
  induction readings generalizing scan with
  | nil => exact (Bool.or_false _).symm
  | cons reading rest ih =>
      match reading with
      | .error raised => cases hreached
      | .ok none => exact ih hreached
      | .ok (some evidence) =>
          have hfound : (scan.evidenceFound || !(verified (.ok (some evidence) :: rest)).isEmpty) =
              true := by rw [verified, List.isEmpty_cons, Bool.not_false, Bool.or_true]
          rw [hfound]
          rw [scanReadings] at hreached ⊢
          split_ifs at hreached ⊢
          · rw [ih hreached, Bool.true_or]
          · rw [ih hreached, Bool.true_or]
          · cases hflush : evidence.flush surroundings job with
            | error raised => rfl
            | ok record =>
                rw [hflush] at hreached
                rw [ih hreached, Bool.true_or]

/-! ### Counting -/

/-- New evidence is stored once and the database takes it. -/
structure Distinct (surroundings : Surroundings) (job : Experiment) (known : List String)
    (readings : List Reading) : Prop where
  once : ((fresh surroundings job known readings).map fun evidence =>
    evidence.eventId surroundings job).Nodup
  storable : ∀ evidence ∈ fresh surroundings job known readings,
    Storable surroundings job evidence

/-- What is still new once an event is stored. -/
theorem fresh_append (event : String) (readings : List Reading) :
    fresh surroundings job (known ++ [event]) readings =
      (fresh surroundings job known readings).filter fun evidence =>
        evidence.eventId surroundings job ≠ event := by
  rw [fresh, fresh, List.filter_filter]
  apply List.filter_congr
  intro evidence _
  rw [← Bool.decide_and]
  apply decide_eq_decide.mpr
  rw [List.mem_append, List.mem_singleton, not_or, and_comm]

theorem length_recorded_le (readings : List Reading) :
    (recorded surroundings job known readings).length ≤
      (fresh surroundings job known readings).length := by
  induction readings generalizing known with
  | nil => exact Nat.le_refl 0
  | cons reading rest ih =>
      match reading with
      | .error raised => exact Nat.le_refl 0
      | .ok none => exact ih
      | .ok (some evidence) =>
          rw [recorded]
          by_cases hknown : evidence.eventId surroundings job ∈ known
          · rw [if_pos hknown, fresh_cons_known hknown]
            exact ih
          · rw [if_neg hknown, fresh_cons_new hknown]
            cases evidence.flush surroundings job with
            | error raised => exact Nat.zero_le _
            | ok record =>
                apply Nat.succ_le_succ
                apply ih.trans
                rw [fresh_append]
                exact List.length_filter_le _ _

theorem distinct_cons_new {evidence : Evidence} {rest : List Reading} {record : SpendRecord}
    (hnew : evidence.eventId surroundings job ∉ known)
    (hflush : evidence.flush surroundings job = .ok record) :
    Distinct surroundings job known (.ok (some evidence) :: rest) ↔
      fresh surroundings job (known ++ [record.id]) rest = fresh surroundings job known rest ∧
        Distinct surroundings job known rest := by
  have hother : fresh surroundings job (known ++ [record.id]) rest =
      fresh surroundings job known rest ↔ ∀ later ∈ fresh surroundings job known rest,
        later.eventId surroundings job ≠ evidence.eventId surroundings job := by
    rw [fresh_append, List.filter_eq_self, (Evidence.flush_ok hflush).1]
    exact forall₂_congr fun later _ => decide_eq_true_iff
  rw [hother]
  constructor
  · intro hdistinct
    have honce := hdistinct.once
    have hstorable := hdistinct.storable
    rw [fresh_cons_new hnew, List.map_cons, List.nodup_cons] at honce
    rw [fresh_cons_new hnew, List.forall_mem_cons] at hstorable
    refine ⟨?_, honce.2, hstorable.2⟩
    intro later hlater hsame
    exact honce.1 (hsame ▸ List.mem_map_of_mem hlater)
  · intro ⟨hlater, hdistinct⟩
    constructor
    · rw [fresh_cons_new hnew, List.map_cons, List.nodup_cons]
      refine ⟨?_, hdistinct.once⟩
      intro hmem
      obtain ⟨later, hmem, hsame⟩ := List.mem_map.mp hmem
      exact hlater later hmem hsame
    · rw [fresh_cons_new hnew, List.forall_mem_cons]
      exact ⟨⟨record, hflush⟩, hdistinct.storable⟩

/-- `Distinct` reads the new evidence only. -/
theorem distinct_congr {others : List String} {readings rest : List Reading}
    (hfresh : fresh surroundings job known readings = fresh surroundings job others rest) :
    Distinct surroundings job known readings ↔ Distinct surroundings job others rest := by
  constructor
  · exact fun hdistinct => ⟨hfresh ▸ hdistinct.once, hfresh ▸ hdistinct.storable⟩
  · exact fun hdistinct => ⟨hfresh.symm ▸ hdistinct.once, hfresh.symm ▸ hdistinct.storable⟩

theorem Distinct.nil (readings : List Reading)
    (hnone : fresh surroundings job known readings = []) :
    Distinct surroundings job known readings := by
  constructor
  · rw [hnone]
    exact List.nodup_nil
  · rw [hnone]
    exact fun _ hmem => absurd hmem List.not_mem_nil

/-- All new evidence is stored exactly if it is distinct and storable. -/
theorem length_recorded_eq_iff (readings : List Reading) :
    (recorded surroundings job known readings).length =
        (fresh surroundings job known readings).length ↔
      Distinct surroundings job known readings := by
  induction readings generalizing known with
  | nil => exact iff_of_true rfl (.nil _ rfl)
  | cons reading rest ih =>
      match reading with
      | .error raised => exact iff_of_true rfl (.nil _ rfl)
      | .ok none => exact ih.trans (distinct_congr rfl)
      | .ok (some evidence) =>
          rw [recorded]
          by_cases hknown : evidence.eventId surroundings job ∈ known
          · rw [if_pos hknown, distinct_congr (fresh_cons_known hknown), fresh_cons_known hknown]
            exact ih
          · rw [if_neg hknown]
            cases hflush : evidence.flush surroundings job with
            | error raised =>
                apply iff_of_false
                · rw [fresh_cons_new hknown]
                  exact (Nat.succ_ne_zero _).symm
                · intro hdistinct
                  have hstorable := hdistinct.storable
                  rw [fresh_cons_new hknown, List.forall_mem_cons] at hstorable
                  obtain ⟨record, hstored⟩ := hstorable.1
                  cases hflush.symm.trans hstored
            | ok record =>
                rw [distinct_cons_new hknown hflush, fresh_cons_new hknown, List.length_cons,
                  List.length_cons, Nat.succ_inj]
                have hsub : (fresh surroundings job (known ++ [record.id]) rest).Sublist
                    (fresh surroundings job known rest) := by
                  rw [fresh_append]
                  exact List.filter_sublist
                constructor
                · intro hlength
                  have hall := hsub.length_le.antisymm
                    (hlength.symm.trans_le (length_recorded_le rest))
                  have hfresh := hsub.eq_of_length hall
                  refine ⟨hfresh, ?_⟩
                  rw [← distinct_congr hfresh, ← ih, hlength, hall]
                · intro ⟨hfresh, hdistinct⟩
                  rw [ih.mpr ((distinct_congr hfresh).mpr hdistinct), hfresh]

/-- Then only a combination that cannot be read ends the loop. -/
theorem Distinct.obstacle_eq {readings : List Reading}
    (hdistinct : Distinct surroundings job known readings) :
    obstacle surroundings job known readings = failure readings := by
  induction readings generalizing known with
  | nil => rfl
  | cons reading rest ih =>
      match reading with
      | .error raised => rfl
      | .ok none => exact ih ⟨hdistinct.once, hdistinct.storable⟩
      | .ok (some evidence) =>
          rw [obstacle, failure]
          by_cases hknown : evidence.eventId surroundings job ∈ known
          · rw [if_pos hknown]
            exact ih ((distinct_congr (fresh_cons_known hknown)).mp hdistinct)
          · rw [if_neg hknown]
            cases hflush : evidence.flush surroundings job with
            | error raised =>
                have hstorable := hdistinct.storable
                rw [fresh_cons_new hknown, List.forall_mem_cons] at hstorable
                obtain ⟨record, hstored⟩ := hstorable.1
                cases hflush.symm.trans hstored
            | ok record =>
                obtain ⟨hfresh, hrest⟩ := (distinct_cons_new hknown hflush).mp hdistinct
                exact ih ((distinct_congr hfresh).mpr hrest)

/-- Nothing is stored exactly if the first new evidence cannot be. -/
theorem recorded_eq_nil_iff (readings : List Reading) :
    recorded surroundings job known readings = [] ↔
      ∀ evidence ∈ (fresh surroundings job known readings).head?,
        ¬Storable surroundings job evidence := by
  induction readings with
  | nil => exact iff_of_true rfl fun _ hmem => absurd hmem (Option.not_mem_none _)
  | cons reading rest ih =>
      match reading with
      | .error raised => exact iff_of_true rfl fun _ hmem => absurd hmem (Option.not_mem_none _)
      | .ok none => exact ih
      | .ok (some evidence) =>
          rw [recorded]
          by_cases hknown : evidence.eventId surroundings job ∈ known
          · rw [if_pos hknown, fresh_cons_known hknown]
            exact ih
          · rw [if_neg hknown, fresh_cons_new hknown, List.head?_cons]
            cases hflush : evidence.flush surroundings job with
            | error raised =>
                apply iff_of_true rfl
                intro first hfirst ⟨record, hstored⟩
                obtain rfl := Option.mem_some.mp hfirst
                cases hflush.symm.trans hstored
            | ok record =>
                apply iff_of_false (List.cons_ne_nil _ _)
                intro hnone
                exact hnone evidence (Option.mem_some_self _) ⟨record, hflush⟩

/-! ### What a table says to a job -/

/-- The same events of the job are stored. -/
def SameEvents (surroundings : Surroundings) (job : Experiment) (known others : List String) :
    Prop :=
  ∀ comboId, surroundings.eventId job.id comboId ∈ known ↔
    surroundings.eventId job.id comboId ∈ others

theorem SameEvents.append {others : List String}
    (hsame : SameEvents surroundings job known others) (event : String) :
    SameEvents surroundings job (known ++ [event]) (others ++ [event]) := by
  intro comboId
  rw [List.mem_append, List.mem_append, hsame comboId]

theorem SameEvents.fresh {others : List String}
    (hsame : SameEvents surroundings job known others) (readings : List Reading) :
    fresh surroundings job known readings = fresh surroundings job others readings := by
  apply List.filter_congr
  intro evidence _
  exact decide_eq_decide.mpr (not_congr (hsame evidence.comboId))

theorem SameEvents.recorded_obstacle {others : List String}
    (hsame : SameEvents surroundings job known others) (readings : List Reading) :
    recorded surroundings job known readings = recorded surroundings job others readings ∧
      obstacle surroundings job known readings = obstacle surroundings job others readings := by
  induction readings generalizing known others with
  | nil => exact ⟨rfl, rfl⟩
  | cons reading rest ih =>
      match reading with
      | .error raised => exact ⟨rfl, rfl⟩
      | .ok none => exact ih hsame
      | .ok (some evidence) =>
          have hevent : evidence.eventId surroundings job ∈ known ↔
              evidence.eventId surroundings job ∈ others := hsame evidence.comboId
          rw [recorded, recorded, obstacle, obstacle]
          by_cases hknown : evidence.eventId surroundings job ∈ known
          · rw [if_pos hknown, if_pos (hevent.mp hknown), if_pos hknown,
              if_pos (hevent.mp hknown)]
            exact ih hsame
          · rw [if_neg hknown, if_neg (hknown ∘ hevent.mpr), if_neg hknown,
              if_neg (hknown ∘ hevent.mpr)]
            cases evidence.flush surroundings job with
            | error raised => exact ⟨rfl, rfl⟩
            | ok record =>
                obtain ⟨hrecorded, hobstacle⟩ := ih (hsame.append record.id)
                exact ⟨congrArg (record :: ·) hrecorded, hobstacle⟩

/-- A record stored for the job. -/
theorem eventId_of_mem_recorded {readings : List Reading} {record : SpendRecord}
    (hmem : record ∈ recorded surroundings job known readings) :
    record.taskId = job.id ∧ record.id ∉ known ∧
      ∃ comboId, record.id = surroundings.eventId job.id comboId := by
  induction readings generalizing known with
  | nil => exact absurd hmem List.not_mem_nil
  | cons reading rest ih =>
      match reading with
      | .error raised => exact absurd hmem List.not_mem_nil
      | .ok none => exact ih hmem
      | .ok (some evidence) =>
          rw [recorded] at hmem
          split_ifs at hmem with hknown
          · exact ih hmem
          · cases hflush : evidence.flush surroundings job with
            | error raised =>
                rw [hflush] at hmem
                exact absurd hmem List.not_mem_nil
            | ok stored =>
                obtain ⟨hid, htask⟩ := Evidence.flush_ok hflush
                rw [hflush] at hmem
                cases List.mem_cons.mp hmem with
                | inl hfirst =>
                    subst hfirst
                    exact ⟨htask, hid ▸ hknown, evidence.comboId, hid⟩
                | inr hlater =>
                    obtain ⟨hjob, hnew, hevent⟩ := ih hlater
                    exact ⟨hjob, fun hold => hnew (List.mem_append_left _ hold), hevent⟩

theorem nodup_recorded (readings : List Reading) :
    ((recorded surroundings job known readings).map SpendRecord.id).Nodup := by
  induction readings generalizing known with
  | nil => exact List.nodup_nil
  | cons reading rest ih =>
      match reading with
      | .error raised => exact List.nodup_nil
      | .ok none => exact ih
      | .ok (some evidence) =>
          rw [recorded]
          split_ifs with hknown
          · exact ih
          · cases evidence.flush surroundings job with
            | error raised => exact List.nodup_nil
            | ok record =>
                rw [List.map_cons, List.nodup_cons]
                refine ⟨?_, ih⟩
                intro hmem
                obtain ⟨later, hlater, hsame⟩ := List.mem_map.mp hmem
                have hnew := (eventId_of_mem_recorded hlater).2.1
                exact hnew (List.mem_append_right _ (List.mem_singleton.mpr hsame))

/-- Over what it stored, the loop stores nothing. -/
theorem recorded_again {others : List String} {readings : List Reading}
    (hholds : SameEvents surroundings job others
      (known ++ (recorded surroundings job known readings).map SpendRecord.id)) :
    recorded surroundings job others readings = [] := by
  induction readings generalizing known with
  | nil => rfl
  | cons reading rest ih =>
      match reading with
      | .error raised => rfl
      | .ok none => exact ih hholds
      | .ok (some evidence) =>
          have hevent : evidence.eventId surroundings job ∈ others ↔
              evidence.eventId surroundings job ∈ known ++ _ := hholds evidence.comboId
          rw [recorded] at hholds hevent ⊢
          by_cases hknown : evidence.eventId surroundings job ∈ known
          · rw [if_pos hknown] at hholds
            rw [if_pos (hevent.mpr (List.mem_append_left _ hknown))]
            exact ih hholds
          · rw [if_neg hknown] at hholds hevent
            cases hflush : evidence.flush surroundings job with
            | error raised =>
                rw [hflush] at hevent
                rw [List.map_nil, List.append_nil] at hevent
                rw [if_neg (hknown ∘ hevent.mp)]
            | ok record =>
                have hid := (Evidence.flush_ok hflush).1
                rw [hflush] at hholds hevent
                rw [List.map_cons, hid] at hevent
                rw [if_pos (hevent.mpr (List.mem_append_right _ List.mem_cons_self))]
                rw [List.map_cons, ← List.singleton_append, ← List.append_assoc] at hholds
                exact ih hholds

end Readings

/-! ## What a job does -/

/-- The readings of a job that is not skipped unread. -/
def jobReadings (records : List SpendRecord) : List Reading :=
  if live job records then []
  else
    match job.artifactRoot with
    | none => []
    | some root => artifactReadings surroundings root

/-- The job over a table: the new evidence of a dry run, ... -/
def jobFresh (records : List SpendRecord) : List Evidence :=
  fresh surroundings job (records.map SpendRecord.id) (jobReadings surroundings job records)

/-- ... the records of a real one ... -/
def jobRecorded (records : List SpendRecord) : List SpendRecord :=
  recorded surroundings job (records.map SpendRecord.id) (jobReadings surroundings job records)

/-- ... and what ends the loop. -/
def jobStop (dryRun : Bool) (records : List SpendRecord) : Option Raised :=
  if dryRun then failure (jobReadings surroundings job records)
  else
    obstacle surroundings job (records.map SpendRecord.id) (jobReadings surroundings job records)

/-- The reason a job is reported with. -/
def jobSkipped (dryRun : Bool) (records : List SpendRecord) : Option Reason :=
  if live job records then some .liveRecordsPresent
  else
    match job.artifactRoot with
    | none => some .missingArtifacts
    | some _ =>
        if (jobStop surroundings job dryRun records).isSome then some .unverifiableArtifacts
        else if (verified (jobReadings surroundings job records)).isEmpty then
          some .noVerifiableCost
        else none

/-- What a job that raises nothing leaves. -/
def Progress.afterJob (dryRun : Bool) (progress : Progress) (records : List SpendRecord) :
    Progress where
  records :=
    progress.records ++ if dryRun then [] else jobRecorded surroundings job records
  inserted :=
    progress.inserted +
      if dryRun then (jobFresh surroundings job records).length
      else (jobRecorded surroundings job records).length
  skipped :=
    progress.skipped ++
      ((jobSkipped surroundings job dryRun records).map fun reason => (job.id, reason)).toList

variable {surroundings job}

theorem backfillJob_eq (dryRun : Bool) (progress : Progress) (job : Experiment) :
    backfillJob surroundings dryRun progress job =
      if jobStop surroundings job dryRun progress.records = some .uncaught then none
      else some (progress.afterJob surroundings job dryRun progress.records) := by
  -- a job without readings stops at nothing and adds nothing
  have hunread : ∀ reason, jobReadings surroundings job progress.records = [] →
      jobSkipped surroundings job dryRun progress.records = some reason →
      some { progress with skipped := progress.skipped ++ [(job.id, reason)] } =
        if jobStop surroundings job dryRun progress.records = some .uncaught then none
        else some (progress.afterJob surroundings job dryRun progress.records) := by
    intro reason hreadings hskipped
    have hstop : jobStop surroundings job dryRun progress.records = none := by
      rw [jobStop, hreadings]
      exact ite_self _
    rw [hstop, if_neg (Option.some_ne_none _).symm, Progress.afterJob, jobRecorded, jobFresh,
      hreadings, hskipped]
    cases dryRun with
    | false =>
        rw [recorded, if_neg Bool.false_ne_true, List.append_nil]
        rfl
    | true =>
        rw [if_pos rfl, List.append_nil]
        rfl
  rw [backfillJob]
  cases hlive : live job progress.records with
  | true =>
      rw [if_pos rfl]
      apply hunread
      · rw [jobReadings, hlive, if_pos rfl]
      · rw [jobSkipped, hlive, if_pos rfl]
  | false =>
      rw [if_neg Bool.false_ne_true]
      cases hroot : job.artifactRoot with
      | none =>
          apply hunread
          · rw [jobReadings, hlive, if_neg Bool.false_ne_true, hroot]
          · rw [jobSkipped, hlive, if_neg Bool.false_ne_true, hroot]
      | some root =>
          have hreadings : jobReadings surroundings job progress.records =
              artifactReadings surroundings root := by
            rw [jobReadings, hlive, if_neg Bool.false_ne_true, hroot]
          have hscan : scanReadings surroundings job dryRun (artifactReadings surroundings root)
              { records := progress.records } =
              ({ records := (progress.afterJob surroundings job dryRun progress.records).records
                 inserted :=
                  if dryRun then (jobFresh surroundings job progress.records).length
                  else (jobRecorded surroundings job progress.records).length
                 evidenceFound :=
                  (scanReadings surroundings job dryRun (artifactReadings surroundings root)
                    { records := progress.records }).1.evidenceFound },
                jobStop surroundings job dryRun progress.records) := by
            rw [Progress.afterJob, jobStop, jobRecorded, jobFresh, hreadings]
            cases dryRun with
            | false =>
                rw [scanReadings_store, Nat.zero_add]
                rfl
            | true =>
                rw [scanReadings_dryRun, Nat.zero_add, if_pos rfl, List.append_nil]
                rfl
          have hafter : ∀ reason, jobSkipped surroundings job dryRun progress.records = reason →
              progress.afterJob surroundings job dryRun progress.records =
                { records := (progress.afterJob surroundings job dryRun progress.records).records
                  inserted := progress.inserted +
                    if dryRun then (jobFresh surroundings job progress.records).length
                    else (jobRecorded surroundings job progress.records).length
                  skipped :=
                    progress.skipped ++ (reason.map fun reason => (job.id, reason)).toList } := by
            intro reason hreason
            rw [← hreason]
            rfl
          have hskipped : jobSkipped surroundings job dryRun progress.records =
              if (jobStop surroundings job dryRun progress.records).isSome then
                some .unverifiableArtifacts
              else if (verified (artifactReadings surroundings root)).isEmpty then
                some .noVerifiableCost
              else none := by
            rw [jobSkipped, hlive, if_neg Bool.false_ne_true, hroot, hreadings]
          dsimp only
          cases hstop : jobStop surroundings job dryRun progress.records with
          | some raised =>
              rw [hstop, Option.isSome_some, if_pos rfl] at hskipped
              rw [hafter _ hskipped, hscan, hstop]
              cases raised with
              | uncaught => rfl
              | caught => rfl
          | none =>
              rw [hstop, Option.isSome_none, if_neg Bool.false_ne_true] at hskipped
              have hfound := scanReadings_evidenceFound (artifactReadings surroundings root)
                ((congrArg Prod.snd hscan).trans hstop)
              rw [hafter _ hskipped, hscan, hfound, hstop, Bool.false_or]
              cases (verified (artifactReadings surroundings root)).isEmpty with
              | true => rfl
              | false =>
                  rw [if_neg Bool.false_ne_true, Option.map_none, Option.toList_none,
                    List.append_nil]
                  rfl

theorem jobSkipped_eq_unverifiable {dryRun : Bool} {records : List SpendRecord} :
    jobSkipped surroundings job dryRun records = some .unverifiableArtifacts ↔
      (jobStop surroundings job dryRun records).isSome = true := by
  have hunread : jobReadings surroundings job records = [] →
      jobStop surroundings job dryRun records = none := by
    intro hreadings
    rw [jobStop, hreadings]
    exact ite_self _
  cases hlive : live job records with
  | true =>
      have hstop := hunread (by rw [jobReadings, hlive, if_pos rfl])
      rw [jobSkipped, hlive, if_pos rfl, hstop]
      exact iff_of_false (by decide) (by decide)
  | false =>
      cases hroot : job.artifactRoot with
      | none =>
          have hstop := hunread (by rw [jobReadings, hlive, if_neg Bool.false_ne_true, hroot])
          rw [jobSkipped, hlive, if_neg Bool.false_ne_true, hroot, hstop]
          exact iff_of_false (fun hreason => by cases hreason) (by decide)
      | some root =>
          rw [jobSkipped, hlive, if_neg Bool.false_ne_true, hroot]
          dsimp only
          split_ifs with hstop hnone
          · exact iff_of_true rfl hstop
          · exact iff_of_false (by decide) hstop
          · exact iff_of_false (by decide) hstop

/-- Two tables say the same to a job. -/
structure Agrees (surroundings : Surroundings) (job : Experiment)
    (records others : List SpendRecord) : Prop where
  live : live job records = live job others
  events : SameEvents surroundings job (records.map SpendRecord.id)
    (others.map SpendRecord.id)

section Agrees

variable {records others : List SpendRecord} (hagrees : Agrees surroundings job records others)

include hagrees

theorem Agrees.jobReadings :
    jobReadings surroundings job records = jobReadings surroundings job others := by
  rw [SpendRecords.jobReadings, SpendRecords.jobReadings, hagrees.live]

theorem Agrees.jobFresh :
    jobFresh surroundings job records = jobFresh surroundings job others := by
  rw [SpendRecords.jobFresh, SpendRecords.jobFresh, hagrees.jobReadings]
  exact hagrees.events.fresh _

theorem Agrees.jobRecorded :
    jobRecorded surroundings job records = jobRecorded surroundings job others := by
  rw [SpendRecords.jobRecorded, SpendRecords.jobRecorded, hagrees.jobReadings]
  exact (hagrees.events.recorded_obstacle _).1

theorem Agrees.jobStop (dryRun : Bool) :
    jobStop surroundings job dryRun records = jobStop surroundings job dryRun others := by
  rw [SpendRecords.jobStop, SpendRecords.jobStop, hagrees.jobReadings]
  rw [(hagrees.events.recorded_obstacle _).2]

theorem Agrees.jobSkipped (dryRun : Bool) :
    jobSkipped surroundings job dryRun records = jobSkipped surroundings job dryRun others := by
  rw [SpendRecords.jobSkipped, SpendRecords.jobSkipped, hagrees.live, hagrees.jobReadings,
    hagrees.jobStop]

theorem Agrees.afterJob (dryRun : Bool) (progress : Progress) :
    progress.afterJob surroundings job dryRun records =
      progress.afterJob surroundings job dryRun others := by
  rw [Progress.afterJob, Progress.afterJob, hagrees.jobRecorded, hagrees.jobFresh,
    hagrees.jobSkipped]

end Agrees

/-- Two jobs have different ids and different events. -/
structure Apart (surroundings : Surroundings) (job other : Experiment) : Prop where
  ids : job.id ≠ other.id
  events : ∀ comboId otherId,
    surroundings.eventId job.id comboId ≠ surroundings.eventId other.id otherId

/-- The records of one job say nothing to another. -/
theorem Agrees.append {other : Experiment} {records others : List SpendRecord}
    (hagrees : Agrees surroundings other records others) (hapart : Apart surroundings job other)
    {stored : List SpendRecord}
    (hstored : ∀ record ∈ stored, record.taskId = job.id ∧
      ∃ comboId, record.id = surroundings.eventId job.id comboId) :
    Agrees surroundings other (records ++ stored) others := by
  constructor
  · rw [← hagrees.live, SpendRecords.live, SpendRecords.live, List.any_append,
      Bool.or_eq_left_iff_imp]
    intro hlive
    obtain ⟨record, hrecord, hcolumns⟩ := List.any_eq_true.mp hlive
    rw [Bool.and_eq_true, Bool.and_eq_true, Bool.and_eq_true, decide_eq_true_iff,
      decide_eq_true_iff] at hcolumns
    have htask := (hstored record hrecord).1
    exact absurd (htask.symm.trans hcolumns.1.1.2) hapart.ids
  · intro comboId
    rw [← hagrees.events comboId, List.map_append, List.mem_append, or_iff_left]
    intro hmem
    obtain ⟨record, hrecord, hid⟩ := List.mem_map.mp hmem
    obtain ⟨-, storedId, hevent⟩ := hstored record hrecord
    exact hapart.events storedId comboId (hevent.symm.trans hid)

theorem Agrees.afterOther {dryRun : Bool} {progress : Progress} {other : Experiment}
    {records : List SpendRecord} (hagrees : Agrees surroundings other progress.records records)
    (hapart : Apart surroundings job other) :
    Agrees surroundings other
      (progress.afterJob surroundings job dryRun records).records records := by
  apply hagrees.append hapart
  intro record hrecord
  cases dryRun with
  | true => exact absurd hrecord List.not_mem_nil
  | false =>
      obtain ⟨htask, -, hevent⟩ := eventId_of_mem_recorded hrecord
      exact ⟨htask, hevent⟩

/-! ## Whole runs -/

/-- A job aborts the run. -/
def Aborts (surroundings : Surroundings) (dryRun : Bool) (records : List SpendRecord)
    (jobs : List Experiment) : Prop :=
  ∃ job ∈ jobs, jobStop surroundings job dryRun records = some .uncaught

instance (dryRun : Bool) (records : List SpendRecord) (jobs : List Experiment) :
    Decidable (Aborts surroundings dryRun records jobs) :=
  inferInstanceAs (Decidable (∃ job ∈ jobs, _))

/-- The jobs one after the other, each over the same table. -/
def Progress.afterJobs (surroundings : Surroundings) (dryRun : Bool)
    (records : List SpendRecord) (progress : Progress) (jobs : List Experiment) : Progress :=
  jobs.foldl (fun progress job => progress.afterJob surroundings job dryRun records) progress

theorem foldlM_backfillJob (dryRun : Bool) {records : List SpendRecord} {jobs : List Experiment}
    {progress : Progress} (hapart : jobs.Pairwise (Apart surroundings))
    (hagrees : ∀ job ∈ jobs, Agrees surroundings job progress.records records) :
    jobs.foldlM (backfillJob surroundings dryRun) progress =
      if Aborts surroundings dryRun records jobs then none
      else some (progress.afterJobs surroundings dryRun records jobs) := by
  induction jobs generalizing progress with
  | nil =>
      rw [if_neg fun ⟨_, hmem, _⟩ => List.not_mem_nil hmem]
      rfl
  | cons job jobs ih =>
      rw [List.pairwise_cons] at hapart
      rw [List.forall_mem_cons] at hagrees
      have hstop := hagrees.1.jobStop dryRun
      have haborts : Aborts surroundings dryRun records (job :: jobs) ↔
          jobStop surroundings job dryRun records = some .uncaught ∨
            Aborts surroundings dryRun records jobs := List.exists_mem_cons_iff _ _ _
      rw [List.foldlM_cons, backfillJob_eq, hstop]
      by_cases hfirst : jobStop surroundings job dryRun records = some .uncaught
      · rw [if_pos hfirst, if_pos (haborts.mpr (.inl hfirst))]
        rfl
      · rw [if_neg hfirst, hagrees.1.afterJob]
        change List.foldlM _ _ jobs = _
        rw [ih hapart.2 fun other hother =>
          (hagrees.2 other hother).afterOther (hapart.1 other hother)]
        apply if_congr (haborts.trans (or_iff_right hfirst)).symm rfl rfl

theorem records_afterJobs (dryRun : Bool) (records : List SpendRecord) (progress : Progress)
    (jobs : List Experiment) :
    (progress.afterJobs surroundings dryRun records jobs).records =
      progress.records ++
        if dryRun then [] else jobs.flatMap fun job => jobRecorded surroundings job records := by
  induction jobs generalizing progress with
  | nil => rw [List.flatMap_nil, ite_self, List.append_nil]; rfl
  | cons job jobs ih =>
      refine (ih _).trans ?_
      rw [List.flatMap_cons]
      cases dryRun with
      | true => exact congrArg (· ++ []) (List.append_nil _)
      | false => exact List.append_assoc _ _ _

theorem inserted_afterJobs (dryRun : Bool) (records : List SpendRecord) (progress : Progress)
    (jobs : List Experiment) :
    (progress.afterJobs surroundings dryRun records jobs).inserted =
      progress.inserted +
        if dryRun then (jobs.map fun job => (jobFresh surroundings job records).length).sum
        else (jobs.map fun job => (jobRecorded surroundings job records).length).sum := by
  induction jobs generalizing progress with
  | nil => rw [List.map_nil, List.map_nil, ite_self]; rfl
  | cons job jobs ih =>
      refine (ih _).trans ?_
      rw [List.map_cons, List.map_cons, List.sum_cons, List.sum_cons]
      cases dryRun with
      | true => exact Nat.add_assoc _ _ _
      | false => exact Nat.add_assoc _ _ _

theorem mem_skipped_afterJobs (dryRun : Bool) (records : List SpendRecord) (progress : Progress)
    (jobs : List Experiment) (id : String) (reason : Reason) :
    (id, reason) ∈ (progress.afterJobs surroundings dryRun records jobs).skipped ↔
      (id, reason) ∈ progress.skipped ∨
        ∃ job ∈ jobs,
          job.id = id ∧ jobSkipped surroundings job dryRun records = some reason := by
  induction jobs generalizing progress with
  | nil => exact (or_iff_left fun ⟨_, hmem, _⟩ => List.not_mem_nil hmem).symm
  | cons job jobs ih =>
      have hjob : (id, reason) ∈ ((jobSkipped surroundings job dryRun records).map
          fun reason => (job.id, reason)).toList ↔
            job.id = id ∧ jobSkipped surroundings job dryRun records = some reason := by
        rw [Option.mem_toList, Option.map_eq_some_iff]
        constructor
        · intro ⟨found, hfound, hpair⟩
          cases hpair
          exact ⟨rfl, hfound⟩
        · intro ⟨hid, hfound⟩
          exact ⟨reason, hfound, Prod.ext hid rfl⟩
      refine (ih _).trans ?_
      rw [List.exists_mem_cons_iff, ← or_assoc, ← hjob]
      exact or_congr_left List.mem_append

/-- The table after a real run. -/
def Database.backfilled (surroundings : Surroundings) (database : Database) : Database :=
  (backfillSpend surroundings false database).2

/-- The records a real run inserts; one that raises is rolled back. -/
def Database.newRecords (surroundings : Surroundings) (database : Database) : List SpendRecord :=
  (database.backfilled surroundings).spendRecords.drop database.spendRecords.length

/-- The law of the backfill. -/
structure Backfills (surroundings : Surroundings) (database : Database) : Prop where
  atomic : ∀ report, (backfillSpend surroundings false database).1 = some report →
    ∀ job ∈ database.experiments, (job.id, .unverifiableArtifacts) ∈ report.skipped →
      ∀ record ∈ database.newRecords surroundings, record.taskId ≠ job.id
  kept : (database.backfilled surroundings).spendRecords =
    database.spendRecords ++ database.newRecords surroundings
  once : ((database.newRecords surroundings).map SpendRecord.id).Nodup ∧
    ∀ record ∈ database.newRecords surroundings,
      record.id ∉ database.spendRecords.map SpendRecord.id
  again : (database.backfilled surroundings).newRecords surroundings = []
  exact : ∀ report, (backfillSpend surroundings true database).1 = some report →
    report.inserted = (database.newRecords surroundings).length

/-- Ids are primary keys, and `uuid5` gives different experiments different events. -/
structure Identified (surroundings : Surroundings) (database : Database) : Prop where
  ids : (database.experiments.map Experiment.id).Nodup
  events : ∀ job ∈ database.experiments, ∀ other ∈ database.experiments, ∀ comboId otherId,
    surroundings.eventId job.id comboId = surroundings.eventId other.id otherId →
      job.id = other.id

section Runs

variable {database : Database} (hidentified : Identified surroundings database)

include hidentified

theorem Identified.pairwise_apart : database.pending.Pairwise (Apart surroundings) := by
  have hids : (database.pending.map Experiment.id).Nodup :=
    hidentified.ids.sublist (List.filter_sublist.map _)
  rw [List.Nodup, List.pairwise_map] at hids
  apply hids.imp_of_mem
  intro job other hjob hother hne
  refine ⟨hne, ?_⟩
  intro comboId otherId hsame
  exact hne (hidentified.events job (List.mem_filter.mp hjob).1 other
    (List.mem_filter.mp hother).1 comboId otherId hsame)

theorem backfillSpend_eq (dryRun : Bool) :
    backfillSpend surroundings dryRun database =
      if Aborts surroundings dryRun database.spendRecords database.pending then (none, database)
      else
        let progress : Progress :=
          Progress.afterJobs surroundings dryRun database.spendRecords
            { records := database.spendRecords } database.pending
        (some { inserted := progress.inserted, skipped := progress.skipped, dryRun },
          { database with spendRecords := progress.records }) := by
  rw [backfillSpend, foldlM_backfillJob dryRun hidentified.pairwise_apart
    fun _ _ => ⟨rfl, fun _ => Iff.rfl⟩]
  split_ifs
  · rfl
  · rfl

theorem backfilled_eq :
    database.backfilled surroundings =
      { database with
        spendRecords := database.spendRecords ++
          if Aborts surroundings false database.spendRecords database.pending then []
          else database.pending.flatMap fun job =>
            jobRecorded surroundings job database.spendRecords } := by
  rw [Database.backfilled, backfillSpend_eq hidentified]
  split_ifs
  · rw [List.append_nil]
  · dsimp only
    rw [records_afterJobs]
    rfl

theorem newRecords_eq :
    database.newRecords surroundings =
      if Aborts surroundings false database.spendRecords database.pending then []
      else database.pending.flatMap fun job =>
        jobRecorded surroundings job database.spendRecords := by
  rw [Database.newRecords, backfilled_eq hidentified]
  exact List.drop_left

/-- The new record of a job is one it has stored. -/
theorem mem_newRecords {record : SpendRecord} :
    record ∈ database.newRecords surroundings ↔
      ¬Aborts surroundings false database.spendRecords database.pending ∧
        ∃ job ∈ database.pending,
          record ∈ jobRecorded surroundings job database.spendRecords := by
  rw [newRecords_eq hidentified]
  split_ifs with haborts
  · exact iff_of_false List.not_mem_nil fun hreturns => hreturns.1 haborts
  · rw [List.mem_flatMap, and_iff_right haborts]

theorem newRecords_once :
    ((database.newRecords surroundings).map SpendRecord.id).Nodup := by
  rw [newRecords_eq hidentified]
  split_ifs
  · exact List.nodup_nil
  · rw [List.map_flatMap, List.nodup_flatMap]
    refine ⟨fun job _ => nodup_recorded _, ?_⟩
    apply hidentified.pairwise_apart.imp
    intro job other hapart id hid hother
    obtain ⟨record, hrecord, rfl⟩ := List.mem_map.mp hid
    obtain ⟨otherRecord, hotherRecord, hsame⟩ := List.mem_map.mp hother
    obtain ⟨-, -, comboId, hevent⟩ := eventId_of_mem_recorded hrecord
    obtain ⟨-, -, otherId, hotherEvent⟩ := eventId_of_mem_recorded hotherRecord
    exact hapart.events comboId otherId (hevent.symm.trans (hsame.symm.trans hotherEvent))

theorem newRecords_fresh {record : SpendRecord}
    (hrecord : record ∈ database.newRecords surroundings) :
    record.id ∉ database.spendRecords.map SpendRecord.id := by
  obtain ⟨-, job, -, hstored⟩ := (mem_newRecords hidentified).mp hrecord
  exact (eventId_of_mem_recorded hstored).2.1

/-- The events of a job after a run are those it knew and those it has stored. -/
theorem events_backfilled (hreturns :
      ¬Aborts surroundings false database.spendRecords database.pending)
    {job : Experiment} (hjob : job ∈ database.pending) :
    SameEvents surroundings job
      ((database.backfilled surroundings).spendRecords.map SpendRecord.id)
      (database.spendRecords.map SpendRecord.id ++
        (jobRecorded surroundings job database.spendRecords).map SpendRecord.id) := by
  intro comboId
  rw [backfilled_eq hidentified, if_neg hreturns, List.map_append, List.mem_append,
    List.mem_append]
  apply or_congr_right
  constructor
  · intro hmem
    obtain ⟨record, hrecord, hid⟩ := List.mem_map.mp hmem
    obtain ⟨other, hother, hstored⟩ := List.mem_flatMap.mp hrecord
    obtain ⟨-, -, otherId, hevent⟩ := eventId_of_mem_recorded hstored
    have hsame : job.id = other.id :=
      hidentified.events job (List.mem_filter.mp hjob).1 other (List.mem_filter.mp hother).1
        comboId otherId (hid.symm.trans hevent)
    have hother := List.inj_on_of_nodup_map hidentified.ids (List.mem_filter.mp hjob).1
      (List.mem_filter.mp hother).1 hsame
    exact hid ▸ List.mem_map_of_mem (hother ▸ hstored)
  · intro hmem
    obtain ⟨record, hrecord, hid⟩ := List.mem_map.mp hmem
    exact hid ▸ List.mem_map_of_mem (List.mem_flatMap.mpr ⟨job, hjob, hrecord⟩)

theorem newRecords_backfilled :
    (database.backfilled surroundings).newRecords surroundings = [] := by
  have hafter : Identified surroundings (database.backfilled surroundings) := by
    rw [backfilled_eq hidentified]
    exact ⟨hidentified.ids, hidentified.events⟩
  by_cases haborts : Aborts surroundings false database.spendRecords database.pending
  · have hsame : database.backfilled surroundings = database := by
      rw [backfilled_eq hidentified, if_pos haborts, List.append_nil]
    rw [hsame, newRecords_eq hidentified, if_pos haborts]
  · have hpending : (database.backfilled surroundings).pending = database.pending := by
      rw [backfilled_eq hidentified]
      rfl
    rw [newRecords_eq hafter, hpending]
    split_ifs
    · rfl
    · rw [List.flatMap_eq_nil_iff]
      intro job hjob
      rw [jobRecorded, jobReadings]
      cases hlive : live job (database.backfilled surroundings).spendRecords with
      | true => rfl
      | false =>
          have hbefore : live job database.spendRecords = false := by
            rw [backfilled_eq hidentified, live, List.any_append, Bool.or_eq_false_iff] at hlive
            exact hlive.1
          have hevents := events_backfilled hidentified haborts hjob
          rw [jobRecorded, jobReadings, hbefore] at hevents
          exact recorded_again hevents

omit hidentified in
theorem eq_of_sum_eq {jobs : List Experiment} {stored offered : Experiment → ℕ}
    (hle : ∀ job ∈ jobs, stored job ≤ offered job)
    (hsum : (jobs.map stored).sum = (jobs.map offered).sum) :
    ∀ job ∈ jobs, stored job = offered job := by
  intro job hjob
  by_contra hne
  have hlt := (hle job hjob).lt_of_ne hne
  exact (List.sum_lt_sum stored offered hle ⟨job, hjob, hlt⟩).ne hsum

/-- The dry run counts what the real run inserts. -/
theorem exact_iff :
    (∀ report, (backfillSpend surroundings true database).1 = some report →
        report.inserted = (database.newRecords surroundings).length) ↔
      Aborts surroundings true database.spendRecords database.pending ∨
        ∀ job ∈ database.pending,
          Distinct surroundings job (database.spendRecords.map SpendRecord.id)
            (jobReadings surroundings job database.spendRecords) := by
  have hlengths : ∀ job ∈ database.pending,
      (jobRecorded surroundings job database.spendRecords).length ≤
        (jobFresh surroundings job database.spendRecords).length :=
    fun job _ => length_recorded_le _
  rw [backfillSpend_eq hidentified, newRecords_eq hidentified]
  by_cases hdry : Aborts surroundings true database.spendRecords database.pending
  · rw [if_pos hdry]
    exact iff_of_true (fun report hreport => by cases hreport) (.inl hdry)
  · rw [if_neg hdry, or_iff_right hdry]
    dsimp only
    simp only [Option.some.injEq, forall_eq']
    rw [inserted_afterJobs, if_pos rfl, Nat.zero_add]
    by_cases hreal : Aborts surroundings false database.spendRecords database.pending
    · rw [if_pos hreal]
      constructor
      · intro hsum job hjob
        apply Distinct.nil
        have hzeros : (database.pending.map fun _ => 0).sum = 0 := List.sum_map_zero
        have hnone := eq_of_sum_eq (fun _ _ => Nat.zero_le _) (hzeros.trans hsum.symm) job hjob
        exact List.length_eq_zero_iff.mp hnone.symm
      · intro hdistinct
        obtain ⟨job, hjob, hstop⟩ := hreal
        exact absurd ⟨job, hjob, (hdistinct job hjob).obstacle_eq.symm.trans hstop⟩ hdry
    · rw [if_neg hreal, List.length_flatMap]
      constructor
      · intro hsum job hjob
        exact (length_recorded_eq_iff _).mp (eq_of_sum_eq hlengths hsum.symm job hjob)
      · intro hdistinct
        apply congrArg List.sum
        apply List.map_congr_left
        intro job hjob
        exact ((length_recorded_eq_iff _).mpr (hdistinct job hjob)).symm

/-- A job with an unreadable combination has stored nothing. -/
theorem atomic_iff :
    (∀ report, (backfillSpend surroundings false database).1 = some report →
        ∀ job ∈ database.experiments, (job.id, .unverifiableArtifacts) ∈ report.skipped →
          ∀ record ∈ database.newRecords surroundings, record.taskId ≠ job.id) ↔
      Aborts surroundings false database.spendRecords database.pending ∨
        ∀ job ∈ database.pending,
          jobStop surroundings job false database.spendRecords = some .caught →
            ∀ evidence ∈ (jobFresh surroundings job database.spendRecords).head?,
              ¬Storable surroundings job evidence := by
  rw [backfillSpend_eq hidentified]
  by_cases hreal : Aborts surroundings false database.spendRecords database.pending
  · rw [if_pos hreal]
    exact iff_of_true (fun report hreport => by cases hreport) (.inl hreal)
  · rw [if_neg hreal, or_iff_right hreal]
    dsimp only
    simp only [Option.some.injEq, forall_eq']
    have hreturns : ∀ job ∈ database.pending,
        jobStop surroundings job false database.spendRecords ≠ some .uncaught :=
      fun job hjob hstop => hreal ⟨job, hjob, hstop⟩
    constructor
    · intro hatomic job hjob hstop
      have hexperiment := (List.mem_filter.mp hjob).1
      apply (recorded_eq_nil_iff _).mp
      rw [List.eq_nil_iff_forall_not_mem]
      intro record hrecord
      apply hatomic job hexperiment _ record
      · exact (mem_newRecords hidentified).mpr ⟨hreal, job, hjob, hrecord⟩
      · exact (eventId_of_mem_recorded hrecord).1
      · rw [mem_skipped_afterJobs]
        refine .inr ⟨job, hjob, rfl, jobSkipped_eq_unverifiable.mpr ?_⟩
        rw [hstop]
        rfl
    · intro hnone job hjob hskipped record hrecord htask
      rw [mem_skipped_afterJobs, or_iff_right List.not_mem_nil] at hskipped
      obtain ⟨reported, hreported, hid, hreason⟩ := hskipped
      obtain ⟨-, stored, hstored, hrecorded⟩ := (mem_newRecords hidentified).mp hrecord
      have hsame : stored = reported := by
        apply List.inj_on_of_nodup_map hidentified.ids (List.mem_filter.mp hstored).1
          (List.mem_filter.mp hreported).1
        rw [hid, ← htask, (eventId_of_mem_recorded hrecorded).1]
      subst hsame
      have hstop : jobStop surroundings stored false database.spendRecords = some .caught := by
        obtain ⟨raised, hraised⟩ := Option.isSome_iff_exists.mp
          (jobSkipped_eq_unverifiable.mp hreason)
        cases raised with
        | caught => exact hraised
        | uncaught => exact absurd hraised (hreturns stored hstored)
      have hempty := (recorded_eq_nil_iff _).mpr (hnone stored hstored hstop)
      rw [jobRecorded, hempty] at hrecorded
      exact List.not_mem_nil hrecorded

end Runs

/-- The backfill keeps its law exactly if the dry run is aborted or new evidence is stored once
and can be stored, and the real run is aborted or no new evidence is stored before a job fails. -/
theorem backfills_iff {database : Database} (hidentified : Identified surroundings database) :
    Backfills surroundings database ↔
      (Aborts surroundings true database.spendRecords database.pending ∨
        ∀ job ∈ database.pending,
          Distinct surroundings job (database.spendRecords.map SpendRecord.id)
            (jobReadings surroundings job database.spendRecords)) ∧
      (Aborts surroundings false database.spendRecords database.pending ∨
        ∀ job ∈ database.pending,
          jobStop surroundings job false database.spendRecords = some .caught →
            ∀ evidence ∈ (jobFresh surroundings job database.spendRecords).head?,
              ¬Storable surroundings job evidence) := by
  constructor
  · intro hlaw
    exact ⟨(exact_iff hidentified).mp hlaw.exact, (atomic_iff hidentified).mp hlaw.atomic⟩
  · intro ⟨hexact, hatomic⟩
    constructor
    · exact (atomic_iff hidentified).mpr hatomic
    · rw [newRecords_eq hidentified, backfilled_eq hidentified]
    · exact ⟨newRecords_once hidentified, fun _ => newRecords_fresh hidentified⟩
    · exact newRecords_backfilled hidentified
    · exact (exact_iff hidentified).mpr hexact

/-- One readable combination with its costs and one that is no object. -/
def partlyReadable : Surroundings where
  resolves _ := true
  metadata _ :=
    .ok (.obj
      [("combinations",
        .arr
          [.obj
            [("combo_id", .str "a"), ("combo_dir", .str "a"), ("model", .str "m"),
              ("strategy", .str "vanilla")],
            .null])])
  inside _ _ := .ok true
  summary _ _ :=
    .ok (.obj
      [("vanilla",
        .obj
          [("pricing_metadata",
            .obj [("total_cost", .num 1), ("has_actual_pricing", .bool true)])])])
  eventId job
    | .str comboId => "spend:experiments:" ++ job ++ ":" ++ comboId
    | _ => "spend:experiments:" ++ job
  accepts _ := true

/-- One old experiment. -/
def legacy : Database where
  experiments :=
    [{ id := "e"
       userId := "u"
       outputDir := some "/e"
       createdAt :=
        { date := ⟨2026, 10, 1, by decide, by decide, by decide⟩
          time := ⟨10, 0, 0, 0, by decide, Calendar.Time.first.minute_lt, Calendar.Time.first.second_lt,
            Calendar.Time.first.microsecond_lt⟩ } }]

theorem partlyReadable_not_backfills : ¬Backfills partlyReadable legacy := by
  intro hlaw
  have hskipped : (backfillSpend partlyReadable false legacy).1.map Report.skipped =
      some [("e", .unverifiableArtifacts)] := by decide +kernel
  have hnew : (legacy.newRecords partlyReadable).map SpendRecord.taskId = ["e"] := by
    decide +kernel
  obtain ⟨report, hreport, hreasons⟩ := Option.map_eq_some_iff.mp hskipped
  obtain ⟨record, hrecord, htask⟩ : ∃ record ∈ legacy.newRecords partlyReadable,
      record.taskId = "e" := by
    rw [← List.mem_map, hnew]
    exact List.mem_singleton_self _
  refine hlaw.atomic report hreport _ List.mem_cons_self ?_ record hrecord htask
  rw [hreasons]
  exact List.mem_singleton_self _

theorem backfills_iff_legacy :
    Identified partlyReadable legacy ∧
      (Backfills partlyReadable legacy ↔
        (Aborts partlyReadable true legacy.spendRecords legacy.pending ∨
          ∀ job ∈ legacy.pending,
            Distinct partlyReadable job (legacy.spendRecords.map SpendRecord.id)
              (jobReadings partlyReadable job legacy.spendRecords)) ∧
        (Aborts partlyReadable false legacy.spendRecords legacy.pending ∨
          ∀ job ∈ legacy.pending,
            jobStop partlyReadable job false legacy.spendRecords = some .caught →
              ∀ evidence ∈ (jobFresh partlyReadable job legacy.spendRecords).head?,
                ¬Storable partlyReadable job evidence)) := by
  have hidentified : Identified partlyReadable legacy := by
    constructor
    · exact List.nodup_singleton _
    · intro job hjob other hother _ _ _
      rw [List.mem_singleton.mp hjob, List.mem_singleton.mp hother]
  exact ⟨hidentified, backfills_iff hidentified⟩

end AlgorithmHarness.SpendRecords
