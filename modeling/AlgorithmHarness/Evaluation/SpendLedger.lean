import AlgorithmHarness.Core.Transition
import AlgorithmHarness.Evaluation.Ledger
import Mathlib.Algebra.Ring.Rat

/-!
# The spend is the sum of the recorded costs

Deliveries of `on_unit_finished` reach the ledger in any order, again on a
resume, again after a crash on either side of the commit, and with another
result when an uncertain unit was executed again.
-/

namespace AlgorithmHarness.EvaluationWorker

open Transition
open TaskManager (AsyncTask Generation)
open TaskService (TaskRecord TaskUnit TaskState)

/-- The cost a row counts for in the sum. -/
def EvaluationResult.costUsd (result : EvaluationResult) : ℚ :=
  match recordedCost (some result) with
  | .ok cost => cost
  | .error _ => 0

/-- The spend is the sum of the row costs, and no key has two rows. -/
structure Evaluation.Balanced (evaluation : Evaluation) : Prop where
  spent : evaluation.spentUsd = (evaluation.results.map (·.costUsd)).sum
  unique : (evaluation.results.map (·.key)).Nodup

/-! ## What a recorded row holds -/

theorem measured_ok {unit : TaskUnit JsonDict} {values : Measured}
    (hmeasured : measured unit = .ok values) :
    (values.metrics.getD ∅).get "problem_snapshot" = .null ∧
      ((values.metrics.getD ∅).get "cost_usd" (.num 0)).decimal = .ok values.cost := by
  unfold measured at hmeasured
  split at hmeasured
  · simp only [bind_eq_ok, pure, Except.pure, Except.ok.injEq] at hmeasured
    obtain ⟨costUsd, _, _, _, _, _, _, _, cost, hcost, rfl⟩ := hmeasured
    constructor
    · simp [JsonDict.get, JsonDict.lookup_ofMembers, List.lookup_cons]
    · simpa [JsonDict.get, JsonDict.lookup_ofMembers, List.lookup_cons] using hcost
  · cases hmeasured
    exact ⟨rfl, rfl⟩

theorem withSnapshot_cost {metrics written : Option JsonDict} {snapshot : Option Json}
    (hwritten : withSnapshot metrics snapshot = .ok written) :
    (written.getD ∅).get "cost_usd" (.num 0) = (metrics.getD ∅).get "cost_usd" (.num 0) := by
  cases snapshot with
  | none => cases hwritten; rfl
  | some snapshot =>
      simp only [withSnapshot, bind_eq_ok, pure, Except.pure, Except.ok.injEq] at hwritten
      obtain ⟨difficulty, _, rfl⟩ := hwritten
      simp [JsonDict.get, AList.lookup_insert_ne]

/-- The snapshot read back from a row is the one that was chosen for it. -/
theorem withSnapshot_snapshot {metrics written : Option JsonDict} {snapshot : Option Json}
    (hplain : (metrics.getD ∅).get "problem_snapshot" = .null)
    (hchosen : ∀ value, snapshot = some value → notNull value = some value)
    (hwritten : withSnapshot metrics snapshot = .ok written) :
    notNull ((written.getD ∅).get "problem_snapshot") = snapshot := by
  cases snapshot with
  | none =>
      cases hwritten
      rw [hplain]
      rfl
  | some value =>
      simp only [withSnapshot, bind_eq_ok, pure, Except.pure, Except.ok.injEq] at hwritten
      obtain ⟨difficulty, _, rfl⟩ := hwritten
      simpa [JsonDict.get, AList.lookup_insert_ne] using hchosen value rfl

theorem notNull_eq_some {value found : Json} (hfound : notNull value = some found) :
    notNull found = some found := by
  cases value <;> cases hfound <;> rfl

theorem unitSnapshot_notNull {unit : TaskUnit JsonDict} {value : Json}
    (hsnapshot : unitSnapshot unit = .ok (some value)) : notNull value = some value := by
  unfold unitSnapshot at hsnapshot
  split at hsnapshot <;>
    · simp only [bind_eq_ok, pure, Except.pure, Except.ok.injEq] at hsnapshot
      obtain ⟨_, _, hvalue⟩ := hsnapshot
      exact notNull_eq_some hvalue

theorem chosenSnapshot_notNull {previous : Option EvaluationResult} {unit : TaskUnit JsonDict}
    {value : Json} (hsnapshot : chosenSnapshot previous unit = .ok (some value)) :
    notNull value = some value := by
  unfold chosenSnapshot at hsnapshot
  split at hsnapshot
  · next snapshot hrecorded =>
      cases hsnapshot
      exact notNull_eq_some hrecorded
  · exact unitSnapshot_notNull hsnapshot

theorem unitSnapshot_of_chosen_none {previous : Option EvaluationResult}
    {unit : TaskUnit JsonDict} (hchosen : chosenSnapshot previous unit = .ok none) :
    unitSnapshot unit = .ok none := by
  unfold chosenSnapshot at hchosen
  split at hchosen
  · cases hchosen
  · exact hchosen

section Recording

variable {redact : JsonDict → JsonDict} {previous : Option EvaluationResult}
  {unit : TaskUnit JsonDict} {result : EvaluationResult} {cost : ℚ}

theorem recordUnitResult_ok (hrecord : recordUnitResult redact previous unit = .ok (result, cost)) :
    ∃ values snapshot metrics, measured unit = .ok values ∧
      chosenSnapshot previous unit = .ok snapshot ∧
      withSnapshot values.metrics snapshot = .ok metrics ∧
      result.metrics = metrics ∧ result.key = unitKey unit ∧ cost = values.cost := by
  simp only [recordUnitResult, bind_eq_ok, pure, Except.pure, Except.ok.injEq,
    Prod.mk.injEq] at hrecord
  obtain ⟨values, hmeasured, snapshot, hchosen, metrics, hmetrics, rfl, rfl⟩ := hrecord
  exact ⟨values, snapshot, metrics, hmeasured, hchosen, hmetrics, rfl, rfl, rfl⟩

/-- The recorded row counts for exactly the cost the unit is charged with. -/
theorem recordedCost_of_recorded
    (hrecord : recordUnitResult redact previous unit = .ok (result, cost)) :
    recordedCost (some result) = .ok cost := by
  obtain ⟨values, snapshot, metrics, hmeasured, _, hmetrics, hresult, _, rfl⟩ :=
    recordUnitResult_ok hrecord
  have hcost := (measured_ok hmeasured).2
  rw [← withSnapshot_cost hmetrics] at hcost
  simpa [recordedCost, metricsDict, hresult] using hcost

/-- Recording a unit over its own row gives the same row. -/
theorem recordUnitResult_again
    (hrecord : recordUnitResult redact previous unit = .ok (result, cost)) :
    recordUnitResult redact (some result) unit = .ok (result, cost) := by
  obtain ⟨values, snapshot, metrics, hmeasured, hchosen, hmetrics, hresult, _, _⟩ :=
    recordUnitResult_ok hrecord
  have hread : notNull ((metricsDict (some result)).get "problem_snapshot") = snapshot := by
    have hvalue : ∀ value, snapshot = some value → notNull value = some value := by
      rintro value rfl
      exact chosenSnapshot_notNull hchosen
    simpa [metricsDict, hresult] using
      withSnapshot_snapshot (measured_ok hmeasured).1 hvalue hmetrics
  have hsame : chosenSnapshot (some result) unit = .ok snapshot := by
    cases snapshot with
    | some value => simp [chosenSnapshot, hread, pure, Except.pure]
    | none =>
        rw [chosenSnapshot, hread]
        exact unitSnapshot_of_chosen_none hchosen
  rw [← hrecord]
  unfold recordUnitResult
  rw [hsame, hchosen]

end Recording

/-! ## One delivery -/

section Delivery

variable {redact : JsonDict → JsonDict} {task : AsyncTask} {generation : Generation}
  {record : TaskRecord JsonDict} {unit : TaskUnit JsonDict} {evaluation next : Evaluation}

/-- A delivery is fenced off, or it records its unit and moves the spend by the
difference. -/
theorem onUnitFinished_ok
    (hdelivery : onUnitFinished redact task generation record unit evaluation = .ok next) :
    (task.celeryTaskId ≠ generation ∧ next = evaluation) ∨
      task.celeryTaskId = generation ∧
        ∃ result cost previousCost,
          recordedCost (KeyedRows.fetch EvaluationResult.key (unitKey unit) evaluation.results) =
            .ok previousCost ∧
          recordUnitResult redact
            (KeyedRows.fetch EvaluationResult.key (unitKey unit) evaluation.results) unit =
              .ok (result, cost) ∧
          next.spentUsd = evaluation.spentUsd + cost - previousCost ∧
          next.results = KeyedRows.put EvaluationResult.key result evaluation.results ∧
          next.row = evaluation.row := by
  unfold onUnitFinished at hdelivery
  by_cases hfenced : task.celeryTaskId ≠ generation
  · rw [if_pos hfenced] at hdelivery
    cases hdelivery
    exact .inl ⟨hfenced, rfl⟩
  · rw [if_neg hfenced] at hdelivery
    simp only [bind_eq_ok, pure, Except.pure, Except.ok.injEq] at hdelivery
    obtain ⟨previousCost, hprevious, ⟨result, cost⟩, hrecord, rfl⟩ := hdelivery
    exact .inr ⟨not_not.mp hfenced, result, cost, previousCost, hprevious, hrecord, rfl, rfl, rfl⟩

theorem Evaluation.Balanced.onUnitFinished (hbalanced : evaluation.Balanced)
    (hdelivery : onUnitFinished redact task generation record unit evaluation = .ok next) :
    next.Balanced := by
  cases onUnitFinished_ok hdelivery with
  | inl hfenced => exact hfenced.2 ▸ hbalanced
  | inr hrecorded =>
      obtain ⟨_, result, cost, previousCost, hprevious, hrecord, hspent, hresults, _⟩ := hrecorded
      obtain ⟨_, _, _, _, _, _, _, hkey, _⟩ := recordUnitResult_ok hrecord
      have hcost : result.costUsd = cost := by
        rw [EvaluationResult.costUsd, recordedCost_of_recorded hrecord]
      have hreplaced : ((KeyedRows.fetch EvaluationResult.key (unitKey unit)
          evaluation.results).map (·.costUsd)).getD 0 = previousCost := by
        cases hfetch : KeyedRows.fetch EvaluationResult.key (unitKey unit) evaluation.results with
        | none =>
            rw [hfetch] at hprevious
            simpa [recordedCost, metricsDict, JsonDict.get, Json.decimal] using hprevious
        | some previous =>
            rw [hfetch] at hprevious
            simp [EvaluationResult.costUsd, hprevious]
      constructor
      · rw [hspent, hresults, KeyedRows.sum_put, hkey, hreplaced, hcost, hbalanced.spent]
      · rw [hresults]
        exact KeyedRows.nodup_put hbalanced.unique result

/-- The unit a row records: recording it over the row changes nothing. -/
def Evaluation.Records (redact : JsonDict → JsonDict) (evaluation : Evaluation)
    (unit : TaskUnit JsonDict) : Prop :=
  ∃ result cost,
    KeyedRows.fetch EvaluationResult.key (unitKey unit) evaluation.results = some result ∧
      recordUnitResult redact (some result) unit = .ok (result, cost)

theorem Evaluation.Records.onUnitFinished
    (hdelivery : onUnitFinished redact task generation record unit evaluation = .ok next)
    (hcurrent : task.celeryTaskId = generation) : next.Records redact unit := by
  cases onUnitFinished_ok hdelivery with
  | inl hfenced => exact absurd hcurrent hfenced.1
  | inr hrecorded =>
      obtain ⟨_, result, cost, _, _, hrecord, _, hresults, _⟩ := hrecorded
      obtain ⟨_, _, _, _, _, _, _, hkey, _⟩ := recordUnitResult_ok hrecord
      refine ⟨result, cost, ?_, recordUnitResult_again hrecord⟩
      rw [hresults, KeyedRows.fetch_put, if_pos hkey]

/-- Recording another unit leaves a row alone. -/
theorem Evaluation.Records.other {other : TaskUnit JsonDict}
    (hrecords : evaluation.Records redact other) (hne : unitKey unit ≠ unitKey other)
    (hdelivery : EvaluationWorker.onUnitFinished redact task generation record unit evaluation =
      .ok next) : next.Records redact other := by
  cases onUnitFinished_ok hdelivery with
  | inl hfenced => exact hfenced.2 ▸ hrecords
  | inr hrecorded =>
      obtain ⟨_, result, _, _, _, hrecord, _, hresults, _⟩ := hrecorded
      obtain ⟨_, _, _, _, _, _, _, hkey, _⟩ := recordUnitResult_ok hrecord
      obtain ⟨kept, cost, hfetch, hagain⟩ := hrecords
      refine ⟨kept, cost, ?_, hagain⟩
      rw [hresults, KeyedRows.fetch_put, hkey, if_neg hne, hfetch]

/-- Replaying a recorded unit changes neither the spend nor the rows. -/
theorem Evaluation.Records.replay (hrecords : evaluation.Records redact unit)
    (hdelivery : EvaluationWorker.onUnitFinished redact task generation record unit evaluation =
      .ok next) : next.spentUsd = evaluation.spentUsd ∧ next.results = evaluation.results := by
  cases onUnitFinished_ok hdelivery with
  | inl hfenced => exact hfenced.2 ▸ ⟨rfl, rfl⟩
  | inr hrecorded =>
      obtain ⟨_, result, cost, previousCost, hprevious, hrecord, hspent, hresults, _⟩ := hrecorded
      obtain ⟨kept, keptCost, hfetch, hagain⟩ := hrecords
      rw [hfetch] at hprevious hrecord
      cases hagain.symm.trans hrecord
      cases (recordedCost_of_recorded hrecord).symm.trans hprevious
      constructor
      · rw [hspent, add_sub_cancel_right]
      · rw [hresults]
        apply KeyedRows.put_of_fetch
        rw [(KeyedRows.fetch_mem hfetch).2, hfetch]

end Delivery

/-! ## Every sequence of deliveries -/

/-- The evaluation with its task row, and for each key the unit whose delivery
was the last to be committed, which is history and never read. -/
structure Books where
  evaluation : Evaluation
  task : AsyncTask
  recorded : String × String → Option (TaskUnit JsonDict) := fun _ => none

inductive Delivery where
  /-- The callback runs to its commit, unless it raises. -/
  | finished (generation : Generation) (record : TaskRecord JsonDict) (unit : TaskUnit JsonDict)
  /-- The process dies before the commit. -/
  | lost (generation : Generation) (record : TaskRecord JsonDict) (unit : TaskUnit JsonDict)
  /-- The task is resumed under a new generation. -/
  | resumed (generation : Generation)

namespace Books

def step (redact : JsonDict → JsonDict) (books : Books) : Delivery → Option Books
  | .finished generation record unit =>
      match onUnitFinished redact books.task generation record unit books.evaluation with
      | .error _ => some books
      | .ok evaluation =>
          some { books with
            evaluation := evaluation
            recorded :=
              if books.task.celeryTaskId = generation then
                Function.update books.recorded (unitKey unit) (some unit)
              else books.recorded }
  | .lost _ _ _ => some books
  | .resumed generation =>
      some { books with task := { books.task with celeryTaskId := generation } }

/-- A new evaluation: nothing spent, no results. -/
structure Opened (books : Books) : Prop where
  spent : books.evaluation.spentUsd = 0
  results : books.evaluation.results = []
  recorded : ∀ key, books.recorded key = none

structure Invariant (redact : JsonDict → JsonDict) (books : Books) : Prop where
  balanced : books.evaluation.Balanced
  recorded : ∀ key unit, books.recorded key = some unit →
    unitKey unit = key ∧ books.evaluation.Records redact unit

theorem Opened.invariant {books : Books} (hopened : books.Opened)
    (redact : JsonDict → JsonDict) : books.Invariant redact where
  balanced := by
    constructor
    · rw [hopened.spent, hopened.results]
      rfl
    · rw [hopened.results]
      exact List.nodup_nil
  recorded key unit hunit := by
    rw [hopened.recorded] at hunit
    cases hunit

theorem invariant_preserved (redact : JsonDict → JsonDict) :
    Preserved (step redact) (Invariant redact) := by
  intro books delivery next hinv hstep
  cases delivery with
  | lost generation record unit =>
      cases hstep
      exact hinv
  | resumed generation =>
      cases hstep
      exact ⟨hinv.balanced, hinv.recorded⟩
  | finished generation record unit =>
      simp only [step] at hstep
      split at hstep
      · cases hstep
        exact hinv
      · next evaluation hdelivery =>
          cases hstep
          refine ⟨hinv.balanced.onUnitFinished hdelivery, ?_⟩
          intro key other hother
          dsimp only at hother ⊢
          split_ifs at hother with hcurrent
          · by_cases hkey : key = unitKey unit
            · rw [hkey, Function.update_self] at hother
              cases hother
              exact ⟨hkey.symm, Evaluation.Records.onUnitFinished hdelivery hcurrent⟩
            · rw [Function.update_of_ne hkey] at hother
              obtain ⟨hsame, hrecords⟩ := hinv.recorded key other hother
              exact ⟨hsame, hrecords.other (fun heq => hkey (hsame ▸ heq.symm)) hdelivery⟩
          · obtain ⟨hsame, hrecords⟩ := hinv.recorded key other hother
            cases onUnitFinished_ok hdelivery with
            | inl hfenced => exact ⟨hsame, hfenced.2 ▸ hrecords⟩
            | inr hwritten => exact absurd hwritten.1 hcurrent

/-- After any deliveries, with losses, replays, re-executions and stale
generations among them, the spend is the exact sum of the row costs and no key
has two rows; delivering the unit that its row records once more changes
neither. -/
theorem spend_is_recorded_sum {redact : JsonDict → JsonDict} {opened books : Books}
    {deliveries : List Delivery} (hopened : opened.Opened)
    (hrun : run (step redact) opened deliveries = some books) :
    books.evaluation.spentUsd = (books.evaluation.results.map (·.costUsd)).sum ∧
      (books.evaluation.results.map (·.key)).Nodup ∧
      ∀ unit, books.recorded (unitKey unit) = some unit →
        ∀ generation record next,
          step redact books (.finished generation record unit) = some next →
          next.evaluation.spentUsd = books.evaluation.spentUsd ∧
            next.evaluation.results = books.evaluation.results := by
  have hinv := (invariant_preserved redact).run (hopened.invariant redact) hrun
  refine ⟨hinv.balanced.spent, hinv.balanced.unique, ?_⟩
  intro unit hunit generation record next hstep
  simp only [step] at hstep
  split at hstep
  · cases hstep
    exact ⟨rfl, rfl⟩
  · next evaluation hdelivery =>
      cases hstep
      exact (hinv.recorded _ unit hunit).2.replay hdelivery

/-- A unit that cost 1 is redelivered after a lost commit, executed again at
cost 3 and replayed. -/
theorem spend_is_recorded_sum_replayed :
    let unit (cost : ℚ) : TaskUnit JsonDict :=
      { unitId := "u"
        strategy := "vanilla"
        problemId := "two-sum"
        status := .completed
        result := some (JsonDict.ofMembers
          [("status", .str "success"), ("metadata", .obj [("cost_usd", .num cost)])]) }
    let record : TaskRecord JsonDict :=
      { runId := "r", configFingerprint := "c", datasetFingerprint := "d", totalUnits := 1 }
    let opened : Books :=
      { evaluation := { row := { userId := "alice", status := .running } }
        task :=
          { id := 1, celeryTaskId := 10, taskType := .evaluation, userId := "alice" } }
    let deliveries : List Delivery :=
      [.lost 10 record (unit 1), .finished 10 record (unit 1), .finished 10 record (unit 3)]
    ∃ books, run (step id) opened deliveries = some books ∧
      books.evaluation.spentUsd = 3 ∧
      (books.evaluation.results.map (·.costUsd)).sum = 3 ∧
      ∀ next, step id books (.finished 10 record (unit 3)) = some next →
        next.evaluation.spentUsd = 3 := by
  intro unit record opened deliveries
  have hopened : opened.Opened := ⟨rfl, rfl, fun _ => rfl⟩
  have hrun : run (step id) opened deliveries =
      some ((run (step id) opened deliveries).getD opened) := rfl
  have hspent : ((run (step id) opened deliveries).getD opened).evaluation.spentUsd = 3 := by
    decide +kernel
  obtain ⟨hsum, _, hreplay⟩ := spend_is_recorded_sum hopened hrun
  refine ⟨_, hrun, hspent, hsum.symm.trans hspent, fun next hnext => ?_⟩
  exact (hreplay (unit 3) rfl 10 record next hnext).1.trans hspent

end Books

end AlgorithmHarness.EvaluationWorker
