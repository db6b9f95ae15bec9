import Mathlib.Algebra.BigOperators.Group.List.Basic
import Mathlib.Algebra.Order.Field.Rat
import Mathlib.Data.List.Sort
import Mathlib.Data.Prod.Lex
import Mathlib.Data.String.Basic

/-!
# Plans within a budget

`_combo_rows`, `_layer_cost` and `optimize_budget`: the difficulties are taken
in order, and each gets the combination with the best throughput if its
estimated cost fits what is left.  Numbers are exact; `round digits` is a
parameter.
-/

namespace AlgorithmHarness.CostOptimizer

/-! ## First maxima -/

section FirstMax

variable {α β : Type*} [LinearOrder β] (key : α → β)

/-- Stable sorting in descending order. -/
def sortDescending (items : List α) : List α :=
  items.insertionSort fun first second => key second ≤ key first

/-- The item comes first among those with the greatest key. -/
structure FirstMax (items : List α) (item : α) (before after : List α) : Prop where
  split : items = before ++ item :: after
  before : ∀ other ∈ before, key other < key item
  after : ∀ other ∈ after, key other ≤ key item

variable {key}

theorem head_sortDescending_cons (head : α) (tail : List α) :
    (sortDescending key (head :: tail)).head? =
      match (sortDescending key tail).head? with
      | none => some head
      | some best => if key best ≤ key head then some head else some best := by
  rw [sortDescending, List.insertionSort_cons, ← sortDescending]
  cases sortDescending key tail with
  | nil => rfl
  | cons best rest =>
      rw [List.orderedInsert]
      dsimp only [List.head?_cons]
      split_ifs with hle
      · rfl
      · rfl

theorem firstMax_of_head {items : List α} {item : α}
    (hhead : (sortDescending key items).head? = some item) :
    ∃ before after, FirstMax key items item before after := by
  induction items generalizing item with
  | nil => cases hhead
  | cons first rest ih =>
      rw [head_sortDescending_cons] at hhead
      cases hrest : (sortDescending key rest).head? with
      | none =>
          rw [hrest] at hhead
          have hnil : rest = [] := by
            have hlength : (sortDescending key rest).length = rest.length :=
              List.length_insertionSort _ _
            rw [List.head?_eq_none_iff.mp hrest] at hlength
            exact List.length_eq_zero_iff.mp hlength.symm
          cases hhead
          exact ⟨[], rest, rfl, by simp, by simp [hnil]⟩
      | some best =>
          rw [hrest] at hhead
          obtain ⟨before, after, hsplit, hbefore, hafter⟩ := ih hrest
          dsimp only at hhead
          split_ifs at hhead with hle
          · cases hhead
            refine ⟨[], rest, rfl, by simp, ?_⟩
            intro other hother
            rw [hsplit, List.mem_append, List.mem_cons] at hother
            rcases hother with hother | rfl | hother
            · exact (hbefore other hother).le.trans hle
            · exact hle
            · exact (hafter other hother).trans hle
          · cases hhead
            refine ⟨first :: before, after, ?_, ?_, hafter⟩
            · rw [hsplit, List.cons_append]
            · intro other hother
              rcases List.mem_cons.mp hother with rfl | hother
              · exact not_le.mp hle
              · exact hbefore other hother

theorem FirstMax.of_filterMap {Source : Type*} {read : Source → Option α} {sources : List Source}
    {item : α} {before after : List α}
    (hmax : FirstMax key (sources.filterMap read) item before after) :
    ∃ first source last, sources = first ++ source :: last ∧ read source = some item ∧
      (∀ other ∈ first, ∀ found, read other = some found → key found < key item) ∧
      ∀ other ∈ last, ∀ found, read other = some found → key found ≤ key item := by
  obtain ⟨first, tail, hsources, hfirst, htail⟩ := List.filterMap_eq_append_iff.mp hmax.split
  obtain ⟨skipped, source, last, htails, hskipped, hread, hlast⟩ :=
    List.filterMap_eq_cons_iff.mp htail
  refine ⟨first ++ skipped, source, last, ?_, hread, ?_, ?_⟩
  · rw [hsources, htails, List.append_assoc]
  · intro other hother found hfound
    rcases List.mem_append.mp hother with hother | hother
    · apply hmax.before
      rw [← hfirst]
      exact List.mem_filterMap.mpr ⟨other, hother, hfound⟩
    · rw [hskipped other hother] at hfound
      cases hfound
  · intro other hother found hfound
    apply hmax.after
    rw [← hlast]
    exact List.mem_filterMap.mpr ⟨other, hother, hfound⟩

end FirstMax

/-! ## Comparisons -/

/-- The counts of a combination in one difficulty. -/
structure Stats where
  solved : Option ℕ
  total : Option ℕ

structure Combination where
  model : Option String
  strategy : Option String
  /-- `pass_rate_over_total` -/
  accuracy : Option ℚ
  costKnown : Bool
  totalCost : Option ℚ
  solved : Option ℕ
  /-- `denominator["total"]` -/
  runTotal : Option ℕ
  byDifficulty : List (String × Stats)

structure Row where
  model : Option String
  strategy : Option String
  accuracy : Option ℚ
  cost : Option ℚ
  ratio : Option ℚ
  note : Option String

def Row.available (row : Row) : Bool := row.ratio.isSome

/-- A combination for one difficulty. -/
structure Candidate where
  row : Row
  layerAccuracy : ℚ
  throughput : ℚ
  layerCost : ℚ
  layerTotal : ℕ

def Candidate.key (candidate : Candidate) : ℚ ×ₗ ℚ :=
  toLex (candidate.throughput, candidate.layerAccuracy)

/-- What a difficulty gets. -/
inductive Entry
  | noCandidates
  | overBudget (layerCost remaining : ℚ)
  | feasible (model strategy : Option String) (layerAccuracy estimatedCost : ℚ) (problems : ℕ)
  deriving DecidableEq

namespace Entry

/-- `display` writes four decimals. -/
def note (display : ℚ → String) : Entry → Option String
  | .noCandidates => some "无历史数据或无满足约束的组合"
  | .overBudget layerCost remaining =>
      some ("预算不足（该层估算成本 $" ++ display layerCost ++ "，剩余 $" ++ display remaining ++ "）")
  | .feasible .. => none

def estimatedCost : Entry → ℚ
  | .feasible _ _ _ estimatedCost _ => estimatedCost
  | _ => 0

def problems : Entry → ℕ
  | .feasible _ _ _ _ problems => problems
  | _ => 0

def layerAccuracy : Entry → ℚ
  | .feasible _ _ layerAccuracy _ _ => layerAccuracy
  | _ => 0

end Entry

structure Plan where
  budget : ℚ
  minAccuracy : ℚ
  layers : List (String × Entry)
  estimatedCost : ℚ
  estimatedAccuracy : Option ℚ
  coverage : ℕ

def difficultyLayers : List String := ["easy", "medium", "hard"]

/-! ## The optimizer -/

section Optimizer

variable (round : ℕ → ℚ → ℚ) (combinations : List Combination) (minAccuracy : ℚ)

/-- `_combo_rows` for one combination. -/
def Combination.row (combo : Combination) : Row :=
  let row (cost ratio : Option ℚ) (note : Option String) : Row :=
    { model := combo.model, strategy := combo.strategy, accuracy := combo.accuracy
      cost, ratio, note }
  match if combo.costKnown then combo.totalCost else none with
  | none => row none none (some "成本未知")
  | some cost =>
      if cost < 0 then row none none (some "成本未知")
      else if cost = 0 then row cost none (some "零费用")
      else
        match combo.accuracy, combo.solved with
        | some _, some solved => row cost (round 3 (solved / cost)) none
        | _, _ => row cost none (some "结果不足")

/-- The combinations with a model and a strategy, one for each repeat. -/
def sourceCombos (model strategy : Option String) : List Combination :=
  combinations.filter fun combo => combo.model = model && combo.strategy = strategy

/-- The counts are those of the first repeat. -/
def layerStats (model strategy : Option String) (layer : String) : Option Stats :=
  (sourceCombos combinations model strategy).head?.bind fun combo =>
    combo.byDifficulty.lookup layer

/-- `_layer_cost` -/
def layerCost (row : Row) (layerTotal : ℕ) : ℚ :=
  let total := ((sourceCombos combinations row.model row.strategy).map fun combo =>
    combo.runTotal.getD 0).sum
  if total = 0 then 0 else row.cost.getD 0 * layerTotal / total

/-- The body of the loop over the rows. -/
def Row.candidate (layer : String) (row : Row) : Option Candidate :=
  match layerStats combinations row.model row.strategy layer with
  | none => none
  | some stats =>
      let total := stats.total.getD 0
      let layerAccuracy : ℚ := stats.solved.getD 0 / total
      if total = 0 || layerAccuracy < minAccuracy then none
      else some
        { row
          layerAccuracy := round 4 layerAccuracy
          throughput := row.ratio.getD 0
          layerCost := round 6 (layerCost combinations row total)
          layerTotal := total }

/-- The rows that are compared. -/
def comparedRows : List Row :=
  (combinations.map fun combo => combo.row round).filter fun row =>
    row.available && row.accuracy.isSome

/-- The choice for one difficulty. -/
def settleLayer (layer : String) (remaining : ℚ) : Entry :=
  let candidates :=
    (comparedRows round combinations).filterMap fun row =>
      row.candidate round combinations minAccuracy layer
  match (sortDescending Candidate.key candidates).head? with
  | none => .noCandidates
  | some chosen =>
      if remaining < chosen.layerCost then .overBudget chosen.layerCost remaining
      else .feasible chosen.row.model chosen.row.strategy chosen.layerAccuracy chosen.layerCost
        chosen.layerTotal

/-- The loop over the difficulties, with what remains of the budget behind it. -/
def settleLayers : List String → ℚ → List (String × Entry) × ℚ
  | [], remaining => ([], remaining)
  | layer :: layers, remaining =>
      let entry := settleLayer round combinations minAccuracy layer remaining
      let (entries, left) := settleLayers layers (remaining - entry.estimatedCost)
      ((layer, entry) :: entries, left)

/-- `optimize_budget` -/
def optimizeBudget (budget : ℚ) : Plan :=
  let (layers, remaining) := settleLayers round combinations minAccuracy difficultyLayers budget
  let entries := layers.map Prod.snd
  let coverage := (entries.map Entry.problems).sum
  { budget
    minAccuracy
    layers
    estimatedCost := round 6 (budget - remaining)
    estimatedAccuracy :=
      if coverage = 0 then none
      else round 4 ((entries.map fun entry => entry.layerAccuracy * (entry.problems : ℚ)).sum
          / coverage)
    coverage }

end Optimizer

/-! ## Plans -/

/-- What the comparison tells of a combination in a difficulty. -/
structure Evidence where
  cost : ℚ
  solved : ℕ
  layerSolved : ℕ
  layerTotal : ℕ

/-- Throughput comes before the accuracy in the difficulty. -/
def Evidence.key (round : ℕ → ℚ → ℚ) (evidence : Evidence) : ℚ ×ₗ ℚ :=
  toLex (round 3 (evidence.solved / evidence.cost),
    round 4 (evidence.layerSolved / evidence.layerTotal))

/-- A combination with a positive known cost and known results that reaches the accuracy; the
counts are those of the first combination with its model and strategy. -/
structure Passes (combinations : List Combination) (minAccuracy : ℚ) (layer : String)
    (combo : Combination) (evidence : Evidence) : Prop where
  known : combo.costKnown = true
  cost : combo.totalCost = some evidence.cost
  positive : 0 < evidence.cost
  accuracy : combo.accuracy ≠ none
  solved : combo.solved = some evidence.solved
  stats : ∃ stats, layerStats combinations combo.model combo.strategy layer = some stats ∧
    stats.solved.getD 0 = evidence.layerSolved ∧ stats.total.getD 0 = evidence.layerTotal
  nonempty : evidence.layerTotal ≠ 0
  reaches : minAccuracy ≤ (evidence.layerSolved : ℚ) / evidence.layerTotal

/-- The first of the combinations that pass with the greatest key, and its estimated cost. -/
structure Chosen (round : ℕ → ℚ → ℚ) (combinations : List Combination) (minAccuracy : ℚ)
    (layer : String) (combo : Combination) (evidence : Evidence) (estimate : ℚ) : Prop where
  passes : Passes combinations minAccuracy layer combo evidence
  first : ∃ before after, combinations = before ++ combo :: after ∧
    (∀ other ∈ before, ∀ theirs, Passes combinations minAccuracy layer other theirs →
      theirs.key round < evidence.key round) ∧
    ∀ other ∈ after, ∀ theirs, Passes combinations minAccuracy layer other theirs →
      theirs.key round ≤ evidence.key round
  /-- A combination that is listed once costs its share of the run. -/
  share : sourceCombos combinations combo.model combo.strategy = [combo] →
    estimate = round 6 (evidence.cost * evidence.layerTotal / combo.runTotal.getD 0)

/-- The entry is right for what remains. -/
def Settled (round : ℕ → ℚ → ℚ) (combinations : List Combination) (minAccuracy : ℚ)
    (layer : String) (remaining : ℚ) : Entry → Prop
  | .noCandidates => ∀ combo ∈ combinations, ∀ evidence,
      ¬Passes combinations minAccuracy layer combo evidence
  | .overBudget layerCost left => left = remaining ∧ remaining < layerCost ∧
      ∃ combo evidence, Chosen round combinations minAccuracy layer combo evidence layerCost
  | .feasible model strategy layerAccuracy estimatedCost problems => estimatedCost ≤ remaining ∧
      ∃ combo evidence, Chosen round combinations minAccuracy layer combo evidence estimatedCost ∧
        model = combo.model ∧ strategy = combo.strategy ∧
        layerAccuracy = round 4 (evidence.layerSolved / evidence.layerTotal) ∧
        problems = evidence.layerTotal

/-- The estimated cost of some difficulties. -/
def spent (layers : List (String × Entry)) : ℚ :=
  (layers.map fun layer => layer.2.estimatedCost).sum

structure Planned (round : ℕ → ℚ → ℚ) (combinations : List Combination) (minAccuracy budget : ℚ)
    (plan : Plan) : Prop where
  layers : plan.layers.map Prod.fst = difficultyLayers
  settled : ∀ before layer entry after, plan.layers = before ++ (layer, entry) :: after →
    Settled round combinations minAccuracy layer (budget - spent before) entry
  estimatedCost : plan.estimatedCost = round 6 (spent plan.layers)
  withinBudget : spent plan.layers ≤ max budget 0

section Planning

variable {round : ℕ → ℚ → ℚ} {combinations : List Combination} {minAccuracy : ℚ}

/-- The row of a combination that passes. -/
def pricedRow (round : ℕ → ℚ → ℚ) (combo : Combination) (evidence : Evidence) : Row where
  model := combo.model
  strategy := combo.strategy
  accuracy := combo.accuracy
  cost := some evidence.cost
  ratio := some (round 3 (evidence.solved / evidence.cost))
  note := none

/-- The candidate that a combination gives. -/
def Combination.candidate (round : ℕ → ℚ → ℚ) (combinations : List Combination) (minAccuracy : ℚ)
    (layer : String) (combo : Combination) : Option Candidate :=
  if (combo.row round).available && (combo.row round).accuracy.isSome then
    (combo.row round).candidate round combinations minAccuracy layer
  else none

theorem comparedRows_filterMap (layer : String) :
    (comparedRows round combinations).filterMap (fun row =>
        row.candidate round combinations minAccuracy layer) =
      combinations.filterMap (Combination.candidate round combinations minAccuracy layer) := by
  rw [comparedRows, List.filterMap_filter, List.filterMap_map]
  apply List.filterMap_congr
  intro combo _
  rw [Combination.candidate, Function.comp_apply]

theorem row_of_priced {combo : Combination} {evidence : Evidence}
    (hknown : combo.costKnown = true) (hcost : combo.totalCost = some evidence.cost)
    (hpositive : 0 < evidence.cost) (haccuracy : combo.accuracy ≠ none)
    (hsolved : combo.solved = some evidence.solved) :
    combo.row round = pricedRow round combo evidence := by
  obtain ⟨accuracy, haccuracy⟩ := Option.ne_none_iff_exists'.mp haccuracy
  rw [Combination.row, if_pos hknown, hcost]
  dsimp only
  rw [if_neg hpositive.le.not_gt, if_neg hpositive.ne', haccuracy, hsolved, pricedRow, haccuracy]

/-- Only rows with a ratio are available. -/
theorem priced_of_available {combo : Combination} (havailable : (combo.row round).available) :
    ∃ cost solved, combo.costKnown = true ∧ combo.totalCost = some cost ∧ 0 < cost ∧
      combo.accuracy ≠ none ∧ combo.solved = some solved := by
  rw [Combination.row, Row.available] at havailable
  by_cases hknown : combo.costKnown = true
  · rw [if_pos hknown] at havailable
    cases hcost : combo.totalCost with
    | none =>
        rw [hcost] at havailable
        cases havailable
    | some cost =>
        rw [hcost] at havailable
        dsimp only at havailable
        split_ifs at havailable with hnegative hzero
        · cases havailable
        · cases havailable
        · have hpositive : 0 < cost := lt_of_le_of_ne (not_lt.mp hnegative) (Ne.symm hzero)
          cases haccuracy : combo.accuracy with
          | none =>
              rw [haccuracy] at havailable
              cases havailable
          | some accuracy =>
              cases hsolved : combo.solved with
              | none =>
                  rw [haccuracy, hsolved] at havailable
                  cases havailable
              | some solved =>
                  exact ⟨cost, solved, hknown, rfl, hpositive, Option.some_ne_none _, rfl⟩
  · rw [if_neg hknown] at havailable
    cases havailable

/-- The candidate with the evidence for it. -/
def ofEvidence (round : ℕ → ℚ → ℚ) (combinations : List Combination) (combo : Combination)
    (evidence : Evidence) : Candidate where
  row := pricedRow round combo evidence
  layerAccuracy := round 4 (evidence.layerSolved / evidence.layerTotal)
  throughput := round 3 (evidence.solved / evidence.cost)
  layerCost := round 6
    (layerCost combinations (pricedRow round combo evidence) evidence.layerTotal)
  layerTotal := evidence.layerTotal

theorem layerCost_of_once {row : Row} {combo : Combination}
    (honce : sourceCombos combinations row.model row.strategy = [combo]) (layerTotal : ℕ) :
    layerCost combinations row layerTotal =
      row.cost.getD 0 * layerTotal / combo.runTotal.getD 0 := by
  rw [layerCost, honce, List.map_singleton, List.sum_singleton]
  split_ifs with hzero
  · rw [hzero, Nat.cast_zero, div_zero]
  · rfl

/-- A combination that passes gives a candidate. -/
theorem Passes.candidate {layer : String} {combo : Combination} {evidence : Evidence}
    (hpasses : Passes combinations minAccuracy layer combo evidence) :
    combo.candidate round combinations minAccuracy layer =
      some (ofEvidence round combinations combo evidence) := by
  obtain ⟨stats, hstats, hsolved, htotal⟩ := hpasses.stats
  have haccuracy : (pricedRow round combo evidence).accuracy.isSome :=
    Option.isSome_iff_ne_none.mpr hpasses.accuracy
  have hkept : (decide (evidence.layerTotal = 0) || decide ((evidence.layerSolved : ℚ) /
      evidence.layerTotal < minAccuracy)) = false := by
    rw [decide_eq_false hpasses.nonempty, decide_eq_false hpasses.reaches.not_gt]
    rfl
  rw [Combination.candidate, row_of_priced hpasses.known hpasses.cost hpasses.positive
    hpasses.accuracy hpasses.solved, haccuracy, Bool.and_true, if_pos (by rfl), Row.candidate]
  change (match layerStats combinations combo.model combo.strategy layer with
    | none => none
    | some stats => _) = _
  rw [hstats]
  dsimp only
  rw [hsolved, htotal, hkept, if_neg Bool.false_ne_true]
  rfl

/-- Only a combination that passes gives a candidate. -/
theorem passes_of_candidate {layer : String} {combo : Combination} {candidate : Candidate}
    (hcandidate : combo.candidate round combinations minAccuracy layer = some candidate) :
    ∃ evidence, Passes combinations minAccuracy layer combo evidence := by
  rw [Combination.candidate] at hcandidate
  split_ifs at hcandidate with hrow
  rw [Bool.and_eq_true] at hrow
  obtain ⟨cost, solved, hknown, hcost, hpositive, haccuracy, hsolved⟩ :=
    priced_of_available hrow.1
  have hmodel : (combo.row round).model = combo.model ∧
      (combo.row round).strategy = combo.strategy := by
    have hpriced := @row_of_priced round combo ⟨cost, solved, 0, 0⟩ hknown hcost hpositive haccuracy
      hsolved
    rw [hpriced]
    exact ⟨rfl, rfl⟩
  rw [Row.candidate, hmodel.1, hmodel.2] at hcandidate
  cases hstats : layerStats combinations combo.model combo.strategy layer with
  | none =>
      rw [hstats] at hcandidate
      cases hcandidate
  | some stats =>
      rw [hstats] at hcandidate
      dsimp only at hcandidate
      split_ifs at hcandidate with hskipped
      rw [Bool.or_eq_true, decide_eq_true_eq, decide_eq_true_eq, not_or, not_lt] at hskipped
      exact ⟨⟨cost, solved, stats.solved.getD 0, stats.total.getD 0⟩,
        { known := hknown
          cost := hcost
          positive := hpositive
          accuracy := haccuracy
          solved := hsolved
          stats := ⟨stats, hstats, rfl, rfl⟩
          nonempty := hskipped.1
          reaches := hskipped.2 }⟩

/-- The head of the sorted candidates is the choice. -/
theorem chosen_of_head {layer : String} {candidate : Candidate}
    (hhead : (sortDescending Candidate.key (combinations.filterMap
      (Combination.candidate round combinations minAccuracy layer))).head? = some candidate) :
    ∃ combo evidence, candidate = ofEvidence round combinations combo evidence ∧
      Chosen round combinations minAccuracy layer combo evidence candidate.layerCost := by
  obtain ⟨_, _, hmax⟩ := firstMax_of_head hhead
  obtain ⟨before, combo, after, hsplit, hcandidate, hbefore, hafter⟩ := hmax.of_filterMap
  obtain ⟨evidence, hpasses⟩ := passes_of_candidate hcandidate
  have hequal : candidate = ofEvidence round combinations combo evidence :=
    Option.some.inj (hcandidate.symm.trans hpasses.candidate)
  refine ⟨combo, evidence, hequal, hpasses, ⟨before, after, hsplit, ?_, ?_⟩, ?_⟩
  · intro other hother theirs htheirs
    have hkey := hbefore other hother _ htheirs.candidate
    rw [hequal] at hkey
    exact hkey
  · intro other hother theirs htheirs
    have hkey := hafter other hother _ htheirs.candidate
    rw [hequal] at hkey
    exact hkey
  · intro honce
    rw [hequal, ofEvidence, layerCost_of_once honce]
    rfl

theorem settleLayer_settled (layer : String) (remaining : ℚ) :
    Settled round combinations minAccuracy layer remaining
      (settleLayer round combinations minAccuracy layer remaining) := by
  rw [settleLayer, comparedRows_filterMap]
  cases hhead : (sortDescending Candidate.key (combinations.filterMap
      (Combination.candidate round combinations minAccuracy layer))).head? with
  | none =>
      intro combo hcombo evidence hpasses
      have hmem : ofEvidence round combinations combo evidence ∈
          sortDescending Candidate.key (combinations.filterMap
            (Combination.candidate round combinations minAccuracy layer)) := by
        rw [sortDescending, List.mem_insertionSort]
        exact List.mem_filterMap.mpr ⟨combo, hcombo, hpasses.candidate⟩
      rw [List.head?_eq_none_iff.mp hhead] at hmem
      cases hmem
  | some candidate =>
      obtain ⟨combo, evidence, hequal, hchosen⟩ := chosen_of_head hhead
      dsimp only
      split_ifs with hover
      · exact ⟨rfl, hover, combo, evidence, hchosen⟩
      · refine ⟨not_lt.mp hover, combo, evidence, hchosen, ?_⟩
        rw [hequal]
        exact ⟨rfl, rfl, rfl, rfl⟩

theorem spent_cons (layer : String) (entry : Entry) (layers : List (String × Entry)) :
    spent ((layer, entry) :: layers) = entry.estimatedCost + spent layers := by
  rw [spent, List.map_cons, List.sum_cons, ← spent]

/-- A choice fits what remains. -/
theorem estimatedCost_settleLayer (layer : String) (remaining : ℚ) :
    (settleLayer round combinations minAccuracy layer remaining).estimatedCost = 0 ∨
      (settleLayer round combinations minAccuracy layer remaining).estimatedCost ≤ remaining := by
  have hsettled : Settled round combinations minAccuracy layer remaining
      (settleLayer round combinations minAccuracy layer remaining) := settleLayer_settled _ _
  cases hentry : settleLayer round combinations minAccuracy layer remaining with
  | noCandidates => exact .inl rfl
  | overBudget layerCost left => exact .inl rfl
  | feasible model strategy layerAccuracy estimatedCost problems =>
      rw [hentry] at hsettled
      exact .inr hsettled.1

theorem settleLayers_names (layers : List String) (remaining : ℚ) :
    (settleLayers round combinations minAccuracy layers remaining).1.map Prod.fst = layers := by
  induction layers generalizing remaining with
  | nil => rfl
  | cons layer layers ih =>
      rw [settleLayers, List.map_cons]
      exact congrArg (List.cons layer) (ih _)

/-- What remains is the budget without what was spent. -/
theorem settleLayers_remaining (layers : List String) (remaining : ℚ) :
    (settleLayers round combinations minAccuracy layers remaining).2 =
      remaining - spent (settleLayers round combinations minAccuracy layers remaining).1 := by
  induction layers generalizing remaining with
  | nil => exact (sub_zero remaining).symm
  | cons layer layers ih =>
      rw [settleLayers]
      dsimp only
      rw [ih, spent_cons, sub_sub]

theorem settleLayers_settled (layers : List String) (remaining : ℚ)
    (before : List (String × Entry)) {layer : String} {entry : Entry}
    {after : List (String × Entry)}
    (hsplit : (settleLayers round combinations minAccuracy layers remaining).1 =
      before ++ (layer, entry) :: after) :
    Settled round combinations minAccuracy layer (remaining - spent before) entry := by
  induction before generalizing layers remaining with
  | nil =>
      cases layers with
      | nil => cases hsplit
      | cons first layers =>
          rw [settleLayers] at hsplit
          obtain ⟨hhead, -⟩ := List.cons_eq_cons.mp hsplit
          cases hhead
          rw [spent, List.map_nil, List.sum_nil, sub_zero]
          exact settleLayer_settled _ _
  | cons found before ih =>
      cases layers with
      | nil => cases hsplit
      | cons first layers =>
          rw [settleLayers] at hsplit
          obtain ⟨hhead, htail⟩ := List.cons_eq_cons.mp hsplit
          cases hhead
          rw [spent_cons, ← sub_sub]
          exact ih layers _ htail

/-- No more is spent than the budget allows. -/
theorem settleLayers_within (layers : List String) (remaining : ℚ) :
    spent (settleLayers round combinations minAccuracy layers remaining).1 ≤ max remaining 0 := by
  induction layers generalizing remaining with
  | nil => exact le_max_right remaining 0
  | cons layer layers ih =>
      rw [settleLayers, spent_cons]
      set entry := settleLayer round combinations minAccuracy layer remaining with hentry
      have hrest := ih (remaining - entry.estimatedCost)
      rcases hentry ▸ estimatedCost_settleLayer layer remaining with hfree | hfits
      · rw [hfree, sub_zero] at hrest
        rw [hfree, sub_zero, zero_add]
        exact hrest
      · rw [max_eq_left (sub_nonneg.mpr hfits)] at hrest
        have hsum := le_sub_iff_add_le'.mp hrest
        exact hsum.trans (le_max_left remaining 0)

theorem optimizeBudget_layers (budget : ℚ) :
    (optimizeBudget round combinations minAccuracy budget).layers =
      (settleLayers round combinations minAccuracy difficultyLayers budget).1 := by
  rw [optimizeBudget]

/-- The plan takes the best throughput in each difficulty and stays within the budget. -/
theorem optimizeBudget_planned (round : ℕ → ℚ → ℚ) (combinations : List Combination)
    (minAccuracy budget : ℚ) :
    Planned round combinations minAccuracy budget
      (optimizeBudget round combinations minAccuracy budget) := by
  constructor
  · rw [optimizeBudget_layers]
    exact settleLayers_names _ _
  · intro before layer entry after hsplit
    rw [optimizeBudget_layers] at hsplit
    exact settleLayers_settled _ _ before hsplit
  · rw [optimizeBudget_layers, optimizeBudget]
    dsimp only
    rw [settleLayers_remaining, sub_sub_cancel]
  · rw [optimizeBudget_layers]
    exact settleLayers_within _ _

end Planning

/-- Five problems a dollar beat four, but a dollar is cheaper than two. -/
def unequalCombinations : List Combination :=
  [{ model := some "pro", strategy := some "vanilla", accuracy := some 1, costKnown := true
     totalCost := some 2, solved := some 10, runTotal := some 10
     byDifficulty := [("easy", { solved := some 10, total := some 10 })] },
   { model := some "mini", strategy := some "vanilla", accuracy := some (2 / 5), costKnown := true
     totalCost := some 1, solved := some 4, runTotal := some 10
     byDifficulty := [("easy", { solved := some 4, total := some 10 })] }]

/-- The dearer combination is chosen, and with a smaller budget none although the cheaper one
would fit. -/
theorem optimizeBudget_not_cheapest :
    (optimizeBudget (fun _ => id) unequalCombinations 0 10).layers.head? =
        some ("easy", .feasible (some "pro") (some "vanilla") 1 2 10) ∧
      (optimizeBudget (fun _ => id) unequalCombinations 0 1).layers.head? =
        some ("easy", .overBudget 2 1) ∧
      (optimizeBudget (fun _ => id) unequalCombinations.tail 0 1).layers.head? =
        some ("easy", .feasible (some "mini") (some "vanilla") (2 / 5) 1 10) := by
  decide +kernel

end AlgorithmHarness.CostOptimizer
