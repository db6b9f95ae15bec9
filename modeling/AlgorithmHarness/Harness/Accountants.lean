import AlgorithmHarness.Harness.Cost
import Mathlib.Algebra.BigOperators.Group.List.Basic
import Mathlib.Tactic.Linarith

/-!
# Two accountants of one list of results

`result_cost` is to mirror `_estimate_cost`.  Both are sums over the traces;
they part on costs that only one of them counts and on results and traces that
only one of them takes for unknown.
-/

namespace AlgorithmHarness.Harness

/-! ## What each of them reads off a trace -/

/-- The cost `_estimate_cost` adds. -/
def LlmTrace.counted (trace : LlmTrace) : Option Amount :=
  trace.pricingMetadata.bind PricingMetadata.countedCost

/-- The cost `result_cost` adds. -/
def PricingMetadata.trustedCost (pricing : PricingMetadata) : Option ℚ :=
  if pricing.pricingKnown = some false then none
  else
    match pricing.countedCost with
    | some (.finite cost) => if cost < 0 then none else some cost
    | _ => none

def LlmTrace.trusted (trace : LlmTrace) : Option ℚ :=
  trace.pricingMetadata.bind PricingMetadata.trustedCost

/-- The pricing says of itself that it is unknown, or is absent. -/
def LlmTrace.unpriced (trace : LlmTrace) : Bool :=
  match trace.pricingMetadata with
  | none => true
  | some pricing =>
      pricing.pricingKnown = some false || pricing.source = some "unknown"

/-- `_estimate_cost` takes something about the trace for unknown. -/
def LlmTrace.flagged (trace : LlmTrace) : Bool := trace.counted.isNone || trace.unpriced

theorem settleTrace_eq (settled : ℚ × Bool) (trace : LlmTrace) :
    settleTrace settled trace =
      (settled.1 + trace.trusted.getD 0, settled.2 || trace.trusted.isNone) := by
  cases hmetadata : trace.pricingMetadata with
  | none => simp [settleTrace, LlmTrace.trusted, hmetadata]
  | some pricing =>
      have htrusted : trace.trusted = pricing.trustedCost := by
        rw [LlmTrace.trusted, hmetadata, Option.bind_some]
      rw [htrusted, PricingMetadata.trustedCost, PricingMetadata.countedCost]
      simp only [settleTrace, hmetadata]
      by_cases husage : pricing.usageKnown = some false
      · cases pricing.totalCost <;> simp [husage]
      by_cases hpricing : pricing.pricingKnown = some false
      · cases pricing.totalCost <;> simp [hpricing]
      cases pricing.totalCost with
      | none => simp [husage, hpricing]
      | some amount =>
          cases amount with
          | nonfinite => simp [husage, hpricing]
          | finite cost => by_cases hcost : cost < 0 <;> simp [husage, hpricing, hcost]

theorem foldl_settleTrace (traces : List LlmTrace) (settled : ℚ × Bool) :
    traces.foldl settleTrace settled =
      (settled.1 + (traces.filterMap LlmTrace.trusted).sum,
        settled.2 || traces.any fun trace => trace.trusted.isNone) := by
  induction traces generalizing settled with
  | nil => simp
  | cons trace traces ih =>
      rw [List.foldl_cons, ih, settleTrace_eq, List.any_cons, Bool.or_assoc]
      cases htrusted : trace.trusted with
      | none => simp [List.filterMap_cons_none htrusted]
      | some cost => simp [List.filterMap_cons_some htrusted, add_assoc]

theorem resultCost_fst (result : Account) :
    (resultCost result).1 = (result.llmTraces.filterMap LlmTrace.trusted).sum := by
  simp only [resultCost, foldl_settleTrace]
  split_ifs <;> simp

theorem resultCost_snd (result : Account) :
    (resultCost result).2 =
      ((result.llmTraces.isEmpty && result.totalTokens ≠ 0) ||
        result.llmTraces.any fun trace => trace.trusted.isNone) := by
  simp only [resultCost, foldl_settleTrace]
  cases hempty : result.llmTraces.isEmpty with
  | false => simp
  | true =>
      rw [List.isEmpty_iff] at hempty
      by_cases htokens : result.totalTokens = 0 <;> simp [hempty, htokens]

section Estimate

variable (round : ℚ → ℚ → Amount)

def floatSum (amounts : List Amount) : Amount :=
  amounts.foldl (Amount.plus round) (.finite 0)

/-- `unknown_usage` or `unknown_pricing`. -/
def CostEstimate.unknown (estimate : CostEstimate) : Bool :=
  estimate.unknownUsage || estimate.unknownPricing

/-- The costs `_estimate_cost` adds, in its order. -/
def counted (results : List Account) : List Amount :=
  results.flatMap fun result => result.llmTraces.filterMap LlmTrace.counted

def Account.flagged (result : Account) : Bool :=
  result.llmTraces.isEmpty || result.llmTraces.any LlmTrace.flagged

end Estimate

/-! ## Where they agree -/

def Amount.decimal : Amount → ℚ
  | .finite decimal => decimal
  | .nonfinite => 0

end AlgorithmHarness.Harness
