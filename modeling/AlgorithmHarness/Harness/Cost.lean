import AlgorithmHarness.Core.KeyedRows
import Mathlib.Data.Rat.Init

/-!
# The cost of results

The traces of a result carry the pricing of their calls.  `result_cost` settles
one result for the ledgers, and `_estimate_cost` reports on a list of results.
-/

namespace AlgorithmHarness.Harness

/-- A float by the decimal it prints; the rest are the infinities and NaN. -/
inductive Amount
  | finite (decimal : ℚ)
  | nonfinite
  deriving DecidableEq

/-- Float addition, where `round` adds two finite floats. -/
def Amount.plus (round : ℚ → ℚ → Amount) : Amount → Amount → Amount
  | .finite first, .finite second => round first second
  | _, _ => .nonfinite

/-- The entries of `pricing_metadata` that the accounts read. -/
structure PricingMetadata where
  model : Option String
  totalCost : Option Amount
  usageKnown : Option Bool
  pricingKnown : Option Bool
  source : Option String
  asOf : Option String
  promptPricePer1k : Option Amount
  completionPricePer1k : Option Amount
  deriving DecidableEq

structure LlmTrace where
  promptTokens : ℕ
  completionTokens : ℕ
  totalTokens : ℕ
  pricingMetadata : Option PricingMetadata
  deriving DecidableEq

/-- What the accounts read of an `ExecutionResult`. -/
structure Account where
  totalTokens : ℕ
  llmTraces : List LlmTrace
  deriving DecidableEq

/-! ## `result_cost` -/

/-- One turn of the loop over the traces. -/
def settleTrace (settled : ℚ × Bool) (trace : LlmTrace) : ℚ × Bool :=
  match trace.pricingMetadata with
  | none => (settled.1, true)
  | some pricing =>
      match pricing.totalCost with
      | none => (settled.1, true)
      | some amount =>
          if pricing.usageKnown = some false || pricing.pricingKnown = some false then
            (settled.1, true)
          else
            match amount with
            | .nonfinite => (settled.1, true)
            | .finite cost =>
                if cost < 0 then (settled.1, true) else (settled.1 + cost, settled.2)

def resultCost (result : Account) : ℚ × Bool :=
  let (knownCost, usageUnknown) := result.llmTraces.foldl settleTrace (0, false)
  if !usageUnknown && result.llmTraces.isEmpty then
    -- a result without traces still burns unpriced tokens
    if result.totalTokens ≠ 0 then (knownCost, true) else (knownCost, usageUnknown)
  else (knownCost, usageUnknown)

/-! ## `_estimate_cost` -/

structure ModelUsage where
  promptTokens : ℕ
  completionTokens : ℕ
  totalCost : Amount
  unknownUsage : Bool
  pricingKnown : Bool
  asOf : Option String
  promptPricePer1k : Option Amount
  completionPricePer1k : Option Amount

/-- `pricing_metadata` of the estimate, its `total_cost` included. -/
structure CostEstimate where
  totalPromptTokens : ℕ := 0
  totalCompletionTokens : ℕ := 0
  totalTokens : ℕ := 0
  modelsUsed : List (String × ModelUsage) := []
  hasActualPricing : Bool := false
  unknownUsage : Bool := false
  unknownPricing : Bool := false
  totalCost : Amount := .finite 0

section Estimate

variable (round : ℚ → ℚ → Amount)

/-- The cost of a trace, unless its usage is unknown. -/
def PricingMetadata.countedCost (pricing : PricingMetadata) : Option Amount :=
  if pricing.usageKnown = some false then none else pricing.totalCost

end Estimate

end AlgorithmHarness.Harness
