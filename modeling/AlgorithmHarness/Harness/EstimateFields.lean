import AlgorithmHarness.Harness.Accountants
import Mathlib.Data.List.Induction
import Mathlib.Data.List.Perm.Basic

/-!
# An estimate field by field

What `_estimate_cost` counts does not depend on the order of the results.  Its
sums of floats do, and so does what it keeps of the first call of a model.
-/

namespace AlgorithmHarness.Harness

open KeyedRows

/-! ## Counts -/

/-- The fields of an estimate that only count. -/
structure Counts where
  promptTokens : ℕ := 0
  completionTokens : ℕ := 0
  totalTokens : ℕ := 0
  hasActualPricing : Bool := false
  unknownUsage : Bool := false
  unknownPricing : Bool := false
  deriving DecidableEq

namespace Counts

def add (first second : Counts) : Counts where
  promptTokens := first.promptTokens + second.promptTokens
  completionTokens := first.completionTokens + second.completionTokens
  totalTokens := first.totalTokens + second.totalTokens
  hasActualPricing := first.hasActualPricing || second.hasActualPricing
  unknownUsage := first.unknownUsage || second.unknownUsage
  unknownPricing := first.unknownPricing || second.unknownPricing

theorem add_assoc (first second third : Counts) :
    (first.add second).add third = first.add (second.add third) := by
  simp only [add, Nat.add_assoc, Bool.or_assoc]

theorem add_right_comm (first second third : Counts) :
    (first.add second).add third = (first.add third).add second := by
  simp only [add, Nat.add_right_comm, Bool.or_right_comm]

end Counts

section Estimate

variable (round : ℚ → ℚ → Amount)

/-- A priced call. -/
structure Call where
  trace : LlmTrace
  pricing : PricingMetadata

/-- The call of a trace, if it is one of the model. -/
def callOf (model : String) (trace : LlmTrace) : Option Call :=
  trace.pricingMetadata.bind fun pricing =>
    if pricing.model.getD "unknown" = model then some { trace, pricing } else none

/-- The calls of a model in order. -/
def callsOf (model : String) (results : List Account) : List Call :=
  (results.flatMap Account.llmTraces).filterMap (callOf model)

/-- `models_used[model]` -/
def CostEstimate.usage (estimate : CostEstimate) (model : String) : Option ModelUsage :=
  (fetch Prod.fst model estimate.modelsUsed).map Prod.snd

/-- The price entries that are kept of the first call. -/
@[ext]
structure Prices where
  known : Bool
  asOf : Option String
  prompt : Option Amount
  completion : Option Amount
  deriving DecidableEq

def Call.prices (call : Call) : Prices where
  known := call.pricing.pricingKnown.getD true
  asOf := call.pricing.asOf
  prompt := call.pricing.promptPricePer1k
  completion := call.pricing.completionPricePer1k

def callCosts (calls : List Call) : List Amount :=
  calls.filterMap fun call => call.pricing.countedCost

/-- Exact additions do not depend on the order. -/
theorem floatSum_perm (hexact : ∀ first second, round first second = .finite (first + second))
    {amounts others : List Amount} (hperm : amounts.Perm others) :
    floatSum round amounts = floatSum round others := by
  have hcomm : RightCommutative (Amount.plus round) := by
    constructor
    intro total first second
    cases total <;> cases first <;> cases second <;> simp [Amount.plus, hexact, add_right_comm]
  exact hperm.foldl_eq _

/-- The usage of a model by its calls. -/
def summary (calls : List Call) : Option ModelUsage :=
  calls.head?.map fun first =>
    { promptTokens := (calls.map fun call => call.trace.promptTokens).sum
      completionTokens := (calls.map fun call => call.trace.completionTokens).sum
      totalCost := floatSum round (callCosts calls)
      unknownUsage := calls.any fun call => call.pricing.countedCost.isNone
      pricingKnown := first.prices.known
      asOf := first.prices.asOf
      promptPricePer1k := first.prices.prompt
      completionPricePer1k := first.prices.completion }

end Estimate

end AlgorithmHarness.Harness
