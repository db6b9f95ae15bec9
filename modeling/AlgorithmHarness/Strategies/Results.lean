import AlgorithmHarness.Strategies.Session

/-!
# The result of a strategy

`create_execution_result`: how the iterations of a strategy, its responses and
its last sandbox result become one record.  Durations, texts of the traces and
the statistics of a vote are left out.
-/

namespace AlgorithmHarness.Strategies

open Harness

inductive ResultStatus
  | success
  | failed
  | error
  | unsupported
  | budgetExhausted
  deriving DecidableEq

inductive FailureCategory
  | wrongAnswer
  | codeExtractionFailed
  | modelError
  | systemError
  | unsupported
  | budgetExhausted
  deriving DecidableEq

/-- An entry of `llm_traces`; the statistics of a vote are of no iteration. -/
structure Trace where
  iteration : Option ℕ
  account : LlmTrace
  usageMissing : Bool
  /-- `call_type` and `node_depth` of a search. -/
  context : Option (String × ℕ) := none
  reasoningText : Option String := none

structure ExecutionResult where
  problemId : String
  strategy : String
  generatedCode : String
  status : ResultStatus
  failureCategory : Option FailureCategory
  iterations : List IterationResult := []
  finalResult : Option SandboxResult := none
  hiddenResult : Option SandboxResult := none
  formalEvaluable : Bool := false
  testResults : List TestCaseResult := []
  errorMessage : Option String
  totalTokens : ℕ := 0
  llmTraces : List Trace := []

/-- What the accounts read. -/
def ExecutionResult.account (result : ExecutionResult) : Account where
  totalTokens := result.totalTokens
  llmTraces := result.llmTraces.map Trace.account

/-! ## Failures -/

def systemStatuses : List String :=
  ["sandbox_error", "backend_unavailable", "timeout", "memory_error", "output_limit",
    "process_limit", "runtime_error", "syntax_error"]

/-- `_derive_failure_category` -/
def deriveFailureCategory (iterations : List IterationResult)
    (finalResult : Option SandboxResult) (success : Bool) : Option FailureCategory :=
  if success then none
  else if iterations.any fun iteration => truthy iteration.llmError then some .modelError
  else
    let ofFinal : FailureCategory :=
      match finalResult with
      | none => .codeExtractionFailed
      | some result =>
          if result.status = "unsupported" then .unsupported
          else if result.status ∈ systemStatuses ||
              result.testResults.any (fun case => case.status ∈ systemStatuses) then .systemError
          else .wrongAnswer
    match iterations.getLast? with
    | none => some ofFinal
    | some last =>
        if truthy last.sandboxError then some .systemError
        else if last.codeExtracted.isNone && last.sandboxResult.isNone then
          some .codeExtractionFailed
        else some ofFinal

/-! ## Pricing -/

def PricingMetadata.known (pricing : PricingMetadata) : Bool :=
  pricing.usageKnown ≠ some false && pricing.totalCost.isSome

/-- `_merge_pricing_metadata` -/
def mergePricingMetadata (round : ℚ → ℚ → Amount) (primary reflection : PricingMetadata) :
    PricingMetadata :=
  { primary with
    totalCost :=
      match primary.totalCost, reflection.totalCost with
      | some cost, some other => some (cost.plus round other)
      | _, _ => none
    usageKnown := some (PricingMetadata.known primary && PricingMetadata.known reflection) }

/-- One entry of `_build_llm_traces`. -/
def iterationTrace (iteration : IterationResult) : Trace :=
  let promptTokens := iteration.promptTokens + iteration.reflectionPromptTokens
  let completionTokens := iteration.completionTokens + iteration.reflectionCompletionTokens
  { iteration := some iteration.iteration
    account :=
      { promptTokens, completionTokens, totalTokens := promptTokens + completionTokens,
        pricingMetadata := none }
    usageMissing := iteration.usageMissing || iteration.reflectionUsageMissing }

/-- The trace of an iteration with the response at its position. -/
def pricedTrace (host : Host) (round : ℚ → ℚ → Amount) (iteration : IterationResult)
    (response : Option LlmResponse) : Trace :=
  let trace := iterationTrace iteration
  match response with
  | none => trace
  | some response =>
      let pricing :=
        match response.pricingMetadata, iteration.reflectionPricingMetadata with
        | some primary, some reflection => some (mergePricingMetadata round primary reflection)
        | some primary, none => some primary
        | none, reflection => reflection
      { trace with
        account := { trace.account with pricingMetadata := pricing }
        reasoningText := redactTruthy host response.reasoningText }

/-- The traces, with the responses paired by position. -/
def llmTraces (host : Host) (round : ℚ → ℚ → Amount) :
    List IterationResult → List (Option LlmResponse) → List Trace
  | [], _ => []
  | iteration :: iterations, [] => iterationTrace iteration :: llmTraces host round iterations []
  | iteration :: iterations, response :: responses =>
      pricedTrace host round iteration response :: llmTraces host round iterations responses

/-! ## Results -/

def resultStatus (finalResult : Option SandboxResult) (success : Bool) : ResultStatus :=
  if success then .success
  else
    match finalResult with
    | none => .failed
    | some result =>
        if result.status = "unsupported" then .unsupported
        else if truthy result.errorMessage then .error
        else .failed

def createExecutionResult (runtime : Runtime) (problem : Problem) (strategy : String)
    (iterations : List IterationResult) (finalResult : Option SandboxResult) (success : Bool)
    (responses : List (Option LlmResponse)) (failureCategory : Option FailureCategory) :
    ExecutionResult where
  problemId := problem.problemId
  strategy := strategy
  generatedCode := (iterations.getLast?.bind fun last => last.codeExtracted).getD ""
  status := resultStatus finalResult success
  failureCategory :=
    match failureCategory with
    | some category => some category
    | none => deriveFailureCategory iterations finalResult success
  iterations := iterations
  finalResult := finalResult
  testResults := (finalResult.map fun result => result.testResults).getD []
  errorMessage := finalResult.bind fun result => result.errorMessage
  totalTokens :=
    (iterations.map fun iteration =>
        iteration.promptTokens + iteration.reflectionPromptTokens).sum +
      (iterations.map fun iteration =>
        iteration.completionTokens + iteration.reflectionCompletionTokens).sum
  llmTraces := llmTraces runtime.host runtime.round iterations responses

def ExecutionResult.markBudgetExhausted (result : ExecutionResult) (reason : String) :
    ExecutionResult :=
  { result with
    status := .budgetExhausted, failureCategory := none, errorMessage := some reason }

/-- The mark of a strategy that stopped on the budget. -/
def ExecutionResult.stopped (result : ExecutionResult) (budgetStop : Option String) :
    ExecutionResult :=
  match budgetStop with
  | none => result
  | some reason => result.markBudgetExhausted reason

end AlgorithmHarness.Strategies
