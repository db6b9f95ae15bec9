import AlgorithmHarness.Harness.Cost
import AlgorithmHarness.Strategies.Extraction
import AlgorithmHarness.Strategies.RoundPrompts

/-!
# Calls of the model and of the sandbox

A session is what a strategy can change: the calls that were sent to the
provider, the budget ledger behind the client, the runs of the sandbox and the
attributes that a strategy instance keeps between problems.  What a provider
answers depends on the prompts it was sent.
-/

namespace AlgorithmHarness.Strategies

open Harness

/-! ## The provider -/

structure TokenUsage where
  promptTokens : ℕ
  completionTokens : ℕ
  totalTokens : ℕ
  reasoningTokens : ℕ
  deriving DecidableEq

structure LlmResponse where
  text : String
  usage : TokenUsage
  pricingMetadata : Option PricingMetadata
  usageMissing : Bool
  reasoningText : Option String
  deriving DecidableEq

/-- What a call of the provider comes to. -/
inductive Outcome
  | answered (response : LlmResponse)
  | failed (message : String)
  deriving DecidableEq

/-- What `generate` comes to; `refused` is a `BudgetExhausted`. -/
inductive Reply
  | answered (response : LlmResponse)
  | failed (message : String)
  | refused (reason : String)

def Outcome.reply : Outcome → Reply
  | .answered response => .answered response
  | .failed message => .failed message

namespace Reply

def response : Reply → Option LlmResponse
  | .answered response => some response
  | _ => none

def failure : Reply → Option String
  | .failed message => some message
  | _ => none

def refusal : Reply → Option String
  | .refused reason => some reason
  | _ => none

end Reply

/-- The provider and the interpreter; prompts are listed with the last first. -/
structure Runtime where
  executor : SandboxExecutor
  host : Host
  provider : List String → Outcome
  /-- How long the problem has taken when the last of these prompts is sent. -/
  elapsed : List String → ℚ
  /-- Addition of floats. -/
  round : ℚ → ℚ → Amount

/-! ## The budget -/

structure ProblemBudget where
  maxCalls : Option ℕ
  maxTokens : Option ℕ
  maxSeconds : Option ℚ
  deriving DecidableEq

structure LedgerEntry where
  calls : ℕ := 0
  promptTokens : ℕ := 0
  completionTokens : ℕ := 0
  reasoningTokens : ℕ := 0
  totalTokens : ℕ := 0
  usageMissingSeen : Bool := false
  stopReason : Option String := none
  deriving DecidableEq

structure BudgetTracker where
  budget : Option ProblemBudget
  currentProblem : Option String := none
  ledger : List (String × LedgerEntry) := []
  tokenBudgetUnsupported : Bool := false
  deriving DecidableEq

def stopCompleted : String := "completed"
def stopMaxCalls : String := "budget_exhausted: max_calls"
def stopMaxTokens : String := "budget_exhausted: max_tokens"
def stopMaxSeconds : String := "budget_exhausted: max_seconds"

/-- Why a budget does not cover another call. -/
def ProblemBudget.refusal (budget : ProblemBudget) (entry : LedgerEntry) (elapsed : ℚ) :
    Option String :=
  if budget.maxCalls.any (· ≤ entry.calls) then some stopMaxCalls
  else if budget.maxTokens.any (· ≤ entry.totalTokens) then some stopMaxTokens
  else if budget.maxSeconds.any (· ≤ elapsed) then some stopMaxSeconds
  else none

namespace BudgetTracker

variable (tracker : BudgetTracker)

def beginProblem (problemId : String) : BudgetTracker :=
  { tracker with
    currentProblem := some problemId
    ledger := KeyedRows.put Prod.fst (problemId, {}) tracker.ledger }

/-- `_entry` -/
def entry : Option LedgerEntry :=
  tracker.currentProblem.bind fun problemId =>
    (KeyedRows.fetch Prod.fst problemId tracker.ledger).map Prod.snd

/-- The entry of the current problem is changed in place. -/
def setEntry (entry : LedgerEntry) : BudgetTracker :=
  match tracker.currentProblem with
  | none => tracker
  | some problemId =>
      { tracker with ledger := KeyedRows.put Prod.fst (problemId, entry) tracker.ledger }

/-- `allow_call`, with the reason of a refusal. -/
def allowCall (elapsed : ℚ) : Option String :=
  match tracker.entry, tracker.budget with
  | some entry, some budget => budget.refusal entry elapsed
  | _, _ => none

/-- `_admit_call`; the error is the message of the exception. -/
def admitCall (elapsed : ℚ) : Except String Unit × BudgetTracker :=
  match tracker.entry with
  | none => (.ok (), tracker)
  | some entry =>
      match tracker.allowCall elapsed with
      | some reason =>
          (.error reason, tracker.setEntry { entry with stopReason := some reason })
      | none => (.ok (), tracker.setEntry { entry with calls := entry.calls + 1 })

def record (response : LlmResponse) : BudgetTracker :=
  match tracker.entry with
  | none => tracker
  | some entry =>
      let settled := tracker.setEntry
        { entry with
          promptTokens := entry.promptTokens + response.usage.promptTokens
          completionTokens := entry.completionTokens + response.usage.completionTokens
          reasoningTokens := entry.reasoningTokens + response.usage.reasoningTokens
          totalTokens := entry.totalTokens + response.usage.totalTokens
          usageMissingSeen := entry.usageMissingSeen || response.usageMissing }
      if response.usageMissing && (tracker.budget.any fun budget => budget.maxTokens.isSome) then
        { settled with tokenBudgetUnsupported := true }
      else settled

/-- Only a response is recorded. -/
def settled (outcome : Outcome) : BudgetTracker :=
  match outcome with
  | .answered response => tracker.record response
  | .failed _ => tracker

def finalizeProblem : BudgetTracker :=
  match tracker.entry with
  | none => tracker
  | some entry =>
      if entry.stopReason.isNone then
        tracker.setEntry { entry with stopReason := some stopCompleted }
      else tracker

end BudgetTracker

/-! ## Iterations -/

structure IterationResult where
  iteration : ℕ
  promptTokens : ℕ
  completionTokens : ℕ
  codeExtracted : Option String
  sandboxResult : Option SandboxResult
  prompt : Option String
  responseText : Option String
  llmError : Option String
  sandboxError : Option String
  usageMissing : Bool
  reflectionText : Option String := none
  reflectionError : Option String := none
  reflectionPromptTokens : ℕ := 0
  reflectionCompletionTokens : ℕ := 0
  reflectionUsageMissing : Bool := false
  reflectionPricingMetadata : Option PricingMetadata := none

def redactText (host : Host) (text : String) : String :=
  Redaction.redactSensitiveText host.unicode [] text

/-- `text` as a truth value. -/
def truthy (text : Option String) : Bool := text.any (· ≠ "")

/-- `redact_sensitive_text(text) if text else None` -/
def redactTruthy (host : Host) (text : Option String) : Option String :=
  if truthy text then text.map (redactText host) else none

def createIterationResult (host : Host) (iteration : ℕ) (response : Option LlmResponse)
    (code : Option String) (sandboxResult : Option SandboxResult) (prompt : String)
    (llmError sandboxError : Option String) : IterationResult where
  iteration := iteration
  promptTokens := (response.map fun response => response.usage.promptTokens).getD 0
  completionTokens := (response.map fun response => response.usage.completionTokens).getD 0
  codeExtracted := code
  sandboxResult := sandboxResult
  prompt := redactTruthy host (some prompt)
  responseText := response.map fun response => redactText host response.text
  llmError := redactTruthy host llmError
  sandboxError := redactTruthy host sandboxError
  usageMissing := (response.map fun response => response.usageMissing).getD false

/-! ## Sessions -/

/-- What `TreeOfThoughtsStrategy` and `ReflexionStrategy` keep on the instance. -/
structure Attributes where
  callIterations : List IterationResult := []
  callResponses : List (Option LlmResponse) := []
  callContext : List (String × ℕ) := []
  budgetStop : Option String := none
  reflectionBudgetStop : Option String := none

structure Session where
  /-- The calls that reached the provider, the last first. -/
  sent : List (String × Outcome) := []
  /-- The prompts whose calls were refused, the last first. -/
  refused : List String := []
  tracker : Option BudgetTracker := none
  /-- The programs the sandbox was asked to run for this problem, the last first. -/
  executions : List (String × Stage) := []
  attributes : Attributes := {}

namespace Session

variable (session : Session)

/-- The prompts that were sent with one more, the last first. -/
def history (prompt : String) : List String := prompt :: session.sent.map Prod.fst

/-- The call reaches the provider. -/
def send (runtime : Runtime) (prompt : String) : Session :=
  { session with sent := (prompt, runtime.provider (session.history prompt)) :: session.sent }

/-- `generate`, through a `BudgetedLLMClient` if there is a tracker. -/
def generate (runtime : Runtime) (prompt : String) : Reply × Session :=
  let outcome := runtime.provider (session.history prompt)
  match session.tracker with
  | none => (outcome.reply, session.send runtime prompt)
  | some tracker =>
      match tracker.admitCall (runtime.elapsed (session.history prompt)) with
      | (.error reason, tracker) =>
          (.refused reason,
            { session with tracker := some tracker, refused := prompt :: session.refused })
      | (.ok (), tracker) =>
          (outcome.reply,
            { session.send runtime prompt with tracker := some (tracker.settled outcome) })

/-- The sandbox was asked for these runs. -/
def ran (executions : List (String × Stage)) : Session :=
  { session with executions := executions ++ session.executions }

end Session

end AlgorithmHarness.Strategies
