import AlgorithmHarness.Strategies.TreeOfThoughts

/-!
# A problem under a strategy

`AlgorithmHarness._execute_problem` and `_run_strategy`: the strategy sees the
problem without its hidden cases, the hidden stage is run on what it returns,
and a budget tracker is pointed at one problem after the other.
-/

namespace AlgorithmHarness.Strategies

open Harness

/-- `STRATEGY_MAP` -/
inductive Strategy
  | vanilla
  | chainOfThought
  | multiRoundFeedback
  | selfConsistency
  | reflexion
  | fewShotLearning
  | treeOfThoughts
  deriving DecidableEq

def Strategy.word : Strategy → String
  | .vanilla => "vanilla"
  | .chainOfThought => "chain_of_thought"
  | .multiRoundFeedback => "multi_round_feedback"
  | .selfConsistency => "self_consistency"
  | .reflexion => "reflexion"
  | .fewShotLearning => "few_shot_learning"
  | .treeOfThoughts => "tree_of_thoughts"

structure StrategyConfig where
  name : Strategy
  rounds : RoundConfig
  examples : FewShotConfig
  tree : TreeConfig

/-- `strategy.execute` -/
def StrategyConfig.execute (config : StrategyConfig) (runtime : Runtime) (problem : Problem)
    (session : Session) : ExecutionResult × Session :=
  match config.name with
  | .vanilla => vanilla runtime problem session
  | .chainOfThought => chainOfThought runtime problem session
  | .multiRoundFeedback => multiRoundFeedback runtime config.rounds problem session
  | .selfConsistency => selfConsistency runtime config.rounds problem session
  | .reflexion => reflexion runtime config.rounds problem session
  | .fewShotLearning => fewShotLearning runtime config.examples problem session
  | .treeOfThoughts => treeOfThoughts runtime config.tree problem session

/-- The copy of a problem that a strategy receives. -/
def withoutHidden (problem : Problem) : Problem := { problem with hiddenTestCases := [] }

def unsupportedResult (strategy : Strategy) (problem : Problem) : ExecutionResult where
  problemId := problem.problemId
  strategy := strategy.word
  generatedCode := ""
  status := .unsupported
  failureCategory := some .unsupported
  errorMessage := problem.unsupportedReason

/-- The hidden result, which an exception of the sandbox becomes as well. -/
def hiddenResult (host : Host) (outcome : Except String SandboxResult) : SandboxResult :=
  match outcome with
  | .ok result => result
  | .error message =>
      { status := "sandbox_error", testResults := [], allPassed := false,
        errorMessage := some (redactText host message) }

/-- What the hidden stage makes of a result. -/
def ExecutionResult.judged (result : ExecutionResult) (hidden : SandboxResult) :
    ExecutionResult :=
  let result := { result with hiddenResult := some hidden }
  if hidden.allPassed then result
  else
    { result with
      status := .failed
      failureCategory := some (if hidden.status ≠ "failed" then .systemError else .wrongAnswer)
      errorMessage :=
        if truthy result.errorMessage then result.errorMessage
        else some "Hidden evaluation failed" }

theorem ExecutionResult.status_judged (result : ExecutionResult) (hidden : SandboxResult) :
    (result.judged hidden).status = if hidden.allPassed then result.status else .failed := by
  rw [ExecutionResult.judged]
  cases hidden.allPassed with
  | true => rfl
  | false => rfl

theorem ExecutionResult.generatedCode_judged (result : ExecutionResult)
    (hidden : SandboxResult) : (result.judged hidden).generatedCode = result.generatedCode := by
  rw [ExecutionResult.judged]
  cases hidden.allPassed with
  | true => rfl
  | false => rfl

/-- The hidden stage, which a result without a program or a budget does not reach. -/
def runHidden (runtime : Runtime) (problem : Problem) (result : ExecutionResult)
    (session : Session) : ExecutionResult × Session :=
  if problem.formalEvaluable && result.generatedCode ≠ "" &&
      result.status ≠ .budgetExhausted then
    let outcome := runtime.executor.execute result.generatedCode problem .hidden
    (result.judged (hiddenResult runtime.host outcome),
      session.ran [(result.generatedCode, .hidden)])
  else (result, session)

theorem generatedCode_runHidden (runtime : Runtime) (problem : Problem)
    (result : ExecutionResult) (session : Session) :
    (runHidden runtime problem result session).1.generatedCode = result.generatedCode := by
  rw [runHidden]
  split_ifs
  · exact result.generatedCode_judged _
  · rfl

/-- `_execute_problem` -/
def executeProblem (runtime : Runtime) (config : StrategyConfig) (problem : Problem)
    (session : Session) : ExecutionResult × Session :=
  let session := { session with executions := [] }
  if problem.unsupported then (unsupportedResult config.name problem, session)
  else
    let run := config.execute runtime (withoutHidden problem) session
    runHidden runtime problem { run.1 with formalEvaluable := problem.formalEvaluable } run.2

namespace Session

variable (session : Session)

def beginProblem (problem : Problem) : Session :=
  { session with
    tracker := session.tracker.map fun tracker => tracker.beginProblem problem.problemId }

def finalizeProblem : Session :=
  { session with tracker := session.tracker.map BudgetTracker.finalizeProblem }

end Session

/-- The problems of `_run_strategy` in turn, each with the session it leaves. -/
def runStrategy (runtime : Runtime) (config : StrategyConfig) :
    List Problem → Session → List (ExecutionResult × Session)
  | [], _ => []
  | problem :: problems, session =>
      let run := executeProblem runtime config problem (session.beginProblem problem)
      let session := run.2.finalizeProblem
      (run.1, session) :: runStrategy runtime config problems session

/-- A sandbox in which one program returns 1 and every other one 0. -/
def trialExecutor : SandboxExecutor where
  run := fun program =>
    match program with
    | .call code _ _ =>
        .returned (.int (if code = "def solution(): return 1" then 1 else 0)) none
    | .script _ _ => .timedOut
  timeoutSeconds := "5"
  allowedImports := []
  allowedText := "set()"
  unavailable := none
  isWord := fun c => c.isAlphanum || c = '_'
  printable := fun _ => true
  arithmetic :=
    { ofBool := fun value => .int (if value then 1 else 0)
      same := fun number other =>
        match number, other with
        | .int value, .int second => value = second
        | _, _ => false
      toFloat := fun _ => .ok .zero
      isClose := fun _ _ _ => false
      toFloat_of_same := fun _ _ _ => ⟨.zero, rfl⟩ }
  loads := fun _ => none

def trialHost : Host where
  unicode := { isWord := fun c => c.isAlphanum, casefold := fun c => [c.toLower] }
  lower := id
  digit := fun _ => none
  setOrder := id

/-- The runtime of a provider that counts the prompts it was sent. -/
def trial (provider : ℕ → Outcome) : Runtime where
  executor := trialExecutor
  host := trialHost
  provider := fun prompts => provider prompts.length
  elapsed := fun _ => 0
  round := fun cost other => .finite (cost + other)

def trialResponse (text : String) : LlmResponse where
  text := text
  usage := { promptTokens := 5, completionTokens := 3, totalTokens := 8, reasoningTokens := 0 }
  pricingMetadata := none
  usageMissing := false
  reasoningText := none

/-- The case that the result is 1. -/
def trialCase (source : Stage) : TestCase where
  input := .dict []
  expectedOutput := .int 1
  source := source
  testCaseId := none

def trialProblem : Problem where
  problemId := "one"
  title := "One"
  description := "Return 1."
  difficulty := .easy
  tags := []
  constraints := none
  inputOutputMode := .function
  entryPoint := "solution(**test_input)"
  judgeConfig :=
    { comparison := .exact, floatTolerance := "1e-06", whitespace := .trim, outputFormat := .auto }
  unsupportedReason := none
  publicTestCases := []
  feedbackTestCases := []
  hiddenTestCases := []

def trialConfig (strategy : Strategy) (iterations : ℕ) : StrategyConfig where
  name := strategy
  rounds :=
    { maxIterations := iterations, numCandidates := some iterations,
      reflectionContextChars := none }
  examples := { minSimilarityScore := .zero, exampleDb := [] }
  tree := {}

end AlgorithmHarness.Strategies
