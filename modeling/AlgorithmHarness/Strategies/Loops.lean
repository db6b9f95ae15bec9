import AlgorithmHarness.Strategies.Results

/-!
# The strategies that generate programs round by round

Vanilla, chain of thought and few-shot prompting make one call and differ in
their prompt; feedback and reflexion repeat calls until a program passes the
visible cases; self-consistency votes on independent candidates.
-/

namespace AlgorithmHarness.Strategies

open Harness

structure RoundConfig where
  maxIterations : ℕ
  /-- `num_candidates`, if it is an integer. -/
  numCandidates : Option ℤ
  /-- `reflection_context_chars`, if it converts to an integer. -/
  reflectionContextChars : Option ℤ

/-! ## Testing a program -/

/-- What the sandbox has shown of a program, and the runs it took, the last first. -/
structure Tested where
  sandboxResult : Option SandboxResult := none
  sandboxError : Option String := none
  success : Bool := false
  executions : List (String × Stage) := []

section Testing

variable (executor : SandboxExecutor) (problem : Problem)

def testStage (stage : Stage) (code : String) : Tested :=
  match executor.execute code problem stage with
  | .ok result =>
      { sandboxResult := some result, success := result.allPassed, executions := [(code, stage)] }
  | .error message => { sandboxError := some message, executions := [(code, stage)] }

/-- The public cases, or those for feedback where there are none. -/
def testFirstStage (code : String) : Tested :=
  if !problem.publicTestCases.isEmpty then testStage executor problem .pub code
  else if !problem.feedbackTestCases.isEmpty then testStage executor problem .feedback code
  else
    -- Hidden-only problems are finalized by the harness after the strategy.
    { success := true }

/-- A program that was extracted is tested. -/
def testCode (test : String → Tested) (code : Option String) : Tested :=
  if truthy code then test (code.getD "") else {}

/-- The program in a reply. -/
def Reply.code (reply : Reply) : Option String :=
  reply.response.bind fun response => extractCode executor response.text (some problem)

end Testing

/-! ## One call -/

/-- What the single calls do with the reply to their prompt. -/
def singleShot (runtime : Runtime) (strategy prompt : String) (problem : Problem)
    (session : Session) : ExecutionResult × Session :=
  let call := session.generate runtime prompt
  let code := call.1.code runtime.executor problem
  let tested := testCode (testFirstStage runtime.executor problem) code
  let iteration := createIterationResult runtime.host 1 call.1.response code tested.sandboxResult
    prompt call.1.failure tested.sandboxError
  let result := createExecutionResult runtime problem strategy [iteration] tested.sandboxResult
    tested.success (call.1.response.toList.map some) none
  (result.stopped call.1.refusal, call.2.ran tested.executions)

def vanilla (runtime : Runtime) (problem : Problem) (session : Session) :
    ExecutionResult × Session :=
  singleShot runtime "vanilla" (buildBasePrompt runtime.executor problem) problem session

def chainOfThought (runtime : Runtime) (problem : Problem) (session : Session) :
    ExecutionResult × Session :=
  singleShot runtime "chain_of_thought" (buildCotPrompt runtime.executor problem) problem session

def fewShotLearning (runtime : Runtime) (config : FewShotConfig) (problem : Problem)
    (session : Session) : ExecutionResult × Session :=
  singleShot runtime "few_shot_learning"
    (buildFewShotPrompt runtime.executor problem (retrieveSimilar runtime.host config problem))
    problem session

/-! ## Rounds -/

/-- The variables of a loop over rounds. -/
structure Rounds where
  iterations : List IterationResult := []
  responses : List LlmResponse := []
  finalResult : Option SandboxResult := none
  success : Bool := false
  budgetStop : Option String := none
  reflectionHistory : List String := []

def resourceStatuses : List String :=
  ["timeout", "memory_error", "output_limit", "process_limit", "sandbox_error",
    "backend_unavailable"]

/-- How both strategies combine the results of the two visible stages. -/
def mergeSandboxResults (primary feedback : SandboxResult) : SandboxResult where
  status :=
    ([primary, feedback].map fun result => result.status).find? (· ∈ resourceStatuses)
      |>.getD (if primary.allPassed && feedback.allPassed then "success" else "failed")
  testResults := primary.testResults ++ feedback.testResults
  allPassed := primary.allPassed && feedback.allPassed
  errorMessage :=
    if truthy primary.errorMessage then primary.errorMessage else feedback.errorMessage

section Testing

variable (executor : SandboxExecutor) (problem : Problem)

/-- The visible stages of a feedback round; the public result stays where the
second stage raises. -/
def testRound (code : String) : Tested :=
  let primary :=
    if !problem.publicTestCases.isEmpty then testStage executor problem .pub code else {}
  if primary.sandboxError.isSome then primary
  else if !problem.feedbackTestCases.isEmpty then
    let feedback := testStage executor problem .feedback code
    let executions := feedback.executions ++ primary.executions
    match feedback.sandboxResult, primary.sandboxResult with
    | some result, some first =>
        let merged := mergeSandboxResults first result
        { sandboxResult := some merged, success := merged.allPassed, executions }
    | some _, none => { feedback with executions }
    | none, _ => { primary with sandboxError := feedback.sandboxError, executions }
  else if primary.sandboxResult.isNone then { primary with success := true }
  else primary

/-- `_execute_visible_tests`, which shows nothing if a stage raises. -/
def executeVisibleTests (code : String) : Tested :=
  let tested := testRound executor problem code
  if tested.sandboxError.isSome then { tested with sandboxResult := none, success := false }
  else tested

end Testing

/-- The variables behind a round of feedback with an answer. -/
def Rounds.answered (rounds : Rounds) (iteration : IterationResult) (response : LlmResponse)
    (tested : Tested) : Rounds :=
  { rounds with
    iterations := rounds.iterations ++ [iteration]
    responses := rounds.responses ++ [response]
    finalResult := tested.sandboxResult.or rounds.finalResult
    success :=
      match tested.sandboxResult with
      | some result => result.allPassed
      | none => rounds.success || tested.success }

/-- The rounds that remain of `MultiRoundFeedbackStrategy.execute`. -/
def feedbackRounds (runtime : Runtime) (config : RoundConfig) (problem : Problem) :
    ℕ → String → Rounds → Session → Rounds × Session
  | 0, _, rounds, session => (rounds, session)
  | remaining + 1, prompt, rounds, session =>
      let iteration := config.maxIterations - remaining
      match session.generate runtime prompt with
      | (.refused reason, session) => ({ rounds with budgetStop := some reason }, session)
      | (.failed message, session) =>
          let failed := createIterationResult runtime.host iteration none none none prompt
            (some message) none
          ({ rounds with iterations := rounds.iterations ++ [failed] }, session)
      | (.answered response, session) =>
          let code := extractCode runtime.executor response.text (some problem)
          let tested := testCode (testRound runtime.executor problem) code
          let completed := createIterationResult runtime.host iteration (some response) code
            tested.sandboxResult prompt none tested.sandboxError
          let rounds := rounds.answered completed response tested
          if rounds.success then (rounds, session.ran tested.executions)
          else
            -- The prompt that follows the last round is never sent.
            feedbackRounds runtime config problem remaining
              (buildFeedbackPrompt runtime.executor problem code tested.sandboxResult)
              rounds (session.ran tested.executions)

def multiRoundFeedback (runtime : Runtime) (config : RoundConfig) (problem : Problem)
    (session : Session) : ExecutionResult × Session :=
  let run := feedbackRounds runtime config problem config.maxIterations
    (buildBasePrompt runtime.executor problem) {} session
  let result := createExecutionResult runtime problem "multi_round_feedback" run.1.iterations
    run.1.finalResult run.1.success (run.1.responses.map some) none
  (result.stopped run.1.budgetStop, run.2)

/-! ## Reflexion -/

/-- `_reflect`; the refusal of the call is left on the instance. -/
def reflect (runtime : Runtime) (config : RoundConfig) (problem : Problem) (code : Option String)
    (sandboxResult : Option SandboxResult) (iteration : ℕ) (history : List String)
    (session : Session) : (Option LlmResponse × Option String) × Session :=
  let context := boundedReflectionContext (reflectionContextLimit config.reflectionContextChars)
    history
  match session.generate runtime
      (reflectPrompt runtime.executor problem code sandboxResult iteration context) with
  | (.answered response, session) => ((some response, none), session)
  | (.refused reason, session) =>
      ((none, none),
        { session with
          attributes := { session.attributes with reflectionBudgetStop := some reason } })
  | (.failed message, session) => ((none, some message), session)

/-- What the reflection adds to its iteration. -/
def IterationResult.reflected (iteration : IterationResult) (host : Host)
    (response : Option LlmResponse) (error : Option String) : IterationResult :=
  let told := { iteration with reflectionError := redactTruthy host error }
  match response with
  | none => told
  | some response =>
      { told with
        reflectionText := some (redactText host (stripped response.text))
        reflectionPromptTokens := response.usage.promptTokens
        reflectionCompletionTokens := response.usage.completionTokens
        reflectionUsageMissing := response.usageMissing
        reflectionPricingMetadata := response.pricingMetadata }

/-- The variables behind an attempt. -/
def Rounds.attempted (rounds : Rounds) (iteration : IterationResult)
    (response : Option LlmResponse) (tested : Tested) : Rounds :=
  { rounds with
    iterations := rounds.iterations ++ [iteration]
    responses := rounds.responses ++ response.toList
    finalResult := tested.sandboxResult.or rounds.finalResult
    success := rounds.success || tested.success }

/-- The variables once the last attempt was reflected on. -/
def Rounds.reflected (rounds : Rounds) (iteration : IterationResult) : Rounds :=
  { rounds with
    iterations := rounds.iterations.dropLast ++ [iteration]
    reflectionHistory := rounds.reflectionHistory ++ iteration.reflectionText.toList }

/-- The rounds that remain of `ReflexionStrategy.execute`. -/
def reflexionRounds (runtime : Runtime) (config : RoundConfig) (problem : Problem) :
    ℕ → String → Rounds → Session → Rounds × Session
  | 0, _, rounds, session => (rounds, session)
  | remaining + 1, prompt, rounds, session =>
      let iteration := config.maxIterations - remaining
      match session.generate runtime prompt with
      | (.refused reason, session) => ({ rounds with budgetStop := some reason }, session)
      | (reply, session) =>
          let code := reply.code runtime.executor problem
          let tested := testCode (executeVisibleTests runtime.executor problem) code
          let completed := createIterationResult runtime.host iteration reply.response code
            tested.sandboxResult prompt reply.failure tested.sandboxError
          let rounds := rounds.attempted completed reply.response tested
          let session := session.ran tested.executions
          -- An exception without a message does not end the loop.
          if rounds.success || truthy reply.failure || truthy tested.sandboxError then
            (rounds, session)
          else if config.maxIterations ≤ iteration then (rounds, session)
          else
            let reflection := reflect runtime config problem code tested.sandboxResult iteration
              rounds.reflectionHistory session
            let rounds := rounds.reflected
              (completed.reflected runtime.host reflection.1.1 reflection.1.2)
            let session := reflection.2
            if truthy session.attributes.reflectionBudgetStop then
              ({ rounds with budgetStop := session.attributes.reflectionBudgetStop }, session)
            else
              let context := boundedReflectionContext
                (reflectionContextLimit config.reflectionContextChars) rounds.reflectionHistory
              reflexionRounds runtime config problem remaining
                (buildReflexionPrompt runtime.executor problem code tested.sandboxResult context
                  iteration)
                rounds session

def reflexion (runtime : Runtime) (config : RoundConfig) (problem : Problem) (session : Session) :
    ExecutionResult × Session :=
  let run := reflexionRounds runtime config problem config.maxIterations
    (buildBasePrompt runtime.executor problem) {}
    { session with attributes := { session.attributes with reflectionBudgetStop := none } }
  let result := createExecutionResult runtime problem "reflexion" run.1.iterations
    run.1.finalResult run.1.success (run.1.responses.map some) none
  (if truthy run.1.budgetStop then result.stopped run.1.budgetStop else result, run.2)

/-! ## Self-consistency -/

/-- The variables of the loop over candidates. -/
structure Candidates where
  iterations : List IterationResult := []
  responses : List (Option LlmResponse) := []
  budgetStop : Option String := none

/-- A candidate joins the others. -/
def Candidates.add (candidates : Candidates) (iteration : IterationResult)
    (response : Option LlmResponse) : Candidates :=
  { candidates with
    iterations := candidates.iterations ++ [iteration]
    responses := candidates.responses ++ [response] }

/-- The candidates that remain, after `generated` of them. -/
def generateCandidates (runtime : Runtime) (problem : Problem) (prompt : String) :
    ℕ → ℕ → Candidates → Session → Candidates × Session
  | 0, _, candidates, session => (candidates, session)
  | remaining + 1, generated, candidates, session =>
      match session.generate runtime prompt with
      | (.refused reason, session) => ({ candidates with budgetStop := some reason }, session)
      | (reply, session) =>
          let code := reply.code runtime.executor problem
          -- The sandbox is left to its default stage.
          let tested := testCode (testStage runtime.executor problem .pub) code
          let completed := createIterationResult runtime.host (generated + 1) reply.response code
            tested.sandboxResult prompt reply.failure tested.sandboxError
          generateCandidates runtime problem prompt remaining (generated + 1)
            (candidates.add completed reply.response) (session.ran tested.executions)

/-- The first item that no later one exceeds. -/
def firstMaximal {Item : Type} (less : Item → Item → Bool) : List Item → Option Item
  | [] => none
  | first :: rest =>
      some (rest.foldl (fun best item => if less best item then item else best) first)

structure Vote where
  success : Bool
  selectedCode : String
  finalSandboxResult : Option SandboxResult

/-- The code and the result of a candidate that has passed. -/
def passingCandidate (iteration : IterationResult) : Option (String × SandboxResult) :=
  match iteration.codeExtracted, iteration.sandboxResult with
  | some code, some result => if code ≠ "" && result.allPassed then some (code, result) else none
  | _, _ => none

/-- `_vote_on_candidates` -/
def voteOnCandidates (iterations : List IterationResult) : Vote :=
  let passing := iterations.filterMap passingCandidate
  let codes := passing.map Prod.fst
  match firstMaximal (fun code other => codes.count code < codes.count other) codes.eraseDups with
  | none =>
      { success := false
        selectedCode := (iterations.getLast?.bind fun last => last.codeExtracted).getD ""
        finalSandboxResult := iterations.getLast?.bind fun last => last.sandboxResult }
  | some mostCommon =>
      { success := true
        selectedCode := mostCommon
        finalSandboxResult :=
          (passing.find? fun candidate => candidate.1 = mostCommon).map Prod.snd }

/-- The number of candidates, of which an invalid parameter leaves the default. -/
def candidateCount (configured : Option ℤ) : ℕ :=
  match configured with
  | some count => if count < 1 then 5 else count.toNat
  | none => 5

def votingTrace : Trace where
  iteration := none
  account := { promptTokens := 0, completionTokens := 0, totalTokens := 0, pricingMetadata := none }
  usageMissing := false

def selfConsistency (runtime : Runtime) (config : RoundConfig) (problem : Problem)
    (session : Session) : ExecutionResult × Session :=
  let run := generateCandidates runtime problem (buildBasePrompt runtime.executor problem)
    (candidateCount config.numCandidates) 0 {} session
  let vote := voteOnCandidates run.1.iterations
  let result := createExecutionResult runtime problem "self_consistency" run.1.iterations
    vote.finalSandboxResult vote.success ((run.1.responses.filterMap id).map some) none
  let voted :=
    { result with
      generatedCode := vote.selectedCode
      llmTraces := result.llmTraces ++ [votingTrace] }
  (voted.stopped run.1.budgetStop, run.2)

end AlgorithmHarness.Strategies
