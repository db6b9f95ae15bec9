import AlgorithmHarness.Core.Binary64
import AlgorithmHarness.Strategies.Prompt

/-!
# The prompts of the strategies

What the strategies send to the model besides the base prompt.  `host` holds the
tables and the orders of the interpreter that prompts depend on.
-/

namespace AlgorithmHarness.Strategies

open Harness

structure Host where
  unicode : Redaction.Unicode
  /-- `str.lower` -/
  lower : String → String
  /-- The value of a decimal digit. -/
  digit : Char → Option ℕ
  /-- The order in which a set of texts is iterated. -/
  setOrder : List String → List String

/-- `text or default` -/
def orElseText (text : Option String) (default : String) : String :=
  match text with
  | none => default
  | some text => if text = "" then default else text

def codeBlock (code : String) : List String := ["```python", code, "```"]

/-! ## Problems -/

/-- The head that the prompts of a problem share. -/
def problemLines (problem : Problem) : List String :=
  ["Problem: " ++ problem.title,
    "",
    "Description:",
    problem.description,
    "",
    "Input/Output Mode: " ++ problem.inputOutputMode.word,
    "Entry Point: " ++ problem.entryPoint,
    "Judge: " ++ problem.judgeConfig.comparison.word ++ ", float tolerance=" ++
      problem.judgeConfig.floatTolerance ++ ", whitespace=" ++
      problem.judgeConfig.whitespace.word,
    "",
    constraintsLine problem,
    ""]

def buildCotPrompt (executor : SandboxExecutor) (problem : Problem) : String :=
  lines (problemLines problem ++
    ["Test Cases:",
      formatTestCases executor.printable problem,
      "",
      "Please solve this problem step-by-step:",
      "",
      "1. First, analyze the problem and identify the key requirements",
      "2. Think through the approach and algorithm",
      "3. Consider edge cases and constraints",
      "4. Then provide a Python solution",
      "",
      solutionContract executor problem,
      "",
      "Please structure your response as:",
      "",
      "**Analysis:**",
      "[Your analysis here]",
      "",
      "**Approach:**",
      "[Your approach here]",
      "",
      "**Solution:**"] ++ codeBlock "[Your code here]" ++ [""])

/-! ## Examples -/

structure SimilarProblem where
  title : String
  description : String
  tags : List String
  solutionCode : String
  similarityScore : Double := .zero
  matchingTags : List String := []

structure FewShotConfig where
  numExamples : ℤ := 3
  similarityMetric : String := "tag_overlap"
  minSimilarityScore : Double
  exampleDb : List SimilarProblem

def stripped (text : String) : String := String.ofList (strip text.toList)

def normalizeTags (host : Host) (tags : List String) : List String :=
  ((tags.filter fun tag => stripped tag ≠ "").map fun tag => stripped (host.lower tag)).dedup

def calculateTagSimilarity (host : Host) (first second : List String) : Double :=
  let tags := normalizeTags host first
  let others := normalizeTags host second
  if tags = [] || others = [] then .zero
  else
    let intersection := (tags.filter (· ∈ others)).length
    .round (intersection / (tags.length + others.length - intersection))

/-- `items[:count]` -/
def sliceTo {Item : Type} (count : ℤ) (items : List Item) : List Item :=
  items.take (if 0 ≤ count then count.toNat else items.length - (-count).toNat)

def retrieveSimilar (host : Host) (config : FewShotConfig) (problem : Problem) :
    List SimilarProblem :=
  let similarities := config.exampleDb.filterMap fun example_ =>
    if config.similarityMetric = "tag_overlap" then
      let score := calculateTagSimilarity host problem.tags example_.tags
      let others := example_.tags.map host.lower
      let matchingTags := host.setOrder
        (((problem.tags.map host.lower).dedup).filter (· ∈ others))
      if config.minSimilarityScore.le score then
        some { example_ with similarityScore := score, matchingTags }
      else none
    else none
  sliceTo config.numExamples
    (similarities.mergeSort fun first second => second.similarityScore.le first.similarityScore)

def buildFewShotPrompt (executor : SandboxExecutor) (problem : Problem)
    (examples : List SimilarProblem) : String :=
  if examples.isEmpty then buildBasePrompt executor problem
  else
    lines (["You are an expert algorithm problem solver.\n"] ++
      (examples.zipIdx 1).flatMap (fun (similar, number) =>
        ["\nExample " ++ toString number ++ ":",
          "Problem: " ++ similar.title,
          "Description: " ++ similar.description] ++
        (if similar.matchingTags = [] then []
          else ["Tags: " ++ ", ".intercalate similar.matchingTags]) ++
        ["Solution:\n" ++ lines (codeBlock similar.solutionCode) ++ "\n"]) ++
      ["\nNow solve this problem:\n", buildBasePrompt executor problem])

/-! ## Feedback -/

def feedbackCase (printable : Char → Bool) (result : TestCaseResult) : List String :=
  if result.passed then []
  else
    ["Test " ++ toString (result.testCaseIndex + 1) ++ ": FAILED",
      "  Status: " ++ result.status] ++
    (match result.errorMessage with
      | none => []
      | some message => if message = "" then [] else ["  Error: " ++ message]) ++
    (match result.actualOutput with
      | .null => []
      | output => ["  Your output: " ++ output.text printable]) ++
    (match result.expectedOutput with
      | .null => []
      | output => ["  Expected: " ++ output.text printable]) ++
    [""]

/-- `_format_feedback`; the strategies differ in what they say without a result. -/
def formatFeedback (absent : String) (printable : Char → Bool) (result : Option SandboxResult) :
    String :=
  match result with
  | none => absent
  | some result =>
      lines (["Passed: " ++ toString (result.testResults.filter (·.passed)).length ++ "/" ++
          toString result.testResults.length ++ " tests",
        ""] ++
      result.testResults.flatMap (feedbackCase printable))

/-! ## Rounds of feedback -/

def roundFeedback (executor : SandboxExecutor) (result : Option SandboxResult) : String :=
  formatFeedback "Failed to execute: code may have syntax errors or missing 'solution' function"
    executor.printable result

def buildFeedbackPrompt (executor : SandboxExecutor) (problem : Problem)
    (previousCode : Option String) (result : Option SandboxResult) : String :=
  lines (["Your previous solution for \"" ++ problem.title ++ "\" had issues.", ""] ++
    problemLines problem ++
    ["Previous Code:"] ++
    codeBlock (orElseText previousCode "# No code was extracted from the previous response") ++
    ["",
      "Test Results:",
      roundFeedback executor result,
      "",
      "Please fix the issues and provide an improved solution. Focus on:",
      "1. Understanding why the tests failed",
      "2. Correcting the logic errors",
      "3. Ensuring all edge cases are handled",
      "",
      solutionContract executor problem,
      "Provide your improved solution in a ```python code block.",
      ""])

/-! ## Reflection -/

def reflexionFeedback (executor : SandboxExecutor) (result : Option SandboxResult) : String :=
  formatFeedback "Failed to execute: code may have syntax errors or a missing entry point"
    executor.printable result

/-- `_reflection_context_limit`; the parameter as the integer it converts to. -/
def reflectionContextLimit (configured : Option ℤ) : ℕ :=
  match configured with
  | some limit => max 1 limit.toNat
  | none => 6000

/-- `text[-count:]`, of a positive count. -/
def lastChars (count : ℕ) (text : String) : String :=
  String.ofList (text.toList.drop (text.toList.length - count))

def boundedReflectionContext (limit : ℕ) (history : List String) : String :=
  lastChars limit ("\n\n".intercalate history)

/-- The prompt of `_reflect`. -/
def reflectPrompt (executor : SandboxExecutor) (problem : Problem) (code : Option String)
    (result : Option SandboxResult) (iteration : ℕ) (context : String) : String :=
  lines (["You are reviewing attempt " ++ toString iteration ++ " for \"" ++ problem.title ++ "\".",
      "",
      "Analyze the visible failure and explain one concrete change that should prevent",
      "the same mistake. Do not write a replacement solution or expose hidden tests.",
      "",
      "Code:"] ++
    codeBlock (orElseText code "# no code extracted") ++
    ["",
      "Visible test feedback:",
      reflexionFeedback executor result,
      "",
      "Previous reflections:",
      orElseText (some context) "# none",
      ""])

def buildReflexionPrompt (executor : SandboxExecutor) (problem : Problem)
    (previousCode : Option String) (result : Option SandboxResult) (reflection : String)
    (iteration : ℕ) : String :=
  lines (["We are solving \"" ++ problem.title ++ "\". This is refinement round " ++
        toString (iteration + 1) ++ ".",
      "",
      "Problem:",
      problem.description,
      "",
      "Input/output mode: " ++ problem.inputOutputMode.word,
      "Entry point: " ++ problem.entryPoint,
      "Constraints: " ++ orElseText problem.constraints "not specified",
      "",
      solutionContract executor problem,
      "",
      "Previous code:"] ++
    codeBlock (orElseText previousCode "# no code extracted") ++
    ["",
      "Visible feedback:",
      reflexionFeedback executor result,
      "",
      "Reflection log:",
      orElseText (some reflection) "# no reflection was returned",
      "",
      "Use the reflection to avoid repeating the error. Return only the improved Python " ++
        "solution in a ```python code block.",
      ""])

/-! ## Branches of thought -/

/-- What is asked for at a node, in the words for its depth. -/
def branchFormat (word request reason update : String) (branchingFactor : ℕ) : List String :=
  ["Generate " ++ toString branchingFactor ++ " different " ++ request ++ ".",
    "For each " ++ word.map Char.toLower ++ ", provide:",
    "1. A brief reasoning about " ++ reason,
    "2. " ++ update,
    "",
    "Format your response as:",
    "=== " ++ word ++ " 1 ===",
    "Reasoning: [your reasoning here]",
    "Code:"] ++ codeBlock "[your code here]" ++
  ["",
    "=== " ++ word ++ " 2 ===",
    "Reasoning: [your reasoning here]",
    "Code:"] ++ codeBlock "[your code here]" ++
  ["",
    "... continue for all " ++ toString branchingFactor ++ " " ++ word.map Char.toLower ++ "s.",
    ""]

def branchGenerationPrompt (executor : SandboxExecutor) (problem : Problem)
    (branchingFactor depth : ℕ) (thought code : String) : String :=
  if depth = 0 then
    lines ([buildBasePrompt executor problem, ""] ++
      branchFormat "Approach" "approaches to solve this problem" "why this approach might work"
        "A code implementation" branchingFactor)
  else
    lines ([buildBasePrompt executor problem,
        "",
        "Current reasoning path:",
        thought,
        "",
        "Current code:"] ++ codeBlock code ++ [""] ++
      branchFormat "Variation" "ways to refine or continue this approach" "the refinement"
        "Updated code implementation" branchingFactor)

def evaluationPrompt (executor : SandboxExecutor) (problem : Problem) (thought code : String) :
    String :=
  lines ([buildBasePrompt executor problem,
      "",
      "Evaluate the following approach and code solution:",
      "",
      "Reasoning:",
      thought,
      "",
      "Code:"] ++ codeBlock code ++
    ["",
      "Rate this solution on a scale from 0.0 to 1.0 based on:",
      "- Logical correctness of the reasoning",
      "- Code quality and completeness",
      "- Likelihood of solving the problem correctly",
      "",
      "Respond with ONLY a number between 0.0 and 1.0, nothing else.",
      "Example: 0.75",
      ""])

end AlgorithmHarness.Strategies
