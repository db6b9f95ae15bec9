import AlgorithmHarness.Harness.Sandbox

/-!
# The base prompt

What `StrategyBase` says to the model about a problem.
-/

namespace AlgorithmHarness.Strategies

open Harness

def lines (parts : List String) : String := "\n".intercalate parts

/-- `_solution_contract` -/
def solutionContract (executor : SandboxExecutor) (problem : Problem) : String :=
  if problem.inputOutputMode = .stdinStdout then
    "Please provide a complete stdin/stdout program in Python. Read input from standard input and " ++
      "write only the judged result to standard output. The declared entry point is " ++
      problem.entryPoint ++ "."
  else
    match executor.entryPointParts problem.entryPoint with
    | some (className, some method) =>
        "Please define class " ++ className ++ " with a method " ++ method ++
          " matching the entry point " ++ problem.entryPoint ++ "."
    | some (name, none) =>
        if name ≠ "solution" then
          "Please define a Python function named " ++ name ++ " matching the entry point " ++
            problem.entryPoint ++ "."
        else defaultContract
    | none => defaultContract
where
  defaultContract : String :=
    "Please provide a Python solution that defines a function named 'solution' that takes the " ++
      "test case inputs as parameters and returns the expected output."

/-- `_format_test_cases` -/
def formatTestCases (printable : Char → Bool) (problem : Problem) (limit : ℕ := 3) : String :=
  let shown := (problem.publicTestCases.take limit).zipIdx.flatMap fun (testCase, index) =>
    ["Test " ++ toString (index + 1) ++ ":",
      "  Input: " ++ testCase.input.text printable,
      "  Expected Output: " ++ testCase.expectedOutput.text printable,
      ""]
  let more := if limit < problem.publicTestCases.length then
    ["... and " ++ toString (problem.publicTestCases.length - limit) ++ " more test cases"] else []
  lines (shown ++ more)

/-- `Constraints: ...`, or nothing without constraints. -/
def constraintsLine (problem : Problem) : String :=
  match problem.constraints with
  | none => ""
  | some constraints => if constraints = "" then "" else "Constraints: " ++ constraints

/-- The f-string of `build_base_prompt`. -/
def basePrompt (title description mode entryPoint comparison tolerance whitespace constraints
    testCases contract : String) : String :=
  String.join
    ["Problem: ", title, "\n\nDescription:\n", description, "\n\nInput/Output Mode: ", mode,
      "\nEntry Point: ", entryPoint, "\nJudge: ", comparison, ", float tolerance=", tolerance,
      ", whitespace=", whitespace, "\n\n", constraints, "\n\nTest Cases:\n", testCases, "\n\n",
      contract, "\n\nYour response should include the code in a ```python code block.\n"]

def buildBasePrompt (executor : SandboxExecutor) (problem : Problem) : String :=
  basePrompt problem.title problem.description problem.inputOutputMode.word problem.entryPoint
    problem.judgeConfig.comparison.word problem.judgeConfig.floatTolerance
    problem.judgeConfig.whitespace.word (constraintsLine problem)
    (formatTestCases executor.printable problem) (solutionContract executor problem)

end AlgorithmHarness.Strategies
