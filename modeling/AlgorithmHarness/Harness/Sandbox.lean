import AlgorithmHarness.Harness.Comparator

/-!
# The sandbox executor

`SandboxExecutor.execute`: which runs a candidate gets and how its outputs are
judged.  The runner process, float arithmetic and the tables of Unicode are
parameters; times are left out of the results.
-/

namespace AlgorithmHarness.Harness

open Pattern
open Redaction (isSpace)

/-- What is handed to the runner process. -/
inductive Program
  | script (code : String) (stdin : Value)
  | call (code : String) (invocation : String) (argument : Value)

/-- What comes back from it; `late` is the elapsed time if it is above the limit. -/
inductive Outcome
  | returned (output : Value) (late : Option String)
  | failed (status message : String)
  | timedOut
  | raised (message : String)

/-- A number of a dataset; a float is given by what `repr` prints. -/
inductive Numeral
  | int (value : ℤ)
  | float (repr : String)

/-- The executor, its backend and the arithmetic of its host. -/
structure SandboxExecutor where
  run : Program → Outcome
  timeoutSeconds : String
  allowedImports : List String
  /-- How the set of the allowed imports prints. -/
  allowedText : String
  /-- `backend_unavailable` with this message, if Docker is wanted and not there. -/
  unavailable : Option String
  isWord : Char → Bool
  printable : Char → Bool
  arithmetic : Arithmetic Numeral Double String
  loads : String → Option Value

structure TestCaseResult where
  testCaseIndex : ℕ
  passed : Bool
  actualOutput : Value
  expectedOutput : Value
  errorMessage : Option String
  status : String

structure SandboxResult where
  status : String
  testResults : List TestCaseResult
  allPassed : Bool
  errorMessage : Option String

/-! ## Patterns over the entry point and the code -/

def isIdentifierStart (c : Char) : Bool := c.isAlpha || c = '_'

/-- `[A-Za-z_]\w*` -/
def identifier (isWord : Char → Bool) : Matcher String :=
  andThen (one isIdentifierStart) fun c => andThen (many isWord) fun cs =>
    done (String.ofList (c :: cs))

/-- `$` -/
def atEnd : Matcher Unit := fun text => if text = [] || text = ['\n'] then [((), text)] else []

/-- `\b` behind a word character -/
def wordEnd (isWord : Char → Bool) : Matcher Unit := fun text =>
  if text.head?.any isWord then [] else [((), text)]

def exactly (text : String) : Matcher (List Char) := word (· = ·) text.toList

def entryPoint (isWord : Char → Bool) : Matcher (String × Option String) :=
  andThen (many isSpace) fun _ => andThen (identifier isWord) fun first =>
  andThen
    (orElse
      (andThen (one (· = '.')) fun _ => andThen (identifier isWord) fun method => done (some method))
      (done none)) fun method =>
  andThen (many isSpace) fun _ => andThen (one (· = '(')) fun _ =>
  andThen (many fun c => c ≠ '(' && c ≠ ')' && c ≠ '\n') fun _ =>
  andThen (one (· = ')')) fun _ => andThen (many isSpace) fun _ => andThen atEnd fun _ =>
  done (first, method)

/-- `re.search` -/
def search {Found : Type} (pattern : Matcher Found) (text : String) : Bool :=
  text.toList.tails.any fun rest => (pattern rest).head?.isSome

/-- `def\s+name\s*\(` -/
def definition (name : String) : Matcher Unit :=
  andThen (exactly "def") fun _ => andThen (many1 isSpace) fun _ => andThen (exactly name) fun _ =>
    andThen (many isSpace) fun _ => andThen (one (· = '(')) fun _ => done ()

/-- `class\s+name\b` -/
def classHeader (isWord : Char → Bool) (name : String) : Matcher Unit :=
  andThen (exactly "class") fun _ => andThen (many1 isSpace) fun _ =>
    andThen (exactly name) fun _ => wordEnd isWord

/-- `\s*(?:import|from)\s+([a-zA-Z_][a-zA-Z0-9_]*)` -/
def importLine : Matcher String :=
  andThen (many isSpace) fun _ => andThen (orElse (exactly "import") (exactly "from")) fun _ =>
    andThen (many1 isSpace) fun _ => identifier fun c => c.isAlphanum || c = '_'

/-- `re.findall` of the import lines, which start where a line does. -/
def findImports : (skip : ℕ) → (lineStart : Bool) → List Char → List String
  | _, _, [] => []
  | skip + 1, _, c :: text => findImports skip (c = '\n') text
  | 0, lineStart, c :: text =>
      match if lineStart then (importLine (c :: text)).head? else none with
      | some (name, rest) =>
          name :: findImports (text.length - rest.length) (c = '\n') text
      | none => findImports 0 (c = '\n') text

/-! ## Comparing outputs -/

namespace Value

mutual

/-- The value as it is compared. -/
def datum : Value → Datum Numeral
  | .null => .none
  | .bool value => .bool value
  | .int value => .number (.int value)
  | .float repr => .number (.float repr)
  | .str value => .str value
  | .list items => .sequence .list (itemData items)
  | .dict members => .dict (members.map Prod.fst).dedup (List.nodup_dedup _) (memberDatum members)

def itemData : List Value → List (Datum Numeral)
  | [] => []
  | item :: items => datum item :: itemData items

def memberDatum : List (String × Value) → String → Datum Numeral
  | [], _ => .none
  | (key, item) :: members, name => if name = key then datum item else memberDatum members name

end

end Value

def JudgeConfig.rules (config : JudgeConfig) : ComparisonRules String where
  comparison := config.comparison
  floatTolerance := config.floatTolerance
  whitespace := config.whitespace

namespace SandboxExecutor

variable (executor : SandboxExecutor)

def compareOutputs (actual expected : Value) (config : JudgeConfig) (textOutput : Bool) :
    Except String Bool :=
  executor.arithmetic.compareOutputs actual.datum expected.datum config.rules textOutput

/-! ## Running the cases -/

def entryPointParts (text : String) : Option (String × Option String) :=
  (entryPoint executor.isWord text.toList).head?.map Prod.fst

def functionInvocation (parts : String × Option String) : String :=
  let target := "_user_globals[" ++ reprString executor.printable parts.1 ++ "]"
  match parts.2 with
  | some method => target ++ "()." ++ method
  | none => target

def validateCode (code : String) (problem : Problem) : Bool :=
  if code = "" || problem.inputOutputMode = .stdinStdout then strip code.toList ≠ []
  else
    match executor.entryPointParts problem.entryPoint with
    | none => false
    | some (className, some method) =>
        search (classHeader executor.isWord className) code && search (definition method) code
    | some (name, none) => search (definition name) code

/-- The first import that is not allowed. -/
def checkImports (code : String) : Option String :=
  (findImports 0 true code.toList).find? fun name => name ∉ executor.allowedImports

/-- `_parse_stdout_output`; `none` if the output is not the JSON it should be. -/
def parseStdoutOutput (rawOutput expected : Value) (config : JudgeConfig) : Option Value :=
  match rawOutput with
  | .str text =>
      let isText := match config.outputFormat, expected with
        | .text, _ => true
        | .auto, .str _ => true
        | _, _ => false
      if isText then some (.str text) else executor.loads (String.ofList (strip text.toList))
  | _ => none

def program (code : String) (testCase : TestCase) (problem : Problem) : Option Program :=
  match problem.inputOutputMode with
  | .stdinStdout => some (.script code testCase.input)
  | .function => (executor.entryPointParts problem.entryPoint).map fun parts =>
      .call code (executor.functionInvocation parts) testCase.input

def executeSingleTest (code : String) (testCase : TestCase) (index : ℕ) (problem : Problem) :
    TestCaseResult :=
  let failure (status message : String) : TestCaseResult :=
    { testCaseIndex := index, passed := false, actualOutput := .null,
      expectedOutput := testCase.expectedOutput, errorMessage := some message, status }
  let judge (late : Option String) (actual : Value) : TestCaseResult :=
    match late with
    | some elapsed =>
        failure "timeout" ("Timeout exceeded (" ++ elapsed ++ "s > " ++ executor.timeoutSeconds ++
          "s)")
    | none =>
        match executor.compareOutputs actual testCase.expectedOutput problem.judgeConfig
            (problem.inputOutputMode = .stdinStdout && problem.judgeConfig.outputFormat ≠ .json) with
        | .error message => failure "runtime_error" ("Runtime error: " ++ message)
        | .ok passed =>
            { testCaseIndex := index, passed, actualOutput := actual,
              expectedOutput := testCase.expectedOutput,
              errorMessage := if passed then none
                else some ("Expected " ++ testCase.expectedOutput.text executor.printable ++
                  ", got " ++ actual.text executor.printable),
              status := if passed then "passed" else "wrong_answer" }
  match executor.program code testCase problem with
  | none => failure "unsupported" ("Unsupported entry point: " ++ problem.entryPoint)
  | some program =>
      match executor.run program with
      | .returned output late =>
          if problem.inputOutputMode = .stdinStdout then
            match executor.parseStdoutOutput output testCase.expectedOutput problem.judgeConfig with
            | some actual => judge late actual
            | none => failure "runtime_error" "Standard output is not valid JSON"
          else judge late output
      | .failed status message => failure status message
      | .timedOut => failure "timeout" ("Timeout: exceeded " ++ executor.timeoutSeconds ++ "s")
      | .raised message => failure "runtime_error" ("Runtime error: " ++ message)

def resourceStatuses : List String :=
  ["backend_unavailable", "timeout", "memory_error", "output_limit", "process_limit", "unsupported"]

def execute (code : String) (problem : Problem) (stage : Stage) : Except String SandboxResult :=
  let rejected (status : String) (message : Option String) : SandboxResult :=
    { status, testResults := [], allPassed := false, errorMessage := message }
  if problem.unsupported then .ok (rejected "unsupported" problem.unsupportedReason)
  else if problem.inputOutputMode = .function &&
      (executor.entryPointParts problem.entryPoint).isNone then
    .ok (rejected "unsupported" (some ("Unsupported entry point: " ++ problem.entryPoint)))
  else
    let testCases := problem.testCasesFor stage
    if testCases.isEmpty then
      .ok (rejected "sandbox_error"
        (some ("No test cases configured for stage '" ++ stage.word ++ "'")))
    else
      match executor.unavailable with
      | some message =>
          .ok {
            status := "backend_unavailable"
            testResults := testCases.zipIdx.map fun (testCase, index) =>
              { testCaseIndex := index, passed := false, actualOutput := .null,
                expectedOutput := testCase.expectedOutput, errorMessage := some message,
                status := "backend_unavailable" }
            allPassed := false
            errorMessage := some message }
      | none =>
          if !executor.validateCode code problem then
            if problem.inputOutputMode = .stdinStdout then
              .error "Code must contain a stdin/stdout program"
            else if executor.entryPointParts problem.entryPoint = some ("solution", none) then
              .error "Code must define a 'solution' function"
            else .error "Code must define the configured entry point"
          else
            match executor.checkImports code with
            | some name =>
                .error ("Disallowed import: " ++ name ++ ". Allowed: " ++ executor.allowedText)
            | none =>
                let testResults := testCases.zipIdx.map fun (testCase, index) =>
                  executor.executeSingleTest code testCase index problem
                let allPassed := testResults.all (·.passed)
                .ok {
                  status := if allPassed then "success"
                    else ((testResults.map (·.status)).find? (· ∈ resourceStatuses)).getD "failed"
                  testResults
                  allPassed
                  errorMessage := none }

end SandboxExecutor

end AlgorithmHarness.Harness
