import Mathlib.Data.Int.Notation
import Mathlib.Data.Nat.Notation

/-!
# Problems

The data of a problem that prompts, the sandbox and fingerprints read, and how
Python prints the values of its test cases.
-/

namespace AlgorithmHarness.Harness

/-- A value of a dataset; a float is given by what `repr` prints. -/
inductive Value
  | null
  | bool (value : Bool)
  | int (value : ℤ)
  | float (repr : String)
  | str (value : String)
  | list (items : List Value)
  | dict (members : List (String × Value))

inductive Stage
  | pub
  | feedback
  | hidden
  | allVisible
  | all
  deriving DecidableEq

structure TestCase where
  input : Value
  expectedOutput : Value
  source : Stage
  testCaseId : Option String

inductive Comparison
  | exact
  | floatTolerance
  | unordered
  deriving DecidableEq

inductive Whitespace
  | exact
  | trim
  | tokens
  deriving DecidableEq

inductive OutputFormat
  | auto
  | text
  | json
  deriving DecidableEq

structure JudgeConfig where
  comparison : Comparison
  /-- The float by what `repr` prints. -/
  floatTolerance : String
  whitespace : Whitespace
  outputFormat : OutputFormat
  deriving DecidableEq

inductive IoMode
  | function
  | stdinStdout
  deriving DecidableEq

inductive Difficulty
  | easy
  | medium
  | hard
  deriving DecidableEq

structure Problem where
  problemId : String
  title : String
  description : String
  difficulty : Difficulty
  tags : List String
  constraints : Option String
  inputOutputMode : IoMode
  entryPoint : String
  judgeConfig : JudgeConfig
  unsupportedReason : Option String
  publicTestCases : List TestCase
  feedbackTestCases : List TestCase
  hiddenTestCases : List TestCase

/-! ## The words of the enumerations -/

def Stage.word : Stage → String
  | .pub => "public"
  | .feedback => "feedback"
  | .hidden => "hidden"
  | .allVisible => "all_visible"
  | .all => "all"

def Comparison.word : Comparison → String
  | .exact => "exact"
  | .floatTolerance => "float_tolerance"
  | .unordered => "unordered"

def Whitespace.word : Whitespace → String
  | .exact => "exact"
  | .trim => "trim"
  | .tokens => "tokens"

def OutputFormat.word : OutputFormat → String
  | .auto => "auto"
  | .text => "text"
  | .json => "json"

def IoMode.word : IoMode → String
  | .function => "function"
  | .stdinStdout => "stdin_stdout"

def Difficulty.word : Difficulty → String
  | .easy => "easy"
  | .medium => "medium"
  | .hard => "hard"

namespace Problem

variable (problem : Problem)

/-- Only the cases of an explicit stage. -/
def testCasesFor : Stage → List TestCase
  | .pub => problem.publicTestCases
  | .feedback => problem.feedbackTestCases
  | .hidden => problem.hiddenTestCases
  | .allVisible => problem.publicTestCases ++ problem.feedbackTestCases
  | .all => problem.publicTestCases ++ problem.feedbackTestCases ++ problem.hiddenTestCases

/-- `problem.unsupported_reason` as a truth value. -/
def unsupported : Bool := problem.unsupportedReason.getD "" ≠ ""

def formalEvaluable : Bool := !problem.hiddenTestCases.isEmpty && !problem.unsupported

end Problem

/-! ## How Python prints a value -/

/-- `{code:0{width}x}` -/
def hex (width code : ℕ) : String :=
  let digits := Nat.toDigits 16 code
  String.ofList (List.replicate (width - digits.length) '0' ++ digits)

/-- A character in the `repr` of a string; `printable` is `str.isprintable`. -/
def reprChar (printable : Char → Bool) (quote c : Char) : String :=
  if c = quote || c = '\\' then String.ofList ['\\', c]
  else if c = '\t' then "\\t"
  else if c = '\n' then "\\n"
  else if c = '\r' then "\\r"
  else if c.toNat < 32 || c.toNat = 127 then "\\x" ++ hex 2 c.toNat
  else if c.toNat < 127 || printable c then String.singleton c
  else if c.toNat < 256 then "\\x" ++ hex 2 c.toNat
  else if c.toNat < 65536 then "\\u" ++ hex 4 c.toNat
  else "\\U" ++ hex 8 c.toNat

def reprString (printable : Char → Bool) (text : String) : String :=
  let quote := if text.contains '\'' && !text.contains '"' then '"' else '\''
  String.singleton quote ++ String.join (text.toList.map (reprChar printable quote)) ++
    String.singleton quote

namespace Value

variable (printable : Char → Bool)

mutual

def repr : Value → String
  | .null => "None"
  | .bool true => "True"
  | .bool false => "False"
  | .int value => toString value
  | .float text => text
  | .str text => reprString printable text
  | .list items => "[" ++ ", ".intercalate (reprItems items) ++ "]"
  | .dict members => "\x7b" ++ ", ".intercalate (reprMembers members) ++ "\x7d"

def reprItems : List Value → List String
  | [] => []
  | item :: items => repr item :: reprItems items

def reprMembers : List (String × Value) → List String
  | [] => []
  | (key, item) :: members =>
      (reprString printable key ++ ": " ++ repr item) :: reprMembers members

end

/-- `str(value)` -/
def text : Value → String
  | .str text => text
  | value => value.repr printable

end Value

end AlgorithmHarness.Harness
