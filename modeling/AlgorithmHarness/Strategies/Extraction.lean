import AlgorithmHarness.Harness.Sandbox

/-!
# The code in a response

`StrategyBase.extract_code` and `_strip_after_solution`.
-/

namespace AlgorithmHarness.Strategies

open Harness Pattern
open Redaction (isSpace)

/-! ## Patterns -/

/-- `.*?` -/
def least : Matcher (List Char)
  | [] => [([], [])]
  | c :: text => ([], c :: text) :: (least text).map fun (taken, rest) => (c :: taken, rest)

/-- What `re.search` finds first. -/
def find {Found : Type} (pattern : Matcher Found) (text : List Char) : Option Found :=
  text.tails.findSome? fun rest => (pattern rest).head?.map Prod.fst

/-- The mark that opens a code block, up to the end of its line. -/
def openFence : Matcher Unit :=
  andThen (exactly "```") fun _ =>
  andThen (orElse (exactly "python") (done [])) fun _ => andThen (many isSpace) fun _ =>
  andThen (one (· = '\n')) fun _ => done ()

/-- A closed code block. -/
def fenced : Matcher (List Char) :=
  andThen openFence fun _ => andThen least fun body =>
  andThen (exactly "\n```") fun _ => done body

/-- A code block that is cut off. -/
def unclosed : Matcher (List Char) := andThen openFence fun _ rest => [(rest, [])]

/-! ## Truncation -/

def lstrip (text : List Char) : List Char := text.dropWhile isSpace

def rstrip (text : List Char) : List Char := (text.reverse.dropWhile isSpace).reverse

def startsWith (text : List Char) (start : String) : Bool := start.toList.isPrefixOf text

/-- A line after which nothing of the solution is expected. -/
def isTrailing (line : List Char) : Bool :=
  let stripped := lstrip line
  stripped ≠ [] && !line.head?.any isSpace &&
    !(["def ", "class ", "@"].any (startsWith stripped))

/-- `_strip_after_solution` -/
def stripAfterSolution (code entryName : String) : String :=
  let lines := code.toList.splitOn '\n'
  match lines.findIdx? fun line => startsWith (lstrip line) ("def " ++ entryName ++ "(") with
  | none => code
  | some start =>
      let kept := lines.take (start + 1) ++
        (lines.drop (start + 1)).takeWhile fun line => !isTrailing line
      String.ofList (rstrip (List.intercalate ['\n'] kept))

/-! ## Extraction -/

section Extraction

variable (executor : SandboxExecutor)

/-- The name that a solution is looked for under. -/
def entryName (problem : Option Problem) : String :=
  match problem with
  | none => "solution"
  | some problem =>
      if problem.inputOutputMode = .function then
        match executor.entryPointParts problem.entryPoint with
        | some (name, none) => name
        | _ => "solution"
      else "solution"

/-- The code before anything behind the solution is cut off. -/
def rawCode (response : String) (problem : Option Problem) : Option (List Char) :=
  let text := response.toList
  match find fenced text with
  | some body => some (strip body)
  | none =>
      if search (exactly "def solution(") response then some (strip text)
      else
        match problem with
        | some problem =>
            if problem.inputOutputMode = .stdinStdout then some (strip text)
            else if search (definition (entryName executor (some problem))) response then
              some (strip text)
            else
              match executor.entryPointParts problem.entryPoint with
              | some (className, some _) =>
                  if search (classHeader executor.isWord className) response then
                    some (strip text)
                  else none
              | _ => none
        | none => (find unclosed text).bind fun body =>
            if strip body = [] then none else some (strip body)

/-- `extract_code` -/
def extractCode (response : String) (problem : Option Problem) : Option String :=
  (rawCode executor response problem).map fun code =>
    stripAfterSolution (String.ofList code) (entryName executor problem)

end Extraction

end AlgorithmHarness.Strategies
