import AlgorithmHarness.Harness.Sandbox
import Mathlib.Data.List.Infix

/-!
# Import statements and the allowlist

A source text with the import statements that Python reads in it, each as it
is spelled, and the roots of the modules they name.  `_check_imports` looks
for one name behind a keyword at the start of a line.
-/

namespace AlgorithmHarness.Harness

open Pattern
open Redaction (isSpace)

/-! ## How a statement is spelled -/

/-- What stands between two tokens of a statement. -/
inductive Blank
  | space
  | tab
  | formFeed
  /-- A backslash at the end of a line; the newline is LF, CR or both. -/
  | continuation (carriageReturn lineFeed : Bool)

def Blank.text : Blank → List Char
  | .space => [' ']
  | .tab => ['\t']
  | .formFeed => ['\x0c']
  | .continuation carriageReturn lineFeed =>
      '\\' :: (if carriageReturn then ['\r'] else []) ++ if lineFeed then ['\n'] else []

abbrev Gap := List Blank

def Gap.text (gap : Gap) : List Char := gap.flatMap Blank.text

/-- Between two words something has to stand. -/
structure WordGap where
  blanks : Gap
  nonempty : blanks ≠ []

structure Identifier where
  letters : List Char
  nonempty : letters ≠ []

/-- `root . name . name` -/
structure DottedName where
  root : Identifier
  path : List (Gap × Gap × Identifier)

/-- `name as other` -/
structure ImportedModule where
  name : DottedName
  renamed : Option (WordGap × WordGap × Identifier)

inductive ImportStatement
  /-- `import name, name` -/
  | modules (gap : WordGap) (first : ImportedModule) (others : List (Gap × Gap × ImportedModule))
  /-- `from name import …` -/
  | names (gap : WordGap) (source : DottedName) (before : WordGap) (targets : List Char)
  /-- `from . name import …`; the name is no root. -/
  | relative (gap : Gap) (spelled : List Char)

def DottedName.pathText (name : DottedName) : List Char :=
  name.path.flatMap fun (before, after, component) =>
    before.text ++ '.' :: after.text ++ component.letters

def DottedName.text (name : DottedName) : List Char := name.root.letters ++ name.pathText

/-- What follows the root. -/
def ImportedModule.tail (named : ImportedModule) : List Char :=
  named.name.pathText ++
    match named.renamed with
    | none => []
    | some (before, after, name) =>
        before.blanks.text ++ "as".toList ++ after.blanks.text ++ name.letters

def ImportedModule.text (named : ImportedModule) : List Char :=
  named.name.root.letters ++ named.tail

def othersText (others : List (Gap × Gap × ImportedModule)) : List Char :=
  others.flatMap fun (before, after, named) => before.text ++ ',' :: after.text ++ named.text

namespace ImportStatement

def keyword : ImportStatement → List Char
  | .modules .. => "import".toList
  | .names .. => "from".toList
  | .relative .. => "from".toList

/-- The gap and the name behind the keyword, and the rest of the statement. -/
def leading : ImportStatement → Option (WordGap × Identifier × List Char)
  | .modules gap first others => some (gap, first.name.root, first.tail ++ othersText others)
  | .names gap source before targets =>
      some (gap, source.root,
        source.pathText ++ before.blanks.text ++ "import".toList ++ targets)
  | .relative .. => none

def text (statement : ImportStatement) : List Char :=
  statement.keyword ++
    match statement with
    | .relative gap spelled => gap.text ++ '.' :: spelled
    | _ =>
        match statement.leading with
        | none => []
        | some (gap, root, rest) => gap.blanks.text ++ root.letters ++ rest

end ImportStatement

/-! ## Sources -/

def isAsciiWord (c : Char) : Bool := c.isAlphanum || c = '_'

/-- A statement and the text up to the next one, which ends the last name of the statement. -/
structure Part where
  statement : ImportStatement
  after : List Char
  ends : ∀ c ∈ after.head?, isAsciiWord c = false

def partsText (parts : List Part) : List Char :=
  parts.flatMap fun part => part.statement.text ++ part.after

/-- A text with its import statements; two of them do not touch. -/
structure Source where
  before : List Char
  parts : List Part
  parted : ∀ part ∈ parts.dropLast, part.after ≠ []

def Source.text (source : Source) : List Char := source.before ++ partsText source.parts

/-- A statement in its source. -/
structure Place where
  before : List Char
  statement : ImportStatement
  after : List Char

def placesFrom (before : List Char) : List Part → List Place
  | [] => []
  | part :: parts =>
      { before, statement := part.statement, after := part.after ++ partsText parts } ::
        placesFrom (before ++ (part.statement.text ++ part.after)) parts

def Source.places (source : Source) : List Place := placesFrom source.before source.parts

def AtLineStart (before : List Char) : Prop := ∀ c ∈ before.getLast?, c = '\n'

/-- A line with nothing but `import` or `from` is the last before; no program has one before a
statement. -/
def KeywordAlone (before : List Char) : Prop :=
  ∃ start blanks keyword spaces, before = start ++ (blanks ++ (keyword ++ spaces)) ∧
    AtLineStart start ∧ (∀ c ∈ blanks, isSpace c = true) ∧
    (keyword = "import".toList ∨ keyword = "from".toList) ∧ ∀ c ∈ spaces, isSpace c = true

/-- The statement is the first thing on its line. -/
def LineBefore (before : List Char) : Prop :=
  ∃ lines blanks, before = lines ++ blanks ∧ AtLineStart lines ∧ ¬KeywordAlone lines ∧
    ∀ c ∈ blanks, isSpace c = true

/-- The name is an ASCII word on the line of the keyword. -/
structure PlainName (gap : WordGap) (root : Identifier) : Prop where
  gap : ∀ c ∈ gap.blanks.text, isSpace c = true
  start : ∀ c ∈ root.letters.head?, isIdentifierStart c = true
  word : ∀ c ∈ root.letters, isAsciiWord c = true

/-- The pattern shows the name behind the keyword. -/
def Shown (place : Place) (root : Identifier) : Prop :=
  LineBefore place.before ∧ ∃ gap rest, place.statement.leading = some (gap, root, rest) ∧
    PlainName gap root

section Pattern

variable {blanks keyword gap letters rest text : List Char}

end Pattern

/-! ## What stands behind a name -/

section Behind

variable {first second : List Char}

/-- No ASCII word begins here. -/
def NoWord (text : List Char) : Prop := ∀ c ∈ text.head?, isAsciiWord c = false

theorem NoWord.append (hfirst : NoWord first) (hsecond : NoWord second) :
    NoWord (first ++ second) := by
  cases first with
  | nil => exact hsecond
  | cons c first => exact hfirst

theorem NoWord.flatMap {Item : Type*} {items : List Item} {text : Item → List Char}
    (hitems : ∀ item, NoWord (text item)) : NoWord (items.flatMap text) := by
  induction items with
  | nil => exact nofun
  | cons item items ih => exact (hitems item).append ih

theorem NoWord.cons {c : Char} (hc : isAsciiWord c = false) : NoWord (c :: second) := by
  intro d hd
  rwa [← Option.some_inj.mp hd]

end Behind

/-! ## What the check lets through -/

section Check

variable {executor : SandboxExecutor} {normalize : String → String} {source : Source}

end Check

end AlgorithmHarness.Harness
