import AlgorithmHarness.Core.Matching
import AlgorithmHarness.Core.Binary64
import AlgorithmHarness.Core.Json
import AlgorithmHarness.Harness.Problem
import AlgorithmHarness.Redaction.Secrets

/-!
# Comparing outputs

`SandboxExecutor._compare_outputs` and the two comparisons with a tolerance.
An exception that an item raises is the result of the comparison.  Numbers and
their arithmetic are parameters; the recursion limit of the interpreter is not
modelled.
-/

namespace AlgorithmHarness.Harness

open Matching
open Redaction (isSpace)

inductive SequenceType
  | list
  | tuple
  deriving DecidableEq

/-- A value that is compared. -/
inductive Datum (Number : Type)
  | none
  | bool (value : Bool)
  | number (value : Number)
  | str (value : String)
  | sequence (type : SequenceType) (items : List (Datum Number))
  | dict (keys : List String) (distinct : keys.Nodup) (item : String → Datum Number)

/-- The numbers of the interpreter: the two truth values as numbers, `==`,
`float(x)` and `math.isclose` with a tolerance that is relative and absolute. -/
structure Arithmetic (Number Float Tolerance : Type) where
  ofBool : Bool → Number
  same : Number → Number → Bool
  toFloat : Number → Except String Float
  isClose : Tolerance → Float → Float → Bool
  /-- A number that equals a truth value converts. -/
  toFloat_of_same : ∀ value number, same (ofBool value) number = true →
    ∃ float, toFloat number = .ok float

/-- `all(check(item) for item in items)` -/
def allOf {Item : Type} (check : Item → Except String Bool) : List Item → Except String Bool
  | [] => .ok true
  | item :: items => do
      if ← check item then allOf check items else return false

/-- `[index for index, item in enumerate(items) if check(item)]` -/
def positions {Item : Type} (check : Item → Except String Bool) :
    (items : List Item) → Except String (List (Fin items.length))
  | [] => .ok []
  | item :: items => do
      let found ← check item
      let rest ← positions check items
      return if found then 0 :: rest.map Fin.succ else rest.map Fin.succ

/-- What a judge configuration says about comparisons. -/
structure ComparisonRules (Tolerance : Type) where
  comparison : Comparison
  floatTolerance : Tolerance
  whitespace : Whitespace

/-- `str.strip()` -/
def strip (text : List Char) : List Char :=
  ((text.dropWhile isSpace).reverse.dropWhile isSpace).reverse

/-- `str.split()` -/
def tokens (text : List Char) : List (List Char) :=
  (text.splitOnP isSpace).filter (· ≠ [])

namespace Arithmetic

variable {Number Float Tolerance : Type} (arithmetic : Arithmetic Number Float Tolerance)

/-- A truth value is a number for `==`. -/
def asNumber : Datum Number → Option Number
  | .bool value => some (arithmetic.ofBool value)
  | .number value => some value
  | _ => none

mutual

/-- `actual == expected` -/
def equal : Datum Number → Datum Number → Bool
  | .none, .none => true
  | .str actual, .str expected => actual = expected
  | .sequence type items, .sequence other others => type = other && equalItems items others
  | .dict keys _ item, .dict others _ other =>
      keys.length = others.length && keys.all fun key => key ∈ others && equal (item key) (other key)
  | actual, expected =>
      match arithmetic.asNumber actual, arithmetic.asNumber expected with
      | some number, some other => arithmetic.same number other
      | _, _ => false

def equalItems : List (Datum Number) → List (Datum Number) → Bool
  | [], [] => true
  | item :: items, other :: others => equal item other && equalItems items others
  | _, _ => false

end

mutual

def compareFloatTolerant (tolerance : Tolerance) :
    Datum Number → Datum Number → Except String Bool
  | .number actual, .number expected => do
      return arithmetic.isClose tolerance (← arithmetic.toFloat actual)
        (← arithmetic.toFloat expected)
  | .number _, _ => .ok false
  | .dict keys _ item, .dict others _ other =>
      if keys.toFinset = others.toFinset then
        allOf (fun key => compareFloatTolerant tolerance (item key) (other key)) keys
      else .ok false
  | .sequence _ items, .sequence _ others =>
      if items.length = others.length then compareItems tolerance items others else .ok false
  | actual, expected => .ok (arithmetic.equal actual expected)

/-- The items of two sequences of one length. -/
def compareItems (tolerance : Tolerance) :
    List (Datum Number) → List (Datum Number) → Except String Bool
  | item :: items, other :: others => do
      if ← compareFloatTolerant tolerance item other then compareItems tolerance items others
      else return false
  | _, _ => .ok true

end

/-- The list part of `_compare_unordered`, for any comparison of two items. -/
def compareUnorderedItems {Item : Type} (compare : Item → Item → Except String Bool)
    (actual expected : List Item) : Except String Bool :=
  if actual.length ≠ expected.length then .ok false
  else do
    let adjacency ← actual.mapM fun item => positions (compare item) expected
    return matchAll (fun index => adjacency.getD index []) (expected.length + 1)
      (List.range actual.length) fun _ => none

def compareUnordered (tolerance : Tolerance) : Datum Number → Datum Number → Except String Bool
  | .sequence _ items, .sequence _ others =>
      compareUnorderedItems (arithmetic.compareFloatTolerant tolerance) items others
  | actual, expected => arithmetic.compareFloatTolerant tolerance actual expected

/-- What `_compare_outputs` does with everything but two texts of a program. -/
def compareValues (rules : ComparisonRules Tolerance) (actual expected : Datum Number) :
    Except String Bool :=
  match rules.comparison with
  | .exact => .ok (arithmetic.equal actual expected)
  | .unordered => arithmetic.compareUnordered rules.floatTolerance actual expected
  | .floatTolerance => arithmetic.compareFloatTolerant rules.floatTolerance actual expected

def compareOutputs (actual expected : Datum Number) (rules : ComparisonRules Tolerance)
    (textOutput : Bool) : Except String Bool :=
  match textOutput, actual, expected with
  | true, .str first, .str second =>
      .ok (match rules.whitespace with
        | .trim => strip first.toList = strip second.toList
        | .tokens => tokens first.toList = tokens second.toList
        | .exact => first = second)
  | _, _, _ => arithmetic.compareValues rules actual expected

end Arithmetic

/-! ## The numbers of Python -/

inductive PyNumber
  | int (value : ℤ)
  | float (value : Double)

def PyNumber.same : PyNumber → PyNumber → Bool
  | .int value, .int other => value = other
  | .float value, .float other => value.eq other
  | .int value, .float (.finite other _) => (value : ℚ) = other
  | .float (.finite value _), .int other => value = (other : ℚ)
  | _, _ => false

def PyNumber.toFloat : PyNumber → Except String Double
  | .int value =>
      match Double.ofInt value with
      | some converted => .ok converted
      | none => .error "int too large to convert to float"
  | .float value => .ok value

namespace Datum

variable {Number : Type}

/-- Induction over the items of sequences and the members of dictionaries. -/
@[elab_as_elim]
theorem induction {motive : Datum Number → Prop} (none : motive .none)
    (bool : ∀ value, motive (.bool value)) (number : ∀ value, motive (.number value))
    (str : ∀ value, motive (.str value))
    (sequence : ∀ type items, (∀ item ∈ items, motive item) → motive (.sequence type items))
    (dict : ∀ keys distinct item, (∀ key, motive (item key)) →
      motive (.dict keys distinct item)) (datum : Datum Number) : motive datum :=
  @Datum.rec _ motive (fun items => ∀ item ∈ items, motive item) none bool
    number str sequence dict (fun _ hitem => absurd hitem List.not_mem_nil)
    (fun _ _ hhead htail => List.forall_mem_cons.mpr ⟨hhead, htail⟩) datum

mutual

/-- The numbers in a value, at any depth. -/
def numbers : Datum Number → List Number
  | .number value => [value]
  | .sequence _ items => numbersOf items
  | .dict keys _ item => keys.flatMap fun key => (item key).numbers
  | _ => []

def numbersOf : List (Datum Number) → List Number
  | [] => []
  | item :: items => item.numbers ++ numbersOf items

end

end Datum

/-! ## What the comparisons accept -/

section AllOf

variable {Item : Type} {check : Item → Except String Bool} {items : List Item}

end AllOf

namespace Arithmetic

variable {Number Float Tolerance : Type} {arithmetic : Arithmetic Number Float Tolerance}
variable {tolerance : Tolerance}

end Arithmetic

end AlgorithmHarness.Harness
