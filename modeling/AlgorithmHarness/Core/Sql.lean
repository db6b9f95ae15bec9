import AlgorithmHarness.Core.Json

/-!
# Conditions of a SQL query

Truth values of SQL, with the unknown that a comparison with null gives, and
the JSON functions of SQLite on a column that holds a JSON value.  A condition
selects a row if it is true; unknown does not select it.
-/

namespace AlgorithmHarness.Sql

/-- A truth value; `none` is unknown. -/
abbrev Truth := Option Bool

/-- `first AND second` -/
def both : Truth → Truth → Truth
  | some true, second => second
  | some false, _ => some false
  | none, some false => some false
  | none, _ => none

/-- `first OR second` -/
def either : Truth → Truth → Truth
  | some true, _ => some true
  | some false, second => second
  | none, some true => some true
  | none, _ => none

/-- `NOT condition` -/
def negate (condition : Truth) : Truth := condition.map not

/-- What `WHERE` keeps. -/
def Holds (condition : Truth) : Prop := condition = some true

instance (condition : Truth) : Decidable (Holds condition) :=
  inferInstanceAs (Decidable (_ = _))

@[simp]
theorem holds_both {first second : Truth} :
    Holds (both first second) ↔ Holds first ∧ Holds second := by
  rcases first with - | (_ | _) <;> rcases second with - | (_ | _) <;> simp [both, Holds]

@[simp]
theorem holds_either {first second : Truth} :
    Holds (either first second) ↔ Holds first ∨ Holds second := by
  rcases first with - | (_ | _) <;> rcases second with - | (_ | _) <;> simp [either, Holds]

@[simp]
theorem holds_some {value : Bool} : Holds (some value) ↔ value = true := by
  simp [Holds]

@[simp]
theorem holds_negate_some {value : Bool} : Holds (negate (some value)) ↔ value = false := by
  simp [negate]

/-- `column = value` of a text column that may be null. -/
def equals (column : Option String) (value : String) : Truth := column.map (· = value)

@[simp]
theorem holds_equals {column : Option String} {value : String} :
    Holds (equals column value) ↔ column = some value := by
  cases column <;> simp [equals, Holds]

/-! ## JSON columns -/

/-- `json_extract(value, '$."key"')`, before it is read as a column value. -/
def extract (value : Option Json) (key : String) : Option Json :=
  match value with
  | some (.obj members) => members.lookup key
  | _ => none

theorem extract_obj (members : List (String × Json)) (key : String) :
    extract (some (.obj members)) key = members.lookup key := rfl

/-- `json_extract(...) IS NOT NULL` -/
def isNotNull : Option Json → Bool
  | none | some .null => false
  | some _ => true

/-- `json_extract(...) = text`.  Numbers and booleans are numbers, which no text
is equal to; `render` is the text that stands for an array or an object. -/
def equalsText (render : Json → String) (value : Option Json) (text : String) : Truth :=
  match value with
  | none | some .null => none
  | some (.str string) => some (string = text)
  | some (.num _) | some (.bool _) => some false
  | some value => some (render value = text)

/-- `EXISTS (SELECT 1 FROM json_each(value) AS element WHERE element.value = text
AND element.type = 'text')` -/
def eachContains (value : Option Json) (text : String) : Bool :=
  match value with
  | some (.arr items) => items.any fun item => item.isStr text
  | some (.obj members) => members.any fun member => member.2.isStr text
  | some (.str string) => string = text
  | _ => false

theorem eachContains_texts (texts : List String) (text : String) :
    eachContains (some (.arr (texts.map .str))) text = decide (text ∈ texts) := by
  rw [eachContains, List.any_map, Bool.eq_iff_iff, decide_eq_true_eq, List.any_eq_true]
  simp [Json.isStr]

end AlgorithmHarness.Sql
