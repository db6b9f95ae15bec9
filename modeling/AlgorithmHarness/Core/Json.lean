import Mathlib.Data.List.AList
import Mathlib.Data.Rat.Init

/-!
# JSON values and dictionaries

The values a JSON column holds, with the truth value Python gives them, and
dictionaries with unique string keys.  Numbers are exact rationals.
-/

namespace AlgorithmHarness

inductive Json where
  | null
  | bool (value : Bool)
  | num (value : ℚ)
  | str (value : String)
  | arr (items : List Json)
  | obj (members : List (String × Json))

namespace Json

/-- The truth value of a JSON value read back as a Python object. -/
def truthy : Json → Bool
  | .null => false
  | .bool value => value
  | .num value => value ≠ 0
  | .str value => value ≠ ""
  | .arr items => !items.isEmpty
  | .obj members => !members.isEmpty

/-- `value or {}`. -/
def orEmpty (value : Json) : Json := if value.truthy then value else .obj []

/-- `value.get(key, default)`; only a dictionary has this method. -/
def get (value : Json) (key : String) (default : Json := .null) : Except String Json :=
  match value with
  | .obj members => .ok ((members.lookup key).getD default)
  | _ => .error "object has no attribute 'get'"

/-- `value[key]` of a dictionary. -/
def member (value : Json) (key : String) : Json :=
  match value with
  | .obj members => (members.lookup key).getD .null
  | _ => .null

/-- `list(value)`. -/
def toItems : Json → Except String (List Json)
  | .arr items => .ok items
  | .obj members => .ok (members.map fun member => .str member.1)
  | .str value => .ok (value.toList.map fun letter => .str letter.toString)
  | _ => .error "object is not iterable"

/-- `value == text`. -/
def isStr (value : Json) (text : String) : Bool :=
  match value with
  | .str string => string = text
  | _ => false

/-- `len(value) if isinstance(value, list) else 0`. -/
def listLength : Json → ℕ
  | .arr items => items.length
  | _ => 0

/-- A cost as an exact decimal.  The costs in results are JSON numbers. -/
def decimal : Json → Except String ℚ
  | .num value => .ok value
  | _ => .error "cost is not a number"

end Json

/-- A chain of fallible reads succeeds when each of them does. -/
theorem bind_eq_ok {Error Value Result : Type} {read : Except Error Value}
    {rest : Value → Except Error Result} {result : Result} :
    read >>= rest = .ok result ↔ ∃ value, read = .ok value ∧ rest value = .ok result := by
  cases read <;> simp [bind, Except.bind]

theorem map_eq_ok {Error Value Result : Type} {read : Except Error Value}
    {change : Value → Result} {result : Result} :
    read.map change = .ok result ↔ ∃ value, read = .ok value ∧ change value = result := by
  cases read <;> simp [Except.map]

theorem toOption_eq_some {Error Value : Type} {read : Except Error Value} {value : Value} :
    read.toOption = some value ↔ read = .ok value := by
  cases read <;> simp [Except.toOption]

/-- Reading back a list that was written entry by entry. -/
theorem mapM_map_ok {Error Entry Value Result : Type} {write : Entry → Value}
    {read : Value → Except Error Result} {expected : Entry → Result} {entries : List Entry}
    (hread : ∀ entry ∈ entries, read (write entry) = .ok (expected entry)) :
    (entries.map write).mapM read = .ok (entries.map expected) := by
  induction entries with
  | nil => rfl
  | cons entry entries ih =>
      have hrest := ih fun later hlater => hread later (List.mem_cons_of_mem _ hlater)
      rw [List.map_cons, List.mapM_cons, hread entry List.mem_cons_self, hrest]
      rfl

/-- What a comprehension that raises nothing collects. -/
theorem forall₂_of_mapM_ok {Error Value Result : Type} {read : Value → Except Error Result}
    {values : List Value} {results : List Result} (hmap : values.mapM read = .ok results) :
    List.Forall₂ (fun value result => read value = .ok result) values results := by
  induction values generalizing results with
  | nil =>
    cases hmap
    exact .nil
  | cons value values ih =>
    rw [List.mapM_cons, bind_eq_ok] at hmap
    obtain ⟨result, hresult, hmap⟩ := hmap
    obtain ⟨rest, hrest, hpure⟩ := bind_eq_ok.mp hmap
    cases hpure
    exact .cons hresult (ih hrest)

/-- A dictionary with string keys; the order of its entries is never read. -/
abbrev JsonDict := AList fun _ : String => Json

namespace JsonDict

/-- A dictionary display whose keys differ. -/
def ofMembers (members : List (String × Json)) : JsonDict :=
  (members.map fun member => ⟨member.1, member.2⟩ : List (Sigma fun _ : String => Json)).toAList

/-- `dict.get(key, default)`. -/
def get (dict : JsonDict) (key : String) (default : Json := .null) : Json :=
  (dict.lookup key).getD default

/-- `bool(dict.get(key))`: an absent key reads as `None`. -/
def flag (dict : JsonDict) (key : String) : Bool :=
  ((dict.lookup key).map Json.truthy).getD false

/-- `{**dict, **changes}`: the changes win. -/
def merge (dict changes : JsonDict) : JsonDict := changes ∪ dict

theorem flag_merge {dict changes : JsonDict} {key : String} (hkey : key ∉ changes) :
    (dict.merge changes).flag key = dict.flag key := by
  unfold flag merge
  rw [AList.lookup_union_right hkey]

@[simp]
theorem flag_insert (dict : JsonDict) (key : String) (value : Json) :
    flag (dict.insert key value) key = value.truthy := by
  simp [flag]

theorem flag_insert_of_ne {dict : JsonDict} {key other : String} {value : Json}
    (hne : key ≠ other) : flag (dict.insert other value) key = dict.flag key := by
  unfold flag
  rw [AList.lookup_insert_ne hne]

theorem lookup_ofMembers (members : List (String × Json)) (key : String) :
    (ofMembers members).lookup key = members.lookup key := by
  unfold ofMembers
  rw [AList.lookup_to_alist]
  induction members with
  | nil => rfl
  | cons member members ih =>
      by_cases hkey : key = member.1
      · subst hkey
        rw [List.map_cons, List.dlookup_cons_eq, List.lookup_cons, beq_self_eq_true]
      · have hmiss : (key == member.1) = false := by simpa using hkey
        rw [List.map_cons, List.dlookup_cons_ne _ _ hkey, ih, List.lookup_cons, hmiss]

end JsonDict

end AlgorithmHarness
