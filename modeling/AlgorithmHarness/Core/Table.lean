import Mathlib.Data.List.Nodup

/-!
# Tables as lists of rows

`UPDATE ... WHERE` on a table held as a list, and what it leaves of the
lookups, the keys and the other rows.
-/

namespace AlgorithmHarness.Table

variable {Row Key : Type*}

/-- `UPDATE ... SET change WHERE condition`. -/
def updateWhere (condition : Row → Bool) (change : Row → Row) (rows : List Row) : List Row :=
  rows.map fun row => if condition row then change row else row

variable {condition : Row → Bool} {change : Row → Row} {rows : List Row}

theorem mem_updateWhere {row : Row} :
    row ∈ updateWhere condition change rows ↔
      ∃ before ∈ rows, (if condition before then change before else before) = row := by
  simp [updateWhere]

/-- A row the condition does not select stays. -/
theorem mem_updateWhere_of_not {row : Row} (hrow : row ∈ rows) (hother : condition row = false) :
    row ∈ updateWhere condition change rows :=
  mem_updateWhere.mpr ⟨row, hrow, by simp [hother]⟩

theorem mem_updateWhere_of {row : Row} (hrow : row ∈ rows) (hselected : condition row = true) :
    change row ∈ updateWhere condition change rows :=
  mem_updateWhere.mpr ⟨row, hrow, by simp [hselected]⟩

theorem updateWhere_eq_self (hother : ∀ row ∈ rows, condition row = false) :
    updateWhere condition change rows = rows := by
  induction rows with
  | nil => rfl
  | cons row rows ih =>
      have hrow : condition row = false := hother row List.mem_cons_self
      have hrest := ih fun later hlater => hother later (List.mem_cons_of_mem _ hlater)
      rw [updateWhere] at hrest
      rw [updateWhere, List.map_cons, hrest, hrow]
      rfl

/-- An update that keeps a column of every row keeps that column of the table. -/
theorem map_updateWhere {column : Row → Key} (hkept : ∀ row, column (change row) = column row) :
    (updateWhere condition change rows).map column = rows.map column := by
  rw [updateWhere, List.map_map]
  apply List.map_congr_left
  intro row _
  dsimp only [Function.comp_apply]
  split_ifs
  · exact hkept row
  · rfl

/-- An update that keeps what a lookup selects by commutes with the lookup. -/
theorem find?_updateWhere {select : Row → Bool}
    (hkept : ∀ row, select (change row) = select row) :
    (updateWhere condition change rows).find? select =
      (rows.find? select).map fun row => if condition row then change row else row := by
  have hselect : (select ∘ fun row => if condition row then change row else row) = select := by
    funext row
    dsimp only [Function.comp_apply]
    split_ifs
    · exact hkept row
    · rfl
  rw [updateWhere, List.find?_map, hselect]

/-- Two rows with the same primary key are one. -/
theorem row_unique {key : Row → Key} (hkeys : (rows.map key).Nodup) {first second : Row}
    (hfirst : first ∈ rows) (hsecond : second ∈ rows) (hsame : key first = key second) :
    first = second :=
  List.inj_on_of_nodup_map hkeys hfirst hsecond hsame

end AlgorithmHarness.Table
