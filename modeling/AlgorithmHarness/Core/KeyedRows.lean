import Mathlib.Algebra.BigOperators.Group.List.Basic
import Mathlib.Data.List.Nodup
import Mathlib.Tactic.Abel

/-!
# Rows with a key

A table held as a list of rows.  `put` updates the row with the key of a new
row in place or appends it.  A total that is maintained by differences stays
the sum over the rows.
-/

namespace AlgorithmHarness.KeyedRows

variable {Row Key : Type*} [DecidableEq Key] (key : Row → Key)

/-- The first row with a key. -/
def fetch (wanted : Key) (rows : List Row) : Option Row :=
  rows.find? fun row => key row = wanted

def put (row : Row) : List Row → List Row
  | [] => [row]
  | first :: rest => if key first = key row then row :: rest else first :: put row rest

variable {key}

@[simp]
theorem fetch_nil (wanted : Key) : fetch key wanted [] = none := rfl

theorem fetch_cons (wanted : Key) (first : Row) (rest : List Row) :
    fetch key wanted (first :: rest) =
      if key first = wanted then some first else fetch key wanted rest := by
  by_cases hfirst : key first = wanted <;> simp [fetch, hfirst]

theorem put_cons (row first : Row) (rest : List Row) :
    put key row (first :: rest) =
      if key first = key row then row :: rest else first :: put key row rest := rfl

theorem fetch_mem {wanted : Key} {rows : List Row} {row : Row}
    (hfetch : fetch key wanted rows = some row) : row ∈ rows ∧ key row = wanted :=
  ⟨List.mem_of_find?_eq_some hfetch, by simpa using List.find?_some hfetch⟩

theorem fetch_put (row : Row) (rows : List Row) (wanted : Key) :
    fetch key wanted (put key row rows) =
      if key row = wanted then some row else fetch key wanted rows := by
  induction rows with
  | nil => simp [put, fetch_cons]
  | cons first rest ih =>
      rw [put_cons]
      by_cases hfirst : key first = key row
      · rw [if_pos hfirst, fetch_cons, fetch_cons, hfirst]
        split_ifs <;> rfl
      · rw [if_neg hfirst, fetch_cons, fetch_cons, ih]
        by_cases hwanted : key first = wanted
        · have hother : key row ≠ wanted := fun hsame => hfirst (hwanted.trans hsame.symm)
          rw [if_pos hwanted, if_neg hother, if_pos hwanted]
        · rw [if_neg hwanted, if_neg hwanted]

/-- With unique keys, the row of a key is the one with it. -/
theorem fetch_eq_some_iff {wanted : Key} {rows : List Row} (hunique : (rows.map key).Nodup)
    {row : Row} : fetch key wanted rows = some row ↔ row ∈ rows ∧ key row = wanted := by
  refine ⟨fetch_mem, ?_⟩
  intro ⟨hrow, hkey⟩
  cases hfetch : fetch key wanted rows with
  | none =>
      have hother := List.find?_eq_none.mp hfetch row hrow
      exact absurd (decide_eq_true hkey) hother
  | some found =>
      obtain ⟨hfound, hsame⟩ := fetch_mem hfetch
      exact congrArg some (List.inj_on_of_nodup_map hunique hfound hrow (hsame.trans hkey.symm))

/-- The order of rows with unique keys is not seen. -/
theorem fetch_perm {rows others : List Row} (hperm : rows.Perm others)
    (hunique : (rows.map key).Nodup) (wanted : Key) :
    fetch key wanted rows = fetch key wanted others := by
  apply Option.ext
  intro row
  rw [fetch_eq_some_iff hunique, fetch_eq_some_iff ((hperm.map key).nodup_iff.mp hunique),
    hperm.mem_iff]

/-- Putting back the row a key already has changes nothing. -/
theorem put_of_fetch {row : Row} {rows : List Row} (hfetch : fetch key (key row) rows = some row) :
    put key row rows = rows := by
  induction rows with
  | nil => cases hfetch
  | cons first rest ih =>
      rw [fetch_cons] at hfetch
      rw [put_cons]
      split_ifs at hfetch ⊢ with hfirst
      · rw [Option.some.inj hfetch]
      · rw [ih hfetch]

theorem fetch_eq_none {wanted : Key} {rows : List Row} :
    fetch key wanted rows = none ↔ wanted ∉ rows.map key := by
  simp [fetch, List.find?_eq_none]

/-- A row with a new key goes to the end. -/
theorem put_of_fetch_none {row : Row} {rows : List Row}
    (hfetch : fetch key (key row) rows = none) : put key row rows = rows ++ [row] := by
  induction rows with
  | nil => rfl
  | cons first rest ih =>
      rw [fetch_cons] at hfetch
      split_ifs at hfetch with hfirst
      rw [put_cons, if_neg hfirst, ih hfetch, List.cons_append]

theorem map_key_put (row : Row) (rows : List Row) :
    (put key row rows).map key =
      if key row ∈ rows.map key then rows.map key else rows.map key ++ [key row] := by
  induction rows with
  | nil => simp [put]
  | cons first rest ih =>
      rw [put_cons]
      by_cases hfirst : key first = key row
      · simp [hfirst]
      · have hother : key row ≠ key first := fun hsame => hfirst hsame.symm
        rw [if_neg hfirst, List.map_cons, ih, List.map_cons]
        by_cases hmem : key row ∈ rest.map key
        · rw [if_pos hmem, if_pos (List.mem_cons_of_mem _ hmem)]
        · rw [if_neg hmem, if_neg (List.not_mem_cons_of_ne_of_not_mem hother hmem),
            List.cons_append]

theorem mem_put {row other : Row} {rows : List Row} (hmem : other ∈ put key row rows) :
    other = row ∨ other ∈ rows := by
  induction rows with
  | nil => exact .inl (List.mem_singleton.mp hmem)
  | cons first rest ih =>
      rw [put_cons] at hmem
      split_ifs at hmem
      · rcases List.mem_cons.mp hmem with hrow | hrest
        · exact .inl hrow
        · exact .inr (List.mem_cons_of_mem _ hrest)
      · rcases List.mem_cons.mp hmem with hfirst | hrest
        · exact .inr (hfirst ▸ List.mem_cons_self)
        · exact (ih hrest).imp_right (List.mem_cons_of_mem _)

theorem nodup_put {rows : List Row} (hunique : (rows.map key).Nodup) (row : Row) :
    ((put key row rows).map key).Nodup := by
  rw [map_key_put]
  split_ifs with hmem
  · exact hunique
  · exact List.nodup_append.mpr ⟨hunique, by simp, by
      intro other hother _ hlast
      rw [List.mem_singleton.mp hlast]
      exact fun hsame => hmem (hsame ▸ hother)⟩

/-- The sum over the rows moves by the difference between the new row and the
row it replaces. -/
theorem sum_put {Amount : Type*} [AddCommGroup Amount] (amount : Row → Amount) (row : Row)
    (rows : List Row) :
    ((put key row rows).map amount).sum =
      (rows.map amount).sum + amount row - ((fetch key (key row) rows).map amount).getD 0 := by
  induction rows with
  | nil => simp [put]
  | cons first rest ih =>
      rw [put_cons]
      by_cases hfirst : key first = key row
      · have hfetch : fetch key (key row) (first :: rest) = some first := by
          rw [fetch_cons, if_pos hfirst]
        rw [if_pos hfirst, hfetch]
        simp only [List.map_cons, List.sum_cons, Option.map_some, Option.getD_some]
        abel
      · have hfetch : fetch key (key row) (first :: rest) = fetch key (key row) rest := by
          rw [fetch_cons, if_neg hfirst]
        rw [if_neg hfirst, hfetch, List.map_cons, List.sum_cons, ih, List.map_cons,
          List.sum_cons]
        abel

end AlgorithmHarness.KeyedRows
