import Mathlib.Data.List.Sort

/-!
# Keyset pagination

Rows with distinct keys are read page by page in descending order of their
keys.  A page continues below the last key of the page before, whatever the
table holds by then.  Every key is passed by exactly one page of a session, and
the page lists the row with that key if and only if the table holds it at that
time.
-/

namespace AlgorithmHarness.Keyset

variable {Row Key : Type*} [LinearOrder Key] (key : Row → Key)

/-- The keys after a cursor. -/
def Below : Option Key → Key → Prop
  | none, _ => True
  | some last, wanted => wanted < last

instance (after : Option Key) (wanted : Key) : Decidable (Below after wanted) :=
  match after with
  | none => inferInstanceAs (Decidable True)
  | some last => inferInstanceAs (Decidable (wanted < last))

/-- The keys down to a cursor. -/
def Reached : Option Key → Key → Prop
  | none, _ => True
  | some last, wanted => last ≤ wanted

theorem below_or_reached {after : Option Key} {wanted : Key} (hnot : ¬Reached after wanted) :
    ∃ last, after = some last ∧ Below after wanted := by
  cases after with
  | none => exact absurd trivial hnot
  | some last => exact ⟨last, rfl, not_le.mp hnot⟩

theorem Below.trans {after : Option Key} {last wanted : Key} (hlast : Below after last)
    (hwanted : Below (some last) wanted) : Below after wanted := by
  cases after with
  | none => trivial
  | some first => exact lt_trans hwanted hlast

theorem not_below_of_reached {last wanted : Key} (hreached : Reached (some last) wanted) :
    ¬Below (some last) wanted := not_lt.mpr hreached

/-- `ORDER BY key DESC` -/
def descending (rows : List Row) : List Row :=
  rows.insertionSort fun first second => key second ≤ key first

/-- One row more than the page is read, to see whether there are more. -/
def readPage (size : ℕ) (after : Option Key) (rows : List Row) : List Row × Option Key :=
  let found := (descending key (rows.filter fun row => Below after (key row))).take (size + 1)
  let shown := found.take size
  (shown, if size < found.length then shown.getLast?.map key else none)

variable {key}

theorem mem_descending {row : Row} {rows : List Row} : row ∈ descending key rows ↔ row ∈ rows :=
  List.mem_insertionSort _

theorem pairwise_descending {rows : List Row} (hkeys : (rows.map key).Nodup) :
    (descending key rows).Pairwise fun first second => key second < key first := by
  have hsorted : (descending key rows).Pairwise fun first second => key second ≤ key first :=
    List.pairwise_insertionSort _ _
  have hdistinct : (descending key rows).Pairwise fun first second => key first ≠ key second := by
    have hnodup : ((descending key rows).map key).Nodup :=
      ((List.perm_insertionSort _ rows).map key).nodup_iff.mpr hkeys
    exact List.pairwise_map.mp hnodup
  exact hsorted.imp₂ (fun _ _ hle hne => lt_of_le_of_ne hle hne.symm) hdistinct

/-! ## One page -/

/-- A page of a session and the table it was read from. -/
structure Reading (Row Key : Type*) where
  rows : List Row
  after : Option Key
  items : List Row
  next : Option Key

/-- The page passes the key. -/
def Reading.Covers (reading : Reading Row Key) (wanted : Key) : Prop :=
  Below reading.after wanted ∧ Reached reading.next wanted

variable (key) in
/-- A page lists the rows it passes, in descending order. -/
structure Reading.Exact (reading : Reading Row Key) : Prop where
  sorted : reading.items.Pairwise fun first second => key second < key first
  mem : ∀ row, row ∈ reading.items ↔ row ∈ reading.rows ∧ reading.Covers (key row)
  descends : ∀ last, reading.next = some last → Below reading.after last

/-- The last row shown divides the ordered rows. -/
theorem mem_shown_iff {shown rest : List Row} {last row : Row}
    (hsorted : (shown ++ rest).Pairwise fun first second => key second < key first)
    (hlast : shown.getLast? = some last) (hrow : row ∈ shown ++ rest) :
    row ∈ shown ↔ key last ≤ key row := by
  obtain ⟨hshown, -, hacross⟩ := List.pairwise_append.mp hsorted
  have hlastmem : last ∈ shown := List.mem_of_getLast? hlast
  constructor
  · intro hmem
    rw [← List.dropLast_append_getLast? last hlast] at hshown hmem
    rcases List.mem_append.mp hmem with hinit | hsame
    · exact ((List.pairwise_append.mp hshown).2.2 row hinit last (List.mem_singleton_self _)).le
    · rw [List.mem_singleton.mp hsame]
  · intro hle
    rcases List.mem_append.mp hrow with hmem | hlater
    · exact hmem
    · exact absurd hle (not_le.mpr (hacross last hlastmem row hlater))

theorem readPage_exact {size : ℕ} (hsize : 1 ≤ size) (after : Option Key) {rows : List Row}
    (hkeys : (rows.map key).Nodup) :
    Reading.Exact key
      { rows := rows
        after := after
        items := (readPage key size after rows).1
        next := (readPage key size after rows).2 } := by
  let below := rows.filter fun row => Below after (key row)
  let ordered := descending key below
  have hstrict : ordered.Pairwise fun first second => key second < key first :=
    pairwise_descending (hkeys.sublist (List.filter_sublist.map key))
  have hordered : ∀ row, row ∈ ordered ↔ row ∈ rows ∧ Below after (key row) := by
    intro row
    rw [mem_descending, List.mem_filter, decide_eq_true_eq]
  have hshown : (readPage key size after rows).1 = ordered.take size := by
    change (ordered.take (size + 1)).take size = _
    rw [List.take_take, min_eq_left (Nat.le_succ size)]
  have hnext : (readPage key size after rows).2 =
      if size < ordered.length then (ordered.take size).getLast?.map key else none := by
    change (if size < (ordered.take (size + 1)).length then
      ((ordered.take (size + 1)).take size).getLast?.map key else none) = _
    rw [List.take_take, min_eq_left (Nat.le_succ size), List.length_take]
    exact if_congr (by omega) rfl rfl
  constructor
  · change (readPage key size after rows).1.Pairwise _
    rw [hshown]
    exact hstrict.sublist (List.take_sublist _ _)
  · intro row
    change row ∈ (readPage key size after rows).1 ↔
      row ∈ rows ∧ Below after (key row) ∧ Reached (readPage key size after rows).2 (key row)
    rw [hshown, ← and_assoc, ← hordered, hnext]
    by_cases hmore : size < ordered.length
    · rw [if_pos hmore]
      have hne : ordered.take size ≠ [] := by
        rw [← List.length_pos_iff, List.length_take]
        omega
      have hlast := List.getLast?_eq_some_getLast hne
      rw [hlast]
      change row ∈ ordered.take size ↔ row ∈ ordered ∧ key ((ordered.take size).getLast hne) ≤ _
      have hsplit : ordered.take size ++ ordered.drop size = ordered := List.take_append_drop _ _
      constructor
      · intro hmem
        have hrow : row ∈ ordered := List.mem_of_mem_take hmem
        exact ⟨hrow, (mem_shown_iff (hsplit.symm ▸ hstrict) hlast (hsplit.symm ▸ hrow)).mp hmem⟩
      · intro ⟨hrow, hle⟩
        exact (mem_shown_iff (hsplit.symm ▸ hstrict) hlast (hsplit.symm ▸ hrow)).mpr hle
    · rw [if_neg hmore, List.take_of_length_le (not_lt.mp hmore)]
      exact (and_iff_left trivial).symm
  · intro last hlast
    change (readPage key size after rows).2 = some last at hlast
    rw [hnext] at hlast
    split_ifs at hlast
    obtain ⟨row, hrow, rfl⟩ := Option.map_eq_some_iff.mp hlast
    exact ((hordered row).mp (List.mem_of_mem_take (List.mem_of_getLast? hrow))).2

/-! ## Sessions -/

variable (key) in
/-- The pages of a session so far, and the cursor to go on with, if any. -/
inductive Session : List (Reading Row Key) → Option (Option Key) → Prop
  | start : Session [] (some none)
  | page {readings : List (Reading Row Key)} {reading : Reading Row Key}
      (hearlier : Session readings (some reading.after)) (hexact : reading.Exact key) :
      Session (readings ++ [reading]) (reading.next.map some)

theorem Session.exact {readings : List (Reading Row Key)} {cursor : Option (Option Key)}
    (hsession : Session key readings cursor) {reading : Reading Row Key}
    (hreading : reading ∈ readings) : reading.Exact key := by
  induction hsession with
  | start => cases hreading
  | page hearlier hexact ih =>
      rcases List.mem_append.mp hreading with hbefore | hlast
      · exact ih hbefore
      · exact List.mem_singleton.mp hlast ▸ hexact

/-- Nothing below the cursor was listed yet. -/
theorem Session.passed {readings : List (Reading Row Key)} {cursor : Option (Option Key)}
    (hsession : Session key readings cursor) {after : Option Key} (hcursor : cursor = some after)
    {row : Row} (hrow : row ∈ readings.flatMap Reading.items) : ¬Below after (key row) := by
  induction hsession generalizing after with
  | start => cases hrow
  | @page readings reading hearlier hexact ih =>
      obtain ⟨last, hnext, rfl⟩ := Option.map_eq_some_iff.mp hcursor
      rw [List.flatMap_append, List.mem_append, List.flatMap_singleton] at hrow
      rcases hrow with hbefore | hlisted
      · have hpassed := ih rfl hbefore
        intro hbelow
        exact hpassed ((hexact.descends last hnext).trans hbelow)
      · have hcovers := ((hexact.mem row).mp hlisted).2
        rw [Reading.Covers, hnext] at hcovers
        exact not_below_of_reached hcovers.2

/-- No key is listed twice, and the pages go down. -/
theorem Session.sorted {readings : List (Reading Row Key)} {cursor : Option (Option Key)}
    (hsession : Session key readings cursor) :
    (readings.flatMap Reading.items).Pairwise fun first second => key second < key first := by
  induction hsession with
  | start => exact List.Pairwise.nil
  | @page readings reading hearlier hexact ih =>
      rw [List.flatMap_append, List.flatMap_singleton, List.pairwise_append]
      refine ⟨ih, hexact.sorted, ?_⟩
      intro first hfirst second hsecond
      have hpassed := hearlier.passed rfl hfirst
      have hbelow := ((hexact.mem second).mp hsecond).2.1
      cases hafter : reading.after with
      | none => exact absurd (hafter ▸ trivial) hpassed
      | some last =>
          rw [hafter] at hpassed hbelow
          exact lt_of_lt_of_le hbelow (not_lt.mp hpassed)

/-- Every key was passed or is still below the cursor. -/
theorem Session.covers {readings : List (Reading Row Key)} {cursor : Option (Option Key)}
    (hsession : Session key readings cursor) (wanted : Key) :
    (∃ after, cursor = some after ∧ Below after wanted) ∨
      ∃ reading ∈ readings, reading.Covers wanted := by
  induction hsession with
  | start => exact .inl ⟨none, rfl, trivial⟩
  | @page readings reading hearlier hexact ih =>
      rcases ih with ⟨after, hafter, hbelow⟩ | ⟨earlier, hmem, hcovers⟩
      · cases hafter
        by_cases hreached : Reached reading.next wanted
        · exact .inr ⟨reading, List.mem_append_right _ (List.mem_singleton_self _), hbelow,
            hreached⟩
        · obtain ⟨last, hnext, hlater⟩ := below_or_reached hreached
          exact .inl ⟨some last, by rw [hnext]; rfl, hnext ▸ hlater⟩
      · exact .inr ⟨earlier, List.mem_append_left _ hmem, hcovers⟩

end AlgorithmHarness.Keyset
