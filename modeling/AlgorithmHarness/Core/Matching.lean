import Mathlib.Algebra.BigOperators.Group.Finset.Basic
import Mathlib.Data.Finset.Card
import Mathlib.Data.Fintype.Card

/-!
# Bipartite matching by augmenting paths

The depth-first search for an augmenting path with a set of visited vertices,
and what the search over all vertices of one side decides: whether they can be
matched at once.
-/

namespace AlgorithmHarness.Matching

open Function

variable {Left Right : Type} [DecidableEq Left] [DecidableEq Right]

/-- What a search changes: the vertices it has visited and the matching. -/
structure Search (Left Right : Type) where
  visited : Finset Right
  matched : Right → Option Left

/-- Goes over the rest of a row; an occupied vertex is free once its occupant
has found another. -/
def tryMatch (findMatch : Left → Search Left Right → Bool × Search Left Right) (left : Left) :
    List Right → Search Left Right → Bool × Search Left Right
  | [], search => (false, search)
  | right :: row, search =>
      if right ∈ search.visited then tryMatch findMatch left row search
      else
        let entered := { search with visited := insert right search.visited }
        let (free, search) :=
          match entered.matched right with
          | none => (true, entered)
          | some previous => findMatch previous entered
        if free then
          (true, { search with matched := update search.matched right (some left) })
        else tryMatch findMatch left row search

/-- Every nested call has visited another vertex, so their number bounds the depth. -/
def findMatch (adjacency : Left → List Right) :
    ℕ → Left → Search Left Right → Bool × Search Left Right
  | 0, _, search => (false, search)
  | depth + 1, left, search =>
      tryMatch (findMatch adjacency depth) left (adjacency left) search

/-- One search for each vertex, with nothing visited. -/
def matchAll (adjacency : Left → List Right) (depth : ℕ) :
    List Left → (Right → Option Left) → Bool
  | [], _ => true
  | left :: lefts, matched =>
      let (found, search) := findMatch adjacency depth left { visited := ∅, matched }
      found && matchAll adjacency depth lefts search.matched

variable {adjacency : Left → List Right}

/-! ## One search -/

/-- How many vertices a vertex is matched to. -/
def places [Fintype Right] (matched : Right → Option Left) (left : Left) : ℕ :=
  (Finset.univ.filter fun right => matched right = some left).card

/-- Only edges are used. -/
def OnEdges (adjacency : Left → List Right) (matched : Right → Option Left) : Prop :=
  ∀ right left, matched right = some left → right ∈ adjacency left

/-- A search that succeeds gives its vertex one place more and every other as
many as before, without touching what was visited before it. -/
structure Augmented [Fintype Right] (adjacency : Left → List Right) (left : Left)
    (before after : Search Left Right) : Prop where
  kept : ∀ right ∈ before.visited, after.matched right = before.matched right
  edges : OnEdges adjacency before.matched → OnEdges adjacency after.matched
  places : ∀ other,
    places after.matched other = places before.matched other + if other = left then 1 else 0

/-- A search that fails leaves the matching alone and has visited the whole row
and, with an occupied vertex, the row of the occupant. -/
structure Blocked (adjacency : Left → List Right) (row : List Right)
    (before after : Search Left Right) : Prop where
  matched : after.matched = before.matched
  grows : before.visited ⊆ after.visited
  row : ∀ right ∈ row, right ∈ after.visited
  closed : ∀ right ∈ after.visited, right ∉ before.visited →
    ∃ previous, before.matched right = some previous ∧
      ∀ next ∈ adjacency previous, next ∈ after.visited

inductive Outcome [Fintype Right] (adjacency : Left → List Right) (left : Left) (row : List Right)
    (before : Search Left Right) : Bool × Search Left Right → Prop
  | found {after : Search Left Right} (augmented : Augmented adjacency left before after) :
      Outcome adjacency left row before (true, after)
  | blocked {after : Search Left Right} (blocked : Blocked adjacency row before after) :
      Outcome adjacency left row before (false, after)

section Places

variable [Fintype Right]

/-- A vertex that was free gives its new occupant a place. -/
theorem places_update_none {matched : Right → Option Left} {right : Right}
    (hfree : matched right = none) (left other : Left) :
    places (update matched right (some left)) other =
      places matched other + if other = left then 1 else 0 := by
  have hunplaced : right ∉ Finset.univ.filter fun place => matched place = some other := by
    simp [hfree]
  by_cases hsame : other = left
  · have hplaces : (Finset.univ.filter fun place =>
        update matched right (some left) place = some other) =
          insert right (Finset.univ.filter fun place => matched place = some other) := by
      ext place
      by_cases hplace : place = right <;> simp [update_apply, hplace, hsame]
    rw [places, places, hplaces, Finset.card_insert_of_notMem hunplaced, if_pos hsame]
  · have hplaces : (Finset.univ.filter fun place =>
        update matched right (some left) place = some other) =
          Finset.univ.filter fun place => matched place = some other := by
      ext place
      by_cases hplace : place = right <;>
        simp [update_apply, hplace, hfree, Ne.symm hsame]
    rw [places, places, hplaces, if_neg hsame, Nat.add_zero]

/-- Freeing a vertex takes one place from its occupant. -/
theorem places_update_some {matched : Right → Option Left} {right : Right} {previous : Left}
    (hoccupied : matched right = some previous) (other : Left) :
    places matched other =
      places (update matched right none) other + if other = previous then 1 else 0 := by
  have hrestore : update (update matched right none) right (some previous) = matched := by
    rw [update_idem, ← hoccupied, update_eq_self]
  have hfree : update matched right none right = none := update_self ..
  have hplaces := places_update_none hfree previous other
  rw [hrestore] at hplaces
  exact hplaces

theorem places_replace {matched : Right → Option Left} {right : Right} {previous : Left}
    (hoccupied : matched right = some previous) (left other : Left) :
    places (update matched right (some left)) other + (if other = previous then 1 else 0) =
      places matched other + if other = left then 1 else 0 := by
  have hremoved := places_update_some hoccupied other
  have hfree : update matched right none right = none := update_self ..
  have hadded := places_update_none hfree left other
  rw [update_idem] at hadded
  omega

end Places

omit [DecidableEq Left] in
theorem OnEdges.update {matched : Right → Option Left} (hedges : OnEdges adjacency matched)
    {left : Left} {right : Right} (hedge : right ∈ adjacency left) :
    OnEdges adjacency (update matched right (some left)) := by
  intro place occupant hoccupant
  by_cases hplace : place = right
  · subst hplace
    rw [update_self, Option.some.injEq] at hoccupant
    exact hoccupant ▸ hedge
  · rw [update_of_ne hplace] at hoccupant
    exact hedges place occupant hoccupant

section Blocked

variable {before middle after : Search Left Right}

omit [DecidableEq Left] [DecidableEq Right] in
theorem Blocked.visited {right : Right} (hvisited : right ∈ before.visited) :
    Blocked adjacency [right] before before where
  matched := rfl
  grows := Finset.Subset.refl _
  row other hother := by
    rw [List.mem_singleton] at hother
    exact hother ▸ hvisited
  closed _ hafter hbefore := absurd hafter hbefore

omit [DecidableEq Left] [DecidableEq Right] in
theorem Blocked.append {row rest : List Right} (hfirst : Blocked adjacency row before middle)
    (hrest : Blocked adjacency rest middle after) :
    Blocked adjacency (row ++ rest) before after where
  matched := hrest.matched.trans hfirst.matched
  grows := hfirst.grows.trans hrest.grows
  row other hother := by
    rcases List.mem_append.mp hother with hrow | hother
    · exact hrest.grows (hfirst.row other hrow)
    · exact hrest.row other hother
  closed other hafter hbefore := by
    by_cases hmiddle : other ∈ middle.visited
    · obtain ⟨occupant, hoccupant, hnext⟩ := hfirst.closed other hmiddle hbefore
      exact ⟨occupant, hoccupant, fun next hmem => hrest.grows (hnext next hmem)⟩
    · obtain ⟨occupant, hoccupant, hnext⟩ := hrest.closed other hafter hmiddle
      rw [hfirst.matched] at hoccupant
      exact ⟨occupant, hoccupant, hnext⟩

end Blocked

section Augmented

variable [Fintype Right] {left : Left} {before middle after : Search Left Right}

/-- A free vertex is taken. -/
theorem Augmented.free {right : Right} (hedge : right ∈ adjacency left)
    (hunvisited : right ∉ before.visited) (hfree : before.matched right = none) :
    Augmented adjacency left before
      { visited := insert right before.visited
        matched := update before.matched right (some left) } where
  kept other hother := by
    have hne : other ≠ right := ne_of_mem_of_not_mem hother hunvisited
    exact update_of_ne hne ..
  edges hedges := hedges.update hedge
  places other := places_update_none hfree left other

/-- A vertex whose occupant has found another place is taken. -/
theorem Augmented.replace {right : Right} {previous : Left} (hedge : right ∈ adjacency left)
    (hunvisited : right ∉ before.visited) (hoccupied : before.matched right = some previous)
    (hmoved : Augmented adjacency previous
      { before with visited := insert right before.visited } middle) :
    Augmented adjacency left before
      { middle with matched := update middle.matched right (some left) } where
  kept other hother := by
    have hne : other ≠ right := ne_of_mem_of_not_mem hother hunvisited
    change update middle.matched right (some left) other = _
    rw [update_of_ne hne]
    exact hmoved.kept other (Finset.mem_insert_of_mem hother)
  edges hedges := (hmoved.edges hedges).update hedge
  places other := by
    have hstill : middle.matched right = some previous := by
      rw [hmoved.kept right (Finset.mem_insert_self ..)]
      exact hoccupied
    have hreplaced := places_replace hstill left other
    have hmiddle := hmoved.places other
    change Matching.places (update middle.matched right (some left)) other = _
    change Matching.places middle.matched other = Matching.places before.matched other + _
      at hmiddle
    omega

omit [DecidableEq Right] in
theorem Augmented.of_blocked {row : List Right} (hblocked : Blocked adjacency row before middle)
    (haugmented : Augmented adjacency left middle after) :
    Augmented adjacency left before after where
  kept right hright := by
    rw [haugmented.kept right (hblocked.grows hright), hblocked.matched]
  edges hedges := haugmented.edges (hblocked.matched ▸ hedges)
  places other := by rw [haugmented.places, hblocked.matched]

omit [DecidableEq Right] in
/-- A search goes on behind a part of its row that leads nowhere. -/
theorem Outcome.cons {right : Right} {row : List Right} {result : Bool × Search Left Right}
    (hfirst : Blocked adjacency [right] before middle)
    (hrest : Outcome adjacency left row middle result) :
    Outcome adjacency left (right :: row) before result := by
  cases hrest with
  | found augmented => exact .found (augmented.of_blocked hfirst)
  | blocked blocked => exact .blocked (hfirst.append blocked)

end Augmented

/-! ## All searches -/

section All

variable [Fintype Right]

/-- The matching gives each of the vertices one place and the others none. -/
structure Covers (adjacency : Left → List Right) (covered : Finset Left)
    (matched : Right → Option Left) : Prop where
  edges : OnEdges adjacency matched
  places : ∀ left, places matched left = if left ∈ covered then 1 else 0

/-- The vertices can be matched at once. -/
def Matchable (adjacency : Left → List Right) (lefts : Finset Left) : Prop :=
  ∃ choice : lefts → Right, Injective choice ∧ ∀ left : lefts, choice left ∈ adjacency left

omit [DecidableEq Left] [DecidableEq Right] [Fintype Right] in
theorem Matchable.subset {lefts others : Finset Left} (hmatchable : Matchable adjacency lefts)
    (hsubset : others ⊆ lefts) : Matchable adjacency others := by
  obtain ⟨choice, hinjective, hchoice⟩ := hmatchable
  refine ⟨fun left => choice ⟨left, hsubset left.property⟩, ?_, fun left => hchoice _⟩
  intro first second hsame
  exact Subtype.ext (congrArg (fun left : lefts => left.val) (hinjective hsame))

variable {covered : Finset Left} {matched : Right → Option Left}

omit [DecidableEq Right] in
theorem Covers.mem (hcovers : Covers adjacency covered matched) {left : Left} {right : Right}
    (hmatched : matched right = some left) : left ∈ covered := by
  by_contra hnot
  have hnone := hcovers.places left
  rw [if_neg hnot, Matching.places, Finset.card_eq_zero] at hnone
  have hmem : right ∈ Finset.univ.filter fun place => matched place = some left := by
    simp [hmatched]
  rw [hnone] at hmem
  exact absurd hmem (Finset.notMem_empty right)

omit [DecidableEq Right] in
theorem Covers.augmented {left : Left} {before after : Search Left Right}
    (hcovers : Covers adjacency covered before.matched) (hnew : left ∉ covered)
    (haugmented : Augmented adjacency left before after) :
    Covers adjacency (insert left covered) after.matched where
  edges := haugmented.edges hcovers.edges
  places other := by
    rw [haugmented.places, hcovers.places]
    by_cases hother : other = left
    · simp [hother, hnew]
    · simp [hother]

end All

end AlgorithmHarness.Matching
