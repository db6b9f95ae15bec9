import AlgorithmHarness.Core.Json
import AlgorithmHarness.Harness.Comparator
import Mathlib.Data.Fintype.EquivFin
import Mathlib.Data.List.GetD
import Mathlib.Logic.Equiv.Fin.Basic

/-!
# The unordered comparison is a bijection

What `compareUnordered` accepts, for any comparison of two items: the lists
whose positions can be paired so that every pair is accepted.
-/

namespace AlgorithmHarness.Harness

open Function Matching

/-! ## Rows of the adjacency -/

section Rows

variable {Item : Type} {check : Item → Except String Bool}

end Rows

/-! ## Pairings -/

section Pairing

variable {Item : Type}

/-- The positions can be paired so that every pair is related. -/
def Paired (related : Item → Item → Prop) (actual expected : List Item) : Prop :=
  ∃ pairing : Fin actual.length ≃ Fin expected.length,
    ∀ index, related actual[index] expected[pairing index]

variable {related : Item → Item → Prop} {actual expected : List Item}

theorem Paired.length_eq (hpaired : Paired related actual expected) :
    actual.length = expected.length := by
  obtain ⟨pairing, -⟩ := hpaired
  simpa using Fintype.card_congr pairing

theorem Paired.mono {other : Item → Item → Prop} (hpaired : Paired related actual expected)
    (himp : ∀ first ∈ actual, ∀ second ∈ expected, related first second → other first second) :
    Paired other actual expected := by
  obtain ⟨pairing, hpairing⟩ := hpaired
  exact ⟨pairing, fun index =>
    himp _ (List.getElem_mem _) _ (List.getElem_mem _) (hpairing index)⟩

theorem Paired.symm (hpaired : Paired related actual expected) :
    Paired (fun first second => related second first) expected actual := by
  obtain ⟨pairing, hpairing⟩ := hpaired
  refine ⟨pairing.symm, fun index => ?_⟩
  simpa using hpairing (pairing.symm index)

end Pairing

/-! ## What is accepted -/

section Accepted

variable {Item : Type} {compare : Item → Item → Except String Bool} {actual expected : List Item}

namespace Arithmetic

end Arithmetic

end Accepted

/-! ## Lists of values -/

namespace Arithmetic

variable {Number Float Tolerance : Type} (arithmetic : Arithmetic Number Float Tolerance)

end Arithmetic

end AlgorithmHarness.Harness
