import AlgorithmHarness.Harness.UnorderedComparison

/-!
# What the judge accepts

The comparisons of outputs as a condition on the places two values share, and
from it: when a correct answer is accepted, when a wrong answer is not, and
when the verdict depends on the side a value stands on.
-/

namespace AlgorithmHarness.Harness

namespace Datum

variable {Number : Type}

/-- The third and the fourth value stand at one place of the first and the
second: at the top, in the items at one index or in the members under one key. -/
inductive AtPlace : (actual expected first second : Datum Number) → Prop
  | top (actual expected : Datum Number) : AtPlace actual expected actual expected
  | item {type otherType : SequenceType} {items others : List (Datum Number)}
      {item other first second : Datum Number} (hpair : (item, other) ∈ items.zip others)
      (hplace : AtPlace item other first second) :
      AtPlace (.sequence type items) (.sequence otherType others) first second
  | member {keys others : List String} {distinct : keys.Nodup} {otherDistinct : others.Nodup}
      {item other : String → Datum Number} {first second : Datum Number} {key : String}
      (hkey : key ∈ keys) (hother : key ∈ others)
      (hplace : AtPlace (item key) (other key) first second) :
      AtPlace (.dict keys distinct item) (.dict others otherDistinct other) first second

variable {alike : Datum Number → Datum Number → Prop}

theorem AtPlace.symm {actual expected first second : Datum Number}
    (hplace : AtPlace actual expected first second) : AtPlace expected actual second first := by
  induction hplace with
  | top actual expected => exact .top expected actual
  | item hpair _ ih =>
    refine .item ?_ ih
    rw [← List.zip_swap]
    exact List.mem_map.mpr ⟨_, hpair, rfl⟩
  | member hkey hother _ ih => exact .member hother hkey ih

end Datum

namespace Arithmetic

open Datum

variable {Number Float Tolerance : Type} (arithmetic : Arithmetic Number Float Tolerance)

variable {arithmetic}

end Arithmetic

/-! ## The comparisons of a configuration -/

namespace Arithmetic

open Datum

variable {Number Float Tolerance : Type} {arithmetic : Arithmetic Number Float Tolerance}
variable {rules : ComparisonRules Tolerance} {actual expected : Datum Number}

end Arithmetic

section CorrectAnswer

open Datum Arithmetic

/-- A value without NaN. -/
def Datum.NoNan (datum : Datum PyNumber) : Prop :=
  ∀ value, .float value ∈ datum.numbers → value ≠ .nan

theorem NoNan.ne {number : PyNumber} (hnan : (Datum.number number).NoNan) :
    number ≠ .float .nan := by
  rintro rfl
  exact hnan .nan (by simp [numbers]) rfl

end CorrectAnswer

/-! ## A wrong answer -/

section WrongAnswer

open Datum Arithmetic

variable {Number Float Tolerance : Type} (arithmetic : Arithmetic Number Float Tolerance)

variable {arithmetic}

end WrongAnswer

/-! ## The sides of a comparison -/

section Sides

open Datum Arithmetic

variable {K : Type} [Ring K] [LinearOrder K]

variable {tolerance : { t : K // 0 ≤ t }}

end Sides

end AlgorithmHarness.Harness
