import Mathlib.Algebra.Order.Floor.Semiring
import Mathlib.Algebra.Order.Round
import Mathlib.Data.Int.Log
import Mathlib.Data.Rat.Floor
import Mathlib.Tactic.Linarith
import Mathlib.Tactic.Positivity
import Mathlib.Tactic.Ring

/-!
# Decimal numerals and decimal arithmetic

The numerals of the naturals, and the rounding that a context of decimal
arithmetic applies to the exact result of an operation.
-/

namespace AlgorithmHarness

/-! ## Numerals -/

theorem toString_injective : Function.Injective fun number : ℕ => toString number := by
  intro first second hsame
  have hdigits : Nat.toDigits 10 first = Nat.toDigits 10 second := by
    rw [← Nat.toList_repr, ← Nat.toList_repr]
    exact congrArg String.toList hsame
  rw [← Nat.ofDigitChars_ten_toDigits (n := first), hdigits, Nat.ofDigitChars_ten_toDigits]

/-- `text.isdigit()`, for ASCII texts. -/
def isNumeral (text : String) : Bool := text ≠ "" && text.toList.all Char.isDigit

theorem isNumeral_toString (number : ℕ) : isNumeral (toString number) = true := by
  have hdigits : (toString number).toList = Nat.toDigits 10 number := Nat.toList_repr
  have hnonempty : toString number ≠ "" := by
    intro hempty
    have hlength := congrArg String.toList hempty
    rw [hdigits] at hlength
    exact Nat.toDigits_ne_nil hlength
  rw [isNumeral, Bool.and_eq_true_iff, decide_eq_true_iff, List.all_eq_true, hdigits]
  refine ⟨hnonempty, ?_⟩
  intro letter hletter
  exact Nat.isDigit_of_mem_toDigits (by decide) (by decide) hletter

/-! ## Rounding -/

/-- The nearest integer, and of two the even one. -/
def halfEven (value : ℚ) : ℤ :=
  let below := ⌊value⌋
  if value - below < 1 / 2 then below
  else if 1 / 2 < value - below then below + 1
  else if below % 2 = 0 then below
  else below + 1

@[simp]
theorem halfEven_intCast (value : ℤ) : halfEven value = value := by
  simp [halfEven]

/-- A context of decimal arithmetic that rounds half to even. -/
structure DecimalContext where
  prec : ℕ
  emin : ℤ
  emax : ℤ
  deriving DecidableEq

namespace DecimalContext

/-- The context a Python program starts with. -/
def default : DecimalContext := { prec := 28, emin := -999999, emax := 999999 }

variable (context : DecimalContext)

/-- The exponent of the last digit that is kept. -/
def quantum (value : ℚ) : ℤ :=
  max (Int.log 10 value) context.emin - (context.prec - 1)

/-- The result of an operation with an exact value; `none` is an `Overflow`. -/
def round (value : ℚ) : Option ℚ :=
  let digit : ℚ := 10 ^ context.quantum value
  let result := halfEven (value / digit) * digit
  if Int.log 10 result ≤ context.emax then some result else none

variable {context}

end DecimalContext

end AlgorithmHarness
