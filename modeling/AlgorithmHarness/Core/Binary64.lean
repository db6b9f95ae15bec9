import AlgorithmHarness.Core.Decimals
import Mathlib.Algebra.Order.Field.Basic

/-!
# Binary64 floating point

The doubles with the rounding of an exact result to the nearest of them, the
conversion of an integer, and the closeness of two doubles up to a tolerance.
The two zeros are one value.
-/

namespace AlgorithmHarness

/-! ## Rounding to an integer -/

theorem le_halfEven {bound : ℤ} {value : ℚ} (hle : (bound : ℚ) ≤ value) :
    bound ≤ halfEven value := by
  have hfloor : bound ≤ ⌊value⌋ := Int.le_floor.mpr hle
  rw [halfEven]
  split_ifs <;> omega

theorem halfEven_le {bound : ℤ} {value : ℚ} (hle : value ≤ bound) : halfEven value ≤ bound := by
  rcases eq_or_lt_of_le hle with rfl | hlt
  · rw [halfEven_intCast]
  · have hfloor : ⌊value⌋ < bound := Int.floor_lt.mpr hlt
    rw [halfEven]
    split_ifs <;> omega

/-- The finite doubles: a significand of 53 bits and an exponent of 11. -/
def Representable (value : ℚ) : Prop :=
  ∃ significand exponent : ℤ, |significand| < 2 ^ 53 ∧ -1074 ≤ exponent ∧ exponent ≤ 971 ∧
    value = significand * 2 ^ exponent

inductive Double
  | finite (value : ℚ) (representable : Representable value)
  | infinite (negative : Bool)
  | nan
  deriving DecidableEq

/-- The exponent of the last bit that is kept of a magnitude. -/
def lastBit (magnitude : ℚ) : ℤ := max (Int.log 2 magnitude) (-1022) - 52

/-- The magnitude of the nearest double, of two the even one, if the range had no end. -/
def nearest (magnitude : ℚ) : ℚ :=
  halfEven (magnitude / 2 ^ lastBit magnitude) * 2 ^ lastBit magnitude

theorem neg_representable {value : ℚ} (hvalue : Representable value) : Representable (-value) := by
  obtain ⟨significand, exponent, hbits, hlow, hhigh, rfl⟩ := hvalue
  refine ⟨-significand, exponent, by rwa [abs_neg], hlow, hhigh, ?_⟩
  push_cast
  ring

theorem div_lastBit_lt {magnitude : ℚ} :
    magnitude / 2 ^ lastBit magnitude < 2 ^ 53 := by
  have hpower : (0 : ℚ) < 2 ^ lastBit magnitude := zpow_pos (by norm_num) _
  have hlog := Int.lt_zpow_succ_log_self (b := 2) (by norm_num) magnitude
  rw [div_lt_iff₀ hpower]
  calc
    magnitude < (2 : ℚ) ^ (Int.log 2 magnitude + 1) := by exact_mod_cast hlog
    _ ≤ (2 : ℚ) ^ (53 + lastBit magnitude) := by
      apply zpow_le_zpow_right₀ (by norm_num)
      rw [lastBit]
      omega
    _ = 2 ^ 53 * 2 ^ lastBit magnitude := by
      rw [zpow_add₀ (by norm_num)]
      norm_num

/-- A magnitude with a normal exponent fills its significand. -/
theorem le_div_lastBit {magnitude : ℚ} (hpositive : 0 < magnitude)
    (hnormal : -1022 ≤ Int.log 2 magnitude) :
    2 ^ 52 ≤ magnitude / 2 ^ lastBit magnitude := by
  have hpower : (0 : ℚ) < 2 ^ lastBit magnitude := zpow_pos (by norm_num) _
  have hlog := Int.zpow_log_le_self (b := 2) (by norm_num) hpositive
  rw [le_div_iff₀ hpower]
  calc
    (2 : ℚ) ^ 52 * 2 ^ lastBit magnitude = 2 ^ (52 + lastBit magnitude) := by
      rw [zpow_add₀ (by norm_num)]
      norm_num
    _ = 2 ^ Int.log 2 magnitude := by
      congr 1
      rw [lastBit]
      omega
    _ ≤ magnitude := by exact_mod_cast hlog

/-- A magnitude beyond the range is not rounded into it. -/
theorem le_nearest {magnitude : ℚ} (hlarge : 972 ≤ lastBit magnitude) :
    2 ^ 1024 ≤ nearest magnitude := by
  have hlog : 1024 ≤ Int.log 2 magnitude := by
    rw [lastBit] at hlarge
    omega
  have hpositive : 0 < magnitude := by
    by_contra hnot
    rw [Int.log_of_right_le_zero 2 (not_lt.mp hnot)] at hlog
    omega
  have hfull : (2 ^ 52 : ℤ) ≤ halfEven (magnitude / 2 ^ lastBit magnitude) :=
    le_halfEven (by exact_mod_cast le_div_lastBit hpositive (by omega))
  calc
    (2 : ℚ) ^ 1024 = 2 ^ 52 * 2 ^ (972 : ℤ) := by rw [zpow_ofNat, ← pow_add]
    _ ≤ 2 ^ 52 * 2 ^ lastBit magnitude :=
      mul_le_mul_of_nonneg_left (zpow_le_zpow_right₀ (by norm_num) hlarge) (by norm_num)
    _ ≤ nearest magnitude :=
      mul_le_mul_of_nonneg_right (by exact_mod_cast hfull) (zpow_pos (by norm_num) _).le

theorem nearest_representable {magnitude : ℚ} (hnonneg : 0 ≤ magnitude)
    (hrange : nearest magnitude < 2 ^ 1024) : Representable (nearest magnitude) := by
  have hpower : (0 : ℚ) < 2 ^ lastBit magnitude := zpow_pos (by norm_num) _
  have hlow : 0 ≤ halfEven (magnitude / 2 ^ lastBit magnitude) :=
    le_halfEven (by simpa using div_nonneg hnonneg hpower.le)
  have hhigh : halfEven (magnitude / 2 ^ lastBit magnitude) ≤ 2 ^ 53 :=
    halfEven_le (by exact_mod_cast div_lastBit_lt.le)
  have hsmallest : -1074 ≤ lastBit magnitude := by
    rw [lastBit]
    omega
  rcases eq_or_lt_of_le hhigh with hfull | hfits
  · have hexact : nearest magnitude = 2 ^ (53 + lastBit magnitude) := by
      rw [nearest, hfull, zpow_add₀ (by norm_num)]
      norm_num
    have hexponent : 53 + lastBit magnitude < 1024 := by
      rw [hexact] at hrange
      exact (zpow_lt_zpow_iff_right₀ (by norm_num : (1 : ℚ) < 2)).mp (by exact_mod_cast hrange)
    refine ⟨2 ^ 52, lastBit magnitude + 1, by norm_num, by omega, by omega, ?_⟩
    rw [hexact, zpow_add₀ (by norm_num), zpow_add₀ (by norm_num)]
    norm_num
    ring
  · by_cases hlarge : lastBit magnitude ≤ 971
    · exact ⟨_, _, by rwa [abs_of_nonneg hlow], hsmallest, hlarge, rfl⟩
    · exact absurd hrange (not_lt.mpr (le_nearest (by omega)))

/-! ## Integers -/

namespace Double

/-- The double nearest to a value. -/
def round (value : ℚ) : Double :=
  if hrange : nearest |value| < 2 ^ 1024 then
    if value < 0 then
      .finite (-nearest |value|)
        (neg_representable (nearest_representable (abs_nonneg value) hrange))
    else .finite (nearest |value|) (nearest_representable (abs_nonneg value) hrange)
  else .infinite (value < 0)

theorem round_ne_nan (value : ℚ) : round value ≠ .nan := by
  rw [round]
  split_ifs
  · exact Double.noConfusion
  · exact Double.noConfusion
  · exact Double.noConfusion

/-- `float(n)`; `none` is an `OverflowError`. -/
def ofInt (value : ℤ) : Option Double :=
  match round value with
  | .finite value representable => some (.finite value representable)
  | _ => none

def zero : Double := .finite 0 ⟨0, 0, by norm_num, by norm_num, by norm_num, by norm_num⟩

/-- `-x` -/
def neg : Double → Double
  | .finite value representable => .finite (-value) (neg_representable representable)
  | .infinite negative => .infinite !negative
  | .nan => .nan

/-- `abs(x)` -/
def abs (x : Double) : Double :=
  match x with
  | .finite value _ => if value < 0 then x.neg else x
  | .infinite _ => .infinite false
  | .nan => .nan

/-- `x - y` -/
def sub : Double → Double → Double
  | .finite value _, .finite other _ => round (value - other)
  | .nan, _ => .nan
  | _, .nan => .nan
  | .infinite negative, .infinite other => if negative = other then .nan else .infinite negative
  | .infinite negative, .finite _ _ => .infinite negative
  | .finite _ _, .infinite other => .infinite !other

/-- `x * y` -/
def mul : Double → Double → Double
  | .finite value _, .finite other _ => round (value * other)
  | .nan, _ => .nan
  | _, .nan => .nan
  | .infinite negative, .infinite other => .infinite (negative ≠ other)
  | .infinite negative, .finite other _ =>
      if other = 0 then .nan else .infinite (negative ≠ decide (other < 0))
  | .finite value _, .infinite other =>
      if value = 0 then .nan else .infinite (decide (value < 0) ≠ other)

/-- `x == y` -/
def eq (x y : Double) : Bool := x ≠ .nan && x = y

/-- `x <= y` -/
def le : Double → Double → Bool
  | .nan, _ => false
  | _, .nan => false
  | .finite value _, .finite other _ => value ≤ other
  | .infinite negative, .infinite other => negative || !other
  | .infinite negative, .finite _ _ => negative
  | .finite _ _, .infinite other => !other

theorem le_total {x y : Double} (hx : x ≠ .nan) (hy : y ≠ .nan) :
    x.le y = true ∨ y.le x = true := by
  cases x with
  | nan => exact (hx rfl).elim
  | finite value representable =>
      cases y with
      | nan => exact (hy rfl).elim
      | finite other _ =>
          exact (LinearOrder.le_total value other).imp decide_eq_true decide_eq_true
      | infinite negative => cases negative <;> simp [le]
  | infinite negative =>
      cases y with
      | nan => exact (hy rfl).elim
      | finite other _ => cases negative <;> simp [le]
      | infinite other => cases negative <;> cases other <;> simp [le]

theorem le_trans {x y z : Double} (hxy : x.le y = true) (hyz : y.le z = true) :
    x.le z = true := by
  cases x with
  | nan => cases hxy
  | finite value _ =>
      cases y with
      | nan => cases hxy
      | finite middle _ =>
          cases z with
          | nan => cases hyz
          | finite other _ =>
              exact decide_eq_true ((of_decide_eq_true hxy).trans (of_decide_eq_true hyz))
          | infinite negative => exact hyz
      | infinite middle =>
          cases middle with
          | true => cases hxy
          | false =>
              cases z with
              | nan => cases hyz
              | finite other _ => cases hyz
              | infinite negative => cases negative <;> simp_all [le]
  | infinite negative =>
      cases negative with
      | true =>
          cases z with
          | nan => cases y <;> cases hyz
          | finite other _ => rfl
          | infinite other => rfl
      | false =>
          cases y with
          | nan => cases hxy
          | finite middle _ => cases hxy
          | infinite middle =>
              cases middle with
              | true => cases hxy
              | false => exact hyz

theorem le_antisymm {x y : Double} (hxy : x.le y = true) (hyx : y.le x = true) : x = y := by
  cases x with
  | nan => cases hxy
  | finite value _ =>
      cases y with
      | nan => cases hxy
      | finite other _ =>
          have hsame : value = other :=
            PartialOrder.le_antisymm _ _ (of_decide_eq_true hxy) (of_decide_eq_true hyx)
          subst hsame
          rfl
      | infinite negative => cases negative <;> simp_all [le]
  | infinite negative =>
      cases y with
      | nan => cases hxy
      | finite other _ => cases negative <;> simp_all [le]
      | infinite other => cases negative <;> cases other <;> simp_all [le]

def isInfinite : Double → Bool
  | .infinite _ => true
  | _ => false

/-- `math.isclose`, with tolerances that are not negative. -/
def isClose (relTol absTol x y : Double) : Bool :=
  x.eq y || (!x.isInfinite && !y.isInfinite &&
    let difference := (y.sub x).abs
    (difference.le (relTol.mul y).abs || difference.le (relTol.mul x).abs ||
      difference.le absTol))

end Double

end AlgorithmHarness
