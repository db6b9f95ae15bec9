import Mathlib.Data.Nat.Notation
import Mathlib.Data.Prod.Lex
import Mathlib.Order.Basic
import Mathlib.Tactic.IntervalCases
import Mathlib.Tactic.NormNum

/-!
# Dates of the proleptic Gregorian calendar

The `date` and `datetime` types of the standard library: a date carries the
proof that its fields name a day of the years 1 to 9999, dates are compared
field by field, and `timedelta` arithmetic goes through the ordinal of the day.
The order of the fields and that of the ordinals are the same.
-/

namespace AlgorithmHarness.Calendar

/-- `_is_leap`. -/
def isLeap (year : ℕ) : Bool := year % 4 = 0 && (year % 100 ≠ 0 || year % 400 = 0)

/-- `_days_in_month`. -/
def daysInMonth (year : ℕ) : ℕ → ℕ
  | 2 => if isLeap year then 29 else 28
  | 4 | 6 | 9 | 11 => 30
  | _ => 31

/-- `_days_before_month`. -/
def daysBeforeMonth (year : ℕ) : ℕ → ℕ
  | 0 | 1 => 0
  | month + 2 => daysBeforeMonth year (month + 1) + daysInMonth year (month + 1)

/-- `_days_before_year`. -/
def daysBeforeYear (year : ℕ) : ℕ :=
  (year - 1) * 365 + (year - 1) / 4 - (year - 1) / 100 + (year - 1) / 400

def daysInYear (year : ℕ) : ℕ := if isLeap year then 366 else 365

theorem pred_div_succ {year : ℕ} (hyear : 1 ≤ year) (cycle : ℕ) :
    year / cycle = (year - 1) / cycle + if year % cycle = 0 then 1 else 0 := by
  obtain ⟨earlier, rfl⟩ : ∃ earlier, year = earlier + 1 := ⟨year - 1, by omega⟩
  simp only [Nat.succ_div, Nat.dvd_iff_mod_eq_zero, Nat.add_sub_cancel]

theorem daysBeforeYear_succ {year : ℕ} (hyear : 1 ≤ year) :
    daysBeforeYear (year + 1) = daysBeforeYear year + daysInYear year := by
  have hless : (year - 1) / 100 ≤ (year - 1) / 4 := Nat.div_le_div_left (by decide) (by decide)
  simp only [daysBeforeYear, daysInYear, isLeap, Nat.add_sub_cancel, pred_div_succ hyear 4,
    pred_div_succ hyear 100, pred_div_succ hyear 400]
  by_cases hcentury : year % 100 = 0
  · have hfour : year % 4 = 0 := by omega
    by_cases hcycle : year % 400 = 0
    · simp [hfour, hcentury, hcycle]
      omega
    · simp [hfour, hcentury, hcycle]
      omega
  · have hcycle : year % 400 ≠ 0 := by omega
    by_cases hfour : year % 4 = 0
    · simp [hfour, hcentury, hcycle]
      omega
    · simp [hfour, hcentury, hcycle]
      omega

theorem daysBeforeYear_le {year later : ℕ} (hyear : 1 ≤ year) (hlater : year < later) :
    daysBeforeYear year + daysInYear year ≤ daysBeforeYear later := by
  induction later with
  | zero => exact absurd hlater (Nat.not_lt_zero _)
  | succ later ih =>
      rcases Nat.lt_succ_iff_lt_or_eq.mp hlater with hbefore | rfl
      · rw [daysBeforeYear_succ (hyear.trans hbefore.le)]
        exact (ih hbefore).trans (Nat.le_add_right _ _)
      · rw [daysBeforeYear_succ hyear]

theorem daysBeforeMonth_le (year : ℕ) {month later : ℕ} (hmonth : 1 ≤ month)
    (hlater : month < later) :
    daysBeforeMonth year month + daysInMonth year month ≤ daysBeforeMonth year later := by
  induction later with
  | zero => exact absurd hlater (Nat.not_lt_zero _)
  | succ later ih =>
      obtain ⟨earlier, rfl⟩ : ∃ earlier, later = earlier + 1 := ⟨later - 1, by omega⟩
      rw [show earlier + 1 + 1 = earlier + 2 from rfl, daysBeforeMonth]
      rcases Nat.lt_succ_iff_lt_or_eq.mp hlater with hbefore | rfl
      · exact (ih hbefore).trans (Nat.le_add_right _ _)
      · exact le_rfl

theorem daysBeforeMonth_thirteen (year : ℕ) : daysBeforeMonth year 13 = daysInYear year := by
  cases hleap : isLeap year <;> simp [daysBeforeMonth, daysInMonth, daysInYear, hleap]

/-! ## Dates -/

/-- `datetime.date`. -/
structure Date where
  year : ℕ
  month : ℕ
  day : ℕ
  year_mem : 1 ≤ year ∧ year ≤ 9999
  month_mem : 1 ≤ month ∧ month ≤ 12
  day_mem : 1 ≤ day ∧ day ≤ daysInMonth year month
  deriving DecidableEq, Repr

namespace Date

/-- The constructor `date(year, month, day)`; `none` is its `ValueError`. -/
def ofFields (year month day : ℕ) : Option Date :=
  if hvalid : (1 ≤ year ∧ year ≤ 9999) ∧ (1 ≤ month ∧ month ≤ 12) ∧
      (1 ≤ day ∧ day ≤ daysInMonth year month) then
    some
      { year := year
        month := month
        day := day
        year_mem := hvalid.1
        month_mem := hvalid.2.1
        day_mem := hvalid.2.2 }
  else none

@[simp]
theorem ofFields_fields (date : Date) : ofFields date.year date.month date.day = some date :=
  dif_pos ⟨date.year_mem, date.month_mem, date.day_mem⟩

theorem ofFields_isSome {year month day : ℕ} (hyear : 1 ≤ year ∧ year ≤ 9999)
    (hmonth : 1 ≤ month ∧ month ≤ 12) (hday : 1 ≤ day ∧ day ≤ daysInMonth year month) :
    ∃ date, ofFields year month day = some date :=
  ⟨_, dif_pos ⟨hyear, hmonth, hday⟩⟩

theorem ext_fields {first second : Date} (hyear : first.year = second.year)
    (hmonth : first.month = second.month) (hday : first.day = second.day) : first = second := by
  cases first
  cases second
  simp_all

/-- The fields in the order in which dates are compared. -/
def fields (date : Date) : ℕ ×ₗ ℕ ×ₗ ℕ := toLex (date.year, toLex (date.month, date.day))

theorem fields_injective : Function.Injective fields := by
  intro first second hsame
  simp only [fields, EmbeddingLike.apply_eq_iff_eq, Prod.mk.injEq] at hsame
  exact ext_fields hsame.1 hsame.2.1 hsame.2.2

instance : LinearOrder Date := LinearOrder.lift' fields fields_injective

theorem lt_iff {first second : Date} : first < second ↔
    first.year < second.year ∨ first.year = second.year ∧
      (first.month < second.month ∨ first.month = second.month ∧ first.day < second.day) := by
  change fields first < fields second ↔ _
  rw [fields, fields, Prod.Lex.toLex_lt_toLex, Prod.Lex.toLex_lt_toLex]

/-- `date.toordinal()`. -/
def toOrdinal (date : Date) : ℕ :=
  daysBeforeYear date.year + daysBeforeMonth date.year date.month + date.day

theorem toOrdinal_le (date : Date) :
    date.toOrdinal ≤ daysBeforeYear date.year + daysInYear date.year := by
  have hmonth := daysBeforeMonth_le date.year date.month_mem.1
    (Nat.lt_succ_of_le date.month_mem.2)
  rw [daysBeforeMonth_thirteen] at hmonth
  have hday := date.day_mem.2
  unfold toOrdinal
  omega

theorem toOrdinal_lt_of_lt {first second : Date} (hlt : first < second) :
    first.toOrdinal < second.toOrdinal := by
  have hday := second.day_mem.1
  rcases lt_iff.mp hlt with hyear | ⟨hyear, hmonth | ⟨hmonth, hdays⟩⟩
  · have hbefore := daysBeforeYear_le first.year_mem.1 hyear
    have hlast := first.toOrdinal_le
    unfold toOrdinal at hlast ⊢
    omega
  · have hbefore := daysBeforeMonth_le first.year first.month_mem.1 hmonth
    have hlast := first.day_mem.2
    unfold toOrdinal
    rw [← hyear]
    omega
  · unfold toOrdinal
    rw [← hyear, ← hmonth]
    omega

theorem toOrdinal_strictMono : StrictMono toOrdinal := fun _ _ => toOrdinal_lt_of_lt

theorem toOrdinal_injective : Function.Injective toOrdinal := toOrdinal_strictMono.injective

/-- `_DAYS_BEFORE_MONTH[month] + (month > 2 and leap)`. -/
def preceding (leap : Bool) (month : ℕ) : ℕ :=
  [0, 0, 31, 59, 90, 120, 151, 181, 212, 243, 273, 304, 334].getD month 0 +
    if month > 2 ∧ leap then 1 else 0

/-- The month and the day of the zero-based day of a year. -/
def monthAndDay (leap : Bool) (dayOfYear : ℕ) : ℕ × ℕ :=
  let estimate := (dayOfYear + 50) / 32
  let month := if preceding leap estimate > dayOfYear then estimate - 1 else estimate
  (month, dayOfYear - preceding leap month + 1)

/-- `date.fromordinal(ordinal)`; `none` is its `ValueError`. -/
def fromOrdinal (ordinal : ℕ) : Option Date :=
  if ordinal = 0 then none
  else
    let n := ordinal - 1
    let n400 := n / 146097
    let n100 := n % 146097 / 36524
    let n4 := n % 146097 % 36524 / 1461
    let n1 := n % 146097 % 36524 % 1461 / 365
    let dayOfYear := n % 146097 % 36524 % 1461 % 365
    let year := n400 * 400 + 1 + n100 * 100 + n4 * 4 + n1
    if n1 = 4 ∨ n100 = 4 then ofFields (year - 1) 12 31
    else
      let leap : Bool := n1 = 3 && (n4 ≠ 24 || n100 = 3)
      let (month, day) := monthAndDay leap dayOfYear
      ofFields year month day

section Cycle

variable {n400 n100 n4 n1 : ℕ}

end Cycle

/-- The first of the month: `date.replace(day=1)`. -/
def firstOfMonth (date : Date) : Date :=
  { date with
    day := 1
    day_mem := ⟨le_rfl, date.day_mem.1.trans date.day_mem.2⟩ }

/-- `date + timedelta(days=days)`; `none` is its `OverflowError`. -/
def addDays (date : Date) (days : ℕ) : Option Date := fromOrdinal (date.toOrdinal + days)

/-- `date - timedelta(days=days)`. -/
def subDays (date : Date) (days : ℕ) : Option Date := fromOrdinal (date.toOrdinal - days)

/-- `date.replace(day=day + 1)`. -/
def withDay (date : Date) (day : Fin (daysInMonth date.year date.month)) : Date :=
  { date with
    day := day + 1
    day_mem := ⟨Nat.succ_le_succ (Nat.zero_le _), day.isLt⟩ }

theorem year_eq_of_firstOfMonth {date other : Date}
    (hmonth : date.firstOfMonth = other.firstOfMonth) : date.year = other.year :=
  (Date.mk.inj hmonth).1

theorem month_eq_of_firstOfMonth {date other : Date}
    (hmonth : date.firstOfMonth = other.firstOfMonth) : date.month = other.month :=
  (Date.mk.inj hmonth).2.1

theorem eq_withDay_iff {date month : Date} {day : Fin (daysInMonth month.year month.month)} :
    date = month.withDay day ↔
      date.firstOfMonth = month.firstOfMonth ∧ date.day = day + 1 := by
  constructor
  · intro hdate
    rw [hdate]
    exact ⟨rfl, rfl⟩
  · rintro ⟨hmonth, hday⟩
    exact ext_fields (year_eq_of_firstOfMonth hmonth) (month_eq_of_firstOfMonth hmonth) hday

/-- A date is one of the days of its month. -/
theorem exists_withDay {date month : Date} (hmonth : date.firstOfMonth = month.firstOfMonth) :
    ∃ day, date = month.withDay day := by
  have hday := date.day_mem
  rw [year_eq_of_firstOfMonth hmonth, month_eq_of_firstOfMonth hmonth] at hday
  exact ⟨⟨date.day - 1, by omega⟩, eq_withDay_iff.mpr ⟨hmonth, (Nat.sub_add_cancel hday.1).symm⟩⟩

theorem withDay_injective (month : Date) : Function.Injective month.withDay := by
  intro first second hsame
  have hday : (first : ℕ) + 1 = second + 1 := congrArg Date.day hsame
  exact Fin.ext (Nat.succ.inj hday)

/-- `int(datetime.combine(date, time.min, timezone.utc).timestamp())`. -/
def timestamp (date : Date) : ℤ := (date.toOrdinal - 719163) * 86400

theorem timestamp_injective : Function.Injective timestamp := by
  intro first second hsame
  unfold timestamp at hsame
  apply toOrdinal_injective
  omega

end Date

/-! ## Times of day -/

/-- `datetime.time`. -/
structure Time where
  hour : ℕ
  minute : ℕ
  second : ℕ
  microsecond : ℕ
  hour_lt : hour < 24
  minute_lt : minute < 60
  second_lt : second < 60
  microsecond_lt : microsecond < 1000000
  deriving DecidableEq, Repr

namespace Time

/-- The constructor `time(hour, minute, second, microsecond)`. -/
def ofFields (hour minute second microsecond : ℕ) : Option Time :=
  if hvalid : hour < 24 ∧ minute < 60 ∧ second < 60 ∧ microsecond < 1000000 then
    some
      { hour := hour
        minute := minute
        second := second
        microsecond := microsecond
        hour_lt := hvalid.1
        minute_lt := hvalid.2.1
        second_lt := hvalid.2.2.1
        microsecond_lt := hvalid.2.2.2 }
  else none

@[simp]
theorem ofFields_fields (time : Time) :
    ofFields time.hour time.minute time.second time.microsecond = some time :=
  dif_pos ⟨time.hour_lt, time.minute_lt, time.second_lt, time.microsecond_lt⟩

/-- The fields in the order in which times are compared. -/
def fields (time : Time) : ℕ ×ₗ ℕ ×ₗ ℕ ×ₗ ℕ :=
  toLex (time.hour, toLex (time.minute, toLex (time.second, time.microsecond)))

theorem fields_injective : Function.Injective fields := by
  intro first second hsame
  simp only [fields, EmbeddingLike.apply_eq_iff_eq, Prod.mk.injEq] at hsame
  cases first
  cases second
  simp_all

instance : LinearOrder Time := LinearOrder.lift' fields fields_injective

/-- `time.min`. -/
def first : Time :=
  { hour := 0
    minute := 0
    second := 0
    microsecond := 0
    hour_lt := by decide
    minute_lt := by decide
    second_lt := by decide
    microsecond_lt := by decide }

/-- `time.max`. -/
def last : Time :=
  { hour := 23
    minute := 59
    second := 59
    microsecond := 999999
    hour_lt := by decide
    minute_lt := by decide
    second_lt := by decide
    microsecond_lt := by decide }

end Time

/-- A naive `datetime.datetime`. -/
structure DateTime where
  date : Date
  time : Time
  deriving DecidableEq, Repr

namespace DateTime

/-- The parts in the order in which datetimes are compared. -/
def parts (moment : DateTime) : Date ×ₗ Time := toLex (moment.date, moment.time)

theorem parts_injective : Function.Injective parts := by
  intro first second hsame
  simp only [parts, EmbeddingLike.apply_eq_iff_eq, Prod.mk.injEq] at hsame
  cases first
  cases second
  simp_all

instance : LinearOrder DateTime := LinearOrder.lift' parts parts_injective

/-- `moment - timedelta(days=days)`. -/
def subDays (moment : DateTime) (days : ℕ) : Option DateTime :=
  (moment.date.subDays days).map fun date => { moment with date := date }

end DateTime

end AlgorithmHarness.Calendar
