import AlgorithmHarness.Core.Calendar
import Mathlib.Tactic.Ring

/-!
# Dates and datetimes as text

`isoformat` and `fromisoformat` of the standard library, on characters.  The
reader takes the format documented for every supported version,
`YYYY-MM-DD[*HH[:MM[:SS[.fff[fff]]]][+HH:MM[:SS[.ffffff]]]]`, and reads back
whatever the writer writes.
-/

namespace AlgorithmHarness.Calendar

/-! ## Digits -/

/-- The decimal digit of a number below ten. -/
def digitChar (digit : ℕ) : Char := Char.ofNat (48 + digit)

/-- The value of a decimal digit. -/
def digitValue (letter : Char) : Option ℕ :=
  if 48 ≤ letter.toNat ∧ letter.toNat ≤ 57 then some (letter.toNat - 48) else none

theorem digitValue_digitChar {digit : ℕ} (hdigit : digit < 10) :
    digitValue (digitChar digit) = some digit := by
  interval_cases digit <;> rfl

/-- `format(value, '0{width}d')` of a value with at most `width` digits. -/
def zeroPadded : ℕ → ℕ → List Char
  | 0, _ => []
  | width + 1, value => digitChar (value / 10 ^ width) :: zeroPadded width (value % 10 ^ width)

/-- The number in the next `width` characters. -/
def readDigits : ℕ → ℕ → List Char → Option (ℕ × List Char)
  | 0, value, text => some (value, text)
  | _ + 1, _, [] => none
  | width + 1, value, letter :: text =>
      (digitValue letter).bind fun digit => readDigits width (value * 10 + digit) text

theorem readDigits_zeroPadded {width value : ℕ} (hvalue : value < 10 ^ width) (before : ℕ)
    (text : List Char) :
    readDigits width before (zeroPadded width value ++ text) =
      some (before * 10 ^ width + value, text) := by
  induction width generalizing value before with
  | zero =>
      obtain rfl : value = 0 := by omega
      simp [zeroPadded, readDigits]
  | succ width ih =>
      have hpositive : 0 < 10 ^ width := Nat.pow_pos (by decide)
      have hdigit : value / 10 ^ width < 10 := by
        rw [Nat.div_lt_iff_lt_mul hpositive, Nat.mul_comm, ← Nat.pow_succ]
        exact hvalue
      have hrest := ih (Nat.mod_lt value hpositive) (before * 10 + value / 10 ^ width)
      rw [zeroPadded, List.cons_append, readDigits, digitValue_digitChar hdigit,
        Option.bind_some, hrest, Nat.pow_succ]
      have hsplit := Nat.div_add_mod value (10 ^ width)
      congr 2
      calc (before * 10 + value / 10 ^ width) * 10 ^ width + value % 10 ^ width
          = before * (10 ^ width * 10) + (10 ^ width * (value / 10 ^ width) +
              value % 10 ^ width) := by ring
        _ = before * (10 ^ width * 10) + value := by rw [hsplit]

/-- One expected character. -/
def readChar (expected : Char) : List Char → Option (List Char)
  | [] => none
  | letter :: text => if letter = expected then some text else none

/-! ## Dates -/

/-- `date.isoformat()`. -/
def Date.isoformat (date : Date) : List Char :=
  zeroPadded 4 date.year ++ '-' :: (zeroPadded 2 date.month ++ '-' :: zeroPadded 2 date.day)

def readDate (text : List Char) : Option (Date × List Char) := do
  let (year, text) ← readDigits 4 0 text
  let text ← readChar '-' text
  let (month, text) ← readDigits 2 0 text
  let text ← readChar '-' text
  let (day, text) ← readDigits 2 0 text
  let date ← Date.ofFields year month day
  return (date, text)

/-- `date.fromisoformat(text)`; `none` is its `ValueError`. -/
def Date.fromisoformat (text : List Char) : Option Date := do
  let (date, text) ← readDate text
  if text.isEmpty then some date else none

theorem daysInMonth_le (year month : ℕ) : daysInMonth year month ≤ 31 := by
  unfold daysInMonth
  split <;> first | decide | (split_ifs <;> decide)

theorem readDate_isoformat (date : Date) (text : List Char) :
    readDate (date.isoformat ++ text) = some (date, text) := by
  have hyear : date.year < 10 ^ 4 := by
    have := date.year_mem.2
    omega
  have hmonth : date.month < 10 ^ 2 := by
    have := date.month_mem.2
    omega
  have hday : date.day < 10 ^ 2 := by
    have := date.day_mem.2.trans (daysInMonth_le _ _)
    omega
  unfold readDate Date.isoformat
  rw [List.append_assoc, readDigits_zeroPadded hyear]
  simp only [Option.bind_eq_bind, Option.bind_some, List.cons_append, List.append_assoc,
    readChar, if_true]
  rw [readDigits_zeroPadded hmonth]
  simp only [Option.bind_some, if_true]
  rw [readDigits_zeroPadded hday]
  simp

@[simp]
theorem Date.fromisoformat_isoformat (date : Date) :
    Date.fromisoformat date.isoformat = some date := by
  have hread := readDate_isoformat date []
  rw [List.append_nil] at hread
  simp [Date.fromisoformat, hread]

/-! ## Times -/

/-- The part of `datetime.isoformat()` after the separator. -/
def Time.isoformat (time : Time) : List Char :=
  zeroPadded 2 time.hour ++ ':' :: (zeroPadded 2 time.minute ++ ':' ::
    (zeroPadded 2 time.second ++
      if time.microsecond = 0 then [] else '.' :: zeroPadded 6 time.microsecond))

/-- The microseconds of a fraction of three or six digits. -/
def readFraction (text : List Char) : Option (ℕ × List Char) :=
  (readDigits 6 0 text).or
    ((readDigits 3 0 text).map fun (milliseconds, text) => (milliseconds * 1000, text))

/-- `HH[:MM[:SS[.fff[fff]]]]`. -/
def readTime (text : List Char) : Option (Time × List Char) := do
  let (hour, text) ← readDigits 2 0 text
  match text with
  | ':' :: text =>
      let (minute, text) ← readDigits 2 0 text
      match text with
      | ':' :: text =>
          let (second, text) ← readDigits 2 0 text
          match text with
          | '.' :: text =>
              let (microsecond, text) ← readFraction text
              let time ← Time.ofFields hour minute second microsecond
              return (time, text)
          | text =>
              let time ← Time.ofFields hour minute second 0
              return (time, text)
      | text =>
          let time ← Time.ofFields hour minute 0 0
          return (time, text)
  | text =>
      let time ← Time.ofFields hour 0 0 0
      return (time, text)

theorem readTime_isoformat (time : Time) : readTime time.isoformat = some (time, []) := by
  have hhour : time.hour < 10 ^ 2 := time.hour_lt.trans (by decide)
  have hminute : time.minute < 10 ^ 2 := time.minute_lt.trans (by decide)
  have hsecond : time.second < 10 ^ 2 := time.second_lt.trans (by decide)
  have hmicrosecond : time.microsecond < 10 ^ 6 := time.microsecond_lt
  unfold readTime Time.isoformat
  rw [readDigits_zeroPadded hhour]
  simp only [Option.bind_eq_bind, Option.bind_some]
  rw [readDigits_zeroPadded hminute]
  simp only [Option.bind_some]
  rw [readDigits_zeroPadded hsecond]
  split_ifs with hwhole
  · have htime := Time.ofFields_fields time
    rw [hwhole] at htime
    simp [htime]
  · have hread := readDigits_zeroPadded hmicrosecond 0 []
    rw [List.append_nil, Nat.zero_mul, Nat.zero_add] at hread
    simp [readFraction, hread]

/-! ## Datetimes -/

/-- `datetime.isoformat()`. -/
def DateTime.isoformat (moment : DateTime) : List Char :=
  moment.date.isoformat ++ 'T' :: moment.time.isoformat

/-- The microseconds of a clock reading since midnight. -/
def Time.toMicroseconds (time : Time) : ℕ :=
  ((time.hour * 60 + time.minute) * 60 + time.second) * 1000000 + time.microsecond

/-- An offset from UTC in microseconds, if the text has one. -/
def readOffset : List Char → Option (Option ℤ)
  | [] => some none
  | sign :: text => do
      let (offset, rest) ← readTime text
      if rest.isEmpty ∧ 5 ≤ text.length then
        match sign with
        | '+' => some (some offset.toMicroseconds)
        | '-' => some (some (-offset.toMicroseconds))
        | _ => none
      else none

/-- `datetime.fromisoformat(text)`: the fields and the offset, if any. -/
def DateTime.fromisoformat (text : List Char) : Option (DateTime × Option ℤ) := do
  let (date, text) ← readDate text
  match text with
  | [] | [_] => some ({ date := date, time := Time.first }, none)
  | _ :: text =>
      let (time, text) ← readTime text
      let offset ← readOffset text
      return ({ date := date, time := time }, offset)

@[simp]
theorem DateTime.fromisoformat_isoformat (moment : DateTime) :
    DateTime.fromisoformat moment.isoformat = some (moment, none) := by
  have htime := readTime_isoformat moment.time
  obtain ⟨first, second, rest, hsplit⟩ :
      ∃ first second rest, moment.time.isoformat = first :: second :: rest := by
    simp [Time.isoformat, zeroPadded]
  unfold DateTime.fromisoformat DateTime.isoformat
  rw [readDate_isoformat]
  rw [hsplit] at htime ⊢
  simp [htime, readOffset]

/-- Microseconds since the start of the calendar. -/
def DateTime.toMicroseconds (moment : DateTime) : ℤ :=
  (moment.date.toOrdinal * 86400000000 + moment.time.toMicroseconds : ℕ)

/-- The datetime so many microseconds after the start of the calendar. -/
def DateTime.ofMicroseconds (microseconds : ℤ) : Option DateTime := do
  let date ← Date.fromOrdinal (microseconds / 86400000000).toNat
  let clock := (microseconds % 86400000000).toNat
  let time ← Time.ofFields (clock / 3600000000) (clock / 60000000 % 60) (clock / 1000000 % 60)
    (clock % 1000000)
  return { date := date, time := time }

/-- `moment.astimezone(timezone.utc).replace(tzinfo=None)` of an aware datetime;
`none` is its `OverflowError`. -/
def DateTime.toUtc (moment : DateTime) (offset : ℤ) : Option DateTime :=
  DateTime.ofMicroseconds (moment.toMicroseconds - offset)

end AlgorithmHarness.Calendar
