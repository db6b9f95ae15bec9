import AlgorithmHarness.Core.Calendar
import AlgorithmHarness.Core.KeyedRows
import AlgorithmHarness.Core.Transition
import Mathlib.Algebra.BigOperators.Fin

/-!
# The API-call quota of a user

`AuthStore` counts the generation attempts of a user in two calendar buckets, a
day and a month of UTC, in the table `auth_user_api_calls`.  A call either
records an attempt or reserves one under the limits of both buckets.  Each call
is one transaction; the clock it reads is in its label, so the calls may see
any times in any order.
-/

namespace AlgorithmHarness.Auth.Quota

open AlgorithmHarness.Calendar
open AlgorithmHarness.KeyedRows
open AlgorithmHarness.Transition

/-- The keys of `_api_call_periods`. -/
inductive Period where
  | dailyApiCalls
  | monthlyApiCalls
  deriving DecidableEq, Repr

/-- The primary key of `auth_user_api_calls`. -/
structure Bucket where
  userId : String
  period : Period
  periodStart : ℤ
  deriving DecidableEq, Repr

/-- A row of `auth_user_api_calls`. -/
structure CallCount where
  bucket : Bucket
  count : ℕ
  deriving DecidableEq, Repr

abbrev Calls := List CallCount

/-- The count of a bucket; a missing row reads as zero. -/
def Calls.count (calls : Calls) (bucket : Bucket) : ℕ :=
  ((fetch CallCount.bucket bucket calls).map CallCount.count).getD 0

/-- `INSERT ... VALUES (...,1) ON CONFLICT DO UPDATE SET count=count+1`. -/
def Calls.increment (calls : Calls) (bucket : Bucket) : Calls :=
  put CallCount.bucket { bucket := bucket, count := calls.count bucket + 1 } calls

/-- `_api_call_periods`: the start and the end of the current day and of the
current month.  `none` is the `OverflowError` at the end of the calendar. -/
def apiCallPeriods (now : DateTime) : Option (List (Period × Date × Date)) := do
  let day := now.date
  let tomorrow ← day.addDays 1
  let month := day.firstOfMonth
  let twentyEighth ← Date.ofFields month.year month.month 28
  let nextMonth ← twentyEighth.addDays 4
  return [(.dailyApiCalls, day, tomorrow), (.monthlyApiCalls, month, nextMonth.firstOfMonth)]

/-- The `executemany` both calls end with. -/
def incrementPeriods (userId : String) (periods : List (Period × Date × Date)) (calls : Calls) :
    Calls :=
  periods.foldl
    (fun calls period =>
      calls.increment
        { userId := userId, period := period.1, periodStart := period.2.1.timestamp })
    calls

/-- `record_user_api_call`. -/
def recordUserApiCall (userId : String) (now : DateTime) (calls : Calls) : Option Calls := do
  let periods ← apiCallPeriods now
  return incrementPeriods userId periods calls

/-- `limits[period]`. -/
def limitOf (dailyLimit monthlyLimit : Option ℤ) : Period → Option ℤ
  | .dailyApiCalls => dailyLimit
  | .monthlyApiCalls => monthlyLimit

/-- The check of `reserve_user_api_call`: the first exhausted period and when
it resets. -/
def exhausted (userId : String) (dailyLimit monthlyLimit : Option ℤ) (calls : Calls) :
    List (Period × Date × Date) → Option (Period × ℤ)
  | [] => none
  | (period, start, finish) :: periods =>
      let bucket := { userId := userId, period := period, periodStart := start.timestamp }
      if (limitOf dailyLimit monthlyLimit period).any fun limit => limit ≤ (calls.count bucket : ℤ)
      then some (period, finish.timestamp)
      else exhausted userId dailyLimit monthlyLimit calls periods

/-- `reserve_user_api_call`: the table and the returned denial, if any. -/
def reserveUserApiCall (userId : String) (dailyLimit monthlyLimit : Option ℤ) (now : DateTime)
    (calls : Calls) : Option (Calls × Option (Period × ℤ)) := do
  let periods ← apiCallPeriods now
  match exhausted userId dailyLimit monthlyLimit calls periods with
  | some denial => return (calls, some denial)
  | none => return (incrementPeriods userId periods calls, none)

inductive Call where
  | recordUserApiCall (userId : String) (now : DateTime)
  | reserveUserApiCall (userId : String) (dailyLimit monthlyLimit : Option ℤ) (now : DateTime)

/-- One transaction; a call that raises rolls back. -/
def step (calls : Calls) : Call → Option Calls
  | .recordUserApiCall userId now => some ((recordUserApiCall userId now calls).getD calls)
  | .reserveUserApiCall userId dailyLimit monthlyLimit now =>
      some (((reserveUserApiCall userId dailyLimit monthlyLimit now calls).map Prod.fst).getD calls)

/-- The bucket of a user's day. -/
def dayBucket (userId : String) (date : Date) : Bucket :=
  { userId := userId, period := .dailyApiCalls, periodStart := date.timestamp }

/-- The bucket of a user's month. -/
def monthBucket (userId : String) (date : Date) : Bucket :=
  { userId := userId, period := .monthlyApiCalls, periodStart := date.firstOfMonth.timestamp }

/-! ## Counting -/

@[simp]
theorem count_increment (calls : Calls) (bucket other : Bucket) :
    (calls.increment bucket).count other = calls.count other + if bucket = other then 1 else 0 := by
  unfold Calls.increment Calls.count
  rw [fetch_put]
  split_ifs with hsame
  · subst hsame
    rfl
  · rfl

theorem apiCallPeriods_eq_some {now : DateTime} {periods : List (Period × Date × Date)}
    (hperiods : apiCallPeriods now = some periods) :
    ∃ tomorrow nextMonth,
      periods = [(.dailyApiCalls, now.date, tomorrow),
        (.monthlyApiCalls, now.date.firstOfMonth, nextMonth)] := by
  unfold apiCallPeriods at hperiods
  simp only [Option.bind_eq_bind, Option.bind_eq_some_iff, Option.pure_def,
    Option.some.injEq] at hperiods
  obtain ⟨tomorrow, _, _, _, nextMonth, _, hperiods⟩ := hperiods
  exact ⟨tomorrow, nextMonth.firstOfMonth, hperiods.symm⟩

/-- A counted attempt is counted once in its day and once in its month. -/
theorem count_incrementPeriods {now : DateTime} {periods : List (Period × Date × Date)}
    (hperiods : apiCallPeriods now = some periods) (userId : String) (calls : Calls)
    (bucket : Bucket) :
    (incrementPeriods userId periods calls).count bucket =
      calls.count bucket + (if dayBucket userId now.date = bucket then 1 else 0) +
        if monthBucket userId now.date = bucket then 1 else 0 := by
  obtain ⟨tomorrow, nextMonth, rfl⟩ := apiCallPeriods_eq_some hperiods
  simp only [incrementPeriods, List.foldl_cons, List.foldl_nil, count_increment]
  rfl

theorem exhausted_eq_none {userId : String} {dailyLimit monthlyLimit : Option ℤ} {calls : Calls}
    {periods : List (Period × Date × Date)}
    (hadmitted : exhausted userId dailyLimit monthlyLimit calls periods = none)
    {period : Period} {start finish : Date} (hperiod : (period, start, finish) ∈ periods)
    {limit : ℤ} (hlimit : limitOf dailyLimit monthlyLimit period = some limit) :
    calls.count { userId := userId, period := period, periodStart := start.timestamp } < limit := by
  induction periods with
  | nil => cases hperiod
  | cons first periods ih =>
      simp only [exhausted] at hadmitted
      split_ifs at hadmitted with hfirst
      rcases List.mem_cons.mp hperiod with rfl | hlater
      · simpa [hlimit] using hfirst
      · exact ih hadmitted hlater

/-- What a reservation does: it denies and changes nothing, or it finds both
buckets below their limits and counts the attempt. -/
theorem reserveUserApiCall_eq_some {userId : String} {dailyLimit monthlyLimit : Option ℤ}
    {now : DateTime} {calls next : Calls} {denial : Option (Period × ℤ)}
    (hreserve : reserveUserApiCall userId dailyLimit monthlyLimit now calls =
      some (next, denial)) :
    denial ≠ none ∧ next = calls ∨
      denial = none ∧
        (∃ periods, apiCallPeriods now = some periods ∧
          next = incrementPeriods userId periods calls) ∧
        (∀ limit, dailyLimit = some limit → calls.count (dayBucket userId now.date) < limit) ∧
        ∀ limit, monthlyLimit = some limit →
          calls.count (monthBucket userId now.date) < limit := by
  unfold reserveUserApiCall at hreserve
  simp only [Option.bind_eq_bind, Option.bind_eq_some_iff] at hreserve
  obtain ⟨periods, hperiods, hreserve⟩ := hreserve
  split at hreserve
  · next found hfound =>
      cases hreserve
      exact .inl ⟨nofun, rfl⟩
  · next hadmitted =>
      cases hreserve
      obtain ⟨tomorrow, nextMonth, hsplit⟩ := apiCallPeriods_eq_some hperiods
      refine .inr ⟨rfl, ⟨periods, hperiods, rfl⟩, fun limit hlimit => ?_, fun limit hlimit => ?_⟩
      · exact @exhausted_eq_none _ _ _ _ _ hadmitted .dailyApiCalls _ tomorrow (by simp [hsplit])
          _ hlimit
      · exact @exhausted_eq_none _ _ _ _ _ hadmitted .monthlyApiCalls _ nextMonth
          (by simp [hsplit]) _ hlimit

/-! ## The two buckets agree -/

/-- The counter of every month is the sum of the counters of its days. -/
def Balanced (calls : Calls) : Prop :=
  ∀ (userId : String) (month : Date),
    calls.count (monthBucket userId month) =
      ∑ day, calls.count (dayBucket userId (month.withDay day))

theorem balanced_nil : Balanced [] := by
  intro userId month
  simp [Calls.count]

@[simp]
theorem dayBucket_inj {userId other : String} {date day : Date} :
    dayBucket userId date = dayBucket other day ↔ userId = other ∧ date = day := by
  simp [dayBucket, Date.timestamp_injective.eq_iff]

@[simp]
theorem monthBucket_inj {userId other : String} {date month : Date} :
    monthBucket userId date = monthBucket other month ↔
      userId = other ∧ date.firstOfMonth = month.firstOfMonth := by
  simp [monthBucket, Date.timestamp_injective.eq_iff]

@[simp]
theorem monthBucket_ne_dayBucket (userId other : String) (month date : Date) :
    monthBucket userId month ≠ dayBucket other date := nofun

@[simp]
theorem dayBucket_ne_monthBucket (userId other : String) (month date : Date) :
    dayBucket userId date ≠ monthBucket other month := nofun

/-- Exactly one day of a date's month is the date. -/
theorem sum_dayBucket (userId other : String) (date month : Date) :
    (∑ day, if dayBucket userId date = dayBucket other (month.withDay day) then 1 else 0) =
      if monthBucket userId date = monthBucket other month then 1 else 0 := by
  simp only [dayBucket_inj, monthBucket_inj]
  by_cases huser : userId = other
  · by_cases hmonth : date.firstOfMonth = month.firstOfMonth
    · obtain ⟨today, rfl⟩ := Date.exists_withDay hmonth
      simp [huser, hmonth, (Date.withDay_injective month).eq_iff]
    · have hother : ∀ day, date ≠ month.withDay day :=
        fun day hday => hmonth (Date.eq_withDay_iff.mp hday).1
      simp [hmonth, hother]
  · simp [huser]

theorem Balanced.incrementPeriods {calls : Calls} (hbalanced : Balanced calls)
    {now : DateTime} {periods : List (Period × Date × Date)}
    (hperiods : apiCallPeriods now = some periods) (userId : String) :
    Balanced (incrementPeriods userId periods calls) := by
  intro other month
  calc (Quota.incrementPeriods userId periods calls).count (monthBucket other month)
      = calls.count (monthBucket other month) +
          if monthBucket userId now.date = monthBucket other month then 1 else 0 := by
        rw [count_incrementPeriods hperiods, if_neg (dayBucket_ne_monthBucket _ _ _ _),
          Nat.add_zero]
    _ = ∑ day, (calls.count (dayBucket other (month.withDay day)) +
          if dayBucket userId now.date = dayBucket other (month.withDay day) then 1 else 0) := by
        rw [Finset.sum_add_distrib, sum_dayBucket, hbalanced]
    _ = ∑ day, (Quota.incrementPeriods userId periods calls).count
          (dayBucket other (month.withDay day)) := by
        apply Finset.sum_congr rfl
        intro day _
        rw [count_incrementPeriods hperiods, if_neg (monthBucket_ne_dayBucket _ _ _ _),
          Nat.add_zero]

theorem balanced_preserved : Preserved step Balanced := by
  intro calls call next hbalanced hstep
  cases call with
  | recordUserApiCall userId now =>
      obtain rfl := Option.some.inj hstep
      unfold recordUserApiCall
      cases hperiods : apiCallPeriods now with
      | none => exact hbalanced
      | some periods => exact hbalanced.incrementPeriods hperiods userId
  | reserveUserApiCall userId dailyLimit monthlyLimit now =>
      obtain rfl := Option.some.inj hstep
      cases hreserve : reserveUserApiCall userId dailyLimit monthlyLimit now calls with
      | none => exact hbalanced
      | some reserved =>
          rcases reserveUserApiCall_eq_some hreserve with ⟨_, hsame⟩ | ⟨_, hcounted, _⟩
          · simpa [hsame] using hbalanced
          · obtain ⟨periods, hperiods, hnext⟩ := hcounted
            simpa [hnext] using hbalanced.incrementPeriods hperiods userId

/-- Whatever calls a store has seen, at whatever times and in whatever order,
the counter of every user's month is the sum of the counters of its days; a
reservation that is admitted leaves the counters of its day and month within
the limits it was given, and one that is denied changes no counter. -/
theorem quota_respected {calls : Calls} (hreach : Reachable step [] calls) :
    (∀ (userId : String) (month : Date),
      calls.count (monthBucket userId month) =
        ∑ day, calls.count (dayBucket userId (month.withDay day))) ∧
    ∀ (userId : String) (dailyLimit monthlyLimit : Option ℤ) (now : DateTime) (next : Calls)
      (denial : Option (Period × ℤ)),
      reserveUserApiCall userId dailyLimit monthlyLimit now calls = some (next, denial) →
        (denial = none →
          (∀ limit, dailyLimit = some limit →
            (next.count (dayBucket userId now.date) : ℤ) ≤ limit) ∧
          ∀ limit, monthlyLimit = some limit →
            (next.count (monthBucket userId now.date) : ℤ) ≤ limit) ∧
        (denial ≠ none → ∀ bucket, next.count bucket = calls.count bucket) := by
  refine ⟨balanced_preserved.reachable balanced_nil hreach, ?_⟩
  intro userId dailyLimit monthlyLimit now next denial hreserve
  rcases reserveUserApiCall_eq_some hreserve with ⟨hdenied, rfl⟩ | ⟨hadmitted, hcounted, hbelow⟩
  · exact ⟨fun hadmitted => absurd hadmitted hdenied, fun _ _ => rfl⟩
  · obtain ⟨periods, hperiods, rfl⟩ := hcounted
    obtain ⟨hday, hmonth⟩ := hbelow
    refine ⟨fun _ => ⟨fun limit hlimit => ?_, fun limit hlimit => ?_⟩,
      fun hdenied => absurd hadmitted hdenied⟩
    · have hcount := hday limit hlimit
      rw [count_incrementPeriods hperiods, if_pos rfl, if_neg (monthBucket_ne_dayBucket _ _ _ _)]
      omega
    · have hcount := hmonth limit hlimit
      rw [count_incrementPeriods hperiods, if_pos rfl, if_neg (dayBucket_ne_monthBucket _ _ _ _)]
      omega

/-- A limit of one: the second reservation of the day is denied, and the next
month starts from zero. -/
theorem quota_respected_over_months :
    let january : DateTime :=
      { date :=
          { year := 2026
            month := 1
            day := 31
            year_mem := by decide
            month_mem := by decide
            day_mem := by decide }
        time := Time.last }
    let february : DateTime :=
      { date :=
          { year := 2026
            month := 2
            day := 1
            year_mem := by decide
            month_mem := by decide
            day_mem := by decide }
        time := Time.first }
    let labels : List Call :=
      [.reserveUserApiCall "alice" (some 1) none january,
        .reserveUserApiCall "alice" (some 1) none january,
        .recordUserApiCall "alice" february]
    ∃ calls, run step [] labels = some calls ∧
      (∀ month, calls.count (monthBucket "alice" month) =
        ∑ day, calls.count (dayBucket "alice" (month.withDay day))) ∧
      calls.count (dayBucket "alice" january.date) = 1 := by
  intro january february labels
  refine ⟨_, rfl, ?_, ?_⟩
  · exact (quota_respected ⟨labels, rfl⟩).1 "alice"
  · decide +kernel

end AlgorithmHarness.Auth.Quota
