import Mathlib.Algebra.Order.Group.Unbundled.Basic
import Mathlib.Algebra.Order.Monoid.Defs
import Mathlib.Data.List.Basic
import Mathlib.Data.Option.Basic

/-!
# A fixed-window counter

The first ask after the last window opens a window of fixed length, and a
window grants a fixed number of asks.  Windows do not slide: two of them can
meet inside one interval of their length, so the bound over every interval is
not the limit of a window but one short of twice the limit.
-/

namespace AlgorithmHarness.FixedWindow

variable {Time : Type*}

/-- A window that has granted at least the ask that opened it. -/
structure Window (Time : Type*) where
  used : ℕ
  ends : Time
  used_pos : 0 < used

/-- The window an ask opens. -/
def Window.opened (ends : Time) : Window Time :=
  { used := 1, ends := ends, used_pos := Nat.one_pos }

/-- One more ask granted. -/
def Window.spend (window : Window Time) : Window Time :=
  { window with used := window.used + 1, used_pos := Nat.succ_pos _ }

@[simp]
theorem Window.opened_used (ends : Time) : (opened ends).used = 1 := rfl

@[simp]
theorem Window.opened_ends (ends : Time) : (opened ends).ends = ends := rfl

@[simp]
theorem Window.spend_used (window : Window Time) : window.spend.used = window.used + 1 := rfl

section Current

variable [LinearOrder Time]

/-- The window that is still open at a time. -/
def current (now : Time) (window : Option (Window Time)) : Option (Window Time) :=
  window.filter fun window => now < window.ends

theorem current_some (now : Time) (window : Window Time) :
    current now (some window) = if now < window.ends then some window else none := by
  simp [current, Option.filter]

theorem current_ended {now : Time} {window : Window Time} (hended : window.ends ≤ now) :
    current now (some window) = none := by
  rw [current_some, if_neg (not_lt.mpr hended)]

theorem current_current {now later : Time} (hlater : now ≤ later)
    (window : Option (Window Time)) :
    current later (current now window) = current later window := by
  cases window with
  | none => rfl
  | some window =>
      rw [current_some now]
      split_ifs with hnow
      · rfl
      · rw [current_some, if_neg fun hopen => hnow (hlater.trans_lt hopen)]
        rfl

end Current

variable [AddCommGroup Time] [LinearOrder Time]

/-- One ask: the wait a refusal reports, and the window after it. -/
def ask (limit : ℕ) (length now : Time) (window : Option (Window Time)) :
    Option Time × Option (Window Time) :=
  match current now window with
  | none => (none, some (.opened (now + length)))
  | some window =>
      if limit ≤ window.used then (some (window.ends - now), some window)
      else (none, some window.spend)

/-- The asks at the given times, each with its wait if it was refused. -/
def trace (limit : ℕ) (length : Time) :
    Option (Window Time) → List Time → List (Time × Option Time)
  | _, [] => []
  | window, now :: times =>
      (now, (ask limit length now window).1) ::
        trace limit length (ask limit length now window).2 times

/-- An entry of a trace is an ask granted in `[start, finish)`. -/
def grantedIn (start finish : Time) (entry : Time × Option Time) : Bool :=
  entry.2.isNone && decide (start ≤ entry.1) && decide (entry.1 < finish)

/-! ## One ask -/

section Ask

variable {limit : ℕ} {length now : Time} {window : Option (Window Time)}

theorem ask_closed (hclosed : current now window = none) :
    ask limit length now window = (none, some (.opened (now + length))) := by
  rw [ask, hclosed]

theorem ask_open {window : Window Time} (hopen : now < window.ends) :
    ask limit length now (some window) =
      if limit ≤ window.used then (some (window.ends - now), some window)
      else (none, some window.spend) := by
  rw [ask, current_some, if_pos hopen]

/-- Only the window still open is seen. -/
theorem ask_congr {other : Option (Window Time)}
    (hsame : current now window = current now other) :
    ask limit length now window = ask limit length now other := by
  rw [ask, ask, hsame]

end Ask

/-! ## Traces -/

section Trace

variable {limit : ℕ} {length : Time}

@[simp]
theorem trace_nil (window : Option (Window Time)) : trace limit length window [] = [] := rfl

theorem trace_cons (window : Option (Window Time)) (now : Time) (times : List Time) :
    trace limit length window (now :: times) =
      (now, (ask limit length now window).1) ::
        trace limit length (ask limit length now window).2 times := rfl

@[simp]
theorem map_fst_trace (window : Option (Window Time)) (times : List Time) :
    (trace limit length window times).map Prod.fst = times := by
  induction times generalizing window with
  | nil => rfl
  | cons now times ih => rw [trace_cons, List.map_cons, ih]

theorem trace_closed {window : Option (Window Time)} {now : Time}
    (hclosed : current now window = none) (times : List Time) :
    trace limit length window (now :: times) =
      (now, none) :: trace limit length (some (.opened (now + length))) times := by
  rw [trace_cons, ask_closed hclosed]

theorem trace_refused {window : Window Time} {now : Time} (hopen : now < window.ends)
    (hfull : limit ≤ window.used) (times : List Time) :
    trace limit length (some window) (now :: times) =
      (now, some (window.ends - now)) :: trace limit length (some window) times := by
  rw [trace_cons, ask_open hopen, if_pos hfull]

theorem trace_granted {window : Window Time} {now : Time} (hopen : now < window.ends)
    (hleft : window.used < limit) (times : List Time) :
    trace limit length (some window) (now :: times) =
      (now, none) :: trace limit length (some window.spend) times := by
  rw [trace_cons, ask_open hopen, if_neg (not_le.mpr hleft)]

/-- Nothing is granted before `finish` to asks that come later. -/
theorem countP_trace_eq_zero {start finish : Time} {window : Option (Window Time)}
    {times : List Time} (hlate : ∀ now ∈ times, finish ≤ now) :
    (trace limit length window times).countP (grantedIn start finish) = 0 := by
  rw [List.countP_eq_zero]
  intro entry hentry hgranted
  have htime : entry.1 ∈ times := by
    have hmem := List.mem_map_of_mem (f := Prod.fst) hentry
    rwa [map_fst_trace] at hmem
  simp only [grantedIn, Bool.and_eq_true, decide_eq_true_eq] at hgranted
  exact absurd hgranted.2 (not_lt.mpr (hlate entry.1 htime))

end Trace

/-! ## The bound over an interval -/

section Bound

variable {limit : ℕ} {length start finish : Time}

/-- A window grants at most what it has left before it ends. -/
theorem countP_trace_of_open (window : Window Time) {times : List Time}
    (hsorted : times.Pairwise (· ≤ ·)) (hends : finish ≤ window.ends) :
    (trace limit length (some window) times).countP (grantedIn start finish) ≤
      limit - window.used := by
  induction times generalizing window with
  | nil => simp
  | cons now times ih =>
      obtain ⟨hnext, hrest⟩ := List.pairwise_cons.mp hsorted
      by_cases hnow : now < finish
      · have hopen := hnow.trans_le hends
        rcases le_or_gt limit window.used with hfull | hleft
        · rw [trace_refused hopen hfull, List.countP_cons_of_neg (by simp [grantedIn])]
          exact ih window hrest hends
        · have hlater := ih window.spend hrest hends
          rw [Window.spend_used] at hlater
          rw [trace_granted hopen hleft, List.countP_cons]
          split_ifs <;> omega
      · have hlate : ∀ later ∈ now :: times, finish ≤ later := by
          intro later hmem
          rcases List.mem_cons.mp hmem with rfl | hmem
          · exact not_lt.mp hnow
          · exact (not_lt.mp hnow).trans (hnext later hmem)
        rw [countP_trace_eq_zero hlate]
        exact Nat.zero_le _

/-- Until a window ends, it grants what it has left and no more. -/
theorem countP_trace_within (window : Window Time) {times : List Time}
    (hopen : ∀ now ∈ times, now < window.ends) :
    (trace limit length (some window) times).countP (fun entry => entry.2.isNone) =
      min times.length (limit - window.used) := by
  induction times generalizing window with
  | nil => simp
  | cons now times ih =>
      have hrest : ∀ later ∈ times, later < window.ends := fun later hlater =>
        hopen later (List.mem_cons_of_mem _ hlater)
      have hnow := hopen now List.mem_cons_self
      rcases le_or_gt limit window.used with hfull | hleft
      · have hlater := ih window hrest
        rw [trace_refused hnow hfull, List.countP_cons_of_neg (by simp), hlater, List.length_cons]
        omega
      · have hlater := ih window.spend hrest
        rw [Window.spend_used] at hlater
        rw [trace_granted hnow hleft, List.countP_cons_of_pos rfl, hlater, List.length_cons]
        omega

variable [IsOrderedAddMonoid Time]

/-- While every window has ended, the next one covers the rest of the interval. -/
theorem countP_trace_of_closed (window : Option (Window Time)) {times : List Time}
    (hsorted : times.Pairwise (· ≤ ·)) (hlimit : 0 < limit)
    (hclosed : ∀ now ∈ times.head?, current now window = none)
    (hstart : ∀ now ∈ times, start ≤ now) :
    (trace limit length window times).countP (grantedIn start (start + length)) ≤ limit := by
  cases times with
  | nil => simp
  | cons now times =>
      have hrest := (List.pairwise_cons.mp hsorted).2
      have hends : start + length ≤ now + length :=
        add_le_add_left (hstart now List.mem_cons_self) length
      have hlater : (trace limit length (some (.opened (now + length))) times).countP
          (grantedIn start (start + length)) ≤ limit - 1 :=
        countP_trace_of_open (.opened (now + length)) hrest hends
      rw [trace_closed (hclosed now rfl), List.countP_cons]
      split_ifs <;> omega

/-- What is left of a window, and the whole of the next one. -/
theorem countP_trace_some (window : Window Time) {times : List Time}
    (hsorted : times.Pairwise (· ≤ ·)) (hlimit : 0 < limit)
    (hstart : ∀ now ∈ times, start ≤ now) :
    (trace limit length (some window) times).countP (grantedIn start (start + length)) ≤
      limit - window.used + limit := by
  induction times generalizing window with
  | nil => simp
  | cons now times ih =>
      have hrest := (List.pairwise_cons.mp hsorted).2
      have hlate : ∀ later ∈ times, start ≤ later := fun later hmem =>
        hstart later (List.mem_cons_of_mem _ hmem)
      by_cases hopen : now < window.ends
      · rcases le_or_gt limit window.used with hfull | hleft
        · rw [trace_refused hopen hfull, List.countP_cons_of_neg (by simp [grantedIn])]
          exact ih window hrest hlate
        · have hlater := ih window.spend hrest hlate
          rw [Window.spend_used] at hlater
          rw [trace_granted hopen hleft, List.countP_cons]
          split_ifs <;> omega
      · have hclosed : ∀ later ∈ (now :: times).head?, current later (some window) = none := by
          intro later hlater
          obtain rfl : now = later := by simpa using hlater
          exact current_ended (not_lt.mp hopen)
        exact (countP_trace_of_closed _ hsorted hlimit hclosed hstart).trans
          (Nat.le_add_left limit _)

/-- Two windows meet in an interval of their length, and the first of them has
granted the ask that opened it before the interval or lies in it alone. -/
theorem countP_trace_le (window : Option (Window Time)) {times : List Time}
    (hsorted : times.Pairwise (· ≤ ·)) (hlimit : 0 < limit) (start : Time) :
    (trace limit length window times).countP (grantedIn start (start + length)) ≤
      2 * limit - 1 := by
  induction times generalizing window with
  | nil => simp
  | cons now times ih =>
      obtain ⟨hnext, hrest⟩ := List.pairwise_cons.mp hsorted
      by_cases hbefore : now < start
      · rw [trace_cons, List.countP_cons_of_neg (by simp [grantedIn, hbefore])]
        exact ih _ hrest
      · have hstart : ∀ later ∈ now :: times, start ≤ later := by
          intro later hmem
          rcases List.mem_cons.mp hmem with rfl | hmem
          · exact not_lt.mp hbefore
          · exact (not_lt.mp hbefore).trans (hnext later hmem)
        cases window with
        | none =>
            have hclosed : (trace limit length none (now :: times)).countP
                (grantedIn start (start + length)) ≤ limit :=
              countP_trace_of_closed none hsorted hlimit (fun _ _ => rfl) hstart
            omega
        | some window =>
            have hbound : (trace limit length (some window) (now :: times)).countP
                (grantedIn start (start + length)) ≤ limit - window.used + limit :=
              countP_trace_some window hsorted hlimit hstart
            have hused := window.used_pos
            omega

end Bound

/-! ## Waits -/

section Wait

variable {limit : ℕ} {length : Time}

/-- An exhausted window refuses until it ends, each time with the rest of it. -/
theorem refused_of_exhausted {window : Window Time} (hfull : limit ≤ window.used)
    {times : List Time} (hsorted : times.Pairwise (· ≤ ·)) {entry : Time × Option Time}
    (hentry : entry ∈ trace limit length (some window) times) (hopen : entry.1 < window.ends) :
    entry.2 = some (window.ends - entry.1) := by
  induction times with
  | nil => simp at hentry
  | cons now times ih =>
      obtain ⟨hnext, hrest⟩ := List.pairwise_cons.mp hsorted
      have hnow : now < window.ends := by
        rw [trace_cons, List.mem_cons] at hentry
        rcases hentry with rfl | hentry
        · exact hopen
        · have htime := List.mem_map_of_mem (f := Prod.fst) hentry
          rw [map_fst_trace] at htime
          exact (hnext entry.1 htime).trans_lt hopen
      rw [trace_refused hnow hfull, List.mem_cons] at hentry
      rcases hentry with rfl | hentry
      · rfl
      · exact ih hrest hentry

/-- The first ask after an exhausted window ends is granted. -/
theorem granted_of_ended {window : Window Time} (hfull : limit ≤ window.used)
    {times : List Time} {before after : List (Time × Option Time)} {entry : Time × Option Time}
    (htrace : trace limit length (some window) times = before ++ entry :: after)
    (hbefore : ∀ earlier ∈ before, earlier.1 < window.ends) (hended : window.ends ≤ entry.1) :
    entry.2 = none := by
  induction times generalizing before with
  | nil => simp at htrace
  | cons now times ih =>
      rw [trace_cons] at htrace
      cases before with
      | nil =>
          obtain ⟨rfl, _⟩ := List.cons.inj htrace
          rw [ask_closed (current_ended hended)]
      | cons first before =>
          obtain ⟨rfl, hrest⟩ := List.cons.inj htrace
          have hnow : now < window.ends := hbefore _ List.mem_cons_self
          rw [ask_open hnow, if_pos hfull] at hrest
          exact ih hrest fun earlier hmem => hbefore earlier (List.mem_cons_of_mem _ hmem)

end Wait

section WaitTrace

variable [IsOrderedAddMonoid Time] {limit : ℕ} {length : Time}

/-- A refusal leaves its window exhausted, with the wait to its end. -/
theorem exists_window_of_refused {window : Option (Window Time)} {times : List Time}
    {before after : List (Time × Option Time)} {now wait : Time}
    (htrace : trace limit length window times = before ++ (now, some wait) :: after) :
    ∃ (exhausted : Window Time) (later : List Time), limit ≤ exhausted.used ∧
      exhausted.ends = now + wait ∧ 0 < wait ∧ after.map Prod.fst = later ∧
        after = trace limit length (some exhausted) later := by
  induction times generalizing window before with
  | nil => simp at htrace
  | cons first times ih =>
      rw [trace_cons] at htrace
      cases before with
      | cons earlier before => exact ih (List.cons.inj htrace).2
      | nil =>
          obtain ⟨hentry, hafter⟩ := List.cons.inj htrace
          obtain ⟨rfl, hwait⟩ := Prod.mk.inj hentry
          rw [ask] at hwait hafter
          cases hcurrent : current first window with
          | none => simp [hcurrent] at hwait
          | some exhausted =>
              simp only [hcurrent] at hwait hafter
              split_ifs at hwait hafter with hfull
              obtain rfl : exhausted.ends - first = wait := Option.some.inj hwait
              have hopen : first < exhausted.ends := by
                simpa using (Option.filter_eq_some_iff.mp hcurrent).2
              refine ⟨exhausted, times, hfull, (add_sub_cancel _ _).symm, sub_pos.mpr hopen,
                ?_, hafter.symm⟩
              rw [← hafter, map_fst_trace]

/-- A refusal names the very time: every ask before it is refused too, and the
first one from it on is granted. -/
theorem wait_exact {window : Option (Window Time)} {times : List Time}
    (hsorted : times.Pairwise (· ≤ ·))
    {before after : List (Time × Option Time)} {now wait : Time}
    (htrace : trace limit length window times = before ++ (now, some wait) :: after) :
    0 < wait ∧
      (∀ entry ∈ after, entry.1 < now + wait → entry.2 = some (now + wait - entry.1)) ∧
      ∀ earlier entry rest, after = earlier ++ entry :: rest →
        (∀ other ∈ earlier, other.1 < now + wait) → now + wait ≤ entry.1 → entry.2 = none := by
  obtain ⟨exhausted, later, hfull, hends, hpos, htimes, hafter⟩ :=
    exists_window_of_refused htrace
  have hlater : later.Pairwise (· ≤ ·) := by
    have hall : times = before.map Prod.fst ++ now :: later := by
      have hmap := congrArg (List.map Prod.fst) htrace
      rwa [map_fst_trace, List.map_append, List.map_cons, htimes] at hmap
    rw [hall, List.pairwise_append] at hsorted
    exact (List.pairwise_cons.mp hsorted.2.1).2
  rw [← hends]
  refine ⟨hpos, fun entry hentry hopen => ?_, fun earlier entry rest hsplit hearlier hended => ?_⟩
  · rw [hafter] at hentry
    exact refused_of_exhausted hfull hlater hentry hopen
  · exact granted_of_ended hfull (hafter.symm.trans hsplit) hearlier hended

end WaitTrace

/-! ## The bound is reached -/

section Burst

variable {limit : ℕ} (length : Time)

/-- Asks within what a window has left are all granted. -/
theorem trace_replicate (window : Window Time) {now : Time} (hopen : now < window.ends)
    {count : ℕ} (hcount : window.used + count ≤ limit) (times : List Time) :
    ∃ spent : Window Time, spent.ends = window.ends ∧
      trace limit length (some window) (List.replicate count now ++ times) =
        List.replicate count (now, none) ++ trace limit length (some spent) times := by
  induction count generalizing window with
  | zero => exact ⟨window, rfl, rfl⟩
  | succ count ih =>
      have hleft : window.used < limit := by omega
      have hspent : window.spend.used + count ≤ limit := by
        rw [Window.spend_used]
        omega
      obtain ⟨spent, hends, htrace⟩ := ih window.spend hopen hspent
      refine ⟨spent, hends, ?_⟩
      rw [List.replicate_succ, List.cons_append, trace_granted hopen hleft, htrace,
        List.replicate_succ, List.cons_append]

variable {length} [IsOrderedAddMonoid Time]

/-- One ask opens a window, the rest of it is spent at once later on, and the
next window as soon as the first has ended. -/
theorem countP_burst (hlimit : 0 < limit) {first second : Time} (hfirst : first < second)
    (hsecond : second < first + length) :
    (trace limit length none (first :: (List.replicate (limit - 1) second ++
      List.replicate limit (first + length)))).countP (grantedIn second (second + length)) =
      2 * limit - 1 := by
  obtain ⟨count, rfl⟩ : ∃ count, limit = count + 1 := ⟨limit - 1, by omega⟩
  have hthird : first + length < second + length := add_lt_add_left hfirst length
  have hlength : second < second + length := hsecond.trans hthird
  have hopened : (Window.opened (first + length)).used + count ≤ count + 1 :=
    (Nat.add_comm 1 count).le
  have hreopened : (Window.opened (first + length + length)).used + count ≤ count + 1 :=
    (Nat.add_comm 1 count).le
  have hnext : first + length < first + length + length := by
    have hpos : 0 < length := by simpa using hlength
    simpa using hpos
  obtain ⟨spent, hspent, hfirstWindow⟩ := trace_replicate length (.opened (first + length))
    hsecond hopened (List.replicate (count + 1) (first + length))
  obtain ⟨_, _, hsecondWindow⟩ := trace_replicate length (.opened (first + length + length))
    hnext hreopened []
  rw [Window.opened_ends] at hspent
  rw [trace_nil, List.append_nil, List.append_nil] at hsecondWindow
  rw [trace_closed rfl, Nat.add_sub_cancel, hfirstWindow, List.replicate_succ,
    trace_closed (current_ended hspent.le), hsecondWindow,
    List.countP_cons_of_neg (by simp [grantedIn, hfirst]), List.countP_append,
    List.countP_replicate, List.countP_cons, List.countP_replicate]
  simp only [grantedIn, Option.isNone_none, Bool.true_and, le_refl, decide_true, hlength,
    hsecond.le, hthird, if_true]
  omega

end Burst

end AlgorithmHarness.FixedWindow
