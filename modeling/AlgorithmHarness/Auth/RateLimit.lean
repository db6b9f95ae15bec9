import AlgorithmHarness.Core.FixedWindow
import AlgorithmHarness.Core.KeyedRows
import Mathlib.Algebra.Order.Ring.Int

/-!
# The rate limits of the API

`AuthStore.allow` counts the requests of a bucket in the table `auth_rates`, one
row a bucket, under a digest of its name.  All gates share the table, and every
call first deletes what has expired for anybody.  A call is one transaction;
the second its clock shows is in the call.
-/

namespace AlgorithmHarness.Auth.RateLimit

open AlgorithmHarness.FixedWindow
open AlgorithmHarness.KeyedRows

/-- A row of `auth_rates`; it is inserted with its first request. -/
structure RateRow where
  bucket : String
  count : ℕ
  expiresAt : ℤ
  count_pos : 0 < count

/-- The table `auth_rates` with its primary key. -/
structure Rates where
  rows : List RateRow
  unique : (rows.map RateRow.bucket).Nodup

def Rates.empty : Rates := { rows := [], unique := List.nodup_nil }

/-- `SELECT * FROM auth_rates WHERE bucket=?`. -/
def Rates.find (rates : Rates) (bucket : String) : Option RateRow :=
  fetch RateRow.bucket bucket rates.rows

/-- `DELETE FROM auth_rates WHERE expires_at<=?`. -/
def Rates.deleteExpired (rates : Rates) (now : ℤ) : Rates :=
  { rows := rates.rows.filter fun row => now < row.expiresAt
    unique := rates.unique.sublist (List.filter_sublist.map RateRow.bucket) }

/-- An `INSERT` of a bucket without a row, or the `UPDATE` of its row. -/
def Rates.write (rates : Rates) (row : RateRow) : Rates :=
  { rows := put RateRow.bucket row rates.rows
    unique := nodup_put rates.unique row }

/-- `count=count+1`. -/
def RateRow.increment (row : RateRow) : RateRow :=
  { row with count := row.count + 1, count_pos := Nat.succ_pos _ }

/-- `AuthStore.allow`: the answer, with the seconds to wait, and the table. -/
def allow (digest : String → String) (bucket : String) (limit : ℕ) (window now : ℤ)
    (rates : Rates) : (Bool × ℤ) × Rates :=
  let kept := rates.deleteExpired now
  match kept.find (digest bucket) with
  | some row =>
      if limit ≤ row.count then ((false, max 1 (row.expiresAt - now)), kept)
      else ((true, 0), kept.write row.increment)
  | none =>
      ((true, 0), kept.write
        { bucket := digest bucket
          count := 1
          expiresAt := now + window
          count_pos := Nat.one_pos })

/-- The settings of the limits, within the bounds of their fields. -/
structure RateSettings where
  authRateLimit : ℕ
  authRateWindowSeconds : ℤ
  authProtectedRateLimit : ℕ
  fileUploadRateLimit : ℕ
  authRateLimit_mem : 1 ≤ authRateLimit ∧ authRateLimit ≤ 1000
  authRateWindowSeconds_mem : 1 ≤ authRateWindowSeconds ∧ authRateWindowSeconds ≤ 3600
  authProtectedRateLimit_mem : 1 ≤ authProtectedRateLimit ∧ authProtectedRateLimit ≤ 10000
  fileUploadRateLimit_pos : 1 ≤ fileUploadRateLimit

structure HttpException where
  statusCode : ℕ
  detail : String
  headers : List (String × String)
  deriving DecidableEq, Repr

def tooManyRequests (retry : ℤ) : HttpException :=
  { statusCode := 429
    detail := "Too many requests"
    headers := [("Retry-After", toString retry)] }

/-- `limit or self.settings.AUTH_RATE_LIMIT`. -/
def limitOr (settings : RateSettings) : Option ℕ → ℕ
  | none => settings.authRateLimit
  | some limit => if limit = 0 then settings.authRateLimit else limit

/-- `AuthService.limit`. -/
def limit (settings : RateSettings) (digest : String → String) (bucket : String)
    (requested : Option ℕ) (now : ℤ) (rates : Rates) : Except HttpException Unit × Rates :=
  match allow digest bucket (limitOr settings requested) settings.authRateWindowSeconds now
      rates with
  | ((true, _), next) => (.ok (), next)
  | ((false, retry), next) => (.error (tooManyRequests retry), next)

/-- The calls of `AuthService.limit`.  `auth_attempt` and the uploads take the
address of the client, or `unknown`. -/
inductive Gate where
  | currentUser (userId : String)
  | authAttempt (ip : String)
  | verifyKey (userId : String)
  | models (ownerId : String)
  | uploadIp (ip : String)
  | uploadUser (userId : String)
  deriving DecidableEq, Repr

def Gate.bucket : Gate → String
  | .currentUser userId => "protected:" ++ userId
  | .authAttempt ip => "auth:" ++ ip
  | .verifyKey userId => "verify:" ++ userId
  | .models ownerId => "models:" ++ ownerId
  | .uploadIp ip => "upload-ip:" ++ ip
  | .uploadUser userId => "upload-user:" ++ userId

/-- The limit a gate passes on. -/
def Gate.requested (settings : RateSettings) : Gate → Option ℕ
  | .currentUser _ => some settings.authProtectedRateLimit
  | .authAttempt _ | .verifyKey _ | .models _ => none
  | .uploadIp _ | .uploadUser _ => some settings.fileUploadRateLimit

/-- A request at a gate, at the second its clock shows. -/
structure Call where
  gate : Gate
  now : ℤ
  deriving DecidableEq, Repr

/-- One transaction of the gate. -/
def serve (settings : RateSettings) (digest : String → String) (rates : Rates) (call : Call) :
    Except HttpException Unit × Rates :=
  limit settings digest call.gate.bucket (call.gate.requested settings) call.now rates

/-- The answers to the calls, in the order of their transactions. -/
def answers (settings : RateSettings) (digest : String → String) :
    Rates → List Call → List (Call × Except HttpException Unit)
  | _, [] => []
  | rates, call :: calls =>
      (call, (serve settings digest rates call).1) ::
        answers settings digest (serve settings digest rates call).2 calls

/-- The `protected_requests` of a user's quotas. -/
structure ProtectedRequests where
  used : ℕ
  limit : ℕ
  windowSeconds : ℤ
  resetsAt : Option ℤ
  deriving DecidableEq, Repr

/-- The part of `MonitorService.quotas` that reads `auth_rates`. -/
def protectedRequests (settings : RateSettings) (digest : String → String) (rates : Rates)
    (userId : String) (now : ℤ) : ProtectedRequests :=
  let bucket := (rates.find (digest ("protected:" ++ userId))).filter fun row =>
    now < row.expiresAt
  { used := (bucket.map RateRow.count).getD 0
    limit := settings.authProtectedRateLimit
    windowSeconds := settings.authRateWindowSeconds
    resetsAt := bucket.map RateRow.expiresAt }

/-! ## Buckets -/

/-- The kinds of buckets differ before their first colon, or at it. -/
theorem bucket_injective : Function.Injective Gate.bucket := by
  intro left right hbucket
  have hletters := congrArg String.toList hbucket
  -- two kinds differ in a letter of their prefixes; of one kind the names are left
  cases left <;> cases right <;>
    simp [Gate.bucket, String.toList_append, String.toList_inj] at hletters ⊢
  all_goals exact hletters

def Gate.limit (settings : RateSettings) (gate : Gate) : ℕ :=
  limitOr settings (gate.requested settings)

theorem Gate.limit_pos (settings : RateSettings) (gate : Gate) : 0 < gate.limit settings := by
  have hauth := settings.authRateLimit_mem
  have hprotected := settings.authProtectedRateLimit_mem
  have hupload := settings.fileUploadRateLimit_pos
  cases gate <;> simp only [Gate.limit, Gate.requested, limitOr] <;> (try split_ifs) <;> omega

theorem limit_currentUser (settings : RateSettings) (userId : String) :
    (Gate.currentUser userId).limit settings = settings.authProtectedRateLimit := by
  have hpos := settings.authProtectedRateLimit_mem
  rw [Gate.limit, Gate.requested, limitOr, if_neg (by omega)]

/-! ## The row of a bucket -/

def RateRow.window (row : RateRow) : Window ℤ :=
  { used := row.count, ends := row.expiresAt, used_pos := row.count_pos }

/-- The window a table keeps for a bucket. -/
def Rates.window (rates : Rates) (bucket : String) : Option (Window ℤ) :=
  (rates.find bucket).map RateRow.window

theorem find_deleteExpired (rates : Rates) (now : ℤ) (bucket : String) :
    (rates.deleteExpired now).find bucket =
      (rates.find bucket).filter fun row => now < row.expiresAt := by
  apply Option.ext
  intro row
  rw [Option.filter_eq_some_iff, Rates.find, Rates.find,
    fetch_eq_some_iff (rates.deleteExpired now).unique, fetch_eq_some_iff rates.unique,
    Rates.deleteExpired, List.mem_filter]
  tauto

theorem window_deleteExpired (rates : Rates) (now : ℤ) (bucket : String) :
    (rates.deleteExpired now).window bucket = current now (rates.window bucket) := by
  rw [Rates.window, find_deleteExpired, Rates.window]
  cases rates.find bucket with
  | none => rfl
  | some row =>
      rw [Option.map_some, current_some]
      by_cases hopen : now < row.expiresAt <;> simp [Option.filter, RateRow.window, hopen]

theorem window_write (rates : Rates) (row : RateRow) (bucket : String) :
    (rates.write row).window bucket =
      if row.bucket = bucket then some row.window else rates.window bucket := by
  rw [Rates.window, Rates.find, Rates.write, fetch_put]
  split_ifs <;> rfl

/-- The answer of `allow` to an ask. -/
def allowed : Option ℤ → Bool × ℤ
  | none => (true, 0)
  | some wait => (false, wait)

section Allow

variable (digest : String → String) (bucket : String) (limit : ℕ) (window now : ℤ)
  (rates : Rates)

/-- For its own bucket a call is an ask of the counter in the row. -/
theorem allow_own :
    (allow digest bucket limit window now rates).1 =
        allowed (ask limit window now (rates.window (digest bucket))).1 ∧
      (allow digest bucket limit window now rates).2.window (digest bucket) =
        (ask limit window now (rates.window (digest bucket))).2 := by
  have hcurrent := window_deleteExpired rates now (digest bucket)
  rw [Rates.window] at hcurrent
  rw [allow, ask]
  cases hfind : (rates.deleteExpired now).find (digest bucket) with
  | none =>
      rw [hfind, Option.map_none] at hcurrent
      rw [← hcurrent]
      exact ⟨rfl, by simp [window_write, RateRow.window, Window.opened]⟩
  | some row =>
      have hopen : now < row.expiresAt := by
        rw [find_deleteExpired, Option.filter_eq_some_iff] at hfind
        exact of_decide_eq_true hfind.2
      have hbucket : row.bucket = digest bucket := (fetch_mem hfind).2
      have hwindow : (rates.deleteExpired now).window (digest bucket) = some row.window := by
        rw [Rates.window, hfind, Option.map_some]
      rw [hfind, Option.map_some] at hcurrent
      simp only [← hcurrent]
      by_cases hfull : limit ≤ row.count
      · have hwait : max 1 (row.expiresAt - now) = row.expiresAt - now := by omega
        rw [if_pos hfull, if_pos (show limit ≤ row.window.used from hfull), hwait]
        exact ⟨rfl, hwindow⟩
      · rw [if_neg hfull, if_neg (show ¬limit ≤ row.window.used from hfull)]
        refine ⟨rfl, ?_⟩
        rw [window_write, if_pos (show row.increment.bucket = digest bucket from hbucket)]
        rfl

/-- Of another bucket it deletes the expired row at most. -/
theorem allow_other {other : String} (hother : other ≠ digest bucket) :
    (allow digest bucket limit window now rates).2.window other =
      current now (rates.window other) := by
  rw [← window_deleteExpired, allow]
  cases hfind : (rates.deleteExpired now).find (digest bucket) with
  | none =>
      exact (window_write _ _ _).trans (if_neg hother.symm)
  | some row =>
      have hbucket : row.bucket = digest bucket := (fetch_mem hfind).2
      dsimp only
      split_ifs
      · rfl
      · refine (window_write _ _ _).trans (if_neg ?_)
        exact fun hsame => hother (hsame.symm.trans hbucket)

end Allow

/-! ## A gate in the run of all of them -/

section Run

variable {settings : RateSettings} {digest : String → String}

/-- What a caller gets for an ask of the counter. -/
def answer : Option ℤ → Except HttpException Unit
  | none => .ok ()
  | some wait => .error (tooManyRequests wait)

@[simp]
theorem isOk_answer (wait : Option ℤ) : (answer wait).isOk = wait.isNone := by
  cases wait <;> rfl

theorem limit_eq (settings : RateSettings) (digest : String → String) (bucket : String)
    (requested : Option ℕ) (now : ℤ) (rates : Rates) (wait : Option ℤ)
    (hallow : (allow digest bucket (limitOr settings requested) settings.authRateWindowSeconds
      now rates).1 = allowed wait) :
    limit settings digest bucket requested now rates =
      (answer wait, (allow digest bucket (limitOr settings requested)
        settings.authRateWindowSeconds now rates).2) := by
  rw [limit]
  generalize allow digest bucket (limitOr settings requested) settings.authRateWindowSeconds now
    rates = outcome at hallow
  obtain ⟨first, next⟩ := outcome
  cases wait with
  | none =>
      obtain rfl : first = (true, 0) := hallow
      rfl
  | some wait =>
      obtain rfl : first = (false, wait) := hallow
      rfl

theorem serve_own (settings : RateSettings) (digest : String → String) (rates : Rates)
    (gate : Gate) (now : ℤ) :
    (serve settings digest rates ⟨gate, now⟩).1 =
        answer (ask (gate.limit settings) settings.authRateWindowSeconds now
          (rates.window (digest gate.bucket))).1 ∧
      (serve settings digest rates ⟨gate, now⟩).2.window (digest gate.bucket) =
        (ask (gate.limit settings) settings.authRateWindowSeconds now
          (rates.window (digest gate.bucket))).2 := by
  obtain ⟨hanswer, hwindow⟩ := allow_own digest gate.bucket (gate.limit settings)
    settings.authRateWindowSeconds now rates
  rw [serve, limit_eq settings digest gate.bucket (gate.requested settings) now rates _ hanswer]
  exact ⟨rfl, hwindow⟩

theorem serve_other (settings : RateSettings) (digest : String → String) (rates : Rates)
    (call : Call) {other : String}
    (hother : other ≠ digest call.gate.bucket) :
    (serve settings digest rates call).2.window other = current call.now (rates.window other) := by
  obtain ⟨hanswer, -⟩ := allow_own digest call.gate.bucket (call.gate.limit settings)
    settings.authRateWindowSeconds call.now rates
  rw [serve, limit_eq settings digest call.gate.bucket (call.gate.requested settings) call.now
    rates _ hanswer]
  exact allow_other digest call.gate.bucket _ _ call.now rates hother

/-- The clock does not go back from one transaction to the next. -/
def InOrder (calls : List Call) : Prop := calls.Pairwise fun first later => first.now ≤ later.now

/-- The digest tells the bucket of a gate from those of the calls. -/
def Distinguishes (digest : String → String) (gate : Gate) (calls : List Call) : Prop :=
  ∀ call ∈ calls, digest call.gate.bucket = digest gate.bucket →
    call.gate.bucket = gate.bucket

/-- The seconds at which a gate is asked. -/
def asksOf (gate : Gate) (calls : List Call) : List ℤ :=
  (calls.filter fun call => call.gate = gate).map Call.now

/-- The answers of one gate. -/
def answersOf (gate : Gate) (entries : List (Call × Except HttpException Unit)) :
    List (ℤ × Except HttpException Unit) :=
  (entries.filter fun entry => entry.1.gate = gate).map fun entry => (entry.1.now, entry.2)

/-- The counter agrees with the row of the gate from the next second on. -/
theorem answersOf_eq_trace {gate : Gate} {calls : List Call} (hclock : InOrder calls)
    (hdigest : Distinguishes digest gate calls) {rates : Rates} {window : Option (Window ℤ)}
    (hwindow : ∀ call ∈ calls, current call.now (rates.window (digest gate.bucket)) =
      current call.now window) :
    answersOf gate (answers settings digest rates calls) =
      (trace (gate.limit settings) settings.authRateWindowSeconds window
        (asksOf gate calls)).map fun entry => (entry.1, answer entry.2) := by
  induction calls generalizing rates window with
  | nil => rfl
  | cons call calls ih =>
      obtain ⟨hnext, hrest⟩ := List.pairwise_cons.mp hclock
      have hdigestRest : Distinguishes digest gate calls := fun later hlater =>
        hdigest later (List.mem_cons_of_mem _ hlater)
      have hnow := hwindow call List.mem_cons_self
      by_cases hgate : call.gate = gate
      · obtain ⟨callGate, now⟩ := call
        obtain rfl : callGate = gate := hgate
        obtain ⟨hanswer, hserved⟩ := serve_own settings digest rates callGate now
        rw [ask_congr hnow] at hanswer hserved
        have hlater := ih hrest hdigestRest fun later _ => congrArg (current later.now) hserved
        simp only [answersOf, asksOf, answers, decide_true, List.filter_cons_of_pos,
          List.map_cons, trace_cons] at hlater ⊢
        rw [hanswer, hlater]
      · have hother : digest gate.bucket ≠ digest call.gate.bucket := fun hsame =>
          hgate (bucket_injective (hdigest call List.mem_cons_self hsame.symm))
        have hserved := serve_other settings digest rates call hother
        have hkept : ∀ later ∈ calls, current later.now
            ((serve settings digest rates call).2.window (digest gate.bucket)) =
              current later.now window := by
          intro later hmem
          rw [hserved, current_current (hnext later hmem)]
          exact hwindow later (List.mem_cons_of_mem _ hmem)
        have hlater := ih hrest hdigestRest hkept
        simpa [answersOf, asksOf, answers, hgate] using hlater

theorem asksOf_inOrder (gate : Gate) {calls : List Call} (hclock : InOrder calls) :
    (asksOf gate calls).Pairwise (· ≤ ·) :=
  List.pairwise_map.mpr (hclock.filter _)

/-- How often a gate was passed in `[start, finish)`. -/
def passed (gate : Gate) (start finish : ℤ)
    (entries : List (Call × Except HttpException Unit)) : ℕ :=
  entries.countP fun entry =>
    decide (entry.1.gate = gate) && entry.2.isOk && decide (start ≤ entry.1.now) &&
      decide (entry.1.now < finish)

theorem passed_eq_countP {gate : Gate} {start finish : ℤ}
    {entries : List (Call × Except HttpException Unit)} {asks : List (ℤ × Option ℤ)}
    (hasks : answersOf gate entries = asks.map fun entry => (entry.1, answer entry.2)) :
    passed gate start finish entries = asks.countP (grantedIn start finish) := by
  have hgranted : (grantedIn start finish : ℤ × Option ℤ → Bool) =
      (fun entry : ℤ × Except HttpException Unit =>
        entry.2.isOk && decide (start ≤ entry.1) && decide (entry.1 < finish)) ∘
          fun entry : ℤ × Option ℤ => (entry.1, answer entry.2) := by
    funext entry
    rw [Function.comp_apply, isOk_answer]
    rfl
  rw [hgranted, ← List.countP_map, ← hasks, answersOf, List.countP_map, List.countP_filter]
  apply List.countP_congr
  intro entry _
  simp [and_comm, and_assoc]

theorem answersOf_append {gate : Gate} (before after : List (Call × Except HttpException Unit))
    (entry : Call × Except HttpException Unit) (hgate : entry.1.gate = gate) :
    answersOf gate (before ++ entry :: after) =
      answersOf gate before ++ (entry.1.now, entry.2) :: answersOf gate after := by
  simp [answersOf, hgate]

theorem mem_answersOf {gate : Gate} {entries : List (Call × Except HttpException Unit)}
    {seen : ℤ × Except HttpException Unit} :
    seen ∈ answersOf gate entries ↔
      ∃ entry ∈ entries, entry.1.gate = gate ∧ (entry.1.now, entry.2) = seen := by
  simp [answersOf, and_assoc]

theorem distinguishes_replay (digest : String → String) (gate : Gate) (times : List ℤ) :
    Distinguishes digest gate (times.map fun now => ⟨gate, now⟩) := by
  intro call hcall _
  obtain ⟨now, -, rfl⟩ := List.mem_map.mp hcall
  rfl

theorem asksOf_replay (gate : Gate) (times : List ℤ) :
    asksOf gate (times.map fun now => ⟨gate, now⟩) = times := by
  induction times with
  | nil => rfl
  | cons now times ih => simpa [asksOf] using ih

/-- The worst second to look from: the last of a window and the first of the next. -/
def burst (limit : ℕ) (window : ℤ) : List ℤ :=
  0 :: (List.replicate (limit - 1) 1 ++ List.replicate limit (0 + window))

theorem burst_sorted (limit : ℕ) {window : ℤ} (hwindow : 1 < window) :
    (burst limit window).Pairwise (· ≤ ·) := by
  rw [burst, List.pairwise_cons, List.pairwise_append]
  refine ⟨fun later hlater => ?_, List.pairwise_replicate.mpr (.inr le_rfl),
    List.pairwise_replicate.mpr (.inr le_rfl), fun first hfirst later hlater => ?_⟩
  · rcases List.mem_append.mp hlater with hmem | hmem <;>
      have hlater := List.eq_of_mem_replicate hmem <;> omega
  · have hfirst := List.eq_of_mem_replicate hfirst
    have hlater := List.eq_of_mem_replicate hlater
    omega

/-- The defaults of the fields, but for one attempt in a minute. -/
def oneAttempt : RateSettings :=
  { authRateLimit := 1
    authRateWindowSeconds := 60
    authProtectedRateLimit := 120
    fileUploadRateLimit := 10
    authRateLimit_mem := by omega
    authRateWindowSeconds_mem := by omega
    authProtectedRateLimit_mem := by omega
    fileUploadRateLimit_pos := by omega }

/-- The digests of the two buckets of `visits`. -/
def visitedDigest (bucket : String) : String :=
  if bucket = "auth:203.0.113.7" then
    "d737d9aac8b846c10810c365bacf5f09077db00bcaa1c95a66eb1899d95517fb"
  else "a45f5d2624fa5060d4e78345efbc703cfe8b315edaec9f5ff0353038bdd77bde"

def visitor : Gate := .authAttempt "203.0.113.7"

/-- An attempt, a request of a user, an attempt too early and one in time. -/
def visits : List Call :=
  [⟨visitor, 0⟩, ⟨.currentUser "alice", 1⟩, ⟨visitor, 2⟩, ⟨visitor, 60⟩]

theorem visits_inOrder : InOrder visits := by
  simp [InOrder, visits]

theorem visits_distinguished : Distinguishes visitedDigest visitor visits := by
  intro call hcall
  simp only [visits, List.mem_cons, List.not_mem_nil, or_false] at hcall
  rcases hcall with rfl | rfl | rfl | rfl
  · exact fun _ => rfl
  · decide
  · exact fun _ => rfl
  · exact fun _ => rfl

/-- A gate answers as if it had the table for itself, whoever else is served in
between. -/
theorem gate_counts_alone {gate : Gate} {calls : List Call} (hclock : InOrder calls)
    (hdigest : Distinguishes digest gate calls) (rates : Rates) :
    answersOf gate (answers settings digest rates calls) =
      (trace (gate.limit settings) settings.authRateWindowSeconds
        (rates.window (digest gate.bucket)) (asksOf gate calls)).map
          fun entry => (entry.1, answer entry.2) :=
  answersOf_eq_trace hclock hdigest fun _ _ => rfl

theorem gate_counts_alone_visits :
    answersOf visitor (answers oneAttempt visitedDigest .empty visits) =
      [(0, .ok ()), (2, .error (tooManyRequests 58)), (60, .ok ())] :=
  (gate_counts_alone visits_inOrder visits_distinguished .empty).trans rfl

/-- Over any interval as long as the window a gate is passed less than twice its
limit, and once less than that it is in some run if a window lasts two seconds. -/
theorem passed_below_twice_limit (settings : RateSettings) (digest : String → String)
    (gate : Gate) :
    (∀ (rates : Rates) (calls : List Call) (start : ℤ), InOrder calls →
      Distinguishes digest gate calls →
        passed gate start (start + settings.authRateWindowSeconds)
          (answers settings digest rates calls) ≤ 2 * gate.limit settings - 1) ∧
    (1 < settings.authRateWindowSeconds → ∃ (calls : List Call) (start : ℤ), InOrder calls ∧
      Distinguishes digest gate calls ∧
        passed gate start (start + settings.authRateWindowSeconds)
          (answers settings digest .empty calls) = 2 * gate.limit settings - 1) := by
  refine ⟨fun rates calls start hclock hdigest => ?_, fun hwindow => ?_⟩
  · rw [passed_eq_countP (answersOf_eq_trace hclock hdigest fun _ _ => rfl)]
    exact countP_trace_le _ (asksOf_inOrder gate hclock) (gate.limit_pos settings) start
  · have hsorted := burst_sorted (gate.limit settings) hwindow
    have hclock : InOrder ((burst (gate.limit settings) settings.authRateWindowSeconds).map
        fun now => ⟨gate, now⟩) := List.pairwise_map.mpr hsorted
    refine ⟨_, 1, hclock, distinguishes_replay digest gate _, ?_⟩
    rw [passed_eq_countP (answersOf_eq_trace hclock (distinguishes_replay digest gate _)
      fun _ _ => rfl), asksOf_replay]
    exact countP_burst (gate.limit_pos settings) (by omega) (by omega)

theorem passed_below_twice_limit_visits :
    passed visitor 0 60 (answers oneAttempt visitedDigest .empty visits) ≤ 1 :=
  (passed_below_twice_limit oneAttempt visitedDigest visitor).1 .empty visits 0 visits_inOrder
    visits_distinguished

/-- `Retry-After` is exact: until that many seconds have passed, every request of
the gate is refused with what remains of them, and the first one after is served. -/
theorem retry_after_exact {gate : Gate} {calls : List Call} (hclock : InOrder calls)
    (hdigest : Distinguishes digest gate calls) {rates : Rates} {now : ℤ}
    {error : HttpException} {before after : List (Call × Except HttpException Unit)}
    (hrefused : answers settings digest rates calls =
      before ++ (⟨gate, now⟩, .error error) :: after) :
    ∃ wait > 0, error = tooManyRequests wait ∧
      (∀ entry ∈ after, entry.1.gate = gate → entry.1.now < now + wait →
        entry.2 = .error (tooManyRequests (now + wait - entry.1.now))) ∧
      ∀ earlier entry rest, after = earlier ++ entry :: rest → entry.1.gate = gate →
        (∀ other ∈ earlier, other.1.gate = gate → other.1.now < now + wait) →
          now + wait ≤ entry.1.now → entry.2 = .ok () := by
  have hown : ∀ call ∈ calls, current call.now (rates.window (digest gate.bucket)) =
      current call.now (rates.window (digest gate.bucket)) := fun _ _ => rfl
  have hanswers := congrArg (answersOf gate) hrefused
  rw [answersOf_eq_trace hclock hdigest hown,
    answersOf_append before after (⟨gate, now⟩, .error error) rfl] at hanswers
  obtain ⟨asksBefore, asksFrom, htrace, -, hfrom⟩ := List.map_eq_append_iff.mp hanswers
  obtain ⟨⟨second, outcome⟩, asksAfter, rfl, hentry, hafter⟩ := List.map_eq_cons_iff.mp hfrom
  obtain ⟨rfl, houtcome⟩ := Prod.mk.inj hentry
  cases outcome with
  | none => cases houtcome
  | some wait =>
      obtain rfl : tooManyRequests wait = error := Except.error.inj houtcome
      obtain ⟨hpos, huntil, hfirst⟩ := wait_exact (asksOf_inOrder gate hclock) htrace
      refine ⟨wait, hpos, rfl, fun entry hentry hgate hopen => ?_,
        fun earlier entry rest hsplit hgate hearlier hended => ?_⟩
      · have hseen := mem_answersOf.mpr ⟨entry, hentry, hgate, rfl⟩
        rw [← hafter] at hseen
        obtain ⟨ask, hask, heq⟩ := List.mem_map.mp hseen
        obtain ⟨hnow, hresult⟩ := Prod.mk.inj heq
        rw [← hresult, huntil ask hask (hnow ▸ hopen), hnow]
        rfl
      · rw [hsplit, answersOf_append earlier rest entry hgate] at hafter
        obtain ⟨asksEarlier, asksFrom, rfl, hasksEarlier, hasks⟩ :=
          List.map_eq_append_iff.mp hafter
        obtain ⟨ask, asksRest, rfl, heq, -⟩ := List.map_eq_cons_iff.mp hasks
        obtain ⟨hnow, hresult⟩ := Prod.mk.inj heq
        have hbefore : ∀ other ∈ asksEarlier, other.1 < second + wait := by
          intro other hother
          have hseen := List.mem_map_of_mem (f := fun entry => (entry.1, answer entry.2)) hother
          rw [hasksEarlier] at hseen
          obtain ⟨found, hfound, hfoundGate, hsame⟩ := mem_answersOf.mp hseen
          have hlt := hearlier found hfound hfoundGate
          rwa [(Prod.mk.inj hsame).1] at hlt
        rw [← hresult, hfirst asksEarlier ask asksRest rfl hbefore (hnow ▸ hended)]
        rfl

theorem retry_after_exact_visits : ∃ wait > 0, tooManyRequests 58 = tooManyRequests wait := by
  have hrefused : answers oneAttempt visitedDigest .empty visits =
      [(⟨visitor, 0⟩, .ok ()), (⟨.currentUser "alice", 1⟩, .ok ())] ++
        (⟨visitor, 2⟩, .error (tooManyRequests 58)) :: [(⟨visitor, 60⟩, .ok ())] := rfl
  obtain ⟨wait, hpos, herror, -⟩ :=
    retry_after_exact visits_inOrder visits_distinguished hrefused
  exact ⟨wait, hpos, herror⟩

/-- What the quotas show is what the user gets: of the requests before the window
they name ends, or before the one the first of them opens does, as many are
served as the limit leaves over what is used. -/
theorem quotas_are_served {userId : String} {calls : List Call} (hclock : InOrder calls)
    (hdigest : Distinguishes digest (.currentUser userId) calls) {rates : Rates} {now : ℤ}
    (hnow : ∀ call ∈ calls, now ≤ call.now)
    (hwindow : ∀ first ∈ (asksOf (.currentUser userId) calls).head?,
      ∀ ask ∈ asksOf (.currentUser userId) calls,
        ask < ((protectedRequests settings digest rates userId now).resetsAt.getD
          (first + settings.authRateWindowSeconds))) :
    (answersOf (.currentUser userId) (answers settings digest rates calls)).countP
        (fun entry => entry.2.isOk) =
      min (asksOf (.currentUser userId) calls).length
        ((protectedRequests settings digest rates userId now).limit -
          (protectedRequests settings digest rates userId now).used) := by
  have hgranted : (fun entry : ℤ × Except HttpException Unit => entry.2.isOk) ∘
      (fun entry : ℤ × Option ℤ => (entry.1, answer entry.2)) =
        fun entry => entry.2.isNone := by
    funext entry
    exact isOk_answer entry.2
  have hpos := settings.authProtectedRateLimit_mem
  have hcurrent := window_deleteExpired rates now (digest ("protected:" ++ userId))
  rw [Rates.window, find_deleteExpired] at hcurrent
  have hown : ∀ call ∈ calls,
      current call.now (rates.window (digest (Gate.currentUser userId).bucket)) =
        current call.now (current now (rates.window (digest ("protected:" ++ userId)))) :=
    fun call hcall => (current_current (hnow call hcall) _).symm
  rw [answersOf_eq_trace hclock hdigest hown, List.countP_map, hgranted, limit_currentUser,
    ← hcurrent]
  rw [protectedRequests] at hwindow ⊢
  revert hwindow
  cases (rates.find (digest ("protected:" ++ userId))).filter fun row => now < row.expiresAt with
  | none =>
      intro hwindow
      cases hasks : asksOf (.currentUser userId) calls with
      | nil => simp
      | cons first later =>
          have hopen : ∀ ask ∈ later, ask < first + settings.authRateWindowSeconds := by
            intro ask hask
            rw [hasks] at hwindow
            exact hwindow first rfl ask (List.mem_cons_of_mem _ hask)
          have hserved : (trace settings.authProtectedRateLimit settings.authRateWindowSeconds
              (some (.opened (first + settings.authRateWindowSeconds))) later).countP
                (fun entry => entry.2.isNone) =
                  min later.length (settings.authProtectedRateLimit - 1) :=
            countP_trace_within (.opened (first + settings.authRateWindowSeconds)) hopen
          rw [Option.map_none, trace_closed rfl, List.countP_cons_of_pos rfl, hserved,
            List.length_cons]
          simp only [Option.map_none, Option.getD_none]
          omega
  | some row =>
      intro hwindow
      have hopen : ∀ ask ∈ asksOf (.currentUser userId) calls, ask < row.window.ends := by
        intro ask hask
        cases hasks : asksOf (.currentUser userId) calls with
        | nil =>
            rw [hasks] at hask
            cases hask
        | cons first later => exact hwindow first (by rw [hasks]; rfl) ask hask
      exact countP_trace_within row.window hopen

/-- One request left of 120, and two requests. -/
def nearlySpent : Rates :=
  { rows :=
      [{ bucket := visitedDigest "protected:alice", count := 119, expiresAt := 50,
         count_pos := by omega }]
    unique := List.nodup_singleton _ }

def requests : List Call :=
  [⟨.currentUser "alice", 1⟩, ⟨visitor, 1⟩, ⟨.currentUser "alice", 2⟩]

theorem quotas_are_served_requests :
    (answersOf (.currentUser "alice")
      (answers oneAttempt visitedDigest nearlySpent requests)).countP
        (fun entry => entry.2.isOk) = 1 := by
  have hclock : InOrder requests := by simp [InOrder, requests]
  have hdigest : Distinguishes visitedDigest (.currentUser "alice") requests := by
    intro call hcall
    simp only [requests, List.mem_cons, List.not_mem_nil, or_false] at hcall
    rcases hcall with rfl | rfl | rfl
    · exact fun _ => rfl
    · decide
    · exact fun _ => rfl
  have hnow : ∀ call ∈ requests, 0 ≤ call.now := by simp [requests]
  have hwindow : ∀ first ∈ (asksOf (.currentUser "alice") requests).head?,
      ∀ ask ∈ asksOf (.currentUser "alice") requests,
        ask < (protectedRequests oneAttempt visitedDigest nearlySpent "alice" 0).resetsAt.getD
          (first + oneAttempt.authRateWindowSeconds) := by
    intro first _ ask hask
    have hsecond : ask = 1 ∨ ask = 2 := by simpa [asksOf, requests, visitor] using hask
    have hresets : (protectedRequests oneAttempt visitedDigest nearlySpent "alice" 0).resetsAt =
        some 50 := rfl
    rw [hresets, Option.getD_some]
    omega
  exact quotas_are_served hclock hdigest hnow hwindow

end Run

end AlgorithmHarness.Auth.RateLimit
