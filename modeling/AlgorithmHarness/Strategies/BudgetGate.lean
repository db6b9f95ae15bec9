import AlgorithmHarness.Strategies.Reach

/-!
# The budget gate

The tracker is pointed at a problem, every call passes it, and the ledger
settles what the responses used.  A window is what has happened since the
problem began: the calls that were admitted and those that were refused.
-/

namespace AlgorithmHarness.Strategies

open Harness

/-! ## The ledger -/

/-- The responses among some calls. -/
def responses (calls : List (String × Outcome)) : List LlmResponse :=
  calls.filterMap fun call =>
    match call.2 with
    | .answered response => some response
    | .failed _ => none

/-- What some calls have used. -/
def spent (usage : TokenUsage → ℕ) (calls : List (String × Outcome)) : ℕ :=
  ((responses calls).map fun response => usage response.usage).sum

theorem spent_answered {usage : TokenUsage → ℕ} {calls : List (String × Outcome)} {used : ℕ}
    (hused : used = spent usage calls) (prompt : String) (response : LlmResponse) :
    used + usage response.usage = spent usage ((prompt, .answered response) :: calls) := by
  rw [hused, Nat.add_comm]
  rfl

/-- The ledger agrees with the calls. -/
structure LedgerEntry.Tallies (entry : LedgerEntry) (calls : List (String × Outcome)) : Prop where
  callCount : entry.calls = calls.length
  promptTokens : entry.promptTokens = spent TokenUsage.promptTokens calls
  completionTokens : entry.completionTokens = spent TokenUsage.completionTokens calls
  reasoningTokens : entry.reasoningTokens = spent TokenUsage.reasoningTokens calls
  totalTokens : entry.totalTokens = spent TokenUsage.totalTokens calls

namespace LedgerEntry.Tallies

variable {entry : LedgerEntry} {calls : List (String × Outcome)}

/-- The stop reason counts nothing. -/
theorem stopped (htallies : entry.Tallies calls) (reason : Option String) :
    Tallies { entry with stopReason := reason } calls :=
  ⟨htallies.callCount, htallies.promptTokens, htallies.completionTokens,
    htallies.reasoningTokens, htallies.totalTokens⟩

theorem failed (htallies : entry.Tallies calls) (prompt message : String) :
    Tallies { entry with calls := entry.calls + 1 } ((prompt, .failed message) :: calls) where
  callCount := by rw [htallies.callCount, List.length_cons]
  promptTokens := htallies.promptTokens
  completionTokens := htallies.completionTokens
  reasoningTokens := htallies.reasoningTokens
  totalTokens := htallies.totalTokens

theorem answered (htallies : entry.Tallies calls) (prompt : String) (response : LlmResponse) :
    Tallies
      { entry with
        calls := entry.calls + 1
        promptTokens := entry.promptTokens + response.usage.promptTokens
        completionTokens := entry.completionTokens + response.usage.completionTokens
        reasoningTokens := entry.reasoningTokens + response.usage.reasoningTokens
        totalTokens := entry.totalTokens + response.usage.totalTokens
        usageMissingSeen := entry.usageMissingSeen || response.usageMissing }
      ((prompt, .answered response) :: calls) where
  callCount := by rw [htallies.callCount, List.length_cons]
  promptTokens := spent_answered htallies.promptTokens prompt response
  completionTokens := spent_answered htallies.completionTokens prompt response
  reasoningTokens := spent_answered htallies.reasoningTokens prompt response
  totalTokens := spent_answered htallies.totalTokens prompt response

end LedgerEntry.Tallies

/-- The calls, the last first, keep within a budget. -/
structure ProblemBudget.Admits (budget : ProblemBudget) (calls : List (String × Outcome)) :
    Prop where
  maxCalls : ∀ most, budget.maxCalls = some most → calls.length ≤ most
  maxTokens : ∀ most, budget.maxTokens = some most → ∀ call earlier,
    call :: earlier <:+ calls → spent TokenUsage.totalTokens earlier < most

/-- A call that is not refused may follow the calls so far. -/
theorem ProblemBudget.Admits.cons {budget : ProblemBudget} {calls : List (String × Outcome)}
    (hadmits : budget.Admits calls) {entry : LedgerEntry} (htallies : entry.Tallies calls)
    {elapsed : ℚ} (hrefusal : budget.refusal entry elapsed = none) (call : String × Outcome) :
    budget.Admits (call :: calls) := by
  rw [ProblemBudget.refusal] at hrefusal
  split_ifs at hrefusal with hcalls htokens hseconds
  constructor
  · intro most hmost
    rw [hmost, Option.any_some, htallies.callCount] at hcalls
    simp only [decide_eq_true_eq, not_le] at hcalls
    exact hcalls
  · intro most hmost last earlier hsuffix
    rw [hmost, Option.any_some, htallies.totalTokens] at htokens
    simp only [decide_eq_true_eq, not_le] at htokens
    rcases List.suffix_cons_iff.mp hsuffix with hall | hearlier
    · cases hall
      exact htokens
    · exact hadmits.maxTokens most hmost last earlier hearlier

namespace BudgetTracker

variable {tracker : BudgetTracker}

theorem entry_setEntry {current : String} (hcurrent : tracker.currentProblem = some current)
    (entry : LedgerEntry) : (tracker.setEntry entry).entry = some entry := by
  rw [setEntry, hcurrent]
  simp [BudgetTracker.entry, KeyedRows.fetch_put]

/-- The rows of other problems stay. -/
theorem fetch_setEntry {current other : String} (hcurrent : tracker.currentProblem = some current)
    (hother : other ≠ current) (entry : LedgerEntry) :
    KeyedRows.fetch Prod.fst other (tracker.setEntry entry).ledger =
      KeyedRows.fetch Prod.fst other tracker.ledger := by
  rw [setEntry, hcurrent]
  simp [KeyedRows.fetch_put, hother.symm]

end BudgetTracker

/-! ## Windows -/

/-- The tracker was pointed at a problem and has left the rows of others alone. -/
structure BudgetTracker.Aimed (start : BudgetTracker) (problemId : String)
    (tracker : BudgetTracker) : Prop where
  budget : tracker.budget = start.budget
  current : tracker.currentProblem = some problemId
  others : ∀ other, other ≠ problemId → KeyedRows.fetch Prod.fst other tracker.ledger =
    KeyedRows.fetch Prod.fst other start.ledger

theorem BudgetTracker.Aimed.setEntry {start tracker : BudgetTracker} {problemId : String}
    (haimed : start.Aimed problemId tracker) (entry : LedgerEntry) :
    start.Aimed problemId (tracker.setEntry entry) where
  budget := by rw [BudgetTracker.budget_setEntry, haimed.budget]
  current := by rw [BudgetTracker.currentProblem_setEntry, haimed.current]
  others other hother := by
    rw [BudgetTracker.fetch_setEntry haimed.current hother, haimed.others other hother]

/-- A response is settled in the entry of the problem. -/
theorem BudgetTracker.Aimed.record {start tracker : BudgetTracker} {problemId : String}
    (haimed : start.Aimed problemId tracker) {entry : LedgerEntry}
    (hentry : tracker.entry = some entry) (response : LlmResponse) :
    start.Aimed problemId (tracker.record response) ∧ (tracker.record response).entry = some
      { entry with
        promptTokens := entry.promptTokens + response.usage.promptTokens
        completionTokens := entry.completionTokens + response.usage.completionTokens
        reasoningTokens := entry.reasoningTokens + response.usage.reasoningTokens
        totalTokens := entry.totalTokens + response.usage.totalTokens
        usageMissingSeen := entry.usageMissingSeen || response.usageMissing } := by
  have hsettled := fun entry => And.intro (haimed.setEntry entry)
    (BudgetTracker.entry_setEntry haimed.current entry)
  rw [BudgetTracker.record, hentry]
  dsimp only
  split_ifs
  · obtain ⟨hkept, hwritten⟩ := hsettled _
    exact ⟨⟨hkept.budget, hkept.current, hkept.others⟩, hwritten⟩
  · exact hsettled _

/-- The session `session` in the window of a problem that began at `start`. -/
structure Session.Window (start : Session) (tracker : BudgetTracker) (problemId : String)
    (session : Session) (calls : List (String × Outcome)) (refused : List String)
    (current : BudgetTracker) : Prop where
  tracked : session.tracker = some current
  sent : session.sent = calls ++ start.sent
  refused : session.refused = refused ++ start.refused
  aimed : tracker.Aimed problemId current
  tallies : ∃ entry, current.entry = some entry ∧ entry.Tallies calls
  admits : ∀ budget, tracker.budget = some budget → budget.Admits calls

/-- `session` is in the window of a problem. -/
def Session.InWindow (start : Session) (tracker : BudgetTracker) (problemId : String)
    (session : Session) : Prop :=
  ∃ calls refused current, start.Window tracker problemId session calls refused current

namespace Session

variable {runtime : Runtime} {start session later : Session} {problemId : String}
  {tracker current : BudgetTracker} {calls : List (String × Outcome)} {refused : List String}

theorem Window.generate (hwindow : start.Window tracker problemId session calls refused current)
    (prompt : String) : start.InWindow tracker problemId (session.generate runtime prompt).2 := by
  obtain ⟨entry, hentry, htallies⟩ := hwindow.tallies
  have haimed := hwindow.aimed
  have hcurrent := haimed.current
  rw [Session.generate, hwindow.tracked]
  dsimp only
  rcases current.admitCall_cases (runtime.elapsed (session.history prompt)) with
    ⟨_, budget, reason, hsame, hbudget, hrefusal, hadmits⟩ | ⟨hnone, -⟩ |
      ⟨_, hsame, hallowed, hadmits⟩
  · rw [hentry] at hsame
    cases hsame
    rw [hadmits]
    refine ⟨calls, prompt :: refused, _, rfl, hwindow.sent, ?_, haimed.setEntry _,
      ⟨_, BudgetTracker.entry_setEntry hcurrent _, htallies.stopped _⟩, hwindow.admits⟩
    rw [hwindow.refused, List.cons_append]
  · rw [hentry] at hnone
    cases hnone
  · rw [hentry] at hsame
    cases hsame
    rw [hadmits]
    have hadmits : ∀ budget, tracker.budget = some budget →
        budget.Admits ((prompt, runtime.provider (session.history prompt)) :: calls) := by
      intro budget hbudget
      apply (hwindow.admits budget hbudget).cons htallies
      exact hallowed budget (by rw [haimed.budget, hbudget])
    have hsent : (session.send runtime prompt).sent =
        (prompt, runtime.provider (session.history prompt)) :: calls ++ start.sent := by
      rw [send, hwindow.sent, List.cons_append]
    have hcounted := haimed.setEntry { entry with calls := entry.calls + 1 }
    have hwritten := BudgetTracker.entry_setEntry hcurrent { entry with calls := entry.calls + 1 }
    cases houtcome : runtime.provider (session.history prompt) with
    | failed message =>
        rw [houtcome] at hadmits hsent
        exact ⟨_, refused, _, rfl, hsent, hwindow.refused, hcounted,
          ⟨_, hwritten, htallies.failed prompt message⟩, hadmits⟩
    | answered response =>
        rw [houtcome] at hadmits hsent
        obtain ⟨hrecorded, hentered⟩ := hcounted.record hwritten response
        exact ⟨_, refused, _, rfl, hsent, hwindow.refused, hrecorded,
          ⟨_, hentered, htallies.answered prompt response⟩, hadmits⟩

/-- Closing a window leaves what it counts. -/
theorem Window.finalizeProblem
    (hwindow : start.Window tracker problemId session calls refused current) :
    start.Window tracker problemId session.finalizeProblem calls refused
      current.finalizeProblem := by
  obtain ⟨entry, hentry, htallies⟩ := hwindow.tallies
  have htracked : session.finalizeProblem.tracker = some current.finalizeProblem := by
    rw [Session.finalizeProblem, hwindow.tracked, Option.map_some]
  cases hopen : entry.stopReason.isNone with
  | false =>
      have hsame : current.finalizeProblem = current := by
        rw [BudgetTracker.finalizeProblem, hentry]
        simp [hopen]
      rw [hsame] at htracked ⊢
      exact ⟨htracked, hwindow.sent, hwindow.refused, hwindow.aimed, hwindow.tallies,
        hwindow.admits⟩
  | true =>
      have hclosed : current.finalizeProblem =
          current.setEntry { entry with stopReason := some stopCompleted } := by
        rw [BudgetTracker.finalizeProblem, hentry]
        simp [hopen]
      rw [hclosed] at htracked ⊢
      exact ⟨htracked, hwindow.sent, hwindow.refused, hwindow.aimed.setEntry _,
        ⟨_, BudgetTracker.entry_setEntry hwindow.aimed.current _, htallies.stopped _⟩,
        hwindow.admits⟩

end Session

/-! ## Refusals -/

/-- A call was refused in between. -/
def Session.Refuses (session later : Session) : Prop :=
  session.refused.length < later.refused.length

theorem Session.not_refuses {session later : Session} (hsame : later.refused = session.refused) :
    ¬session.Refuses later := by
  rw [Refuses, hsame]
  exact lt_irrefl _

/-- What comes behind a session without a refusal decides. -/
theorem Session.refuses_congr {session middle later : Session}
    (hsame : middle.refused = session.refused) : session.Refuses later ↔ middle.Refuses later := by
  rw [Refuses, Refuses, hsame]

section Refusals

variable {runtime : Runtime} {session later : Session} {prompt : String}

theorem Session.refuses_of_refused {reason : String}
    (hreply : session.generate runtime prompt = (.refused reason, later)) :
    session.Refuses later := by
  obtain ⟨-, tracker, rfl⟩ := Session.generate_refused hreply
  exact Nat.lt_succ_self _

theorem Session.refused_of_sent {reply : Reply}
    (hreply : session.generate runtime prompt = (reply, later)) (hsent : reply.refusal = none) :
    later.refused = session.refused ∧ later.attributes = session.attributes := by
  obtain ⟨-, tracker, rfl⟩ := Session.generate_sent hreply hsent
  exact ⟨rfl, rfl⟩

/-- The reply says whether the call was refused. -/
theorem Session.generate_refuses_iff (runtime : Runtime) (prompt : String) (session : Session) :
    (session.generate runtime prompt).1.refusal.isSome ↔
      session.Refuses (session.generate runtime prompt).2 := by
  cases hcall : session.generate runtime prompt with
  | mk reply later =>
      cases reply with
      | refused reason => exact iff_of_true rfl (refuses_of_refused hcall)
      | answered response =>
          exact iff_of_false (by simp [Reply.refusal])
            (not_refuses (refused_of_sent hcall rfl).1)
      | failed message =>
          exact iff_of_false (by simp [Reply.refusal])
            (not_refuses (refused_of_sent hcall rfl).1)

variable (runtime) (problem : Problem)

theorem feedbackRounds_refuses_iff (config : RoundConfig) (remaining : ℕ) (prompt : String)
    (rounds : Rounds) (session : Session) (hrounds : rounds.budgetStop = none) :
    (feedbackRounds runtime config problem remaining prompt rounds session).1.budgetStop.isSome ↔
      session.Refuses
        (feedbackRounds runtime config problem remaining prompt rounds session).2 := by
  induction remaining generalizing prompt rounds session with
  | zero => exact iff_of_false (by simp [feedbackRounds, hrounds]) (Session.not_refuses rfl)
  | succ remaining ih =>
      rw [feedbackRounds]
      split
      next reason later hreply => exact iff_of_true rfl (Session.refuses_of_refused hreply)
      next message later hreply =>
        exact iff_of_false (by simp [hrounds])
          (Session.not_refuses (Session.refused_of_sent hreply rfl).1)
      next response later hreply =>
        have hsame := (Session.refused_of_sent hreply rfl).1
        dsimp only
        split_ifs
        · exact iff_of_false (by simp [Rounds.answered, hrounds]) (Session.not_refuses hsame)
        · apply (ih _ _ _ _).trans (Session.refuses_congr _).symm
          · exact hrounds
          · exact hsame

theorem generateCandidates_refuses_iff (prompt : String) (remaining generated : ℕ)
    (candidates : Candidates) (session : Session) (hcandidates : candidates.budgetStop = none) :
    (generateCandidates runtime problem prompt remaining generated candidates
        session).1.budgetStop.isSome ↔
      session.Refuses
        (generateCandidates runtime problem prompt remaining generated candidates session).2 := by
  induction remaining generalizing generated candidates session with
  | zero =>
      exact iff_of_false (by simp [generateCandidates, hcandidates]) (Session.not_refuses rfl)
  | succ remaining ih =>
      rw [generateCandidates]
      split
      next reason later hreply => exact iff_of_true rfl (Session.refuses_of_refused hreply)
      next reply later hrefused hreply =>
        have hsame := (Session.refused_of_sent hreply (Session.refusal_eq_none hrefused)).1
        apply (ih _ _ _ _).trans (Session.refuses_congr _).symm
        · exact hcandidates
        · exact hsame

/-- A refused reflection leaves its reason on the instance. -/
theorem reflect_cases (config : RoundConfig) (code : Option String)
    (sandboxResult : Option SandboxResult) (iteration : ℕ) (history : List String)
    (session : Session) {after : (Option LlmResponse × Option String) × Session}
    (hafter : reflect runtime config problem code sandboxResult iteration history session = after) :
    (truthy after.2.attributes.reflectionBudgetStop ∧ session.Refuses after.2) ∨
      (after.2.refused = session.refused ∧ after.2.attributes = session.attributes) := by
  rw [reflect] at hafter
  split at hafter
  next response later hreply =>
    subst hafter
    exact .inr (Session.refused_of_sent hreply rfl)
  next reason later hreply =>
    subst hafter
    obtain ⟨hreason, -⟩ := Session.generate_refused hreply
    have hrefuses := Session.refuses_of_refused hreply
    exact .inl ⟨by simpa [truthy] using hreason, hrefuses⟩
  next message later hreply =>
    subst hafter
    exact .inr (Session.refused_of_sent hreply rfl)

theorem reflexionRounds_refuses_iff (config : RoundConfig) (remaining : ℕ) (prompt : String)
    (rounds : Rounds) (session : Session) (hrounds : rounds.budgetStop = none)
    (hattribute : session.attributes.reflectionBudgetStop = none) :
    truthy (reflexionRounds runtime config problem remaining prompt rounds session).1.budgetStop ↔
      session.Refuses
        (reflexionRounds runtime config problem remaining prompt rounds session).2 := by
  induction remaining generalizing prompt rounds session with
  | zero =>
      exact iff_of_false (by simp [reflexionRounds, hrounds, truthy]) (Session.not_refuses rfl)
  | succ remaining ih =>
      rw [reflexionRounds]
      split
      next reason later hreply =>
        obtain ⟨hreason, -⟩ := Session.generate_refused hreply
        exact iff_of_true (by simpa [truthy] using hreason) (Session.refuses_of_refused hreply)
      next reply later hrefused hreply =>
        obtain ⟨hsame, hkept⟩ := Session.refused_of_sent hreply (Session.refusal_eq_none hrefused)
        have hunstopped : ¬truthy (none : Option String) := by simp [truthy]
        dsimp only
        generalize hreflect : reflect runtime config problem _ _ _ _ _ = after
        have hcases := reflect_cases runtime problem config _ _ _ _ _ hreflect
        split_ifs with hdone hlast hstop
        · apply iff_of_false _ (Session.not_refuses hsame)
          simpa [Rounds.attempted, hrounds] using hunstopped
        · apply iff_of_false _ (Session.not_refuses hsame)
          simpa [Rounds.attempted, hrounds] using hunstopped
        · rcases hcases with ⟨-, hrefuses⟩ | ⟨-, hattributes⟩
          · apply iff_of_true hstop
            rwa [Session.refuses_congr hsame]
          · rw [hattributes] at hstop
            rw [Session.ran, hkept, hattribute] at hstop
            cases hstop
        · rcases hcases with ⟨htold, -⟩ | ⟨hrefused, hattributes⟩
          · exact (hstop htold).elim
          · apply (ih _ _ _ _ _).trans (Session.refuses_congr _).symm
            · exact hrounds
            · rw [hattributes, Session.ran, hkept, hattribute]
            · exact hrefused.trans hsame

/-- The attribute tells whether a call of a search was refused. -/
structure Session.Tells (start session : Session) : Prop where
  grown : start.refused.length ≤ session.refused.length
  stop_iff : session.attributes.budgetStop.isSome ↔ start.Refuses session

theorem generateRecorded_tells {start session : Session} (htells : start.Tells session)
    (prompt : String) (node : ThoughtNode) (callType : String) :
    start.Tells (generateRecorded runtime prompt node callType session).2 := by
  rw [generateRecorded]
  cases hcall : session.generate runtime prompt with
  | mk reply later =>
      dsimp only
      split
      next response =>
        obtain ⟨hsame, hkept⟩ := Session.refused_of_sent hcall rfl
        refine ⟨by simpa [hsame] using htells.grown, ?_⟩
        simpa [Session.Refuses, Attributes.recorded, hsame, hkept] using htells.stop_iff
      next message =>
        obtain ⟨hsame, hkept⟩ := Session.refused_of_sent hcall rfl
        refine ⟨by simpa [hsame] using htells.grown, ?_⟩
        simpa [Session.Refuses, Attributes.recorded, hsame, hkept] using htells.stop_iff
      next reason =>
        have hrefuses := Session.refuses_of_refused hcall
        have hgrown := htells.grown.trans_lt hrefuses
        exact ⟨hgrown.le, iff_of_true rfl hgrown⟩

theorem searchTree_tells (config : TreeConfig) (fuel : ℕ) (search : Search) {session : Session}
    (hattribute : session.attributes.budgetStop = none) :
    session.Tells (searchTree runtime config problem fuel search session).2 := by
  generalize hlater : (searchTree runtime config problem fuel search session).2 = later
  have hrecords := searchTree_records runtime problem config fuel search session
  rw [hlater] at hrecords
  clear hlater
  induction hrecords with
  | refl => exact ⟨le_rfl, iff_of_false (by simp [hattribute]) (Session.not_refuses rfl)⟩
  | tail _ hrecord ih =>
      obtain ⟨prompt, node, callType, rfl⟩ := hrecord
      exact generateRecorded_tells runtime ih prompt node callType

/-- The choice of a solution asks the model for nothing. -/
theorem extractBestSolution_session (config : TreeConfig) (search : Search) (session : Session) :
    ∃ executions, (extractBestSolution runtime config problem search session).2 =
      session.ran executions := by
  rw [extractBestSolution]
  dsimp only
  split
  · exact ⟨[], rfl⟩
  · exact ⟨_, rfl⟩

end Refusals

/-! ## Strategies -/

/-- The row of a problem in the ledger. -/
def Session.row (session : Session) (problemId : String) : Option (String × LedgerEntry) :=
  session.tracker.bind fun tracker => KeyedRows.fetch Prod.fst problemId tracker.ledger

section Runs

variable (runtime : Runtime) (config : StrategyConfig)

end Runs

end AlgorithmHarness.Strategies
