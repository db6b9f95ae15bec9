import AlgorithmHarness.Strategies.Execution

/-!
# What a strategy does to a session

Every strategy only calls the model, runs the sandbox and writes attributes, so
a property of sessions that these three keep is kept by every strategy.
-/

namespace AlgorithmHarness.Strategies

open Harness

/-! ## A call -/

theorem ProblemBudget.refusal_ne_empty {budget : ProblemBudget} {entry : LedgerEntry}
    {elapsed : ℚ} {reason : String} (hrefusal : budget.refusal entry elapsed = some reason) :
    reason ≠ "" := by
  rw [ProblemBudget.refusal] at hrefusal
  split_ifs at hrefusal
  · cases hrefusal; decide
  · cases hrefusal; decide
  · cases hrefusal; decide

namespace BudgetTracker

variable (tracker : BudgetTracker)

@[simp]
theorem currentProblem_setEntry (entry : LedgerEntry) :
    (tracker.setEntry entry).currentProblem = tracker.currentProblem := by
  rw [setEntry]
  split
  · rfl
  · rfl

@[simp]
theorem budget_setEntry (entry : LedgerEntry) :
    (tracker.setEntry entry).budget = tracker.budget := by
  rw [setEntry]
  split
  · rfl
  · rfl

@[simp]
theorem budget_settled (outcome : Outcome) :
    (tracker.settled outcome).budget = tracker.budget := by
  cases outcome with
  | failed message => rfl
  | answered response =>
      rw [settled, record]
      split
      · rfl
      · dsimp only
        split_ifs
        · exact budget_setEntry tracker _
        · exact budget_setEntry tracker _

end BudgetTracker

/-- Either the call is refused and counted as such, or it is one more call. -/
theorem BudgetTracker.admitCall_cases (tracker : BudgetTracker) (elapsed : ℚ) :
    (∃ entry budget reason, tracker.entry = some entry ∧ tracker.budget = some budget ∧
      budget.refusal entry elapsed = some reason ∧ tracker.admitCall elapsed =
        (.error reason, tracker.setEntry { entry with stopReason := some reason })) ∨
    (tracker.entry = none ∧ tracker.admitCall elapsed = (.ok (), tracker)) ∨
    ∃ entry, tracker.entry = some entry ∧
      (∀ budget, tracker.budget = some budget → budget.refusal entry elapsed = none) ∧
      tracker.admitCall elapsed =
        (.ok (), tracker.setEntry { entry with calls := entry.calls + 1 }) := by
  cases hentry : tracker.entry with
  | none =>
      right; left
      exact ⟨rfl, by rw [admitCall, hentry]⟩
  | some entry =>
      cases hbudget : tracker.budget with
      | none =>
          right; right
          refine ⟨entry, rfl, by simp, ?_⟩
          rw [admitCall, hentry]
          simp [allowCall, hentry, hbudget]
      | some budget =>
          cases hrefusal : budget.refusal entry elapsed with
          | some reason =>
              left
              refine ⟨entry, budget, reason, rfl, rfl, hrefusal, ?_⟩
              rw [admitCall, hentry]
              simp [allowCall, hentry, hbudget, hrefusal]
          | none =>
              right; right
              refine ⟨entry, rfl, by simp [hrefusal], ?_⟩
              rw [admitCall, hentry]
              simp [allowCall, hentry, hbudget, hrefusal]

namespace Session

variable {runtime : Runtime} {session later : Session} {prompt : String}

theorem refusal_reply (outcome : Outcome) : outcome.reply.refusal = none := by
  cases outcome with
  | answered response => rfl
  | failed message => rfl

/-- A reply that the branch for refusals has not taken. -/
theorem refusal_eq_none {reply : Reply}
    (hrefused : ∀ reason, reply = .refused reason → False) : reply.refusal = none := by
  cases reply with
  | refused reason => exact (hrefused reason rfl).elim
  | answered response => rfl
  | failed message => rfl

theorem generate_refused {reason : String}
    (hreply : session.generate runtime prompt = (.refused reason, later)) :
    reason ≠ "" ∧ ∃ tracker, later =
      { session with tracker := tracker, refused := prompt :: session.refused } := by
  rw [generate] at hreply
  cases htracker : session.tracker with
  | none =>
      simp only [htracker] at hreply
      have hrefusal := congrArg (fun call => call.1.refusal) hreply
      rw [refusal_reply] at hrefusal
      cases hrefusal
  | some tracker =>
      simp only [htracker] at hreply
      rcases tracker.admitCall_cases (runtime.elapsed (session.history prompt)) with
        ⟨entry, budget, cause, -, -, hcause, hadmits⟩ | ⟨-, hadmits⟩ | ⟨entry, -, -, hadmits⟩
      · rw [hadmits] at hreply
        cases hreply
        exact ⟨ProblemBudget.refusal_ne_empty hcause, _, rfl⟩
      · rw [hadmits] at hreply
        have hrefusal := congrArg (fun call => call.1.refusal) hreply
        rw [refusal_reply] at hrefusal
        cases hrefusal
      · rw [hadmits] at hreply
        have hrefusal := congrArg (fun call => call.1.refusal) hreply
        rw [refusal_reply] at hrefusal
        cases hrefusal

/-- A call that is not refused reaches the provider. -/
theorem generate_sent {reply : Reply}
    (hreply : session.generate runtime prompt = (reply, later)) (hsent : reply.refusal = none) :
    reply = (runtime.provider (session.history prompt)).reply ∧
      ∃ tracker, later = { session.send runtime prompt with tracker := tracker } := by
  rw [generate] at hreply
  cases htracker : session.tracker with
  | none =>
      simp only [htracker] at hreply
      cases hreply
      exact ⟨rfl, none, by rw [send, htracker]⟩
  | some tracker =>
      simp only [htracker] at hreply
      split at hreply
      · cases hreply
        cases hsent
      · cases hreply
        exact ⟨rfl, _, rfl⟩

end Session

/-! ## Reaching -/

/-- The sessions that calls, runs and changes of attributes lead to. -/
inductive Session.Reaches (runtime : Runtime) (session : Session) : Session → Prop
  | start : Reaches runtime session session
  | generate {later : Session} (reached : Reaches runtime session later) (prompt : String) :
      Reaches runtime session (later.generate runtime prompt).2
  | ran {later : Session} (reached : Reaches runtime session later)
      (executions : List (String × Stage)) : Reaches runtime session (later.ran executions)
  | annotate {later : Session} (reached : Reaches runtime session later)
      (attributes : Attributes) : Reaches runtime session { later with attributes := attributes }

namespace Session

variable {runtime : Runtime} {session middle later : Session}

theorem Reaches.trans (first : Reaches runtime session middle)
    (second : Reaches runtime middle later) : Reaches runtime session later := by
  induction second with
  | start => exact first
  | generate _ prompt ih => exact ih.generate prompt
  | ran _ executions ih => exact ih.ran executions
  | annotate _ attributes ih => exact ih.annotate attributes

theorem reaches_of_generate {prompt : String} {reply : Reply}
    (hreply : session.generate runtime prompt = (reply, later)) :
    Reaches runtime session later := by
  have hreached := (Reaches.start : Reaches runtime session session).generate prompt
  rw [hreply] at hreached
  exact hreached

end Session

open Session

/-! ## Rounds and candidates -/

section Loops

variable (runtime : Runtime) (problem : Problem)

theorem singleShot_reaches (strategy prompt : String) (session : Session) :
    Reaches runtime session (singleShot runtime strategy prompt problem session).2 :=
  (Reaches.start.generate prompt).ran _

theorem feedbackRounds_reaches (config : RoundConfig) (remaining : ℕ) (prompt : String)
    (rounds : Rounds) (session : Session) : Reaches runtime session
      (feedbackRounds runtime config problem remaining prompt rounds session).2 := by
  induction remaining generalizing prompt rounds session with
  | zero => exact .start
  | succ remaining ih =>
      rw [feedbackRounds]
      split
      next reason later hreply => exact reaches_of_generate hreply
      next message later hreply => exact reaches_of_generate hreply
      next response later hreply =>
        have hlater := reaches_of_generate hreply
        dsimp only
        split_ifs
        · exact hlater.ran _
        · exact (hlater.ran _).trans (ih _ _ _)

theorem reflect_reaches (config : RoundConfig) (code : Option String)
    (sandboxResult : Option SandboxResult) (iteration : ℕ) (history : List String)
    (session : Session) : Reaches runtime session
      (reflect runtime config problem code sandboxResult iteration history session).2 := by
  rw [reflect]
  split
  next response later hreply => exact reaches_of_generate hreply
  next reason later hreply => exact (reaches_of_generate hreply).annotate _
  next message later hreply => exact reaches_of_generate hreply

theorem reflexionRounds_reaches (config : RoundConfig) (remaining : ℕ) (prompt : String)
    (rounds : Rounds) (session : Session) : Reaches runtime session
      (reflexionRounds runtime config problem remaining prompt rounds session).2 := by
  induction remaining generalizing prompt rounds session with
  | zero => exact .start
  | succ remaining ih =>
      rw [reflexionRounds]
      split
      next reason later hreply => exact reaches_of_generate hreply
      next reply later hrefused hreply =>
        have hran := fun executions => (reaches_of_generate hreply).ran executions
        dsimp only
        split_ifs
        · exact hran _
        · exact hran _
        · exact (hran _).trans (reflect_reaches runtime problem config _ _ _ _ _)
        · apply ((hran _).trans (reflect_reaches runtime problem config _ _ _ _ _)).trans
          exact ih _ _ _

theorem generateCandidates_reaches (prompt : String) (remaining generated : ℕ)
    (candidates : Candidates) (session : Session) : Reaches runtime session
      (generateCandidates runtime problem prompt remaining generated candidates session).2 := by
  induction remaining generalizing generated candidates session with
  | zero => exact .start
  | succ remaining ih =>
      rw [generateCandidates]
      split
      next reason later hreply => exact reaches_of_generate hreply
      next reply later hrefused hreply =>
        exact ((reaches_of_generate hreply).ran _).trans (ih _ _ _)

end Loops

/-! ## Trees -/

/-- One call of a search. -/
def Session.Records (runtime : Runtime) (session later : Session) : Prop :=
  ∃ prompt node callType, later = (generateRecorded runtime prompt node callType session).2

section Trees

variable (runtime : Runtime) (problem : Problem) (config : TreeConfig)

open Relation

theorem generateBranches_records (node : ThoughtNode) (session : Session) :
    session.Records runtime (generateBranches runtime config problem node session).2 := by
  refine ⟨branchGenerationPrompt runtime.executor problem config.branchingFactor node.depth
    node.thought node.codeSnippet, node, "branch_generation", ?_⟩
  rw [generateBranches]
  split
  next response later hcall => rw [hcall]
  next reason later hcall => rw [hcall]
  next message later hcall => rw [hcall]

theorem evaluateNode_records (node : ThoughtNode) (session : Session) :
    session.Records runtime (evaluateNode runtime problem node session).2 := by
  refine ⟨evaluationPrompt runtime.executor problem node.thought node.codeSnippet, node,
    "node_evaluation", ?_⟩
  rw [evaluateNode]
  split
  next response later hcall => rw [hcall]
  next reply later hcall => rw [hcall]

theorem evaluateBranches_records (branches : List ThoughtNode) (session : Session) :
    ReflTransGen (Records runtime) session
      (evaluateBranches runtime problem branches session).2 := by
  induction branches generalizing session with
  | nil => exact .refl
  | cons branch branches ih =>
      have hfirst := ReflTransGen.single (evaluateNode_records runtime problem branch session)
      rw [evaluateBranches]
      dsimp only
      split_ifs
      · exact hfirst
      · exact hfirst.trans (ih _)

/-- A search is a sequence of recorded calls. -/
theorem searchTree_records (fuel : ℕ) (search : Search) (session : Session) :
    ReflTransGen (Records runtime) session
      (searchTree runtime config problem fuel search session).2 := by
  induction fuel generalizing search session with
  | zero => exact .refl
  | succ fuel ih =>
      rw [searchTree]
      split
      · exact .refl
      next current frontier hfrontier =>
        have hbranches := ReflTransGen.single
          (generateBranches_records runtime problem config current session)
        dsimp only
        split_ifs
        · exact ih _ _
        · split
          next later hcall => rw [hcall] at hbranches; exact hbranches
          next later hcall =>
            rw [hcall] at hbranches
            split_ifs
            · exact hbranches
            · exact hbranches.trans (ih _ _)
          next first others later hcall =>
            rw [hcall] at hbranches
            have hrated := hbranches.trans
              (evaluateBranches_records runtime problem (first :: others) later)
            split_ifs
            · exact hrated
            · exact hrated.trans (ih _ _)

theorem Session.Reaches.of_records {session later : Session}
    (hrecords : ReflTransGen (Records runtime) session later) :
    Reaches runtime session later := by
  induction hrecords with
  | refl => exact .start
  | tail _ hrecord ih =>
      obtain ⟨prompt, node, callType, rfl⟩ := hrecord
      exact (ih.generate prompt).annotate _

theorem extractBestSolution_reaches (search : Search) (session : Session) :
    Reaches runtime session (extractBestSolution runtime config problem search session).2 := by
  rw [extractBestSolution]
  dsimp only
  split
  · exact .start
  · exact Reaches.start.ran _

end Trees

/-! ## Strategies -/

theorem StrategyConfig.execute_reaches (config : StrategyConfig) (runtime : Runtime)
    (problem : Problem) (session : Session) :
    Reaches runtime session (config.execute runtime problem session).2 := by
  rw [StrategyConfig.execute]
  split
  · exact singleShot_reaches runtime problem _ _ session
  · exact singleShot_reaches runtime problem _ _ session
  · exact feedbackRounds_reaches runtime problem config.rounds _ _ _ session
  · exact generateCandidates_reaches runtime problem _ _ _ _ session
  · exact (Reaches.start.annotate _).trans
      (reflexionRounds_reaches runtime problem config.rounds _ _ _ _)
  · exact singleShot_reaches runtime problem _ _ session
  · apply (Reaches.start.annotate {}).trans
    exact (Reaches.of_records runtime (searchTree_records runtime problem config.tree _ _ _)).trans
      (extractBestSolution_reaches runtime problem config.tree _ _)

/-- The hidden stage is one run of the sandbox at most. -/
theorem runHidden_session (runtime : Runtime) (problem : Problem) (result : ExecutionResult)
    (session : Session) :
    ∃ executions, (runHidden runtime problem result session).2 = session.ran executions := by
  rw [runHidden]
  split_ifs
  · exact ⟨_, rfl⟩
  · exact ⟨[], rfl⟩

theorem executeProblem_reaches (config : StrategyConfig) (runtime : Runtime) (problem : Problem)
    (session : Session) :
    Reaches runtime { session with executions := [] }
      (executeProblem runtime config problem session).2 := by
  rw [executeProblem]
  dsimp only
  split_ifs
  · exact .start
  · obtain ⟨executions, hsession⟩ := runHidden_session runtime problem
      { (config.execute runtime (withoutHidden problem) { session with executions := [] }).1 with
        formalEvaluable := problem.formalEvaluable }
      (config.execute runtime (withoutHidden problem) { session with executions := [] }).2
    rw [hsession]
    exact (config.execute_reaches runtime (withoutHidden problem) _).ran executions

end AlgorithmHarness.Strategies
