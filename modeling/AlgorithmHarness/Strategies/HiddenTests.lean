import AlgorithmHarness.Strategies.Reach

/-!
# Hidden cases stay hidden

Two runs over problems that differ in their hidden cases only, each with a
clock of its own.  Without a wall-clock budget the clock is never asked, and the
strategies receive the same problems, so both runs send the same prompts and
come to the same programs.
-/

namespace AlgorithmHarness.Strategies

open Harness

/-! ## Clocks -/

/-- A runtime with another clock. -/
def Runtime.clocked (runtime : Runtime) (clock : List String → ℚ) : Runtime :=
  { runtime with elapsed := clock }

/-- No wall-clock budget is set. -/
def Session.Untimed (session : Session) : Prop :=
  ∀ budget, session.tracker.bind BudgetTracker.budget = some budget → budget.maxSeconds = none

namespace Session

variable {runtime : Runtime} {session later : Session}

theorem budget_generate (runtime : Runtime) (prompt : String) (session : Session) :
    (session.generate runtime prompt).2.tracker.bind BudgetTracker.budget =
      session.tracker.bind BudgetTracker.budget := by
  rw [generate]
  cases htracker : session.tracker with
  | none =>
      dsimp only
      rw [send, htracker]
  | some tracker =>
      dsimp only
      rcases tracker.admitCall_cases (runtime.elapsed (session.history prompt)) with
        ⟨entry, budget, reason, -, -, -, hadmits⟩ | ⟨-, hadmits⟩ | ⟨entry, -, -, hadmits⟩
      · simp [hadmits]
      · simp [hadmits]
      · simp [hadmits]

theorem Reaches.untimed (hreaches : Reaches runtime session later) (huntimed : session.Untimed) :
    later.Untimed := by
  induction hreaches with
  | start => exact huntimed
  | generate _ prompt ih =>
      intro budget hbudget
      rw [budget_generate] at hbudget
      exact ih budget hbudget
  | ran _ executions ih => exact ih
  | annotate _ attributes ih => exact ih

/-- The clock is only asked for a wall-clock budget. -/
theorem generate_clocked (huntimed : session.Untimed) (clock : List String → ℚ)
    (prompt : String) :
    session.generate (runtime.clocked clock) prompt = session.generate runtime prompt := by
  cases htracker : session.tracker with
  | none => simp only [generate, htracker]; rfl
  | some tracker =>
      have hadmits : tracker.admitCall (clock (session.history prompt)) =
          tracker.admitCall (runtime.elapsed (session.history prompt)) := by
        rw [BudgetTracker.admitCall, BudgetTracker.admitCall]
        cases hentry : tracker.entry with
        | none => rfl
        | some entry =>
            rw [BudgetTracker.allowCall, BudgetTracker.allowCall, hentry]
            cases hbudget : tracker.budget with
            | none => rfl
            | some budget =>
                have hseconds := huntimed budget (by rw [htracker, Option.bind_some, hbudget])
                simp [ProblemBudget.refusal, hseconds]
      simp only [generate, htracker, Runtime.clocked, hadmits]
      rfl

end Session

open Session

/-! ## Strategies under another clock -/

section Clocked

variable {runtime : Runtime} {problem : Problem} {clock : List String → ℚ}

theorem singleShot_clocked (strategy prompt : String) {session : Session}
    (huntimed : session.Untimed) :
    singleShot (runtime.clocked clock) strategy prompt problem session =
      singleShot runtime strategy prompt problem session := by
  rw [singleShot, singleShot, generate_clocked huntimed]
  rfl

theorem feedbackRounds_clocked (config : RoundConfig) (remaining : ℕ) (prompt : String)
    (rounds : Rounds) {session : Session} (huntimed : session.Untimed) :
    feedbackRounds (runtime.clocked clock) config problem remaining prompt rounds session =
      feedbackRounds runtime config problem remaining prompt rounds session := by
  induction remaining generalizing prompt rounds session with
  | zero => rfl
  | succ remaining ih =>
      rw [feedbackRounds, feedbackRounds, generate_clocked huntimed]
      cases hcall : session.generate runtime prompt with
      | mk reply later =>
          cases reply with
          | refused reason => rfl
          | failed message => rfl
          | answered response =>
              dsimp only
              rw [ih _ _ (((reaches_of_generate hcall).ran _).untimed huntimed)]
              rfl

theorem reflect_clocked (config : RoundConfig) (code : Option String)
    (sandboxResult : Option SandboxResult) (iteration : ℕ) (history : List String)
    {session : Session} (huntimed : session.Untimed) :
    reflect (runtime.clocked clock) config problem code sandboxResult iteration history session =
      reflect runtime config problem code sandboxResult iteration history session := by
  rw [reflect, reflect, generate_clocked huntimed]
  rfl

theorem reflexionRounds_clocked (config : RoundConfig) (remaining : ℕ) (prompt : String)
    (rounds : Rounds) {session : Session} (huntimed : session.Untimed) :
    reflexionRounds (runtime.clocked clock) config problem remaining prompt rounds session =
      reflexionRounds runtime config problem remaining prompt rounds session := by
  induction remaining generalizing prompt rounds session with
  | zero => rfl
  | succ remaining ih =>
      rw [reflexionRounds, reflexionRounds, generate_clocked huntimed]
      split
      next reason later hcall => rfl
      next reply later hrefused hcall =>
        have hran := fun executions => ((reaches_of_generate hcall).ran executions)
        dsimp only
        rw [reflect_clocked config _ _ _ _ ((hran _).untimed huntimed)]
        rw [ih _ _ (((hran _).trans (reflect_reaches runtime problem config _ _ _ _ _)).untimed
          huntimed)]
        rfl

theorem generateCandidates_clocked (prompt : String) (remaining generated : ℕ)
    (candidates : Candidates) {session : Session} (huntimed : session.Untimed) :
    generateCandidates (runtime.clocked clock) problem prompt remaining generated candidates
        session =
      generateCandidates runtime problem prompt remaining generated candidates session := by
  induction remaining generalizing generated candidates session with
  | zero => rfl
  | succ remaining ih =>
      rw [generateCandidates, generateCandidates, generate_clocked huntimed]
      split
      next reason later hcall => rfl
      next reply later hrefused hcall =>
        exact ih _ _ (((reaches_of_generate hcall).ran _).untimed huntimed)

theorem generateRecorded_clocked (prompt : String) (node : ThoughtNode) (callType : String)
    {session : Session} (huntimed : session.Untimed) :
    generateRecorded (runtime.clocked clock) prompt node callType session =
      generateRecorded runtime prompt node callType session := by
  rw [generateRecorded, generateRecorded, generate_clocked huntimed]
  rfl

theorem generateBranches_clocked (config : TreeConfig) (node : ThoughtNode) {session : Session}
    (huntimed : session.Untimed) :
    generateBranches (runtime.clocked clock) config problem node session =
      generateBranches runtime config problem node session := by
  rw [generateBranches, generateBranches, generateRecorded_clocked _ _ _ huntimed]
  rfl

theorem evaluateNode_clocked (node : ThoughtNode) {session : Session}
    (huntimed : session.Untimed) :
    evaluateNode (runtime.clocked clock) problem node session =
      evaluateNode runtime problem node session := by
  rw [evaluateNode, evaluateNode, generateRecorded_clocked _ _ _ huntimed]
  rfl

open Relation in
theorem untimed_of_records {session later : Session}
    (hrecords : ReflTransGen (Records runtime) session later) (huntimed : session.Untimed) :
    later.Untimed := (Reaches.of_records runtime hrecords).untimed huntimed

theorem evaluateBranches_clocked (branches : List ThoughtNode) {session : Session}
    (huntimed : session.Untimed) :
    evaluateBranches (runtime.clocked clock) problem branches session =
      evaluateBranches runtime problem branches session := by
  induction branches generalizing session with
  | nil => rfl
  | cons branch branches ih =>
      have hrated := evaluateNode_records runtime problem branch session
      rw [evaluateBranches, evaluateBranches, evaluateNode_clocked branch huntimed]
      dsimp only
      rw [ih (untimed_of_records (.single hrated) huntimed)]

theorem searchTree_clocked (config : TreeConfig) (fuel : ℕ) (search : Search) {session : Session}
    (huntimed : session.Untimed) :
    searchTree (runtime.clocked clock) config problem fuel search session =
      searchTree runtime config problem fuel search session := by
  induction fuel generalizing search session with
  | zero => rfl
  | succ fuel ih =>
      rw [searchTree, searchTree]
      split
      next hfrontier => rfl
      next current frontier hfrontier =>
        dsimp only
        rw [ih _ huntimed, generateBranches_clocked config current huntimed]
        have hbranches := generateBranches_records runtime problem config current session
        split_ifs
        · rfl
        · split
          next later hcall => rfl
          next later hcall =>
            rw [hcall] at hbranches
            rw [ih _ (untimed_of_records (.single hbranches) huntimed)]
          next first others later hcall =>
            rw [hcall] at hbranches
            have hlater := untimed_of_records (.single hbranches) huntimed
            have hrated := evaluateBranches_records runtime problem (first :: others) later
            rw [evaluateBranches_clocked _ hlater, ih _ (untimed_of_records hrated hlater)]

theorem StrategyConfig.execute_clocked (config : StrategyConfig) {session : Session}
    (huntimed : session.Untimed) :
    config.execute (runtime.clocked clock) problem session =
      config.execute runtime problem session := by
  rw [StrategyConfig.execute, StrategyConfig.execute]
  split
  · exact singleShot_clocked _ _ huntimed
  · exact singleShot_clocked _ _ huntimed
  · rw [multiRoundFeedback, multiRoundFeedback]
    rw [feedbackRounds_clocked config.rounds _ _ _ huntimed]
    rfl
  · rw [selfConsistency, selfConsistency]
    rw [generateCandidates_clocked _ _ _ _ huntimed]
    rfl
  · have hstart : ({ session with attributes :=
        { session.attributes with reflectionBudgetStop := none } } : Session).Untimed := huntimed
    rw [reflexion, reflexion]
    rw [reflexionRounds_clocked config.rounds _ _ _ hstart]
    rfl
  · exact singleShot_clocked _ _ huntimed
  · have hstart : ({ session with attributes := {} } : Session).Untimed := huntimed
    rw [treeOfThoughts, treeOfThoughts]
    rw [searchTree_clocked config.tree _ _ hstart]
    rfl

end Clocked

/-! ## Problems with other hidden cases -/

/-- What the model and the owner of the code see: the prompts so far and the program. -/
structure Seen where
  prompts : List String
  refused : List String
  generatedCode : String
  deriving DecidableEq

def seen (outcome : ExecutionResult × Session) : Seen where
  prompts := outcome.2.sent.map Prod.fst
  refused := outcome.2.refused
  generatedCode := outcome.1.generatedCode

/-- Sessions that differ in the log of the sandbox only. -/
def Session.Alike (session other : Session) : Prop :=
  { session with executions := [] } = { other with executions := [] }

theorem Session.Alike.eq {session other : Session} (halike : session.Alike other) :
    ({ session with executions := [] } : Session) = { other with executions := [] } := halike

/-- The hidden stage shows in the verdict and in the log of the sandbox only. -/
theorem runHidden_alike (runtime : Runtime) (problem : Problem) (result : ExecutionResult)
    (session : Session) : (runHidden runtime problem result session).2.Alike session := by
  obtain ⟨executions, hsession⟩ := runHidden_session runtime problem result session
  rw [hsession]
  rfl

section Hidden

variable (runtime : Runtime) (clock : List String → ℚ) (config : StrategyConfig)

theorem executeProblem_alike {problem other : Problem}
    (hproblem : withoutHidden problem = withoutHidden other) {session twin : Session}
    (huntimed : session.Untimed) (hsession : session.Alike twin) :
    (executeProblem runtime config problem session).1.generatedCode =
        (executeProblem (runtime.clocked clock) config other twin).1.generatedCode ∧
      (executeProblem runtime config problem session).2.Alike
        (executeProblem (runtime.clocked clock) config other twin).2 := by
  have hunsupported : (withoutHidden problem).unsupported = (withoutHidden other).unsupported :=
    congrArg Problem.unsupported hproblem
  have hsame : problem.unsupported = other.unsupported := hunsupported
  have hstart : ({ session with executions := [] } : Session).Untimed := huntimed
  rw [executeProblem, executeProblem]
  dsimp only
  rw [← hsession.eq, ← hsame, ← hproblem, config.execute_clocked hstart]
  split_ifs
  · exact ⟨rfl, rfl⟩
  · rw [generatedCode_runHidden, generatedCode_runHidden]
    exact ⟨rfl, (runHidden_alike runtime problem _ _).trans
      (runHidden_alike (runtime.clocked clock) other _ _).symm⟩

theorem seen_eq {result twinResult : ExecutionResult} {session twin : Session}
    (hcode : result.generatedCode = twinResult.generatedCode) (hsession : session.Alike twin) :
    seen (result, session) = seen (twinResult, twin) := by
  have hsent := congrArg Session.sent hsession.eq
  have hrefused := congrArg Session.refused hsession.eq
  dsimp only at hsent hrefused
  rw [seen, seen]
  simp [hcode, hsent, hrefused]

theorem beginProblem_alike {session twin : Session} (hsession : session.Alike twin)
    {problem other : Problem} (hproblem : withoutHidden problem = withoutHidden other) :
    (session.beginProblem problem).Alike (twin.beginProblem other) := by
  have hid : (withoutHidden problem).problemId = (withoutHidden other).problemId :=
    congrArg Problem.problemId hproblem
  have hsame : problem.problemId = other.problemId := hid
  have hbegun : ({ session with executions := [] } : Session).beginProblem problem =
      ({ twin with executions := [] } : Session).beginProblem other := by
    rw [hsession.eq, beginProblem, beginProblem, hsame]
  exact hbegun

theorem finalizeProblem_alike {session twin : Session} (hsession : session.Alike twin) :
    session.finalizeProblem.Alike twin.finalizeProblem :=
  congrArg Session.finalizeProblem hsession.eq

theorem beginProblem_untimed {session : Session} (huntimed : session.Untimed)
    (problem : Problem) : (session.beginProblem problem).Untimed := by
  intro budget hbudget
  apply huntimed budget
  rw [← hbudget, beginProblem]
  cases session.tracker with
  | none => rfl
  | some tracker => rfl

theorem finalizeProblem_untimed {session : Session} (huntimed : session.Untimed) :
    session.finalizeProblem.Untimed := by
  intro budget hbudget
  apply huntimed budget
  rw [← hbudget, finalizeProblem]
  cases session.tracker with
  | none => rfl
  | some tracker =>
      rw [Option.map_some, Option.bind_some, Option.bind_some, BudgetTracker.finalizeProblem]
      split
      · rfl
      · split_ifs
        · rw [BudgetTracker.budget_setEntry]
        · rfl

theorem runStrategy_alike {problems others : List Problem}
    (hproblems : problems.map withoutHidden = others.map withoutHidden) {session twin : Session}
    (huntimed : session.Untimed) (hsession : session.Alike twin) :
    (runStrategy runtime config problems session).map seen =
      (runStrategy (runtime.clocked clock) config others twin).map seen := by
  induction problems generalizing others session twin with
  | nil =>
      rw [List.map_nil, eq_comm, List.map_eq_nil_iff] at hproblems
      rw [hproblems]
      rfl
  | cons problem problems ih =>
      cases others with
      | nil => cases hproblems
      | cons other others =>
          rw [List.map_cons, List.map_cons, List.cons.injEq] at hproblems
          obtain ⟨hproblem, hrest⟩ := hproblems
          have hbegun := beginProblem_untimed huntimed problem
          obtain ⟨hcode, halike⟩ := executeProblem_alike runtime clock config hproblem hbegun
            (beginProblem_alike hsession hproblem)
          have hstart : ({ session.beginProblem problem with executions := [] } :
              Session).Untimed := hbegun
          have hlater := (executeProblem_reaches config runtime problem _).untimed hstart
          rw [runStrategy, runStrategy, List.map_cons, List.map_cons]
          congr 1
          · exact seen_eq hcode (finalizeProblem_alike halike)
          · exact ih hrest (finalizeProblem_untimed hlater) (finalizeProblem_alike halike)

end Hidden

/-- Two runs that differ in the hidden cases of their problems, under any clocks, send the
same prompts for every problem and come to the same programs. -/
theorem runStrategy_hidden (runtime : Runtime) (clock : List String → ℚ)
    (config : StrategyConfig) (problems others : List Problem)
    (hproblems : problems.map withoutHidden = others.map withoutHidden) (session : Session)
    (huntimed : session.Untimed) :
    (runStrategy runtime config problems session).map seen =
      (runStrategy (runtime.clocked clock) config others session).map seen :=
  runStrategy_alike runtime clock config hproblems huntimed rfl

/-- A problem with a hidden case and one without. -/
theorem runStrategy_hidden_reflexion :
    (runStrategy (trial fun _ => .answered (trialResponse "none")) (trialConfig .reflexion 2)
        [{ trialProblem with hiddenTestCases := [trialCase .hidden] }] {}).map seen =
      (runStrategy ((trial fun _ => .answered (trialResponse "none")).clocked fun _ => 60)
        (trialConfig .reflexion 2) [trialProblem] {}).map seen :=
  runStrategy_hidden (trial fun _ => .answered (trialResponse "none")) (fun _ => 60)
    (trialConfig .reflexion 2) [{ trialProblem with hiddenTestCases := [trialCase .hidden] }]
    [trialProblem] rfl {} (by intro budget hbudget; cases hbudget)

end AlgorithmHarness.Strategies
