import AlgorithmHarness.Strategies.VerdictLaw

/-!
# A result describes one attempt

The visible results that a strategy returns are those of the program it returns,
except where rounds end behind a tested one without a result: the last result
is kept, the program is that of the last round.
-/

namespace AlgorithmHarness.Strategies

open Harness

/-! ## What the sandbox shows of a program -/

section Shown

variable {executor : SandboxExecutor} {problem : Problem} {code : String} {result : SandboxResult}

/-- The sandbox comes to a result for a program, in one visible stage or in both. -/
def ShownBy (executor : SandboxExecutor) (problem : Problem) (code : String)
    (result : SandboxResult) : Prop :=
  executor.execute code problem .pub = .ok result ∨
  executor.execute code problem .feedback = .ok result ∨
  ∃ first second, executor.execute code problem .pub = .ok first ∧
    executor.execute code problem .feedback = .ok second ∧
    result = mergeSandboxResults first second

/-- The visible results of a program, if there is one. -/
def visibleResult (executor : SandboxExecutor) (problem : Problem) (code : Option String) :
    Option SandboxResult :=
  (testCode (testRound executor problem) code).sandboxResult

/-- Without the backend the program does not matter. -/
theorem execute_unavailable (hunavailable : executor.unavailable.isSome) (code other : String)
    (stage : Stage) :
    executor.execute code problem stage = executor.execute other problem stage := by
  obtain ⟨message, hmessage⟩ := Option.isSome_iff_exists.mp hunavailable
  rw [SandboxExecutor.execute, SandboxExecutor.execute, hmessage]

/-- With the backend, results of cases come from a program that can be run. -/
theorem runnable_of_results (havailable : executor.unavailable = none) {stage : Stage}
    (hresult : executor.execute code problem stage = .ok result)
    (hcases : result.testResults ≠ []) :
    problem.unsupported = false ∧ problem.testCasesFor stage ≠ [] ∧ ¬NoEntry executor problem ∧
      executor.validateCode code problem = true ∧ executor.checkImports code = none := by
  cases hsupported : problem.unsupported with
  | true =>
      rw [SandboxExecutor.execute] at hresult
      dsimp only at hresult
      rw [hsupported, if_pos rfl] at hresult
      cases hresult
      exact (hcases rfl).elim
  | false =>
      rcases execute_cases hsupported hresult with ⟨-, hnone, -⟩ | ⟨hunavailable, -⟩ |
        ⟨-, hstage, hentry, hvalid, himports, -⟩
      · exact (hcases hnone).elim
      · rw [havailable] at hunavailable
        cases hunavailable
      · exact ⟨rfl, hstage, hentry, hvalid, himports⟩

/-- With the backend, a stage with cases has no result without one. -/
theorem results_ne_nil (hsupported : problem.unsupported = false)
    (havailable : executor.unavailable = none) (hentry : ¬NoEntry executor problem)
    {stage : Stage} (hcases : problem.testCasesFor stage ≠ [])
    (hresult : executor.execute code problem stage = .ok result) : result.testResults ≠ [] := by
  rcases execute_cases hsupported hresult with ⟨hnoEntry | hempty, -⟩ | ⟨hunavailable, -⟩ |
    ⟨-, -, -, -, -, hresults, -⟩
  · exact (hentry hnoEntry).elim
  · exact (hcases hempty).elim
  · rw [havailable] at hunavailable
    cases hunavailable
  · rw [hresults, judgements]
    simpa using hcases

/-- A program that can be run gets results in every stage with cases. -/
theorem results_of_runnable (hsupported : problem.unsupported = false)
    (havailable : executor.unavailable = none) (hentry : ¬NoEntry executor problem)
    (hvalid : executor.validateCode code problem = true)
    (himports : executor.checkImports code = none) {stage : Stage}
    (hcases : problem.testCasesFor stage ≠ []) :
    ∃ shown, executor.execute code problem stage = .ok shown ∧ shown.testResults ≠ [] := by
  have hruns : Runs executor problem code stage :=
    (runs_iff hsupported).mpr (.inr (.inr (.inr ⟨hvalid, himports⟩)))
  obtain ⟨shown, hshown⟩ := hruns
  exact ⟨shown, hshown, results_ne_nil hsupported havailable hentry hcases hshown⟩

/-- The result of a round is that of one stage with cases, or of both. -/
theorem testRound_result_cases
    (hresult : (testRound executor problem code).sandboxResult = some result) :
    (∃ stage, (stage = .pub ∨ stage = .feedback) ∧ problem.testCasesFor stage ≠ [] ∧
      executor.execute code problem stage = .ok result) ∨
    (problem.publicTestCases ≠ [] ∧ ∃ first second,
      executor.execute code problem .pub = .ok first ∧
      executor.execute code problem .feedback = .ok second ∧
      result = mergeSandboxResults first second) := by
  have hstage {stage : Stage}
      (hresult : (testStage executor problem stage code).sandboxResult = some result) :
      executor.execute code problem stage = .ok result := by
    rw [testStage] at hresult
    cases hrun : executor.execute code problem stage with
    | error message => rw [hrun] at hresult; cases hresult
    | ok shown => rw [hrun] at hresult; cases hresult; rfl
  by_cases hfeedback : problem.feedbackTestCases = []
  · rw [testRound_pub hfeedback] at hresult
    split_ifs at hresult with hpublic
    exact .inl ⟨.pub, .inl rfl, hpublic, hstage hresult⟩
  · by_cases hpublic : problem.publicTestCases = []
    · rw [testRound_feedback hpublic hfeedback] at hresult
      exact .inl ⟨.feedback, .inr rfl, hfeedback, hstage hresult⟩
    · rw [testRound_both hpublic hfeedback] at hresult
      cases hfirst : executor.execute code problem .pub with
      | error message => rw [hfirst] at hresult; cases hresult
      | ok first =>
          cases hsecond : executor.execute code problem .feedback with
          | error message =>
              rw [hfirst, hsecond] at hresult
              cases hresult
              exact .inl ⟨.pub, .inl rfl, hpublic, hfirst⟩
          | ok second =>
              rw [hfirst, hsecond] at hresult
              cases hresult
              exact .inr ⟨hpublic, first, second, rfl, rfl, rfl⟩

theorem shownBy_of_testRound
    (hresult : (testRound executor problem code).sandboxResult = some result) :
    ShownBy executor problem code result := by
  rcases testRound_result_cases hresult with ⟨stage, rfl | rfl, -, hrun⟩ |
    ⟨-, first, second, hfirst, hsecond, hmerged⟩
  · exact .inl hrun
  · exact .inr (.inl hrun)
  · exact .inr (.inr ⟨first, second, hfirst, hsecond, hmerged⟩)

/-- With the backend, a round has no result without a case. -/
theorem testRound_results_ne_nil (hsupported : problem.unsupported = false)
    (havailable : executor.unavailable = none) (hentry : ¬NoEntry executor problem)
    (hresult : (testRound executor problem code).sandboxResult = some result) :
    result.testResults ≠ [] := by
  rcases testRound_result_cases hresult with ⟨stage, -, hcases, hrun⟩ |
    ⟨hpublic, first, second, hfirst, -, rfl⟩
  · exact results_ne_nil hsupported havailable hentry hcases hrun
  · have hcases : problem.testCasesFor .pub ≠ [] := hpublic
    have hshown := results_ne_nil hsupported havailable hentry hcases hfirst
    rw [mergeSandboxResults]
    exact fun hempty => hshown (List.append_eq_nil_iff.mp hempty).1

/-- A result with cases comes from a stage with cases. -/
theorem stage_of_shownBy (hshown : ShownBy executor problem code result)
    (hcases : result.testResults ≠ []) : ∃ stage first, (stage = .pub ∨ stage = .feedback) ∧
      executor.execute code problem stage = .ok first ∧ first.testResults ≠ [] := by
  rcases hshown with hpublic | hfeedback | ⟨first, second, hfirst, hsecond, rfl⟩
  · exact ⟨.pub, result, .inl rfl, hpublic, hcases⟩
  · exact ⟨.feedback, result, .inr rfl, hfeedback, hcases⟩
  · by_cases hnone : first.testResults = []
    · refine ⟨.feedback, second, .inr rfl, hsecond, ?_⟩
      intro hempty
      apply hcases
      rw [mergeSandboxResults, hnone, hempty]
      rfl
    · exact ⟨.pub, first, .inl rfl, hfirst, hnone⟩

/-- Without the backend, what one program shows is shown by every program. -/
theorem shownBy_of_unavailable (hunavailable : executor.unavailable.isSome)
    (hshown : ShownBy executor problem code result) (other : String) :
    ShownBy executor problem other result := by
  rw [ShownBy, execute_unavailable hunavailable other code, execute_unavailable hunavailable other]
  exact hshown

theorem validateCode_empty : executor.validateCode "" problem = false := by
  rw [SandboxExecutor.validateCode]
  rfl

/-- With the backend, a program without a result of a case in its round has none at all. -/
theorem testResults_of_untested (havailable : executor.unavailable = none) {code : Option String}
    (huntested : ∀ shown, visibleResult executor problem code = some shown →
      shown.testResults = [])
    (hshown : ShownBy executor problem (code.getD "") result) : result.testResults = [] := by
  by_contra hcases
  obtain ⟨stage, first, hstage, hfirst, hfirstCases⟩ := stage_of_shownBy hshown hcases
  obtain ⟨hsupported, hstageCases, hentry, hvalid, himports⟩ :=
    runnable_of_results havailable hfirst hfirstCases
  have htruthy : truthy code = true := by
    rw [truthy_iff]
    intro hempty
    rw [hempty, validateCode_empty] at hvalid
    cases hvalid
  have hresults : ∀ stage, problem.testCasesFor stage ≠ [] → ∃ shown,
      executor.execute (code.getD "") problem stage = .ok shown ∧ shown.testResults ≠ [] :=
    fun _ => results_of_runnable hsupported havailable hentry hvalid himports
  rw [visibleResult, testCode, if_pos htruthy] at huntested
  by_cases hfeedback : problem.feedbackTestCases = []
  · have hpublic : problem.publicTestCases ≠ [] := by
      rcases hstage with rfl | rfl
      · exact hstageCases
      · exact (hstageCases hfeedback).elim
    obtain ⟨shown, hrun, hnonempty⟩ := hresults .pub hpublic
    rw [testRound_pub hfeedback, if_neg hpublic, testStage_eq hrun] at huntested
    exact hnonempty (huntested shown rfl)
  · obtain ⟨second, hsecond, hnonempty⟩ := hresults .feedback hfeedback
    by_cases hpublic : problem.publicTestCases = []
    · rw [testRound_feedback hpublic hfeedback, testStage_eq hsecond] at huntested
      exact hnonempty (huntested second rfl)
    · obtain ⟨shown, hrun, -⟩ := hresults .pub hpublic
      rw [testRound_both hpublic hfeedback, hrun, hsecond] at huntested
      have hmerged := huntested (mergeSandboxResults shown second) rfl
      rw [mergeSandboxResults, List.append_eq_nil_iff] at hmerged
      exact hnonempty hmerged.2

/-- The second stage does not raise behind the first. -/
theorem runs_feedback (hpublic : problem.publicTestCases ≠ [])
    (hruns : Runs executor problem code .pub) : Runs executor problem code .feedback := by
  cases hsupported : problem.unsupported with
  | true =>
      rw [Runs, SandboxExecutor.execute]
      dsimp only
      rw [hsupported, if_pos rfl]
      exact ⟨_, rfl⟩
  | false =>
      rw [runs_iff hsupported] at hruns ⊢
      rcases hruns with hentry | hempty | hrest
      · exact .inl hentry
      · exact (hpublic hempty).elim
      · exact .inr (.inr hrest)

theorem testStage_sandboxResult {stage : Stage}
    (hraised : (testStage executor problem stage code).sandboxError.isSome) :
    (testStage executor problem stage code).sandboxResult = none := by
  rw [testStage] at hraised ⊢
  cases hrun : executor.execute code problem stage with
  | error message => rfl
  | ok shown => rw [hrun] at hraised; cases hraised

theorem executeVisibleTests_sandboxResult :
    (executeVisibleTests executor problem code).sandboxResult =
      (testRound executor problem code).sandboxResult := by
  rw [executeVisibleTests]
  split_ifs with hraised
  · symm
    by_cases hfeedback : problem.feedbackTestCases = []
    · rw [testRound_pub hfeedback] at hraised ⊢
      split_ifs at hraised ⊢
      · rfl
      · exact testStage_sandboxResult hraised
    · by_cases hpublic : problem.publicTestCases = []
      · rw [testRound_feedback hpublic hfeedback] at hraised ⊢
        exact testStage_sandboxResult hraised
      · rw [testRound_both hpublic hfeedback] at hraised ⊢
        cases hfirst : executor.execute code problem .pub with
        | error message => rfl
        | ok first =>
            obtain ⟨second, hsecond⟩ := runs_feedback hpublic ⟨first, hfirst⟩
            rw [hfirst, hsecond] at hraised
            cases hraised
  · rfl

end Shown

/-! ## Replies -/

section Replies

variable (executor : SandboxExecutor) (problem : Problem)

/-- A reply to a solution prompt replaces the program, and the result if it shows one. -/
def attempt (kept : Option SandboxResult × Option String) (outcome : Outcome) :
    Option SandboxResult × Option String :=
  let code := outcome.reply.code executor problem
  ((visibleResult executor problem code).or kept.1, code)

/-- What the rounds keep of the replies to their solution prompts. -/
def attempts (replies : List Outcome) : Option SandboxResult × Option String :=
  replies.foldl (attempt executor problem) (none, none)

/-- A reply with a program that gets results of cases. -/
def ShowsCases (outcome : Outcome) : Prop :=
  ∃ shown, visibleResult executor problem (outcome.reply.code executor problem) = some shown ∧
    shown.testResults ≠ []

/-- The rounds end without results of cases behind a reply that shows some. -/
def Drifts (replies : List Outcome) : Prop :=
  executor.unavailable = none ∧ ∃ earlier last, replies = earlier ++ [last] ∧
    (∃ outcome ∈ earlier, ShowsCases executor problem outcome) ∧
    ¬ShowsCases executor problem last

/-- The visible results with cases are those of the program. -/
def Describes (final : Option SandboxResult) (code : String) : Prop :=
  ∀ shown, final = some shown → shown.testResults ≠ [] → ShownBy executor problem code shown

variable {executor problem}

theorem attempts_concat (replies : List Outcome) (last : Outcome) :
    attempts executor problem (replies ++ [last]) =
      attempt executor problem (attempts executor problem replies) last := by
  rw [attempts, List.foldl_concat]
  rfl

/-- What is kept is shown by some reply. -/
theorem mem_of_attempts {replies : List Outcome} {shown : SandboxResult}
    (hkept : (attempts executor problem replies).1 = some shown) :
    ∃ outcome ∈ replies,
      visibleResult executor problem (outcome.reply.code executor problem) = some shown := by
  induction replies using List.reverseRecOn with
  | nil => cases hkept
  | append_singleton replies last ih =>
      rw [attempts_concat, attempt] at hkept
      cases hlast : visibleResult executor problem (last.reply.code executor problem) with
      | none =>
          rw [hlast, Option.none_or] at hkept
          obtain ⟨outcome, hmem, hshown⟩ := ih hkept
          exact ⟨outcome, List.mem_append_left _ hmem, hshown⟩
      | some other =>
          rw [hlast, Option.some_or] at hkept
          exact ⟨last, List.mem_append_right _ List.mem_cons_self, hlast.trans hkept⟩

theorem shownBy_of_visibleResult {code : Option String} {shown : SandboxResult}
    (hshown : visibleResult executor problem code = some shown) :
    ShownBy executor problem (code.getD "") shown := by
  rw [visibleResult, testCode] at hshown
  split_ifs at hshown
  exact shownBy_of_testRound hshown

/-- A kept result lasts. -/
theorem isSome_attempts {replies : List Outcome} {outcome : Outcome} (hmem : outcome ∈ replies)
    (hshown : (visibleResult executor problem (outcome.reply.code executor problem)).isSome) :
    (attempts executor problem replies).1.isSome := by
  induction replies using List.reverseRecOn with
  | nil => cases hmem
  | append_singleton replies last ih =>
      rw [attempts_concat, attempt, Option.isSome_or]
      rcases List.mem_append.mp hmem with hearlier | hlast
      · rw [ih hearlier, Bool.or_true]
      · rw [← List.mem_singleton.mp hlast, hshown, Bool.true_or]

/-- Where one program gets results of cases from the backend, so does every one that is shown. -/
theorem showsCases_of_some (havailable : executor.unavailable = none) {outcome other : Outcome}
    (hshows : ShowsCases executor problem outcome) {shown : SandboxResult}
    (hshown : visibleResult executor problem (other.reply.code executor problem) = some shown) :
    shown.testResults ≠ [] := by
  obtain ⟨first, hfirst, hcases⟩ := hshows
  obtain ⟨stage, result, -, hresult, hresults⟩ :=
    stage_of_shownBy (shownBy_of_visibleResult hfirst) hcases
  obtain ⟨hsupported, -, hentry, -⟩ := runnable_of_results havailable hresult hresults
  rw [visibleResult, testCode] at hshown
  split_ifs at hshown
  exact testRound_results_ne_nil hsupported havailable hentry hshown

/-- Rounds describe one attempt exactly if they do not drift. -/
theorem attempts_describes_iff (replies : List Outcome) :
    Describes executor problem (attempts executor problem replies).1
        ((attempts executor problem replies).2.getD "") ↔
      ¬Drifts executor problem replies := by
  constructor
  · rintro hdescribes ⟨havailable, earlier, last, rfl, ⟨outcome, hmem, hshows⟩, hlast⟩
    have hnone : visibleResult executor problem (last.reply.code executor problem) = none := by
      by_contra hsome
      obtain ⟨shown, hshown⟩ := Option.ne_none_iff_exists'.mp hsome
      exact hlast ⟨shown, hshown, showsCases_of_some havailable hshows hshown⟩
    have hsome : (attempts executor problem earlier).1.isSome := by
      apply isSome_attempts hmem
      obtain ⟨shown, hshown, -⟩ := hshows
      rw [hshown]
      rfl
    obtain ⟨kept, hkept⟩ := Option.isSome_iff_exists.mp hsome
    obtain ⟨source, -, hsource⟩ := mem_of_attempts hkept
    have hcases := showsCases_of_some havailable hshows hsource
    rw [attempts_concat, attempt, hnone, Option.none_or] at hdescribes
    apply hcases
    apply testResults_of_untested havailable _ (hdescribes kept hkept hcases)
    intro shown hshown
    rw [hnone] at hshown
    cases hshown
  · intro hsteady shown hkept hcases
    induction replies using List.reverseRecOn with
    | nil => cases hkept
    | append_singleton earlier last _ =>
        rw [attempts_concat, attempt] at hkept ⊢
        cases hlast : visibleResult executor problem (last.reply.code executor problem) with
        | some result =>
            rw [hlast, Option.some_or] at hkept
            cases hkept
            exact shownBy_of_visibleResult hlast
        | none =>
            rw [hlast, Option.none_or] at hkept
            obtain ⟨outcome, hmem, hshown⟩ := mem_of_attempts hkept
            cases havailable : executor.unavailable with
            | some message =>
                apply shownBy_of_unavailable _ (shownBy_of_visibleResult hshown)
                rw [havailable]
                rfl
            | none =>
                refine (hsteady ⟨havailable, earlier, last, rfl, ⟨outcome, hmem, shown, hshown,
                  hcases⟩, ?_⟩).elim
                rintro ⟨other, hother, -⟩
                rw [hlast] at hother
                cases hother

end Replies

/-! ## Rounds -/

/-- Every other item, from the first. -/
def everyOther {Item : Type} : List Item → List Item
  | [] => []
  | [item] => [item]
  | item :: _ :: items => item :: everyOther items

section Rounds

variable (runtime : Runtime) (problem : Problem) (config : RoundConfig)

/-- The result and the program that rounds keep. -/
def Rounds.kept (rounds : Rounds) : Option SandboxResult × Option String :=
  (rounds.finalResult, rounds.lastCode)

theorem kept_answered (rounds : Rounds) (iteration : IterationResult) (response : LlmResponse)
    (tested : Tested) : (rounds.answered iteration response tested).kept =
      (tested.sandboxResult.or rounds.finalResult, iteration.codeExtracted) := by
  rw [Rounds.kept, Rounds.lastCode, Rounds.answered, List.getLast?_concat]
  rfl

/-- Each reply of a feedback round is an attempt. -/
theorem feedbackRounds_attempts (remaining : ℕ) (prompt : String) (rounds : Rounds)
    (session : Session) : ∃ calls : List (String × Outcome),
      (feedbackRounds runtime config problem remaining prompt rounds session).2.sent =
        calls.reverse ++ session.sent ∧
      (feedbackRounds runtime config problem remaining prompt rounds session).1.kept =
        (calls.map Prod.snd).foldl (attempt runtime.executor problem) rounds.kept := by
  induction remaining generalizing prompt rounds session with
  | zero => exact ⟨[], rfl, rfl⟩
  | succ remaining ih =>
      rw [feedbackRounds]
      cases hcall : session.generate runtime prompt with
      | mk reply later =>
          cases reply with
          | refused reason =>
              obtain ⟨-, tracker, rfl⟩ := Session.generate_refused hcall
              exact ⟨[], rfl, rfl⟩
          | failed message =>
              obtain ⟨hreply, tracker, hlater⟩ := Session.generate_sent hcall rfl
              refine ⟨[(prompt, runtime.provider (session.history prompt))], ?_, ?_⟩
              · rw [hlater]
                rfl
              · rw [List.map_cons, List.map_nil, List.foldl_cons, List.foldl_nil, attempt,
                  ← hreply, Rounds.kept, Rounds.lastCode, List.getLast?_concat]
                rfl
          | answered response =>
              obtain ⟨hreply, tracker, hlater⟩ := Session.generate_sent hcall rfl
              have hsent : later.sent =
                  [(prompt, runtime.provider (session.history prompt))] ++ session.sent := by
                rw [hlater]
                rfl
              dsimp only
              generalize hanswered : rounds.answered _ response _ = answered
              have hkept : answered.kept = attempt runtime.executor problem rounds.kept
                  (runtime.provider (session.history prompt)) := by
                rw [← hanswered, kept_answered, attempt, ← hreply]
                rfl
              split_ifs
              · refine ⟨[(prompt, runtime.provider (session.history prompt))], hsent, ?_⟩
                exact hkept
              · obtain ⟨calls, hcalls, hlast⟩ := ih _ _ _
                refine ⟨(prompt, runtime.provider (session.history prompt)) :: calls, ?_, ?_⟩
                · rw [hcalls, List.reverse_cons, List.append_assoc, ← hsent]
                  rfl
                · rw [hlast, hkept, List.map_cons, List.foldl_cons]

/-- A reflection that does not stop the rounds is one more call. -/
theorem reflect_sent (code : Option String) (sandboxResult : Option SandboxResult)
    (iteration : ℕ) (history : List String) {session : Session}
    {after : (Option LlmResponse × Option String) × Session}
    (hafter : reflect runtime config problem code sandboxResult iteration history session = after) :
    (truthy after.2.attributes.reflectionBudgetStop ∧ after.2.sent = session.sent) ∨
      ∃ call, after.2.sent = call :: session.sent ∧ after.2.attributes = session.attributes := by
  rw [reflect] at hafter
  split at hafter
  next response later hcall =>
    obtain ⟨-, tracker, hlater⟩ := Session.generate_sent hcall rfl
    rw [← hafter, hlater]
    exact .inr ⟨_, rfl, rfl⟩
  next reason later hcall =>
    obtain ⟨hreason, tracker, hlater⟩ := Session.generate_refused hcall
    rw [← hafter, hlater]
    exact .inl ⟨by simpa [truthy] using hreason, rfl⟩
  next message later hcall =>
    obtain ⟨-, tracker, hlater⟩ := Session.generate_sent hcall rfl
    rw [← hafter, hlater]
    exact .inr ⟨_, rfl, rfl⟩

theorem kept_attempted (rounds : Rounds) (iteration : IterationResult)
    (response : Option LlmResponse) (tested : Tested) :
    (rounds.attempted iteration response tested).kept =
      (tested.sandboxResult.or rounds.finalResult, iteration.codeExtracted) := by
  rw [Rounds.kept, Rounds.lastCode, Rounds.attempted, List.getLast?_concat]
  rfl

theorem kept_reflected (rounds : Rounds) (iteration : IterationResult) :
    (rounds.reflected iteration).kept = (rounds.finalResult, iteration.codeExtracted) := by
  rw [Rounds.kept, Rounds.lastCode_reflected]
  rfl

/-- Every other reply of reflexion is an attempt. -/
theorem reflexionRounds_attempts (remaining : ℕ) (prompt : String) (rounds : Rounds)
    (session : Session) (hattribute : session.attributes.reflectionBudgetStop = none) :
    ∃ calls : List (String × Outcome),
      (reflexionRounds runtime config problem remaining prompt rounds session).2.sent =
        calls.reverse ++ session.sent ∧
      (reflexionRounds runtime config problem remaining prompt rounds session).1.kept =
        (everyOther (calls.map Prod.snd)).foldl (attempt runtime.executor problem)
          rounds.kept := by
  induction remaining generalizing prompt rounds session with
  | zero => exact ⟨[], rfl, rfl⟩
  | succ remaining ih =>
      rw [reflexionRounds]
      split
      next reason later hcall =>
        obtain ⟨-, tracker, rfl⟩ := Session.generate_refused hcall
        exact ⟨[], rfl, rfl⟩
      next reply later hrefused hcall =>
        obtain ⟨hreply, tracker, hlater⟩ :=
          Session.generate_sent hcall (Session.refusal_eq_none hrefused)
        generalize hcode : reply.code runtime.executor problem = code
        generalize hsolution : (prompt, runtime.provider (session.history prompt)) = call
        have hsent : later.sent = [call] ++ session.sent := by
          rw [hlater, ← hsolution]
          rfl
        have hunstopped : later.attributes.reflectionBudgetStop = none := by
          rw [hlater]
          exact hattribute
        dsimp only
        generalize htested :
          testCode (executeVisibleTests runtime.executor problem) code = tested
        have hshown : tested.sandboxResult = visibleResult runtime.executor problem code := by
          rw [← htested, testCode, visibleResult, testCode]
          split_ifs
          · exact executeVisibleTests_sandboxResult
          · rfl
        generalize hcompleted : createIterationResult runtime.host _ _ code _ _ _ _ =
          completed
        have hcompletedCode : completed.codeExtracted = code := by
          rw [← hcompleted]
          rfl
        have hattempt : attempt runtime.executor problem rounds.kept call.2 =
            (tested.sandboxResult.or rounds.finalResult, code) := by
          rw [attempt, ← hsolution, hshown, ← hcode, hreply]
          rfl
        have hkept : (rounds.attempted completed reply.response tested).kept =
            attempt runtime.executor problem rounds.kept call.2 := by
          rw [kept_attempted, hattempt, hcompletedCode]
        generalize hreflect : reflect runtime config problem _ _ _ _ _ = reflection
        have hreflected (text error : Option _) : ((rounds.attempted completed reply.response
            tested).reflected (completed.reflected runtime.host text error)).kept =
            attempt runtime.executor problem rounds.kept call.2 := by
          rw [kept_reflected, IterationResult.codeExtracted_reflected, hcompletedCode, hattempt]
          rfl
        split_ifs
        · exact ⟨[call], hsent, hkept⟩
        · exact ⟨[call], hsent, hkept⟩
        next hstop =>
          rcases reflect_sent runtime problem config _ _ _ _ hreflect with
            ⟨-, hsame⟩ | ⟨other, -, hattributes⟩
          · exact ⟨[call], hsame.trans hsent, hreflected _ _⟩
          · rw [hattributes, Session.ran, hunstopped] at hstop
            cases hstop
        next hcontinues =>
          rcases reflect_sent runtime problem config _ _ _ _ hreflect with
            ⟨htold, -⟩ | ⟨other, hother, hattributes⟩
          · exact (hcontinues htold).elim
          · have hnext : reflection.2.attributes.reflectionBudgetStop = none := by
              rw [hattributes]
              exact hunstopped
            obtain ⟨calls, hcalls, hlast⟩ := ih _ _ _ hnext
            refine ⟨call :: other :: calls, ?_, ?_⟩
            · rw [hcalls, hother, Session.ran, hsent]
              simp
            · rw [hlast, hreflected]
              rfl

end Rounds

/-! ## One program -/

section Single

variable {runtime : Runtime} {problem : Problem}

theorem execute_of_testStage {executor : SandboxExecutor} {stage : Stage} {code : String}
    {result : SandboxResult}
    (hresult : (testStage executor problem stage code).sandboxResult = some result) :
    executor.execute code problem stage = .ok result := by
  rw [testStage] at hresult
  cases hrun : executor.execute code problem stage with
  | error message => rw [hrun] at hresult; cases hresult
  | ok shown => rw [hrun] at hresult; cases hresult; rfl

theorem shownBy_of_testFirstStage {executor : SandboxExecutor} {code : String}
    {result : SandboxResult}
    (hresult : (testFirstStage executor problem code).sandboxResult = some result) :
    ShownBy executor problem code result := by
  rw [testFirstStage] at hresult
  split_ifs at hresult
  · exact .inl (execute_of_testStage hresult)
  · exact .inr (.inl (execute_of_testStage hresult))

/-- Stopping on the budget leaves the result and the program. -/
theorem describes_stopped {result : ExecutionResult} (stop : Option String) :
    Describes runtime.executor problem (result.stopped stop).finalResult
        (result.stopped stop).generatedCode ↔
      Describes runtime.executor problem result.finalResult result.generatedCode := by
  cases stop with
  | none => rfl
  | some reason => rfl

theorem singleShot_describes (strategy prompt : String) (session : Session) :
    Describes runtime.executor problem
      (singleShot runtime strategy prompt problem session).1.finalResult
      (singleShot runtime strategy prompt problem session).1.generatedCode := by
  rw [singleShot]
  dsimp only
  rw [describes_stopped]
  intro shown hshown hcases
  generalize (session.generate runtime prompt).1.code runtime.executor problem = code at hshown ⊢
  have hresult : (testCode (testFirstStage runtime.executor problem) code).sandboxResult =
      some shown := hshown
  rw [testCode] at hresult
  split_ifs at hresult
  exact shownBy_of_testFirstStage hresult

/-- A candidate carries what its program has shown in the public stage. -/
def Carries (executor : SandboxExecutor) (problem : Problem) (iteration : IterationResult) :
    Prop :=
  iteration.sandboxResult =
    (testCode (testStage executor problem .pub) iteration.codeExtracted).sandboxResult

theorem Carries.shownBy {executor : SandboxExecutor} {iteration : IterationResult}
    (hcarries : Carries executor problem iteration) {result : SandboxResult}
    (hresult : iteration.sandboxResult = some result) :
    ShownBy executor problem (iteration.codeExtracted.getD "") result := by
  rw [hcarries, testCode] at hresult
  split_ifs at hresult
  exact .inl (execute_of_testStage hresult)

theorem generateCandidates_carries (prompt : String) (remaining generated : ℕ)
    (candidates : Candidates) (session : Session)
    (hcarries : ∀ iteration ∈ candidates.iterations, Carries runtime.executor problem iteration) :
    ∀ iteration ∈ (generateCandidates runtime problem prompt remaining generated candidates
      session).1.iterations, Carries runtime.executor problem iteration := by
  induction remaining generalizing generated candidates session with
  | zero => exact hcarries
  | succ remaining ih =>
      rw [generateCandidates]
      split
      next reason later hcall => exact hcarries
      next reply later hrefused hcall =>
        apply ih
        intro iteration hmem
        rcases List.mem_append.mp hmem with hearlier | hlast
        · exact hcarries iteration hearlier
        · rw [List.mem_singleton.mp hlast]
          rfl

/-- The result of a vote is that of a candidate with the selected program. -/
theorem voteOnCandidates_result {iterations : List IterationResult} {result : SandboxResult}
    (hresult : (voteOnCandidates iterations).finalSandboxResult = some result) :
    ∃ iteration ∈ iterations, iteration.sandboxResult = some result ∧
      (voteOnCandidates iterations).selectedCode = iteration.codeExtracted.getD "" := by
  rw [voteOnCandidates] at hresult ⊢
  split at hresult
  next hnone =>
    obtain ⟨last, hlast, hshown⟩ := Option.bind_eq_some_iff.mp hresult
    refine ⟨last, List.mem_of_getLast? hlast, hshown, ?_⟩
    dsimp only
    rw [hlast]
    rfl
  next code hcode =>
    obtain ⟨⟨other, shown⟩, hfound, rfl⟩ := Option.map_eq_some_iff.mp hresult
    have hsame := List.find?_some hfound
    obtain ⟨iteration, hiteration, hcandidate⟩ :=
      List.mem_filterMap.mp (List.mem_of_find?_eq_some hfound)
    obtain ⟨hextracted, hshown, -⟩ := passingCandidate_eq_some_iff.mp hcandidate
    refine ⟨iteration, hiteration, hshown, ?_⟩
    rw [hextracted]
    exact (of_decide_eq_true hsame).symm

theorem selfConsistency_describes (config : RoundConfig) (session : Session) :
    Describes runtime.executor problem
      (selfConsistency runtime config problem session).1.finalResult
      (selfConsistency runtime config problem session).1.generatedCode := by
  rw [selfConsistency]
  dsimp only
  rw [describes_stopped]
  intro shown hshown hcases
  obtain ⟨iteration, hiteration, hresult, hselected⟩ := voteOnCandidates_result hshown
  have hcarries := generateCandidates_carries (buildBasePrompt runtime.executor problem)
    (candidateCount config.numCandidates) 0 {} session (by simp) iteration hiteration
  dsimp only
  rw [hselected]
  exact hcarries.shownBy hresult

theorem extractBestSolution_describes (config : TreeConfig) (search : Search)
    (session : Session) : Describes runtime.executor problem
      (extractBestSolution runtime config problem search session).1.finalResult
      (extractBestSolution runtime config problem search session).1.generatedCode := by
  rw [extractBestSolution]
  dsimp only
  split
  · intro shown hshown
    cases hshown
  · intro shown hshown hcases
    exact shownBy_of_testFirstStage hshown

theorem treeOfThoughts_describes (config : TreeConfig) (session : Session) :
    Describes runtime.executor problem
      (treeOfThoughts runtime config problem session).1.finalResult
      (treeOfThoughts runtime config problem session).1.generatedCode := by
  rw [treeOfThoughts]
  dsimp only
  rw [describes_stopped]
  exact extractBestSolution_describes config _ _

end Single

/-! ## All strategies -/

/-- The replies between two sessions, in their order. -/
def Session.replies (session later : Session) : List Outcome :=
  (later.sent.take (later.sent.length - session.sent.length)).reverse.map Prod.snd

theorem Session.replies_eq {session later : Session} {calls : List (String × Outcome)}
    (hsent : later.sent = calls.reverse ++ session.sent) :
    session.replies later = calls.map Prod.snd := by
  rw [Session.replies, hsent, List.length_append, Nat.add_sub_cancel, List.take_left,
    List.reverse_reverse]

/-- The replies to prompts for a solution, of all that a strategy got; reflexion
asks for a reflection after each. -/
def Strategy.solutionReplies (strategy : Strategy) (replies : List Outcome) : List Outcome :=
  match strategy with
  | .reflexion => everyOther replies
  | _ => replies

/-- The strategies whose rounds build on each other. -/
def Strategy.iterates : Strategy → Bool
  | .multiRoundFeedback | .reflexion => true
  | _ => false

section Strategies

variable {runtime : Runtime} {problem : Problem}

theorem multiRoundFeedback_describes_iff (config : RoundConfig) (session : Session) :
    Describes runtime.executor problem
        (multiRoundFeedback runtime config problem session).1.finalResult
        (multiRoundFeedback runtime config problem session).1.generatedCode ↔
      ¬Drifts runtime.executor problem
        (session.replies (multiRoundFeedback runtime config problem session).2) := by
  obtain ⟨calls, hsent, hkept⟩ := feedbackRounds_attempts runtime problem config
    config.maxIterations (buildBasePrompt runtime.executor problem) {} session
  rw [multiRoundFeedback]
  dsimp only
  rw [describes_stopped, Session.replies_eq hsent]
  generalize feedbackRounds runtime config problem _ _ _ _ = run at hkept ⊢
  rw [← attempts_describes_iff]
  have hattempts : attempts runtime.executor problem (calls.map Prod.snd) =
      (run.1.finalResult, run.1.lastCode) := hkept.symm
  rw [hattempts]
  rfl

theorem reflexion_describes_iff (config : RoundConfig) (session : Session) :
    Describes runtime.executor problem (reflexion runtime config problem session).1.finalResult
        (reflexion runtime config problem session).1.generatedCode ↔
      ¬Drifts runtime.executor problem
        (everyOther (session.replies (reflexion runtime config problem session).2)) := by
  obtain ⟨calls, hsent, hkept⟩ := reflexionRounds_attempts runtime problem config
    config.maxIterations (buildBasePrompt runtime.executor problem) {}
    { session with attributes := { session.attributes with reflectionBudgetStop := none } } rfl
  rw [reflexion]
  dsimp only
  have hreplies : session.replies (reflexionRounds runtime config problem config.maxIterations
      (buildBasePrompt runtime.executor problem) {} { session with
        attributes := { session.attributes with reflectionBudgetStop := none } }).2 =
      calls.map Prod.snd := Session.replies_eq hsent
  rw [hreplies]
  generalize reflexionRounds runtime config problem _ _ _ _ = run at hkept ⊢
  rw [← attempts_describes_iff]
  have hattempts : attempts runtime.executor problem (everyOther (calls.map Prod.snd)) =
      (run.1.finalResult, run.1.lastCode) := hkept.symm
  rw [hattempts]
  split_ifs
  · exact describes_stopped _
  · rfl

/-- A result describes one attempt exactly if it is not of rounds that end without
results behind a program that has some. -/
theorem execute_describes_iff (config : StrategyConfig) (runtime : Runtime) (problem : Problem)
    (session : Session) :
    Describes runtime.executor problem
        (config.execute runtime problem session).1.finalResult
        (config.execute runtime problem session).1.generatedCode ↔
      ¬(config.name.iterates = true ∧ Drifts runtime.executor problem
        (config.name.solutionReplies
          (session.replies (config.execute runtime problem session).2))) := by
  rw [StrategyConfig.execute]
  cases hname : config.name with
  | vanilla => exact iff_of_true (singleShot_describes _ _ _) fun hdrifts => by cases hdrifts.1
  | chainOfThought =>
      exact iff_of_true (singleShot_describes _ _ _) fun hdrifts => by cases hdrifts.1
  | multiRoundFeedback =>
      have hrounds : Strategy.multiRoundFeedback.iterates = true := rfl
      rw [hrounds, eq_self, true_and]
      exact multiRoundFeedback_describes_iff config.rounds session
  | selfConsistency =>
      exact iff_of_true (selfConsistency_describes _ _) fun hdrifts => by cases hdrifts.1
  | reflexion =>
      have hrounds : Strategy.reflexion.iterates = true := rfl
      rw [hrounds, eq_self, true_and]
      exact reflexion_describes_iff config.rounds session
  | fewShotLearning =>
      exact iff_of_true (singleShot_describes _ _ _) fun hdrifts => by cases hdrifts.1
  | treeOfThoughts =>
      exact iff_of_true (treeOfThoughts_describes _ _) fun hdrifts => by cases hdrifts.1

end Strategies

/-- A wrong program first, and then no program. -/
def runsDry (count : ℕ) : Outcome :=
  .answered (trialResponse (if count = 1 then "def solution(): return 0" else "none"))

/-- The results of the wrong program stand beside no program. -/
theorem execute_undescribed :
    ¬∀ (config : StrategyConfig) (runtime : Runtime) (problem : Problem) (session : Session),
      Describes runtime.executor problem
        (config.execute runtime problem session).1.finalResult
        (config.execute runtime problem session).1.generatedCode := by
  intro hdescribes
  let problem : Problem := { trialProblem with publicTestCases := [trialCase .pub] }
  let config := trialConfig .multiRoundFeedback 2
  have hcode : (config.execute (trial runsDry) problem {}).1.generatedCode = "" := by
    decide +kernel
  have hcases : ((config.execute (trial runsDry) problem {}).1.finalResult.any fun shown =>
      !shown.testResults.isEmpty) = true := by decide +kernel
  obtain ⟨shown, hshown, hresults⟩ := (Option.any_eq_true _ _).mp hcases
  have hnonempty : shown.testResults ≠ [] := by
    intro hempty
    rw [hempty] at hresults
    cases hresults
  have hattempt := hdescribes config (trial runsDry) problem {} shown hshown hnonempty
  rw [hcode] at hattempt
  obtain ⟨stage, first, -, hrun, hfirst⟩ := stage_of_shownBy hattempt hnonempty
  have hvalid := (runnable_of_results rfl hrun hfirst).2.2.2.1
  rw [validateCode_empty] at hvalid
  cases hvalid

end AlgorithmHarness.Strategies
