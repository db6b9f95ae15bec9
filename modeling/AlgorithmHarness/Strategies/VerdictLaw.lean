import AlgorithmHarness.Strategies.BudgetGate
import AlgorithmHarness.Strategies.Testing

/-!
# One law for every verdict

Without a refusal and without an exception of the sandbox, a problem is solved
exactly if there is a program that passes the visible stage of the strategy and
the hidden cases.  Self-consistency leaves the sandbox to its default stage and
misses the law where a problem has no public cases.
-/

namespace AlgorithmHarness.Strategies

open Harness

/-! ## Runs without an incident -/

theorem Session.Reaches.grown {runtime : Runtime} {session later : Session}
    (hreaches : session.Reaches runtime later) :
    session.refused.length ≤ later.refused.length ∧
      ∀ execution ∈ session.executions, execution ∈ later.executions := by
  induction hreaches with
  | start => exact ⟨le_rfl, fun _ hmem => hmem⟩
  | @generate later _ prompt ih =>
      cases hcall : later.generate runtime prompt with
      | mk reply last =>
          cases hrefusal : reply.refusal with
          | none =>
              obtain ⟨-, tracker, rfl⟩ := Session.generate_sent hcall hrefusal
              exact ih
          | some reason =>
              cases reply with
              | refused reason =>
                  obtain ⟨-, tracker, rfl⟩ := Session.generate_refused hcall
                  exact ⟨ih.1.trans (Nat.le_succ _), ih.2⟩
              | answered response => cases hrefusal
              | failed message => cases hrefusal
  | ran _ executions ih =>
      exact ⟨ih.1, fun execution hmem => List.mem_append_right _ (ih.2 execution hmem)⟩
  | annotate _ attributes ih => exact ih

/-- No call was refused and the sandbox has not raised. -/
structure Clean (runtime : Runtime) (problem : Problem) (session later : Session) : Prop where
  unrefused : ¬session.Refuses later
  runs : AllRun runtime.executor problem later.executions

namespace Clean

variable {runtime : Runtime} {problem : Problem} {session middle later : Session}

/-- Behind a call that was not refused. -/
theorem behind (hclean : Clean runtime problem session later)
    (hsame : middle.refused = session.refused) : Clean runtime problem middle later where
  unrefused := mt (Session.refuses_congr hsame).mpr hclean.unrefused
  runs := hclean.runs

/-- The runs on the way have not raised. -/
theorem runs_of_reaches (hclean : Clean runtime problem session later)
    {executions : List (String × Stage)}
    (hreaches : (middle.ran executions).Reaches runtime later) :
    AllRun runtime.executor problem executions := by
  intro execution hmem
  exact hclean.runs execution (hreaches.grown.2 execution (List.mem_append_left _ hmem))

end Clean

theorem resultStatus_success_iff (finalResult : Option SandboxResult) (success : Bool) :
    resultStatus finalResult success = .success ↔ success = true := by
  cases success with
  | true => exact iff_of_true rfl rfl
  | false =>
      apply iff_of_false _ Bool.false_ne_true
      rw [resultStatus.eq_def, if_neg Bool.false_ne_true]
      split
      · decide
      · split_ifs
        · decide
        · decide
        · decide

theorem ExecutionResult.stopped_of_clean {result : ExecutionResult} {stop : Option String}
    (hstop : ¬stop.isSome) : result.stopped stop = result := by
  cases stop with
  | none => rfl
  | some reason => exact (hstop rfl).elim

/-! ## Strategies -/

section Strategies

variable {runtime : Runtime} {problem : Problem} {session : Session}

/-- The result is a success exactly if its program meets the visible cases. -/
def Lawful (executor : SandboxExecutor) (problem : Problem) (testCases : List TestCase)
    (result : ExecutionResult) : Prop :=
  result.status = .success ↔ Meets executor problem testCases (some result.generatedCode)

theorem singleShot_lawful (hsupported : problem.unsupported = false) (strategy prompt : String)
    (hclean : Clean runtime problem session
      (singleShot runtime strategy prompt problem session).2) :
    Lawful runtime.executor problem (firstStageCases problem)
      (singleShot runtime strategy prompt problem session).1 := by
  have hrefusal : ¬(session.generate runtime prompt).1.refusal.isSome :=
    mt (Session.generate_refuses_iff runtime prompt session).mp hclean.unrefused
  have hruns : AllRun runtime.executor problem
      (testCode (testFirstStage runtime.executor problem)
        ((session.generate runtime prompt).1.code runtime.executor problem)).executions :=
    fun execution hmem => hclean.runs execution (List.mem_append_left _ hmem)
  have hlaw := testCode_success_iff (fun code => testFirstStage_success_iff hsupported) hruns
  rw [singleShot]
  dsimp only
  rw [ExecutionResult.stopped_of_clean hrefusal, Lawful]
  exact (resultStatus_success_iff _ _).trans hlaw

/-- The cases of a feedback round. -/
def roundCases (problem : Problem) : List TestCase :=
  problem.publicTestCases ++ problem.feedbackTestCases

/-- The program of the last round, which a result is given. -/
def Rounds.lastCode (rounds : Rounds) : Option String :=
  rounds.iterations.getLast?.bind fun last => last.codeExtracted

theorem not_meets_none (executor : SandboxExecutor) (problem : Problem)
    (testCases : List TestCase) : ¬Meets executor problem testCases none :=
  fun hmeets => hmeets.1 rfl

theorem Rounds.success_answered {rounds : Rounds} (hrounds : rounds.success = false)
    (executor : SandboxExecutor) (code : Option String) (iteration : IterationResult)
    (response : LlmResponse) :
    (rounds.answered iteration response (testCode (testRound executor problem) code)).success =
      (testCode (testRound executor problem) code).success := by
  rw [Rounds.answered, hrounds]
  dsimp only
  split
  next result hresult =>
    rw [testCode] at hresult ⊢
    split_ifs at hresult ⊢
    exact (success_testRound hresult).symm
  · exact Bool.false_or _

theorem feedbackRounds_lawful (hsupported : problem.unsupported = false) (config : RoundConfig)
    (remaining : ℕ) (prompt : String) (rounds : Rounds) (session : Session)
    (hrounds : rounds.success = false)
    (hlast : ¬Meets runtime.executor problem (roundCases problem) rounds.lastCode)
    (hclean : Clean runtime problem session
      (feedbackRounds runtime config problem remaining prompt rounds session).2) :
    (feedbackRounds runtime config problem remaining prompt rounds session).1.success = true ↔
      Meets runtime.executor problem (roundCases problem)
        (feedbackRounds runtime config problem remaining prompt rounds session).1.lastCode := by
  induction remaining generalizing prompt rounds session with
  | zero => exact iff_of_false (by simp [feedbackRounds, hrounds]) hlast
  | succ remaining ih =>
      rw [feedbackRounds] at hclean ⊢
      cases hcall : session.generate runtime prompt with
      | mk reply later =>
          rw [hcall] at hclean
          cases reply with
          | refused reason => exact (hclean.unrefused (Session.refuses_of_refused hcall)).elim
          | failed message =>
              apply iff_of_false
              · simp [hrounds]
              · simp only [Rounds.lastCode, List.getLast?_concat]
                exact not_meets_none _ _ _
          | answered response =>
              have hsame := (Session.refused_of_sent hcall rfl).1
              dsimp only at hclean ⊢
              generalize extractCode runtime.executor response.text (some problem) = code
                at hclean ⊢
              generalize hcompleted : createIterationResult runtime.host _ _ code _ _ _ _ =
                completed at hclean ⊢
              have hcompletedCode : completed.codeExtracted = code := by rw [← hcompleted]; rfl
              generalize hanswered : rounds.answered completed response
                (testCode (testRound runtime.executor problem) code) = answered at hclean ⊢
              have hsuccess : answered.success =
                  (testCode (testRound runtime.executor problem) code).success := by
                rw [← hanswered, Rounds.success_answered hrounds]
              have hcode : answered.lastCode = code := by
                rw [← hanswered, Rounds.lastCode, Rounds.answered, List.getLast?_concat]
                exact hcompletedCode
              have hlaw (hruns : AllRun runtime.executor problem
                    (testCode (testRound runtime.executor problem) code).executions) :
                  answered.success = true ↔
                    Meets runtime.executor problem (roundCases problem) answered.lastCode := by
                rw [hsuccess, hcode]
                apply testCode_success_iff _ hruns
                exact fun _ hruns => (testRound_success_iff hsupported hruns).1
              split_ifs at hclean ⊢ with hdone
              · exact hlaw (hclean.runs_of_reaches .start)
              · have hruns := hclean.runs_of_reaches
                  (feedbackRounds_reaches runtime problem config remaining _ _ _)
                exact ih _ _ _ (Bool.eq_false_iff.mpr hdone) (mt (hlaw hruns).mpr hdone)
                  (hclean.behind hsame)

/-- Reflecting on an attempt leaves its program. -/
theorem Rounds.lastCode_reflected (rounds : Rounds) (iteration : IterationResult) :
    (rounds.reflected iteration).lastCode = iteration.codeExtracted := by
  rw [Rounds.lastCode, Rounds.reflected, List.getLast?_concat]
  rfl

theorem IterationResult.codeExtracted_reflected (iteration : IterationResult) (host : Host)
    (response : Option LlmResponse) (error : Option String) :
    (iteration.reflected host response error).codeExtracted = iteration.codeExtracted := by
  cases response with
  | none => rfl
  | some response => rfl

theorem reflexionRounds_lawful (hsupported : problem.unsupported = false) (config : RoundConfig)
    (remaining : ℕ) (prompt : String) (rounds : Rounds) (session : Session)
    (hattribute : session.attributes.reflectionBudgetStop = none)
    (hrounds : rounds.success = false)
    (hlast : ¬Meets runtime.executor problem (roundCases problem) rounds.lastCode)
    (hclean : Clean runtime problem session
      (reflexionRounds runtime config problem remaining prompt rounds session).2) :
    (reflexionRounds runtime config problem remaining prompt rounds session).1.success = true ↔
      Meets runtime.executor problem (roundCases problem)
        (reflexionRounds runtime config problem remaining prompt rounds session).1.lastCode := by
  induction remaining generalizing prompt rounds session with
  | zero => exact iff_of_false (by simp [reflexionRounds, hrounds]) hlast
  | succ remaining ih =>
      rw [reflexionRounds] at hclean ⊢
      split at hclean
      next reason later hcall =>
        exact (hclean.unrefused (Session.refuses_of_refused hcall)).elim
      next reply later hrefused hcall =>
        obtain ⟨hsame, hkept⟩ := Session.refused_of_sent hcall (Session.refusal_eq_none hrefused)
        dsimp only at hclean ⊢
        generalize reply.code runtime.executor problem = code at hclean ⊢
        generalize htested : testCode (executeVisibleTests runtime.executor problem) code = tested
          at hclean ⊢
        generalize hcompleted : createIterationResult runtime.host _ _ code _ _ _ _ =
          completed at hclean ⊢
        have hcompletedCode : completed.codeExtracted = code := by rw [← hcompleted]; rfl
        generalize hattempted : rounds.attempted completed _ tested = attempted at hclean ⊢
        have hcode : attempted.lastCode = code := by
          rw [← hattempted, Rounds.lastCode, Rounds.attempted, List.getLast?_concat]
          exact hcompletedCode
        have hlaw (hruns : AllRun runtime.executor problem tested.executions) :
            attempted.success = true ↔
              Meets runtime.executor problem (roundCases problem) attempted.lastCode := by
          rw [hcode, ← hattempted, Rounds.attempted, hrounds, Bool.false_or]
          rw [← htested] at hruns ⊢
          exact testCode_success_iff (fun _ => executeVisibleTests_success_iff hsupported) hruns
        generalize hreflect : reflect runtime config problem _ _ _ _ _ = reflection at hclean ⊢
        have hreflected : (later.ran tested.executions).Reaches runtime reflection.2 := by
          rw [← hreflect]
          exact reflect_reaches runtime problem config _ _ _ _ _
        have hcases := reflect_cases runtime problem config _ _ _ _ _ hreflect
        split_ifs at hclean ⊢ with hdone hmost hstop
        · exact hlaw (hclean.runs_of_reaches .start)
        · exact hlaw (hclean.runs_of_reaches .start)
        · rcases hcases with ⟨-, hrefuses⟩ | ⟨-, hattributes⟩
          · exact ((hclean.behind hsame).unrefused hrefuses).elim
          · rw [hattributes, Session.ran, hkept, hattribute] at hstop
            cases hstop
        · rcases hcases with ⟨htold, -⟩ | ⟨hsent, hattributes⟩
          · exact (hstop htold).elim
          · have hruns := hclean.runs_of_reaches
              (hreflected.trans (reflexionRounds_reaches runtime problem config remaining _ _ _))
            have hunsolved : attempted.success = false := by
              cases hsolved : attempted.success with
              | false => rfl
              | true => simp [hsolved] at hdone
            apply ih
            · rw [hattributes, Session.ran, hkept, hattribute]
            · exact hunsolved
            · rw [Rounds.lastCode_reflected, IterationResult.codeExtracted_reflected,
                hcompletedCode, ← hcode, ← hlaw hruns, hunsolved]
              exact Bool.false_ne_true
            · exact hclean.behind (hsent.trans hsame)

/-! ### Candidates -/

/-- What a candidate has shown in the public stage, without an exception. -/
def Shown (executor : SandboxExecutor) (problem : Problem) (iteration : IterationResult) : Prop :=
  iteration.sandboxResult =
      (testCode (testStage executor problem .pub) iteration.codeExtracted).sandboxResult ∧
    AllRun executor problem
      (testCode (testStage executor problem .pub) iteration.codeExtracted).executions

theorem generateCandidates_shown (prompt : String) (remaining generated : ℕ)
    (candidates : Candidates) (session : Session)
    (hshown : ∀ iteration ∈ candidates.iterations, Shown runtime.executor problem iteration)
    (hclean : Clean runtime problem session
      (generateCandidates runtime problem prompt remaining generated candidates session).2) :
    ∀ iteration ∈
      (generateCandidates runtime problem prompt remaining generated candidates
        session).1.iterations, Shown runtime.executor problem iteration := by
  induction remaining generalizing generated candidates session with
  | zero => exact hshown
  | succ remaining ih =>
      rw [generateCandidates] at hclean ⊢
      split at hclean
      next reason later hcall =>
        exact (hclean.unrefused (Session.refuses_of_refused hcall)).elim
      next reply later hrefused hcall =>
        obtain ⟨hsame, -⟩ := Session.refused_of_sent hcall (Session.refusal_eq_none hrefused)
        have hruns := hclean.runs_of_reaches
          (generateCandidates_reaches runtime problem prompt remaining _ _ _)
        apply ih _ _ _ _ (hclean.behind hsame)
        intro iteration hmem
        rcases List.mem_append.mp hmem with hearlier | hlast
        · exact hshown iteration hearlier
        · rw [List.mem_singleton.mp hlast]
          exact ⟨rfl, hruns⟩

theorem candidateCount_pos (configured : Option ℤ) : 0 < candidateCount configured := by
  cases configured with
  | none => decide
  | some count =>
      rw [candidateCount]
      split_ifs
      · decide
      · omega

/-- The program of the last candidate, as the provider answers the prompt the last time. -/
def lastCandidate (runtime : Runtime) (problem : Problem) (prompt : String) (count : ℕ)
    (session : Session) : Option String :=
  (runtime.provider (List.replicate count prompt ++ session.sent.map Prod.fst)).reply.code
    runtime.executor problem

theorem generateCandidates_last (prompt : String) (remaining generated : ℕ)
    (candidates : Candidates) (session : Session)
    (hclean : Clean runtime problem session
      (generateCandidates runtime problem prompt (remaining + 1) generated candidates session).2) :
    ((generateCandidates runtime problem prompt (remaining + 1) generated candidates
        session).1.iterations.getLast?.bind fun last => last.codeExtracted) =
      lastCandidate runtime problem prompt (remaining + 1) session := by
  induction remaining generalizing generated candidates session with
  | zero =>
      rw [generateCandidates] at hclean ⊢
      split at hclean
      next reason later hcall =>
        exact (hclean.unrefused (Session.refuses_of_refused hcall)).elim
      next reply later hrefused hcall =>
        obtain ⟨hreply, -⟩ := Session.generate_sent hcall (Session.refusal_eq_none hrefused)
        dsimp only
        rw [generateCandidates, Candidates.add, List.getLast?_concat, hreply]
        rfl
  | succ remaining ih =>
      rw [generateCandidates] at hclean ⊢
      split at hclean
      next reason later hcall =>
        exact (hclean.unrefused (Session.refuses_of_refused hcall)).elim
      next reply later hrefused hcall =>
        obtain ⟨-, tracker, hlater⟩ :=
          Session.generate_sent hcall (Session.refusal_eq_none hrefused)
        have hsame : later.refused = session.refused := by rw [hlater]; rfl
        have hsent : later.sent.map Prod.fst = prompt :: session.sent.map Prod.fst := by
          rw [hlater]; rfl
        have hcount : List.replicate (remaining + 1 + 1) prompt =
            List.replicate (remaining + 1) prompt ++ [prompt] := List.replicate_succ'
        dsimp only at hclean ⊢
        rw [ih _ _ _ (hclean.behind hsame), lastCandidate, lastCandidate, Session.ran, hsent,
          hcount, List.append_assoc, List.singleton_append]

theorem firstMaximal_mem {Item : Type} (less : Item → Item → Bool) {items : List Item}
    {best : Item} (hbest : firstMaximal less items = some best) : best ∈ items := by
  cases items with
  | nil => cases hbest
  | cons first rest =>
      cases hbest
      induction rest generalizing first with
      | nil => exact List.mem_cons_self
      | cons next rest ih =>
          rw [List.foldl_cons]
          have hmem := ih (if less first next then next else first)
          rcases List.mem_cons.mp hmem with hfirst | hrest
          · rw [hfirst]
            split_ifs
            · exact List.mem_cons_of_mem _ List.mem_cons_self
            · exact List.mem_cons_self
          · exact List.mem_cons_of_mem _ (List.mem_cons_of_mem _ hrest)

theorem firstMaximal_eq_none {Item : Type} (less : Item → Item → Bool) {items : List Item} :
    firstMaximal less items = none ↔ items = [] := by
  cases items with
  | nil => simp [firstMaximal]
  | cons first rest => simp [firstMaximal]

/-- A vote is won by the program of a candidate that has passed, or else the last one is kept. -/
theorem voteOnCandidates_cases (iterations : List IterationResult) :
    ((voteOnCandidates iterations).success = true ∧ ∃ iteration ∈ iterations, ∃ result,
      passingCandidate iteration = some ((voteOnCandidates iterations).selectedCode, result)) ∨
    ((voteOnCandidates iterations).success = false ∧
      (∀ iteration ∈ iterations, passingCandidate iteration = none) ∧
      (voteOnCandidates iterations).selectedCode =
        (iterations.getLast?.bind fun last => last.codeExtracted).getD "") := by
  rw [voteOnCandidates]
  split
  next hnone =>
    right
    rw [firstMaximal_eq_none] at hnone
    refine ⟨rfl, ?_, rfl⟩
    intro iteration hiteration
    cases hcandidate : passingCandidate iteration with
    | none => rfl
    | some candidate =>
        have hpassing := List.mem_filterMap.mpr ⟨iteration, hiteration, hcandidate⟩
        have hcode : candidate.1 ∈
            ((iterations.filterMap passingCandidate).map Prod.fst).eraseDups :=
          List.mem_eraseDups.mpr (List.mem_map.mpr ⟨candidate, hpassing, rfl⟩)
        rw [hnone] at hcode
        cases hcode
  next code hcode =>
    left
    have hmem := firstMaximal_mem _ hcode
    rw [List.mem_eraseDups, List.mem_map] at hmem
    obtain ⟨⟨other, result⟩, hpassing, rfl⟩ := hmem
    obtain ⟨iteration, hiteration, hcandidate⟩ := List.mem_filterMap.mp hpassing
    exact ⟨rfl, iteration, hiteration, result, hcandidate⟩

theorem passingCandidate_eq_some_iff {iteration : IterationResult} {code : String}
    {result : SandboxResult} : passingCandidate iteration = some (code, result) ↔
      iteration.codeExtracted = some code ∧ iteration.sandboxResult = some result ∧
        code ≠ "" ∧ result.allPassed = true := by
  rw [passingCandidate]
  cases iteration.codeExtracted with
  | none => simp
  | some own =>
      cases iteration.sandboxResult with
      | none => simp
      | some shown =>
          simp only [Option.some.injEq, Option.ite_none_right_eq_some, Prod.mk.injEq,
            Bool.and_eq_true, decide_eq_true_eq]
          constructor
          · rintro ⟨⟨hcode, hpassed⟩, rfl, rfl⟩
            exact ⟨rfl, rfl, hcode, hpassed⟩
          · rintro ⟨rfl, rfl, hcode, hpassed⟩
            exact ⟨⟨hcode, hpassed⟩, rfl, rfl⟩

/-- A candidate has passed if there are public cases and its program meets them. -/
theorem passingCandidate_iff (hsupported : problem.unsupported = false)
    {iteration : IterationResult} (hshown : Shown runtime.executor problem iteration)
    {code : String} (hcode : iteration.codeExtracted = some code) :
    (∃ result, passingCandidate iteration = some (code, result)) ↔
      problem.publicTestCases ≠ [] ∧
        Meets runtime.executor problem problem.publicTestCases (some code) := by
  obtain ⟨hresult, hruns⟩ := hshown
  rw [hcode] at hresult hruns
  simp only [passingCandidate_eq_some_iff, hcode, true_and]
  by_cases hempty : code = ""
  · simp [hempty, Meets]
  · have htested : testCode (testStage runtime.executor problem .pub) (some code) =
        testStage runtime.executor problem .pub code := by
      simp [testCode, truthy, hempty]
    rw [htested] at hresult hruns
    rw [executions_testStage] at hruns
    obtain ⟨result, hrun⟩ := hruns (code, .pub) List.mem_cons_self
    rw [testStage_eq hrun] at hresult
    have hpassed := allPassed_iff hsupported hrun
    constructor
    · rintro ⟨shown, hshown, hcode, hall⟩
      rw [hresult] at hshown
      cases hshown
      obtain ⟨hcases, hpasses⟩ := hpassed.mp hall
      exact ⟨hcases, hempty, hpasses⟩
    · rintro ⟨hcases, -, hpasses⟩
      exact ⟨result, hresult, hempty, hpassed.mpr ⟨hcases, hpasses⟩⟩

/-- With public cases, a vote on candidates that were all shown is lawful. -/
theorem voteOnCandidates_lawful (hsupported : problem.unsupported = false)
    (hpublic : problem.publicTestCases ≠ []) {iterations : List IterationResult}
    (hshown : ∀ iteration ∈ iterations, Shown runtime.executor problem iteration) :
    (voteOnCandidates iterations).success = true ↔
      Meets runtime.executor problem problem.publicTestCases
        (some (voteOnCandidates iterations).selectedCode) := by
  rcases voteOnCandidates_cases iterations with
    ⟨hsuccess, iteration, hiteration, result, hpassing⟩ | ⟨hfailed, hnone, hselected⟩
  · apply iff_of_true hsuccess
    have hcode := (passingCandidate_eq_some_iff.mp hpassing).1
    exact ((passingCandidate_iff hsupported (hshown iteration hiteration) hcode).mp
      ⟨result, hpassing⟩).2
  · apply iff_of_false (by rw [hfailed]; exact Bool.false_ne_true)
    intro hmeets
    rw [hselected] at hmeets
    cases hlast : iterations.getLast? with
    | none => rw [hlast] at hmeets; exact hmeets.1 rfl
    | some last =>
        rw [hlast, Option.bind_some] at hmeets
        have hmem := List.mem_of_getLast? hlast
        cases hcode : last.codeExtracted with
        | none => rw [hcode] at hmeets; exact hmeets.1 rfl
        | some code =>
            rw [hcode] at hmeets
            obtain ⟨result, hpassing⟩ :=
              (passingCandidate_iff hsupported (hshown last hmem) hcode).mpr ⟨hpublic, hmeets⟩
            rw [hnone last hmem] at hpassing
            cases hpassing

/-- Without public cases no candidate passes. -/
theorem voteOnCandidates_of_no_public (hsupported : problem.unsupported = false)
    (hpublic : problem.publicTestCases = []) {iterations : List IterationResult}
    (hshown : ∀ iteration ∈ iterations, Shown runtime.executor problem iteration) :
    (voteOnCandidates iterations).success = false ∧
      (voteOnCandidates iterations).selectedCode =
        (iterations.getLast?.bind fun last => last.codeExtracted).getD "" := by
  rcases voteOnCandidates_cases iterations with ⟨-, iteration, hiteration, result, hpassing⟩ |
    ⟨hfailed, -, hselected⟩
  · have hcode := (passingCandidate_eq_some_iff.mp hpassing).1
    have hcases := (passingCandidate_iff hsupported (hshown iteration hiteration) hcode).mp
      ⟨result, hpassing⟩
    exact (hcases.1 hpublic).elim
  · exact ⟨hfailed, hselected⟩

/-! ### Leaves -/

theorem codeSnippet_of_best {config : TreeConfig} {search : Search} {best : ThoughtNode}
    (hbest : firstMaximal lowerScore (search.leaves config) = some best) :
    best.codeSnippet ≠ "" := by
  intro hempty
  have hleaf := (List.mem_filter.mp (firstMaximal_mem _ hbest)).2
  rw [hempty] at hleaf
  have hstripped : stripped "" = "" := by decide
  simp [hstripped] at hleaf

theorem extractBestSolution_lawful (hsupported : problem.unsupported = false)
    (config : TreeConfig) (search : Search) (session : Session)
    (hruns : AllRun runtime.executor problem
      (extractBestSolution runtime config problem search session).2.executions) :
    Lawful runtime.executor problem (firstStageCases problem)
      (extractBestSolution runtime config problem search session).1 := by
  rw [extractBestSolution] at hruns ⊢
  dsimp only at hruns ⊢
  split at hruns
  · apply iff_of_false
    · simp [createExecutionResult, resultStatus]
    · exact fun hmeets => hmeets.1 rfl
  next best hbest =>
    have hcode := codeSnippet_of_best hbest
    have hlaw := testFirstStage_success_iff hsupported
      (fun execution hmem => hruns execution (List.mem_append_left _ hmem))
    exact (resultStatus_success_iff _ _).trans (hlaw.trans (and_iff_right hcode).symm)

theorem treeOfThoughts_lawful (hsupported : problem.unsupported = false) (config : TreeConfig)
    (hclean : Clean runtime problem session (treeOfThoughts runtime config problem session).2) :
    Lawful runtime.executor problem (firstStageCases problem)
      (treeOfThoughts runtime config problem session).1 := by
  rw [treeOfThoughts] at hclean ⊢
  dsimp only at hclean ⊢
  generalize hrun : searchTree runtime config problem _ _ _ = run at hclean ⊢
  have htells : Session.Tells { session with attributes := {} } run.2 := by
    rw [← hrun]
    exact searchTree_tells runtime problem config _ _ rfl
  have hlawful := extractBestSolution_lawful hsupported config run.1 run.2 hclean.runs
  obtain ⟨executions, hsession⟩ := extractBestSolution_session runtime problem config run.1 run.2
  have hstop : ¬(extractBestSolution runtime config problem run.1
      run.2).2.attributes.budgetStop.isSome := by
    intro hstop
    apply hclean.unrefused
    rw [hsession] at hstop ⊢
    exact htells.stop_iff.mp hstop
  rw [ExecutionResult.stopped_of_clean hstop]
  exact hlawful

/-! ### All strategies -/

/-- The cases of the visible stage of a strategy. -/
def Strategy.visibleCases (strategy : Strategy) (problem : Problem) : List TestCase :=
  match strategy with
  | .multiRoundFeedback | .reflexion => roundCases problem
  | _ => firstStageCases problem

theorem multiRoundFeedback_lawful (hsupported : problem.unsupported = false)
    (config : RoundConfig)
    (hclean : Clean runtime problem session
      (multiRoundFeedback runtime config problem session).2) :
    Lawful runtime.executor problem (roundCases problem)
      (multiRoundFeedback runtime config problem session).1 := by
  have hstop := feedbackRounds_refuses_iff runtime problem config config.maxIterations
    (buildBasePrompt runtime.executor problem) {} session rfl
  rw [multiRoundFeedback]
  dsimp only
  rw [ExecutionResult.stopped_of_clean (mt hstop.mp hclean.unrefused)]
  apply (resultStatus_success_iff _ _).trans
  exact feedbackRounds_lawful hsupported config config.maxIterations _ {} session rfl
    (not_meets_none _ _ _) hclean

theorem reflexion_lawful (hsupported : problem.unsupported = false) (config : RoundConfig)
    (hclean : Clean runtime problem session (reflexion runtime config problem session).2) :
    Lawful runtime.executor problem (roundCases problem)
      (reflexion runtime config problem session).1 := by
  have hstop := reflexionRounds_refuses_iff runtime problem config config.maxIterations
    (buildBasePrompt runtime.executor problem) {}
    { session with attributes := { session.attributes with reflectionBudgetStop := none } } rfl rfl
  rw [reflexion]
  dsimp only
  rw [if_neg (mt hstop.mp hclean.unrefused)]
  apply (resultStatus_success_iff _ _).trans
  exact reflexionRounds_lawful hsupported config config.maxIterations _ {} _ rfl rfl
    (not_meets_none _ _ _) ⟨hclean.unrefused, hclean.runs⟩

theorem selfConsistency_lawful (hsupported : problem.unsupported = false) (config : RoundConfig)
    (hclean : Clean runtime problem session
      (selfConsistency runtime config problem session).2) :
    (problem.publicTestCases ≠ [] → Lawful runtime.executor problem problem.publicTestCases
      (selfConsistency runtime config problem session).1) ∧
    (problem.publicTestCases = [] →
      (selfConsistency runtime config problem session).1.status ≠ .success ∧
      (selfConsistency runtime config problem session).1.generatedCode =
        (lastCandidate runtime problem (buildBasePrompt runtime.executor problem)
          (candidateCount config.numCandidates) session).getD "") := by
  have hstop := generateCandidates_refuses_iff runtime problem
    (buildBasePrompt runtime.executor problem) (candidateCount config.numCandidates) 0 {} session
    rfl
  have hshown := generateCandidates_shown (buildBasePrompt runtime.executor problem)
    (candidateCount config.numCandidates) 0 {} session (by simp) hclean
  rw [selfConsistency]
  dsimp only
  rw [ExecutionResult.stopped_of_clean (mt hstop.mp hclean.unrefused)]
  constructor
  · intro hpublic
    exact (resultStatus_success_iff _ _).trans (voteOnCandidates_lawful hsupported hpublic hshown)
  · intro hpublic
    obtain ⟨hfailed, hselected⟩ := voteOnCandidates_of_no_public hsupported hpublic hshown
    constructor
    · intro hsuccess
      have hwon := (resultStatus_success_iff _ _).mp hsuccess
      rw [hfailed] at hwon
      cases hwon
    · obtain ⟨others, hcount⟩ : ∃ others, candidateCount config.numCandidates = others + 1 :=
        ⟨_, (Nat.succ_pred_eq_of_pos (candidateCount_pos config.numCandidates)).symm⟩
      have hcandidates : Clean runtime problem session (generateCandidates runtime problem
          (buildBasePrompt runtime.executor problem) (candidateCount config.numCandidates) 0 {}
          session).2 := ⟨hclean.unrefused, hclean.runs⟩
      rw [hcount] at hcandidates
      have hlast := generateCandidates_last _ others 0 {} session hcandidates
      rw [← hcount] at hlast
      rw [← hlast]
      exact hselected

/-- Where a strategy misses the law: self-consistency without public cases, if the last
candidate is right. -/
def StrategyConfig.MissesLaw (config : StrategyConfig) (runtime : Runtime) (problem : Problem)
    (session : Session) : Prop :=
  config.name = .selfConsistency ∧ problem.publicTestCases = [] ∧
    Meets runtime.executor problem (problem.feedbackTestCases ++ problem.hiddenTestCases)
      (lastCandidate runtime (withoutHidden problem)
        (buildBasePrompt runtime.executor (withoutHidden problem))
        (candidateCount config.rounds.numCandidates) session)

theorem StrategyConfig.execute_lawful (config : StrategyConfig)
    (hsupported : problem.unsupported = false)
    (hclean : Clean runtime problem session (config.execute runtime problem session).2)
    (hstages : config.name = .selfConsistency → problem.publicTestCases ≠ []) :
    Lawful runtime.executor problem (config.name.visibleCases problem)
      (config.execute runtime problem session).1 := by
  rw [StrategyConfig.execute] at hclean ⊢
  cases hname : config.name with
  | vanilla =>
      rw [hname] at hclean
      exact singleShot_lawful hsupported _ _ hclean
  | chainOfThought =>
      rw [hname] at hclean
      exact singleShot_lawful hsupported _ _ hclean
  | multiRoundFeedback =>
      rw [hname] at hclean
      exact multiRoundFeedback_lawful hsupported config.rounds hclean
  | selfConsistency =>
      rw [hname] at hclean
      have hpublic := hstages hname
      have hvisible : Strategy.selfConsistency.visibleCases problem = problem.publicTestCases :=
        if_neg hpublic
      rw [hvisible]
      exact (selfConsistency_lawful hsupported config.rounds hclean).1 hpublic
  | reflexion =>
      rw [hname] at hclean
      exact reflexion_lawful hsupported config.rounds hclean
  | fewShotLearning =>
      rw [hname] at hclean
      exact singleShot_lawful hsupported _ _ hclean
  | treeOfThoughts =>
      rw [hname] at hclean
      exact treeOfThoughts_lawful hsupported config.tree hclean

/-! ## The hidden stage -/

theorem formalEvaluable_iff (hsupported : problem.unsupported = false) :
    problem.formalEvaluable = true ↔ problem.hiddenTestCases ≠ [] := by
  simp [Problem.formalEvaluable, hsupported]

/-- The hidden stage only takes a success away, from a program that fails a hidden case. -/
theorem runHidden_success_iff (hsupported : problem.unsupported = false)
    {result : ExecutionResult} (hcode : result.status = .success → result.generatedCode ≠ "")
    (hruns : AllRun runtime.executor problem
      (runHidden runtime problem result session).2.executions) :
    (runHidden runtime problem result session).1.status = .success ↔
      result.status = .success ∧
        PassesAll runtime.executor problem result.generatedCode problem.hiddenTestCases := by
  rw [runHidden] at hruns ⊢
  split_ifs at hruns ⊢ with hhidden
  · simp only [Bool.and_eq_true, decide_eq_true_eq, formalEvaluable_iff hsupported] at hhidden
    obtain ⟨shown, hshown⟩ := hruns (result.generatedCode, .hidden) List.mem_cons_self
    have hpassed := allPassed_iff hsupported hshown
    dsimp only
    rw [ExecutionResult.status_judged, hshown, hiddenResult]
    have hpasses : shown.allPassed = true ↔
        PassesAll runtime.executor problem result.generatedCode problem.hiddenTestCases :=
      hpassed.trans (and_iff_right hhidden.1.1)
    rw [← hpasses]
    split_ifs with hall
    · exact (and_iff_left hall).symm
    · exact iff_of_false (by decide) fun hboth => hall hboth.2
  · dsimp only
    constructor
    · intro hsuccess
      refine ⟨hsuccess, ?_⟩
      have hempty : problem.hiddenTestCases = [] := by
        by_contra hcases
        apply hhidden
        simp [(formalEvaluable_iff hsupported).mpr hcases, hcode hsuccess, hsuccess]
      rw [hempty]
      exact fun testCase hmem => (List.not_mem_nil hmem).elim
    · exact And.left

theorem meets_append {executor : SandboxExecutor} {first second : List TestCase}
    {code : Option String} : Meets executor problem (first ++ second) code ↔
      Meets executor problem first code ∧
        PassesAll executor problem (code.getD "") second := by
  simp only [Meets, PassesAll, List.forall_mem_append, and_assoc]

/-- Without an incident, the verdict on a problem follows the law exactly if this is not
self-consistency without public cases whose last candidate is right. -/
theorem executeProblem_lawful_iff (runtime : Runtime) (config : StrategyConfig)
    (problem : Problem) (session : Session) (hsupported : problem.unsupported = false)
    (hclean : Clean runtime problem session (executeProblem runtime config problem session).2) :
    ((executeProblem runtime config problem session).1.status = .success ↔
      Meets runtime.executor problem
        (config.name.visibleCases problem ++ problem.hiddenTestCases)
        (some (executeProblem runtime config problem session).1.generatedCode)) ↔
    ¬config.MissesLaw runtime problem session := by
  rw [executeProblem] at hclean ⊢
  dsimp only at hclean ⊢
  rw [hsupported, if_neg Bool.false_ne_true] at hclean ⊢
  generalize hrun : config.execute runtime (withoutHidden problem)
    { session with executions := [] } = run at hclean ⊢
  obtain ⟨executions, hsession⟩ := runHidden_session runtime problem
    { run.1 with formalEvaluable := problem.formalEvaluable } run.2
  have hstripped : (withoutHidden problem).unsupported = false := hsupported
  have hvisible : Clean runtime (withoutHidden problem) { session with executions := [] }
      run.2 := by
    constructor
    · have hunrefused := hclean.unrefused
      rw [hsession] at hunrefused
      exact hunrefused
    · intro execution hmem
      apply runs_withoutHidden hsupported
      apply hclean.runs
      rw [hsession]
      exact List.mem_append_right _ hmem
  generalize hresult : ({ run.1 with formalEvaluable := problem.formalEvaluable } :
    ExecutionResult) = result at hclean ⊢
  have hstatus : result.status = run.1.status := by rw [← hresult]
  have hcode : result.generatedCode = run.1.generatedCode := by rw [← hresult]
  rw [generatedCode_runHidden, meets_append]
  by_cases hdefault : config.name = .selfConsistency ∧ problem.publicTestCases = []
  · obtain ⟨hname, hpublic⟩ := hdefault
    have hvoted : config.execute runtime (withoutHidden problem) { session with executions := [] } =
        selfConsistency runtime config.rounds (withoutHidden problem)
          { session with executions := [] } := by
      rw [StrategyConfig.execute, hname]
    rw [hvoted] at hrun
    rw [← hrun] at hvisible
    obtain ⟨hfailed, hlast⟩ := (selfConsistency_lawful hstripped config.rounds hvisible).2 hpublic
    rw [hrun] at hfailed hlast
    have hunsolved : ¬(runHidden runtime problem result run.2).1.status = .success := by
      rw [runHidden_success_iff hsupported _ hclean.runs, hstatus]
      · exact fun hboth => hfailed hboth.1
      · rw [hstatus]
        exact fun hsuccess => (hfailed hsuccess).elim
    rw [iff_false_left hunsolved, hcode, hlast]
    have hcases : config.name.visibleCases problem = problem.feedbackTestCases := by
      rw [hname]
      exact if_pos hpublic
    rw [hcases, StrategyConfig.MissesLaw, meets_append, hname, hpublic]
    simp only [true_and]
    rfl
  · have hlawful : Lawful runtime.executor (withoutHidden problem)
        (config.name.visibleCases (withoutHidden problem)) run.1 := by
      rw [← hrun] at hvisible ⊢
      apply config.execute_lawful hstripped hvisible
      exact fun hname hpublic => hdefault ⟨hname, hpublic⟩
    have hsame : run.1.status = .success ↔ Meets runtime.executor problem
        (config.name.visibleCases problem) (some run.1.generatedCode) := hlawful
    rw [runHidden_success_iff hsupported _ hclean.runs, hstatus, hcode, hsame]
    · exact iff_of_true Iff.rfl fun hmisses => hdefault ⟨hmisses.1, hmisses.2.1⟩
    · rw [hstatus, hcode, hsame]
      exact And.left

end Strategies

/-- A problem with a hidden case only. -/
def hiddenOnly : Problem := { trialProblem with hiddenTestCases := [trialCase .hidden] }

/-- A provider that knows the answer. -/
def rightAnswer (_ : ℕ) : Outcome := .answered (trialResponse "def solution(): return 1")

theorem executeProblem_lawful_vanilla :
    ((executeProblem (trial rightAnswer) (trialConfig .vanilla 1) hiddenOnly {}).1.status =
        .success ↔
      Meets trialExecutor hiddenOnly (Strategy.vanilla.visibleCases hiddenOnly ++
        hiddenOnly.hiddenTestCases) (some (executeProblem (trial rightAnswer)
          (trialConfig .vanilla 1) hiddenOnly {}).1.generatedCode)) ↔
    ¬(trialConfig .vanilla 1).MissesLaw (trial rightAnswer) hiddenOnly {} := by
  apply executeProblem_lawful_iff (trial rightAnswer) (trialConfig .vanilla 1) hiddenOnly {} rfl
  have hexecutions : (executeProblem (trial rightAnswer) (trialConfig .vanilla 1) hiddenOnly
      {}).2.executions = [("def solution(): return 1", .hidden)] := by decide +kernel
  constructor
  · rw [Session.Refuses]
    decide +kernel
  · rw [hexecutions]
    intro execution hmem
    rw [List.mem_singleton.mp hmem, runs_iff rfl]
    exact .inr (.inr (.inr ⟨by decide +kernel, by decide +kernel⟩))

/-- A right program is no success under self-consistency. -/
theorem executeProblem_unlawful :
    ¬∀ (runtime : Runtime) (config : StrategyConfig) (problem : Problem) (session : Session),
      problem.unsupported = false →
      Clean runtime problem session (executeProblem runtime config problem session).2 →
      ((executeProblem runtime config problem session).1.status = .success ↔
        Meets runtime.executor problem
          (config.name.visibleCases problem ++ problem.hiddenTestCases)
          (some (executeProblem runtime config problem session).1.generatedCode)) := by
  intro hlaw
  have hexecutions : (executeProblem (trial rightAnswer) (trialConfig .selfConsistency 1)
      hiddenOnly {}).2.executions =
        [("def solution(): return 1", .hidden), ("def solution(): return 1", .pub)] := by
    decide +kernel
  have hcode : (executeProblem (trial rightAnswer) (trialConfig .selfConsistency 1)
      hiddenOnly {}).1.generatedCode = "def solution(): return 1" := by decide +kernel
  have hunsolved : (executeProblem (trial rightAnswer) (trialConfig .selfConsistency 1)
      hiddenOnly {}).1.status ≠ .success := by decide +kernel
  apply hunsolved
  rw [hlaw (trial rightAnswer) (trialConfig .selfConsistency 1) hiddenOnly {} rfl]
  · rw [hcode]
    refine ⟨by decide, ?_⟩
    intro testCase hmem
    rw [List.mem_singleton.mp hmem]
    exact ⟨rfl, by decide +kernel⟩
  · constructor
    · rw [Session.Refuses]
      decide +kernel
    · rw [hexecutions]
      intro execution hmem
      have hcode : execution.1 = "def solution(): return 1" := by
        rcases List.mem_cons.mp hmem with rfl | hmem
        · rfl
        · rw [List.mem_singleton.mp hmem]
      rw [hcode, runs_iff rfl]
      exact .inr (.inr (.inr ⟨by decide +kernel, by decide +kernel⟩))

end AlgorithmHarness.Strategies
