import AlgorithmHarness.Strategies.Execution

/-!
# What testing a program says

A program passes a case if the backend is there and the case is judged so.
Where the sandbox does not raise, each way of testing a program succeeds exactly
if the program passes every case of its stages.
-/

namespace AlgorithmHarness.Strategies

open Harness

/-! ## One stage -/

section Stages

variable (executor : SandboxExecutor) (problem : Problem) (code : String)

def Passes (testCase : TestCase) : Prop :=
  executor.unavailable = none ∧ (executor.executeSingleTest code testCase 0 problem).passed = true

def PassesAll (testCases : List TestCase) : Prop :=
  ∀ testCase ∈ testCases, Passes executor problem code testCase

/-- The sandbox does not raise on a program. -/
def Runs (stage : Stage) : Prop := ∃ result, executor.execute code problem stage = .ok result

variable {executor problem code}

theorem passed_of_program_none {testCase : TestCase} {index : ℕ}
    (hprogram : executor.program code testCase problem = none) :
    (executor.executeSingleTest code testCase index problem).passed = false := by
  simp only [SandboxExecutor.executeSingleTest, hprogram]

/-- The position of a case is not judged. -/
theorem passed_index (testCase : TestCase) (index : ℕ) :
    (executor.executeSingleTest code testCase index problem).passed =
      (executor.executeSingleTest code testCase 0 problem).passed := by
  cases hprogram : executor.program code testCase problem with
  | none => rw [passed_of_program_none hprogram, passed_of_program_none hprogram]
  | some program =>
      cases hrun : executor.run program with
      | returned output late =>
          cases late with
          | some elapsed =>
              simp only [SandboxExecutor.executeSingleTest, hprogram, hrun]
              split_ifs
              · cases executor.parseStdoutOutput output testCase.expectedOutput
                  problem.judgeConfig with
                | none => rfl
                | some actual => rfl
              · rfl
          | none =>
              simp only [SandboxExecutor.executeSingleTest, hprogram, hrun]
              split_ifs
              · cases executor.parseStdoutOutput output testCase.expectedOutput
                  problem.judgeConfig with
                | none => rfl
                | some actual =>
                    dsimp only
                    cases executor.compareOutputs actual testCase.expectedOutput
                        problem.judgeConfig _ with
                    | error message => rfl
                    | ok passed => rfl
              · cases executor.compareOutputs output testCase.expectedOutput
                    problem.judgeConfig _ with
                | error message => rfl
                | ok passed => rfl
      | failed status message => simp only [SandboxExecutor.executeSingleTest, hprogram, hrun]
      | timedOut => simp only [SandboxExecutor.executeSingleTest, hprogram, hrun]
      | raised message => simp only [SandboxExecutor.executeSingleTest, hprogram, hrun]

/-- What a stage shows of each case, if the backend is there. -/
def judgements (executor : SandboxExecutor) (problem : Problem) (code : String)
    (testCases : List TestCase) : List TestCaseResult :=
  testCases.zipIdx.map fun (testCase, index) =>
    executor.executeSingleTest code testCase index problem

/-- Nothing can be invoked. -/
def NoEntry (executor : SandboxExecutor) (problem : Problem) : Prop :=
  problem.inputOutputMode = .function ∧ executor.entryPointParts problem.entryPoint = none

/-- The results a stage comes to: no case is run, every case fails for the backend, or every
case is judged. -/
theorem execute_cases {stage : Stage} (hsupported : problem.unsupported = false)
    {result : SandboxResult} (hresult : executor.execute code problem stage = .ok result) :
    ((NoEntry executor problem ∨ problem.testCasesFor stage = []) ∧
      result.testResults = [] ∧ result.allPassed = false) ∨
    (executor.unavailable.isSome ∧ problem.testCasesFor stage ≠ [] ∧ result.allPassed = false ∧
      ∀ other, executor.execute other problem stage = .ok result) ∨
    (executor.unavailable = none ∧ problem.testCasesFor stage ≠ [] ∧ ¬NoEntry executor problem ∧
      executor.validateCode code problem = true ∧ executor.checkImports code = none ∧
      result.testResults = judgements executor problem code (problem.testCasesFor stage) ∧
      result.allPassed = result.testResults.all (·.passed)) := by
  have hnoEntry : (decide (problem.inputOutputMode = .function) &&
      (executor.entryPointParts problem.entryPoint).isNone) = true ↔ NoEntry executor problem := by
    simp [NoEntry]
  rw [SandboxExecutor.execute] at hresult
  dsimp only at hresult
  rw [hsupported, if_neg Bool.false_ne_true] at hresult
  by_cases hentry : NoEntry executor problem
  · rw [if_pos (hnoEntry.mpr hentry)] at hresult
    cases hresult
    exact .inl ⟨.inl hentry, rfl, rfl⟩
  · rw [if_neg (mt hnoEntry.mp hentry)] at hresult
    by_cases hempty : problem.testCasesFor stage = []
    · rw [if_pos (List.isEmpty_iff.mpr hempty)] at hresult
      cases hresult
      exact .inl ⟨.inr hempty, rfl, rfl⟩
    · rw [if_neg (mt List.isEmpty_iff.mp hempty)] at hresult
      cases havailable : executor.unavailable with
      | some message =>
          right; left
          refine ⟨rfl, hempty, ?_, ?_⟩
          · rw [havailable] at hresult
            cases hresult
            rfl
          · intro other
            rw [SandboxExecutor.execute]
            dsimp only
            rw [hsupported, if_neg Bool.false_ne_true, if_neg (mt hnoEntry.mp hentry),
              if_neg (mt List.isEmpty_iff.mp hempty), havailable]
            rw [havailable] at hresult
            exact hresult
      | none =>
          right; right
          rw [havailable] at hresult
          dsimp only at hresult
          cases hvalid : executor.validateCode code problem with
          | false =>
              rw [hvalid] at hresult
              simp only [Bool.not_false, if_true] at hresult
              split_ifs at hresult
          | true =>
              rw [hvalid] at hresult
              simp only [Bool.not_true, Bool.false_eq_true, if_false] at hresult
              cases himports : executor.checkImports code with
              | some name =>
                  rw [himports] at hresult
                  cases hresult
              | none =>
                  rw [himports] at hresult
                  cases hresult
                  exact ⟨rfl, hempty, hentry, rfl, rfl, rfl, rfl⟩

/-- A case that cannot be invoked is not passed. -/
theorem not_passesAll_of_noEntry {testCases : List TestCase} (hcases : testCases ≠ [])
    (hentry : NoEntry executor problem) : ¬PassesAll executor problem code testCases := by
  intro hpasses
  obtain ⟨testCase, rest, rfl⟩ := List.exists_cons_of_ne_nil hcases
  have hprogram : executor.program code testCase problem = none := by
    rw [SandboxExecutor.program, hentry.1, hentry.2]
    rfl
  have hpassed := (hpasses testCase List.mem_cons_self).2
  rw [passed_of_program_none hprogram] at hpassed
  cases hpassed

theorem judgements_passed_iff (havailable : executor.unavailable = none)
    (testCases : List TestCase) :
    (judgements executor problem code testCases).all (·.passed) = true ↔
      PassesAll executor problem code testCases := by
  rw [List.all_eq_true, judgements]
  constructor
  · intro hall testCase hmem
    obtain ⟨index, hindex⟩ := List.mem_iff_getElem?.mp hmem
    have hpassed := hall _ (List.mem_map_of_mem (List.mk_mem_zipIdx_iff_getElem?.mpr hindex))
    exact ⟨havailable, by rwa [passed_index] at hpassed⟩
  · intro hpasses judged hmem
    obtain ⟨⟨testCase, index⟩, hindex, rfl⟩ := List.mem_map.mp hmem
    rw [passed_index]
    exact (hpasses testCase (List.fst_mem_of_mem_zipIdx hindex)).2

/-- A stage is passed exactly if there are cases and the program passes them all. -/
theorem allPassed_iff {stage : Stage} (hsupported : problem.unsupported = false)
    {result : SandboxResult} (hresult : executor.execute code problem stage = .ok result) :
    result.allPassed = true ↔
      problem.testCasesFor stage ≠ [] ∧
        PassesAll executor problem code (problem.testCasesFor stage) := by
  rcases execute_cases hsupported hresult with ⟨hnone, -, hfailed⟩ |
    ⟨hunavailable, hcases, hfailed, -⟩ | ⟨havailable, hcases, -, -, -, hresults, hall⟩
  · rw [hfailed]
    apply iff_of_false Bool.false_ne_true
    rintro ⟨hcases, hpasses⟩
    rcases hnone with hentry | hempty
    · exact not_passesAll_of_noEntry hcases hentry hpasses
    · exact hcases hempty
  · rw [hfailed]
    apply iff_of_false Bool.false_ne_true
    rintro ⟨-, hpasses⟩
    obtain ⟨testCase, rest, heq⟩ := List.exists_cons_of_ne_nil hcases
    have hpassed := hpasses testCase (by rw [heq]; exact List.mem_cons_self)
    rw [hpassed.1] at hunavailable
    cases hunavailable
  · rw [hall, hresults, judgements_passed_iff havailable]
    exact (and_iff_right hcases).symm

/-- When the sandbox does not raise. -/
theorem runs_iff {stage : Stage} (hsupported : problem.unsupported = false) :
    Runs executor problem code stage ↔
      NoEntry executor problem ∨ problem.testCasesFor stage = [] ∨ executor.unavailable.isSome ∨
        (executor.validateCode code problem = true ∧ executor.checkImports code = none) := by
  constructor
  · rintro ⟨result, hresult⟩
    rcases execute_cases hsupported hresult with ⟨hentry | hempty, -⟩ | ⟨hunavailable, -⟩ |
      ⟨-, -, -, hvalid, himports, -⟩
    · exact .inl hentry
    · exact .inr (.inl hempty)
    · exact .inr (.inr (.inl hunavailable))
    · exact .inr (.inr (.inr ⟨hvalid, himports⟩))
  · intro hcases
    rw [Runs, SandboxExecutor.execute]
    dsimp only
    rw [hsupported, if_neg Bool.false_ne_true]
    by_cases hentry : (decide (problem.inputOutputMode = .function) &&
        (executor.entryPointParts problem.entryPoint).isNone) = true
    · exact ⟨_, if_pos hentry⟩
    · rw [if_neg hentry]
      by_cases hempty : (problem.testCasesFor stage).isEmpty = true
      · exact ⟨_, if_pos hempty⟩
      · rw [if_neg hempty]
        cases havailable : executor.unavailable with
        | some message => exact ⟨_, rfl⟩
        | none =>
            have hnoEntry : ¬NoEntry executor problem := by simpa [NoEntry] using hentry
            have hcasesNe : problem.testCasesFor stage ≠ [] := mt List.isEmpty_iff.mpr hempty
            simp only [hnoEntry, hcasesNe, havailable, Option.isSome_none, Bool.false_eq_true,
              false_or] at hcases
            rw [hcases.1, hcases.2]
            exact ⟨_, rfl⟩

/-- Without the hidden cases a program raises in no more stages. -/
theorem runs_withoutHidden {stage : Stage} (hsupported : problem.unsupported = false)
    (hruns : Runs executor problem code stage) :
    Runs executor (withoutHidden problem) code stage := by
  have hsame : (withoutHidden problem).unsupported = false := hsupported
  rw [runs_iff hsupported] at hruns
  rw [runs_iff hsame]
  apply hruns.imp_right
  apply Or.imp_left
  intro hempty
  cases stage with
  | hidden => rfl
  | all =>
      simp only [Problem.testCasesFor, List.append_eq_nil_iff] at hempty
      simp [Problem.testCasesFor, withoutHidden, hempty]
  | pub => exact hempty
  | feedback => exact hempty
  | allVisible => exact hempty

/-! ## The ways of testing -/

/-- The sandbox has not raised on any of the runs. -/
def AllRun (executor : SandboxExecutor) (problem : Problem) (executions : List (String × Stage)) :
    Prop :=
  ∀ execution ∈ executions, Runs executor problem execution.1 execution.2

theorem testStage_eq {stage : Stage} {result : SandboxResult}
    (hresult : executor.execute code problem stage = .ok result) :
    testStage executor problem stage code =
      { sandboxResult := some result, success := result.allPassed,
        executions := [(code, stage)] } := by
  rw [testStage, hresult]

theorem executions_testStage (stage : Stage) :
    (testStage executor problem stage code).executions = [(code, stage)] := by
  rw [testStage]
  split
  · rfl
  · rfl

theorem testStage_sandboxError {stage : Stage}
    (hruns : AllRun executor problem (testStage executor problem stage code).executions) :
    (testStage executor problem stage code).sandboxError = none := by
  rw [executions_testStage] at hruns
  obtain ⟨result, hresult⟩ := hruns (code, stage) List.mem_cons_self
  rw [testStage_eq hresult]

theorem testStage_success_iff {stage : Stage} (hsupported : problem.unsupported = false)
    (hruns : AllRun executor problem (testStage executor problem stage code).executions) :
    (testStage executor problem stage code).success = true ↔
      problem.testCasesFor stage ≠ [] ∧
        PassesAll executor problem code (problem.testCasesFor stage) := by
  rw [executions_testStage] at hruns
  obtain ⟨result, hresult⟩ := hruns (code, stage) List.mem_cons_self
  rw [testStage_eq hresult]
  exact allPassed_iff hsupported hresult

/-- The cases of the stage that most strategies look at. -/
def firstStageCases (problem : Problem) : List TestCase :=
  if problem.publicTestCases = [] then problem.feedbackTestCases else problem.publicTestCases

theorem testFirstStage_success_iff (hsupported : problem.unsupported = false)
    (hruns : AllRun executor problem (testFirstStage executor problem code).executions) :
    (testFirstStage executor problem code).success = true ↔
      PassesAll executor problem code (firstStageCases problem) := by
  by_cases hpublic : problem.publicTestCases = []
  · by_cases hfeedback : problem.feedbackTestCases = []
    · simp [testFirstStage, firstStageCases, hpublic, hfeedback, PassesAll]
    · have hfirst : testFirstStage executor problem code =
          testStage executor problem .feedback code := by
        simp [testFirstStage, hpublic, hfeedback]
      rw [hfirst] at hruns ⊢
      rw [testStage_success_iff hsupported hruns, firstStageCases, if_pos hpublic]
      exact and_iff_right hfeedback
  · have hfirst : testFirstStage executor problem code = testStage executor problem .pub code := by
      simp [testFirstStage, hpublic]
    rw [hfirst] at hruns ⊢
    rw [testStage_success_iff hsupported hruns, firstStageCases, if_neg hpublic]
    exact and_iff_right hpublic

theorem testRound_pub (hfeedback : problem.feedbackTestCases = []) :
    testRound executor problem code =
      if problem.publicTestCases = [] then { success := true }
      else testStage executor problem .pub code := by
  rw [testRound, hfeedback]
  by_cases hpublic : problem.publicTestCases = []
  · rw [hpublic]
    rfl
  · rw [List.isEmpty_eq_false_iff.mpr hpublic, if_neg hpublic, testStage]
    cases executor.execute code problem .pub with
    | ok result => rfl
    | error message => rfl

theorem testRound_feedback (hpublic : problem.publicTestCases = [])
    (hfeedback : problem.feedbackTestCases ≠ []) :
    testRound executor problem code = testStage executor problem .feedback code := by
  rw [testRound, hpublic, List.isEmpty_eq_false_iff.mpr hfeedback, testStage, testStage]
  cases executor.execute code problem .feedback with
  | ok result => rfl
  | error message => rfl

/-- Both stages: the second is run unless the first raises. -/
theorem testRound_both (hpublic : problem.publicTestCases ≠ [])
    (hfeedback : problem.feedbackTestCases ≠ []) :
    testRound executor problem code =
      match executor.execute code problem .pub with
      | .error message => { sandboxError := some message, executions := [(code, .pub)] }
      | .ok first =>
          match executor.execute code problem .feedback with
          | .error message =>
              { sandboxResult := some first, sandboxError := some message,
                success := first.allPassed, executions := [(code, .feedback), (code, .pub)] }
          | .ok second =>
              { sandboxResult := some (mergeSandboxResults first second),
                success := first.allPassed && second.allPassed,
                executions := [(code, .feedback), (code, .pub)] } := by
  rw [testRound, List.isEmpty_eq_false_iff.mpr hpublic, List.isEmpty_eq_false_iff.mpr hfeedback,
    testStage, testStage]
  cases executor.execute code problem .pub with
  | error message => rfl
  | ok first =>
      cases executor.execute code problem .feedback with
      | error message => rfl
      | ok second => rfl

/-- Both stages come to a result if neither raises. -/
theorem testRound_both_run (hpublic : problem.publicTestCases ≠ [])
    (hfeedback : problem.feedbackTestCases ≠ [])
    (hruns : AllRun executor problem (testRound executor problem code).executions) :
    ∃ first second, executor.execute code problem .pub = .ok first ∧
      executor.execute code problem .feedback = .ok second := by
  rw [testRound_both hpublic hfeedback] at hruns
  cases hfirst : executor.execute code problem .pub with
  | error message =>
      rw [hfirst] at hruns
      obtain ⟨result, hresult⟩ := hruns (code, .pub) List.mem_cons_self
      rw [hfirst] at hresult
      cases hresult
  | ok first =>
      cases hsecond : executor.execute code problem .feedback with
      | error message =>
          rw [hfirst, hsecond] at hruns
          obtain ⟨result, hresult⟩ := hruns (code, .feedback) List.mem_cons_self
          rw [hsecond] at hresult
          cases hresult
      | ok second => exact ⟨first, second, rfl, rfl⟩

/-- Without exceptions, a round is passed exactly if both visible stages are. -/
theorem testRound_success_iff (hsupported : problem.unsupported = false)
    (hruns : AllRun executor problem (testRound executor problem code).executions) :
    ((testRound executor problem code).success = true ↔
      PassesAll executor problem code (problem.publicTestCases ++ problem.feedbackTestCases)) ∧
    (testRound executor problem code).sandboxError = none := by
  by_cases hfeedback : problem.feedbackTestCases = []
  · rw [testRound_pub hfeedback] at hruns ⊢
    rw [hfeedback, List.append_nil]
    split_ifs at hruns ⊢ with hpublic
    · simp [hpublic, PassesAll]
    · rw [testStage_success_iff hsupported hruns]
      exact ⟨and_iff_right hpublic, testStage_sandboxError hruns⟩
  · by_cases hpublic : problem.publicTestCases = []
    · rw [testRound_feedback hpublic hfeedback] at hruns ⊢
      rw [testStage_success_iff hsupported hruns, hpublic, List.nil_append]
      exact ⟨and_iff_right hfeedback, testStage_sandboxError hruns⟩
    · obtain ⟨first, second, hfirst, hsecond⟩ := testRound_both_run hpublic hfeedback hruns
      rw [testRound_both hpublic hfeedback, hfirst, hsecond]
      dsimp only
      rw [Bool.and_eq_true, allPassed_iff hsupported hfirst, allPassed_iff hsupported hsecond]
      simp only [PassesAll, List.forall_mem_append]
      exact ⟨and_congr (and_iff_right hpublic) (and_iff_right hfeedback), trivial⟩

/-- `_execute_visible_tests` is the same round. -/
theorem executeVisibleTests_success_iff (hsupported : problem.unsupported = false)
    (hruns : AllRun executor problem (executeVisibleTests executor problem code).executions) :
    (executeVisibleTests executor problem code).success = true ↔
      PassesAll executor problem code (problem.publicTestCases ++ problem.feedbackTestCases) := by
  have hsame : (executeVisibleTests executor problem code).executions =
      (testRound executor problem code).executions := by
    rw [executeVisibleTests]
    split_ifs
    · rfl
    · rfl
  rw [hsame] at hruns
  obtain ⟨hpassed, herror⟩ := testRound_success_iff hsupported hruns
  rw [executeVisibleTests, herror]
  exact hpassed

theorem truthy_iff (text : Option String) : truthy text = true ↔ text.getD "" ≠ "" := by
  cases text with
  | none => simp [truthy]
  | some text => simp [truthy]

/-- A round with a result is a success if the result is. -/
theorem success_testRound {result : SandboxResult}
    (hresult : (testRound executor problem code).sandboxResult = some result) :
    (testRound executor problem code).success = result.allPassed := by
  have hstage {stage : Stage}
      (hresult : (testStage executor problem stage code).sandboxResult = some result) :
      (testStage executor problem stage code).success = result.allPassed := by
    rw [testStage] at hresult ⊢
    cases hrun : executor.execute code problem stage with
    | error message => rw [hrun] at hresult; cases hresult
    | ok shown => rw [hrun] at hresult; cases hresult; rfl
  by_cases hfeedback : problem.feedbackTestCases = []
  · rw [testRound_pub hfeedback] at hresult ⊢
    split_ifs at hresult ⊢
    exact hstage hresult
  · by_cases hpublic : problem.publicTestCases = []
    · rw [testRound_feedback hpublic hfeedback] at hresult ⊢
      exact hstage hresult
    · rw [testRound_both hpublic hfeedback] at hresult ⊢
      cases hfirst : executor.execute code problem .pub with
      | error message => rw [hfirst] at hresult; cases hresult
      | ok first =>
          cases hsecond : executor.execute code problem .feedback with
          | error message => rw [hfirst, hsecond] at hresult; cases hresult; rfl
          | ok second => rw [hfirst, hsecond] at hresult; cases hresult; rfl

/-- There is a program and it passes all of the cases. -/
def Meets (executor : SandboxExecutor) (problem : Problem) (testCases : List TestCase)
    (code : Option String) : Prop :=
  code.getD "" ≠ "" ∧ PassesAll executor problem (code.getD "") testCases

/-- A program that is not there passes nothing. -/
theorem testCode_success_iff {test : String → Tested} {testCases : List TestCase}
    (htest : ∀ code, AllRun executor problem (test code).executions →
      ((test code).success = true ↔ PassesAll executor problem code testCases))
    {code : Option String} (hruns : AllRun executor problem (testCode test code).executions) :
    (testCode test code).success = true ↔ Meets executor problem testCases code := by
  rw [Meets, ← truthy_iff]
  rw [testCode] at hruns ⊢
  split_ifs at hruns ⊢ with htruthy
  · rw [htest _ hruns]
    exact (and_iff_right htruthy).symm
  · exact iff_of_false id fun hboth => htruthy hboth.1

end Stages

end AlgorithmHarness.Strategies
