import AlgorithmHarness.Incremental.Provenance

/-!
# What incremental runs take over

A row taken over that is marked as completed is of an evaluation of the problem
as it is now, by the strategy and the model of the run.  The other rows are the
placeholders of units without a result, and nothing keeps them from being taken
over.
-/

namespace AlgorithmHarness.Incremental

open Harness TaskService Transition

variable {Details : Type} {print : Problem → String}
  {classify : EvaluationResult Details → Problem → Option Details}

/-! ## Runs -/

namespace Workspace

variable {output : OutputDir} {workspace next : Workspace Details}

/-- What the workspace holds of a run: its files have rows of completed
evaluations and placeholders only, and the history its fingerprint. -/
structure Sound (output : OutputDir) (print : Problem → String)
    (classify : EvaluationResult Details → Problem → Option Details)
    (workspace : Workspace Details) : Prop where
  files : ∀ runName task, workspace.task runName = some task →
    ∀ entry ∈ workspace.directory (output.resultPath runName), ∀ row ∈ entry.2,
      row.evaluationCompleted = true → Genuine print classify workspace.evaluations
        task.config.model entry.1 (currentFingerprint print task.config task.dataset) row
  unused : ∀ runName, workspace.task runName = none →
    workspace.directory (output.resultPath runName) = []
  records : ∀ record ∈ workspace.history.runs, ∃ runName task,
    workspace.task runName = some task ∧ record.resultPath = output.resultPath runName ∧
      record.model = task.config.model ∧
      record.datasetFingerprint = currentFingerprint print task.config task.dataset
  printed : ∀ runName task, workspace.task runName = some task →
    Fingerprinted print (currentFingerprint print task.config task.dataset) task.evaluated

theorem resultPath_injective : Function.Injective output.resultPath := by
  intro first second hsame
  have hlists := congrArg String.toList hsame
  simp only [OutputDir.resultPath, String.toList_append, List.append_cancel_left_eq] at hlists
  exact String.toList_inj.mp hlists

theorem Sound.empty : Sound output print classify ({} : Workspace Details) where
  files := nofun
  unused := fun _ _ => rfl
  records := nofun
  printed := nofun

/-- The task of a new run, or more evaluations of a resumed one. -/
theorem Sound.begin (hsound : Sound output print classify workspace) {runName : String}
    {task : Task} (hknown : ∀ known ∈ workspace.task runName, known = task)
    (hprinted : Fingerprinted print (currentFingerprint print task.config task.dataset)
      task.evaluated) (more : List (CompletedEvaluation Details)) :
    Sound output print classify
      { workspace with
        task := Function.update workspace.task runName (some task)
        evaluations := workspace.evaluations ++ more } := by
  have hkept : ∀ other given, workspace.task other = some given →
      Function.update workspace.task runName (some task) other = some given := by
    intro other given hgiven
    by_cases hother : other = runName
    · subst hother
      rw [Function.update_self, hknown given hgiven]
    · rw [Function.update_of_ne hother, hgiven]
  refine ⟨fun other given hgiven entry hentry row hrow hcompleted => ?_, fun other hnone => ?_,
    fun record hrecord => ?_, fun other given hgiven => ?_⟩
  · cases hbefore : workspace.task other with
    | none =>
        rw [hsound.unused other hbefore] at hentry
        cases hentry
    | some before =>
        have hsame := (hkept other before hbefore).symm.trans hgiven
        obtain rfl := Option.some.inj hsame
        exact (hsound.files other before hbefore entry hentry row hrow hcompleted).mono
          (List.subset_append_left ..)
  · apply hsound.unused other
    cases hbefore : workspace.task other with
    | none => rfl
    | some before => cases (hkept other before hbefore).symm.trans hnone
  · obtain ⟨other, given, hgiven, hrest⟩ := hsound.records record hrecord
    exact ⟨other, given, hkept other given hgiven, hrest⟩
  · by_cases hother : other = runName
    · subst hother
      simp only [Function.update_self] at hgiven
      exact Option.some.inj hgiven ▸ hprinted
    · simp only [Function.update_of_ne hother] at hgiven
      exact hsound.printed other given hgiven

theorem Sound.save (hsound : Sound output print classify workspace) {runName : String}
    {task : Task} (htask : workspace.task runName = some task) {results : ResultTable Details}
    (hresults : ∀ entry ∈ results, ∀ row ∈ entry.2, row.evaluationCompleted = true →
      Genuine print classify workspace.evaluations task.config.model entry.1
        (currentFingerprint print task.config task.dataset) row) :
    Sound output print classify (workspace.save output runName results) := by
  refine ⟨fun other given hgiven entry hentry row hrow hcompleted => ?_, fun other hnone => ?_,
    hsound.records, hsound.printed⟩
  · by_cases hother : other = runName
    · subst hother
      obtain rfl := Option.some.inj (htask.symm.trans hgiven)
      simp only [Workspace.save, Function.update_self] at hentry
      cases mem_saveResults hentry with
      | inl hbefore => exact hsound.files other task htask entry hbefore row hrow hcompleted
      | inr hnew => exact hresults entry hnew row hrow hcompleted
    · have hpath : output.resultPath other ≠ output.resultPath runName :=
        fun hsame => hother (resultPath_injective hsame)
      simp only [Workspace.save, Function.update_of_ne hpath] at hentry
      exact hsound.files other given hgiven entry hentry row hrow hcompleted
  · have hother : other ≠ runName := by
      rintro rfl
      cases htask.symm.trans hnone
    have hpath : output.resultPath other ≠ output.resultPath runName :=
      fun hsame => hother (resultPath_injective hsame)
    exact (Function.update_of_ne hpath ..).trans (hsound.unused other hnone)

theorem Sound.addRun (hsound : Sound output print classify workspace) {runName : String}
    {task : Task} (htask : workspace.task runName = some task) {record : RunRecord}
    (hpath : record.resultPath = output.resultPath runName)
    (hmodel : record.model = task.config.model)
    (hfingerprint : record.datasetFingerprint =
      currentFingerprint print task.config task.dataset) :
    Sound output print classify
      { workspace with history := workspace.history.addRun record } := by
  refine ⟨hsound.files, hsound.unused, fun other hother => ?_, hsound.printed⟩
  cases List.mem_append.mp hother with
  | inl hbefore => exact hsound.records other hbefore
  | inr hlast =>
      obtain rfl := List.mem_singleton.mp hlast
      exact ⟨runName, task, htask, hpath, hmodel, hfingerprint⟩

/-- A completed row that is taken over is of an evaluation of the problem as it is now. -/
theorem Sound.reuse (hsound : Sound output print classify workspace) {config : CliConfig}
    {dataset : List Problem} {reuse : Reuse Details}
    (hreuse : workspace.reuse print config dataset = some reuse)
    {entry : String × List (EvaluationResult Details)} {row : EvaluationResult Details}
    (hentry : entry ∈ reuse.historicalResults) (hrow : row ∈ entry.2)
    (hcompleted : row.evaluationCompleted = true) :
    Genuine print classify workspace.evaluations config.model entry.1
      (currentFingerprint print config dataset) row := by
  obtain ⟨-, -, run, hrun, hmodel, unchangedIds, hloaded, hkept⟩ := decideReuse_cases hreuse
  rw [hloaded] at hentry
  obtain ⟨file, hfile, hgroup, saved, hsaved, hid, rfl⟩ := mem_loadHistoricalResults hentry hrow
  obtain ⟨runName, task, htask, hpath, htaskmodel, hfingerprint⟩ := hsound.records run hrun
  rw [hpath] at hfile
  obtain ⟨-, evaluation, hevaluation, hevaluated, hevaluationgroup, hproblem, hfetch, hsame⟩ :=
    hsound.files runName task htask file hfile saved hsaved hcompleted
  refine ⟨hcompleted, evaluation, hevaluation, ?_, hevaluationgroup.trans hgroup, hproblem, ?_, ?_⟩
  · rw [hevaluated, ← htaskmodel, hmodel]
  · rw [hkept _ hid, hfingerprint]
    exact hfetch
  · exact congrArg (fun result => { result with source := ResultSource.reused }) hsame

/-- A row that is saved is of the run itself or taken over. -/
def Accounted (print : Problem → String)
    (classify : EvaluationResult Details → Problem → Option Details)
    (workspace : Workspace Details) (task : Task) (record : TaskRecord (EvaluationResult Details))
    (results : ResultTable Details) : Prop :=
  ∀ entry ∈ results, ∀ row ∈ entry.2,
    (∃ own ∈ harnessResults classify task.config task.evaluated record,
      own.1 = entry.1 ∧ row ∈ own.2) ∨
    ∃ reuse, workspace.reuse print task.config task.dataset = some reuse ∧
      ∃ old ∈ reuse.historicalResults, old.1 = entry.1 ∧ row ∈ old.2

theorem results_accounted (config : CliConfig) (dataset : List Problem)
    (record : TaskRecord (EvaluationResult Details)) :
    Accounted print classify workspace ⟨config, dataset, workspace.evaluated print config dataset⟩
      record (workspace.results print classify config dataset record) := by
  intro entry hentry row hrow
  unfold Workspace.results at hentry
  cases hreuse : workspace.reuse print config dataset with
  | none =>
      rw [hreuse] at hentry
      exact .inl ⟨entry, hentry, rfl, hrow⟩
  | some reuse =>
      rw [hreuse] at hentry
      cases mem_mergeResults hentry hrow with
      | inl hnew => exact .inl hnew
      | inr hold => exact .inr ⟨reuse, rfl, hold⟩

/-- The workspace when the task of a run has ended. -/
def ended (workspace : Workspace Details) (runName : String) (task : Task)
    (record : TaskRecord (EvaluationResult Details)) : Workspace Details :=
  { workspace with
    task := Function.update workspace.task runName (some task)
    evaluations := workspace.evaluations ++
      completedEvaluations task.config task.evaluated record }

/-- What one run does: a new run or a resumed one, whose results are saved or
not, and of a new one recorded or not. -/
theorem step_cases {label : CliRun Details}
    (hstep : workspace.step output print classify label = some next) :
    ∃ runName task results, Fits task.config task.evaluated label.record ∧
      Accounted print classify workspace task label.record results ∧
      (workspace.task runName = some task ∨
        workspace.task runName = none ∧ startable task.config task.evaluated = true ∧
          task.evaluated = workspace.evaluated print task.config task.dataset ∧
          (Loaded workspace label → task.config.filters.limit = 0 ∨
            task.config.difficultyStrategy = [] ∨
            (task.dataset.map Problem.problemId).Nodup)) ∧
      (next = workspace.ended runName task label.record ∨
        label.ending ≠ .interrupted ∧
          (next = (workspace.ended runName task label.record).save output runName results ∨
            ∃ timestamp, next =
              { (workspace.ended runName task label.record).save output runName results with
                history := workspace.history.addRun (runRecord output task.config runName
                  timestamp (currentFingerprint print task.config task.dataset) results) })) := by
  cases label with
  | evaluate runName timestamp config dataset record ending =>
      simp only [step] at hstep
      split_ifs at hstep with hguard
      obtain ⟨hnone, hstartable, hfits⟩ := hguard
      refine ⟨runName, ⟨config, dataset, workspace.evaluated print config dataset⟩,
        workspace.results print classify config dataset record, hfits,
        results_accounted config dataset record, .inr ⟨hnone, hstartable, rfl, id⟩, ?_⟩
      cases ending with
      | interrupted => exact .inl (Option.some.inj hstep).symm
      | saved => exact .inr ⟨nofun, .inl (Option.some.inj hstep).symm⟩
      | recorded => exact .inr ⟨nofun, .inr ⟨timestamp, (Option.some.inj hstep).symm⟩⟩
  | resume runName record ending =>
      obtain ⟨task, htask, hresumed⟩ := Option.bind_eq_some_iff.mp hstep
      split_ifs at hresumed with hfits
      have hended : workspace.ended runName task record =
          { workspace with
            evaluations := workspace.evaluations ++
              completedEvaluations task.config task.evaluated record } := by
        rw [ended, ← htask, Function.update_eq_self]
      refine ⟨runName, task, harnessResults classify task.config task.evaluated record, hfits,
        fun entry hentry row hrow => .inl ⟨entry, hentry, rfl, hrow⟩, .inl htask, ?_⟩
      rw [CliRun.record, hended]
      cases ending with
      | interrupted => exact .inl (Option.some.inj hresumed).symm
      | saved => exact .inr ⟨nofun, .inl (Option.some.inj hresumed).symm⟩
      | recorded => exact .inr ⟨nofun, .inl (Option.some.inj hresumed).symm⟩

theorem Sound.step (hsound : Sound output print classify workspace) {label : CliRun Details}
    (hloaded : Loaded workspace label)
    (hstep : workspace.step output print classify label = some next) :
    Sound output print classify next := by
  obtain ⟨runName, task, results, hfits, haccounted, htask, hnext⟩ := step_cases hstep
  have hprinted : Fingerprinted print (currentFingerprint print task.config task.dataset)
      task.evaluated := by
    cases htask with
    | inl hknown => exact hsound.printed runName task hknown
    | inr hnew =>
        obtain ⟨-, hstartable, hevaluated, hlimit⟩ := hnew
        rw [hevaluated] at hstartable ⊢
        exact fingerprinted_evaluated hstartable (hlimit hloaded)
  have hknown : ∀ known ∈ workspace.task runName, known = task := by
    intro known hmem
    cases htask with
    | inl hsame => exact (Option.some.inj (hsame.symm.trans hmem)).symm
    | inr hnew => cases hnew.1.symm.trans hmem
  have hended : Sound output print classify (workspace.ended runName task label.record) :=
    hsound.begin hknown hprinted _
  have hheld : (workspace.ended runName task label.record).task runName = some task :=
    Function.update_self ..
  have hresults : ∀ entry ∈ results, ∀ row ∈ entry.2, row.evaluationCompleted = true →
      Genuine print classify (workspace.ended runName task label.record).evaluations
        task.config.model entry.1 (currentFingerprint print task.config task.dataset) row := by
    intro entry hentry row hrow hcompleted
    cases haccounted entry hentry row hrow with
    | inl hown =>
        obtain ⟨own, hown, hgroup, hrow⟩ := hown
        cases harnessResults_cases hown hrow with
        | inl hunit =>
            obtain ⟨unit, hunit, hunitgroup, hresult⟩ := hunit
            have hgenuine := (unitResult_genuine hfits hprinted hunit hresult).2
            rw [hunitgroup, hgroup] at hgenuine
            exact hgenuine.mono (List.subset_append_right ..)
        | inr hplaceholder => exact absurd hcompleted (Bool.eq_false_iff.mp hplaceholder.1)
    | inr hold =>
        obtain ⟨reuse, hreuse, old, hold, hgroup, hrow⟩ := hold
        have hgenuine := hsound.reuse hreuse hold hrow hcompleted
        rw [hgroup] at hgenuine
        exact hgenuine.mono (List.subset_append_left ..)
  obtain rfl | ⟨-, rfl | ⟨timestamp, rfl⟩⟩ := hnext
  · exact hended
  · exact hended.save hheld hresults
  · exact (hended.save hheld hresults).addRun hheld rfl rfl rfl

theorem Sound.run {steps : List (CliRun Details)} {final : Workspace Details}
    (hsound : Sound output print classify workspace)
    (hloaded : StepsMeet (Workspace.step output print classify) Loaded workspace steps)
    (hrun : Transition.run (Workspace.step output print classify) workspace steps = some final) :
    Sound output print classify final := by
  induction steps generalizing workspace with
  | nil =>
      obtain rfl : workspace = final := by simpa using hrun
      exact hsound
  | cons label steps ih =>
      obtain ⟨next, hstep, hrest⟩ := run_cons_eq_some.mp hrun
      exact ih (hsound.step hloaded.1 hstep) (hloaded.2 next hstep) hrest

/-- No file holds a placeholder. -/
def AllCompleted (workspace : Workspace Details) : Prop :=
  ∀ path, ∀ entry ∈ workspace.directory path, ∀ row ∈ entry.2, row.evaluationCompleted = true

/-- Every unit of a run that is saved has a result. -/
def Finished (_ : Workspace Details) (label : CliRun Details) : Prop :=
  label.ending = .interrupted ∨ ∀ unit ∈ label.record.units, unit.result.isSome = true

theorem AllCompleted.reuse (hcompleted : AllCompleted workspace) {config : CliConfig}
    {dataset : List Problem} {reuse : Reuse Details}
    (hreuse : workspace.reuse print config dataset = some reuse)
    {entry : String × List (EvaluationResult Details)} {row : EvaluationResult Details}
    (hentry : entry ∈ reuse.historicalResults) (hrow : row ∈ entry.2) :
    row.evaluationCompleted = true := by
  obtain ⟨-, -, run, -, -, unchangedIds, hloaded, -⟩ := decideReuse_cases hreuse
  rw [hloaded] at hentry
  obtain ⟨file, hfile, -, saved, hsaved, -, rfl⟩ := mem_loadHistoricalResults hentry hrow
  exact hcompleted _ file hfile saved hsaved

theorem AllCompleted.step (hcompleted : AllCompleted workspace) {label : CliRun Details}
    (hfinished : Finished workspace label)
    (hstep : workspace.step output print classify label = some next) : AllCompleted next := by
  obtain ⟨runName, task, results, hfits, haccounted, -, hnext⟩ := step_cases hstep
  have hsaved : label.ending ≠ .interrupted →
      AllCompleted ((workspace.ended runName task label.record).save output runName results) := by
    intro hended path entry hentry row hrow
    have hunits := hfinished.resolve_left hended
    by_cases hpath : path = output.resultPath runName
    · subst hpath
      simp only [Workspace.save, Function.update_self] at hentry
      cases mem_saveResults hentry with
      | inl hbefore => exact hcompleted _ entry hbefore row hrow
      | inr hnew =>
          cases haccounted entry hnew row hrow with
          | inl hown =>
              obtain ⟨own, hown, -, hrow⟩ := hown
              exact harnessResults_completed hfits hunits hown hrow
          | inr hold =>
              obtain ⟨reuse, hreuse, old, hold, -, hrow⟩ := hold
              exact hcompleted.reuse hreuse hold hrow
    · simp only [Workspace.save, Function.update_of_ne hpath] at hentry
      exact hcompleted path entry hentry row hrow
  obtain rfl | ⟨hended, rfl | ⟨timestamp, rfl⟩⟩ := hnext
  · exact hcompleted
  · exact hsaved hended
  · exact hsaved hended

theorem AllCompleted.run {steps : List (CliRun Details)} {final : Workspace Details}
    (hcompleted : AllCompleted workspace)
    (hfinished : StepsMeet (Workspace.step output print classify) Finished workspace steps)
    (hrun : Transition.run (Workspace.step output print classify) workspace steps = some final) :
    AllCompleted final := by
  induction steps generalizing workspace with
  | nil =>
      obtain rfl : workspace = final := by simpa using hrun
      exact hcompleted
  | cons label steps ih =>
      obtain ⟨next, hstep, hrest⟩ := run_cons_eq_some.mp hrun
      exact ih (hcompleted.step hfinished.1 hstep) (hfinished.2 next hstep) hrest

/-- A row that a run merges as reused. -/
structure Reused (print : Problem → String)
    (classify : EvaluationResult Details → Problem → Option Details)
    (workspace : Workspace Details) (config : CliConfig) (dataset : List Problem)
    (record : TaskRecord (EvaluationResult Details)) (group : String)
    (row : EvaluationResult Details) : Prop where
  merged : ∃ rows, (group, rows) ∈ workspace.results print classify config dataset record ∧
    row ∈ rows
  source : row.source = .reused

theorem Reused.taken {config : CliConfig} {dataset : List Problem}
    {record : TaskRecord (EvaluationResult Details)} {group : String}
    {row : EvaluationResult Details}
    (hreused : Reused print classify workspace config dataset record group row)
    (hfits : Fits config (workspace.evaluated print config dataset) record) :
    ∃ reuse, workspace.reuse print config dataset = some reuse ∧
      ∃ old ∈ reuse.historicalResults, old.1 = group ∧ row ∈ old.2 := by
  obtain ⟨⟨rows, hentry, hrow⟩, hsource⟩ := hreused
  apply (results_accounted config dataset record _ hentry row hrow).resolve_left
  intro hown
  obtain ⟨own, hown, -, hrow⟩ := hown
  have hfresh : row.source = .fresh := by
    cases harnessResults_cases hown hrow with
    | inr hplaceholder => exact hplaceholder.2
    | inl hunit =>
        obtain ⟨unit, hunit, -, hresult⟩ := hunit
        obtain ⟨result, hunitresult, hmapped⟩ := Option.bind_eq_some_iff.mp hresult
        obtain ⟨problem, -, rfl⟩ := Option.map_eq_some_iff.mp hmapped
        rw [(annotateFailureMode_kept result problem).2.2]
        exact (hfits.2 unit hunit result hunitresult).2.2
  rw [hfresh] at hsource
  cases hsource

/-- After any runs that load the problems their fingerprint is of, a row that
the next run merges as reused is of a completed evaluation exactly if it is no
placeholder; and all such rows are if every run saved had a result for each of
its units. -/
theorem reused_completed_of_finished (output : OutputDir) (print : Problem → String)
    (classify : EvaluationResult Details → Problem → Option Details)
    (steps : List (CliRun Details)) (final : Workspace Details)
    (hrun : Transition.run (step output print classify) {} steps = some final)
    (hloaded : StepsMeet (step output print classify) Loaded {} steps)
    (config : CliConfig) (dataset : List Problem) (record : TaskRecord (EvaluationResult Details))
    (hfits : Fits config (final.evaluated print config dataset) record) :
    (∀ group row, Reused print classify final config dataset record group row →
      (Genuine print classify final.evaluations config.model group
        (currentFingerprint print config dataset) row ↔ row.evaluationCompleted = true)) ∧
      (StepsMeet (step output print classify) Finished {} steps →
        ∀ group row, Reused print classify final config dataset record group row →
          Genuine print classify final.evaluations config.model group
            (currentFingerprint print config dataset) row) := by
  have hsound : Sound output print classify final := Sound.empty.run hloaded hrun
  have hgenuine : ∀ group row, Reused print classify final config dataset record group row →
      row.evaluationCompleted = true → Genuine print classify final.evaluations config.model group
        (currentFingerprint print config dataset) row := by
    intro group row hreused hcompleted
    obtain ⟨reuse, hreuse, old, hold, rfl, hrow⟩ := hreused.taken hfits
    exact hsound.reuse hreuse hold hrow hcompleted
  constructor
  · intro group row hreused
    exact ⟨fun hrow => hrow.1, hgenuine group row hreused⟩
  · intro hfinished group row hreused
    have hempty : AllCompleted ({} : Workspace Details) := nofun
    have hall : AllCompleted final := hempty.run hfinished hrun
    obtain ⟨reuse, hreuse, old, hold, -, hrow⟩ := hreused.taken hfits
    exact hgenuine group row hreused (hall.reuse hreuse hold hrow)

/-! ### A paused run -/

def exercise (problemId : String) : Problem where
  problemId
  title := problemId
  description := "Return the sum of the numbers."
  difficulty := .easy
  tags := []
  constraints := none
  inputOutputMode := .function
  entryPoint := "solve"
  judgeConfig := ⟨.exact, "1e-06", .trim, .auto⟩
  unsupportedReason := none
  publicTestCases := [⟨.dict [("nums", .list [.int 1, .int 2])], .int 3, .pub, none⟩]
  feedbackTestCases := []
  hiddenTestCases := []

def vanilla : CliConfig := ⟨["vanilla"], "gpt-4", [], {}⟩

/-- A unit that has run. -/
def solved (problemId : String) : TaskUnit (EvaluationResult Unit) :=
  { taskUnit "vanilla" problemId with
    status := .completed
    result := some
      { problemId, strategy := "vanilla", generatedCode := "", status := "success" } }

def taskRecord (state : TaskState) (units : List (TaskUnit (EvaluationResult Unit))) :
    TaskRecord (EvaluationResult Unit) where
  runId := "run-1"
  state
  configFingerprint := ""
  datasetFingerprint := ""
  totalUnits := units.length
  units

def firstRun (record : TaskRecord (EvaluationResult Unit)) : List (CliRun Unit) :=
  [.evaluate "run-1" "2026-01-01T00:00:00+00:00" vanilla [exercise "a", exercise "b"] record
    .recorded]

/-- A complete run over two problems; the next one has a third. -/
theorem reused_completed_of_finished_complete :
    ∃ final, Transition.run (step ⟨"results", "results"⟩ Problem.title fun _ _ => none) {}
        (firstRun (taskRecord .completed [solved "a", solved "b"])) = some final ∧
      ∀ group row, Reused Problem.title (fun _ _ => none) final vanilla
          [exercise "a", exercise "b", exercise "c"] (taskRecord .completed [solved "c"]) group
          row →
        Genuine Problem.title (fun _ _ => none) final.evaluations "gpt-4" group
          (currentFingerprint Problem.title vanilla [exercise "a", exercise "b", exercise "c"])
          row :=
  ⟨_, rfl, (reused_completed_of_finished ⟨"results", "results"⟩ Problem.title (fun _ _ => none)
    (firstRun (taskRecord .completed [solved "a", solved "b"])) _ rfl
    ⟨.inl rfl, fun _ _ => trivial⟩ vanilla [exercise "a", exercise "b", exercise "c"]
    (taskRecord .completed [solved "c"]) (by decide)).2
    ⟨.inr (by decide), fun _ _ => trivial⟩⟩

/-- The placeholder of a unit that was not run is taken over. -/
theorem placeholder_taken_over :
    ¬ ∀ (steps : List (CliRun Unit)) (final : Workspace Unit) (config : CliConfig)
      (dataset : List Problem) (record : TaskRecord (EvaluationResult Unit)),
      Transition.run (step ⟨"results", "results"⟩ Problem.title fun _ _ => none) {} steps =
        some final →
      Fits config (final.evaluated Problem.title config dataset) record →
      ∀ group row, Reused Problem.title (fun _ _ => none) final config dataset record group row →
        Genuine Problem.title (fun _ _ => none) final.evaluations config.model group
          (currentFingerprint Problem.title config dataset) row := by
  intro hclaim
  have hrow := hclaim (firstRun (taskRecord .paused [solved "a", taskUnit "vanilla" "b"])) _ vanilla
    [exercise "a", exercise "b", exercise "c"] (taskRecord .completed [solved "c"]) rfl (by decide)
    "vanilla"
    { problemId := "b", strategy := "vanilla", generatedCode := "", status := "cancelled"
      evaluationCompleted := false, source := .reused, difficulty := some .easy
      errorMessage := some "Not run: budget cap reached" }
    ⟨⟨_, List.mem_singleton.mpr rfl, by decide⟩, rfl⟩
  cases hrow.1

end Workspace

end AlgorithmHarness.Incremental
