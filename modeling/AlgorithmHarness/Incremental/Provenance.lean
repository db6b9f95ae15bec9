import AlgorithmHarness.Incremental.Reuse

/-!
# Where the rows of a run come from

The problem evaluated under an id is the one that the fingerprint is of.  A row
of a run is of the result of a unit, or a placeholder, or taken over from the
files of an earlier run.
-/

namespace AlgorithmHarness.Incremental

open Harness TaskService Transition

variable {Details : Type} {print : Problem → String}
  {classify : EvaluationResult Details → Problem → Option Details}

/-! ## The problems that are evaluated -/

theorem applyLimit_sublist (filters : ProblemFilters) (problems : List Problem) :
    (filters.applyLimit problems).Sublist problems := by
  unfold ProblemFilters.applyLimit
  split_ifs
  · exact .refl _
  · exact List.take_sublist ..

theorem filter_applyLimit (filters : ProblemFilters) (problems : List Problem)
    (select : Problem → Bool) :
    (filters.applyLimit problems).filter select <+:
      filters.applyLimit (problems.filter select) := by
  unfold ProblemFilters.applyLimit
  split_ifs
  · exact List.prefix_rfl
  · rw [List.prefix_take_iff]
    exact ⟨(List.take_prefix ..).filter select,
      (List.length_filter_le ..).trans (List.length_take_le ..)⟩

/-- The filter of a run that takes over results, for ids that its own filter let through. -/
theorem filterProblems_changed {dataset : List Problem} {filters : ProblemFilters}
    {changedIds : List String} (hsome : changedIds ≠ [])
    (hloaded : ∀ id ∈ changedIds, id ∈ (filterProblems dataset filters).map Problem.problemId) :
    filterProblems dataset { filters with problemIds := changedIds } =
      filters.applyLimit ((dataset.filter filters.admits).filter
        fun problem => problem.problemId ∈ changedIds) := by
  rw [filterProblems, List.filter_filter]
  have hadmits : ∀ problem : Problem,
      ProblemFilters.admits { filters with problemIds := changedIds } problem =
        (decide (problem.problemId ∈ changedIds) && filters.admits problem) := by
    intro problem
    by_cases hchanged : problem.problemId ∈ changedIds
    · obtain ⟨other, hother, hid⟩ := List.mem_map.mp (hloaded _ hchanged)
      have hpassed := List.of_mem_filter ((applyLimit_sublist ..).mem hother)
      simp only [ProblemFilters.admits, Bool.and_eq_true, hid] at hpassed
      simp [ProblemFilters.admits, hchanged, hpassed.1.1]
    · simp [ProblemFilters.admits, hchanged, hsome]
  rw [List.filter_congr fun problem _ => hadmits problem]
  rfl

theorem problemMap_filter {problems : List Problem} {ids : List String} {id : String}
    (hid : id ∈ ids) :
    problemMap (problems.filter fun problem => problem.problemId ∈ ids) id =
      problemMap problems id := by
  rw [problemMap, problemMap, ← List.filter_reverse, List.find?_filter]
  congr 1
  funext problem
  by_cases hsame : problem.problemId = id <;> simp [hsame, hid]

/-- The units of one strategy are of different problems, so a dataset with two
problems of one id is refused unless each of them has its own strategy. -/
theorem nodup_of_startable {config : CliConfig} {problems : List Problem}
    (hstartable : startable config problems = true) (hplain : config.difficultyStrategy = []) :
    (problems.map Problem.problemId).Nodup := by
  simp only [startable, Bool.and_eq_true, decide_eq_true_eq] at hstartable
  obtain ⟨⟨⟨⟨-, hstrategies⟩, -⟩, -⟩, hunits⟩ := hstartable
  rw [createUnits, if_pos hplain] at hunits
  cases hlist : config.strategies with
  | nil => exact absurd hlist hstrategies
  | cons strategy rest =>
      rw [hlist, List.flatMap_cons, List.map_append] at hunits
      have hfirst := (List.nodup_append.mp hunits).1
      have hids : (problems.map fun problem => (taskUnit strategy problem.problemId :
          TaskUnit (EvaluationResult Unit))).map (·.unitId) =
          (problems.map Problem.problemId).map fun id => strategy ++ ":" ++ id ++ ":0" := by
        rw [List.map_map, List.map_map]
        rfl
      rw [hids] at hfirst
      exact hfirst.of_map

/-- Two problems of one id are both in the dataset, and the limit may cut
between them. -/
def Loaded (_ : Workspace Details) : CliRun Details → Prop
  | .evaluate _ _ config dataset _ _ =>
      config.filters.limit = 0 ∨ config.difficultyStrategy = [] ∨
        (dataset.map Problem.problemId).Nodup
  | .resume .. => True

/-- The problem evaluated under an id is the one that the fingerprint is of. -/
theorem problemMap_evaluated {config : CliConfig} {dataset : List Problem}
    {changedIds : List String} (hsome : changedIds ≠ [])
    (hchanged : ∀ id ∈ changedIds,
      id ∈ (filterProblems dataset config.filters).map Problem.problemId)
    (hloaded : config.filters.limit = 0 ∨ ((filterProblems dataset
      { config.filters with problemIds := changedIds }).map Problem.problemId).Nodup)
    {id : String} {problem : Problem}
    (hfound : problemMap (filterProblems dataset
      { config.filters with problemIds := changedIds }) id = some problem) :
    problemMap (filterProblems dataset config.filters) id = some problem := by
  obtain ⟨hmem, hid⟩ := problemMap_mem hfound
  rw [filterProblems_changed hsome hchanged] at hfound hmem hloaded
  have hin : id ∈ changedIds := by
    have hselected := List.of_mem_filter ((applyLimit_sublist ..).mem hmem)
    simpa [hid] using hselected
  cases hloaded with
  | inl hunlimited =>
      rw [ProblemFilters.applyLimit, if_pos hunlimited, problemMap_filter hin] at hfound
      rw [filterProblems, ProblemFilters.applyLimit, if_pos hunlimited, hfound]
  | inr honce =>
      obtain ⟨other, hother⟩ := problemMap_isSome (hchanged id hin)
      obtain ⟨hmemother, hidother⟩ := problemMap_mem hother
      have hkept : other ∈ (filterProblems dataset config.filters).filter
          fun problem => problem.problemId ∈ changedIds :=
        List.mem_filter.mpr ⟨hmemother, by simpa [hidother] using hin⟩
      have hevaluated := (filter_applyLimit ..).subset hkept
      rw [hother, Table.row_unique honce hevaluated hmem (hidother.trans hid.symm)]

/-- The fingerprint has the problem that is evaluated under each id. -/
def Fingerprinted (print : Problem → String) (current : List (String × String))
    (problems : List Problem) : Prop :=
  ∀ id problem, problemMap problems id = some problem →
    KeyedRows.fetch Prod.fst id current = some (id, print problem)

theorem fingerprinted_filterProblems (config : CliConfig) (dataset : List Problem) :
    Fingerprinted print (Workspace.currentFingerprint print config dataset)
      (filterProblems dataset config.filters) := by
  intro id problem hfound
  rw [Workspace.currentFingerprint, fetch_computeDatasetFingerprint, hfound, Option.map_some]

/-- The ids to evaluate again are of the dataset. -/
theorem mem_of_changed {Digest : Type*} [DecidableEq Digest]
    {current historical : List (String × Digest)} {id : String}
    (hchanged : id ∈ (detectChanges current historical).addedIds ++
      (detectChanges current historical).modifiedIds) : id ∈ current.map Prod.fst := by
  cases List.mem_append.mp hchanged with
  | inl hadded => exact List.mem_of_mem_filter hadded
  | inr hmodified =>
      obtain ⟨entry, hentry, hid⟩ := List.mem_map.mp hmodified
      exact List.mem_map.mpr ⟨entry, List.mem_of_mem_filter hentry, hid⟩

/-- What a decision to take over results says. -/
theorem decideReuse_cases {history : IncrementalHistory}
    {directory : String → ResultTable Details} {config : CliConfig}
    {current : List (String × String)} {reuse : Reuse Details}
    (hreuse : decideReuse history directory config current = some reuse) :
    reuse.changedIds ≠ [] ∧ (∀ id ∈ reuse.changedIds, id ∈ current.map Prod.fst) ∧
      ∃ run ∈ history.runs, run.model = config.model ∧
        ∃ unchangedIds : List String,
          reuse.historicalResults =
            loadHistoricalResults (directory run.resultPath) unchangedIds ∧
          ∀ id ∈ unchangedIds, KeyedRows.fetch Prod.fst id current =
            KeyedRows.fetch Prod.fst id run.datasetFingerprint := by
  obtain ⟨run, hrun, hdecided⟩ := Option.bind_eq_some_iff.mp hreuse
  have hmatches := List.find?_some hrun
  rw [Bool.and_eq_true, decide_eq_true_eq, decide_eq_true_eq] at hmatches
  simp only at hdecided
  split_ifs at hdecided with hcomplete
  cases hdecided
  simp only [Bool.and_eq_true, decide_eq_true_eq] at hcomplete
  refine ⟨hcomplete.1.2, fun id hid => mem_of_changed hid, run,
    List.mem_reverse.mp (List.mem_of_find?_eq_some hrun), hmatches.2, _, rfl, fun id hid => ?_⟩
  obtain ⟨hcurrent, hkept⟩ := List.mem_filter.mp hid
  simp only [decide_eq_true_eq, List.mem_append, not_or] at hkept
  exact fetch_of_unchanged hcurrent hkept.1 hkept.2

theorem fingerprinted_evaluated {workspace : Workspace Details} {config : CliConfig}
    {dataset : List Problem}
    (hstartable : startable config (workspace.evaluated print config dataset) = true)
    (hloaded : config.filters.limit = 0 ∨ config.difficultyStrategy = [] ∨
      (dataset.map Problem.problemId).Nodup) :
    Fingerprinted print (Workspace.currentFingerprint print config dataset)
      (workspace.evaluated print config dataset) := by
  intro id problem hfound
  apply fingerprinted_filterProblems
  unfold Workspace.evaluated at hfound hstartable
  cases hreuse : workspace.reuse print config dataset with
  | none => rwa [hreuse] at hfound
  | some reuse =>
      rw [hreuse] at hfound hstartable
      obtain ⟨hsome, hchanged, -⟩ := decideReuse_cases hreuse
      refine problemMap_evaluated hsome (fun id hid => ?_) ?_ hfound
      · by_contra hmissing
        have hfetch : KeyedRows.fetch Prod.fst id
            (Workspace.currentFingerprint print config dataset) = none := by
          rw [Workspace.currentFingerprint, fetch_computeDatasetFingerprint]
          cases hmap : problemMap (filterProblems dataset config.filters) id with
          | none => rfl
          | some other =>
              obtain ⟨hmem, hid⟩ := problemMap_mem hmap
              exact absurd (List.mem_map.mpr ⟨other, hmem, hid⟩) hmissing
        exact KeyedRows.fetch_eq_none.mp hfetch (hchanged id hid)
      · obtain hunlimited | hplain | honce := hloaded
        · exact .inl hunlimited
        · exact .inr (nodup_of_startable hstartable hplain)
        · refine .inr (honce.sublist (List.Sublist.map _ ?_))
          exact (applyLimit_sublist ..).trans List.filter_sublist

/-! ## Where a row comes from -/

/-- The row is of a completed evaluation of the problem with its current
fingerprint, by the given model and under the given strategy name. -/
def Genuine (print : Problem → String)
    (classify : EvaluationResult Details → Problem → Option Details)
    (evaluations : List (CompletedEvaluation Details)) (model group : String)
    (current : List (String × String)) (row : EvaluationResult Details) : Prop :=
  row.evaluationCompleted = true ∧ ∃ evaluation ∈ evaluations,
    evaluation.model = model ∧ evaluation.group = group ∧
      evaluation.problem.problemId = row.problemId ∧
      KeyedRows.fetch Prod.fst row.problemId current =
        some (row.problemId, print evaluation.problem) ∧
      row = { annotateFailureMode classify evaluation.result evaluation.problem with
        source := row.source }

theorem Genuine.mono {evaluations more : List (CompletedEvaluation Details)}
    {model group : String} {current : List (String × String)} {row : EvaluationResult Details}
    (hgenuine : Genuine print classify evaluations model group current row)
    (hmore : evaluations ⊆ more) : Genuine print classify more model group current row := by
  obtain ⟨hcompleted, evaluation, hmem, hrest⟩ := hgenuine
  exact ⟨hcompleted, evaluation, hmore hmem, hrest⟩

theorem annotateFailureMode_kept (result : EvaluationResult Details) (problem : Problem) :
    (annotateFailureMode classify result problem).problemId = result.problemId ∧
      (annotateFailureMode classify result problem).evaluationCompleted =
        result.evaluationCompleted ∧
      (annotateFailureMode classify result problem).source = result.source := by
  unfold annotateFailureMode
  split_ifs <;> exact ⟨rfl, rfl, rfl⟩

section Record

variable {config : CliConfig} {problems : List Problem} {current : List (String × String)}
  {record : TaskRecord (EvaluationResult Details)} {unit : TaskUnit (EvaluationResult Details)}
  {row : EvaluationResult Details}

/-- The row of a unit with a result. -/
theorem unitResult_genuine (hfits : Fits config problems record)
    (hprinted : Fingerprinted print current problems) (hunit : unit ∈ record.units)
    (hrow : unitResult classify problems unit = some row) :
    row.source = .fresh ∧ Genuine print classify (completedEvaluations config problems record)
      config.model (config.resultGroup unit.strategy) current row := by
  obtain ⟨result, hresult, hmapped⟩ := Option.bind_eq_some_iff.mp hrow
  obtain ⟨problem, hproblem, rfl⟩ := Option.map_eq_some_iff.mp hmapped
  obtain ⟨hid, hcompleted, hfresh⟩ := hfits.2 unit hunit result hresult
  obtain ⟨hkeptid, hkeptflag, hkeptsource⟩ :=
    @annotateFailureMode_kept Details classify result problem
  have hevaluation : (⟨config.model, config.resultGroup unit.strategy, problem, result⟩ :
      CompletedEvaluation Details) ∈ completedEvaluations config problems record := by
    refine List.mem_filterMap.mpr ⟨unit, hunit, ?_⟩
    rw [hresult, Option.bind_some, hproblem, Option.map_some]
  refine ⟨hkeptsource.trans hfresh, hkeptflag.trans hcompleted, _, hevaluation, rfl, rfl, ?_, ?_,
    rfl⟩
  · rw [hkeptid, hid, (problemMap_mem hproblem).2]
  · rw [hkeptid, hid]
    exact hprinted _ _ hproblem

/-- A row of the harness is of its unit's result or a placeholder. -/
theorem harnessResults_cases {entry : String × List (EvaluationResult Details)}
    (hentry : entry ∈ harnessResults classify config problems record) (hrow : row ∈ entry.2) :
    (∃ unit ∈ record.units, config.resultGroup unit.strategy = entry.1 ∧
      unitResult classify problems unit = some row) ∨
      row.evaluationCompleted = false ∧ row.source = .fresh := by
  have hgiven : ∀ (produced : Option (TaskUnit (EvaluationResult Details)))
      (left : EvaluationResult Details),
      (∀ unit ∈ produced, unit ∈ record.units ∧ config.resultGroup unit.strategy = entry.1) →
      left.evaluationCompleted = false ∧ left.source = .fresh →
      row = (produced.bind (unitResult classify problems)).getD left →
      (∃ unit ∈ record.units, config.resultGroup unit.strategy = entry.1 ∧
        unitResult classify problems unit = some row) ∨
        row.evaluationCompleted = false ∧ row.source = .fresh := by
    intro produced left hproduced hleft hvalue
    cases hbound : produced.bind (unitResult classify problems) with
    | none =>
        rw [hbound, Option.getD_none] at hvalue
        exact .inr (hvalue ▸ hleft)
    | some found =>
        rw [hbound, Option.getD_some] at hvalue
        obtain ⟨unit, hunit, hresult⟩ := Option.bind_eq_some_iff.mp hbound
        obtain ⟨hmem, hgroup⟩ := hproduced unit hunit
        exact .inl ⟨unit, hmem, hgroup, hvalue ▸ hresult⟩
  by_cases hplain : config.difficultyStrategy = []
  · rw [harnessResults, if_pos hplain] at hentry
    obtain ⟨strategy, -, rfl⟩ := List.mem_map.mp hentry
    obtain ⟨problem, -, hvalue⟩ := List.mem_map.mp hrow
    refine hgiven _ _ (fun unit hunit => ?_) ⟨rfl, rfl⟩ hvalue.symm
    have hselected := List.find?_some hunit
    simp only [Bool.and_eq_true, decide_eq_true_eq] at hselected
    rw [CliConfig.resultGroup, if_pos hplain]
    exact ⟨List.mem_reverse.mp (List.mem_of_find?_eq_some hunit), hselected.1.1⟩
  · rw [harnessResults, if_neg hplain] at hentry
    obtain rfl := List.mem_singleton.mp hentry
    obtain ⟨problem, -, hvalue⟩ := List.mem_map.mp hrow
    refine hgiven _ _ (fun unit hunit => ?_) ⟨rfl, rfl⟩ hvalue.symm
    rw [CliConfig.resultGroup, if_neg hplain]
    exact ⟨List.mem_reverse.mp (List.mem_of_find?_eq_some hunit), rfl⟩

/-- A unit with a result of a problem that was loaded has a completed row. -/
theorem unitResult_completed (hfits : Fits config problems record) (hunit : unit ∈ record.units)
    (hfinished : unit.result.isSome = true)
    (hloaded : unit.problemId ∈ problems.map Problem.problemId) :
    ∃ row, unitResult classify problems unit = some row ∧ row.evaluationCompleted = true := by
  obtain ⟨result, hresult⟩ := Option.isSome_iff_exists.mp hfinished
  obtain ⟨problem, hproblem⟩ := problemMap_isSome hloaded
  refine ⟨annotateFailureMode classify result problem, ?_, ?_⟩
  · rw [unitResult, hresult, Option.bind_some, hproblem, Option.map_some]
  · rw [(annotateFailureMode_kept result problem).2.1]
    exact (hfits.2 unit hunit result hresult).2.1

/-- Where every unit has a result, no placeholder is written. -/
theorem harnessResults_completed (hfits : Fits config problems record)
    (hfinished : ∀ unit ∈ record.units, unit.result.isSome = true)
    {entry : String × List (EvaluationResult Details)}
    (hentry : entry ∈ harnessResults classify config problems record) (hrow : row ∈ entry.2) :
    row.evaluationCompleted = true := by
  have hcreated : ∀ unit ∈
      (createUnits config problems : List (TaskUnit (EvaluationResult Details))),
      ∃ own ∈ record.units, own.strategy = unit.strategy ∧ own.problemId = unit.problemId := by
    intro unit hunit
    have hnames := List.mem_map_of_mem (f := unitNames) hunit
    rw [← hfits.1] at hnames
    obtain ⟨own, hown, hsame⟩ := List.mem_map.mp hnames
    rw [unitNames, unitNames, Prod.mk.injEq, Prod.mk.injEq] at hsame
    exact ⟨own, hown, hsame.2⟩
  have hgiven : ∀ (select : TaskUnit (EvaluationResult Details) → Bool) (problem : Problem)
      (left : EvaluationResult Details), problem ∈ problems →
      (∃ own ∈ record.units, select own = true) →
      (∀ own, select own = true → own.problemId = problem.problemId) →
      (((record.units.reverse.find? select).bind (unitResult classify problems)).getD
        left).evaluationCompleted = true := by
    intro select problem left hproblem hsome hselects
    cases hfound : record.units.reverse.find? select with
    | none =>
        obtain ⟨own, hown, hselect⟩ := hsome
        exact absurd hselect (List.find?_eq_none.mp hfound own (List.mem_reverse.mpr hown))
    | some unit =>
        have hunit := List.mem_reverse.mp (List.mem_of_find?_eq_some hfound)
        have hid := hselects unit (List.find?_some hfound)
        have hloaded : unit.problemId ∈ problems.map Problem.problemId :=
          hid ▸ List.mem_map_of_mem hproblem
        obtain ⟨row, hrow, hcompleted⟩ :=
          unitResult_completed hfits hunit (hfinished unit hunit) hloaded
        rw [Option.bind_some, hrow, Option.getD_some, hcompleted]
  by_cases hplain : config.difficultyStrategy = []
  · rw [harnessResults, if_pos hplain] at hentry
    obtain ⟨strategy, hstrategy, rfl⟩ := List.mem_map.mp hentry
    obtain ⟨problem, hproblem, rfl⟩ := List.mem_map.mp hrow
    have hunit : taskUnit strategy problem.problemId ∈
        (createUnits config problems : List (TaskUnit (EvaluationResult Details))) := by
      rw [createUnits, if_pos hplain]
      exact List.mem_flatMap.mpr ⟨strategy, hstrategy, List.mem_map_of_mem hproblem⟩
    obtain ⟨own, hown, hownstrategy, hownid⟩ := hcreated _ hunit
    refine hgiven _ problem _ hproblem ⟨own, hown, ?_⟩ fun other hselect => ?_
    · simp [hfinished own hown, hownstrategy, hownid, taskUnit]
    · simp only [Bool.and_eq_true, decide_eq_true_eq] at hselect
      exact hselect.2
  · rw [harnessResults, if_neg hplain] at hentry
    obtain rfl := List.mem_singleton.mp hentry
    obtain ⟨problem, hproblem, rfl⟩ := List.mem_map.mp hrow
    have hunit : taskUnit (config.select problem.difficulty) problem.problemId ∈
        (createUnits config problems : List (TaskUnit (EvaluationResult Details))) := by
      rw [createUnits, if_neg hplain]
      exact List.mem_map.mpr ⟨problem, hproblem, rfl⟩
    obtain ⟨own, hown, -, hownid⟩ := hcreated _ hunit
    exact hgiven _ problem _ hproblem ⟨own, hown, decide_eq_true hownid⟩
      fun other hselect => of_decide_eq_true hselect

end Record

/-! ## Merging and saving -/

section Tables

variable {new historical files : ResultTable Details} {row : EvaluationResult Details}
  {entry : String × List (EvaluationResult Details)}

theorem mem_rowsOf {strategy : String} (hrow : row ∈ rowsOf files strategy) :
    ∃ entry ∈ files, entry.1 = strategy ∧ row ∈ entry.2 := by
  unfold rowsOf at hrow
  cases hfetch : KeyedRows.fetch Prod.fst strategy files with
  | none => simp [hfetch] at hrow
  | some entry =>
      obtain ⟨hmem, hkey⟩ := KeyedRows.fetch_mem hfetch
      exact ⟨entry, hmem, hkey, by simpa [hfetch] using hrow⟩

theorem mem_mergeResults (hentry : entry ∈ mergeResults new historical) (hrow : row ∈ entry.2) :
    (∃ own ∈ new, own.1 = entry.1 ∧ row ∈ own.2) ∨
      ∃ old ∈ historical, old.1 = entry.1 ∧ row ∈ old.2 := by
  cases List.mem_append.mp hentry with
  | inl hnew =>
      obtain ⟨own, hown, rfl⟩ := List.mem_map.mp hnew
      cases List.mem_append.mp hrow with
      | inl hfresh => exact .inl ⟨own, hown, rfl, hfresh⟩
      | inr hold => exact .inr (mem_rowsOf (List.mem_of_mem_filter hold))
  | inr hold => exact .inr ⟨entry, List.mem_of_mem_filter hold, rfl, hrow⟩

theorem mem_saveResults {results : ResultTable Details}
    (hentry : entry ∈ saveResults files results) : entry ∈ files ∨ entry ∈ results := by
  induction results generalizing files with
  | nil => exact .inl hentry
  | cons first rest ih =>
      cases ih hentry with
      | inl hput =>
          cases KeyedRows.mem_put hput with
          | inl hfirst => exact .inr (hfirst ▸ List.mem_cons_self)
          | inr hfiles => exact .inl hfiles
      | inr hrest => exact .inr (List.mem_cons_of_mem _ hrest)

/-- A loaded row is a row of a file, marked as reused. -/
theorem mem_loadHistoricalResults {ids : List String}
    (hentry : entry ∈ loadHistoricalResults files ids) (hrow : row ∈ entry.2) :
    ∃ file ∈ files, file.1 = entry.1 ∧ ∃ saved ∈ file.2,
      saved.problemId ∈ ids ∧ row = { saved with source := .reused } := by
  obtain ⟨file, hfile, hloaded⟩ := List.mem_filterMap.mp hentry
  simp only [Option.ite_none_left_eq_some, Option.some.injEq] at hloaded
  obtain ⟨-, rfl⟩ := hloaded
  obtain ⟨saved, hsaved, rfl⟩ := List.mem_map.mp hrow
  obtain ⟨hmem, hid⟩ := List.mem_filter.mp hsaved
  exact ⟨file, hfile, rfl, saved, hmem, of_decide_eq_true hid, rfl⟩

end Tables

end AlgorithmHarness.Incremental
