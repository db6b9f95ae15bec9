import AlgorithmHarness.Runners.ABTest

/-!
# When an A/B run reports completion

A problem that `should_stop` stopped has no row in the call and never gets one:
it is lost.  Some problem is lost exactly when an answer before the report was
"stop", so the rows at the end are complete exactly when no answer was.  The
last answer is about no problem at all.
-/

namespace AlgorithmHarness.ABTest

open Transition WorkPool

variable {Result : Type*} {config : ABTestConfig} {redact : Row Result → Row Result}

/-! ## Lost problems -/

def Runner.rowKeys (runner : Runner Result) : List Key := runner.rows.map Prod.fst

/-- Every assigned problem of both variants has a result row. -/
def Complete (config : ABTestConfig) (runner : Runner Result) : Prop :=
  ∀ problem ∈ config.problems, config.key problem ∈ runner.rowKeys

/-- The call has passed the problem and has no row for it. -/
structure Lost (runner : Runner Result) (key : Key) : Prop where
  rowless : key ∉ runner.rowKeys
  passed : key.1 ∉ runner.variants
  stopped : ∀ future ∈ runner.futures, future.key = key → future.progress = .done none

structure Runner.Accounted (config : ABTestConfig) (runner : Runner Result) : Prop where
  problems_nodup : config.problems.Nodup
  variants_nodup : runner.variants.Nodup
  futures_nodup : (runner.futures.map (·.key)).Nodup
  assigned : ∀ future ∈ runner.futures, ∃ problem ∈ config.problems,
    config.key problem = future.key
  current : ∀ future ∈ runner.futures, future.key.1 ∉ runner.variants ∧
    future.key ∉ runner.rowKeys
  past : ∀ key ∈ runner.rowKeys, key.1 ∉ runner.variants
  lost_iff : runner.paused = true ↔ ∃ problem ∈ config.problems, Lost runner (config.key problem)

namespace Runner

variable {runner next : Runner Result} {key : Key}

theorem accounted_start (hchecked : config.Checked) :
    ({ variants := config.promptVariants } : Runner Result).Accounted config where
  problems_nodup := hchecked.1
  variants_nodup := config.promptVariants_nodup
  futures_nodup := List.nodup_nil
  assigned := nofun
  current := nofun
  past := nofun
  lost_iff := by
    constructor
    · nofun
    · rintro ⟨problem, hproblem, hlost⟩
      exact absurd (config.assignment_mem problem hproblem) hlost.passed

/-- At the end the problems without a row are the lost ones. -/
theorem Accounted.complete_iff (hrunner : runner.Accounted config)
    (hvariants : runner.variants = []) (hfutures : runner.futures = []) :
    Complete config runner ↔ runner.paused = false := by
  have hlost : ∀ problem, Lost runner (config.key problem) ↔
      config.key problem ∉ runner.rowKeys := by
    intro problem
    constructor
    · exact fun hlost => hlost.rowless
    · intro hrowless
      exact { rowless := hrowless, passed := hvariants ▸ List.not_mem_nil,
              stopped := hfutures ▸ nofun }
  rw [← Bool.not_eq_true, hrunner.lost_iff, Complete]
  simp only [hlost, not_exists, not_and, not_not]

/-! ## Turning to a variant -/

theorem mem_problemsOf {variant problem : String} :
    problem ∈ config.problemsOf variant ↔
      problem ∈ config.problems ∧ config.assignment problem = variant := by
  simp [ABTestConfig.problemsOf]

theorem nextVariant_cases (hnext : runner.nextVariant config = some next) :
    ∃ variant rest, runner.variants = variant :: rest ∧ runner.futures = [] ∧
      next.variants = rest ∧ next.rows = runner.rows ∧ next.paused = runner.paused ∧
      next.futures = (config.problemsOf variant).map fun problem => { key := (variant, problem) } := by
  rw [nextVariant.eq_def] at hnext
  split at hnext
  · cases hnext
  · next variant rest hvariants =>
      split_ifs at hnext with hfutures
      cases hnext
      exact ⟨variant, rest, hvariants, not_not.mp hfutures, rfl, rfl, rfl, rfl⟩

theorem Accounted.nextVariant (hrunner : runner.Accounted config)
    (hnext : runner.nextVariant config = some next) : next.Accounted config := by
  obtain ⟨variant, rest, hvariants, hnone, hrest, hrows, hpaused, hfutures⟩ :=
    nextVariant_cases hnext
  have hkeys : next.rowKeys = runner.rowKeys := by rw [rowKeys, hrows, rowKeys]
  have hvariant : variant ∉ rest := (List.nodup_cons.mp (hvariants ▸ hrunner.variants_nodup)).1
  have hfuture : ∀ future ∈ next.futures, ∃ problem ∈ config.problemsOf variant,
      future = ⟨(variant, problem), .queued⟩ := by
    intro future hmember
    rw [hfutures] at hmember
    obtain ⟨problem, hproblem, rfl⟩ := List.mem_map.mp hmember
    exact ⟨problem, hproblem, rfl⟩
  have hlost : ∀ problem ∈ config.problems,
      (Lost next (config.key problem) ↔ Lost runner (config.key problem)) := by
    intro problem hproblem
    constructor
    · intro hlost
      refine ⟨hkeys ▸ hlost.rowless, ?_, hnone ▸ nofun⟩
      rw [hvariants, List.mem_cons, not_or]
      refine ⟨fun hcurrent => ?_, hrest ▸ hlost.passed⟩
      -- a problem of this variant is queued, so it is not lost
      have hqueued : (⟨(variant, problem), .queued⟩ : Job Key (Row Result)) ∈ next.futures := by
        rw [hfutures]
        exact List.mem_map.mpr ⟨problem, mem_problemsOf.mpr ⟨hproblem, hcurrent⟩, rfl⟩
      cases hlost.stopped _ hqueued (congrArg (·, problem) hcurrent.symm)
    · intro hlost
      have hpassed := hlost.passed
      rw [hvariants, List.mem_cons, not_or] at hpassed
      refine ⟨hkeys ▸ hlost.rowless, hrest ▸ hpassed.2, ?_⟩
      intro future hmember hkey
      obtain ⟨other, -, rfl⟩ := hfuture future hmember
      exact absurd (congrArg Prod.fst hkey).symm hpassed.1
  exact {
    problems_nodup := hrunner.problems_nodup
    variants_nodup := hrest ▸ (List.nodup_cons.mp (hvariants ▸ hrunner.variants_nodup)).2
    futures_nodup := by
      rw [hfutures, List.map_map]
      exact (hrunner.problems_nodup.filter _).map fun _ _ hsame => congrArg Prod.snd hsame
    assigned := by
      intro future hmember
      obtain ⟨problem, hproblem, rfl⟩ := hfuture future hmember
      obtain ⟨hassigned, hcurrent⟩ := mem_problemsOf.mp hproblem
      exact ⟨problem, hassigned, congrArg (·, problem) hcurrent⟩
    current := by
      intro future hmember
      obtain ⟨problem, -, rfl⟩ := hfuture future hmember
      refine ⟨hrest ▸ hvariant, fun hrow => ?_⟩
      exact hrunner.past _ (hkeys ▸ hrow) (hvariants ▸ List.mem_cons_self)
    past := by
      intro key hrow hmember
      exact hrunner.past key (hkeys ▸ hrow) (hvariants ▸ List.mem_cons_of_mem _ (hrest ▸ hmember))
    lost_iff := by
      rw [hpaused, hrunner.lost_iff]
      exact exists_congr fun problem => and_congr_right fun hproblem =>
        (hlost problem hproblem).symm }

/-! ## Working on a problem -/

/-- A stopped problem is lost, and so is no other that was not. -/
theorem lost_replace (hrunner : runner.Accounted config)
    {futures : List (Job Key (Row Result))} {before progress : Progress (Row Result)}
    {paused : Bool} (hbefore : ⟨key, before⟩ ∈ runner.futures) (hopen : before ≠ .done none)
    (hmem : ∀ job, job ∈ futures ↔
      (job ∈ runner.futures ∧ job.key ≠ key) ∨ job = ⟨key, progress⟩) (other : Key) :
    Lost { runner with futures := futures, paused := paused } other ↔
      Lost runner other ∨ (other = key ∧ progress = .done none) := by
  constructor
  · intro hlost
    by_cases hnew : other = key ∧ progress = .done none
    · exact .inr hnew
    · refine .inl ⟨hlost.rowless, hlost.passed, ?_⟩
      intro future hfuture hkey
      have hne : other ≠ key := by
        rintro rfl
        exact hnew ⟨rfl, hlost.stopped ⟨other, progress⟩ ((hmem _).mpr (.inr rfl)) rfl⟩
      exact hlost.stopped future ((hmem future).mpr (.inl ⟨hfuture, hkey ▸ hne⟩)) hkey
  · rintro (hlost | ⟨rfl, hstopped⟩)
    · refine ⟨hlost.rowless, hlost.passed, ?_⟩
      intro future hfuture hkey
      cases (hmem future).mp hfuture with
      | inl hkept => exact hlost.stopped future hkept.1 hkey
      | inr hreplaced =>
          have hsame : key = other := (congrArg Job.key hreplaced).symm.trans hkey
          exact absurd (hlost.stopped _ hbefore hsame) hopen
    · have hcurrent := hrunner.current _ hbefore
      refine ⟨hcurrent.2, hcurrent.1, ?_⟩
      intro future hfuture hkey
      cases (hmem future).mp hfuture with
      | inl hkept => exact absurd hkey hkept.2
      | inr hreplaced => exact hreplaced ▸ hstopped

theorem Accounted.replace (hrunner : runner.Accounted config)
    {futures : List (Job Key (Row Result))} {before progress : Progress (Row Result)}
    {paused : Bool} (hkeys : futures.map (·.key) = runner.futures.map (·.key))
    (hbefore : ⟨key, before⟩ ∈ runner.futures) (hopen : before ≠ .done none)
    (hmem : ∀ job, job ∈ futures ↔
      (job ∈ runner.futures ∧ job.key ≠ key) ∨ job = ⟨key, progress⟩)
    (hpaused : paused = true ↔ runner.paused = true ∨ progress = .done none) :
    ({ runner with futures := futures, paused := paused } : Runner Result).Accounted config := by
  have hold : ∀ future ∈ futures, ∃ old ∈ runner.futures, old.key = future.key := by
    intro future hfuture
    cases (hmem future).mp hfuture with
    | inl hkept => exact ⟨future, hkept.1, rfl⟩
    | inr hreplaced => exact ⟨_, hbefore, hreplaced ▸ rfl⟩
  exact {
    problems_nodup := hrunner.problems_nodup
    variants_nodup := hrunner.variants_nodup
    futures_nodup := hkeys ▸ hrunner.futures_nodup
    assigned := fun future hfuture => by
      obtain ⟨old, hmember, hkey⟩ := hold future hfuture
      exact hkey ▸ hrunner.assigned old hmember
    current := fun future hfuture => by
      obtain ⟨old, hmember, hkey⟩ := hold future hfuture
      exact hkey ▸ hrunner.current old hmember
    past := hrunner.past
    lost_iff := by
      obtain ⟨assigned, hassigned, hkey⟩ := hrunner.assigned _ hbefore
      simp only [lost_replace hrunner hbefore hopen hmem]
      rw [hpaused, hrunner.lost_iff]
      constructor
      · rintro (⟨problem, hproblem, hlost⟩ | hstopped)
        · exact ⟨problem, hproblem, .inl hlost⟩
        · exact ⟨assigned, hassigned, .inr ⟨hkey, hstopped⟩⟩
      · rintro ⟨problem, hproblem, hlost | ⟨-, hstopped⟩⟩
        · exact .inl ⟨problem, hproblem, hlost⟩
        · exact .inr hstopped }

theorem first?_of_next? (hnext : runner.next? = some key) : first? runner.futures = some key := by
  rw [next?] at hnext
  split at hnext
  · exact hnext
  · cases hnext

theorem Accounted.take (hrunner : runner.Accounted config) (hnext : runner.next? = some key)
    {progress : Progress (Row Result)} (hgoes : progress ≠ .done none) :
    (runner.take progress).Accounted config := by
  have hfirst := first?_of_next? hnext
  refine hrunner.replace map_key_take (first?_mem hfirst) nofun
    (fun _ => mem_take hrunner.futures_nodup hfirst) ?_
  rw [or_iff_left hgoes]

theorem Accounted.ask (hrunner : runner.Accounted config) (hnext : runner.next? = some key)
    (stopping : Bool) : (runner.ask stopping).Accounted config := by
  cases stopping with
  | false => exact hrunner.take hnext nofun
  | true =>
      have hfirst := first?_of_next? hnext
      refine hrunner.replace map_key_take (first?_mem hfirst) nofun
        (fun _ => mem_take hrunner.futures_nodup hfirst) ?_
      exact iff_of_true rfl (.inr rfl)

theorem Accounted.settle (hrunner : runner.Accounted config) {position : ℕ}
    (hexecuting : executing? position runner.futures = some key)
    {progress : Progress (Row Result)} (hgoes : progress ≠ .done none) :
    (runner.settle position progress).Accounted config := by
  refine hrunner.replace (map_key_settle position) (executing?_mem hexecuting) nofun
    (fun _ => mem_settle hrunner.futures_nodup hexecuting) ?_
  rw [or_iff_left hgoes]

/-! ## Collecting the rows -/

theorem mem_resultRow {future : Job Key (Row Result)} {row : Key × Row Result} :
    resultRow future = some row ↔ future = ⟨row.1, .done (some row.2)⟩ := by
  obtain ⟨key, progress⟩ := future
  obtain ⟨other, result⟩ := row
  cases progress with
  | queued | executing | failed => simp [resultRow]
  | done found =>
      cases found with
      | none => simp [resultRow]
      | some found => simp [resultRow, Prod.ext_iff]

/-- A future that is done has a row unless it was stopped. -/
theorem exists_row_of_done {future : Job Key (Row Result)} (hdone : isDone future = true)
    (hgoes : future.progress ≠ .done none) : ∃ row, future = ⟨future.key, .done (some row)⟩ := by
  obtain ⟨key, progress⟩ := future
  cases progress with
  | queued | executing | failed => cases hdone
  | done found =>
      cases found with
      | none => exact absurd rfl hgoes
      | some row => exact ⟨row, rfl⟩

theorem collect_cases (hcollect : runner.collect = some next) :
    (∀ future ∈ runner.futures, isDone future = true) ∧
      next = { runner with
        rows := runner.rows ++ runner.futures.filterMap resultRow, futures := [] } := by
  rw [collect] at hcollect
  split_ifs at hcollect with hdone
  exact ⟨List.all_eq_true.mp hdone.2, (Option.some.inj hcollect).symm⟩

theorem mem_rowKeys_collect (hcollect : runner.collect = some next) :
    key ∈ next.rowKeys ↔ key ∈ runner.rowKeys ∨
      ∃ row, (⟨key, .done (some row)⟩ : Job Key (Row Result)) ∈ runner.futures := by
  obtain ⟨-, rfl⟩ := collect_cases hcollect
  rw [rowKeys, List.map_append, List.mem_append, ← rowKeys]
  apply or_congr_right
  constructor
  · intro hmember
    obtain ⟨row, hrow, rfl⟩ := List.mem_map.mp hmember
    obtain ⟨future, hfuture, hresult⟩ := List.mem_filterMap.mp hrow
    exact ⟨row.2, mem_resultRow.mp hresult ▸ hfuture⟩
  · rintro ⟨row, hfuture⟩
    exact List.mem_map.mpr ⟨(key, row), List.mem_filterMap.mpr ⟨_, hfuture, rfl⟩, rfl⟩

theorem Accounted.collect (hrunner : runner.Accounted config)
    (hcollect : runner.collect = some next) : next.Accounted config := by
  have hkeys : ∀ key, key ∈ next.rowKeys ↔ key ∈ runner.rowKeys ∨
      ∃ row, (⟨key, .done (some row)⟩ : Job Key (Row Result)) ∈ runner.futures :=
    fun _ => mem_rowKeys_collect hcollect
  obtain ⟨hdone, hnext⟩ := collect_cases hcollect
  have hvariants : next.variants = runner.variants := by rw [hnext]
  have hfutures : next.futures = [] := by rw [hnext]
  have hpaused : next.paused = runner.paused := by rw [hnext]
  have hlost : ∀ key, Lost next key ↔ Lost runner key := by
    intro key
    constructor
    · intro hlost
      have hrowless := hlost.rowless
      rw [hkeys, not_or] at hrowless
      refine ⟨hrowless.1, hvariants ▸ hlost.passed, ?_⟩
      intro future hfuture hkey
      by_contra hgoes
      obtain ⟨row, hrow⟩ := exists_row_of_done (hdone future hfuture) hgoes
      rw [hkey] at hrow
      exact hrowless.2 ⟨row, hrow ▸ hfuture⟩
    · intro hlost
      refine ⟨?_, hvariants ▸ hlost.passed, hfutures ▸ nofun⟩
      rw [hkeys, not_or]
      refine ⟨hlost.rowless, ?_⟩
      rintro ⟨row, hfuture⟩
      cases hlost.stopped _ hfuture rfl
  exact {
    problems_nodup := hrunner.problems_nodup
    variants_nodup := hvariants ▸ hrunner.variants_nodup
    futures_nodup := hfutures ▸ List.nodup_nil
    assigned := hfutures ▸ nofun
    current := hfutures ▸ nofun
    past := by
      intro key hrow
      rw [hvariants]
      cases (hkeys key).mp hrow with
      | inl hbefore => exact hrunner.past key hbefore
      | inr hcollected =>
          obtain ⟨row, hfuture⟩ := hcollected
          exact (hrunner.current _ hfuture).1
    lost_iff := by
      rw [hpaused, hrunner.lost_iff]
      exact exists_congr fun problem => and_congr_right fun _ => (hlost _).symm }

end Runner

/-! ## Runs -/

/-- The answers of `should_stop` in the last call, before the report. -/
def answers (labels : List (Label Result)) : List Bool :=
  labels.foldl (fun given label =>
    match label with
    | .start => []
    | .ask stopping => given ++ [stopping]
    | _ => given) []

theorem answers_snoc (labels : List (Label Result)) (label : Label Result) :
    answers (labels ++ [label]) =
      match label with
      | .start => []
      | .ask stopping => answers labels ++ [stopping]
      | _ => answers labels := by
  rw [answers, List.foldl_append]
  rfl

/-- What a schedule leaves of a call. -/
def Followed (config : ABTestConfig) (labels : List (Label Result)) (state : State Result) : Prop :=
  ∀ runner, state.runner = some runner →
    runner.Accounted config ∧ (runner.paused = true ↔ true ∈ answers labels)

theorem Followed.setRunner {labels : List (Label Result)} {state : State Result}
    {runner : Runner Result} (hrunner : runner.Accounted config)
    (hpaused : runner.paused = true ↔ true ∈ answers labels) :
    Followed config labels (state.setRunner runner) := by
  intro next hnext
  cases hnext
  exact ⟨hrunner, hpaused⟩

theorem Followed.stopped {labels : List (Label Result)} {state : State Result}
    (hstopped : state.runner = none) : Followed config labels state := by
  intro runner hrunner
  rw [hstopped] at hrunner
  cases hrunner

theorem Runner.paused_ask (runner : Runner Result) (stopping : Bool) :
    (runner.ask stopping).paused = (runner.paused || stopping) := by
  cases stopping with
  | false => exact (Bool.or_false _).symm
  | true => exact (Bool.or_true _).symm

theorem step_followed (labels : List (Label Result)) (state : State Result)
    (label : Label Result) (next : State Result) (hstate : Followed config labels state)
    (hstep : step config redact state label = some next) :
    Followed config (labels ++ [label]) next := by
  have hanswers := answers_snoc labels label
  cases label with
  | start =>
      rw [step] at hstep
      split_ifs at hstep with hfree
      cases hstep
      exact Followed.setRunner (Runner.accounted_start hfree.2) (by rw [hanswers]; simp)
  | nextVariant =>
      obtain ⟨runner, hrunner, hmap⟩ := Option.bind_eq_some_iff.mp hstep
      obtain ⟨turned, hturn, rfl⟩ := Option.map_eq_some_iff.mp hmap
      obtain ⟨haccounted, hpaused⟩ := hstate runner hrunner
      obtain ⟨variant, rest, -, -, -, -, hkept, -⟩ := Runner.nextVariant_cases hturn
      exact Followed.setRunner (haccounted.nextVariant hturn) (by rw [hkept, hanswers]; exact hpaused)
  | reuse =>
      obtain ⟨runner, hrunner, hbind⟩ := Option.bind_eq_some_iff.mp hstep
      obtain ⟨key, hkey, hmap⟩ := Option.bind_eq_some_iff.mp hbind
      obtain ⟨row, hrow, rfl⟩ := Option.map_eq_some_iff.mp hmap
      obtain ⟨haccounted, hpaused⟩ := hstate runner hrunner
      exact Followed.setRunner (haccounted.take hkey nofun) (by rw [hanswers]; exact hpaused)
  | ask stopping =>
      obtain ⟨runner, hrunner, hbind⟩ := Option.bind_eq_some_iff.mp hstep
      obtain ⟨key, hkey, hask⟩ := Option.bind_eq_some_iff.mp hbind
      split_ifs at hask
      cases hask
      obtain ⟨haccounted, hpaused⟩ := hstate runner hrunner
      apply Followed.setRunner (haccounted.ask hkey stopping)
      rw [Runner.paused_ask, Bool.or_eq_true, hpaused, hanswers, List.mem_append,
        List.mem_singleton]
      exact or_congr_right eq_comm
  | finish position result =>
      obtain ⟨runner, hrunner, hmap⟩ := Option.bind_eq_some_iff.mp hstep
      obtain ⟨key, hexecuting, rfl⟩ := Option.map_eq_some_iff.mp hmap
      obtain ⟨haccounted, hpaused⟩ := hstate runner hrunner
      exact Followed.setRunner (haccounted.settle hexecuting nofun) (by rw [hanswers]; exact hpaused)
  | fail position =>
      obtain ⟨runner, hrunner, hmap⟩ := Option.bind_eq_some_iff.mp hstep
      obtain ⟨key, hexecuting, rfl⟩ := Option.map_eq_some_iff.mp hmap
      obtain ⟨haccounted, hpaused⟩ := hstate runner hrunner
      split
      · exact Followed.setRunner (haccounted.settle hexecuting nofun)
          (by rw [hanswers]; exact hpaused)
      · exact Followed.stopped rfl
  | collect =>
      obtain ⟨runner, hrunner, hmap⟩ := Option.bind_eq_some_iff.mp hstep
      obtain ⟨collected, hcollect, rfl⟩ := Option.map_eq_some_iff.mp hmap
      obtain ⟨haccounted, hpaused⟩ := hstate runner hrunner
      have hkept : collected.paused = runner.paused := by rw [(Runner.collect_cases hcollect).2]
      exact Followed.setRunner (haccounted.collect hcollect) (by rw [hkept, hanswers]; exact hpaused)
  | conclude stopping =>
      obtain ⟨runner, hrunner, hconclude⟩ := Option.bind_eq_some_iff.mp hstep
      split_ifs at hconclude
      cases hconclude
      apply Followed.stopped
      cases stopping <;> rfl
  | crash =>
      obtain ⟨runner, hrunner, rfl⟩ := Option.map_eq_some_iff.mp hstep
      exact Followed.stopped rfl

theorem run_followed {labels : List (Label Result)} {state : State Result}
    (hrun : run (step config redact) initial labels = some state) :
    Followed config labels state := by
  apply run_history (Followed config) ?_ step_followed hrun
  exact Followed.stopped rfl

/-! ## The report -/

/-- The call reports completion when every problem has a row and only then, and
it does not stay paused when every problem has one. -/
def ReportsCompletion (config : ABTestConfig) (runner : Runner Result) (outcome : Outcome) :
    Prop :=
  (outcome.reported = true ∧ outcome.paused = false ↔ Complete config runner) ∧
    (Complete config runner → outcome.paused = false)

theorem conclude_cases {state next : State Result} {stopping : Bool}
    (hstep : step config redact state (.conclude stopping) = some next) :
    ∃ runner, state.runner = some runner ∧ runner.variants = [] ∧ runner.futures = [] ∧
      next.outcome = some { reported := !stopping, paused := stopping || runner.paused } := by
  obtain ⟨runner, hrunner, hconclude⟩ := Option.bind_eq_some_iff.mp hstep
  split_ifs at hconclude with hdone
  cases hconclude
  refine ⟨runner, hrunner, hdone.1, hdone.2, ?_⟩
  cases stopping <;> rfl

/-- After any schedule, with any resumes: the return of a call is right about
completion exactly when the last answer of `should_stop` lets the report
through, or an earlier answer of the call has stopped a problem. -/
theorem reports_completion_iff (config : ABTestConfig) (redact : Row Result → Row Result)
    (labels : List (Label Result)) (stopping : Bool) (before after : State Result)
    (hrun : run (step config redact) initial labels = some before)
    (hstep : step config redact before (.conclude stopping) = some after) :
    ∃ runner outcome, before.runner = some runner ∧ after.outcome = some outcome ∧
      (ReportsCompletion config runner outcome ↔ stopping = false ∨ true ∈ answers labels) := by
  obtain ⟨runner, hrunner, hvariants, hfutures, houtcome⟩ := conclude_cases hstep
  obtain ⟨haccounted, hpaused⟩ := run_followed hrun runner hrunner
  have hcomplete := haccounted.complete_iff hvariants hfutures
  refine ⟨runner, _, hrunner, houtcome, ?_⟩
  rw [ReportsCompletion, hcomplete, ← hpaused]
  cases stopping <;> cases runner.paused <;> simp

/-- One problem for each variant, one after the other. -/
def twoProblems : ABTestConfig where
  promptVariants := ["a", "b"]
  problems := ["p0", "p1"]
  assignment := fun problem => if problem = "p0" then "a" else "b"
  maxWorkers := 1
  checkpointed := true
  length_promptVariants := rfl
  promptVariants_nodup := by decide
  assignment_mem := by decide
  maxWorkers_pos := by decide
  maxWorkers_le := by decide

/-- Both problems are executed, and the answer before the report is "stop". -/
def stoppedLast : List (Label Bool) :=
  [.start, .nextVariant, .ask false, .finish 0 true, .collect,
    .nextVariant, .ask false, .finish 0 true, .collect]

/-- The resumed call finds both rows and is asked to stop again. -/
def stoppedAgain : List (Label Bool) :=
  stoppedLast ++ [.conclude true,
    .start, .nextVariant, .reuse, .collect, .nextVariant, .reuse, .collect]

def stateAfter (labels : List (Label Bool)) : State Bool :=
  (run (step twoProblems id) initial labels).getD initial

theorem run_stateAfter {labels : List (Label Bool)}
    (hruns : (run (step twoProblems id) initial labels).isSome = true) :
    run (step twoProblems id) initial labels = some (stateAfter labels) := by
  obtain ⟨state, hrun⟩ := Option.isSome_iff_exists.mp hruns
  rw [stateAfter, hrun, Option.getD_some]

theorem step_stateAfter {labels : List (Label Bool)} {label : Label Bool}
    (hruns : (run (step twoProblems id) initial (labels ++ [label])).isSome = true) :
    step twoProblems id (stateAfter labels) label = some (stateAfter (labels ++ [label])) := by
  obtain ⟨state, hfirst, hlast⟩ := run_append_eq_some.mp (run_stateAfter hruns)
  obtain ⟨next, hstep, hnext⟩ := run_cons_eq_some.mp hlast
  have hstate : stateAfter labels = state := by rw [stateAfter, hfirst, Option.getD_some]
  rw [hstate, hstep]
  exact hnext

/-- The last answer decides although no problem is left to be stopped. -/
theorem complete_run_stays_paused :
    ¬ ∀ (labels : List (Label Bool)) (stopping : Bool) (before after : State Bool)
        (runner : Runner Bool) (outcome : Outcome),
      run (step twoProblems id) initial labels = some before →
      step twoProblems id before (.conclude stopping) = some after →
      before.runner = some runner → after.outcome = some outcome →
      ReportsCompletion twoProblems runner outcome := by
  intro hreports
  obtain ⟨runner, hrunner⟩ : ∃ runner, (stateAfter stoppedAgain).runner = some runner :=
    Option.isSome_iff_exists.mp (by decide +kernel)
  have hkeys : ((stateAfter stoppedAgain).runner.map (·.rowKeys)) =
      some [("a", "p0"), ("b", "p1")] := by decide +kernel
  rw [hrunner] at hkeys
  have hrows : runner.rowKeys = [("a", "p0"), ("b", "p1")] := Option.some.inj hkeys
  have hcomplete : Complete twoProblems runner := by
    rw [Complete, hrows]
    decide
  have hright := hreports stoppedAgain true _ _ runner { reported := false, paused := true }
    (run_stateAfter (by decide +kernel)) (step_stateAfter (by decide +kernel)) hrunner
    (by decide +kernel)
  cases hright.2 hcomplete

/-- The answer before the report is the only "stop" of the call, so the return
is wrong about completion. -/
theorem reports_completion_iff_stoppedLast :
    ∃ runner outcome, (stateAfter stoppedLast).runner = some runner ∧
      (stateAfter (stoppedLast ++ [.conclude true])).outcome = some outcome ∧
      ¬ ReportsCompletion twoProblems runner outcome := by
  obtain ⟨runner, outcome, hrunner, houtcome, hreports⟩ :=
    reports_completion_iff twoProblems id stoppedLast true _ _
      (run_stateAfter (by decide +kernel)) (step_stateAfter (by decide +kernel))
  refine ⟨runner, outcome, hrunner, houtcome, ?_⟩
  rw [hreports]
  decide

end AlgorithmHarness.ABTest
