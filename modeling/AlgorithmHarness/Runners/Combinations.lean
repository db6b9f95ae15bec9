import AlgorithmHarness.Core.Decimals
import AlgorithmHarness.Runners.Experiment

/-!
# Every combination once

The invariant behind the list of combinations.  An entry of `experiment.json`
is an entry of the checkpoint, no unit is listed twice, and what a running
process still has to do is disjoint from what its list has.  A unit that is
saved but not listed is the state a crash leaves; the next process lists it
without executing it.
-/

namespace AlgorithmHarness.Experiment

open Transition WorkPool

/-! ## Unit keys -/

namespace ExperimentConfig

variable (config : ExperimentConfig)

theorem map_key_jobs :
    config.jobs.map (·.key) = (List.range' 0 config.allJobs.length).map fun index => toString index := by
  rw [jobs, List.map_map, ← List.zipIdx_map_snd, List.map_map]
  rfl

theorem jobs_keys_nodup : (config.jobs.map (·.key)).Nodup := by
  rw [map_key_jobs]
  exact (List.nodup_range').map toString_injective

theorem jobs_nodup : config.jobs.Nodup := List.Nodup.of_map _ config.jobs_keys_nodup

variable {config}

theorem eq_of_key {job other : ExperimentJob} (hjob : job ∈ config.jobs)
    (hother : other ∈ config.jobs) (hkey : job.key = other.key) : job = other :=
  List.inj_on_of_nodup_map config.jobs_keys_nodup hjob hother hkey

end ExperimentConfig

/-! ## What an entry says -/

def ExperimentJob.entry (job : ExperimentJob) : Option String × String × String × ℕ :=
  (some job.key, job.model, job.strategy, job.repeatNumber)

def Combination.entry (combo : Combination) : Option String × String × String × ℕ :=
  (combo.unitId, combo.model, combo.strategy, combo.repeatNumber)

theorem entry_unitCombo (job : ExperimentJob) (unsupported : Bool) :
    (unitCombo job unsupported).entry = job.entry := rfl

/-! ## The invariant -/

/-- Every unit of the checkpoint is the result of its own combination. -/
def UnitsValid (config : ExperimentConfig) (units : String → Option Combination) : Prop :=
  ∀ key combo, units key = some combo →
    ∃ job ∈ config.jobs, job.key = key ∧ combo.entry = job.entry

/-- The list and the checkpoint agree. -/
structure Listed (config : ExperimentConfig) (units : String → Option Combination)
    (metadata : Metadata) : Prop where
  saved : ∀ combo ∈ metadata.combinations, ∃ key, combo.unitId = some key ∧ units key = some combo
  nodup : metadata.unitIds.Nodup
  finished : metadata.finishedAt.isSome → ∀ job ∈ config.jobs, some job.key ∈ metadata.unitIds

/-- The combinations a process has not listed or dropped. -/
def Runner.pending (runner : Runner) : List ExperimentJob :=
  runner.futures.map (·.key) ++ runner.remaining

/-- A future has a result when its unit is saved, and only then. -/
def Settled (units : String → Option Combination) (future : Job ExperimentJob Combination) :
    Prop :=
  match future.progress with
  | .done (some combo) => units future.key.key = some combo
  | _ => units future.key.key = none

structure Runner.Consistent (config : ExperimentConfig) (units : String → Option Combination)
    (runner : Runner) : Prop where
  listed : Listed config units runner.metadata
  nodup : runner.pending.Nodup
  known : ∀ job ∈ runner.pending, job ∈ config.jobs
  unlisted : ∀ job ∈ runner.pending, some job.key ∉ runner.metadata.unitIds
  unsaved : ∀ job ∈ runner.remaining, units job.key = none
  settled : ∀ future ∈ runner.futures, Settled units future
  skipped : ∀ future ∈ runner.futures, future.progress = .done none → runner.paused = true
  covered : runner.paused = false →
    ∀ job ∈ config.jobs, some job.key ∈ runner.metadata.unitIds ∨ job ∈ runner.pending

structure Consistent (config : ExperimentConfig) (state : State) : Prop where
  units : UnitsValid config state.units
  disk : ∀ metadata, state.experimentJson = some metadata → Listed config state.units metadata
  runner : ∀ runner, state.runner = some runner → runner.Consistent config state.units

theorem initial_consistent (config : ExperimentConfig) : Consistent config initial where
  units := nofun
  disk := nofun
  runner := nofun

variable {config : ExperimentConfig} {units : String → Option Combination}

theorem Listed.empty : Listed config units {} where
  saved := nofun
  nodup := List.nodup_nil
  finished := nofun

/-! ## Opening -/

theorem mem_unlisted {metadata : Metadata} {job : ExperimentJob} :
    job ∈ unlisted config metadata ↔ job ∈ config.jobs ∧ some job.key ∉ metadata.unitIds := by
  simp [unlisted]

theorem mem_opened_remaining {metadata : Metadata} {job : ExperimentJob} :
    job ∈ (opened config units metadata).remaining ↔
      job ∈ unlisted config metadata ∧ units job.key = none := by
  simp [opened]

theorem unitIds_append (metadata : Metadata) (combos : List Combination) :
    (metadata.append combos).unitIds = metadata.unitIds ++ combos.map (·.unitId) :=
  List.map_append

/-- A saved unit carries the key it is saved under. -/
theorem UnitsValid.unitId (hvalid : UnitsValid config units) {key : String} {combo : Combination}
    (hunit : units key = some combo) : combo.unitId = some key := by
  obtain ⟨job, -, rfl, hentry⟩ := hvalid key combo hunit
  exact congrArg Prod.fst hentry

/-- The keys of the units that opening appends are those of their combinations. -/
theorem map_unitId_saved (hvalid : UnitsValid config units) (jobs : List ExperimentJob) :
    (jobs.filterMap fun job => units job.key).map (·.unitId) =
      (jobs.filter fun job => (units job.key).isSome).map fun job => some job.key := by
  induction jobs with
  | nil => rfl
  | cons job jobs ih =>
      cases hunit : units job.key with
      | none =>
          rw [List.filter_cons_of_neg (by simp [hunit]), ← ih]
          simp only [List.filterMap_cons, hunit]
      | some combo =>
          rw [List.filter_cons_of_pos (by simp [hunit]), List.map_cons, ← ih,
            ← hvalid.unitId hunit]
          simp only [List.filterMap_cons, hunit, List.map_cons]

theorem mem_opened_unitIds (hvalid : UnitsValid config units) {metadata : Metadata}
    {job : ExperimentJob} (hjob : job ∈ config.jobs) :
    some job.key ∈ (opened config units metadata).metadata.unitIds ↔
      some job.key ∈ metadata.unitIds ∨ (units job.key).isSome := by
  have hids : (opened config units metadata).metadata.unitIds = metadata.unitIds ++
      ((unlisted config metadata).filter fun job => (units job.key).isSome).map
        fun job => some job.key := by
    rw [← map_unitId_saved hvalid]
    exact unitIds_append _ _
  rw [hids, List.mem_append, List.mem_map]
  constructor
  · rintro (hlisted | ⟨other, hother, hkey⟩)
    · exact .inl hlisted
    · have hsaved := (List.mem_filter.mp hother).2
      rw [Option.some.inj hkey] at hsaved
      exact .inr hsaved
  · rintro (hlisted | hsaved)
    · exact .inl hlisted
    · by_cases hlisted : some job.key ∈ metadata.unitIds
      · exact .inl hlisted
      · exact .inr ⟨job, List.mem_filter.mpr ⟨mem_unlisted.mpr ⟨hjob, hlisted⟩, hsaved⟩, rfl⟩

theorem listed_opened (hvalid : UnitsValid config units) {metadata : Metadata}
    (hlisted : Listed config units metadata) :
    Listed config units (opened config units metadata).metadata where
  saved combo hcombo := by
    cases List.mem_append.mp hcombo with
    | inl hbefore => exact hlisted.saved combo hbefore
    | inr hsaved =>
        obtain ⟨job, -, hunit⟩ := List.mem_filterMap.mp hsaved
        exact ⟨job.key, hvalid.unitId hunit, hunit⟩
  nodup := by
    have hnew : (((unlisted config metadata).filter fun job => (units job.key).isSome).map
        fun job => some job.key).Nodup := by
      have hsublist : ((unlisted config metadata).filter fun job => (units job.key).isSome).Sublist
          config.jobs := List.filter_sublist.trans List.filter_sublist
      have hkeys := config.jobs_keys_nodup.sublist (hsublist.map (·.key))
      have hsome := hkeys.map fun _ _ => Option.some.inj
      rwa [List.map_map] at hsome
    refine (unitIds_append _ _).symm ▸ List.Nodup.append hlisted.nodup ?_ ?_
    · rw [map_unitId_saved hvalid]
      exact hnew
    · rw [map_unitId_saved hvalid]
      intro id hbefore hafter
      obtain ⟨job, hjob, rfl⟩ := List.mem_map.mp hafter
      exact (mem_unlisted.mp (List.mem_of_mem_filter hjob)).2 hbefore
  finished hfinished job hjob :=
    (mem_opened_unitIds hvalid hjob).mpr (.inl (hlisted.finished hfinished job hjob))

theorem consistent_opened (hvalid : UnitsValid config units) {metadata : Metadata}
    (hlisted : Listed config units metadata) :
    (opened config units metadata).Consistent config units where
  listed := listed_opened hvalid hlisted
  nodup := config.jobs_nodup.sublist (List.filter_sublist.trans List.filter_sublist)
  known job hjob := (mem_unlisted.mp (mem_opened_remaining.mp hjob).1).1
  unlisted job hjob hids := by
    obtain ⟨hunlisted, hunsaved⟩ := mem_opened_remaining.mp hjob
    obtain ⟨hknown, hnew⟩ := mem_unlisted.mp hunlisted
    cases (mem_opened_unitIds hvalid hknown).mp hids with
    | inl hlisted => exact hnew hlisted
    | inr hsaved => simp [hunsaved] at hsaved
  unsaved job hjob := (mem_opened_remaining.mp hjob).2
  settled := nofun
  skipped := nofun
  covered _ job hjob := by
    by_cases hids : some job.key ∈ (opened config units metadata).metadata.unitIds
    · exact .inl hids
    · right
      rw [mem_opened_unitIds hvalid hjob, not_or, Option.not_isSome_iff_eq_none] at hids
      exact mem_opened_remaining.mpr ⟨mem_unlisted.mpr ⟨hjob, hids.1⟩, hids.2⟩

/-! ## The steps of a process -/

theorem Listed.mono {later : String → Option Combination} {metadata : Metadata}
    (hgrows : ∀ key combo, units key = some combo → later key = some combo)
    (hlisted : Listed config units metadata) : Listed config later metadata where
  saved combo hcombo := by
    obtain ⟨key, hid, hunit⟩ := hlisted.saved combo hcombo
    exact ⟨key, hid, hgrows key combo hunit⟩
  nodup := hlisted.nodup
  finished := hlisted.finished

theorem Listed.append {metadata : Metadata} (hlisted : Listed config units metadata)
    {key : String} {combo : Combination} (hunit : units key = some combo)
    (hid : combo.unitId = some key) (hnew : some key ∉ metadata.unitIds) :
    Listed config units (metadata.append [combo]) where
  saved other hother := by
    cases List.mem_append.mp hother with
    | inl hbefore => exact hlisted.saved other hbefore
    | inr hlast => exact List.mem_singleton.mp hlast ▸ ⟨key, hid, hunit⟩
  nodup := by
    rw [unitIds_append, List.map_singleton, hid]
    exact List.Nodup.append hlisted.nodup (List.nodup_singleton _)
      (List.disjoint_singleton.mpr hnew)
  finished hfinished job hjob := by
    rw [unitIds_append]
    exact List.mem_append_left _ (hlisted.finished hfinished job hjob)

theorem grows_update {key : String} {combo : Combination} (hunsaved : units key = none) :
    ∀ other result, units other = some result →
      Function.update units key (some combo) other = some result := by
  intro other result hresult
  have hne : other ≠ key := by
    rintro rfl
    rw [hunsaved] at hresult
    cases hresult
  rw [Function.update_of_ne hne, hresult]

theorem UnitsValid.put (hvalid : UnitsValid config units) {job : ExperimentJob}
    (hjob : job ∈ config.jobs) {combo : Combination} (hentry : combo.entry = job.entry) :
    UnitsValid config (Function.update units job.key (some combo)) := by
  intro key result hresult
  by_cases hkey : key = job.key
  · subst hkey
    rw [Function.update_self] at hresult
    exact ⟨job, hjob, rfl, Option.some.inj hresult ▸ hentry⟩
  · rw [Function.update_of_ne hkey] at hresult
    exact hvalid key result hresult

namespace Runner

variable {runner next : Runner} {job : ExperimentJob}

theorem submit_cases {pausing : Bool} (hsubmit : runner.submit pausing = some next) :
    next = { runner with remaining := [], paused := true } ∨
      ∃ job rest, runner.remaining = job :: rest ∧
        next = { runner with
          remaining := rest, futures := runner.futures ++ [{ key := job }] } := by
  rw [submit] at hsubmit
  split at hsubmit
  · cases hsubmit
  · next job rest hremaining =>
      split_ifs at hsubmit
      · exact .inl (Option.some.inj hsubmit).symm
      · exact .inr ⟨job, rest, hremaining, (Option.some.inj hsubmit).symm⟩

/-- The list stays, and so does what is pending. -/
theorem Consistent.advance (hrunner : runner.Consistent config units)
    (hmetadata : next.metadata = runner.metadata) (hpending : next.pending = runner.pending)
    (hremaining : next.remaining ⊆ runner.remaining)
    (hsettled : ∀ future ∈ next.futures, Settled units future)
    (hskipped : ∀ future ∈ next.futures, future.progress = .done none → next.paused = true)
    (hrunning : next.paused = false → runner.paused = false) :
    next.Consistent config units where
  listed := hmetadata ▸ hrunner.listed
  nodup := hpending ▸ hrunner.nodup
  known := hpending ▸ hrunner.known
  unlisted := hpending ▸ hmetadata ▸ hrunner.unlisted
  unsaved job hjob := hrunner.unsaved job (hremaining hjob)
  settled := hsettled
  skipped := hskipped
  covered hpaused := hpending ▸ hmetadata ▸ hrunner.covered (hrunning hpaused)

/-- A pause leaves what was not submitted. -/
theorem Consistent.pause (hrunner : runner.Consistent config units) :
    ({ runner with remaining := [], paused := true } : Runner).Consistent config units := by
  have hsublist : ({ runner with remaining := [], paused := true } : Runner).pending.Sublist
      runner.pending := List.Sublist.append_left (List.nil_sublist _) _
  exact {
    listed := hrunner.listed
    nodup := hrunner.nodup.sublist hsublist
    known := fun job hjob => hrunner.known job (hsublist.subset hjob)
    unlisted := fun job hjob => hrunner.unlisted job (hsublist.subset hjob)
    unsaved := nofun
    settled := hrunner.settled
    skipped := fun _ _ _ => rfl
    covered := nofun }

theorem Consistent.submit (hrunner : runner.Consistent config units) {pausing : Bool}
    (hsubmit : runner.submit pausing = some next) : next.Consistent config units := by
  cases submit_cases hsubmit with
  | inl hpaused => exact hpaused ▸ hrunner.pause
  | inr hsubmitted =>
      obtain ⟨job, rest, hremaining, rfl⟩ := hsubmitted
      have hunsaved : units job.key = none :=
        hrunner.unsaved job (hremaining ▸ List.mem_cons_self)
      refine hrunner.advance ?_ ?_ ?_ ?_ ?_ ?_
      · rfl
      · simp [pending, hremaining]
      · exact hremaining ▸ List.subset_cons_self job rest
      · intro future hfuture
        cases List.mem_append.mp hfuture with
        | inl hbefore => exact hrunner.settled future hbefore
        | inr hnew => exact List.mem_singleton.mp hnew ▸ hunsaved
      · intro future hfuture hnone
        cases List.mem_append.mp hfuture with
        | inl hbefore => exact hrunner.skipped future hbefore hnone
        | inr hnew => cases List.mem_singleton.mp hnew ▸ hnone
      · exact id

theorem next?_mem (hnext : runner.next? = some job) :
    (⟨job, .queued⟩ : Job ExperimentJob Combination) ∈ runner.futures := by
  rw [next?] at hnext
  split at hnext
  · exact first?_mem hnext
  · cases hnext

/-- A combination is executed when it has no unit. -/
theorem Consistent.unsaved_of_next (hrunner : runner.Consistent config units)
    (hnext : runner.next? = some job) : units job.key = none :=
  hrunner.settled _ (next?_mem hnext)

/-- A worker changes the progress of one future. -/
theorem Consistent.replace (hrunner : runner.Consistent config units)
    {futures : List (Job ExperimentJob Combination)} {paused : Bool}
    (hkeys : futures.map (·.key) = runner.futures.map (·.key))
    (hsettled : ∀ future ∈ futures, Settled units future)
    (hskipped : ∀ future ∈ futures, future.progress = .done none → paused = true)
    (hrunning : paused = false → runner.paused = false) :
    ({ runner with futures := futures, paused := paused } : Runner).Consistent config units := by
  refine hrunner.advance ?_ ?_ ?_ ?_ ?_ ?_
  · rfl
  · rw [pending, hkeys, pending]
  · exact List.Subset.refl _
  · exact hsettled
  · exact hskipped
  · exact hrunning

theorem Consistent.futures_nodup (hrunner : runner.Consistent config units) :
    (runner.futures.map (·.key)).Nodup :=
  (List.nodup_append.mp hrunner.nodup).1

theorem take_cases {pausing : Bool} (htake : runner.take pausing = some next) :
    ∃ job, runner.next? = some job ∧ first? runner.futures = some job ∧
      next = if pausing then
        { runner with futures := WorkPool.take (.done none) runner.futures, paused := true }
      else { runner with futures := WorkPool.take .executing runner.futures } := by
  obtain ⟨job, hjob, hnext⟩ := Option.map_eq_some_iff.mp htake
  refine ⟨job, hjob, ?_, hnext.symm⟩
  rw [next?] at hjob
  split at hjob
  · exact hjob
  · cases hjob

theorem Consistent.take (hrunner : runner.Consistent config units) {pausing : Bool}
    (htake : runner.take pausing = some next) : next.Consistent config units := by
  obtain ⟨job, hnext, hfirst, rfl⟩ := take_cases htake
  have hunsaved := hrunner.unsaved_of_next hnext
  cases pausing with
  | true =>
      refine hrunner.replace map_key_take ?_ (fun _ _ _ => rfl) nofun
      intro future hfuture
      cases (mem_take hrunner.futures_nodup hfirst).mp hfuture with
      | inl hbefore => exact hrunner.settled future hbefore.1
      | inr hskipped => exact hskipped ▸ hunsaved
  | false =>
      refine hrunner.replace map_key_take ?_ ?_ id
      · intro future hfuture
        cases (mem_take hrunner.futures_nodup hfirst).mp hfuture with
        | inl hbefore => exact hrunner.settled future hbefore.1
        | inr htaken => exact htaken ▸ hunsaved
      · intro future hfuture hnone
        cases (mem_take hrunner.futures_nodup hfirst).mp hfuture with
        | inl hbefore => exact hrunner.skipped future hbefore.1 hnone
        | inr htaken =>
            rw [htaken] at hnone
            cases hnone

theorem Consistent.fail (hrunner : runner.Consistent config units) {position : ℕ}
    (hexecuting : executing? position runner.futures = some job) :
    (runner.settle position .failed).Consistent config units := by
  refine hrunner.replace (map_key_settle position) ?_ ?_ id
  · intro future hfuture
    cases (mem_settle hrunner.futures_nodup hexecuting).mp hfuture with
    | inl hother => exact hrunner.settled future hother.1
    | inr hfailed =>
        have hunsaved : units job.key = none := hrunner.settled _ (executing?_mem hexecuting)
        exact hfailed ▸ hunsaved
  · intro future hfuture hnone
    cases (mem_settle hrunner.futures_nodup hexecuting).mp hfuture with
    | inl hother => exact hrunner.skipped future hother.1 hnone
    | inr hfailed =>
        rw [hfailed] at hnone
        cases hnone

theorem pending_of_executing {position : ℕ}
    (hexecuting : executing? position runner.futures = some job) : job ∈ runner.pending :=
  List.mem_append_left _ (List.mem_map_of_mem (executing?_mem hexecuting))

theorem pending_settle (position : ℕ) (progress : Progress Combination) :
    (runner.settle position progress).pending = runner.pending := by
  rw [pending, settle, map_key_settle, pending]

/-- The unit of an executed combination is saved before its future has the result. -/
theorem Consistent.finish (hrunner : runner.Consistent config units) {position : ℕ}
    (hexecuting : executing? position runner.futures = some job) (combo : Combination) :
    (runner.settle position (.done (some combo))).Consistent config
      (Function.update units job.key (some combo)) := by
  have hjob : job ∈ runner.pending := pending_of_executing hexecuting
  have hunsaved : units job.key = none := hrunner.settled _ (executing?_mem hexecuting)
  have hother : ∀ other ∈ runner.pending, other ≠ job →
      Function.update units job.key (some combo) other.key = units other.key := by
    intro other hpending hne
    apply Function.update_of_ne
    exact fun hkey =>
      hne (ExperimentConfig.eq_of_key (hrunner.known other hpending) (hrunner.known job hjob) hkey)
  have hpending : (runner.settle position (.done (some combo))).pending = runner.pending :=
    pending_settle _ _
  exact {
    listed := hrunner.listed.mono (grows_update hunsaved)
    nodup := hpending ▸ hrunner.nodup
    known := fun other hmember => hrunner.known other (hpending ▸ hmember)
    unlisted := fun other hmember => hrunner.unlisted other (hpending ▸ hmember)
    unsaved := by
      intro other hremaining
      have hne : other ≠ job := by
        rintro rfl
        have hfuture : other ∈ runner.futures.map (·.key) :=
          List.mem_map_of_mem (executing?_mem hexecuting)
        exact (List.nodup_append.mp hrunner.nodup).2.2 other hfuture other hremaining rfl
      rw [hother other (List.mem_append_right _ hremaining) hne]
      exact hrunner.unsaved other hremaining
    settled := by
      intro future hfuture
      cases (mem_settle hrunner.futures_nodup hexecuting).mp hfuture with
      | inl hbefore =>
          have hkept := hother future.key
            (List.mem_append_left _ (List.mem_map_of_mem hbefore.1)) hbefore.2
          have hsettled := hrunner.settled future hbefore.1
          rw [Settled] at hsettled ⊢
          rwa [hkept]
      | inr hdone =>
          subst hdone
          exact Function.update_self _ _ _
    skipped := by
      intro future hfuture hnone
      cases (mem_settle hrunner.futures_nodup hexecuting).mp hfuture with
      | inl hbefore => exact hrunner.skipped future hbefore.1 hnone
      | inr hdone =>
          rw [hdone] at hnone
          cases hnone
    covered := fun hpaused other hmember => hpending ▸ hrunner.covered hpaused other hmember }

theorem collect_cases (hcollect : runner.collect = some next) :
    ∃ job result rest, runner.futures = ⟨job, .done result⟩ :: rest ∧
      next = { runner with metadata := runner.metadata.append result.toList, futures := rest } := by
  rw [collect] at hcollect
  split at hcollect
  · next job result rest hfutures =>
      split_ifs at hcollect
      exact ⟨job, result, rest, hfutures, (Option.some.inj hcollect).symm⟩
  · cases hcollect

/-- A result is listed under a key that was not listed. -/
theorem Consistent.collect (hvalid : UnitsValid config units)
    (hrunner : runner.Consistent config units) (hcollect : runner.collect = some next) :
    next.Consistent config units := by
  obtain ⟨job, result, rest, hfutures, rfl⟩ := collect_cases hcollect
  have hhead : (⟨job, .done result⟩ : Job ExperimentJob Combination) ∈ runner.futures :=
    hfutures ▸ List.mem_cons_self
  have htail : ∀ future ∈ rest, future ∈ runner.futures :=
    fun future hfuture => hfutures ▸ List.mem_cons_of_mem _ hfuture
  have hpending : runner.pending = job :: (rest.map (·.key) ++ runner.remaining) := by
    rw [pending, hfutures]
    rfl
  have hsubset : ∀ other ∈ rest.map (·.key) ++ runner.remaining, other ∈ runner.pending :=
    fun other hother => hpending ▸ List.mem_cons_of_mem _ hother
  have hnodup := hpending ▸ hrunner.nodup
  have hsettled := hrunner.settled _ hhead
  cases result with
  | none =>
      have hpaused := hrunner.skipped _ hhead rfl
      have hmetadata : runner.metadata.append [] = runner.metadata := by
        rw [Metadata.append, List.append_nil]
      rw [Option.toList_none, hmetadata]
      exact {
        listed := hrunner.listed
        nodup := (List.nodup_cons.mp hnodup).2
        known := fun other hother => hrunner.known other (hsubset other hother)
        unlisted := fun other hother => hrunner.unlisted other (hsubset other hother)
        unsaved := hrunner.unsaved
        settled := fun future hfuture => hrunner.settled future (htail future hfuture)
        skipped := fun future hfuture => hrunner.skipped future (htail future hfuture)
        covered := fun hrunning => by
          rw [hpaused] at hrunning
          cases hrunning }
  | some combo =>
      have hid : combo.unitId = some job.key := hvalid.unitId hsettled
      have hids : (runner.metadata.append [combo]).unitIds =
          runner.metadata.unitIds ++ [some job.key] := by
        rw [unitIds_append, List.map_singleton, hid]
      have hnew : some job.key ∉ runner.metadata.unitIds :=
        hrunner.unlisted job (hpending ▸ List.mem_cons_self)
      rw [Option.toList_some]
      exact {
        listed := hrunner.listed.append hsettled hid hnew
        nodup := (List.nodup_cons.mp hnodup).2
        known := fun other hother => hrunner.known other (hsubset other hother)
        unlisted := fun other hother hmember => by
          rw [hids] at hmember
          cases List.mem_append.mp hmember with
          | inl hbefore => exact hrunner.unlisted other (hsubset other hother) hbefore
          | inr hlast =>
              have hkey : other.key = job.key := Option.some.inj (List.mem_singleton.mp hlast)
              have hsame := ExperimentConfig.eq_of_key
                (hrunner.known other (hsubset other hother))
                (hrunner.known job (hpending ▸ List.mem_cons_self)) hkey
              exact (List.nodup_cons.mp hnodup).1 (hsame ▸ hother)
        unsaved := hrunner.unsaved
        settled := fun future hfuture => hrunner.settled future (htail future hfuture)
        skipped := fun future hfuture => hrunner.skipped future (htail future hfuture)
        covered := fun hrunning other hother => by
          rw [hids]
          cases hrunner.covered hrunning other hother with
          | inl hlisted => exact .inl (List.mem_append_left _ hlisted)
          | inr hmember =>
              rw [hpending] at hmember
              cases List.mem_cons.mp hmember with
              | inl hsame => exact .inl (List.mem_append_right _ (by rw [hsame]; exact List.mem_singleton_self _))
              | inr hrest => exact .inr hrest }

/-- The list a call leaves behind is complete if it says that it is. -/
theorem Consistent.leave (hrunner : runner.Consistent config units) {now : ℕ}
    {metadata : Metadata} (hleave : runner.leave now = some metadata) :
    Listed config units metadata := by
  rw [Runner.leave] at hleave
  split_ifs at hleave with hdone hpaused
  · exact Option.some.inj hleave ▸ hrunner.listed
  · have hpending : runner.pending = [] := by
      rw [pending, hdone.1, hdone.2]
      rfl
    cases hleave
    exact {
      saved := hrunner.listed.saved
      nodup := hrunner.listed.nodup
      finished := fun _ job hjob => by
        cases hrunner.covered (Bool.not_eq_true _ ▸ hpaused) job hjob with
        | inl hlisted => exact hlisted
        | inr hmember =>
            rw [hpending] at hmember
            cases hmember }

end Runner

/-! ## Runs -/

theorem Consistent.setRunner {state : State} (hstate : Consistent config state) {runner : Runner}
    (hrunner : runner.Consistent config state.units) :
    Consistent config (state.setRunner runner) where
  units := hstate.units
  disk := hstate.disk
  runner _ hsame := Option.some.inj hsame ▸ hrunner

theorem Consistent.stop {state : State} (hstate : Consistent config state) :
    Consistent config { state with runner := none } where
  units := hstate.units
  disk := hstate.disk
  runner := nofun

theorem Consistent.start {state : State} (hstate : Consistent config state) :
    Consistent config (state.start config) := by
  have hlisted : Listed config state.units (state.experimentJson.getD {}) := by
    cases hjson : state.experimentJson with
    | none => exact Listed.empty
    | some metadata => exact hstate.disk metadata hjson
  exact {
    units := hstate.units
    disk := fun metadata hsame => Option.some.inj hsame ▸ hlisted
    runner := fun runner hsame =>
      Option.some.inj hsame ▸ consistent_opened hstate.units hlisted }

theorem Consistent.finish {state : State} (hstate : Consistent config state) {runner : Runner}
    (hrunner : state.runner = some runner) {position : ℕ} {job : ExperimentJob}
    (hexecuting : executing? position runner.futures = some job) (unsupported : Bool) :
    Consistent config ((state.put job (unitCombo job unsupported)).setRunner
      (runner.settle position (.done (some (unitCombo job unsupported))))) := by
  have hbefore := hstate.runner runner hrunner
  have hjob := hbefore.known job (Runner.pending_of_executing hexecuting)
  have hunsaved : state.units job.key = none := hbefore.settled _ (executing?_mem hexecuting)
  exact {
    units := hstate.units.put hjob (entry_unitCombo job unsupported)
    disk := fun metadata hjson => (hstate.disk metadata hjson).mono (grows_update hunsaved)
    runner := fun _ hsame => Option.some.inj hsame ▸ hbefore.finish hexecuting _ }

theorem step_consistent : Preserved (step config) (Consistent config) := by
  intro state label next hstate hstep
  cases label with
  | start =>
      rw [step] at hstep
      split at hstep
      · exact Option.some.inj hstep ▸ hstate.start
      · cases hstep
  | submit pausing =>
      obtain ⟨runner, hrunner, hmap⟩ := Option.bind_eq_some_iff.mp hstep
      obtain ⟨submitted, hsubmit, rfl⟩ := Option.map_eq_some_iff.mp hmap
      exact hstate.setRunner ((hstate.runner runner hrunner).submit hsubmit)
  | take pausing =>
      obtain ⟨runner, hrunner, hmap⟩ := Option.bind_eq_some_iff.mp hstep
      obtain ⟨taken, htake, rfl⟩ := Option.map_eq_some_iff.mp hmap
      exact hstate.setRunner ((hstate.runner runner hrunner).take htake)
  | finish position unsupported =>
      obtain ⟨runner, hrunner, hmap⟩ := Option.bind_eq_some_iff.mp hstep
      obtain ⟨job, hexecuting, rfl⟩ := Option.map_eq_some_iff.mp hmap
      exact hstate.finish hrunner hexecuting unsupported
  | fail position =>
      obtain ⟨runner, hrunner, hmap⟩ := Option.bind_eq_some_iff.mp hstep
      obtain ⟨job, hexecuting, rfl⟩ := Option.map_eq_some_iff.mp hmap
      split
      · exact hstate.setRunner ((hstate.runner runner hrunner).fail hexecuting)
      · exact hstate.stop
  | collect =>
      obtain ⟨runner, hrunner, hmap⟩ := Option.bind_eq_some_iff.mp hstep
      obtain ⟨collected, hcollect, rfl⟩ := Option.map_eq_some_iff.mp hmap
      have hcollected := (hstate.runner runner hrunner).collect hstate.units hcollect
      exact {
        units := hstate.units
        disk := fun _ hsame => Option.some.inj hsame ▸ hcollected.listed
        runner := fun _ hsame => Option.some.inj hsame ▸ hcollected }
  | leave now =>
      obtain ⟨runner, hrunner, hmap⟩ := Option.bind_eq_some_iff.mp hstep
      obtain ⟨metadata, hleave, rfl⟩ := Option.map_eq_some_iff.mp hmap
      exact {
        units := hstate.units
        disk := fun _ hsame => Option.some.inj hsame ▸ (hstate.runner runner hrunner).leave hleave
        runner := nofun }
  | crash =>
      obtain ⟨runner, hrunner, rfl⟩ := Option.map_eq_some_iff.mp hstep
      exact hstate.stop

theorem reachable_consistent {state : State} (hreach : Reachable (step config) initial state) :
    Consistent config state :=
  step_consistent.reachable (initial_consistent config) hreach

/-! ## The finished list -/

/-- Every listed combination is one of the configuration. -/
theorem mem_entries_of_listed (hvalid : UnitsValid config units) {metadata : Metadata}
    (hlisted : Listed config units metadata) {combo : Combination}
    (hcombo : combo ∈ metadata.combinations) : ∃ job ∈ config.jobs, combo.entry = job.entry := by
  obtain ⟨key, -, hunit⟩ := hlisted.saved combo hcombo
  obtain ⟨job, hjob, -, hentry⟩ := hvalid key combo hunit
  exact ⟨job, hjob, hentry⟩

/-- A list that says it is finished has every combination once. -/
theorem finished_entries (hvalid : UnitsValid config units) {metadata : Metadata}
    (hlisted : Listed config units metadata) (hfinished : metadata.finishedAt.isSome) :
    (metadata.combinations.map (·.entry)).Perm (config.jobs.map (·.entry)) := by
  have hentries : (metadata.combinations.map (·.entry)).Nodup := by
    apply List.Nodup.of_map Prod.fst
    rw [List.map_map]
    exact hlisted.nodup
  have hjobs : (config.jobs.map (·.entry)).Nodup := by
    apply List.Nodup.map_on
    · intro job hjob other hother hsame
      exact ExperimentConfig.eq_of_key hjob hother (Option.some.inj (congrArg Prod.fst hsame))
    · exact config.jobs_nodup
  apply (List.perm_ext_iff_of_nodup hentries hjobs).mpr
  intro entry
  constructor
  · intro hentry
    obtain ⟨combo, hcombo, rfl⟩ := List.mem_map.mp hentry
    obtain ⟨job, hjob, hsame⟩ := mem_entries_of_listed hvalid hlisted hcombo
    exact List.mem_map.mpr ⟨job, hjob, hsame.symm⟩
  · intro hentry
    obtain ⟨job, hjob, rfl⟩ := List.mem_map.mp hentry
    obtain ⟨combo, hcombo, hid⟩ := List.mem_map.mp (hlisted.finished hfinished job hjob)
    obtain ⟨other, hother, hsame⟩ := mem_entries_of_listed hvalid hlisted hcombo
    have hkey : job.key = other.key :=
      Option.some.inj (hid.symm.trans (congrArg Prod.fst hsame))
    rw [ExperimentConfig.eq_of_key hjob hother hkey]
    exact List.mem_map.mpr ⟨combo, hcombo, hsame⟩

theorem map_entry_jobs (config : ExperimentConfig) :
    (config.jobs.map (·.entry)).map Prod.snd = config.allJobs := by
  rw [ExperimentConfig.jobs, List.map_map, List.map_map]
  exact List.zipIdx_map_fst 0 config.allJobs

/-- Whatever was paused or lost on the way, a finished `experiment.json` lists
every combination of the configuration once and no other, and no step begins
the execution of a combination that has a saved unit. -/
theorem combinations_exactly_once (config : ExperimentConfig) (state : State)
    (hreach : Reachable (step config) initial state) :
    (∀ metadata, state.experimentJson = some metadata → metadata.finishedAt.isSome →
      metadata.unitIds.Nodup ∧
      (metadata.combinations.map (·.entry)).Perm (config.jobs.map (·.entry)) ∧
      (metadata.combinations.map (·.entry.2)).Perm config.allJobs) ∧
    ∀ label next job, step config state label = some next → executes state label = some job →
      state.units job.key = none := by
  have hstate := reachable_consistent hreach
  constructor
  · intro metadata hjson hfinished
    have hlisted := hstate.disk metadata hjson
    have hentries := finished_entries hstate.units hlisted hfinished
    refine ⟨hlisted.nodup, hentries, ?_⟩
    have htriples := hentries.map Prod.snd
    rwa [map_entry_jobs, List.map_map] at htriples
  · intro label next job _ hexecutes
    rw [executes.eq_def] at hexecutes
    split at hexecutes
    · obtain ⟨runner, hrunner, hnext⟩ := Option.bind_eq_some_iff.mp hexecutes
      exact (hstate.runner runner hrunner).unsaved_of_next hnext
    · cases hexecutes

/-- Two repeats of one combination. -/
def twoRepeats : ExperimentConfig where
  models := ["gpt"]
  strategies := ["direct"]
  repeats := 2
  execution := .serial
  maxWorkers := 4
  models_nonempty := by decide
  strategies_nonempty := by decide
  repeats_pos := by decide
  maxWorkers_pos := by decide
  maxWorkers_le := by decide

/-- The process ends after it has saved the first unit, the next one is paused
before the second, and the third completes the experiment. -/
def interrupted : List Label :=
  [.start, .submit false, .take false, .finish 0 false, .crash,
    .start, .submit true, .leave 1,
    .start, .submit false, .take false, .finish 0 false, .collect, .leave 2]

theorem combinations_exactly_once_interrupted :
    ∃ state metadata, run (step twoRepeats) initial interrupted = some state ∧
      state.experimentJson = some metadata ∧ metadata.finishedAt = some 2 ∧
      (metadata.combinations.map (·.entry.2)).Perm [("gpt", "direct", 1), ("gpt", "direct", 2)] :=
  have hrun : run (step twoRepeats) initial interrupted = some _ := rfl
  ⟨_, _, hrun, rfl, rfl,
    ((combinations_exactly_once twoRepeats _ ⟨_, hrun⟩).1 _ rfl rfl).2.2⟩

end AlgorithmHarness.Experiment
