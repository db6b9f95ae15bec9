import AlgorithmHarness.Core.Table
import AlgorithmHarness.Harness.Accountants
import AlgorithmHarness.Harness.SequentialRun
import Mathlib.Algebra.Order.BigOperators.Group.List
import Mathlib.Data.List.Induction
import Mathlib.Data.List.Perm.Subperm

/-!
# The budget of resumable runs

The saved units are the first ones of the plan, so a process has restored all
of them before it dispatches another.  The dictionary of results is keyed by
the name of a strategy.
-/

namespace AlgorithmHarness.Harness

open Transition

variable {Strategy Problem Stamp : Type*} [DecidableEq Stamp] [DecidableEq Problem]

/-! ## The checkpoint -/

namespace UnitCheckpoint

variable {checkpoint : UnitCheckpoint Problem Stamp} {key other : UnitKey Stamp}
  {result : ExecutionResult}

/-- The known cost of all units that have a saved result. -/
def knownCost (checkpoint : UnitCheckpoint Problem Stamp) : ℚ :=
  (checkpoint.saved.map fun entry => (resultCost entry.2.account).1).sum

omit [DecidableEq Problem] in
theorem get_eq_none :
    checkpoint.get key = none ↔ key ∉ checkpoint.saved.map Prod.fst := by
  rw [get, Option.map_eq_none_iff, KeyedRows.fetch_eq_none]

omit [DecidableEq Problem] in
theorem saved_put (hnone : checkpoint.get key = none) (result : ExecutionResult) :
    (checkpoint.put key result).saved = checkpoint.saved ++ [(key, result)] := by
  rw [get, Option.map_eq_none_iff] at hnone
  exact KeyedRows.put_of_fetch_none hnone

omit [DecidableEq Problem] in
theorem get_put (checkpoint : UnitCheckpoint Problem Stamp) (key other : UnitKey Stamp)
    (result : ExecutionResult) :
    (checkpoint.put key result).get other =
      if key = other then some result else checkpoint.get other := by
  rw [get, put, KeyedRows.fetch_put, get]
  split_ifs <;> rfl

omit [DecidableEq Problem] in
theorem mem_of_get (hget : checkpoint.get key = some result) :
    (key, result) ∈ checkpoint.saved := by
  rw [get, Option.map_eq_some_iff] at hget
  obtain ⟨entry, hfetch, rfl⟩ := hget
  obtain ⟨hmem, rfl⟩ := KeyedRows.fetch_mem hfetch
  exact hmem

end UnitCheckpoint

theorem resultCost_nonneg (account : Account) : 0 ≤ (resultCost account).1 := by
  rw [resultCost_fst]
  refine List.sum_nonneg fun cost hcost => ?_
  obtain ⟨trace, -, htrusted⟩ := List.mem_filterMap.mp hcost
  rw [LlmTrace.trusted, Option.bind_eq_some_iff] at htrusted
  obtain ⟨pricing, -, hpricing⟩ := htrusted
  rw [PricingMetadata.trustedCost] at hpricing
  split at hpricing
  · cases hpricing
  · split at hpricing
    · split at hpricing
      · cases hpricing
      · next hnonneg =>
          cases hpricing
          exact not_lt.mp hnonneg
    · cases hpricing

/-! ## The plan of a run -/

/-- The keys of the units in the order in which a run comes to them. -/
def Snapshot.keys (problemId : Problem → String) (snapshot : Snapshot Problem Stamp) :
    List (UnitKey Stamp) :=
  snapshot.config.strategies.flatMap fun stamp =>
    snapshot.problems.map fun problem => (stamp, problemId problem)

/-- What is on disk under a manifest. -/
structure Recorded (catalog : Catalog Strategy Problem Stamp) (snapshot : Snapshot Problem Stamp)
    (saved : List (UnitKey Stamp × ExecutionResult)) : Prop where
  nodup : (saved.map Prod.fst).Nodup
  /-- The saved units are the first ones of the plan. -/
  closed : ∀ before key after, snapshot.keys catalog.problemId = before ++ key :: after →
    key ∉ before → key ∈ saved.map Prod.fst → ∀ earlier ∈ before, earlier ∈ saved.map Prod.fst
  planned : ∀ key ∈ saved.map Prod.fst, key ∈ snapshot.keys catalog.problemId
  result : ∀ entry ∈ saved, entry.2.problemId = entry.1.2 ∧
    ∀ strategy, catalog.stamp strategy = entry.1.1 → entry.2.strategy = catalog.name strategy
  budget : ∀ cap, snapshot.config.budgetCapUsd = some cap → ∀ before entry after,
    saved = before ++ entry :: after →
      (before.map fun entry => (resultCost entry.2.account).1).sum < cap

/-! ## The position of a process -/

namespace Runs

variable (catalog : Catalog Strategy Problem Stamp)

def strategyKeys (problems : List Problem) (strategy : Strategy) : List (UnitKey Stamp) :=
  problems.map (unitKey catalog strategy)

/-- The results of the units, as they are saved. -/
def savedResults (checkpoint : UnitCheckpoint Problem Stamp) (keys : List (UnitKey Stamp)) :
    List ExecutionResult :=
  keys.filterMap checkpoint.get

def closedResults (checkpoint : UnitCheckpoint Problem Stamp) (problems : List Problem)
    (done : List Strategy) : List (String × List ExecutionResult) :=
  done.foldl
    (fun results strategy => KeyedRows.put Prod.fst
      (catalog.name strategy, savedResults checkpoint (strategyKeys catalog problems strategy))
      results) []

/-- A process that has been through the units `seen`. -/
structure Tracks (checkpoint : UnitCheckpoint Problem Stamp) (process : Process Strategy Problem)
    (done : List Strategy) (seen : List (UnitKey Stamp)) : Prop where
  saved : ∀ key ∈ seen, key ∈ checkpoint.saved.map Prod.fst
  cost : process.config.budgetCapUsd.isSome = true → process.accumulatedCost =
    ((savedResults checkpoint seen).map fun result => (resultCost result.account).1).sum
  results : process.results = closedResults catalog checkpoint process.problems done

/-- Where the process is in its plan. -/
def Located (checkpoint : UnitCheckpoint Problem Stamp) (process : Process Strategy Problem) :
    Phase Strategy Problem → Prop
  | .choosing rest => ∃ done, process.config.strategies = done ++ rest ∧
      Tracks catalog checkpoint process done (done.flatMap (strategyKeys catalog process.problems))
  | .looping strategy rest results pending => ∃ done before,
      process.config.strategies = done ++ strategy :: rest ∧ process.problems = before ++ pending ∧
      results = savedResults checkpoint (strategyKeys catalog before strategy) ∧
      Tracks catalog checkpoint process done
        (done.flatMap (strategyKeys catalog process.problems) ++
          strategyKeys catalog before strategy)
  | .executing strategy rest results problem pending => ∃ done before,
      process.config.strategies = done ++ strategy :: rest ∧
      process.problems = before ++ problem :: pending ∧
      results = savedResults checkpoint (strategyKeys catalog before strategy) ∧
      checkpoint.get (unitKey catalog strategy problem) = none ∧
      (∀ cap, process.config.budgetCapUsd = some cap → checkpoint.knownCost < cap) ∧
      Tracks catalog checkpoint process done
        (done.flatMap (strategyKeys catalog process.problems) ++
          strategyKeys catalog before strategy)
  | .settling strategy rest results result pending => ∃ done before problem,
      process.config.strategies = done ++ strategy :: rest ∧
      process.problems = before ++ problem :: pending ∧
      results = savedResults checkpoint (strategyKeys catalog before strategy) ∧
      checkpoint.get (unitKey catalog strategy problem) = some result ∧
      Tracks catalog checkpoint process done
        (done.flatMap (strategyKeys catalog process.problems) ++
          strategyKeys catalog before strategy)
  | .finished => process.paused = true ∨
      process.results =
        closedResults catalog checkpoint process.problems process.config.strategies ∧
      ∀ key ∈ process.config.strategies.flatMap (strategyKeys catalog process.problems),
        key ∈ checkpoint.saved.map Prod.fst

/-- The invariant of chains of runs. -/
structure Sound (runs : Runs Strategy Problem Stamp) : Prop where
  unstarted : runs.checkpoint.manifest = none → runs.checkpoint.saved = []
  recorded : ∀ manifest, runs.checkpoint.manifest = some manifest →
    Recorded catalog manifest runs.checkpoint.saved
  process : ∀ process, runs.process = some process →
    runs.checkpoint.manifest = some (snapshot catalog process.config process.problems) ∧
    process.problems ≠ [] ∧ (process.paused = true → process.phase = .finished) ∧
    Located catalog runs.checkpoint process process.phase

variable {catalog : Catalog Strategy Problem Stamp}
  {checkpoint : UnitCheckpoint Problem Stamp} {process : Process Strategy Problem}
  {snapshot : Snapshot Problem Stamp} {key : UnitKey Stamp} {seen : List (UnitKey Stamp)}
  {result : ExecutionResult}

/-! ## Saved results -/

omit [DecidableEq Problem] in
theorem savedResults_append (first second : List (UnitKey Stamp)) :
    savedResults checkpoint (first ++ second) =
      savedResults checkpoint first ++ savedResults checkpoint second :=
  List.filterMap_append

omit [DecidableEq Problem] in
theorem savedResults_singleton (hsaved : checkpoint.get key = some result) :
    savedResults checkpoint [key] = [result] := by
  rw [savedResults, List.filterMap_cons_some hsaved, List.filterMap_nil]

omit [DecidableEq Problem] in
theorem savedResults_put (hnone : checkpoint.get key = none)
    (hseen : ∀ other ∈ seen, other ∈ checkpoint.saved.map Prod.fst) :
    savedResults (checkpoint.put key result) seen = savedResults checkpoint seen := by
  refine List.filterMap_congr fun other hother => ?_
  have hne : key ≠ other := by
    rintro rfl
    exact UnitCheckpoint.get_eq_none.mp hnone (hseen key hother)
  rw [UnitCheckpoint.get_put, if_neg hne]

omit [DecidableEq Problem] in
theorem closedResults_put {problems : List Problem} {done : List Strategy}
    (hnone : checkpoint.get key = none)
    (hdone : ∀ other ∈ done.flatMap (strategyKeys catalog problems),
      other ∈ checkpoint.saved.map Prod.fst) :
    closedResults catalog (checkpoint.put key result) problems done =
      closedResults catalog checkpoint problems done := by
  refine List.foldl_ext _ _ _ fun results strategy hstrategy => ?_
  rw [savedResults_put hnone fun other hother =>
    hdone other (List.mem_flatMap.mpr ⟨strategy, hstrategy, hother⟩)]

/-- The known cost of a unit, if it has a saved result. -/
def costOf (checkpoint : UnitCheckpoint Problem Stamp) (key : UnitKey Stamp) : ℚ :=
  ((checkpoint.get key).map fun result => (resultCost result.account).1).getD 0

omit [DecidableEq Problem] in
theorem costOf_nonneg (key : UnitKey Stamp) : 0 ≤ costOf checkpoint key := by
  rw [costOf]
  cases checkpoint.get key with
  | none => exact le_refl 0
  | some result => exact resultCost_nonneg result.account

omit [DecidableEq Problem] in
theorem sum_savedResults (keys : List (UnitKey Stamp)) :
    ((savedResults checkpoint keys).map fun result => (resultCost result.account).1).sum =
      (keys.map (costOf checkpoint)).sum := by
  induction keys with
  | nil => rfl
  | cons key keys ih =>
      rw [List.map_cons, List.sum_cons, ← ih, savedResults, costOf, List.filterMap_cons]
      cases checkpoint.get key <;> simp [savedResults]

omit [DecidableEq Problem] in
theorem knownCost_eq (hnodup : (checkpoint.saved.map Prod.fst).Nodup) :
    checkpoint.knownCost = ((checkpoint.saved.map Prod.fst).map (costOf checkpoint)).sum := by
  rw [UnitCheckpoint.knownCost, List.map_map]
  congr 1
  refine List.map_congr_left fun entry hentry => ?_
  have hget : checkpoint.get entry.1 = some entry.2 := by
    cases hsome : checkpoint.get entry.1 with
    | none =>
        exact absurd (List.mem_map_of_mem hentry) (UnitCheckpoint.get_eq_none.mp hsome)
    | some result =>
        have hmem := UnitCheckpoint.mem_of_get hsome
        exact congrArg some (congrArg Prod.snd (Table.row_unique hnodup hmem hentry rfl))
  rw [Function.comp_apply, costOf, hget]
  rfl

omit [DecidableEq Problem] in
/-- The saved units are among those seen, and each of them counts. -/
theorem knownCost_le (hnodup : (checkpoint.saved.map Prod.fst).Nodup)
    (hseen : ∀ key ∈ checkpoint.saved.map Prod.fst, key ∈ seen) :
    checkpoint.knownCost ≤ (seen.map (costOf checkpoint)).sum := by
  rw [knownCost_eq hnodup]
  obtain ⟨some, hperm, hsublist⟩ := (List.subperm_of_subset hnodup hseen)
  rw [← (hperm.map (costOf checkpoint)).sum_eq]
  refine (hsublist.map (costOf checkpoint)).sum_le_sum fun cost hcost => ?_
  obtain ⟨key, -, rfl⟩ := List.mem_map.mp hcost
  exact costOf_nonneg key

omit [DecidableEq Problem] in
/-- Units with different keys are each counted once. -/
theorem knownCost_eq_of_nodup (hnodup : (checkpoint.saved.map Prod.fst).Nodup)
    (hseen : ∀ key, key ∈ checkpoint.saved.map Prod.fst ↔ key ∈ seen) (honce : seen.Nodup) :
    checkpoint.knownCost = (seen.map (costOf checkpoint)).sum := by
  rw [knownCost_eq hnodup]
  have hperm := (List.perm_ext_iff_of_nodup hnodup honce).mpr hseen
  exact (hperm.map (costOf checkpoint)).sum_eq

/-! ## The next unit of the plan -/

omit [DecidableEq Problem] in
/-- A unit without a saved result comes after all units that have one. -/
theorem saved_seen (hrecorded : Recorded catalog snapshot checkpoint.saved)
    {after : List (UnitKey Stamp)}
    (hkeys : snapshot.keys catalog.problemId = seen ++ key :: after)
    (hnone : checkpoint.get key = none) :
    ∀ other ∈ checkpoint.saved.map Prod.fst, other ∈ seen := by
  intro other hother
  have hunsaved := UnitCheckpoint.get_eq_none.mp hnone
  have hplanned := hrecorded.planned other hother
  rw [hkeys, List.mem_append, List.mem_cons] at hplanned
  by_contra hunseen
  rcases hplanned with hseen | rfl | hafter
  · exact hunseen hseen
  · exact hunsaved hother
  · obtain ⟨between, rest, hsplit, hfirst⟩ := List.eq_append_cons_of_mem hafter
    have hne : other ≠ key := fun hsame => hunsaved (hsame ▸ hother)
    refine hunsaved (hrecorded.closed (seen ++ key :: between) other rest ?_ ?_ hother key ?_)
    · rw [hkeys, hsplit, List.append_assoc, List.cons_append]
    · simp [hunseen, hne, hfirst]
    · simp

omit [DecidableEq Problem] in
/-- The result of the next unit is saved. -/
theorem recorded_put (hrecorded : Recorded catalog snapshot checkpoint.saved)
    {strategy : Strategy} {problem : Problem} {after : List (UnitKey Stamp)} {account : Account}
    (hkeys : snapshot.keys catalog.problemId = seen ++ unitKey catalog strategy problem :: after)
    (hseen : ∀ other ∈ seen, other ∈ checkpoint.saved.map Prod.fst)
    (hnone : checkpoint.get (unitKey catalog strategy problem) = none)
    (hcost : ∀ cap, snapshot.config.budgetCapUsd = some cap → checkpoint.knownCost < cap) :
    Recorded catalog snapshot
      (checkpoint.put (unitKey catalog strategy problem)
        { problemId := catalog.problemId problem, strategy := catalog.name strategy,
          account }).saved := by
  have hunsaved := UnitCheckpoint.get_eq_none.mp hnone
  rw [UnitCheckpoint.saved_put hnone]
  constructor
  case nodup =>
    rw [List.map_append]
    refine List.nodup_append.mpr ⟨hrecorded.nodup, by simp, ?_⟩
    intro other hother last hlast hsame
    rw [List.map_cons, List.map_nil, List.mem_singleton] at hlast
    rw [hsame, hlast] at hother
    exact hunsaved hother
  case closed =>
    intro before key later hsplit hfirst hkey earlier hearlier
    rw [List.map_append, List.mem_append] at hkey ⊢
    rcases hkey with hkey | hkey
    · exact .inl (hrecorded.closed before key later hsplit hfirst hkey earlier hearlier)
    · rw [List.map_cons, List.map_nil, List.mem_singleton] at hkey
      subst hkey
      rw [hkeys] at hsplit
      rcases List.append_eq_append_iff.mp hsplit with ⟨between, rfl, hrest⟩ | ⟨between, rfl, -⟩
      · cases between with
        | nil =>
            rw [List.append_nil] at hearlier
            exact .inl (hseen earlier hearlier)
        | cons first between =>
            rw [List.cons_append, List.cons.injEq] at hrest
            exact absurd (List.mem_append_right _ (hrest.1 ▸ List.mem_cons_self)) hfirst
      · exact .inl (hseen earlier (List.mem_append_left _ hearlier))
  case planned =>
    intro key hkey
    rw [List.map_append, List.mem_append] at hkey
    rcases hkey with hkey | hkey
    · exact hrecorded.planned key hkey
    · rw [List.map_cons, List.map_nil, List.mem_singleton] at hkey
      rw [hkey, hkeys]
      exact List.mem_append_right _ List.mem_cons_self
  case result =>
    intro entry hentry
    rcases List.mem_append.mp hentry with hentry | hentry
    · exact hrecorded.result entry hentry
    · rw [List.mem_singleton.mp hentry]
      exact ⟨rfl, fun other hstamp => catalog.stamp_name strategy other hstamp.symm⟩
  case budget =>
    intro cap hcap before entry later hsplit
    rcases List.eq_nil_or_concat later with rfl | ⟨rest, last, rfl⟩
    · obtain ⟨rfl, -⟩ := List.append_inj' hsplit rfl
      exact hcost cap hcap
    · rw [List.concat_eq_append, ← List.cons_append, ← List.append_assoc] at hsplit
      obtain ⟨hsaved, -⟩ := List.append_inj' hsplit rfl
      exact hrecorded.budget cap hcap before entry rest hsaved

omit [DecidableEq Stamp] [DecidableEq Problem] in
theorem keys_snapshot (config : HarnessConfig Strategy) (problems : List Problem) :
    (Runs.snapshot catalog config problems).keys catalog.problemId =
      config.strategies.flatMap (strategyKeys catalog problems) := by
  rw [Snapshot.keys, Runs.snapshot, List.flatMap_map]
  rfl

omit [DecidableEq Stamp] [DecidableEq Problem] in
/-- Where the next unit stands in the plan. -/
theorem keys_split {config : HarnessConfig Strategy} {problems before pending : List Problem}
    {done rest : List Strategy} {strategy : Strategy} {problem : Problem}
    (hstrategies : config.strategies = done ++ strategy :: rest)
    (hproblems : problems = before ++ problem :: pending) :
    ∃ after, (Runs.snapshot catalog config problems).keys catalog.problemId =
      (done.flatMap (strategyKeys catalog problems) ++ strategyKeys catalog before strategy) ++
        unitKey catalog strategy problem :: after := by
  refine ⟨strategyKeys catalog pending strategy ++ rest.flatMap (strategyKeys catalog problems), ?_⟩
  rw [keys_snapshot, hstrategies, List.flatMap_append, List.flatMap_cons, List.append_assoc]
  congr 1
  rw [hproblems, strategyKeys, strategyKeys, strategyKeys, List.map_append, List.map_cons,
    List.append_assoc, List.cons_append]

/-! ## One step -/

omit [DecidableEq Problem] in
/-- The ledger when the next unit may be dispatched. -/
theorem Tracks.knownCost_le {done : List Strategy} {after : List (UnitKey Stamp)}
    (htracks : Tracks catalog checkpoint process done seen)
    (hrecorded : Recorded catalog snapshot checkpoint.saved)
    (hkeys : snapshot.keys catalog.problemId = seen ++ key :: after)
    (hnone : checkpoint.get key = none)
    (hcap : process.config.budgetCapUsd.isSome = true) :
    checkpoint.knownCost ≤ process.accumulatedCost := by
  rw [htracks.cost hcap, sum_savedResults]
  exact Runs.knownCost_le hrecorded.nodup (saved_seen hrecorded hkeys hnone)

omit [DecidableEq Problem] in
theorem Tracks.knownCost_eq {done : List Strategy} {after : List (UnitKey Stamp)}
    (htracks : Tracks catalog checkpoint process done seen)
    (hrecorded : Recorded catalog snapshot checkpoint.saved)
    (hkeys : snapshot.keys catalog.problemId = seen ++ key :: after)
    (hnone : checkpoint.get key = none)
    (hcap : process.config.budgetCapUsd.isSome = true)
    (honce : (snapshot.keys catalog.problemId).Nodup) :
    checkpoint.knownCost = process.accumulatedCost := by
  rw [htracks.cost hcap, sum_savedResults]
  refine knownCost_eq_of_nodup hrecorded.nodup (fun other => ⟨?_, htracks.saved other⟩) ?_
  · exact saved_seen hrecorded hkeys hnone other
  · rw [hkeys] at honce
    exact honce.of_append_left

omit [DecidableEq Problem] in
/-- A unit whose result is saved is settled. -/
theorem Tracks.settle {done : List Strategy}
    (htracks : Tracks catalog checkpoint process done seen)
    (hsaved : checkpoint.get key = some result) :
    Tracks catalog checkpoint (process.settleRunBudget result) done (seen ++ [key]) := by
  have hkey : key ∈ checkpoint.saved.map Prod.fst := by
    by_contra hunsaved
    rw [UnitCheckpoint.get_eq_none.mpr hunsaved] at hsaved
    cases hsaved
  rw [Process.settleRunBudget]
  constructor
  case saved =>
    intro other hother
    rcases List.mem_append.mp hother with hother | hother
    · exact htracks.saved other hother
    · rwa [List.mem_singleton.mp hother]
  case cost =>
    intro hcap
    rw [savedResults_append, List.map_append, List.sum_append]
    split at hcap
    · next hnone => rw [Option.isNone_iff_eq_none.mp hnone] at hcap; cases hcap
    · next hsome =>
        rw [if_neg hsome, htracks.cost hcap, savedResults_singleton hsaved]
        simp
  case results =>
    split_ifs <;> exact htracks.results

omit [DecidableEq Problem] in
theorem Tracks.put {done : List Strategy}
    (htracks : Tracks catalog checkpoint process done seen)
    (hdone : ∀ other ∈ done.flatMap (strategyKeys catalog process.problems), other ∈ seen)
    (hnone : checkpoint.get key = none) :
    Tracks catalog (checkpoint.put key result) process done seen := by
  constructor
  case saved =>
    intro other hother
    rw [UnitCheckpoint.saved_put hnone, List.map_append]
    exact List.mem_append_left _ (htracks.saved other hother)
  case cost =>
    rw [savedResults_put hnone htracks.saved]
    exact htracks.cost
  case results =>
    rw [closedResults_put hnone fun other hother => htracks.saved other (hdone other hother)]
    exact htracks.results

/-- What a process keeps while it runs. -/
structure SameRun (process next : Process Strategy Problem) : Prop where
  config : next.config = process.config
  problems : next.problems = process.problems

omit [DecidableEq Problem] in
theorem sameRun_settle (process : Process Strategy Problem) (result : ExecutionResult) :
    SameRun process (process.settleRunBudget result) ∧
      (process.settleRunBudget result).paused = process.paused := by
  rw [Process.settleRunBudget]
  split_ifs <;> exact ⟨⟨rfl, rfl⟩, rfl⟩

omit [DecidableEq Problem] in
theorem sameRun_close (process : Process Strategy Problem) (name : String)
    (results : List ExecutionResult) (rest : List Strategy) :
    SameRun process (process.closeStrategy name results rest) ∧
      ((process.closeStrategy name results rest).paused = true →
        (process.closeStrategy name results rest).phase = .finished) := by
  simp only [Process.closeStrategy]
  split_ifs with hpaused hcap
  · exact ⟨⟨rfl, rfl⟩, fun _ => rfl⟩
  · exact ⟨⟨rfl, rfl⟩, fun _ => rfl⟩
  · exact ⟨⟨rfl, rfl⟩, fun hlater => absurd hlater hpaused⟩

omit [DecidableEq Problem] in
/-- The position does not depend on the phase that is noted in the process. -/
theorem Located.phase {phase other : Phase Strategy Problem}
    (hlocated : Located catalog checkpoint process phase) :
    Located catalog checkpoint { process with phase := other } phase := by
  cases phase with
  | choosing rest =>
      obtain ⟨done, hstrategies, htracks⟩ := hlocated
      exact ⟨done, hstrategies, htracks.saved, htracks.cost, htracks.results⟩
  | looping strategy rest results pending =>
      obtain ⟨done, before, hstrategies, hproblems, hresults, htracks⟩ := hlocated
      exact ⟨done, before, hstrategies, hproblems, hresults, htracks.saved, htracks.cost,
        htracks.results⟩
  | executing strategy rest results problem pending =>
      obtain ⟨done, before, hstrategies, hproblems, hresults, hnone, hcost, htracks⟩ := hlocated
      exact ⟨done, before, hstrategies, hproblems, hresults, hnone, hcost, htracks.saved,
        htracks.cost, htracks.results⟩
  | settling strategy rest results result pending =>
      obtain ⟨done, before, problem, hstrategies, hproblems, hresults, hsaved, htracks⟩ := hlocated
      exact ⟨done, before, problem, hstrategies, hproblems, hresults, hsaved, htracks.saved,
        htracks.cost, htracks.results⟩
  | finished => exact hlocated

omit [DecidableEq Problem] in
/-- A strategy whose units are all settled is closed. -/
theorem located_close {strategy : Strategy} {rest : List Strategy}
    {results : List ExecutionResult}
    (hlocated : Located catalog checkpoint process (.looping strategy rest results [])) :
    Located catalog checkpoint (process.closeStrategy (catalog.name strategy) results rest)
      (process.closeStrategy (catalog.name strategy) results rest).phase := by
  obtain ⟨done, before, hstrategies, hproblems, hresults, htracks⟩ := hlocated
  rw [List.append_nil] at hproblems
  simp only [Process.closeStrategy]
  split_ifs with hpaused hcap
  · exact .inl hpaused
  · exact .inl rfl
  · refine ⟨done ++ [strategy], by simp [hstrategies], ?_⟩
    rw [List.flatMap_append, List.flatMap_singleton]
    constructor
    case saved => simpa only [hproblems] using htracks.saved
    case cost => simpa only [hproblems] using htracks.cost
    case results =>
      rw [closedResults, List.foldl_append, List.foldl_cons, List.foldl_nil, hresults,
        htracks.results, closedResults, hproblems]

omit [DecidableEq Problem] in
theorem located_settle {strategy : Strategy} {rest : List Strategy} {problem : Problem}
    {pending before : List Problem} {done : List Strategy}
    (hstrategies : process.config.strategies = done ++ strategy :: rest)
    (hproblems : process.problems = before ++ problem :: pending)
    (htracks : Tracks catalog checkpoint process done
      (done.flatMap (strategyKeys catalog process.problems) ++
        strategyKeys catalog before strategy))
    (hsaved : checkpoint.get (unitKey catalog strategy problem) = some result) :
    Located catalog checkpoint
      { process.settleRunBudget result with
        phase := .looping strategy rest
          (savedResults checkpoint (strategyKeys catalog before strategy) ++ [result]) pending }
      (.looping strategy rest
        (savedResults checkpoint (strategyKeys catalog before strategy) ++ [result]) pending) := by
  obtain ⟨hsame, -⟩ := sameRun_settle process result
  have hkeys : strategyKeys catalog (before ++ [problem]) strategy =
      strategyKeys catalog before strategy ++ [unitKey catalog strategy problem] := by
    rw [strategyKeys, List.map_append]
    rfl
  have hsettled := htracks.settle hsaved
  refine ⟨done, before ++ [problem], ?_, ?_, ?_, ?_⟩
  · rw [← hstrategies]
    exact congrArg HarnessConfig.strategies hsame.config
  · rw [List.append_assoc, List.singleton_append, ← hproblems]
    exact hsame.problems
  · rw [hkeys, savedResults_append, savedResults_singleton hsaved]
  · rw [hkeys, ← List.append_assoc]
    have hproblemsnext : (process.settleRunBudget result).problems = process.problems :=
      hsame.problems
    constructor
    case saved => simpa only [hproblemsnext] using hsettled.saved
    case cost => simpa only [hproblemsnext] using hsettled.cost
    case results => exact hsettled.results

variable {runs next : Runs Strategy Problem Stamp}

omit [DecidableEq Problem] in
/-- A step that leaves the checkpoint and the inputs of the process alone. -/
theorem Sound.move (hsound : Sound catalog runs) {later : Process Strategy Problem}
    (hprocess : runs.process = some process) (hsame : SameRun process later)
    (hpaused : later.paused = true → later.phase = .finished)
    (hlocated : Located catalog runs.checkpoint later later.phase) :
    Sound catalog { runs with process := some later } := by
  refine ⟨hsound.unstarted, hsound.recorded, fun other hother => ?_⟩
  cases hother
  obtain ⟨hmanifest, hproblems, -⟩ := hsound.process process hprocess
  rw [hsame.config, hsame.problems]
  exact ⟨hmanifest, hproblems, hpaused, hlocated⟩

theorem Sound.start (hsound : Sound catalog runs) {config : HarnessConfig Strategy}
    {problems : List Problem} (hproblems : problems ≠ [])
    (henter : runs.checkpoint.enter (Runs.snapshot catalog config problems) = some checkpoint) :
    Sound catalog
      { checkpoint, process := some { config, problems, phase := .choosing config.strategies } } := by
  have hmanifest : checkpoint.manifest = some (Runs.snapshot catalog config problems) ∧
      checkpoint.saved = runs.checkpoint.saved ∧
      Recorded catalog (Runs.snapshot catalog config problems) runs.checkpoint.saved := by
    rw [UnitCheckpoint.enter] at henter
    split at henter
    · next manifest hmanifest =>
        split_ifs at henter with hsame
        cases henter
        exact ⟨hsame ▸ hmanifest, rfl, hsame ▸ hsound.recorded manifest hmanifest⟩
    · next hmanifest =>
        cases henter
        rw [hsound.unstarted hmanifest]
        refine ⟨rfl, rfl, ?_, ?_, ?_, ?_, ?_⟩
        · exact List.nodup_nil
        · intro before key after _ _ hkey
          cases hkey
        · intro key hkey
          cases hkey
        · intro entry hentry
          cases hentry
        · intro cap _ before entry after hsplit
          cases before <;> cases hsplit
  obtain ⟨hmanifest, hsaved, hrecorded⟩ := hmanifest
  refine ⟨?_, ?_, ?_⟩
  · intro hnone
    rw [hmanifest] at hnone
    cases hnone
  · intro manifest hsome
    rw [hmanifest] at hsome
    cases hsome
    rw [hsaved]
    exact hrecorded
  · intro process hprocess
    cases hprocess
    refine ⟨hmanifest, hproblems, nofun, [], rfl, ?_, ?_, rfl⟩
    · intro key hkey
      cases hkey
    · intro _
      rfl

theorem Sound.advance (hsound : Sound catalog runs)
    (hstep : step catalog runs .next = some next) : Sound catalog next := by
  rw [step, Option.bind_eq_some_iff] at hstep
  obtain ⟨process, hprocess, hstep⟩ := hstep
  obtain ⟨-, -, hpaused, hlocated⟩ := hsound.process process hprocess
  have hrunning : process.phase ≠ .finished → process.paused = false := by
    intro hphase
    by_contra hflag
    exact hphase (hpaused (Bool.not_eq_false _ ▸ hflag))
  cases hphase : process.phase with
  | choosing rest =>
      have hunpaused := hrunning (by rw [hphase]; nofun)
      rw [hphase] at hstep hlocated
      obtain ⟨done, hstrategies, htracks⟩ := hlocated
      cases rest with
      | nil =>
          cases hstep
          rw [List.append_nil] at hstrategies
          refine hsound.move hprocess ⟨rfl, rfl⟩ (fun _ => rfl) (.inr ⟨?_, ?_⟩)
          · rw [hstrategies]
            exact htracks.results
          · rw [hstrategies]
            exact htracks.saved
      | cons strategy rest =>
          have hneg : ¬ process.paused = true := by simp [hunpaused]
          simp only [if_neg hneg] at hstep
          cases hstep
          have hlooping : Located catalog runs.checkpoint process
              (.looping strategy rest [] process.problems) := by
            refine ⟨done, [], hstrategies, rfl, rfl, ?_⟩
            rw [strategyKeys, List.map_nil, List.append_nil]
            exact htracks
          refine hsound.move hprocess ⟨rfl, rfl⟩ ?_ ?_
          · exact fun hflag => absurd hflag hneg
          · exact hlooping.phase
  | looping strategy rest results pending =>
      have hunpaused := hrunning (by rw [hphase]; nofun)
      rw [hphase] at hstep hlocated
      cases pending with
      | nil =>
          cases hstep
          obtain ⟨hsame, hfinished⟩ :=
            sameRun_close process (catalog.name strategy) results rest
          exact hsound.move hprocess hsame hfinished (located_close hlocated)
      | cons problem pending =>
          obtain ⟨replayed, hsaved, rfl⟩ := Option.map_eq_some_iff.mp hstep
          obtain ⟨done, before, hstrategies, hproblems, rfl, htracks⟩ := hlocated
          obtain ⟨hsame, hflag⟩ := sameRun_settle process replayed
          refine hsound.move hprocess ⟨hsame.config, hsame.problems⟩ ?_
            (located_settle hstrategies hproblems htracks hsaved)
          intro hlater
          rw [hflag, hunpaused] at hlater
          cases hlater
  | executing strategy rest results problem pending => rw [hphase] at hstep; cases hstep
  | settling strategy rest results result pending =>
      have hunpaused := hrunning (by rw [hphase]; nofun)
      rw [hphase] at hstep hlocated
      cases hstep
      obtain ⟨done, before, problem, hstrategies, hproblems, rfl, hsaved, htracks⟩ := hlocated
      obtain ⟨hsame, hflag⟩ := sameRun_settle process result
      refine hsound.move hprocess ⟨hsame.config, hsame.problems⟩ ?_
        (located_settle hstrategies hproblems htracks hsaved)
      intro hlater
      rw [hflag, hunpaused] at hlater
      cases hlater
  | finished => rw [hphase] at hstep; cases hstep

omit [DecidableEq Problem] in
/-- A unit is dispatched under the cap. -/
theorem Sound.dispatch (hsound : Sound catalog runs) (hprocess : runs.process = some process)
    {strategy : Strategy} {rest : List Strategy} {results : List ExecutionResult}
    {problem : Problem} {pending : List Problem}
    (hphase : process.phase = .looping strategy rest results (problem :: pending))
    (hnone : runs.checkpoint.get (unitKey catalog strategy problem) = none)
    (hcap : process.overCap = false) :
    ∀ cap, process.config.budgetCapUsd = some cap →
      process.accumulatedCost < cap ∧ runs.checkpoint.knownCost ≤ process.accumulatedCost ∧
      ((process.config.strategies.flatMap (strategyKeys catalog process.problems)).Nodup →
        runs.checkpoint.knownCost = process.accumulatedCost) := by
  intro cap hsome
  obtain ⟨hmanifest, -, -, hlocated⟩ := hsound.process process hprocess
  rw [hphase] at hlocated
  obtain ⟨done, before, hstrategies, hproblems, -, htracks⟩ := hlocated
  obtain ⟨after, hkeys⟩ := @keys_split _ _ _ catalog _ _ _ _ _ _ _ _ hstrategies hproblems
  have hrecorded := hsound.recorded _ hmanifest
  have hcapped : process.config.budgetCapUsd.isSome = true := by rw [hsome]; rfl
  refine ⟨?_, htracks.knownCost_le hrecorded hkeys hnone hcapped, fun honce => ?_⟩
  · simpa [Process.overCap, hsome] using hcap
  · rw [← keys_snapshot] at honce
    exact htracks.knownCost_eq hrecorded hkeys hnone hcapped honce

theorem Sound.poll (hsound : Sound catalog runs) {shouldPause : Bool}
    (hstep : step catalog runs (.poll shouldPause) = some next) : Sound catalog next := by
  rw [step, Option.bind_eq_some_iff] at hstep
  obtain ⟨process, hprocess, hstep⟩ := hstep
  obtain ⟨-, -, hpaused, hlocated⟩ := hsound.process process hprocess
  cases hphase : process.phase with
  | looping strategy rest results pending =>
      rw [hphase] at hstep hlocated
      cases pending with
      | nil => cases hstep
      | cons problem pending =>
          simp only [] at hstep
          split_ifs at hstep with hsaved hstop
          · cases hstep
            obtain ⟨hsame, hfinished⟩ := sameRun_close { process with paused := true }
              (catalog.name strategy) results rest
            refine hsound.move hprocess ⟨hsame.config, hsame.problems⟩ hfinished ?_
            exact .inl rfl
          · cases hstep
            have hnone : runs.checkpoint.get (unitKey catalog strategy problem) = none := by
              simpa using hsaved
            simp only [Bool.or_eq_true, not_or, Bool.not_eq_true] at hstop
            obtain ⟨⟨hunpaused, hcap⟩, -⟩ := hstop
            have hledger := hsound.dispatch hprocess hphase hnone hcap
            obtain ⟨done, before, hstrategies, hproblems, hresults, htracks⟩ := hlocated
            refine hsound.move hprocess ⟨rfl, rfl⟩ ?_ ⟨done, before, hstrategies, hproblems,
              hresults, hnone, ?_, htracks.saved, htracks.cost, htracks.results⟩
            · intro hlater
              rw [hunpaused] at hlater
              cases hlater
            · intro cap hsome
              obtain ⟨hunder, hle, -⟩ := hledger cap hsome
              exact lt_of_le_of_lt hle hunder
  | choosing rest => rw [hphase] at hstep; cases hstep
  | executing strategy rest results problem pending => rw [hphase] at hstep; cases hstep
  | settling strategy rest results result pending => rw [hphase] at hstep; cases hstep
  | finished => rw [hphase] at hstep; cases hstep

theorem Sound.finish (hsound : Sound catalog runs) {account : Account}
    (hstep : step catalog runs (.finish account) = some next) : Sound catalog next := by
  rw [step, Option.bind_eq_some_iff] at hstep
  obtain ⟨process, hprocess, hstep⟩ := hstep
  obtain ⟨hmanifest, hproblems, hpaused, hlocated⟩ := hsound.process process hprocess
  cases hphase : process.phase with
  | executing strategy rest results problem pending =>
      have hunpaused : process.paused = false := by
        by_contra hflag
        have hfinished := hpaused (Bool.not_eq_false _ ▸ hflag)
        rw [hphase] at hfinished
        cases hfinished
      rw [hphase] at hstep hlocated
      cases hstep
      obtain ⟨done, before, hstrategies, hsplit, rfl, hnone, hcost, htracks⟩ := hlocated
      obtain ⟨after, hkeys⟩ := @keys_split _ _ _ catalog _ _ _ _ _ _ _ _ hstrategies hsplit
      have hrecorded := @recorded_put _ _ _ _ _ _ _ _ (hsound.recorded _ hmanifest) _ _ _ account
        hkeys htracks.saved hnone hcost
      refine ⟨?_, ?_, ?_⟩
      · intro hunstarted
        rw [UnitCheckpoint.put, hmanifest] at hunstarted
        cases hunstarted
      · intro manifest hsome
        rw [UnitCheckpoint.put, hmanifest] at hsome
        cases hsome
        exact hrecorded
      · intro later hlater
        cases hlater
        refine ⟨hmanifest, hproblems, ?_, done, before, problem, hstrategies, hsplit, ?_, ?_, ?_⟩
        · intro hflag
          rw [hunpaused] at hflag
          cases hflag
        · rw [savedResults_put hnone fun other hother =>
            htracks.saved other (List.mem_append_right _ hother)]
        · rw [UnitCheckpoint.get_put, if_pos rfl]
        · have hput := @Tracks.put _ _ _ _ _ _ _ _ _
            { problemId := catalog.problemId problem, strategy := catalog.name strategy,
              account } _ htracks (fun other hother => List.mem_append_left _ hother) hnone
          exact ⟨hput.saved, hput.cost, hput.results⟩
  | choosing rest => rw [hphase] at hstep; cases hstep
  | looping strategy rest results pending => rw [hphase] at hstep; cases hstep
  | settling strategy rest results result pending => rw [hphase] at hstep; cases hstep
  | finished => rw [hphase] at hstep; cases hstep

theorem sound_preserved :
    Preserved (step catalog) (Sound catalog : Runs Strategy Problem Stamp → Prop) := by
  intro runs label next hsound hstep
  cases label with
  | start config problems =>
      rw [step] at hstep
      split at hstep
      · cases hstep
      · split_ifs at hstep with hrunnable
        obtain ⟨checkpoint, henter, rfl⟩ := Option.map_eq_some_iff.mp hstep
        simp only [Bool.and_eq_true, Bool.not_eq_true', List.isEmpty_eq_false_iff] at hrunnable
        exact hsound.start hrunnable.2 henter
  | next => exact hsound.advance hstep
  | poll shouldPause => exact hsound.poll hstep
  | finish account => exact hsound.finish hstep
  | crash =>
      cases hstep
      exact ⟨hsound.unstarted, hsound.recorded, fun _ hnone => by cases hnone⟩

/-! ## A finished run -/

/-- The units of a run, in its order. -/
def units (process : Process Strategy Problem) : List (Strategy × Problem) :=
  process.config.strategies.flatMap fun strategy => process.problems.map (Prod.mk strategy)

/-- The results are, one for each unit, those that were saved for it. -/
def Complete (catalog : Catalog Strategy Problem Stamp)
    (checkpoint : UnitCheckpoint Problem Stamp) (process : Process Strategy Problem) : Prop :=
  List.Forall₂
    (fun unit result => checkpoint.get (unitKey catalog unit.1 unit.2) = some result ∧
      result.strategy = catalog.name unit.1 ∧ result.problemId = catalog.problemId unit.2)
    (units process) (process.results.flatMap Prod.snd)

omit [DecidableEq Problem] in
theorem forall₂_savedResults {keys : List (UnitKey Stamp)}
    (hsaved : ∀ key ∈ keys, key ∈ checkpoint.saved.map Prod.fst) :
    List.Forall₂ (fun key result => checkpoint.get key = some result) keys
      (savedResults checkpoint keys) := by
  induction keys with
  | nil => exact .nil
  | cons key keys ih =>
      have hrest := ih fun other hother => hsaved other (List.mem_cons_of_mem _ hother)
      cases hget : checkpoint.get key with
      | none =>
          exact absurd (hsaved key List.mem_cons_self) (UnitCheckpoint.get_eq_none.mp hget)
      | some result =>
          rw [savedResults, List.filterMap_cons_some hget]
          exact .cons hget hrest

omit [DecidableEq Problem] in
theorem closedResults_concat (problems : List Problem) (done : List Strategy)
    (strategy : Strategy) :
    closedResults catalog checkpoint problems (done ++ [strategy]) =
      KeyedRows.put Prod.fst
        (catalog.name strategy, savedResults checkpoint (strategyKeys catalog problems strategy))
        (closedResults catalog checkpoint problems done) := by
  rw [closedResults, List.foldl_append]
  rfl

omit [DecidableEq Problem] in
theorem closedResults_names (problems : List Problem) (done : List Strategy) :
    ((closedResults catalog checkpoint problems done).map Prod.fst).Nodup ∧
      ∀ name ∈ (closedResults catalog checkpoint problems done).map Prod.fst,
        name ∈ done.map catalog.name := by
  induction done using List.reverseRecOn with
  | nil => exact ⟨List.nodup_nil, fun _ hname => hname⟩
  | append_singleton done strategy ih =>
      rw [closedResults_concat]
      refine ⟨KeyedRows.nodup_put ih.1 _, fun name hname => ?_⟩
      rw [KeyedRows.map_key_put] at hname
      rw [List.map_append, List.mem_append]
      split_ifs at hname
      · exact .inl (ih.2 name hname)
      · exact (List.mem_append.mp hname).imp_left (ih.2 name)

omit [DecidableEq Problem] in
theorem closedResults_eq_map {problems : List Problem} {done : List Strategy}
    (hnames : (done.map catalog.name).Nodup) :
    closedResults catalog checkpoint problems done =
      done.map fun strategy => (catalog.name strategy,
        savedResults checkpoint (strategyKeys catalog problems strategy)) := by
  induction done using List.reverseRecOn with
  | nil => rfl
  | append_singleton done strategy ih =>
      rw [List.map_append, List.nodup_append] at hnames
      have hnew : catalog.name strategy ∉
          (closedResults catalog checkpoint problems done).map Prod.fst := by
        intro hname
        exact hnames.2.2 _ ((closedResults_names problems done).2 _ hname) _
          (List.mem_singleton.mpr rfl) rfl
      rw [closedResults_concat, KeyedRows.put_of_fetch_none (KeyedRows.fetch_eq_none.mpr hnew),
        ih hnames.1, List.map_append]
      rfl

omit [DecidableEq Problem] in
theorem length_closedResults {problems : List Problem} {done : List Strategy}
    (hsaved : ∀ key ∈ done.flatMap (strategyKeys catalog problems),
      key ∈ checkpoint.saved.map Prod.fst) :
    ((closedResults catalog checkpoint problems done).flatMap Prod.snd).length =
      (closedResults catalog checkpoint problems done).length * problems.length := by
  have hlength : ∀ entry ∈ closedResults catalog checkpoint problems done,
      entry.2.length = problems.length := by
    induction done using List.reverseRecOn with
    | nil => nofun
    | append_singleton done strategy ih =>
        intro entry hentry
        rw [closedResults_concat] at hentry
        rw [List.flatMap_append, List.flatMap_singleton] at hsaved
        rcases KeyedRows.mem_put hentry with rfl | hbefore
        · rw [← (forall₂_savedResults fun key hkey =>
            hsaved key (List.mem_append_right _ hkey)).length_eq, strategyKeys, List.length_map]
        · exact ih (fun key hkey => hsaved key (List.mem_append_left _ hkey)) entry hbefore
  rw [List.length_flatMap, List.map_congr_left hlength, List.map_const',
    List.sum_replicate_nat]

omit [DecidableEq Problem] in
/-- A finished process has all results just when no two strategies share a name. -/
theorem Sound.complete_iff (hsound : Sound catalog runs) (hprocess : runs.process = some process)
    (hphase : process.phase = .finished) (hpaused : process.paused = false) :
    Complete catalog runs.checkpoint process ↔
      (process.config.strategies.map catalog.name).Nodup := by
  obtain ⟨hmanifest, hproblems, -, hlocated⟩ := hsound.process process hprocess
  rw [hphase] at hlocated
  have hfinished := hlocated.resolve_left (by simp [hpaused])
  obtain ⟨hresults, hsaved⟩ := hfinished
  have hrecorded := hsound.recorded _ hmanifest
  rw [Complete, hresults]
  constructor
  · intro hcomplete
    have hlength := hcomplete.length_eq
    rw [length_closedResults hsaved, units, List.length_flatMap] at hlength
    simp only [List.length_map, List.map_const', List.sum_replicate_nat] at hlength
    have hcount := Nat.eq_of_mul_eq_mul_right (List.length_pos_of_ne_nil hproblems) hlength
    obtain ⟨hnodup, hsubset⟩ := @closedResults_names _ _ _ _ catalog
      runs.checkpoint process.problems process.config.strategies
    have hperm := (List.subperm_of_subset hnodup hsubset).perm_of_length_le (by
      rw [List.length_map, List.length_map, hcount])
    exact hperm.nodup_iff.mp hnodup
  · intro hnames
    have hkeys : (units process).map (fun unit => unitKey catalog unit.1 unit.2) =
        process.config.strategies.flatMap (strategyKeys catalog process.problems) := by
      rw [units, List.map_flatMap]
      simp only [List.map_map]
      rfl
    have hflat : (process.config.strategies.map fun strategy => (catalog.name strategy,
        savedResults runs.checkpoint (strategyKeys catalog process.problems strategy))).flatMap
          Prod.snd =
        savedResults runs.checkpoint
          (process.config.strategies.flatMap (strategyKeys catalog process.problems)) := by
      rw [List.flatMap_map, savedResults, List.filterMap_flatMap]
      rfl
    have hforall := forall₂_savedResults hsaved
    rw [← hkeys, List.forall₂_map_left_iff] at hforall
    rw [closedResults_eq_map hnames, hflat, ← hkeys]
    refine hforall.imp fun unit result hget => ⟨hget, ?_⟩
    obtain ⟨hproblem, hstrategy⟩ := hrecorded.result _ (UnitCheckpoint.mem_of_get hget)
    exact ⟨hstrategy unit.1 rfl, hproblem⟩

/-! ## The budget -/

/-- A unit is under way. -/
def executing (runs : Runs Strategy Problem Stamp) : Bool :=
  match runs.process with
  | some { phase := .executing .., .. } => true
  | _ => false

theorem Sound.dispatched (hsound : Sound catalog runs) (hprocess : runs.process = some process)
    {shouldPause : Bool} (hstep : step catalog runs (.poll shouldPause) = some next)
    (hexecuting : executing next = true) {cap : ℚ}
    (hcap : process.config.budgetCapUsd = some cap) :
    process.accumulatedCost < cap ∧ runs.checkpoint.knownCost ≤ process.accumulatedCost ∧
      ((process.config.strategies.flatMap (strategyKeys catalog process.problems)).Nodup →
        runs.checkpoint.knownCost = process.accumulatedCost) := by
  rw [step, hprocess, Option.bind_some] at hstep
  cases hphase : process.phase with
  | looping strategy rest results pending =>
      rw [hphase] at hstep
      cases pending with
      | nil => cases hstep
      | cons problem pending =>
          simp only [] at hstep
          split_ifs at hstep with hsaved hstop
          · cases hstep
            simp [executing, Process.closeStrategy] at hexecuting
          · simp only [Bool.or_eq_true, not_or, Bool.not_eq_true] at hstop
            exact hsound.dispatch hprocess hphase (by simpa using hsaved) hstop.1.2 cap hcap
  | choosing rest => rw [hphase] at hstep; cases hstep
  | executing strategy rest results problem pending => rw [hphase] at hstep; cases hstep
  | settling strategy rest results result pending => rw [hphase] at hstep; cases hstep
  | finished => rw [hphase] at hstep; cases hstep

/-- Strategies by their name and temperature. -/
def byName : Catalog (String × ℕ) String (String × ℕ) where
  name := Prod.fst
  stamp := id
  problemId := id
  stamp_name := fun _ _ hsame => congrArg Prod.fst hsame

end Runs

end AlgorithmHarness.Harness
