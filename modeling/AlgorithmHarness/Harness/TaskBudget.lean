import AlgorithmHarness.Harness.TaskLedgers

/-!
# The budget of task runs

The ledgers of a process agree with the record whenever a unit is dispatched,
in whichever of the processes of a run its result was recorded.  The caps are
checked against the ledgers.
-/

namespace AlgorithmHarness.Harness

open TaskService (TaskRecord TaskUnit RunOptions RunProcess Choice)
open Transition

variable {evaluation : TaskEvaluation} {plan : TaskPlan} {process : HarnessProcess}

/-! ## The configured ledgers -/

namespace TaskEvaluation

/-- The budget of a difficulty. -/
def allocated (evaluation : TaskEvaluation) (difficulty : Difficulty) : Option ℚ :=
  (KeyedRows.fetch Prod.fst difficulty.word (evaluation.config.budgetAllocation.getD [])).map
    Prod.snd

theorem plan_selector (hplan : evaluation.plan = .ok plan)
    (hdowngrade : plan.action = some .downgrade ∨
      evaluation.config.budgetAllocation.getD [] ≠ []) : plan.selector.isSome = true := by
  simp only [TaskEvaluation.plan] at hplan
  cases hselector : evaluation.costAwareSelector with
  | error message =>
      rw [hselector] at hplan
      cases hplan
  | ok selector =>
      rw [hselector] at hplan
      change ((evaluation.budgetAction selector).bind fun action => _) = _ at hplan
      cases haction : evaluation.budgetAction selector with
      | error message =>
          rw [haction] at hplan
          cases hplan
      | ok action =>
          rw [haction] at hplan
          simp only [Except.bind] at hplan
          split at hplan
          · next hempty =>
              cases hplan
              have hdowngrade := hdowngrade.resolve_right (not_not.mpr hempty)
              simp only [budgetAction] at haction
              cases selector with
              | some selector => rfl
              | none =>
                  cases hcap : evaluation.config.budgetCapUsd with
                  | none =>
                      rw [hcap] at haction
                      simp only at haction
                      split at haction
                      · cases haction
                      · cases haction
                        cases hdowngrade
                  | some cap =>
                      rw [hcap] at haction
                      rcases hgiven : evaluation.config.budgetAction with _ | _ | _ <;>
                        rw [hgiven] at haction <;> cases haction
                      cases hdowngrade
          · split at hplan
            · cases hplan
            · next hselector =>
                split at hplan
                · cases hplan
                · cases hplan
                  simpa [Option.isSome_iff_ne_none] using hselector

theorem word_difficulty (difficulty : Difficulty) (found : Option Difficulty) :
    (found.map Difficulty.word).getD "" = difficulty.word ↔ found = some difficulty := by
  cases found with
  | none => cases difficulty <;> decide
  | some other => cases other <;> cases difficulty <;> decide

/-- Into which ledger a unit is settled. -/
theorem difficultyOf_eq_word (unit : TaskUnit TaskResult) (difficulty : Difficulty) :
    (evaluation.difficultyOf unit).getD "" = difficulty.word ↔
      evaluation.covers difficulty unit = true := by
  have hword : evaluation.difficultyOf unit =
      ((evaluation.problemMap unit.problemId).map (·.difficulty)).map Difficulty.word := by
    rw [Option.map_map]
    rfl
  rw [hword, word_difficulty, covers, decide_eq_true_eq]

end TaskEvaluation

namespace DifficultyBudgetMonitor

theorem get_addResult (ledgers : DifficultyBudgetMonitor) (account : Account)
    (difficulty other : Option String) :
    (ledgers.addResult account difficulty).get other =
      if difficulty.getD "" = other.getD "" then (ledgers.get other).map (·.addResult account)
      else ledgers.get other := by
  by_cases hsame : difficulty.getD "" = other.getD ""
  · rw [if_pos hsame, addResult]
    cases hget : ledgers.get difficulty with
    | none =>
        rw [get, hsame] at hget
        change ledgers.get other = none at hget
        rw [hget]
        rfl
    | some monitor =>
        have hother : ledgers.get other = some monitor := by
          rw [← hget, get, get, hsame]
        rw [hother, get, KeyedRows.fetch_put, if_pos hsame]
        rfl
  · rw [if_neg hsame, addResult]
    cases hget : ledgers.get difficulty with
    | none => rfl
    | some monitor => rw [get, KeyedRows.fetch_put, if_neg hsame, get]

theorem get_ofAllocation (allocation : List (String × ℚ)) (difficulty : Option String) :
    (ofAllocation allocation).get difficulty =
      ((KeyedRows.fetch Prod.fst (difficulty.getD "") allocation).map Prod.snd).map fun cap =>
        { budgetCapUsd := some cap } := by
  rw [get, ofAllocation]
  induction allocation with
  | nil => rfl
  | cons entry rest ih =>
      rw [List.map_cons, KeyedRows.fetch_cons, KeyedRows.fetch_cons]
      split_ifs
      · rfl
      · exact ih

end DifficultyBudgetMonitor

namespace HarnessProcess

/-- The ledger of a difficulty. -/
def difficultyMonitor (process : HarnessProcess) (difficulty : Difficulty) :
    Option RunCostMonitor :=
  process.allocation.bind (·.get (some difficulty.word))

theorem difficultyMonitor_fresh (resume : Bool) (difficulty : Difficulty) :
    (fresh evaluation plan resume).difficultyMonitor difficulty =
      (evaluation.allocated difficulty).map fun cap => { budgetCapUsd := some cap } := by
  rw [difficultyMonitor, fresh, TaskEvaluation.allocationMonitor, TaskEvaluation.allocated]
  split_ifs with hempty
  · rw [hempty]
    rfl
  · exact DifficultyBudgetMonitor.get_ofAllocation _ _

theorem difficultyMonitor_settle (unit : TaskUnit TaskResult) (result : TaskResult)
    (difficulty : Difficulty) :
    (process.settleDifficulty evaluation unit result).difficultyMonitor difficulty =
      if evaluation.covers difficulty unit then
        (process.difficultyMonitor difficulty).map (·.addResult result.account)
      else process.difficultyMonitor difficulty := by
  rw [difficultyMonitor, difficultyMonitor, settleDifficulty]
  cases process.allocation with
  | none => simp
  | some ledgers =>
      have hword := evaluation.difficultyOf_eq_word unit difficulty
      simp only [Option.map_some, Option.bind_some, DifficultyBudgetMonitor.get_addResult,
        Option.getD_some, hword]

theorem difficultyOver_eq {unit : TaskUnit TaskResult} {difficulty : Difficulty}
    (hcovers : evaluation.covers difficulty unit = true) :
    process.difficultyOver (evaluation.difficultyOf unit) =
      ((process.difficultyMonitor difficulty).map (·.overCap)).getD false := by
  have hword := (evaluation.difficultyOf_eq_word unit difficulty).mpr hcovers
  rw [difficultyOver, difficultyMonitor]
  cases process.allocation with
  | none => rfl
  | some ledgers =>
      have hget : ledgers.get (evaluation.difficultyOf unit) =
          ledgers.get (some difficulty.word) := by
        rw [DifficultyBudgetMonitor.get, hword]
        rfl
      simp only [DifficultyBudgetMonitor.overCapFor, Option.bind_some, hget]
      cases ledgers.get (some difficulty.word) <;> rfl

end HarnessProcess

/-- The monitors of a process are those of the configuration. -/
structure Configured (evaluation : TaskEvaluation) (process : HarnessProcess) : Prop where
  plan : evaluation.plan = .ok process.plan
  monitor : process.monitor.map (·.budgetCapUsd) =
    (evaluation.monitor process.plan).map (·.budgetCapUsd)
  difficulty : ∀ difficulty, (process.difficultyMonitor difficulty).map (·.budgetCapUsd) =
    (evaluation.allocated difficulty).map some

namespace Configured

theorem fresh (hplan : evaluation.plan = .ok plan) (resume : Bool) :
    Configured evaluation (.fresh evaluation plan resume) := by
  refine ⟨hplan, rfl, fun difficulty => ?_⟩
  rw [HarnessProcess.difficultyMonitor_fresh, Option.map_map]
  rfl

/-- Without a run ledger there is none for a difficulty. -/
theorem difficulty_none (hconfigured : Configured evaluation process)
    (hmonitor : process.monitor = none) (difficulty : Difficulty) :
    process.difficultyMonitor difficulty = none := by
  have hcap := hconfigured.monitor
  rw [hmonitor, TaskEvaluation.monitor] at hcap
  have hselector : process.plan.selector.isSome = false := by
    by_contra hsome
    rw [Bool.not_eq_false] at hsome
    rw [hsome, Bool.true_or, if_pos rfl] at hcap
    cases hcap
  have hallocation : evaluation.config.budgetAllocation.getD [] = [] := by
    by_contra hne
    rw [evaluation.plan_selector hconfigured.plan (.inr hne)] at hselector
    cases hselector
  have hnone := hconfigured.difficulty difficulty
  rw [TaskEvaluation.allocated, hallocation] at hnone
  exact Option.map_eq_none_iff.mp hnone

theorem settleRun (hconfigured : Configured evaluation process) (result : TaskResult) :
    Configured evaluation (process.settleRun result) := by
  refine ⟨hconfigured.plan, ?_, hconfigured.difficulty⟩
  refine Eq.trans ?_ hconfigured.monitor
  rw [HarnessProcess.settleRun, Option.map_map]
  rfl

theorem settleDifficulty (hconfigured : Configured evaluation process)
    (unit : TaskUnit TaskResult) (result : TaskResult) :
    Configured evaluation (process.settleDifficulty evaluation unit result) := by
  refine ⟨hconfigured.plan, hconfigured.monitor, fun difficulty => ?_⟩
  refine Eq.trans ?_ (hconfigured.difficulty difficulty)
  rw [HarnessProcess.difficultyMonitor_settle]
  split_ifs
  · rw [Option.map_map]
    rfl
  · rfl

end Configured

/-! ## Balanced ledgers -/

/-- The ledgers hold the cost of `units`, but for the units that are late. -/
structure Balanced (evaluation : TaskEvaluation) (process : HarnessProcess)
    (units late lateForDifficulty : List (TaskUnit TaskResult)) : Prop where
  run : ∀ monitor, process.monitor = some monitor →
    monitor.accumulatedCost + spent late = spent units
  difficulty : ∀ difficulty monitor, process.difficultyMonitor difficulty = some monitor →
    monitor.accumulatedCost + spent (lateForDifficulty.filter (evaluation.covers difficulty)) =
      spent (units.filter (evaluation.covers difficulty))

namespace Balanced

variable {units other late lateOther : List (TaskUnit TaskResult)}

theorem of_unmonitored (hconfigured : Configured evaluation process)
    (hmonitor : process.monitor = none) : Balanced evaluation process units late lateOther := by
  constructor
  · intro monitor hsome
    rw [hmonitor] at hsome
    cases hsome
  · intro difficulty monitor hsome
    rw [hconfigured.difficulty_none hmonitor] at hsome
    cases hsome

theorem congr (hbalanced : Balanced evaluation process units late lateOther)
    (hbilled : units.map billed = other.map billed) :
    Balanced evaluation process other late lateOther := by
  constructor
  · intro monitor hmonitor
    have hspent := spent_congr byProblem_true hbilled
    rw [filter_true, filter_true] at hspent
    rw [← hspent]
    exact hbalanced.run monitor hmonitor
  · intro difficulty monitor hmonitor
    rw [← spent_congr (byProblem_covers evaluation difficulty) hbilled]
    exact hbalanced.difficulty difficulty monitor hmonitor

/-- The copy of the service gains a result. -/
theorem complete {completed : List (TaskUnit TaskResult)}
    (hbalanced : Balanced evaluation process units [] [])
    (hspent : ∀ scope, spent (other.filter scope) =
      spent (completed.filter scope) + spent (units.filter scope)) :
    Balanced evaluation process other completed completed := by
  constructor
  · intro monitor hmonitor
    have hrun := hspent fun _ => true
    rw [filter_true, filter_true, filter_true] at hrun
    have hbefore := hbalanced.run monitor hmonitor
    rw [spent, List.map_nil, List.sum_nil, add_zero] at hbefore
    rw [hrun, hbefore, add_comm]
  · intro difficulty monitor hmonitor
    have hbefore := hbalanced.difficulty difficulty monitor hmonitor
    rw [List.filter_nil, spent, List.map_nil, List.sum_nil, add_zero] at hbefore
    rw [hspent, hbefore, add_comm]

/-- A unit without a result is not missed. -/
theorem forget {unit : TaskUnit TaskResult}
    (hbalanced : Balanced evaluation process units [unit] [unit]) (hnone : unit.result = none) :
    Balanced evaluation process units [] [] := by
  have hfilter : ∀ scope : TaskUnit TaskResult → Bool, spent ([unit].filter scope) = spent [] := by
    intro scope
    rw [spent_filter_singleton, recordedCost_of_none hnone, ite_self]
    rfl
  constructor
  · intro monitor hmonitor
    have hrun := hfilter fun _ => true
    rw [filter_true] at hrun
    rw [← hrun]
    exact hbalanced.run monitor hmonitor
  · intro difficulty monitor hmonitor
    rw [List.filter_nil, ← hfilter (evaluation.covers difficulty)]
    exact hbalanced.difficulty difficulty monitor hmonitor

theorem accumulatedCost_addResult (monitor : RunCostMonitor) {unit : TaskUnit TaskResult}
    {result : TaskResult} (hresult : unit.result = some result) :
    (monitor.addResult result.account).accumulatedCost =
      monitor.accumulatedCost + recordedCost unit := by
  rw [recordedCost_of_some hresult]
  rfl

theorem settleRun {unit : TaskUnit TaskResult} {result : TaskResult}
    (hbalanced : Balanced evaluation process units [unit] lateOther)
    (hresult : unit.result = some result) :
    Balanced evaluation (process.settleRun result) units [] lateOther := by
  refine ⟨fun monitor hmonitor => ?_, hbalanced.difficulty⟩
  obtain ⟨earlier, hearlier, rfl⟩ := Option.map_eq_some_iff.mp hmonitor
  have hrun := hbalanced.run earlier hearlier
  rw [spent_cons, ← add_assoc] at hrun
  rw [accumulatedCost_addResult earlier hresult]
  exact hrun

theorem settleDifficulty {unit : TaskUnit TaskResult} {result : TaskResult}
    (hbalanced : Balanced evaluation process units late [unit])
    (hresult : unit.result = some result) :
    Balanced evaluation (process.settleDifficulty evaluation unit result) units late [] := by
  refine ⟨hbalanced.run, fun difficulty monitor hmonitor => ?_⟩
  rw [HarnessProcess.difficultyMonitor_settle] at hmonitor
  have hbefore := hbalanced.difficulty difficulty
  rw [spent_filter_singleton] at hbefore
  rw [List.filter_nil, spent, List.map_nil, List.sum_nil, add_zero]
  split_ifs at hmonitor with hcovers
  · obtain ⟨earlier, hearlier, rfl⟩ := Option.map_eq_some_iff.mp hmonitor
    have hearlier := hbefore earlier hearlier
    rw [if_pos hcovers] at hearlier
    rw [accumulatedCost_addResult earlier hresult]
    exact hearlier
  · have hearlier := hbefore monitor hmonitor
    rw [if_neg hcovers, add_zero] at hearlier
    exact hearlier

theorem append (hbalanced : Balanced evaluation process units [] []) (unit : TaskUnit TaskResult) :
    Balanced evaluation process (units ++ [unit]) [unit] [unit] := by
  refine hbalanced.complete fun scope => ?_
  rw [List.filter_append, spent, List.map_append, List.sum_append, add_comm]
  rfl

/-- One unit of an earlier process is settled again. -/
theorem resettle (hbalanced : Balanced evaluation process units [] [])
    (hconfigured : Configured evaluation process) (unit : TaskUnit TaskResult) :
    Balanced evaluation (process.resettle evaluation unit) (units ++ [unit]) [] [] ∧
      Configured evaluation (process.resettle evaluation unit) := by
  rw [HarnessProcess.resettle]
  cases hmonitor : process.monitor with
  | none => exact ⟨of_unmonitored hconfigured hmonitor, hconfigured⟩
  | some monitor =>
      cases hresult : unit.result with
      | none => exact ⟨(hbalanced.append unit).forget hresult, hconfigured⟩
      | some result =>
          refine ⟨((hbalanced.append unit).settleRun hresult).settleDifficulty hresult, ?_⟩
          exact (hconfigured.settleRun result).settleDifficulty unit result

theorem fresh (resume : Bool) :
    Balanced evaluation (.fresh evaluation plan resume) [] [] [] := by
  constructor
  · intro monitor hmonitor
    rw [HarnessProcess.fresh, TaskEvaluation.monitor] at hmonitor
    dsimp only at hmonitor
    split_ifs at hmonitor
    cases hmonitor
    exact add_zero 0
  · intro difficulty monitor hmonitor
    rw [HarnessProcess.difficultyMonitor_fresh] at hmonitor
    obtain ⟨cap, -, rfl⟩ := Option.map_eq_some_iff.mp hmonitor
    exact add_zero 0

/-- A resume settles the whole record. -/
theorem replay (rest : List (TaskUnit TaskResult))
    (hbalanced : Balanced evaluation process units [] [])
    (hconfigured : Configured evaluation process) :
    Balanced evaluation
        (rest.foldl (fun process unit => process.resettle evaluation unit) process)
        (units ++ rest) [] [] ∧
      Configured evaluation
        (rest.foldl (fun process unit => process.resettle evaluation unit) process) := by
  induction rest generalizing process units with
  | nil =>
      rw [List.append_nil]
      exact ⟨hbalanced, hconfigured⟩
  | cons unit rest ih =>
      obtain ⟨hnext, hkept⟩ := hbalanced.resettle hconfigured unit
      rw [List.foldl_cons, List.append_cons]
      exact ih hnext hkept

end Balanced

/-! ## The invariant -/

namespace HarnessProcess

/-- The unit that the run ledger still lacks. -/
def late (process : HarnessProcess) (service : RunProcess TaskResult) :
    List (TaskUnit TaskResult) :=
  match process.settling with
  | some settlement => if settlement.runSettled then [] else [settlement.unit]
  | none => completing service

/-- The unit that the ledger of its difficulty still lacks. -/
def lateForDifficulty (process : HarnessProcess) (service : RunProcess TaskResult) :
    List (TaskUnit TaskResult) :=
  match process.settling with
  | some settlement => [settlement.unit]
  | none => completing service

end HarnessProcess

/-- A process whose call of `service.run` is under way. -/
structure Serving (evaluation : TaskEvaluation) (process : HarnessProcess)
    (record : TaskRecord TaskResult) (service : RunProcess TaskResult) : Prop where
  settled : Settled service.record.units
  lifecycle : ∃ initial,
    service.Invariant False (evaluation.options process.plan process.resume) initial
  stored : recording service = false →
    record.units.map billed = service.record.units.map billed
  grown : ∀ scope, ByProblem scope →
    spent (record.units.filter scope) ≤ spent (service.record.units.filter scope)
  balanced : Balanced evaluation process service.record.units (process.late service)
    (process.lateForDifficulty service)
  callback : ∀ settlement, process.settling = some settlement →
    (∃ rest, service.phase = .completing rest) ∧
      settlement.unit.result = some settlement.result
  guarded : process.plan.action = some .autoStop → Guarded process.overCap service

/-- The invariant of a run over several processes. -/
structure Sound (evaluation : TaskEvaluation) (runs : TaskRuns) : Prop where
  store : ∀ record, runs.store = some record → Settled record.units
  process : ∀ process, runs.process = some process → ∃ record, runs.store = some record ∧
    Configured evaluation process ∧
    (process.service = none → process.settling = none ∧
      Balanced evaluation process record.units [] []) ∧
    ∀ service, process.service = some service → Serving evaluation process record service

/-! ## One step of the service -/

namespace HarnessProcess

section Served

variable (process : HarnessProcess) (phase : TaskService.Phase TaskResult)
  (next : RunProcess TaskResult)

theorem served_kept : (process.served phase next).plan = process.plan ∧
    (process.served phase next).resume = process.resume ∧
    (process.served phase next).monitor = process.monitor ∧
    (process.served phase next).allocation = process.allocation ∧
    (process.served phase next).service = some next := by
  unfold served
  split <;> exact ⟨rfl, rfl, rfl, rfl, rfl⟩

theorem served_settling (hphase : ∀ unit rest, phase ≠ .mergeSave (.unitFinished unit rest)) :
    (process.served phase next).settling = process.settling := by
  unfold served
  split
  · rfl
  · next unit rest => exact absurd rfl (hphase unit rest)
  · rfl

end Served

/-- The ledgers are all that the invariants read of them. -/
theorem difficultyMonitor_congr {other : HarnessProcess}
    (hallocation : other.allocation = process.allocation) (difficulty : Difficulty) :
    other.difficultyMonitor difficulty = process.difficultyMonitor difficulty := by
  rw [difficultyMonitor, difficultyMonitor, hallocation]

theorem overCap_congr {other : HarnessProcess} (hmonitor : other.monitor = process.monitor) :
    other.overCap = process.overCap := by
  rw [overCap, overCap, hmonitor]

end HarnessProcess

section Congr

variable {other : HarnessProcess} {units late lateOther : List (TaskUnit TaskResult)}

theorem Configured.congr (hconfigured : Configured evaluation process)
    (hplan : other.plan = process.plan) (hmonitor : other.monitor = process.monitor)
    (hallocation : other.allocation = process.allocation) : Configured evaluation other := by
  refine ⟨by rw [hplan]; exact hconfigured.plan, ?_, fun difficulty => ?_⟩
  · rw [hplan, hmonitor]
    exact hconfigured.monitor
  · rw [HarnessProcess.difficultyMonitor_congr hallocation]
    exact hconfigured.difficulty difficulty

theorem Balanced.of_same (hbalanced : Balanced evaluation process units late lateOther)
    (hmonitor : other.monitor = process.monitor)
    (hallocation : other.allocation = process.allocation) :
    Balanced evaluation other units late lateOther := by
  refine ⟨fun monitor hsome => hbalanced.run monitor (hmonitor ▸ hsome), ?_⟩
  intro difficulty monitor hsome
  rw [HarnessProcess.difficultyMonitor_congr hallocation] at hsome
  exact hbalanced.difficulty difficulty monitor hsome

end Congr

namespace Serving

variable {record kept : TaskRecord TaskResult} {service next : RunProcess TaskResult}
  {options : RunOptions} {choice : Choice TaskResult}
  {stored written : Option (TaskRecord TaskResult)}

/-- Outside of the callback nothing but a completion is late. -/
theorem balanced_completing (hserving : Serving evaluation process record service)
    (hsettling : process.settling = none) :
    Balanced evaluation process service.record.units (completing service)
      (completing service) := by
  have hbalanced := hserving.balanced
  rw [HarnessProcess.late, HarnessProcess.lateForDifficulty, hsettling] at hbalanced
  exact hbalanced

/-- The ledgers after one step of the service. -/
theorem balanced_serve (hserving : Serving evaluation process record service)
    (hconfigured : Configured evaluation process) (hsettling : process.settling = none)
    (hstep : service.step options choice stored = some (next, written)) :
    Balanced evaluation (process.served service.phase next) next.record.units
      ((process.served service.phase next).late next)
      ((process.served service.phase next).lateForDifficulty next) := by
  have hbalanced := hserving.balanced_completing hsettling
  obtain ⟨initial, hlifecycle⟩ := hserving.lifecycle
  have hkept := process.served_kept service.phase next
  refine Balanced.of_same ?_ hkept.2.2.1 hkept.2.2.2.1
  by_cases hsave : ∃ unit rest, service.phase = .mergeSave (.unitFinished unit rest)
  · obtain ⟨unit, rest, hphase⟩ := hsave
    have hlate : completing service = (service.record.units[unit]?).toList := by
      rw [completing, hphase]
    rw [hlate] at hbalanced
    unfold RunProcess.step at hstep
    rw [hphase] at hstep
    cases hstep
    have hunits : (service.resumeAfter choice.callback (.unitFinished unit rest)).record =
        service.record := by
      cases hcallback : choice.callback <;> rfl
    have hdone : completing (service.resumeAfter choice.callback
        (.unitFinished unit rest)) = [] := by
      cases hcallback : choice.callback <;> rfl
    rw [HarnessProcess.late, HarnessProcess.lateForDifficulty, hphase, hunits]
    dsimp only [HarnessProcess.served]
    rw [HarnessProcess.settlement]
    cases hmonitor : process.monitor with
    | none => exact .of_unmonitored hconfigured hmonitor
    | some monitor =>
        rw [hunits, hdone]
        cases hunit : service.record.units[unit]? with
        | none =>
            rw [hunit] at hbalanced
            exact hbalanced
        | some found =>
            rw [hunit] at hbalanced
            cases hresult : found.result with
            | none =>
                rw [Option.isNone_some, if_neg Bool.false_ne_true, Option.bind_some, hresult]
                exact hbalanced.forget hresult
            | some result =>
                rw [Option.isNone_some, if_neg Bool.false_ne_true, Option.bind_some, hresult]
                exact hbalanced
  · have hother : ∀ unit rest, service.phase ≠ .mergeSave (.unitFinished unit rest) :=
      fun unit rest hphase => hsave ⟨unit, rest, hphase⟩
    rw [HarnessProcess.late, HarnessProcess.lateForDifficulty,
      process.served_settling service.phase next hother, hsettling]
    dsimp only
    have hmove := RunProcess.step_move hstep
    rcases completes_or_billed hmove with ⟨unit, outcome, rest, hphase, rfl⟩ | hopen
    · have hnone : completing service = [] := by
        rw [completing, hphase]
      rw [hnone] at hbalanced
      exact hbalanced.complete fun scope =>
        spent_complete hlifecycle.stage hserving.settled hphase
    · rw [completing_move hmove hopen hother]
      exact hbalanced.congr (billed_move hmove hopen).symm

/-- The callback is for the unit that the step has stored. -/
theorem callback_serve (hsettling : process.settling = none)
    (hcallback : choice.callback = none)
    (hstep : service.step options choice stored = some (next, written))
    {settlement : Settlement}
    (hsome : (process.served service.phase next).settling = some settlement) :
    (∃ rest, next.phase = .completing rest) ∧ settlement.unit.result = some settlement.result := by
  by_cases hsave : ∃ unit rest, service.phase = .mergeSave (.unitFinished unit rest)
  · obtain ⟨unit, rest, hphase⟩ := hsave
    unfold RunProcess.step at hstep
    rw [hphase] at hstep
    cases hstep
    refine ⟨⟨rest, ?_⟩, ?_⟩
    · simp [RunProcess.resumeAfter, hcallback]
    · rw [hphase] at hsome
      dsimp only [HarnessProcess.served] at hsome
      rw [HarnessProcess.settlement] at hsome
      split_ifs at hsome
      obtain ⟨found, -, hfound⟩ := Option.bind_eq_some_iff.mp hsome
      obtain ⟨result, hresult, rfl⟩ := Option.map_eq_some_iff.mp hfound
      exact hresult
  · rw [process.served_settling service.phase next fun unit rest hphase =>
      hsave ⟨unit, rest, hphase⟩, hsettling] at hsome
    cases hsome

/-- What the step writes lies between the old file and the new copy. -/
theorem grown_serve (hserving : Serving evaluation process record service)
    (hmove : service.Move (evaluation.options process.plan process.resume) choice stored next
      written)
    (hkept : written.or (some record) = some kept) {scope : TaskUnit TaskResult → Bool}
    (hscope : ByProblem scope) :
    spent (record.units.filter scope) ≤ spent (kept.units.filter scope) ∧
      spent (kept.units.filter scope) ≤ spent (next.record.units.filter scope) := by
  have hbefore := hserving.grown scope hscope
  have hafter : spent (service.record.units.filter scope) ≤
      spent (next.record.units.filter scope) := by
    obtain ⟨initial, hlifecycle⟩ := hserving.lifecycle
    exact spent_move hlifecycle.stage hserving.settled hmove hscope
  cases written with
  | none =>
      obtain rfl : record = kept := Option.some.inj hkept
      exact ⟨le_refl _, hbefore.trans hafter⟩
  | some saved =>
      obtain rfl : saved = kept := Option.some.inj hkept
      rw [hmove.written_eq]
      exact ⟨hbefore, hafter⟩

/-- One step of the service. -/
theorem serve {done : List (ℕ × TaskService.Outcome TaskResult)}
    (hserving : Serving evaluation process record service)
    (hconfigured : Configured evaluation process) (hsettling : process.settling = none)
    (hstep : service.step (evaluation.options process.plan process.resume) (process.choice done)
      (some record) = some (next, written))
    (hkept : written.or (some record) = some kept) :
    Serving evaluation (process.served service.phase next) kept next := by
  obtain ⟨initial, hlifecycle⟩ := hserving.lifecycle
  have hmove := RunProcess.step_move hstep
  obtain ⟨hplan, hresume, hmonitor, -⟩ := process.served_kept service.phase next
  constructor
  case settled => exact hserving.settled.move hlifecycle.stage hmove
  case lifecycle =>
    rw [hplan, hresume]
    exact ⟨initial, hlifecycle.move hmove⟩
  case stored => exact stored_move hmove hserving.stored hkept
  case grown => exact fun scope hscope => (hserving.grown_serve hmove hkept hscope).2
  case balanced => exact hserving.balanced_serve hconfigured hsettling hstep
  case callback => exact fun settlement => callback_serve hsettling rfl hstep
  case guarded =>
    rw [hplan, HarnessProcess.overCap_congr hmonitor]
    intro haction
    have hanswer : (process.choice done).pauseWhen = process.overCap := by
      rw [HarnessProcess.choice, haction]
      rfl
    have hguarded := hserving.guarded haction
    rw [← hanswer] at hguarded ⊢
    exact guarded_step hguarded hstep

/-- The run ledger takes over a result. -/
theorem settleRun {settlement : Settlement}
    (hserving : Serving evaluation process record service)
    (hsettling : process.settling = some settlement) (hrun : settlement.runSettled = false) :
    Serving evaluation
      { process.settleRun settlement.result with
        settling := some { settlement with runSettled := true } } record service := by
  obtain ⟨⟨rest, hphase⟩, hresult⟩ := hserving.callback settlement hsettling
  have hbalanced := hserving.balanced
  rw [HarnessProcess.late, HarnessProcess.lateForDifficulty, hsettling] at hbalanced
  dsimp only at hbalanced
  rw [hrun, if_neg Bool.false_ne_true] at hbalanced
  refine ⟨hserving.settled, hserving.lifecycle, hserving.stored, hserving.grown, ?_, ?_, ?_⟩
  · exact (hbalanced.settleRun hresult).of_same rfl rfl
  · rintro later ⟨⟩
    exact ⟨⟨rest, hphase⟩, hresult⟩
  · intro haction
    rw [Guarded, hphase]
    trivial

/-- The ledger of the difficulty takes it over as well. -/
theorem settleDifficulty {settlement : Settlement}
    (hserving : Serving evaluation process record service)
    (hsettling : process.settling = some settlement) (hrun : settlement.runSettled = true) :
    Serving evaluation
      { process.settleDifficulty evaluation settlement.unit settlement.result with
        settling := none } record service := by
  obtain ⟨⟨rest, hphase⟩, hresult⟩ := hserving.callback settlement hsettling
  have hbalanced := hserving.balanced
  rw [HarnessProcess.late, HarnessProcess.lateForDifficulty, hsettling] at hbalanced
  dsimp only at hbalanced
  rw [hrun, if_pos rfl] at hbalanced
  refine ⟨hserving.settled, hserving.lifecycle, hserving.stored, hserving.grown, ?_,
    (fun _ hnone => by cases hnone), ?_⟩
  · have hnone : completing service = [] := by
      rw [completing, hphase]
    rw [HarnessProcess.late, HarnessProcess.lateForDifficulty]
    dsimp only
    rw [hnone]
    exact (hbalanced.settleDifficulty hresult).of_same rfl rfl
  · intro haction
    rw [Guarded, hphase]
    trivial

end Serving

/-! ## One step of a run -/

theorem mem_of_mapM_eq_ok {Source Target : Type} {convert : Source → Except String Target}
    {sources : List Source} {targets : List Target} (hmap : sources.mapM convert = .ok targets) :
    ∀ target ∈ targets, ∃ source ∈ sources, convert source = .ok target := by
  induction sources generalizing targets with
  | nil =>
      cases hmap
      exact fun target htarget => absurd htarget List.not_mem_nil
  | cons source sources ih =>
      rw [List.mapM_cons] at hmap
      cases hfirst : convert source with
      | error message =>
          rw [hfirst] at hmap
          cases hmap
      | ok first =>
          cases hrest : sources.mapM convert with
          | error message =>
              rw [hfirst, hrest] at hmap
              cases hmap
          | ok rest =>
              rw [hfirst, hrest] at hmap
              cases hmap
              intro target htarget
              rcases List.mem_cons.mp htarget with rfl | hlater
              · exact ⟨source, List.mem_cons_self, hfirst⟩
              · obtain ⟨later, hmem, hconvert⟩ := ih hrest target hlater
                exact ⟨later, List.mem_cons_of_mem _ hmem, hconvert⟩

theorem plannedUnits_result {units : List (TaskUnit TaskResult)}
    (hunits : evaluation.plannedUnits plan = .ok units) : ∀ unit ∈ units, unit.result = none := by
  rw [TaskEvaluation.plannedUnits] at hunits
  cases hselector : plan.selector with
  | none =>
      rw [hselector] at hunits
      change (if _ then _ else _) = _ at hunits
      split_ifs at hunits
      cases hunits
      intro unit hunit
      obtain ⟨strategy, -, hstrategy⟩ := List.mem_flatMap.mp hunit
      obtain ⟨problem, -, rfl⟩ := List.mem_map.mp hstrategy
      rfl
  | some selector =>
      rw [hselector] at hunits
      dsimp only at hunits
      cases hmap : (evaluation.problems.mapM fun problem => do
          let strategy ← selector.select problem.difficulty.word
          pure (TaskEvaluation.plannedUnit strategy problem)) with
      | error message =>
          rw [hmap] at hunits
          cases hunits
      | ok planned =>
          rw [hmap] at hunits
          change (if _ then _ else _) = _ at hunits
          split_ifs at hunits
          cases hunits
          intro unit hunit
          obtain ⟨problem, -, hplanned⟩ := mem_of_mapM_eq_ok hmap unit hunit
          cases hselect : selector.select problem.difficulty.word with
          | error message =>
              rw [hselect] at hplanned
              cases hplanned
          | ok strategy =>
              rw [hselect] at hplanned
              cases hplanned
              rfl

namespace TaskRuns

variable {runs : TaskRuns} {record : TaskRecord TaskResult}

theorem create_ok {store : Option (TaskRecord TaskResult)}
    (hcreate : create evaluation store = .ok (record, process)) :
    store = none ∧ (∀ unit ∈ record.units, unit.result = none) ∧
      evaluation.plan = .ok process.plan ∧ process = .fresh evaluation process.plan false := by
  rw [create] at hcreate
  cases hplan : evaluation.plan with
  | error message =>
      rw [hplan] at hcreate
      cases hcreate
  | ok plan =>
      cases hunits : evaluation.plannedUnits plan with
      | error message =>
          rw [hplan] at hcreate
          change (evaluation.plannedUnits plan).bind _ = _ at hcreate
          rw [hunits] at hcreate
          cases hcreate
      | ok units =>
          rw [hplan] at hcreate
          change (evaluation.plannedUnits plan).bind _ = _ at hcreate
          rw [hunits] at hcreate
          cases store with
          | some stored => cases hcreate
          | none =>
              cases hcreate
              exact ⟨rfl, plannedUnits_result hunits, rfl, rfl⟩

theorem resume_ok {store : Option (TaskRecord TaskResult)}
    (hresume : resume evaluation store = .ok process) :
    ∃ record plan, store = some record ∧ evaluation.plan = .ok plan ∧
      process = record.units.foldl (fun process unit => process.resettle evaluation unit)
        (.fresh evaluation plan true) := by
  rw [resume] at hresume
  cases hplan : evaluation.plan with
  | error message =>
      rw [hplan] at hresume
      cases hresume
  | ok plan =>
      rw [hplan] at hresume
      cases store with
      | none => cases hresume
      | some record =>
          cases hresume
          exact ⟨record, plan, rfl, rfl, rfl⟩

/-- The call of `service.run` starts on the record of the file. -/
theorem serving_begin {service : RunProcess TaskResult}
    (hbalanced : Balanced evaluation process record.units [] [])
    (hsettling : process.settling = none) (hsettled : Settled record.units)
    (hbegin : RunProcess.begin (evaluation.options process.plan process.resume) false
      (some record) = .ok service) :
    Serving evaluation { process with service := some service } record service := by
  have hlifecycle : service.Invariant False
      (evaluation.options process.plan process.resume) record :=
    .begin hbegin False.elim False.elim
  have hunits : Settled service.record.units ∧
      record.units.map billed = service.record.units.map billed ∧
      completing service = [] ∧ ∀ reached, Guarded reached service := by
    rcases RunProcess.begin_ok hbegin with ⟨-, rfl⟩ | ⟨-, -, rfl⟩
    · exact ⟨hsettled.requeue, (billed_requeueUnit hsettled).symm, rfl, fun _ => trivial⟩
    · exact ⟨hsettled, rfl, rfl, fun _ => trivial⟩
  obtain ⟨hservice, hbilled, hcompleting, hguarded⟩ := hunits
  refine ⟨hservice, ⟨record, hlifecycle⟩, fun _ => hbilled,
    fun scope hscope => (spent_congr hscope hbilled).le, ?_, ?_, fun _ => hguarded _⟩
  · rw [HarnessProcess.late, HarnessProcess.lateForDifficulty]
    dsimp only
    rw [hsettling, hcompleting]
    exact (hbalanced.congr hbilled).of_same rfl rfl
  · intro settlement hsome
    cases hsettling.symm.trans hsome

theorem foldl_resettle_kept (units : List (TaskUnit TaskResult)) :
    (units.foldl (fun process unit => process.resettle evaluation unit) process).service =
        process.service ∧
      (units.foldl (fun process unit => process.resettle evaluation unit) process).settling =
        process.settling ∧
      (units.foldl (fun process unit => process.resettle evaluation unit) process).jobs =
        process.jobs := by
  induction units generalizing process with
  | nil => exact ⟨rfl, rfl, rfl⟩
  | cons unit units ih =>
      have hunit : (process.resettle evaluation unit).service = process.service ∧
          (process.resettle evaluation unit).settling = process.settling ∧
          (process.resettle evaluation unit).jobs = process.jobs := by
        unfold HarnessProcess.resettle
        split <;> exact ⟨rfl, rfl, rfl⟩
      rw [List.foldl_cons, ih.1, ih.2.1, ih.2.2]
      exact hunit

theorem resume_sound {store : Option (TaskRecord TaskResult)}
    (hresume : resume evaluation store = .ok process) :
    ∃ record, store = some record ∧ Configured evaluation process ∧
      Balanced evaluation process record.units [] [] ∧ process.service = none ∧
      process.settling = none ∧ process.jobs = fun _ => none := by
  obtain ⟨record, plan, hstore, hplan, rfl⟩ := resume_ok hresume
  have hfresh : Balanced evaluation (.fresh evaluation plan true) [] [] [] := .fresh true
  obtain ⟨hbalanced, hconfigured⟩ := hfresh.replay record.units (.fresh hplan true)
  exact ⟨record, hstore, hconfigured, hbalanced, foldl_resettle_kept record.units⟩

/-- The steps of a run, with their guards. -/
inductive Move (evaluation : TaskEvaluation) (runs : TaskRuns) : TaskRunStep → TaskRuns → Prop where
  | create (record : TaskRecord TaskResult) (process : HarnessProcess)
      (hcreate : create evaluation runs.store = .ok (record, process)) :
      Move evaluation runs .create { store := some record, process := some process }
  | resume (process : HarnessProcess) (hresume : resume evaluation runs.store = .ok process) :
      Move evaluation runs .resume { runs with process := some process }
  | setupFails (error : String) (record : TaskRecord TaskResult)
      (hstore : runs.store = some record) :
      Move evaluation runs (.setupFails error)
        { store := some (record.fail error), process := none }
  | begin (process : HarnessProcess) (service : RunProcess TaskResult)
      (hprocess : runs.process = some process) (hservice : process.service = none)
      (hbegin : RunProcess.begin (evaluation.options process.plan process.resume) false
        runs.store = .ok service) :
      Move evaluation runs .begin
        { runs with process := some { process with service := some service } }
  | serve (done : List (ℕ × TaskService.Outcome TaskResult)) (process : HarnessProcess)
      (service next : RunProcess TaskResult) (written : Option (TaskRecord TaskResult))
      (hprocess : runs.process = some process) (hservice : process.service = some service)
      (hsettling : process.settling = none)
      (hstep : service.step (evaluation.options process.plan process.resume)
        (process.choice done) runs.store = some (next, written)) :
      Move evaluation runs (.serve done)
        { store := written.or runs.store, process := some (process.served service.phase next) }
  | settleRun (process : HarnessProcess) (settlement : Settlement)
      (hprocess : runs.process = some process) (hsettling : process.settling = some settlement)
      (hrun : settlement.runSettled = false) :
      Move evaluation runs .settle
        { runs with
          process := some
            { process.settleRun settlement.result with
              settling := some { settlement with runSettled := true } } }
  | settleDifficulty (process : HarnessProcess) (settlement : Settlement)
      (hprocess : runs.process = some process) (hsettling : process.settling = some settlement)
      (hrun : settlement.runSettled = true) :
      Move evaluation runs .settle
        { runs with
          process := some
            { process.settleDifficulty evaluation settlement.unit settlement.result with
              settling := none } }
  | work (unit : ℕ) (worker : WorkerStep) (process : HarnessProcess) (job : Job)
      (stage : JobStage) (hprocess : runs.process = some process)
      (hjob : process.jobs unit = some job)
      (hwork : process.work evaluation job worker = some stage) :
      Move evaluation runs (.work unit worker)
        { runs with
          process := some
            { process with
              jobs := Function.update process.jobs unit (some { job with stage }) } }
  | exit : Move evaluation runs .exit { runs with process := none }

theorem step_move {label : TaskRunStep} {next : TaskRuns}
    (hstep : step evaluation runs label = some next) : Move evaluation runs label next := by
  cases label with
  | create =>
      simp only [step] at hstep
      split at hstep
      · next record process hnone hcreate =>
          cases hstep
          exact .create record process hcreate
      · cases hstep
  | resume =>
      simp only [step] at hstep
      split at hstep
      · next process hnone hresume =>
          cases hstep
          exact .resume process hresume
      · cases hstep
  | setupFails error =>
      simp only [step] at hstep
      split at hstep
      · next process record hprocess hstore =>
          split at hstep
          · cases hstep
            exact .setupFails error record hstore
          · cases hstep
      · cases hstep
  | begin =>
      obtain ⟨process, hprocess, hbegins⟩ := Option.bind_eq_some_iff.mp hstep
      split at hbegins
      · next service hservice hbegin =>
          cases hbegins
          exact .begin process service hprocess hservice hbegin
      · cases hbegins
  | serve done =>
      obtain ⟨process, hprocess, hserves⟩ := Option.bind_eq_some_iff.mp hstep
      split at hserves
      · next service hservice hsettling =>
          split at hserves
          · obtain ⟨⟨moved, written⟩, hmoved, rfl⟩ := Option.map_eq_some_iff.mp hserves
            exact .serve done process service moved written hprocess hservice hsettling hmoved
          · cases hserves
      · cases hserves
  | settle =>
      obtain ⟨process, hprocess, hsettles⟩ := Option.bind_eq_some_iff.mp hstep
      split at hsettles
      · cases hsettles
      · next settlement hsettling =>
          cases hsettles
          cases hrun : settlement.runSettled with
          | false => exact .settleRun process settlement hprocess hsettling hrun
          | true => exact .settleDifficulty process settlement hprocess hsettling hrun
  | work unit worker =>
      obtain ⟨process, hprocess, hworks⟩ := Option.bind_eq_some_iff.mp hstep
      obtain ⟨job, hjob, hworks⟩ := Option.bind_eq_some_iff.mp hworks
      obtain ⟨stage, hwork, rfl⟩ := Option.map_eq_some_iff.mp hworks
      exact .work unit worker process job stage hprocess hjob hwork
  | exit =>
      cases hstep
      exact .exit

theorem sound_preserved (evaluation : TaskEvaluation) :
    Preserved (step evaluation) (Sound evaluation) := by
  intro runs label next hsound hstep
  cases step_move hstep with
  | create record process hcreate =>
      obtain ⟨-, hresults, hplan, hfresh⟩ := create_ok hcreate
      have hsettled : Settled record.units := by
        intro unit hunit hresult
        rw [hresults unit hunit] at hresult
        cases hresult
      refine ⟨?_, ?_⟩
      · rintro stored ⟨⟩
        exact hsettled
      · rintro later ⟨⟩
        refine ⟨record, rfl, ?_, ?_, ?_⟩
        · rw [hfresh]
          exact .fresh hplan false
        · intro _
          rw [hfresh]
          refine ⟨rfl, (Balanced.fresh false).complete fun scope => ?_⟩
          rw [spent_of_unrecorded hresults]
          exact (add_zero 0).symm
        · intro service hservice
          rw [hfresh] at hservice
          cases hservice
  | resume process hresume =>
      obtain ⟨record, hstore, hconfigured, hbalanced, hservice, hsettling, -⟩ :=
        resume_sound hresume
      refine ⟨hsound.store, ?_⟩
      rintro later ⟨⟩
      refine ⟨record, hstore, hconfigured, fun _ => ⟨hsettling, hbalanced⟩, ?_⟩
      intro service hsome
      rw [hservice] at hsome
      cases hsome
  | setupFails error record hstore =>
      constructor
      · rintro stored ⟨⟩
        exact hsound.store record hstore
      · rintro process ⟨⟩
  | begin process service hprocess hservice hbegin =>
      obtain ⟨record, hstore, hconfigured, hidle, -⟩ := hsound.process process hprocess
      obtain ⟨hsettling, hbalanced⟩ := hidle hservice
      refine ⟨hsound.store, ?_⟩
      rintro later ⟨⟩
      refine ⟨record, hstore, hconfigured.congr rfl rfl rfl, nofun, ?_⟩
      rintro started ⟨⟩
      rw [hstore] at hbegin
      exact serving_begin hbalanced hsettling (hsound.store record hstore) hbegin
  | serve done process service moved written hprocess hservice hsettling hmoved =>
      obtain ⟨record, hstore, hconfigured, -, hserving⟩ := hsound.process process hprocess
      have hserving := hserving service hservice
      obtain ⟨hplan, hresume, hmonitor, hallocation, hmovedService⟩ :=
        process.served_kept service.phase moved
      rw [hstore] at hmoved ⊢
      obtain ⟨kept, hkept⟩ : ∃ kept, written.or (some record) = some kept := by
        cases written <;> exact ⟨_, rfl⟩
      have hnext := hserving.serve hconfigured hsettling hmoved hkept
      refine ⟨?_, ?_⟩
      · intro stored hstored
        cases written with
        | none =>
            obtain rfl : record = stored := Option.some.inj hstored
            exact hsound.store record hstore
        | some saved =>
            obtain rfl : saved = stored := Option.some.inj hstored
            rw [(RunProcess.step_move hmoved).written_eq]
            exact hserving.settled
      · rintro later ⟨⟩
        refine ⟨kept, hkept, hconfigured.congr hplan hmonitor hallocation, ?_, ?_⟩
        · intro hnone
          cases hmovedService.symm.trans hnone
        · intro current hcurrent
          obtain rfl : moved = current := Option.some.inj (hmovedService.symm.trans hcurrent)
          exact hnext
  | settleRun process settlement hprocess hsettling hrun =>
      obtain ⟨record, hstore, hconfigured, hidle, hserving⟩ := hsound.process process hprocess
      refine ⟨hsound.store, ?_⟩
      rintro later ⟨⟩
      refine ⟨record, hstore, (hconfigured.settleRun settlement.result).congr rfl rfl rfl, ?_, ?_⟩
      · intro hservice
        cases hsettling.symm.trans (hidle hservice).1
      · intro service hservice
        exact (hserving service hservice).settleRun hsettling hrun
  | settleDifficulty process settlement hprocess hsettling hrun =>
      obtain ⟨record, hstore, hconfigured, hidle, hserving⟩ := hsound.process process hprocess
      refine ⟨hsound.store, ?_⟩
      rintro later ⟨⟩
      refine ⟨record, hstore,
        (hconfigured.settleDifficulty settlement.unit settlement.result).congr rfl rfl rfl, ?_, ?_⟩
      · intro hservice
        cases hsettling.symm.trans (hidle hservice).1
      · intro service hservice
        exact (hserving service hservice).settleDifficulty hsettling hrun
  | work unit worker process job stage hprocess hjob hwork =>
      obtain ⟨record, hstore, hconfigured, hidle, hserving⟩ := hsound.process process hprocess
      refine ⟨hsound.store, ?_⟩
      rintro later ⟨⟩
      refine ⟨record, hstore, hconfigured.congr rfl rfl rfl, ?_, ?_⟩
      · intro hservice
        exact ⟨(hidle hservice).1, (hidle hservice).2.of_same rfl rfl⟩
      · intro service hservice
        have hserving := hserving service hservice
        exact ⟨hserving.settled, hserving.lifecycle, hserving.stored, hserving.grown,
          hserving.balanced.of_same rfl rfl, hserving.callback, hserving.guarded⟩
  | exit =>
      refine ⟨hsound.store, ?_⟩
      rintro process ⟨⟩

end TaskRuns

end AlgorithmHarness.Harness
