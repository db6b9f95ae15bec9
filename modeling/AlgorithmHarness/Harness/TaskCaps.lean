import AlgorithmHarness.Harness.TaskBudget

/-!
# Units dispatched at a cap

A ledger that has reached its cap stays there, in this process and in every
later one.  A worker reads the ledgers after its unit was dispatched, so it
finds them as full as they were then.
-/

namespace AlgorithmHarness.Harness

open TaskService (TaskRecord TaskUnit RunOptions RunProcess Choice)
open Transition

variable {evaluation : TaskEvaluation} {process : HarnessProcess} {runs next : TaskRuns}

/-! ## The ledgers by their level -/

/-- The ledger of the run (`none`) or of a difficulty. -/
abbrev Level := Option Difficulty

def HarnessProcess.ledger (process : HarnessProcess) : Level → Option RunCostMonitor
  | none => process.monitor
  | some difficulty => process.difficultyMonitor difficulty

namespace TaskEvaluation

variable (evaluation : TaskEvaluation)

/-- The units that a ledger is for. -/
def inLevel : Level → TaskUnit TaskResult → Bool
  | none => fun _ => true
  | some difficulty => evaluation.covers difficulty

def cap : Level → Option ℚ
  | none => evaluation.config.budgetCapUsd
  | some difficulty => evaluation.allocated difficulty

theorem byProblem_inLevel (level : Level) : ByProblem (evaluation.inLevel level) := by
  cases level with
  | none => exact byProblem_true
  | some difficulty => exact byProblem_covers evaluation difficulty

end TaskEvaluation

/-- A capped ledger exists. -/
theorem Configured.ledger (hconfigured : Configured evaluation process) {level : Level} {cap : ℚ}
    (hcap : evaluation.cap level = some cap) :
    ∃ monitor, process.ledger level = some monitor ∧ monitor.budgetCapUsd = some cap := by
  cases level with
  | none =>
      have hbudget : evaluation.config.budgetCapUsd = some cap := hcap
      have hmonitor := hconfigured.monitor
      rw [TaskEvaluation.monitor, hbudget, Option.isSome_some, Bool.or_true, if_pos rfl] at hmonitor
      exact Option.map_eq_some_iff.mp hmonitor
  | some difficulty =>
      have hallocated : evaluation.allocated difficulty = some cap := hcap
      have hmonitor := hconfigured.difficulty difficulty
      rw [hallocated] at hmonitor
      exact Option.map_eq_some_iff.mp hmonitor

/-- Without a late unit the ledger is what the units cost. -/
theorem Balanced.ledger {units : List (TaskUnit TaskResult)}
    (hbalanced : Balanced evaluation process units [] []) {level : Level}
    {monitor : RunCostMonitor} (hledger : process.ledger level = some monitor) :
    monitor.accumulatedCost = spent (units.filter (evaluation.inLevel level)) := by
  cases level with
  | none =>
      have hrun := hbalanced.run monitor hledger
      rw [spent, List.map_nil, List.sum_nil, add_zero] at hrun
      exact hrun.trans (congrArg spent (filter_true units)).symm
  | some difficulty =>
      have hdifficulty := hbalanced.difficulty difficulty monitor hledger
      rw [List.filter_nil, spent, List.map_nil, List.sum_nil, add_zero] at hdifficulty
      exact hdifficulty

/-- The ledger has reached the cap. -/
def HarnessProcess.Reached (process : HarnessProcess) (level : Level) (cap : ℚ) : Prop :=
  ∃ monitor, process.ledger level = some monitor ∧ monitor.budgetCapUsd = some cap ∧
    cap ≤ monitor.accumulatedCost

namespace HarnessProcess.Reached

variable {level : Level} {cap : ℚ}

theorem addResult {monitor : RunCostMonitor} (hreached : cap ≤ monitor.accumulatedCost)
    (account : Account) : cap ≤ (monitor.addResult account).accumulatedCost :=
  hreached.trans (le_add_of_nonneg_right (resultCost_nonneg account))

theorem settleRun (hreached : process.Reached level cap) (result : TaskResult) :
    (process.settleRun result).Reached level cap := by
  obtain ⟨monitor, hledger, hcap, hcost⟩ := hreached
  cases level with
  | none =>
      have hmonitor : process.monitor = some monitor := hledger
      refine ⟨monitor.addResult result.account, ?_, hcap, addResult hcost result.account⟩
      change process.monitor.map _ = _
      rw [hmonitor]
      rfl
  | some difficulty => exact ⟨monitor, hledger, hcap, hcost⟩

theorem settleDifficulty (hreached : process.Reached level cap) (unit : TaskUnit TaskResult)
    (result : TaskResult) :
    (process.settleDifficulty evaluation unit result).Reached level cap := by
  obtain ⟨monitor, hledger, hcap, hcost⟩ := hreached
  cases level with
  | none => exact ⟨monitor, hledger, hcap, hcost⟩
  | some difficulty =>
      have hmonitor : process.difficultyMonitor difficulty = some monitor := hledger
      have hsettled : (process.settleDifficulty evaluation unit result).difficultyMonitor
          difficulty = _ := HarnessProcess.difficultyMonitor_settle unit result difficulty
      rw [hmonitor] at hsettled
      split_ifs at hsettled
      · exact ⟨monitor.addResult result.account, hsettled, hcap, addResult hcost result.account⟩
      · exact ⟨monitor, hsettled, hcap, hcost⟩

theorem congr {other : HarnessProcess} (hreached : process.Reached level cap)
    (hmonitor : other.monitor = process.monitor)
    (hallocation : other.allocation = process.allocation) : other.Reached level cap := by
  obtain ⟨monitor, hledger, hkept⟩ := hreached
  refine ⟨monitor, ?_, hkept⟩
  cases level with
  | none => exact hmonitor.trans hledger
  | some difficulty => exact (HarnessProcess.difficultyMonitor_congr hallocation _).trans hledger

/-- A full run ledger is over its cap. -/
theorem overCap (hreached : process.Reached none cap) : process.overCap = true := by
  obtain ⟨monitor, hledger, hcap, hcost⟩ := hreached
  have hmonitor : process.monitor = some monitor := hledger
  rw [HarnessProcess.overCap, hmonitor]
  dsimp only
  rw [RunCostMonitor.overCap, hcap]
  exact decide_eq_true hcost

theorem difficultyOver {difficulty : Difficulty} {unit : TaskUnit TaskResult}
    (hreached : process.Reached (some difficulty) cap)
    (hcovers : evaluation.covers difficulty unit = true) :
    process.difficultyOver (evaluation.difficultyOf unit) = true := by
  obtain ⟨monitor, hledger, hcap, hcost⟩ := hreached
  have hmonitor : process.difficultyMonitor difficulty = some monitor := hledger
  rw [HarnessProcess.difficultyOver_eq hcovers, hmonitor, Option.map_some, Option.getD_some,
    RunCostMonitor.overCap, hcap]
  exact decide_eq_true hcost

end HarnessProcess.Reached

/-! ## A full ledger stays full -/

/-- The unit at a position has a problem, and the ledger of `level` is full. -/
structure Full (evaluation : TaskEvaluation) (level : Level) (cap : ℚ) (position : ℕ)
    (problemId : String) (runs : TaskRuns) : Prop where
  stored : ∃ record, runs.store = some record ∧
    cap ≤ spent (record.units.filter (evaluation.inLevel level)) ∧
    record.units[position]?.map (·.problemId) = some problemId
  ledger : ∀ process, runs.process = some process → process.Reached level cap
  copied : ∀ process service, runs.process = some process → process.service = some service →
    service.record.units[position]?.map (·.problemId) = some problemId

namespace Full

variable {level : Level} {cap : ℚ} {position : ℕ} {problemId : String} {label : TaskRunStep}

theorem named {units other : List (TaskUnit TaskResult)}
    (hunits : other.map (·.problemId) = units.map (·.problemId)) (position : ℕ) :
    other[position]?.map (·.problemId) = units[position]?.map (·.problemId) := by
  rw [← List.getElem?_map, hunits, List.getElem?_map]

theorem requeue_problemId (units : List (TaskUnit TaskResult)) :
    (units.map TaskRecord.requeueUnit).map (·.problemId) = units.map (·.problemId) := by
  rw [List.map_map]
  refine List.map_congr_left fun unit _ => ?_
  rw [Function.comp_apply, TaskRecord.requeueUnit]
  split_ifs <;> rfl

theorem step (hfull : Full evaluation level cap position problemId runs)
    (hcap : evaluation.cap level = some cap) (hsound : Sound evaluation runs)
    (hstep : TaskRuns.step evaluation runs label = some next) :
    Full evaluation level cap position problemId next := by
  obtain ⟨record, hstore, hspent, hnamed⟩ := hfull.stored
  cases TaskRuns.step_move hstep with
  | create created process hcreate =>
      obtain ⟨hnone, -⟩ := TaskRuns.create_ok hcreate
      cases hstore.symm.trans hnone
  | resume process hresume =>
      obtain ⟨found, hfound, hconfigured, hbalanced, hservice, -⟩ :=
        TaskRuns.resume_sound hresume
      obtain rfl : record = found := Option.some.inj (hstore.symm.trans hfound)
      obtain ⟨monitor, hledger, hbudget⟩ := hconfigured.ledger hcap
      refine ⟨hfull.stored, ?_, ?_⟩
      · rintro later ⟨⟩
        refine ⟨monitor, hledger, hbudget, ?_⟩
        rwa [hbalanced.ledger hledger]
      · rintro later service ⟨⟩ hsome
        cases hservice.symm.trans hsome
  | setupFails error found hfound =>
      obtain rfl : record = found := Option.some.inj (hstore.symm.trans hfound)
      refine ⟨⟨record.fail error, rfl, hspent, hnamed⟩, ?_, ?_⟩
      · rintro process ⟨⟩
      · rintro process service ⟨⟩
  | begin process service hprocess hservice hbegin =>
      refine ⟨hfull.stored, ?_, ?_⟩
      · rintro later ⟨⟩
        exact (hfull.ledger process hprocess).congr rfl rfl
      · rintro later started ⟨⟩ ⟨⟩
        rw [hstore] at hbegin
        rcases RunProcess.begin_ok hbegin with ⟨-, rfl⟩ | ⟨-, -, rfl⟩
        · exact (named (requeue_problemId record.units) position).trans hnamed
        · exact hnamed
  | serve done process service moved written hprocess hservice hsettling hmoved =>
      obtain ⟨found, hfound, -, -, hserving⟩ := hsound.process process hprocess
      obtain rfl : record = found := Option.some.inj (hstore.symm.trans hfound)
      have hmove := RunProcess.step_move hmoved
      have hcopied := hfull.copied process service hprocess hservice
      obtain ⟨-, -, hmonitor, hallocation, hmovedService⟩ :=
        process.served_kept service.phase moved
      obtain ⟨kept, hkept⟩ : ∃ kept, written.or runs.store = some kept := by
        rw [hstore]
        cases written <;> exact ⟨_, rfl⟩
      rw [hstore] at hkept
      have hgrown := ((hserving service hservice).grown_serve hmove hkept
        (evaluation.byProblem_inLevel level)).1
      refine ⟨⟨kept, by rw [hstore]; exact hkept, hspent.trans hgrown, ?_⟩, ?_, ?_⟩
      · cases written with
        | none =>
            obtain rfl : record = kept := Option.some.inj hkept
            exact hnamed
        | some saved =>
            obtain rfl : saved = kept := Option.some.inj hkept
            rw [hmove.written_eq]
            exact hcopied
      · rintro later ⟨⟩
        exact (hfull.ledger process hprocess).congr hmonitor hallocation
      · rintro later current ⟨⟩ hcurrent
        obtain rfl : moved = current := Option.some.inj (hmovedService.symm.trans hcurrent)
        exact (named (problemId_move hmove) position).trans hcopied
  | settleRun process settlement hprocess hsettling hrun =>
      refine ⟨hfull.stored, ?_, ?_⟩
      · rintro later ⟨⟩
        exact ((hfull.ledger process hprocess).settleRun settlement.result).congr rfl rfl
      · rintro later service ⟨⟩ hservice
        exact hfull.copied process service hprocess hservice
  | settleDifficulty process settlement hprocess hsettling hrun =>
      refine ⟨hfull.stored, ?_, ?_⟩
      · rintro later ⟨⟩
        exact ((hfull.ledger process hprocess).settleDifficulty settlement.unit
          settlement.result).congr rfl rfl
      · rintro later service ⟨⟩ hservice
        exact hfull.copied process service hprocess hservice
  | work unit worker process job stage hprocess hjob hwork =>
      refine ⟨hfull.stored, ?_, ?_⟩
      · rintro later ⟨⟩
        exact (hfull.ledger process hprocess).congr rfl rfl
      · rintro later service ⟨⟩ hservice
        exact hfull.copied process service hprocess hservice
  | exit =>
      refine ⟨hfull.stored, ?_, ?_⟩
      · rintro process ⟨⟩
      · rintro process service ⟨⟩

end Full

/-! ## The workers at a full ledger -/

/-- The worker runs the cheapest strategy, and says so unless it was planned. -/
def Job.Cheapest (cheapest : String) (job : Job) : Prop :=
  (∀ strategy downgraded, job.stage = .executing strategy downgraded →
    strategy = cheapest ∧ (downgraded = true ∨ job.unit.strategy = cheapest)) ∧
  ∀ result, job.stage = .finished (.returned result) →
    result.strategy = cheapest ∧ (result.costDowngraded = true ∨ job.unit.strategy = cheapest)

/-- A worker whose unit was dispatched at a full ledger. -/
structure Bound (level : Level) (problemId : String) (cheapest : String) (job : Job) : Prop where
  problem : job.unit.problemId = problemId
  judged : ∀ globalOver, job.stage = .judged globalOver → level = none → globalOver = true
  cheapest : job.Cheapest cheapest

theorem Bound.submitted {level : Level} {cheapest : String} (unit : TaskUnit TaskResult) :
    Bound level unit.problemId cheapest { unit, stage := .submitted } :=
  ⟨rfl, nofun, nofun, nofun⟩

/-- One step of the worker. -/
theorem Bound.work {level : Level} {cap : ℚ} {unit : TaskUnit TaskResult} {job : Job}
    {worker : WorkerStep} {stage : JobStage} {selector : CostAwareSelector}
    (hbound : Bound level unit.problemId selector.cheapestStrategy job)
    (hreached : process.Reached level cap) (hselector : process.plan.selector = some selector)
    (haction : level = none → process.plan.action = some .downgrade)
    (hlevel : evaluation.inLevel level unit = true)
    (hwork : process.work evaluation job worker = some stage) :
    Bound level unit.problemId selector.cheapestStrategy { job with stage } := by
  cases worker with
  | readRun =>
      simp only [HarnessProcess.work] at hwork
      split at hwork
      · split at hwork
        · cases hwork
          refine ⟨hbound.problem, ?_, nofun, nofun⟩
          rintro globalOver ⟨⟩ rfl
          rw [haction rfl, hreached.overCap]
          rfl
        · cases hwork
      · cases hwork
  | readDifficulty =>
      simp only [HarnessProcess.work] at hwork
      split at hwork
      · next globalOver hstage =>
          have hover : (globalOver ||
              process.difficultyOver (evaluation.difficultyOf job.unit)) = true := by
            cases level with
            | none => rw [hbound.judged globalOver hstage rfl, Bool.true_or]
            | some difficulty =>
                have hcovers : evaluation.covers difficulty job.unit = true :=
                  (byProblem_covers evaluation difficulty job.unit unit hbound.problem).trans
                    hlevel
                rw [hreached.difficultyOver hcovers, Bool.or_true]
          rw [hover, hselector] at hwork
          simp only [if_true] at hwork
          split at hwork
          · next hsame =>
              cases hwork
              refine ⟨hbound.problem, nofun, ?_, nofun⟩
              rintro strategy downgraded ⟨⟩
              exact ⟨hsame.symm, .inr hsame.symm⟩
          · split at hwork
            · cases hwork
              refine ⟨hbound.problem, nofun, ?_, nofun⟩
              rintro strategy downgraded ⟨⟩
              exact ⟨rfl, .inl rfl⟩
            · cases hwork
      · cases hwork
  | finish account =>
      simp only [HarnessProcess.work] at hwork
      split at hwork
      · next strategy downgraded hstage =>
          cases hwork
          refine ⟨hbound.problem, nofun, nofun, ?_⟩
          rintro result ⟨⟩
          exact hbound.cheapest.1 strategy downgraded hstage
      · cases hwork
  | fail message =>
      simp only [HarnessProcess.work] at hwork
      split at hwork
      · cases hwork
      · cases hwork
        exact ⟨hbound.problem, nofun, nofun, nofun⟩

/-- Whichever process it is in, the job of a position is bound. -/
def Bounded (level : Level) (position : ℕ) (problemId : String) (cheapest : String)
    (runs : TaskRuns) : Prop :=
  ∀ process job, runs.process = some process → process.jobs position = some job →
    Bound level problemId cheapest job

/-- The jobs after one step of the service. -/
theorem served_jobs {phase : TaskService.Phase TaskResult} {moved : RunProcess TaskResult}
    {position : ℕ} {job : Job} (hjob : (process.served phase moved).jobs position = some job) :
    (phase ≠ .mergeSave (.dispatched position) ∧ process.jobs position = some job) ∨
      job.stage = .submitted ∧ moved.record.units[position]? = some job.unit := by
  unfold HarnessProcess.served at hjob
  split at hjob
  · next unit =>
      dsimp only at hjob
      by_cases hsame : position = unit
      · subst hsame
        rw [Function.update_self] at hjob
        obtain ⟨found, hfound, rfl⟩ := Option.map_eq_some_iff.mp hjob
        exact .inr ⟨rfl, hfound⟩
      · rw [Function.update_of_ne hsame] at hjob
        refine .inl ⟨?_, hjob⟩
        rintro ⟨⟩
        exact hsame rfl
  · exact .inl ⟨nofun, hjob⟩
  · next hdispatched hfinished => exact .inl ⟨hdispatched position, hjob⟩

/-- The job of a unit that has just been dispatched. -/
theorem Full.dispatched {level : Level} {cap : ℚ} {position : ℕ} {problemId cheapest : String}
    {service moved : RunProcess TaskResult} {options : RunOptions} {choice : Choice TaskResult}
    {stored written : Option (TaskRecord TaskResult)} {job : Job}
    (hfull : Full evaluation level cap position problemId runs)
    (hprocess : runs.process = some process) (hservice : process.service = some service)
    (hmove : service.Move options choice stored moved written) (hstage : job.stage = .submitted)
    (hcopy : moved.record.units[position]? = some job.unit) :
    Bound level problemId cheapest job := by
  have hnamed := named (problemId_move hmove) position
  rw [hfull.copied process service hprocess hservice, hcopy] at hnamed
  obtain ⟨unit, stage⟩ := job
  obtain rfl : stage = .submitted := hstage
  obtain rfl : unit.problemId = problemId := Option.some.inj hnamed
  exact .submitted unit

theorem Bounded.step {level : Level} {cap : ℚ} {position : ℕ} {unit : TaskUnit TaskResult}
    {selector : CostAwareSelector} {plan : TaskPlan} {label : TaskRunStep}
    (hbounded : Bounded level position unit.problemId selector.cheapestStrategy runs)
    (hfull : Full evaluation level cap position unit.problemId runs)
    (hsound : Sound evaluation runs) (hplan : evaluation.plan = .ok plan)
    (hselector : plan.selector = some selector)
    (haction : level = none → plan.action = some .downgrade)
    (hlevel : evaluation.inLevel level unit = true)
    (hstep : TaskRuns.step evaluation runs label = some next) :
    Bounded level position unit.problemId selector.cheapestStrategy next := by
  intro later job hlater hjob
  cases TaskRuns.step_move hstep with
  | create record process hcreate =>
      obtain ⟨stored, hstore, -⟩ := hfull.stored
      cases hstore.symm.trans (TaskRuns.create_ok hcreate).1
  | resume process hresume =>
      cases hlater
      obtain ⟨-, -, -, -, -, -, hjobs⟩ := TaskRuns.resume_sound hresume
      rw [hjobs] at hjob
      cases hjob
  | setupFails error record hstore => cases hlater
  | begin process service hprocess =>
      cases hlater
      exact hbounded process job hprocess hjob
  | serve done process service moved written hprocess hservice hsettling hmoved =>
      cases hlater
      rcases served_jobs hjob with ⟨-, hold⟩ | ⟨hstage, hcopy⟩
      · exact hbounded process job hprocess hold
      · exact hfull.dispatched hprocess hservice (RunProcess.step_move hmoved) hstage hcopy
  | settleRun process settlement hprocess =>
      cases hlater
      exact hbounded process job hprocess hjob
  | settleDifficulty process settlement hprocess =>
      cases hlater
      exact hbounded process job hprocess hjob
  | work worked worker process old stage hprocess hold hwork =>
      cases hlater
      dsimp only at hjob
      by_cases hsame : position = worked
      · subst hsame
        rw [Function.update_self] at hjob
        obtain rfl := Option.some.inj hjob
        obtain ⟨record, -, hconfigured, -⟩ := hsound.process process hprocess
        obtain rfl : process.plan = plan :=
          Except.ok.inj (hconfigured.plan.symm.trans hplan)
        exact (hbounded process old hprocess hold).work (hfull.ledger process hprocess) hselector
          haction hlevel hwork
      · rw [Function.update_of_ne hsame] at hjob
        exact hbounded process job hprocess hjob
  | exit => cases hlater

/-! ## The moment of a dispatch -/

/-- `executor.submit` is next, for the unit at a position. -/
def HarnessProcess.Dispatches (process : HarnessProcess) (position : ℕ) : Prop :=
  ∃ service, process.service = some service ∧ service.phase = .mergeSave (.dispatched position)

/-- The sum that a ledger stands for has reached its cap. -/
def TaskEvaluation.Exhausted (evaluation : TaskEvaluation) (units : List (TaskUnit TaskResult))
    (level : Level) : Prop :=
  ∃ cap, evaluation.cap level = some cap ∧ cap ≤ spent (units.filter (evaluation.inLevel level))

theorem Sound.initial : Sound evaluation {} := by
  constructor
  · rintro record ⟨⟩
  · rintro process ⟨⟩

/-- At a dispatch no result is on its way into the ledgers. -/
theorem Sound.dispatch (hsound : Sound evaluation runs) (hprocess : runs.process = some process)
    {position : ℕ} (hdispatches : process.Dispatches position) :
    ∃ record, runs.store = some record ∧ evaluation.plan = .ok process.plan ∧
      Configured evaluation process ∧ Balanced evaluation process record.units [] [] ∧
      (process.plan.action = some .autoStop → process.overCap = false) := by
  obtain ⟨record, hstore, hconfigured, -, hserving⟩ := hsound.process process hprocess
  obtain ⟨service, hservice, hphase⟩ := hdispatches
  have hserving := hserving service hservice
  have hsettling : process.settling = none := by
    cases hsome : process.settling with
    | none => rfl
    | some settlement =>
        obtain ⟨⟨rest, hcompleting⟩, -⟩ := hserving.callback settlement hsome
        cases hphase.symm.trans hcompleting
  have hnone : completing service = [] := by
    rw [completing, hphase]
  have hbalanced := hserving.balanced_completing hsettling
  rw [hnone] at hbalanced
  have hstored := hserving.stored (by rw [recording, hphase])
  refine ⟨record, hstore, hconfigured.plan, hconfigured, hbalanced.congr hstored.symm, ?_⟩
  intro haction
  have hguarded := hserving.guarded haction
  rwa [Guarded, hphase] at hguarded

/-- The schedule goes on from a dispatch at a full ledger. -/
theorem cheapest_of_exhausted {level : Level} {position : ℕ} {unit : TaskUnit TaskResult}
    {record : TaskRecord TaskResult} {selector : CostAwareSelector}
    (hsound : Sound evaluation runs) (hprocess : runs.process = some process)
    (hdispatches : process.Dispatches position) (hstore : runs.store = some record)
    (hunit : record.units[position]? = some unit)
    (hexhausted : evaluation.Exhausted record.units level)
    (hlevel : evaluation.inLevel level unit = true)
    (hselector : process.plan.selector = some selector)
    (haction : level = none → process.plan.action = some .downgrade)
    {done : List (ℕ × TaskService.Outcome TaskResult)} {after : List TaskRunStep} {final : TaskRuns}
    (hrun : run (TaskRuns.step evaluation) runs (.serve done :: after) = some final)
    {later : HarnessProcess} {job : Job} (hlater : final.process = some later)
    (hjob : later.jobs position = some job) : job.Cheapest selector.cheapestStrategy := by
  obtain ⟨found, hfound, hplan, hconfigured, hbalanced, -⟩ := hsound.dispatch hprocess hdispatches
  obtain rfl : record = found := Option.some.inj (hstore.symm.trans hfound)
  obtain ⟨cap, hcap, hspent⟩ := hexhausted
  obtain ⟨service, hservice, hphase⟩ := hdispatches
  have hfull : Full evaluation level cap position unit.problemId runs := by
    constructor
    case stored => exact ⟨record, hstore, hspent, by rw [hunit]; rfl⟩
    case ledger =>
      intro other hother
      obtain rfl : process = other := Option.some.inj (hprocess.symm.trans hother)
      obtain ⟨monitor, hledger, hbudget⟩ := hconfigured.ledger hcap
      exact ⟨monitor, hledger, hbudget, by rwa [hbalanced.ledger hledger]⟩
    case copied =>
      intro other copy hother hcopy
      obtain rfl : process = other := Option.some.inj (hprocess.symm.trans hother)
      obtain rfl : service = copy := Option.some.inj (hservice.symm.trans hcopy)
      obtain ⟨stored, hstored, -, -, hserving⟩ := hsound.process process hprocess
      obtain rfl : record = stored := Option.some.inj (hstore.symm.trans hstored)
      have hbilled := (hserving service hservice).stored (by rw [recording, hphase])
      have hproblems : service.record.units.map (·.problemId) =
          record.units.map (·.problemId) := by
        have hfirst := congrArg (List.map Prod.fst) hbilled
        rw [List.map_map, List.map_map] at hfirst
        exact hfirst.symm
      rw [Full.named hproblems position, hunit]
      rfl
  obtain ⟨next, hstep, hrest⟩ := run_cons_eq_some.mp hrun
  have hbounded : Bounded level position unit.problemId selector.cheapestStrategy next := by
    intro submitted job hsubmitted hjob
    cases TaskRuns.step_move hstep with
    | serve done other copy moved written hother hcopy hsettling hmoved =>
        obtain rfl : process = other := Option.some.inj (hprocess.symm.trans hother)
        obtain rfl : service = copy := Option.some.inj (hservice.symm.trans hcopy)
        cases hsubmitted
        rcases served_jobs hjob with ⟨hne, -⟩ | ⟨hstage, hfresh⟩
        · exact absurd hphase hne
        · exact hfull.dispatched hprocess hservice (RunProcess.step_move hmoved) hstage hfresh
  have hpreserved : Preserved (TaskRuns.step evaluation) fun runs => Sound evaluation runs ∧
      Full evaluation level cap position unit.problemId runs ∧
      Bounded level position unit.problemId selector.cheapestStrategy runs := by
    rintro state label next ⟨hsound, hfull, hbounded⟩ hstep
    exact ⟨TaskRuns.sound_preserved evaluation state label next hsound hstep,
      hfull.step hcap hsound hstep,
      hbounded.step hfull hsound hplan hselector haction hlevel hstep⟩
  have hnext := hpreserved.run ⟨TaskRuns.sound_preserved evaluation _ _ _ hsound hstep,
    hfull.step hcap hsound hstep, hbounded⟩ hrest
  exact (hnext.2.2 later job hlater hjob).cheapest

theorem Configured.selector (hconfigured : Configured evaluation process) {level : Level} {cap : ℚ}
    (hcap : evaluation.cap level = some cap)
    (haction : level = none → process.plan.action = some .downgrade) :
    ∃ selector, process.plan.selector = some selector := by
  refine Option.isSome_iff_exists.mp (evaluation.plan_selector hconfigured.plan ?_)
  cases level with
  | none => exact .inl (haction rfl)
  | some difficulty =>
      refine .inr fun hempty => ?_
      have hallocated : evaluation.allocated difficulty = some cap := hcap
      rw [TaskEvaluation.allocated, hempty] at hallocated
      cases hallocated

/-- Whatever processes a run has gone through: when a unit is dispatched, each
ledger holds what the recorded results of its units cost.  With `auto_stop` that
is below the cap; with a full ledger the worker takes the cheapest strategy. -/
theorem budget_enforced_across_resumes {schedule : List TaskRunStep} {position : ℕ}
    (hrun : run (TaskRuns.step evaluation) {} schedule = some runs)
    (hprocess : runs.process = some process) (hdispatches : process.Dispatches position) :
    ∃ record, runs.store = some record ∧ evaluation.plan = .ok process.plan ∧
      (∀ level cap, evaluation.cap level = some cap →
        ∃ monitor, process.ledger level = some monitor ∧ monitor.budgetCapUsd = some cap) ∧
      (∀ level monitor, process.ledger level = some monitor →
        monitor.accumulatedCost = spent (record.units.filter (evaluation.inLevel level))) ∧
      (process.plan.action = some .autoStop → ¬evaluation.Exhausted record.units none) ∧
      ∀ level unit, record.units[position]? = some unit →
        evaluation.inLevel level unit = true →
        (level = none → process.plan.action = some .downgrade) →
        evaluation.Exhausted record.units level →
        ∃ selector, process.plan.selector = some selector ∧
          ∀ done after final later job,
            run (TaskRuns.step evaluation) runs (.serve done :: after) = some final →
            final.process = some later → later.jobs position = some job →
            job.Cheapest selector.cheapestStrategy := by
  have hsound : Sound evaluation runs :=
    (TaskRuns.sound_preserved evaluation).run Sound.initial hrun
  obtain ⟨record, hstore, hplan, hconfigured, hbalanced, hstopped⟩ :=
    hsound.dispatch hprocess hdispatches
  refine ⟨record, hstore, hplan, fun level cap => hconfigured.ledger,
    fun level monitor => hbalanced.ledger, ?_, ?_⟩
  · rintro haction ⟨cap, hcap, hspent⟩
    obtain ⟨monitor, hledger, hbudget⟩ := hconfigured.ledger hcap
    have hreached : process.Reached none cap :=
      ⟨monitor, hledger, hbudget, by rwa [hbalanced.ledger hledger]⟩
    cases hreached.overCap.symm.trans (hstopped haction)
  · intro level unit hunit hlevel haction hexhausted
    obtain ⟨cap, hcap, -⟩ := id hexhausted
    obtain ⟨selector, hselector⟩ := hconfigured.selector hcap haction
    refine ⟨selector, hselector, fun done after final later job hcontinued => ?_⟩
    exact cheapest_of_exhausted hsound hprocess hdispatches hstore hunit hexhausted hlevel hselector
      haction hcontinued

/-! ## A crash before the callback -/

def echoProblem (problemId : String) : Problem where
  problemId := problemId
  title := "Echo"
  description := "Return the input."
  difficulty := .easy
  tags := []
  constraints := none
  inputOutputMode := .function
  entryPoint := "solve"
  judgeConfig :=
    { comparison := .exact, floatTolerance := "1e-06", whitespace := .trim, outputFormat := .auto }
  unsupportedReason := none
  publicTestCases := []
  feedbackTestCases := []
  hiddenTestCases := []

def echoEvaluation : TaskEvaluation where
  runId := "run-1"
  config :=
    { strategies := ["vanilla"]
      budgetCapUsd := some 2
      budgetAction := some .autoStop
      costAlerts := false
      budgetAllocation := none
      difficultyStrategy := none }
  maxWorkers := 4
  problems := [echoProblem "p1", echoProblem "p2"]
  configFingerprint := "config"
  datasetFingerprint := "dataset"

/-- One call for one dollar. -/
def dollarAccount : Account where
  totalTokens := 10
  llmTraces :=
    [{ promptTokens := 6
       completionTokens := 4
       totalTokens := 10
       pricingMetadata := some
         { model := none, totalCost := some (.finite 1), usageKnown := some true,
           pricingKnown := some true, source := none, asOf := none, promptPricePer1k := none,
           completionPricePer1k := none } }]

/-- The process ends after the first result is saved and before it is settled. -/
def crashSchedule : List TaskRunStep :=
  let turns : ℕ → List TaskRunStep := fun count => List.replicate count (.serve [])
  let result : TaskResult :=
    { problemId := "p1", strategy := "vanilla", account := dollarAccount, costDowngraded := false }
  .create :: .begin :: turns 7 ++
    [.work 0 .readRun, .work 0 .readDifficulty, .work 0 (.finish dollarAccount),
      .serve [(0, .returned result)]] ++
    turns 3 ++ [.exit, .resume, .begin] ++ turns 6

theorem budget_enforced_after_crash :
    ∃ runs process record,
      run (TaskRuns.step echoEvaluation) {} crashSchedule = some runs ∧
      runs.process = some process ∧ process.Dispatches 1 ∧ runs.store = some record ∧
      (∀ monitor, process.ledger none = some monitor →
        monitor.accumulatedCost = spent (record.units.filter (echoEvaluation.inLevel none))) ∧
      (process.plan.action = some .autoStop → ¬echoEvaluation.Exhausted record.units none) := by
  have hphase : (((run (TaskRuns.step echoEvaluation) {} crashSchedule).bind (·.process)).bind
      (·.service)).map (·.phase) = some (.mergeSave (.dispatched 1)) := by
    decide +kernel
  obtain ⟨service, hservice, hphase⟩ := Option.map_eq_some_iff.mp hphase
  obtain ⟨process, hprocess, hservice⟩ := Option.bind_eq_some_iff.mp hservice
  obtain ⟨runs, hrun, hprocess⟩ := Option.bind_eq_some_iff.mp hprocess
  obtain ⟨record, hstore, -, -, hledger, hstopped, -⟩ :=
    budget_enforced_across_resumes hrun hprocess ⟨service, hservice, hphase⟩
  exact ⟨runs, process, record, hrun, hprocess, ⟨service, hservice, hphase⟩, hstore, hledger none,
    hstopped⟩

end AlgorithmHarness.Harness
