import AlgorithmHarness.Harness.RunBudget
import AlgorithmHarness.Harness.TaskRun
import AlgorithmHarness.TaskService.ResultRetention

/-!
# The ledgers of task runs

A result is in the record before it is in the ledgers, and a resume puts into
new ledgers what the record holds.  What a ledger lacks is therefore the cost of
the one unit whose completion is under way.
-/

namespace AlgorithmHarness.Harness

open TaskService (TaskRecord TaskUnit RunOptions RunProcess Choice)

/-! ## The cost of units -/

/-- What the recorded result of a unit costs. -/
def recordedCost (unit : TaskUnit TaskResult) : ℚ :=
  (unit.result.map fun result => (resultCost result.account).1).getD 0

/-- The sum of `result_cost` over the units with a recorded result. -/
def spent (units : List (TaskUnit TaskResult)) : ℚ :=
  (units.map recordedCost).sum

/-- Whether the problem of a unit has a difficulty. -/
def TaskEvaluation.covers (evaluation : TaskEvaluation) (difficulty : Difficulty)
    (unit : TaskUnit TaskResult) : Bool :=
  (evaluation.problemMap unit.problemId).map (·.difficulty) = some difficulty

/-- Only a completed unit whose outcome is certain has a result. -/
def Settled (units : List (TaskUnit TaskResult)) : Prop :=
  ∀ unit ∈ units, unit.result.isSome = true → unit.status = .completed ∧ unit.uncertain = false

/-- What the ledgers read of a unit. -/
def billed (unit : TaskUnit TaskResult) : String × Option TaskResult :=
  (unit.problemId, unit.result)

section Units

variable {units other : List (TaskUnit TaskResult)} {unit : TaskUnit TaskResult} {position : ℕ}
  {scope : TaskUnit TaskResult → Bool}

theorem recordedCost_of_none (hresult : unit.result = none) : recordedCost unit = 0 := by
  rw [recordedCost, hresult]
  rfl

theorem recordedCost_of_some {result : TaskResult} (hresult : unit.result = some result) :
    recordedCost unit = (resultCost result.account).1 := by
  rw [recordedCost, hresult]
  rfl

theorem recordedCost_nonneg (unit : TaskUnit TaskResult) : 0 ≤ recordedCost unit := by
  rw [recordedCost]
  cases unit.result with
  | none => exact le_refl 0
  | some result => exact resultCost_nonneg result.account

theorem spent_cons (unit : TaskUnit TaskResult) (units : List (TaskUnit TaskResult)) :
    spent (unit :: units) = recordedCost unit + spent units := by
  rw [spent, List.map_cons, List.sum_cons, spent]

theorem spent_nonneg (units : List (TaskUnit TaskResult)) : 0 ≤ spent units := by
  refine List.sum_nonneg fun cost hcost => ?_
  obtain ⟨unit, -, rfl⟩ := List.mem_map.mp hcost
  exact recordedCost_nonneg unit

theorem spent_filter_cons (unit : TaskUnit TaskResult) (units : List (TaskUnit TaskResult)) :
    spent ((unit :: units).filter scope) =
      spent ([unit].filter scope) + spent (units.filter scope) := by
  cases hscope : scope unit with
  | false => simp [hscope, spent]
  | true => simp [hscope, spent]

/-- What a unit adds to the ledger of `scope`. -/
theorem spent_filter_singleton (unit : TaskUnit TaskResult) :
    spent ([unit].filter scope) = if scope unit then recordedCost unit else 0 := by
  cases hscope : scope unit <;> simp [hscope, spent]

theorem spent_of_unrecorded (hnone : ∀ unit ∈ units, unit.result = none) :
    spent (units.filter scope) = 0 := by
  refine List.sum_eq_zero fun cost hcost => ?_
  obtain ⟨unit, hunit, rfl⟩ := List.mem_map.mp hcost
  exact recordedCost_of_none (hnone unit (List.mem_of_mem_filter hunit))

/-- A scope that depends on the problem of a unit only. -/
def ByProblem (scope : TaskUnit TaskResult → Bool) : Prop :=
  ∀ unit other : TaskUnit TaskResult, unit.problemId = other.problemId → scope unit = scope other

theorem byProblem_true : ByProblem fun _ => true := fun _ _ _ => rfl

theorem byProblem_covers (evaluation : TaskEvaluation) (difficulty : Difficulty) :
    ByProblem (evaluation.covers difficulty) := by
  intro unit other hproblem
  rw [TaskEvaluation.covers, TaskEvaluation.covers, hproblem]

theorem filter_true (units : List (TaskUnit TaskResult)) :
    units.filter (fun _ => true) = units :=
  List.filter_eq_self.mpr fun _ _ => rfl

/-- The cost depends on what is billed. -/
theorem spent_congr (hscope : ByProblem scope) (hbilled : units.map billed = other.map billed) :
    spent (units.filter scope) = spent (other.filter scope) := by
  induction units generalizing other with
  | nil =>
      obtain rfl : other = [] := by simpa using hbilled
      rfl
  | cons unit units ih =>
      cases other with
      | nil => cases hbilled
      | cons first rest =>
          rw [List.map_cons, List.map_cons, List.cons.injEq, billed, billed, Prod.mk.injEq] at hbilled
          obtain ⟨⟨hproblem, hresult⟩, hrest⟩ := hbilled
          rw [spent_filter_cons, spent_filter_cons first, ih hrest, spent_filter_singleton,
            spent_filter_singleton, hscope unit first hproblem, recordedCost, recordedCost, hresult]

/-- One unit gets its result. -/
theorem spent_modify {assign : TaskUnit TaskResult → TaskUnit TaskResult}
    (hunit : units[position]? = some unit) (hnone : unit.result = none) :
    spent ((units.modify position assign).filter scope) =
      spent ([assign unit].filter scope) + spent (units.filter scope) := by
  induction units generalizing position with
  | nil => cases hunit
  | cons first rest ih =>
      cases position with
      | zero =>
          obtain rfl : first = unit := by simpa using hunit
          have hfirst : spent ([first].filter scope) = 0 := by
            rw [spent_filter_singleton, recordedCost_of_none hnone, ite_self]
          rw [List.modify_zero_cons, spent_filter_cons, spent_filter_cons first, hfirst, zero_add]
      | succ position =>
          have hrest : rest[position]? = some unit := by simpa using hunit
          rw [List.modify_succ_cons, spent_filter_cons first (rest.modify position assign),
            ih hrest, spent_filter_cons first rest, add_left_comm]

/-- A resume puts only units without a result back into the queue. -/
theorem billed_requeueUnit (hsettled : Settled units) :
    (units.map TaskRecord.requeueUnit).map billed = units.map billed := by
  rw [List.map_map]
  refine List.map_congr_left fun unit hunit => ?_
  rw [Function.comp_apply, TaskRecord.requeueUnit]
  split_ifs with hrequeued
  · cases hresult : unit.result with
    | none => simp [billed, hresult]
    | some result =>
        obtain ⟨hstatus, hcertain⟩ := hsettled unit hunit (by rw [hresult]; rfl)
        simp [TaskRecord.requeued, hstatus, hcertain] at hrequeued
  · rfl

theorem Settled.requeue (hsettled : Settled units) : Settled (units.map TaskRecord.requeueUnit) := by
  intro unit hunit hresult
  obtain ⟨old, hold, rfl⟩ := List.mem_map.mp hunit
  rw [TaskRecord.requeueUnit] at hresult ⊢
  split_ifs at hresult ⊢
  · cases hresult
  · exact hsettled old hold hresult

theorem Settled.result_none (hsettled : Settled units) (hunit : units[position]? = some unit)
    (hstatus : unit.status ≠ .completed) : unit.result = none := by
  cases hresult : unit.result with
  | none => rfl
  | some result =>
      have hsome : unit.result.isSome = true := by rw [hresult]; rfl
      exact absurd (hsettled unit (List.mem_of_getElem? hunit) hsome).1 hstatus

theorem Settled.modify (hsettled : Settled units)
    {assign : TaskUnit TaskResult → TaskUnit TaskResult}
    (hassign : ∀ unit, units[position]? = some unit → (assign unit).result.isSome = true →
      (assign unit).status = .completed ∧ (assign unit).uncertain = false) :
    Settled (units.modify position assign) := by
  intro unit hunit hresult
  obtain ⟨other, hother⟩ := List.getElem?_of_mem hunit
  rw [List.getElem?_modify] at hother
  obtain ⟨old, hold, rfl⟩ := Option.map_eq_some_iff.mp hother
  by_cases hsame : position = other
  · rw [if_pos hsame] at hresult ⊢
    subst hsame
    exact hassign old hold hresult
  · rw [if_neg hsame] at hresult ⊢
    exact hsettled old (List.mem_of_getElem? hold) hresult

end Units

/-! ## What the service does to the units -/

/-- The unit whose result is in the copy of the service but not in a ledger. -/
def completing (service : RunProcess TaskResult) : List (TaskUnit TaskResult) :=
  match service.phase with
  | .mergeLoad (.unitFinished unit _) | .mergeSave (.unitFinished unit _) =>
      service.record.units[unit]?.toList
  | _ => []

section Service

variable {options : RunOptions} {choice : Choice TaskResult}
  {stored written : Option (TaskRecord TaskResult)} {service next : RunProcess TaskResult}
  {unit : ℕ} {outcome : TaskService.Outcome TaskResult}
  {rest : List (ℕ × TaskService.Outcome TaskResult)}

theorem recordOutcome_result (record : TaskRecord TaskResult) (unit : ℕ)
    (outcome : TaskService.Outcome TaskResult) :
    ∃ assign : TaskUnit TaskResult → TaskUnit TaskResult,
      (RunProcess.recordOutcome record unit outcome).units = record.units.modify unit assign ∧
        (∀ old, (assign old).problemId = old.problemId) ∧
        ∀ old, old.result = none → (assign old).result.isSome = true →
          (assign old).status = .completed ∧ (assign old).uncertain = false := by
  cases outcome with
  | returned result => exact ⟨_, rfl, fun _ => rfl, fun _ _ _ => ⟨rfl, rfl⟩⟩
  | unserializable =>
      refine ⟨_, rfl, fun _ => rfl, fun old hnone hsome => ?_⟩
      rw [show _ = old.result from rfl, hnone] at hsome
      cases hsome
  | raised message =>
      refine ⟨_, rfl, fun _ => rfl, fun old hnone hsome => ?_⟩
      rw [show _ = old.result from rfl, hnone] at hsome
      cases hsome

/-- A unit that completes is running and has no result yet. -/
theorem completes_running (hstage : service.Stage False options service.phase)
    (hsettled : Settled service.record.units)
    (hphase : service.phase = .completing ((unit, outcome) :: rest)) :
    ∃ found, service.record.units[unit]? = some found ∧ found.result = none := by
  rw [hphase] at hstage
  obtain ⟨hlooping, hdone⟩ := hstage
  have hpending : unit ∈ service.pending := (of_decide_eq_true hdone).2 unit List.mem_cons_self
  obtain ⟨found, hfound, hstatus⟩ := hlooping.placed_nil.running unit hpending
  exact ⟨found, hfound, hsettled.result_none hfound (by rw [hstatus]; decide)⟩

theorem Settled.move (hsettled : Settled service.record.units)
    (hstage : service.Stage False options service.phase)
    (hmove : service.Move options choice stored next written) : Settled next.record.units := by
  cases hmove with
  | merge => rwa [TaskRecord.mergeExternal_units]
  | save after =>
      cases after with
      | unitFinished unit rest => cases hcallback : choice.callback <;> exact hsettled
      | _ => exact hsettled
  | pause hphase hqueue hpending persisted =>
      simpa [RunProcess.pause, RunProcess.adopt] using hsettled
  | enter hphase hbusy persisted => simpa [RunProcess.adopt] using hsettled
  | cancel hphase hbusy persisted =>
      rw [hphase] at hstage
      have hplaced := RunProcess.Looping.placed_nil hstage
      have hunits : (service.adopt persisted).record.units = service.record.units := by
        simp [RunProcess.adopt]
      intro unit hunit hresult
      obtain ⟨position, hposition⟩ := List.getElem?_of_mem hunit
      rw [RunProcess.cancelAll_getElem?, hunits] at hposition
      split_ifs at hposition with hpending hqueue
      · obtain ⟨old, hold, rfl⟩ := Option.map_eq_some_iff.mp hposition
        obtain ⟨found, hfound, hstatus⟩ := hplaced.running position hpending
        obtain rfl : found = old := Option.some.inj (hfound.symm.trans hold)
        rw [hsettled.result_none hfound (by rw [hstatus]; decide)] at hresult
        cases hresult
      · obtain ⟨old, hold, rfl⟩ := Option.map_eq_some_iff.mp hposition
        obtain ⟨found, hfound, hstatus⟩ := hplaced.queued position hqueue
        obtain rfl : found = old := Option.some.inj (hfound.symm.trans hold)
        rw [hsettled.result_none hfound (by rw [hstatus]; decide)] at hresult
        cases hresult
      · exact hsettled unit (List.mem_of_getElem? hposition) hresult
  | dispatch hphase unit queue hqueue =>
      rw [hphase] at hstage
      have hplaced := RunProcess.Looping.placed_nil hstage
      refine hsettled.modify fun old hold hresult => ?_
      obtain ⟨found, hfound, hstatus⟩ :=
        hplaced.queued unit (by rw [hqueue]; exact List.mem_cons_self)
      obtain rfl : found = old := Option.some.inj (hfound.symm.trans hold)
      rw [hsettled.result_none hfound (by rw [hstatus]; decide)] at hresult
      cases hresult
  | complete unit outcome rest hphase =>
      obtain ⟨found, hfound, hnone⟩ := completes_running hstage hsettled hphase
      obtain ⟨assign, hunits, -, hassign⟩ := recordOutcome_result service.record unit outcome
      change Settled (RunProcess.recordOutcome service.record unit outcome).units
      rw [hunits]
      refine hsettled.modify fun old hold hresult => ?_
      obtain rfl : found = old := Option.some.inj (hfound.symm.trans hold)
      exact hassign found hnone hresult
  | _ => exact hsettled

/-- Only a completion changes what is billed. -/
theorem billed_move (hmove : service.Move options choice stored next written)
    (hopen : ∀ done, service.phase = .completing done → done = []) :
    next.record.units.map billed = service.record.units.map billed :=
  hmove.map_units (fun _ _ _ _ => rfl) hopen

/-- A completion adds the cost of the one unit. -/
theorem spent_complete {scope : TaskUnit TaskResult → Bool}
    (hstage : service.Stage False options service.phase)
    (hsettled : Settled service.record.units)
    (hphase : service.phase = .completing ((unit, outcome) :: rest)) :
    spent ((service.complete unit outcome rest).record.units.filter scope) =
      spent ((completing (service.complete unit outcome rest)).filter scope) +
        spent (service.record.units.filter scope) := by
  obtain ⟨found, hfound, hnone⟩ := completes_running hstage hsettled hphase
  obtain ⟨assign, hunits, -⟩ := recordOutcome_result service.record unit outcome
  have hrecord : (service.complete unit outcome rest).record.units =
      service.record.units.modify unit assign := hunits
  have hcompleting : completing (service.complete unit outcome rest) = [assign found] := by
    change ((service.complete unit outcome rest).record.units[unit]?).toList = _
    rw [hrecord, List.getElem?_modify_eq, hfound]
    rfl
  rw [hcompleting, hrecord]
  exact spent_modify hfound hnone

/-- Every other step leaves what is billed as it was. -/
theorem completes_or_billed (hmove : service.Move options choice stored next written) :
    (∃ unit outcome rest, service.phase = .completing ((unit, outcome) :: rest) ∧
      next = service.complete unit outcome rest) ∨
    ∀ done, service.phase = .completing done → done = [] := by
  by_cases hopen : ∀ done, service.phase = .completing done → done = []
  · exact .inr hopen
  · push Not at hopen
    obtain ⟨done, hphase, hne⟩ := hopen
    obtain ⟨⟨unit, outcome⟩, rest, rfl⟩ := List.exists_cons_of_ne_nil hne
    exact .inl ⟨unit, outcome, rest, hphase, hmove.completes hphase⟩

/-- No step takes a result away. -/
theorem spent_move {scope : TaskUnit TaskResult → Bool}
    (hstage : service.Stage False options service.phase)
    (hsettled : Settled service.record.units)
    (hmove : service.Move options choice stored next written) (hscope : ByProblem scope) :
    spent (service.record.units.filter scope) ≤ spent (next.record.units.filter scope) := by
  rcases completes_or_billed hmove with ⟨unit, outcome, rest, hphase, rfl⟩ | hopen
  · rw [spent_complete hstage hsettled hphase]
    exact le_add_of_nonneg_left (spent_nonneg _)
  · exact (spent_congr hscope (billed_move hmove hopen)).ge

/-- No step changes the problem of a unit. -/
theorem problemId_move (hmove : service.Move options choice stored next written) :
    next.record.units.map (·.problemId) = service.record.units.map (·.problemId) := by
  rcases completes_or_billed hmove with ⟨unit, outcome, rest, hphase, rfl⟩ | hopen
  · obtain ⟨assign, hunits, hassign, -⟩ := recordOutcome_result service.record unit outcome
    have hrecord : (service.complete unit outcome rest).record.units =
        service.record.units.modify unit assign := hunits
    apply List.ext_getElem?
    intro position
    rw [hrecord, List.getElem?_map, List.getElem?_map, List.getElem?_modify]
    split_ifs <;> cases service.record.units[position]? <;> simp [hassign]
  · exact hmove.map_units (fun _ _ _ _ => rfl) hopen

/-- Between recording a result and storing it. -/
def recording (service : RunProcess TaskResult) : Bool :=
  match service.phase with
  | .mergeLoad (.unitFinished _ _) | .mergeSave (.unitFinished _ _) => true
  | _ => false

theorem recording_move (hmove : service.Move options choice stored next none)
    (hnext : recording next = false) :
    recording service = false ∧ ∀ done, service.phase = .completing done → done = [] := by
  cases hmove with
  | merge after hphase =>
      cases after with
      | unitFinished unit rest => cases hnext
      | _ => simp [recording, hphase]
  | complete unit outcome rest hphase => cases hnext
  | raise hphase error => rcases hphase with hphase | hphase <;> simp [recording, hphase]
  | finish hphase => simp [recording, hphase]
  | cancel hphase => simp [recording, hphase]
  | pause hphase => simp [recording, hphase]
  | enter hphase => simp [recording, hphase]
  | hold pauseRequested hphase => simp [recording, hphase]
  | dispatch hphase => simp [recording, hphase]
  | idle hphase => simp [recording, hphase]
  | collect hphase => simp [recording, hphase]
  | collected hphase => simp [recording, hphase]

/-- Outside of that window the file has every result. -/
theorem stored_move {record kept : TaskRecord TaskResult}
    (hmove : service.Move options choice stored next written)
    (hstored : recording service = false →
      record.units.map billed = service.record.units.map billed)
    (hkept : written.or (some record) = some kept) (hnext : recording next = false) :
    kept.units.map billed = next.record.units.map billed := by
  cases written with
  | none =>
      obtain rfl : record = kept := Option.some.inj hkept
      obtain ⟨hservice, hopen⟩ := recording_move hmove hnext
      rw [hstored hservice, billed_move hmove hopen]
  | some saved =>
      obtain rfl : saved = kept := Option.some.inj hkept
      obtain rfl := hmove.written_eq
      refine (billed_move hmove fun done hphase => ?_).symm
      cases hmove with
      | clearLatch hother => cases hphase.symm.trans hother
      | save after hother => cases hphase.symm.trans hother

/-- The other steps leave the completion where it is. -/
theorem completing_move (hmove : service.Move options choice stored next written)
    (hopen : ∀ done, service.phase = .completing done → done = [])
    (hsave : ∀ unit rest, service.phase ≠ .mergeSave (.unitFinished unit rest)) :
    completing next = completing service := by
  cases hmove with
  | clearLatch hphase =>
      rw [completing, completing, hphase]
      rfl
  | merge after hphase =>
      cases after with
      | unitFinished unit rest =>
          rw [completing, completing, hphase]
          exact congrArg (fun units => (units[unit]?).toList)
            (TaskRecord.mergeExternal_units service.record stored)
      | _ => simp [completing, hphase]
  | save after hphase =>
      cases after with
      | unitFinished unit rest => exact absurd hphase (hsave unit rest)
      | _ => simp [completing, hphase, RunProcess.resumeAfter]
  | complete unit outcome rest hphase => cases hopen _ hphase
  | raise hphase error => rcases hphase with hphase | hphase <;> simp [completing, hphase]
  | finish hphase => simp [completing, hphase, RunProcess.finish]
  | cancel hphase => simp [completing, hphase, RunProcess.cancelAll]
  | pause hphase => simp [completing, hphase, RunProcess.pause]
  | enter hphase => simp [completing, hphase]
  | hold pauseRequested hphase => simp [completing, hphase]
  | dispatch hphase => simp [completing, hphase, RunProcess.dispatch]
  | idle hphase => simp [completing, hphase]
  | collect hphase => simp [completing, hphase]
  | collected hphase => simp [completing, hphase]

/-- With a pause at the cap, `reached` is false wherever a unit is dispatched. -/
def Guarded (reached : Bool) (service : RunProcess TaskResult) : Prop :=
  match service.phase with
  | .dispatching false => service.queue = [] ∨ reached = false
  | .mergeLoad (.dispatched _) | .mergeSave (.dispatched _) => reached = false
  | _ => True

theorem guarded_step (hguarded : Guarded choice.pauseWhen service)
    (hstep : service.step options choice stored = some (next, written)) :
    Guarded choice.pauseWhen next := by
  cases RunProcess.step_move hstep with
  | enter hphase hbusy persisted hstored hclear pauseRequested =>
      cases pauseRequested with
      | true => trivial
      | false =>
          subst hstored
          rw [RunProcess.step, hphase] at hstep
          have hturn : (service.queue.isEmpty && service.pending.isEmpty) = false := by
            rw [Bool.and_eq_false_iff, List.isEmpty_eq_false_iff, List.isEmpty_eq_false_iff]
            exact hbusy
          rw [hturn] at hstep
          simp only [Bool.false_eq_true, if_false, Option.some.injEq, Prod.mk.injEq,
            and_true] at hstep
          have hadopted := congrArg RunProcess.phase hstep
          simp only [RunProcess.cancelSeen, not_or, Bool.not_eq_true] at hclear
          simp only [RunProcess.inspect, TaskRecord.adoptEvents_cancelRequested, hclear,
            Bool.or_self, Bool.false_eq_true, if_false] at hadopted
          split at hadopted
          · cases hadopted
          · have hanswer : (!service.queue.isEmpty && choice.pauseWhen) = false := by
              simpa using hadopted
            rcases Bool.and_eq_false_iff.mp hanswer with hqueue | hover
            · have hempty : service.queue = [] := by simpa using hqueue
              exact .inl hempty
            · exact .inr hover
  | dispatch hphase unit queue hqueue =>
      rw [Guarded, hphase] at hguarded
      rcases hguarded with hempty | hover
      · rw [hqueue] at hempty
        cases hempty
      · exact hover
  | merge after hphase =>
      rw [Guarded, hphase] at hguarded
      cases after with
      | dispatched unit => exact hguarded
      | _ => trivial
  | save after hphase =>
      rw [Guarded, hphase] at hguarded
      cases after with
      | dispatched unit => exact .inr hguarded
      | unitFinished unit rest =>
          cases choice.callback <;> simp [Guarded, RunProcess.resumeAfter]
      | _ => trivial
  | _ => trivial

end Service

end AlgorithmHarness.Harness
