import AlgorithmHarness.TaskService.Classification

/-!
# Results under a concurrent cancel

`request_cancel` writes back the whole record it has loaded.  While the run
goes on this does no lasting harm, since the next save of the run replaces the
file with the run's own copy, which never loses a finished unit.  After the
last save of the run nothing repairs a stale copy.
-/

namespace AlgorithmHarness.TaskService

variable {Json : Type}

/-- Every finished unit of `left` is in `right` with its status and result. -/
def KeepsFinished (left right : List (TaskUnit Json)) : Prop :=
  ∀ (position : ℕ) (unit : TaskUnit Json), left[position]? = some unit →
    unit.status.finished = true → ∃ kept : TaskUnit Json, right[position]? = some kept ∧
      kept.status = unit.status ∧ kept.result = unit.result

namespace KeepsFinished

variable {left middle right : List (TaskUnit Json)}

theorem refl (units : List (TaskUnit Json)) : KeepsFinished units units :=
  fun _ unit hunit _ => ⟨unit, hunit, rfl, rfl⟩

theorem trans (hleft : KeepsFinished left middle) (hright : KeepsFinished middle right) :
    KeepsFinished left right := by
  intro position unit hunit hfinished
  obtain ⟨kept, hkept, hstatus, hresult⟩ := hleft position unit hunit hfinished
  rw [← hstatus] at hfinished
  obtain ⟨last, hlast, hlastStatus, hlastResult⟩ := hright position kept hkept hfinished
  exact ⟨last, hlast, hlastStatus.trans hstatus, hlastResult.trans hresult⟩

/-- Only units that are not finished change. -/
theorem of_open
    (hopen : ∀ (position : ℕ) (unit : TaskUnit Json), left[position]? = some unit →
      unit.status.finished = true → right[position]? = some unit) :
    KeepsFinished left right :=
  fun position unit hunit hfinished =>
    ⟨unit, hopen position unit hunit hfinished, rfl, rfl⟩

theorem modify {position : ℕ} (assign : TaskUnit Json → TaskUnit Json)
    (hopen : ∀ unit, left[position]? = some unit → unit.status.finished = false) :
    KeepsFinished left (left.modify position assign) := by
  refine of_open fun other unit hunit hfinished => ?_
  have hne : position ≠ other := by
    rintro rfl
    rw [hopen unit hunit] at hfinished
    cases hfinished
  rw [List.getElem?_modify_ne _ _ hne]
  exact hunit

theorem tail {first second : TaskUnit Json}
    (hkeeps : KeepsFinished (first :: left) (second :: right)) : KeepsFinished left right :=
  fun position unit hunit hfinished => hkeeps (position + 1) unit hunit hfinished

theorem finishedUnits_le (hkeeps : KeepsFinished left right) :
    finishedUnits left ≤ finishedUnits right := by
  induction left generalizing right with
  | nil => exact Nat.zero_le _
  | cons first left ih =>
      cases right with
      | nil =>
          have hnone : finishedUnits (first :: left) = 0 := by
            refine List.countP_eq_zero.mpr fun unit hmem hfinished => ?_
            obtain ⟨position, hunit⟩ := List.getElem?_of_mem hmem
            obtain ⟨kept, hkept, -⟩ := hkeeps position unit hunit hfinished
            cases hkept
          rw [hnone]
          exact Nat.zero_le _
      | cons second right =>
          have htail := ih hkeeps.tail
          simp only [finishedUnits, List.countP_cons] at htail ⊢
          by_cases hfinished : first.status.finished = true
          · obtain ⟨kept, hkept, hstatus, -⟩ := hkeeps 0 first rfl hfinished
            cases hkept
            rw [hstatus]
            omega
          · rw [if_neg hfinished]
            omega

/-- A list that keeps the finished units of another and has no more of them is
kept by it in turn. -/
theorem symm_of_le (hkeeps : KeepsFinished left right)
    (hcount : finishedUnits right ≤ finishedUnits left) : KeepsFinished right left := by
  induction left generalizing right with
  | nil =>
      intro position unit hunit hfinished
      have hpositive : 0 < finishedUnits right :=
        List.countP_pos_iff.mpr ⟨unit, List.mem_of_getElem? hunit, hfinished⟩
      exact absurd hcount (by simpa [finishedUnits] using hpositive)
  | cons first left ih =>
      cases right with
      | nil =>
          intro position unit hunit
          cases hunit
      | cons second right =>
          have htail := hkeeps.tail.finishedUnits_le
          simp only [finishedUnits, List.countP_cons] at htail hcount
          by_cases hfinished : first.status.finished = true
          · obtain ⟨kept, hkept, hstatus, hresult⟩ := hkeeps 0 first rfl hfinished
            cases hkept
            rw [hstatus] at hcount
            intro position unit hunit hunitFinished
            cases position with
            | zero =>
                cases hunit
                exact ⟨first, rfl, hstatus.symm, hresult.symm⟩
            | succ position =>
                exact ih hkeeps.tail (by simp only [finishedUnits]; omega) position unit hunit
                  hunitFinished
          · rw [if_neg hfinished] at hcount
            by_cases hother : second.status.finished = true
            · rw [if_pos hother] at hcount
              omega
            · intro position unit hunit hunitFinished
              cases position with
              | zero =>
                  cases hunit
                  exact absurd hunitFinished hother
              | succ position =>
                  exact ih hkeeps.tail (by simp only [finishedUnits]; omega) position unit hunit
                    hunitFinished

end KeepsFinished

/-! ## The copy of the run never loses a finished unit -/

namespace RunProcess

theorem Looping.placed_nil {accounted : Prop} {process : RunProcess Json}
    (hlooping : process.Looping accounted []) :
    Placed accounted process.record.units process.queue process.pending := by
  simpa using hlooping.placed

theorem Move.keepsFinished {accounted : Prop} {options : RunOptions} {choice : Choice Json}
    {stored written : Option (TaskRecord Json)} {process next : RunProcess Json}
    (hstage : process.Stage accounted options process.phase)
    (hmove : process.Move options choice stored next written) :
    KeepsFinished process.record.units next.record.units := by
  cases hmove with
  | merge =>
      rw [TaskRecord.mergeExternal_units]
      exact .refl _
  | save after =>
      cases after with
      | unitFinished unit rest => cases hcallback : choice.callback <;> exact .refl _
      | _ => exact .refl _
  | pause hphase hqueue hpending persisted =>
      have hunits : (process.adopt persisted).pause.record.units = process.record.units := by
        simp [RunProcess.pause, adopt]
      rw [hunits]
      exact .refl _
  | enter hphase hbusy persisted =>
      have hunits : (process.adopt persisted).record.units = process.record.units := by
        simp [adopt]
      change KeepsFinished _ (process.adopt persisted).record.units
      rw [hunits]
      exact .refl _
  | cancel hphase hbusy persisted =>
      rw [hphase] at hstage
      have hplaced := Looping.placed_nil hstage
      refine .of_open fun position unit hunit hfinished => ?_
      obtain ⟨hqueue, hpending⟩ := hplaced.not_mem_of_finished hunit hfinished
      rw [cancelAll_getElem?]
      simpa [adopt, hqueue, hpending] using hunit
  | dispatch hphase unit queue hqueue =>
      rw [hphase] at hstage
      have hplaced := Looping.placed_nil hstage
      refine .modify _ fun found hfound => hplaced.not_finished (.inl ?_) hfound
      rw [hqueue]
      exact List.mem_cons_self
  | complete unit outcome rest hphase =>
      rw [hphase] at hstage
      obtain ⟨hlooping, hdone⟩ := hstage
      have hpending : unit ∈ process.pending :=
        (of_decide_eq_true hdone).2 unit List.mem_cons_self
      obtain ⟨assign, hunits, -⟩ := recordOutcome_units process.record unit outcome
      change KeepsFinished _ (recordOutcome process.record unit outcome).units
      rw [hunits]
      exact .modify _ fun found hfound =>
        hlooping.placed_nil.not_finished (.inr hpending) hfound
  | _ => exact .refl _

end RunProcess

/-! ## The run and one canceller -/

namespace System

/-- The units of the run's copy, or of the file before the run has started. -/
def frontier (system : System Json) : List (TaskUnit Json) :=
  match system.process with
  | none => system.store.units
  | some process => process.record.units

/-- No copy of the record has a finished unit that the run does not know of. -/
structure Behind (options : RunOptions) (system : System Json) : Prop where
  sound : system.Sound
  invariant : ∀ process, system.process = some process →
    ∃ initial, process.Invariant False options initial
  store : KeepsFinished system.store.units system.frontier
  writers : ∀ writer record, system.writers writer = .loaded record →
    KeepsFinished record.units system.frontier
  waiting : system.process = none → ∀ writer record, system.writers writer = .loaded record →
    record.units = system.store.units

theorem frontier_none {system : System Json} (hprocess : system.process = none) :
    system.frontier = system.store.units := by
  rw [frontier, hprocess]

theorem frontier_some {system : System Json} {process : RunProcess Json}
    (hprocess : system.process = some process) :
    system.frontier = process.record.units := by
  rw [frontier, hprocess]

/-- The run starts with every finished unit of the file. -/
theorem keepsFinished_begin {options : RunOptions} {latched : Bool}
    {record : TaskRecord Json} {process : RunProcess Json} (hsound : record.Sound)
    (hbegin : RunProcess.begin options latched (some record) = .ok process) :
    KeepsFinished record.units process.record.units := by
  rcases RunProcess.begin_ok hbegin with ⟨-, rfl⟩ | ⟨-, -, rfl⟩
  · refine .of_open fun position unit hunit hfinished => ?_
    have hcertain := hsound.certain_of_finished (List.mem_of_getElem? hunit) hfinished
    have hconfirmed : unit.confirmed = true := by simp [TaskUnit.confirmed, hfinished, hcertain]
    simp [TaskRecord.prepareResume, hunit, requeueUnit_confirmed hconfirmed]
  · exact .refl _

/-- What a run knows of finished units only grows. -/
theorem Behind.frontier_step {options : RunOptions} {system next : System Json}
    {label : Label Json} (hbehind : system.Behind options)
    (hstep : system.step options label = some next) :
    KeepsFinished system.frontier next.frontier := by
  cases step_move hstep with
  | begin latched process hprocess hbegin =>
      rw [frontier_none hprocess]
      exact keepsFinished_begin hbehind.sound.store hbegin
  | step choice process moved written hprocess hmove =>
      obtain ⟨initial, hinvariant⟩ := hbehind.invariant process hprocess
      rw [frontier_some hprocess]
      exact hmove.keepsFinished hinvariant.stage
  | signal process hprocess =>
      rw [frontier_some hprocess]
      exact .refl _
  | load writer request => exact .refl _
  | save writer record hloaded =>
      cases hprocess : system.process with
      | none =>
          simp only [frontier, setWriter, hprocess]
          rw [hbehind.waiting hprocess writer record hloaded]
          exact .refl _
      | some process =>
          simp only [frontier, setWriter, hprocess]
          exact .refl _

theorem behind_preserved (options : RunOptions) :
    Transition.Preserved (step options) fun system : System Json => system.Behind options := by
  intro system label next hbehind hstep
  have hgrows := hbehind.frontier_step hstep
  have hsound := sound_preserved options system label next hbehind.sound hstep
  cases step_move hstep with
  | begin latched process hprocess hbegin =>
      rw [frontier_none hprocess] at hgrows
      refine ⟨hsound, ?_, hgrows, ?_, by rintro ⟨⟩⟩
      · rintro other ⟨⟩
        exact ⟨_, .begin hbegin (fun himpossible => himpossible.elim)
          fun himpossible => himpossible.elim⟩
      · intro writer record hloaded
        rw [hbehind.waiting hprocess writer record hloaded]
        exact hgrows
  | step choice process moved written hprocess hmove =>
      obtain ⟨initial, hinvariant⟩ := hbehind.invariant process hprocess
      refine ⟨hsound, ?_, ?_, ?_, by rintro ⟨⟩⟩
      · rintro other ⟨⟩
        exact ⟨initial, hinvariant.move hmove⟩
      · cases written with
        | none => exact hbehind.store.trans hgrows
        | some record =>
            obtain rfl := hmove.written_eq
            rw [frontier_some hprocess] at hgrows
            exact hgrows
      · exact fun writer record hloaded => (hbehind.writers writer record hloaded).trans hgrows
  | signal process hprocess =>
      obtain ⟨initial, hinvariant⟩ := hbehind.invariant process hprocess
      refine ⟨hsound, ?_, hbehind.store.trans hgrows, ?_, by rintro ⟨⟩⟩
      · rintro other ⟨⟩
        exact ⟨initial, hinvariant.of_same_units rfl rfl rfl
          (RunProcess.Stage.congr hinvariant.stage rfl rfl rfl rfl)⟩
      · exact fun writer record hloaded => (hbehind.writers writer record hloaded).trans hgrows
  | load writer request hidle =>
      refine ⟨hsound, hbehind.invariant, hbehind.store, ?_, ?_⟩
      · intro other record hloaded
        rcases setWriter_loaded hloaded with ⟨-, hvalue⟩ | ⟨-, hother⟩
        · rw [Request.onLoaded_units hvalue]
          exact hbehind.store
        · exact hbehind.writers other record hother
      · intro hprocess other record hloaded
        rcases setWriter_loaded hloaded with ⟨-, hvalue⟩ | ⟨-, hother⟩
        · exact Request.onLoaded_units hvalue
        · exact hbehind.waiting hprocess other record hother
  | save writer record hloaded =>
      refine ⟨hsound, hbehind.invariant, (hbehind.writers writer record hloaded).trans hgrows,
        ?_, ?_⟩
      · intro other kept hkept
        rcases setWriter_loaded hkept with ⟨-, hvalue⟩ | ⟨-, hother⟩
        · cases hvalue
        · exact (hbehind.writers other kept hother).trans hgrows
      · intro hprocess other kept hkept
        rcases setWriter_loaded hkept with ⟨-, hvalue⟩ | ⟨-, hother⟩
        · cases hvalue
        · exact (hbehind.waiting hprocess other kept hother).trans
            (hbehind.waiting hprocess writer record hloaded).symm

theorem behind_start {options : RunOptions} {record : TaskRecord Json} (hsound : record.Sound) :
    (start record).Behind options := by
  refine ⟨sound_start hsound, by rintro process ⟨⟩, .refl _, ?_, ?_⟩
  · rintro writer record ⟨⟩
  · rintro - writer record ⟨⟩

/-! ## What a save after the run's return may overwrite -/

/-- The run and the call of `request_cancel` have returned. -/
def BothReturned (system : System Json) : Prop :=
  (∃ process, system.process = some process ∧ process.phase = .returned) ∧
    system.writers 0 = .returned

/-- The run has stored a terminal state. -/
def RunEnded (system : System Json) : Prop :=
  ∃ process, system.process = some process ∧ process.phase = .returned ∧
    process.record.state.terminal = true

theorem runEnded_preserved (options : RunOptions) :
    Transition.Preserved (step options) fun system : System Json => system.RunEnded := by
  rintro system label next ⟨process, hprocess, hreturned, hterminal⟩ hstep
  cases step_move hstep with
  | begin latched other hnone =>
      rw [hprocess] at hnone
      cases hnone
  | step choice other moved written hother hmove =>
      rw [hprocess] at hother
      cases hother
      exact absurd hreturned hmove.not_returned
  | signal other hother =>
      rw [hprocess] at hother
      cases hother
      exact ⟨_, rfl, hreturned, hterminal⟩
  | load writer request => exact ⟨process, hprocess, hreturned, hterminal⟩
  | save writer record => exact ⟨process, hprocess, hreturned, hterminal⟩

/-- A copy is saved before the run has returned, or else the run has paused and
the copy is as far as the file. -/
def CancelUpToDate (system : System Json) : Label Json → Prop
  | .save writer => ∀ process record, system.process = some process →
      process.phase = .returned → system.writers writer = .loaded record →
        process.record.state.terminal = false ∧
          finishedUnits record.units = finishedUnits system.store.units
  | .begin _ | .step _ | .signal | .load _ _ => True

/-- After the run's return the file still has what the run has stored. -/
structure Intact (options : RunOptions) (system : System Json) : Prop where
  behind : system.Behind options
  results : ∀ process, system.process = some process → process.phase = .returned →
    KeepsFinished process.record.units system.store.units
  terminal : system.RunEnded → system.store.state.terminal = true

theorem Intact.step {options : RunOptions} {system next : System Json} {label : Label Json}
    (hintact : system.Intact options) (hcondition : system.CancelUpToDate label)
    (hstep : system.step options label = some next) : next.Intact options := by
  have hbehind := behind_preserved options system label next hintact.behind hstep
  cases step_move hstep with
  | begin latched process hprocess hbegin =>
      have hrunning : process.phase ≠ .returned := by
        rcases RunProcess.begin_ok hbegin with ⟨-, rfl⟩ | ⟨-, -, rfl⟩ <;> simp [
          RunProcess.announceStart]
      refine ⟨hbehind, ?_, ?_⟩
      · rintro other ⟨⟩ hreturned
        exact absurd hreturned hrunning
      · rintro ⟨other, ⟨⟩, hreturned, -⟩
        exact absurd hreturned hrunning
  | step choice process moved written hprocess hmove =>
      have hsaved : moved.phase = .returned → written = some moved.record := by
        intro hreturned
        exact hmove.written_of_returned hreturned
      refine ⟨hbehind, ?_, ?_⟩
      · rintro other ⟨⟩ hreturned
        rw [hsaved hreturned]
        exact .refl _
      · rintro ⟨other, ⟨⟩, hreturned, hterminal⟩
        rw [hsaved hreturned]
        exact hterminal
  | signal process hprocess =>
      refine ⟨hbehind, ?_, ?_⟩
      · rintro other ⟨⟩ hreturned
        exact hintact.results process hprocess hreturned
      · rintro ⟨other, ⟨⟩, hreturned, hterminal⟩
        exact hintact.terminal ⟨process, hprocess, hreturned, hterminal⟩
  | load writer request => exact ⟨hbehind, hintact.results, hintact.terminal⟩
  | save writer record hloaded =>
      refine ⟨hbehind, ?_, ?_⟩
      · intro process hprocess hreturned
        -- the copy has no finished unit the run does not know of, and the counts agree
        obtain ⟨-, hcount⟩ := hcondition process record hprocess hreturned hloaded
        have hsame : system.process = some process := hprocess
        have hresults := hintact.results process hsame hreturned
        have hcopy := hintact.behind.writers writer record hloaded
        rw [frontier_some hsame] at hcopy
        exact hresults.trans ((hcopy.trans hresults).symm_of_le (Nat.le_of_eq hcount.symm))
      · rintro ⟨process, hprocess, hreturned, hterminal⟩
        have hopen := (hcondition process record hprocess hreturned hloaded).1
        rw [hterminal] at hopen
        cases hopen

theorem intact_start {options : RunOptions} {record : TaskRecord Json} (hsound : record.Sound) :
    (start record).Intact options := by
  refine ⟨behind_start hsound, by rintro process ⟨⟩, ?_⟩
  rintro ⟨process, ⟨⟩, -⟩

/-- A canceller saves only what it has found non-terminal. -/
def CopiesOpen (system : System Json) : Prop :=
  ∀ writer record, system.writers writer = .loaded record → record.state.terminal = false

theorem copiesOpen_run {options : RunOptions} {system final : System Json}
    {schedule : List (Label Json)} (hopen : system.CopiesOpen)
    (hsingle : ∀ label ∈ schedule, label.singleCancel = true)
    (hrun : System.run options system schedule = some final) : final.CopiesOpen := by
  have hmeet : Transition.StepsMeet (System.step options)
      (fun _ label => label.singleCancel = true) system schedule := .of_forall hsingle
  refine hmeet.invariant_run _ ?_ hopen hrun
  intro state label next hstate hlabel hstep writer record hloaded
  cases step_move hstep with
  | begin | step | signal => exact hstate writer record hloaded
  | load other request =>
      rcases setWriter_loaded hloaded with ⟨-, hvalue⟩ | ⟨-, hother⟩
      · simp only [Label.singleCancel, Bool.and_eq_true, decide_eq_true_eq] at hlabel
        obtain ⟨-, rfl⟩ := hlabel
        obtain ⟨hterminal, rfl⟩ :=
          TaskRecord.requestCancel_eq_some (Request.onLoaded_cancel hvalue)
        exact hterminal
      · exact hstate writer record hother
  | save other saved =>
      rcases setWriter_loaded hloaded with ⟨-, hvalue⟩ | ⟨-, hother⟩
      · cases hvalue
      · exact hstate writer record hother

/-- No finished unit is lost once both calls have returned, and no terminal
state of the run is replaced by a non-terminal one, at any two moments of the
schedule. -/
def ResultsRetained (options : RunOptions) (record : TaskRecord Json)
    (schedule : List (Label Json)) : Prop :=
  ∀ (first second rest : List (Label Json)) (middle final : System Json),
    schedule = first ++ second ++ rest →
    System.run options (start record) first = some middle →
    System.run options middle second = some final →
      (final.BothReturned → KeepsFinished middle.store.units final.store.units) ∧
      (middle.RunEnded → final.store.state.terminal = true)

end System

/-- The results of a run survive a concurrent `request_cancel` exactly when its
save does not follow the return of the run, or follows a pause with a copy that
has every finished unit. -/
theorem results_retained_iff {record : TaskRecord Json} (hrecord : ServiceRecord record)
    {options : RunOptions} {schedule : List (Label Json)}
    (hsingle : ∀ label ∈ schedule, label.singleCancel = true) :
    System.ResultsRetained options record schedule ↔
      Transition.StepsMeet (System.step options) System.CancelUpToDate
        (System.start record) schedule := by
  have hstart : (System.start record).Intact options := System.intact_start hrecord.sound
  constructor
  · intro hretained
    refine Transition.StepsMeet.of_prefixes (fun _ _ _ => System.Intact.step) ?_ hstart
    intro before label after middle hsplit hrun hintact
    cases label with
    | begin | step | signal | load => trivial
    | save writer =>
        intro process copy hprocess hreturned hloaded
        have hextends : ∀ label ∈ before, label.singleCancel = true :=
          fun label hmem => hsingle label (by simp [hsplit, hmem])
        have hopen := System.copiesOpen_run (by rintro _ _ ⟨⟩) hextends hrun writer copy hloaded
        have hwriter : writer = 0 := by
          simpa [Label.singleCancel] using hsingle (.save writer) (by simp [hsplit])
        subst writer
        have hsave : System.run options middle [.save 0] =
            some { middle.setWriter 0 .returned with store := copy } := by
          simp [Transition.run, System.step, hloaded]
        obtain ⟨hresults, hterminal⟩ :=
          hretained before [.save 0] after middle _ (by simp [hsplit]) hrun hsave
        have hboth : System.BothReturned
            { middle.setWriter 0 .returned with store := copy } :=
          ⟨⟨process, hprocess, hreturned⟩, by simp [System.setWriter]⟩
        have hkeeps := hresults hboth
        have hcopy := hintact.behind.writers 0 copy hloaded
        rw [System.frontier_some hprocess] at hcopy
        have hback := hcopy.trans (hintact.results process hprocess hreturned)
        refine ⟨?_, Nat.le_antisymm hback.finishedUnits_le hkeeps.finishedUnits_le⟩
        by_contra hstate
        rw [Bool.not_eq_false] at hstate
        have hoverwritten := hterminal ⟨process, hprocess, hreturned, hstate⟩
        rw [hopen] at hoverwritten
        cases hoverwritten
  · intro hmeet first second rest middle final hsplit hfirst hsecond
    have hrun := Transition.run_append_eq_some.mpr ⟨middle, hfirst, hsecond⟩
    rw [hsplit] at hmeet
    have hintact := hmeet.append_left.invariant_run _ (fun _ _ _ => System.Intact.step) hstart hrun
    have hbehind := (System.behind_preserved options).run hstart.behind hfirst
    have hgrows := Transition.relation_run (System.behind_preserved options)
      (fun state next => KeepsFinished state.frontier next.frontier)
      (fun state => .refl state.frontier) .trans
      (fun _ _ _ => System.Behind.frontier_step) hbehind hsecond
    refine ⟨?_, fun hended => ?_⟩
    · rintro ⟨⟨process, hprocess, hreturned⟩, -⟩
      rw [System.frontier_some hprocess] at hgrows
      exact (hbehind.store.trans hgrows).trans (hintact.results process hprocess hreturned)
    · exact hintact.terminal ((System.runEnded_preserved options).run hended hsecond)

/-- With the cancel complete before the run starts, every result is kept. -/
theorem results_retained_early :
    System.ResultsRetained singleOptions singleRecord
      [.load 0 .requestCancel, .save 0, .begin false] := by
  refine (results_retained_iff (.created singleRecord_created) (by decide)).mpr ?_
  refine ⟨trivial, fun loaded hload => ⟨?_, fun saved _ => ⟨trivial, fun _ _ => trivial⟩⟩⟩
  intro process copy hprocess
  obtain rfl : System.setWriter _ _ _ = loaded := Option.some.inj hload
  cases hprocess

/-- A cancel loads the record of the started run and saves it after the run has
completed its unit: the unit is queued again and the record is running. -/
theorem results_not_retained :
    ¬System.ResultsRetained singleOptions singleRecord
      ((.begin false :: answered 2 ++ .load 0 .requestCancel :: answered 13) ++ [.save 0]) := by
  intro hretained
  have hruns : ∃ middle final,
      System.run singleOptions (System.start singleRecord)
        (.begin false :: answered 2 ++ .load 0 .requestCancel :: answered 13) = some middle ∧
      System.run singleOptions middle [.save 0] = some final ∧
      middle.RunEnded ∧ final.store.state = .running :=
    ⟨_, _, rfl, rfl, ⟨_, rfl, rfl, rfl⟩, rfl⟩
  obtain ⟨middle, final, hmiddle, hfinal, hended, hstate⟩ := hruns
  have hterminal := (hretained _ [.save 0] [] middle final (by simp) hmiddle hfinal).2 hended
  rw [hstate] at hterminal
  cases hterminal

end AlgorithmHarness.TaskService
