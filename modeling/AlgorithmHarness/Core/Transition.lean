import Mathlib.Data.List.Basic

/-!
# Labelled transition systems given by a partial step function

A step function `State → Label → Option State` decides for each label whether
it is enabled and what it does.  All nondeterminism (the scheduler, the
environment, the answers of callbacks) is in the label, so a list of labels is
a schedule and a schedule determines its run.
-/

namespace AlgorithmHarness.Transition

variable {State Label : Type*}

/-- The state after a schedule, if every label of it was enabled in turn. -/
def run (step : State → Label → Option State) : State → List Label → Option State
  | state, [] => some state
  | state, label :: labels => (step state label).bind fun next => run step next labels

variable {step : State → Label → Option State}

@[simp]
theorem run_nil (state : State) : run step state [] = some state := rfl

theorem run_cons_eq_some {state final : State} {label : Label} {labels : List Label} :
    run step state (label :: labels) = some final ↔
      ∃ next, step state label = some next ∧ run step next labels = some final := by
  simp [run, Option.bind_eq_some_iff]

theorem run_append_eq_some {state final : State} {first second : List Label} :
    run step state (first ++ second) = some final ↔
      ∃ middle, run step state first = some middle ∧
        run step middle second = some final := by
  induction first generalizing state with
  | nil => simp
  | cons label labels ih =>
      simp only [List.cons_append, run_cons_eq_some, ih]
      constructor
      · rintro ⟨next, hstep, middle, hfirst, hsecond⟩
        exact ⟨middle, ⟨next, hstep, hfirst⟩, hsecond⟩
      · rintro ⟨middle, ⟨next, hstep, hfirst⟩, hsecond⟩
        exact ⟨next, hstep, middle, hfirst, hsecond⟩

/-- A state some schedule leads to from `initial`. -/
def Reachable (step : State → Label → Option State) (initial state : State) : Prop :=
  ∃ labels, run step initial labels = some state

theorem Reachable.refl (state : State) : Reachable step state state := ⟨[], rfl⟩

theorem Reachable.next {initial state next : State} {label : Label}
    (hreach : Reachable step initial state) (hstep : step state label = some next) :
    Reachable step initial next := by
  obtain ⟨labels, hrun⟩ := hreach
  refine ⟨labels ++ [label], run_append_eq_some.mpr ⟨state, hrun, ?_⟩⟩
  simp [run_cons_eq_some, hstep]

theorem Reachable.trans {initial state final : State} {labels : List Label}
    (hreach : Reachable step initial state) (hrun : run step state labels = some final) :
    Reachable step initial final := by
  obtain ⟨earlier, hearlier⟩ := hreach
  exact ⟨earlier ++ labels, run_append_eq_some.mpr ⟨state, hearlier, hrun⟩⟩

/-- `invariant` survives every step. -/
def Preserved (step : State → Label → Option State) (invariant : State → Prop) : Prop :=
  ∀ state label next, invariant state → step state label = some next → invariant next

theorem Preserved.run {invariant : State → Prop} (hpreserved : Preserved step invariant)
    {state final : State} {labels : List Label} (hstart : invariant state)
    (hrun : run step state labels = some final) : invariant final := by
  induction labels generalizing state with
  | nil =>
      obtain rfl : state = final := by simpa using hrun
      exact hstart
  | cons label labels ih =>
      obtain ⟨next, hstep, hrest⟩ := run_cons_eq_some.mp hrun
      exact ih (hpreserved state label next hstart hstep) hrest

theorem Preserved.reachable {invariant : State → Prop}
    (hpreserved : Preserved step invariant) {initial state : State}
    (hinitial : invariant initial) (hreach : Reachable step initial state) :
    invariant state := by
  obtain ⟨labels, hrun⟩ := hreach
  exact hpreserved.run hinitial hrun

/-- What a run has done so far may count in its invariant. -/
theorem run_history (invariant : List Label → State → Prop) {initial final : State}
    {labels : List Label} (hstart : invariant [] initial)
    (hstep : ∀ earlier state label next, invariant earlier state →
      step state label = some next → invariant (earlier ++ [label]) next)
    (hrun : run step initial labels = some final) : invariant labels final := by
  have hcontinued : ∀ earlier state, invariant earlier state →
      run step state labels = some final → invariant (earlier ++ labels) final := by
    clear hrun
    induction labels with
    | nil =>
        intro earlier state hstate hrun
        obtain rfl : state = final := by simpa using hrun
        simpa using hstate
    | cons label labels ih =>
        intro earlier state hstate hrun
        obtain ⟨next, hnext, hrest⟩ := run_cons_eq_some.mp hrun
        have hlater := ih (earlier ++ [label]) next (hstep _ _ _ _ hstate hnext) hrest
        simpa using hlater
  exact hcontinued [] initial hstart hrun

/-! ## Relations between the ends of a run -/

/-- A reflexive and transitive relation that holds across every step taken from
a state with `invariant` holds across every run. -/
theorem relation_run {invariant : State → Prop} (hpreserved : Preserved step invariant)
    (relation : State → State → Prop) (hrefl : ∀ state, relation state state)
    (htrans : ∀ {first middle last}, relation first middle → relation middle last →
      relation first last)
    (hstep : ∀ state label next, invariant state → step state label = some next →
      relation state next)
    {state final : State} {labels : List Label} (hstart : invariant state)
    (hrun : run step state labels = some final) : relation state final := by
  induction labels generalizing state with
  | nil =>
      obtain rfl : state = final := by simpa using hrun
      exact hrefl state
  | cons label labels ih =>
      obtain ⟨next, hnext, hrest⟩ := run_cons_eq_some.mp hrun
      exact htrans (hstep state label next hstart hnext)
        (ih (hpreserved state label next hstart hnext) hrest)

/-! ## Runs whose steps all meet a condition -/

/-- Every step the schedule takes from `state` meets `condition`. -/
def StepsMeet (step : State → Label → Option State) (condition : State → Label → Prop) :
    State → List Label → Prop
  | _, [] => True
  | state, label :: labels =>
      condition state label ∧
        ∀ next, step state label = some next → StepsMeet step condition next labels

variable {condition : State → Label → Prop}

instance StepsMeet.decidable [∀ state label, Decidable (condition state label)] :
    ∀ state labels, Decidable (StepsMeet step condition state labels)
  | _, [] => inferInstanceAs (Decidable True)
  | state, label :: labels =>
      have hrest : Decidable
          (∀ next, step state label = some next → StepsMeet step condition next labels) :=
        match hstep : step state label with
        | none => .isTrue nofun
        | some next =>
            have := StepsMeet.decidable next labels
            decidable_of_iff (StepsMeet step condition next labels) (by simp)
      inferInstanceAs (Decidable (_ ∧ _))

theorem StepsMeet.append_right {first second : List Label} {state middle : State}
    (hmeet : StepsMeet step condition state (first ++ second))
    (hrun : Transition.run step state first = some middle) :
    StepsMeet step condition middle second := by
  induction first generalizing state with
  | nil =>
      obtain rfl : state = middle := by simpa using hrun
      exact hmeet
  | cons label labels ih =>
      obtain ⟨next, hstep, hrest⟩ := run_cons_eq_some.mp hrun
      exact ih (hmeet.2 next hstep) hrest

theorem StepsMeet.append_left {first second : List Label} {state : State}
    (hmeet : StepsMeet step condition state (first ++ second)) :
    StepsMeet step condition state first := by
  induction first generalizing state with
  | nil => trivial
  | cons label labels ih => exact ⟨hmeet.1, fun next hstep => ih (hmeet.2 next hstep)⟩

/-- A condition on labels alone is met by every schedule of such labels. -/
theorem StepsMeet.of_forall {allowed : Label → Prop} {labels : List Label} {state : State}
    (hallowed : ∀ label ∈ labels, allowed label) :
    StepsMeet step (fun _ label => allowed label) state labels := by
  induction labels generalizing state with
  | nil => trivial
  | cons label labels ih =>
      rw [List.forall_mem_cons] at hallowed
      exact ⟨hallowed.1, fun _ _ => ih hallowed.2⟩

theorem StepsMeet.and {other : State → Label → Prop} {labels : List Label} {state : State}
    (hmeet : StepsMeet step condition state labels) (hother : StepsMeet step other state labels) :
    StepsMeet step (fun state label => condition state label ∧ other state label) state
      labels := by
  induction labels generalizing state with
  | nil => trivial
  | cons label labels ih =>
      refine ⟨⟨hmeet.1, hother.1⟩, fun next hstep => ?_⟩
      exact ih (hmeet.2 next hstep) (hother.2 next hstep)

/-- The induction over a run whose steps all meet `condition`. -/
theorem StepsMeet.invariant_run {state final : State} {labels : List Label}
    (hmeet : StepsMeet step condition state labels) (invariant : State → Prop)
    (hpreserved : ∀ state label next, invariant state → condition state label →
      step state label = some next → invariant next) (hstart : invariant state)
    (hrun : Transition.run step state labels = some final) : invariant final := by
  induction labels generalizing state with
  | nil =>
      obtain rfl : state = final := by simpa using hrun
      exact hstart
  | cons label labels ih =>
      obtain ⟨next, hstep, hrest⟩ := run_cons_eq_some.mp hrun
      exact ih (hmeet.2 next hstep) (hpreserved state label next hstart hmeet.1 hstep) hrest

theorem StepsMeet.cons {labels : List Label} {state next : State} {label : Label}
    (hmeets : condition state label) (hstep : step state label = some next)
    (hrest : StepsMeet step condition next labels) :
    StepsMeet step condition state (label :: labels) := by
  refine ⟨hmeets, fun other hother => ?_⟩
  rw [hstep] at hother
  cases hother
  exact hrest

/-- Two conditions that agree wherever the first has kept the invariant are met by
the same runs. -/
theorem StepsMeet.congr (invariant : State → Prop) {other : State → Label → Prop}
    (hsame : ∀ state label, invariant state → (condition state label ↔ other state label))
    (hpreserved : ∀ state label next, invariant state → condition state label →
      step state label = some next → invariant next)
    {state : State} (hstart : invariant state) (labels : List Label) :
    StepsMeet step condition state labels ↔ StepsMeet step other state labels := by
  induction labels generalizing state with
  | nil => exact Iff.rfl
  | cons label labels ih =>
      constructor
      · rintro ⟨hmeets, hrest⟩
        refine ⟨(hsame state label hstart).mp hmeets, fun next hstep => ?_⟩
        exact (ih (hpreserved state label next hstart hmeets hstep)).mp (hrest next hstep)
      · rintro ⟨hmeets, hrest⟩
        have hfirst := (hsame state label hstart).mpr hmeets
        refine ⟨hfirst, fun next hstep => ?_⟩
        exact (ih (hpreserved state label next hstart hfirst hstep)).mpr (hrest next hstep)

/-- Along a run a condition may be established step by step, under an invariant
that the condition itself maintains. -/
theorem StepsMeet.of_prefixes {invariant : State → Prop} {initial : State}
    {labels : List Label}
    (hpreserved : ∀ state label next, invariant state → condition state label →
      step state label = some next → invariant next)
    (hcondition : ∀ (before : List Label) (label : Label) (after : List Label)
      (middle : State), labels = before ++ label :: after →
      Transition.run step initial before = some middle → invariant middle →
      condition middle label)
    (hstart : invariant initial) : StepsMeet step condition initial labels := by
  have hsuffix : ∀ (after before : List Label) (middle : State), labels = before ++ after →
      Transition.run step initial before = some middle → invariant middle →
      StepsMeet step condition middle after := by
    intro after
    induction after with
    | nil => intros; trivial
    | cons label after ih =>
        intro before middle hsplit hrun hmiddle
        have hmeets := hcondition before label after middle hsplit hrun hmiddle
        refine ⟨hmeets, fun next hstep => ?_⟩
        refine ih (before ++ [label]) next (by simp [hsplit]) ?_
          (hpreserved middle label next hmiddle hmeets hstep)
        exact run_append_eq_some.mpr ⟨middle, hrun, by simp [run_cons_eq_some, hstep]⟩
  exact hsuffix labels [] initial rfl rfl hstart

end AlgorithmHarness.Transition
