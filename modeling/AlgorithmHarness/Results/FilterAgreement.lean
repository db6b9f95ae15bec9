import AlgorithmHarness.Results.Service

/-!
# The list filter and the analytics filter

The conditions the database decides on the JSON columns select the units that
the conditions on loaded rows select.  So a run is listed under some filter if
and only if its analytics under that filter have a unit.
-/

namespace AlgorithmHarness.Results

open Calendar

variable {render repr : Json → String}

/-! ## Units as they are written -/

/-- The snapshot of a unit, if it has one. -/
def snapshotOf (result : EvaluationResult) : Option Json :=
  (result.metrics.getD []).lookup "problem_snapshot"

/-- A unit carries a snapshot that `_problem_metadata` wrote, or it has none: then
its difficulty is a text or null, and so is that of its problem, whose tags are
texts. -/
inductive Written : EvaluationResult × Option Problem → Prop
  | snapshot {result : EvaluationResult} {problem : Option Problem} (frozen : FrozenProblem)
      (hsnapshot : snapshotOf result = some (.obj (problemMetadata frozen))) :
      Written (result, problem)
  | plain {result : EvaluationResult} {problem : Option Problem} {difficulty : Option String}
      {tags : Option (List String)}
      (hsnapshot : snapshotOf result = none ∨ snapshotOf result = some .null)
      (hdifficulty : ((result.metrics.getD []).lookup "difficulty").getD .null =
        (difficulty.map Json.str).getD .null)
      (hproblem : problem.bind Problem.difficulty ≠ some "")
      (htags : (problem.bind Problem.tags).getD .null =
        (tags.map fun tags => Json.arr (tags.map .str)).getD .null) :
      Written (result, problem)

theorem lookup_schemaVersion (frozen : FrozenProblem) :
    (problemMetadata frozen).lookup "schema_version" = some (.num 1) := rfl

theorem lookup_difficulty (frozen : FrozenProblem) :
    (problemMetadata frozen).lookup "difficulty" =
      some ((frozen.problem.map fun problem => Json.str problem.difficulty).getD .null) := rfl

theorem lookup_tags (frozen : FrozenProblem) :
    (problemMetadata frozen).lookup "tags" =
      some (.arr (((frozen.problem.map FrozenFields.tags).getD []).map .str)) := rfl

/-! ## The two readings of one unit -/

section Unit

variable {result : EvaluationResult} {problem : Option Problem}

theorem extract_metrics (result : EvaluationResult) (key : String) :
    Sql.extract (result.metrics.map Json.obj) key = (result.metrics.getD []).lookup key := by
  cases hmetrics : result.metrics <;> rfl

/-- The snapshot decides alone if there is one. -/
theorem difficulty_with_snapshot {frozen : FrozenProblem}
    (hsnapshot : snapshotOf result = some (.obj (problemMetadata frozen))) (difficulty : String) :
    Sql.Holds (difficultyCondition render difficulty (result, problem)) ↔
      frozen.problem.map FrozenFields.difficulty = some difficulty := by
  rw [snapshotOf] at hsnapshot
  simp only [difficultyCondition, extract_metrics, hsnapshot, Sql.extract_obj,
    lookup_schemaVersion, lookup_difficulty, Sql.isNotNull, Sql.holds_either, Sql.holds_both,
    Sql.holds_some, Sql.holds_negate_some, Bool.true_eq_false, true_and, false_and, or_false]
  cases frozen.problem <;> simp [Sql.equalsText, Sql.Holds]

theorem tag_with_snapshot {frozen : FrozenProblem}
    (hsnapshot : snapshotOf result = some (.obj (problemMetadata frozen))) (tag : String) :
    Sql.Holds (tagCondition tag (result, problem)) ↔
      tag ∈ (frozen.problem.map FrozenFields.tags).getD [] := by
  rw [snapshotOf] at hsnapshot
  simp only [tagCondition, extract_metrics, hsnapshot, Sql.extract_obj, lookup_schemaVersion,
    lookup_tags, Sql.isNotNull, Sql.holds_either, Sql.holds_both, Sql.holds_some,
    Sql.holds_negate_some, Bool.true_eq_false, true_and, false_and, or_false,
    Sql.eachContains_texts, decide_eq_true_eq]

theorem no_schemaVersion
    (hsnapshot : snapshotOf result = none ∨ snapshotOf result = some .null) :
    Sql.isNotNull (Sql.extract ((result.metrics.getD []).lookup "problem_snapshot")
      "schema_version") = false := by
  rw [snapshotOf] at hsnapshot
  rcases hsnapshot with habsent | hnull
  · rw [habsent]
    rfl
  · rw [hnull]
    rfl

/-- The columns of the unit and of its problem decide if there is no snapshot. -/
theorem difficulty_without_snapshot
    (hsnapshot : snapshotOf result = none ∨ snapshotOf result = some .null) (difficulty : String) :
    Sql.Holds (difficultyCondition render difficulty (result, problem)) ↔
      Sql.Holds (Sql.equalsText render ((result.metrics.getD []).lookup "difficulty")
          difficulty) ∨
        Sql.isNotNull ((result.metrics.getD []).lookup "difficulty") = false ∧
          problem.bind Problem.difficulty = some difficulty := by
  simp only [difficultyCondition, extract_metrics, no_schemaVersion hsnapshot, Sql.holds_either,
    Sql.holds_both, Sql.holds_some, Sql.holds_negate_some, Bool.false_eq_true, true_and, false_and,
    false_or, Bool.not_eq_true', Sql.holds_equals]

theorem tag_without_snapshot
    (hsnapshot : snapshotOf result = none ∨ snapshotOf result = some .null) (tag : String) :
    Sql.Holds (tagCondition tag (result, problem)) ↔
      Sql.eachContains (problem.bind Problem.tags) tag = true := by
  simp only [tagCondition, extract_metrics, no_schemaVersion hsnapshot, Sql.holds_either,
    Sql.holds_both, Sql.holds_some, Sql.holds_negate_some, Bool.false_eq_true, true_and, false_and,
    false_or]

theorem effectiveDifficulty_without_snapshot
    (hsnapshot : snapshotOf result = none ∨ snapshotOf result = some .null) :
    effectiveDifficulty repr result.metrics problem =
      match (result.metrics.getD []).lookup "difficulty" with
      | none | some .null => problemDifficulty problem
      | some difficulty => .str (str repr difficulty) := by
  rw [snapshotOf] at hsnapshot
  rw [effectiveDifficulty]
  split
  next snapshot hobj =>
    rw [hobj] at hsnapshot
    exact absurd hsnapshot (by simp)
  next => rfl

/-- The problem decides if the unit has no difficulty. -/
theorem plain_difficulty {value : Option Json} {difficulty : String}
    (hproblem : problem.bind Problem.difficulty ≠ some "")
    (hvalue : Sql.isNotNull value = false) :
    (problemDifficulty problem).isStr difficulty = true ↔
      Sql.Holds (Sql.equalsText render value difficulty) ∨
        Sql.isNotNull value = false ∧ problem.bind Problem.difficulty = some difficulty := by
  have hunknown : ¬Sql.Holds (Sql.equalsText render value difficulty) := by
    intro hholds
    unfold Sql.isNotNull at hvalue
    split at hvalue
    · cases hholds
    · cases hholds
    · cases hvalue
  rw [or_iff_right hunknown, and_iff_right hvalue, problemDifficulty]
  cases hstored : problem.bind Problem.difficulty with
  | none => simp [Json.isStr]
  | some stored =>
      rw [hstored] at hproblem
      have hne : stored ≠ "" := fun hempty => hproblem (congrArg some hempty)
      rw [Option.filter_some, if_pos (decide_eq_true hne)]
      simp [Json.isStr]

theorem difficulty_agrees {pair : EvaluationResult × Option Problem} (hwritten : Written pair)
    (difficulty : String) :
    (effectiveDifficulty repr pair.1.metrics pair.2).isStr difficulty = true ↔
      Sql.Holds (difficultyCondition render difficulty pair) := by
  cases hwritten with
  | @snapshot result problem frozen hsnapshot =>
      rw [difficulty_with_snapshot hsnapshot]
      rw [snapshotOf] at hsnapshot
      simp only [effectiveDifficulty, hsnapshot, lookup_difficulty, Option.getD_some]
      cases frozen.problem <;> simp [Json.isStr]
  | @plain result problem stored tags hsnapshot hdifficulty hproblem htags =>
      rw [difficulty_without_snapshot hsnapshot]
      rw [effectiveDifficulty_without_snapshot hsnapshot]
      cases hlookup : (result.metrics.getD []).lookup "difficulty" with
      | none => exact plain_difficulty hproblem rfl
      | some value =>
          rw [hlookup, Option.getD_some] at hdifficulty
          cases stored with
          | none =>
              obtain rfl : value = .null := hdifficulty
              exact plain_difficulty hproblem rfl
          | some text =>
              obtain rfl : value = .str text := hdifficulty
              change decide (text = difficulty) = true ↔
                some (decide (text = difficulty)) = some true ∨ true = false ∧ _
              simp

end Unit

/-! ## Tags -/

theorem fromKeys_texts (texts : List String) (seen : List Json) :
    ∃ labels, fromKeys seen (texts.map .str) = .ok labels ∧
      ∀ tag, labels.any (fun label => label.isStr tag) =
        (seen.any (fun label => label.isStr tag) || decide (tag ∈ texts)) := by
  induction texts generalizing seen with
  | nil => exact ⟨seen, rfl, fun tag => by simp⟩
  | cons text texts ih =>
      obtain ⟨labels, hlabels, hmem⟩ :=
        ih (if seen.any (sameKey (.str text)) then seen else seen ++ [.str text])
      refine ⟨labels, hlabels, fun tag => ?_⟩
      rw [hmem]
      have hseen : (if seen.any (sameKey (.str text)) then seen else seen ++ [.str text]).any
          (fun label => label.isStr tag) =
          (seen.any (fun label => label.isStr tag) || decide (tag = text)) := by
        split_ifs with hany
        · -- A label that equals a text is that text.
          obtain ⟨label, hlabel, hsame⟩ := List.any_eq_true.mp hany
          have hlabelText : label = .str text := by
            cases label <;> simp_all [sameKey]
          by_cases htag : tag = text
          · have hfound : seen.any (fun label => label.isStr tag) = true :=
              List.any_eq_true.mpr ⟨label, hlabel, by simp [hlabelText, htag, Json.isStr]⟩
            rw [hfound, Bool.true_or]
          · rw [decide_eq_false htag, Bool.or_false]
        · rw [List.any_append, List.any_cons, List.any_nil, Bool.or_false]
          congr 1
          simp [Json.isStr, eq_comm]
      rw [hseen, Bool.or_assoc]
      simp

theorem tagLabels_without_snapshot {result : EvaluationResult} {problem : Option Problem}
    (hsnapshot : snapshotOf result = none ∨ snapshotOf result = some .null) :
    tagLabels repr result.metrics problem =
      (orEmptyList ((problem.bind Problem.tags).getD .null)).toItems.map fun items =>
        items.map fun tag => .str (str repr tag) := by
  rw [snapshotOf] at hsnapshot
  rcases hsnapshot with habsent | hnull
  · simp only [tagLabels, habsent]
    rfl
  · simp only [tagLabels, hnull]
    rfl

theorem toItems_orEmptyList (texts : List String) :
    (orEmptyList (.arr (texts.map .str))).toItems = .ok (texts.map .str) := by
  cases texts <;> rfl

theorem tag_agrees (repr : Json → String) {pair : EvaluationResult × Option Problem} (hwritten : Written pair)
    (tag : String) :
    ∃ labels, tagLabels repr pair.1.metrics pair.2 = .ok labels ∧
      (labels.any (fun label => label.isStr tag) = true ↔ Sql.Holds (tagCondition tag pair)) := by
  cases hwritten with
  | @snapshot result problem frozen hsnapshot =>
      obtain ⟨labels, hlabels, hmem⟩ :=
        fromKeys_texts ((frozen.problem.map FrozenFields.tags).getD []) []
      refine ⟨labels, ?_, ?_⟩
      · rw [snapshotOf] at hsnapshot
        simp only [tagLabels, hsnapshot, lookup_tags, Option.getD_some, toItems_orEmptyList]
        exact hlabels
      · rw [tag_with_snapshot hsnapshot, hmem]
        simp
  | @plain result problem stored tags hsnapshot hdifficulty hproblem htags =>
      rw [tag_without_snapshot hsnapshot,
        tagLabels_without_snapshot hsnapshot]
      cases hvalue : problem.bind Problem.tags with
      | none => exact ⟨[], rfl, by simp [Sql.eachContains]⟩
      | some value =>
          rw [hvalue, Option.getD_some] at htags
          cases tags with
          | none =>
              obtain rfl : value = .null := htags
              exact ⟨[], rfl, by simp [Sql.eachContains]⟩
          | some texts =>
              obtain rfl : value = .arr (texts.map .str) := htags
              rw [Option.getD_some, toItems_orEmptyList, Sql.eachContains_texts]
              refine ⟨_, rfl, ?_⟩
              simp [Json.isStr, str]

/-! ## Agreement -/

/-- A pair that `_analytics_pairs` keeps is one the database selects. -/
theorem selects_eq (render repr : Json → String) {pair : EvaluationResult × Option Problem}
    (hwritten : Written pair) (difficulty tag : Option String) :
    selects repr difficulty tag pair =
      .ok (difficulty.all (fun difficulty =>
          Sql.Holds (difficultyCondition render difficulty pair)) &&
        tag.all fun tag => Sql.Holds (tagCondition tag pair)) := by
  have hdifficulty : difficulty.all (fun difficulty =>
      (effectiveDifficulty repr pair.1.metrics pair.2).isStr difficulty) =
      difficulty.all fun difficulty =>
        Sql.Holds (difficultyCondition render difficulty pair) := by
    cases difficulty with
    | none => rfl
    | some difficulty =>
        rw [Option.all_some, Option.all_some, Bool.eq_iff_iff, decide_eq_true_eq]
        exact difficulty_agrees hwritten difficulty
  unfold selects
  rw [hdifficulty]
  by_cases hselected : (difficulty.all fun difficulty =>
      decide (Sql.Holds (difficultyCondition render difficulty pair))) = true
  · rw [if_pos hselected, hselected, Bool.true_and]
    cases tag with
    | none => rfl
    | some tag =>
        obtain ⟨labels, hlabels, hmem⟩ := tag_agrees repr hwritten tag
        have hany : labels.any (fun label => label.isStr tag) =
            decide (Sql.Holds (tagCondition tag pair)) := by
          rw [Bool.eq_iff_iff, decide_eq_true_eq]
          exact hmem
        simp only [hlabels, Except.map, Option.all_some, hany]
  · rw [if_neg hselected, Bool.eq_false_of_not_eq_true hselected, Bool.false_and]

theorem selectPairs_eq (render repr : Json → String) {pairs : List (EvaluationResult × Option Problem)}
    (hwritten : ∀ pair ∈ pairs, Written pair) (difficulty tag : Option String) :
    selectPairs repr difficulty tag pairs =
      .ok (pairs.filter fun pair =>
        difficulty.all (fun difficulty =>
            Sql.Holds (difficultyCondition render difficulty pair)) &&
          tag.all fun tag => Sql.Holds (tagCondition tag pair)) := by
  induction pairs with
  | nil => rfl
  | cons pair pairs ih =>
      have hfirst := selects_eq render repr (hwritten pair List.mem_cons_self) difficulty tag
      have hrest := ih fun other hother => hwritten other (List.mem_cons_of_mem _ hother)
      rw [selectPairs, hfirst, hrest, List.filter_cons]
      rfl

theorem mem_of_resolve {ownerId key : String} {db : Database} {evaluation : Evaluation}
    (hresolve : resolve ownerId key db = .ok evaluation) :
    evaluation ∈ db.evaluations ∧ evaluation.userId = ownerId := by
  have hfound : ∀ {select : Evaluation → Bool},
      (db.evaluations.filter fun evaluation => evaluation.userId = ownerId).find? select =
        some evaluation → evaluation ∈ db.evaluations ∧ evaluation.userId = ownerId := by
    intro select hfind
    simpa using List.mem_of_find?_eq_some hfind
  unfold resolve at hresolve
  dsimp only at hresolve
  split at hresolve
  · next found hfind =>
      cases hresolve
      exact hfound hfind
  · split at hresolve
    · next found hfind =>
        cases hresolve
        exact hfound hfind
    · cases hresolve

theorem joined_ne_nil (db : Database) (result : EvaluationResult) : joined db result ≠ [] := by
  unfold joined
  split
  · exact List.cons_ne_nil _ _
  · next hproblems =>
      intro hnil
      exact hproblems (List.map_eq_nil_iff.mp hnil)

/-- The condition of `list_runs` on the units of an evaluation, if there is a
filter. -/
theorem matchingUnitExists_eq (render : Json → String) {strategy difficulty tag : Option String}
    (hfilter : strategy.isSome ∨ difficulty.isSome ∨ tag.isSome) :
    ∃ condition, matchingUnitExists render strategy difficulty tag = some condition ∧
      ∀ db evaluation, condition db evaluation =
        ((db.results.filter fun result => result.evaluationId = evaluation.id &&
          strategy.all (result.strategyName = ·)).flatMap (joined db)).any fun pair =>
            difficulty.all (fun difficulty =>
                Sql.Holds (difficultyCondition render difficulty pair)) &&
              tag.all fun tag => Sql.Holds (tagCondition tag pair) := by
  have hsome : (strategy.isNone && difficulty.isNone && tag.isNone) = false := by
    cases strategy <;> cases difficulty <;> cases tag <;> simp_all
  refine ⟨_, if_neg (by rw [hsome]; exact Bool.false_ne_true), fun db evaluation => ?_⟩
  dsimp only
  split_ifs with hunjoined
  · obtain ⟨hdifficulty, htag⟩ := Bool.and_eq_true_iff.mp hunjoined
    rw [Option.isNone_iff_eq_none] at hdifficulty htag
    subst hdifficulty htag
    -- Without the join the units are the same, each with at least one pair.
    cases hunits : db.results.filter fun result => result.evaluationId = evaluation.id &&
        strategy.all (result.strategyName = ·) with
    | nil => rfl
    | cons result units =>
        obtain ⟨pair, pairs, hjoined⟩ := List.exists_cons_of_ne_nil (joined_ne_nil db result)
        rw [List.flatMap_cons, hjoined]
        rfl
  · rfl

/-- A run is listed under a filter if and only if its analytics under the filter
have a unit. -/
theorem listed_iff_analytics (render repr : Json → String) {ownerId key : String} {db : Database}
    {evaluation : Evaluation} (hresolve : resolve ownerId key db = .ok evaluation)
    (hwritten : ∀ result ∈ db.results, result.evaluationId = evaluation.id →
      ∀ pair ∈ joined db result, Written pair)
    {strategy difficulty tag : Option String}
    (hfilter : strategy.isSome ∨ difficulty.isSome ∨ tag.isSome)
    (sort : SortColumn) (descending : Bool) :
    ∃ pairs, analyticsPairs repr ownerId (some key) strategy difficulty tag db = .ok pairs ∧
      (evaluation ∈ (listRuns render ownerId strategy difficulty tag none db.evaluations.length 0
        sort descending db).1 ↔ pairs ≠ []) := by
  obtain ⟨hmem, howner⟩ := mem_of_resolve hresolve
  let units := db.results.filter fun result => result.evaluationId = evaluation.id &&
    strategy.all (result.strategyName = ·)
  let selected := fun pair : EvaluationResult × Option Problem =>
    difficulty.all (fun difficulty => decide (Sql.Holds (difficultyCondition render difficulty pair)))
      && tag.all fun tag => decide (Sql.Holds (tagCondition tag pair))
  have hpairs : analyticsPairs repr ownerId (some key) strategy difficulty tag db =
      .ok ((units.flatMap (joined db)).filter selected) := by
    have hunits : ∀ pair ∈ units.flatMap (joined db), Written pair := by
      intro pair hpair
      obtain ⟨result, hresult, hjoined⟩ := List.mem_flatMap.mp hpair
      obtain ⟨hresult, hselected⟩ := List.mem_filter.mp hresult
      have hunit := (Bool.and_eq_true_iff.mp hselected).1
      exact hwritten result hresult (of_decide_eq_true hunit) pair hjoined
    have hselect := selectPairs_eq render repr hunits difficulty tag
    have hids : (resolve ownerId key db).map (fun evaluation => [evaluation.id]) =
        .ok [evaluation.id] := by
      rw [hresolve]
      rfl
    refine bind_eq_ok.mpr ⟨[evaluation.id], hids, ?_⟩
    simpa only [List.mem_singleton] using hselect
  refine ⟨_, hpairs, ?_⟩
  obtain ⟨condition, hcondition, hmatches⟩ :=
    matchingUnitExists_eq render hfilter
  have hlisted : evaluation ∈ (listRuns render ownerId strategy difficulty tag none
      db.evaluations.length 0 sort descending db).1 ↔ condition db evaluation = true := by
    have hall : ((db.evaluations.filter (runMatches render ownerId strategy difficulty tag none
        db)).insertionSort fun first second => comesBefore sort descending first second).length ≤
        db.evaluations.length := by
      rw [List.length_insertionSort]
      exact List.length_filter_le _ _
    change evaluation ∈ List.take _ (List.drop 0 _) ↔ _
    rw [List.drop_zero, List.take_of_length_le hall, List.mem_insertionSort, List.mem_filter,
      runMatches, hcondition, howner]
    simp [hmem]
  rw [hlisted, hmatches, List.any_eq_true, Ne, List.filter_eq_nil_iff]
  push Not
  rfl

theorem year_of_ada : 1 ≤ 2024 ∧ 2024 ≤ 9999 := by decide

theorem month_of_ada : 1 ≤ 5 ∧ 5 ≤ 12 := by decide

/-- An evaluation of the user `ada` with one unit, of an easy problem about graphs. -/
def adaResults (units : Bool) : Database :=
  let start : DateTime :=
    { date := { year := 2024, month := 5, day := 1, year_mem := year_of_ada,
                month_mem := month_of_ada, day_mem := by decide }
      time := Time.first }
  let frozen : FrozenProblem :=
    { origin := "public"
      problem := some
        { tags := ["graphs"]
          difficulty := "easy"
          sourcePlatform := .str "legacy"
          sourceProblemId := .null
          sourceUrl := .null
          sourceVersion := .null
          sourceMetadata := .obj [] } }
  { evaluations := [{ id := "evaluation", userId := "ada", runId := some "run",
                      status := "completed", model := none, strategyNames := ["vanilla"],
                      createdAt := start, completedAt := some start }]
    results := if units then
        [{ id := "unit", evaluationId := "evaluation", problemId := "problem",
           strategyName := "vanilla",
           metrics := some [("problem_snapshot", .obj (problemMetadata frozen))] }]
      else []
    problems := [] }

theorem listed_iff_analytics_for_graphs :
    ∃ evaluation pairs, resolve "ada" "run" (adaResults true) = .ok evaluation ∧
      analyticsPairs (fun _ => "") "ada" (some "run") none (some "easy") (some "graphs")
        (adaResults true) = .ok pairs ∧
      (evaluation ∈ (listRuns (fun _ => "") "ada" none (some "easy") (some "graphs") none 1 0
        .completedAt true (adaResults true)).1 ↔ pairs ≠ []) := by
  obtain ⟨evaluation, hresolve⟩ : ∃ evaluation,
      resolve "ada" "run" (adaResults true) = .ok evaluation := ⟨_, rfl⟩
  have hwritten : ∀ result ∈ (adaResults true).results, result.evaluationId = evaluation.id →
      ∀ pair ∈ joined (adaResults true) result, Written pair := by
    intro result hresult _ pair hpair
    cases List.mem_singleton.mp hresult
    cases List.mem_singleton.mp hpair
    exact .snapshot _ rfl
  have hfilter : (none : Option String).isSome ∨ (some "easy").isSome ∨ (some "graphs").isSome :=
    .inr (.inl rfl)
  obtain ⟨pairs, hpairs, hlisted⟩ := listed_iff_analytics (fun _ => "") (fun _ => "") hresolve
    hwritten hfilter .completedAt true
  exact ⟨evaluation, pairs, hresolve, hpairs, hlisted⟩

/-- Without a filter the list shows a run without units, whose analytics are empty. -/
theorem unfiltered_run_listed_without_units :
    ∃ evaluation, resolve "ada" "run" (adaResults false) = .ok evaluation ∧
      evaluation ∈ (listRuns (fun _ => "") "ada" none none none none 1 0 .completedAt true
        (adaResults false)).1 ∧
      analyticsPairs (fun _ => "") "ada" (some "run") none none none (adaResults false) = .ok [] :=
  ⟨_, rfl, List.mem_singleton_self _, rfl⟩

end AlgorithmHarness.Results
