import AlgorithmHarness.Core.Json
import Mathlib.Data.List.Nodup
import Mathlib.Order.Basic

/-!
# Importing problems from local JSON

`LocalJsonImporter.detect_duplicates` joins a batch of new problems to a
dataset.  Duplicates are found by platform and source id; what is dropped at
the end is decided by problem id.
-/

namespace AlgorithmHarness.Importers

/-- A `Problem` with the fields the importer reads; nothing changes the others. -/
structure ImportedProblem where
  problemId : String
  sourcePlatform : String
  sourceProblemId : Option String
  fields : Json := .null

abbrev SourceKey := String × String

/-- `(source_platform, source_problem_id)`; without a source id a problem has no key. -/
def ImportedProblem.sourceKey (problem : ImportedProblem) : Option SourceKey :=
  problem.sourceProblemId.map fun id => (problem.sourcePlatform, id)

/-- The keys of the map from keys to problems, whose values are not read. -/
def sourceKeys (problems : List ImportedProblem) : List SourceKey :=
  problems.filterMap ImportedProblem.sourceKey

/-- `(final_problems, skipped_ids, overwritten_ids)`. -/
structure Detection where
  finalProblems : List ImportedProblem
  skippedIds : List String
  overwrittenIds : List String

/-- What the loop over the new problems collects. -/
structure Actions where
  skippedIds : List String := []
  overwrittenIds : List String := []
  keysToRemove : List SourceKey := []

def Actions.identify (existing : List ImportedProblem) (updateStrategy : String)
    (actions : Actions) (problem : ImportedProblem) : Actions :=
  match problem.sourceKey with
  | none => actions
  | some key =>
      if key ∈ sourceKeys existing then
        if updateStrategy = "overwrite" then
          { actions with
            keysToRemove := actions.keysToRemove ++ [key]
            overwrittenIds := actions.overwrittenIds ++ [problem.problemId] }
        else { actions with skippedIds := actions.skippedIds ++ [problem.problemId] }
      else actions

/-- An existing problem that is not overwritten. -/
def Actions.keeps (actions : Actions) (problem : ImportedProblem) : Bool :=
  match problem.sourceKey with
  | none => true
  | some key => key ∉ actions.keysToRemove

/-- A new problem that is added. -/
def Actions.adds (existing : List ImportedProblem) (updateStrategy : String) (actions : Actions)
    (problem : ImportedProblem) : Bool :=
  match problem.sourceKey with
  | none => true
  | some key =>
      (key ∉ sourceKeys existing || updateStrategy = "overwrite") &&
        problem.problemId ∉ actions.skippedIds

/-- `detect_duplicates`. -/
def detectDuplicates (problems existing : List ImportedProblem) (updateStrategy : String) :
    Except String Detection :=
  if updateStrategy ≠ "skip" ∧ updateStrategy ≠ "overwrite" then
    .error ("Invalid update_strategy: " ++ updateStrategy ++ ". Must be 'skip' or 'overwrite'.")
  else
    let actions : Actions := problems.foldl (Actions.identify existing updateStrategy) {}
    .ok
      { finalProblems :=
          existing.filter actions.keeps ++
            problems.filter (actions.adds existing updateStrategy)
        skippedIds := actions.skippedIds
        overwrittenIds := actions.overwrittenIds }

/-! ## The law of an import -/

/-- A duplicate of the dataset. -/
def Duplicates (existing : List ImportedProblem) (problem : ImportedProblem) : Prop :=
  ∃ key ∈ sourceKeys existing, problem.sourceKey = some key

/-- The dataset stays a set and loses nothing. -/
structure Imports (problems existing : List ImportedProblem) (updateStrategy : String)
    (final : List ImportedProblem) : Prop where
  /-- At most one problem has a source key. -/
  unique : (sourceKeys final).Nodup
  /-- An existing problem stays unless its key is overwritten. -/
  kept : ∀ problem ∈ existing,
    (updateStrategy = "overwrite" →
      ∀ key ∈ sourceKeys problems, problem.sourceKey ≠ some key) → problem ∈ final
  /-- A new problem without a key is there. -/
  keyless : ∀ problem ∈ problems, problem.sourceKey = none → problem ∈ final
  /-- Unless it is skipped as a duplicate, a new problem is there or one with its key is. -/
  added : ∀ problem ∈ problems, ∀ key, problem.sourceKey = some key →
    ¬(updateStrategy = "skip" ∧ Duplicates existing problem) →
    ∃ chosen ∈ problems, chosen.sourceKey = some key ∧ chosen ∈ final

/-- The ids of the new problems that are skipped as duplicates. -/
def skipped (problems existing : List ImportedProblem) (updateStrategy : String) : List String :=
  if updateStrategy = "overwrite" then []
  else
    (problems.filter fun problem =>
      problem.sourceKey.any fun key => key ∈ sourceKeys existing).map ImportedProblem.problemId

/-- The new problems with a key whose id is not that of a skipped one. -/
def candidates (problems existing : List ImportedProblem) (updateStrategy : String)
    (key : SourceKey) : List ImportedProblem :=
  problems.filter fun problem =>
    problem.sourceKey = some key && problem.problemId ∉ skipped problems existing updateStrategy

section

variable {problems existing : List ImportedProblem} {updateStrategy : String}

theorem mem_sourceKeys {key : SourceKey} :
    key ∈ sourceKeys problems ↔ ∃ problem ∈ problems, problem.sourceKey = some key :=
  List.mem_filterMap

theorem sourceKeys_nil : sourceKeys [] = [] := rfl

theorem sourceKeys_cons (problem : ImportedProblem) (problems : List ImportedProblem) :
    sourceKeys (problem :: problems) = problem.sourceKey.toList ++ sourceKeys problems := by
  rw [sourceKeys, List.filterMap_cons]
  cases problem.sourceKey with
  | none => rfl
  | some key => rfl

/-- The keys the loop finds again in the dataset. -/
def duplicateKeys (problems existing : List ImportedProblem) : List SourceKey :=
  (sourceKeys problems).filter fun key => key ∈ sourceKeys existing

theorem foldl_identify (problems : List ImportedProblem) (actions : Actions) :
    (problems.foldl (Actions.identify existing updateStrategy) actions).skippedIds =
        actions.skippedIds ++ skipped problems existing updateStrategy ∧
      (problems.foldl (Actions.identify existing updateStrategy) actions).keysToRemove =
        actions.keysToRemove ++
          if updateStrategy = "overwrite" then duplicateKeys problems existing else [] := by
  induction problems generalizing actions with
  | nil =>
      rw [skipped, duplicateKeys, sourceKeys_nil, List.filter_nil, List.filter_nil,
        List.map_nil, ite_self, ite_self, List.append_nil, List.append_nil]
      exact ⟨rfl, rfl⟩
  | cons problem problems ih =>
      rw [List.foldl_cons, (ih _).1, (ih _).2, Actions.identify, skipped, skipped, duplicateKeys,
        duplicateKeys, sourceKeys_cons, List.filter_cons, List.filter_append]
      cases problem.sourceKey with
      | none => exact ⟨rfl, rfl⟩
      | some key =>
          dsimp only
          rw [Option.toList_some, List.filter_singleton, Option.any_some]
          by_cases hknown : key ∈ sourceKeys existing
          · rw [if_pos hknown, decide_eq_true hknown, if_pos rfl, cond_true]
            split_ifs
            · rw [List.append_assoc, List.singleton_append]
              exact ⟨rfl, rfl⟩
            · rw [List.append_assoc, List.singleton_append, List.map_cons]
              exact ⟨rfl, rfl⟩
          · rw [if_neg hknown, decide_eq_false hknown, if_neg Bool.false_ne_true, cond_false]
            exact ⟨rfl, rfl⟩

/-- The actions of a whole batch. -/
def batchActions (problems existing : List ImportedProblem) (updateStrategy : String) : Actions :=
  problems.foldl (Actions.identify existing updateStrategy) {}

theorem skippedIds_batchActions :
    (batchActions problems existing updateStrategy).skippedIds =
      skipped problems existing updateStrategy :=
  (foldl_identify problems {}).1

theorem keysToRemove_batchActions :
    (batchActions problems existing updateStrategy).keysToRemove =
      if updateStrategy = "overwrite" then duplicateKeys problems existing else [] :=
  (foldl_identify problems {}).2

/-- The problems of the dataset and those of the batch that remain. -/
def keptProblems (problems existing : List ImportedProblem) (updateStrategy : String) :
    List ImportedProblem :=
  existing.filter (batchActions problems existing updateStrategy).keeps

def addedProblems (problems existing : List ImportedProblem) (updateStrategy : String) :
    List ImportedProblem :=
  problems.filter ((batchActions problems existing updateStrategy).adds existing updateStrategy)

theorem mem_keptProblems {problem : ImportedProblem} :
    problem ∈ keptProblems problems existing updateStrategy ↔
      problem ∈ existing ∧ ∀ key, problem.sourceKey = some key →
        ¬(updateStrategy = "overwrite" ∧ key ∈ duplicateKeys problems existing) := by
  rw [keptProblems, List.mem_filter, Actions.keeps, keysToRemove_batchActions]
  apply and_congr_right'
  cases problem.sourceKey with
  | none => exact iff_of_true rfl fun key hkey => by cases hkey
  | some key =>
      dsimp only
      rw [decide_eq_true_iff]
      constructor
      · intro hkept found hfound ⟨hoverwrite, hmem⟩
        cases hfound
        rw [if_pos hoverwrite] at hkept
        exact hkept hmem
      · intro hkept hmem
        split_ifs at hmem with hoverwrite
        · exact hkept key rfl ⟨hoverwrite, hmem⟩
        · exact List.not_mem_nil hmem

theorem mem_addedProblems {problem : ImportedProblem} :
    problem ∈ addedProblems problems existing updateStrategy ↔
      problem ∈ problems ∧ ∀ key, problem.sourceKey = some key →
        (key ∉ sourceKeys existing ∨ updateStrategy = "overwrite") ∧
          problem.problemId ∉ skipped problems existing updateStrategy := by
  rw [addedProblems, List.mem_filter, Actions.adds, skippedIds_batchActions]
  apply and_congr_right'
  cases problem.sourceKey with
  | none => exact iff_of_true rfl fun key hkey => by cases hkey
  | some key =>
      dsimp only
      rw [Bool.and_eq_true, Bool.or_eq_true, decide_eq_true_iff, decide_eq_true_iff,
        decide_eq_true_iff]
      constructor
      · intro hadded found hfound
        cases hfound
        exact hadded
      · exact fun hadded => hadded key rfl

theorem count_sourceKeys (problems : List ImportedProblem) (key : SourceKey) :
    (sourceKeys problems).count key =
      (problems.filter fun problem => problem.sourceKey = some key).length := by
  induction problems with
  | nil => rfl
  | cons problem problems ih =>
      rw [sourceKeys_cons, List.count_append, ih, List.filter_cons]
      cases hkey : problem.sourceKey with
      | none => exact Nat.zero_add _
      | some found =>
          by_cases hsame : found = key
          · rw [if_pos (decide_eq_true (congrArg some hsame)), List.length_cons, hsame,
              Option.toList_some, List.count_singleton_self, Nat.add_comm]
          · have hother : ¬decide (some found = some key) = true :=
              fun hfound => hsame (Option.some_inj.mp (of_decide_eq_true hfound))
            rw [if_neg hother, Option.toList_some,
              List.count_eq_zero.mpr fun hmem => hsame (List.mem_singleton.mp hmem).symm,
              Nat.zero_add]

/-- The added problems with a key that is not skipped are its candidates. -/
theorem count_addedProblems {key : SourceKey}
    (hoffered : key ∉ sourceKeys existing ∨ updateStrategy = "overwrite") :
    (sourceKeys (addedProblems problems existing updateStrategy)).count key =
      (candidates problems existing updateStrategy key).length := by
  rw [count_sourceKeys, addedProblems, List.filter_filter, candidates]
  apply congrArg List.length
  apply List.filter_congr
  intro problem hproblem
  have hadds : problem ∈ addedProblems problems existing updateStrategy ↔ _ := mem_addedProblems
  rw [addedProblems, List.mem_filter, and_iff_right hproblem, and_iff_right hproblem] at hadds
  rw [Bool.eq_iff_iff, Bool.and_eq_true, Bool.and_eq_true, decide_eq_true_iff,
    decide_eq_true_iff, hadds]
  apply and_congr_right
  intro hkey
  constructor
  · exact fun hadded => (hadded key hkey).2
  · intro hcandidate found hfound
    obtain rfl := Option.some_inj.mp (hkey.symm.trans hfound)
    exact ⟨hoffered, hcandidate⟩

/-- A key that is skipped is added by none. -/
theorem offered_of_mem {key : SourceKey}
    (hmem : key ∈ sourceKeys (addedProblems problems existing updateStrategy)) :
    key ∉ sourceKeys existing ∨ updateStrategy = "overwrite" := by
  obtain ⟨problem, hadded, hkey⟩ := mem_sourceKeys.mp hmem
  exact ((mem_addedProblems.mp hadded).2 key hkey).1

/-- A key that is kept is added by none. -/
theorem disjoint_sourceKeys :
    (sourceKeys (keptProblems problems existing updateStrategy)).Disjoint
      (sourceKeys (addedProblems problems existing updateStrategy)) := by
  intro key hkept hadded
  obtain ⟨problem, hproblem, hkey⟩ := mem_sourceKeys.mp hkept
  obtain ⟨hexisting, hnot⟩ := mem_keptProblems.mp hproblem
  have hknown : key ∈ sourceKeys existing := mem_sourceKeys.mpr ⟨problem, hexisting, hkey⟩
  obtain ⟨offered, hoffered, hsame⟩ := mem_sourceKeys.mp hadded
  have hoverwrite := (offered_of_mem hadded).resolve_left (not_not.mpr hknown)
  apply hnot key hkey
  refine ⟨hoverwrite, ?_⟩
  rw [duplicateKeys, List.mem_filter]
  exact ⟨mem_sourceKeys.mpr ⟨offered, (mem_addedProblems.mp hoffered).1, hsame⟩,
    decide_eq_true hknown⟩

/-- The dataset is a set again if each key that is not skipped has at most one candidate. -/
theorem nodup_sourceKeys_iff (hunique : (sourceKeys existing).Nodup) :
    (sourceKeys (keptProblems problems existing updateStrategy ++
        addedProblems problems existing updateStrategy)).Nodup ↔
      ∀ key, (key ∉ sourceKeys existing ∨ updateStrategy = "overwrite") →
        (candidates problems existing updateStrategy key).length ≤ 1 := by
  have hkept : (sourceKeys (keptProblems problems existing updateStrategy)).Nodup :=
    hunique.sublist (List.filter_sublist.filterMap _)
  rw [sourceKeys, List.filterMap_append, List.nodup_append']
  constructor
  · intro ⟨_, honce, _⟩ key hoffered
    rw [← count_addedProblems hoffered]
    exact List.nodup_iff_count_le_one.mp honce key
  · intro honce
    refine ⟨hkept, List.nodup_iff_count_le_one.mpr ?_, disjoint_sourceKeys⟩
    intro key
    change (sourceKeys (addedProblems problems existing updateStrategy)).count key ≤ 1
    by_cases hmem : key ∈ sourceKeys (addedProblems problems existing updateStrategy)
    · rw [count_addedProblems (offered_of_mem hmem)]
      exact honce key (offered_of_mem hmem)
    · rw [List.count_eq_zero_of_not_mem hmem]
      exact Nat.zero_le 1

/-- A key has a candidate exactly if it reaches the dataset. -/
theorem candidates_ne_nil_iff {key : SourceKey}
    (hoffered : key ∉ sourceKeys existing ∨ updateStrategy = "overwrite") :
    candidates problems existing updateStrategy key ≠ [] ↔
      ∃ chosen ∈ problems, chosen.sourceKey = some key ∧
        chosen ∈ keptProblems problems existing updateStrategy ++
          addedProblems problems existing updateStrategy := by
  have hkept : ∀ chosen ∈ problems, chosen.sourceKey = some key →
      chosen ∉ keptProblems problems existing updateStrategy := by
    intro chosen hchosen hkey hmem
    obtain ⟨hexisting, hnot⟩ := mem_keptProblems.mp hmem
    have hknown : key ∈ sourceKeys existing := mem_sourceKeys.mpr ⟨chosen, hexisting, hkey⟩
    apply hnot key hkey
    refine ⟨hoffered.resolve_left (not_not.mpr hknown), ?_⟩
    rw [duplicateKeys, List.mem_filter]
    exact ⟨mem_sourceKeys.mpr ⟨chosen, hchosen, hkey⟩, decide_eq_true hknown⟩
  rw [← List.length_pos_iff, ← count_addedProblems hoffered, List.count_pos_iff, mem_sourceKeys]
  constructor
  · intro ⟨chosen, hadded, hkey⟩
    exact ⟨chosen, (mem_addedProblems.mp hadded).1, hkey, List.mem_append_right _ hadded⟩
  · intro ⟨chosen, hchosen, hkey, hmem⟩
    have hadded := (List.mem_append.mp hmem).resolve_left (hkept chosen hchosen hkey)
    exact ⟨chosen, hadded, hkey⟩

theorem imports_iff (hunique : (sourceKeys existing).Nodup)
    (hstrategy : updateStrategy = "skip" ∨ updateStrategy = "overwrite") :
    Imports problems existing updateStrategy
        (keptProblems problems existing updateStrategy ++
          addedProblems problems existing updateStrategy) ↔
      ∀ key ∈ sourceKeys problems, ¬(updateStrategy = "skip" ∧ key ∈ sourceKeys existing) →
        (candidates problems existing updateStrategy key).length = 1 := by
  have hoffered : ∀ key, ¬(updateStrategy = "skip" ∧ key ∈ sourceKeys existing) ↔
      key ∉ sourceKeys existing ∨ updateStrategy = "overwrite" := by
    intro key
    rw [not_and_or, or_comm]
    apply or_congr_right
    cases hstrategy with
    | inl hskip => exact iff_of_false (not_not.mpr hskip) (by rw [hskip]; decide)
    | inr hoverwrite => exact iff_of_true (by rw [hoverwrite]; decide) hoverwrite
  have hduplicates : ∀ problem key, problem.sourceKey = some key →
      (Duplicates existing problem ↔ key ∈ sourceKeys existing) := by
    intro problem key hkey
    constructor
    · intro ⟨found, hfound, hsame⟩
      obtain rfl := Option.some_inj.mp (hkey.symm.trans hsame)
      exact hfound
    · exact fun hknown => ⟨key, hknown, hkey⟩
  constructor
  · intro himports key hkey hnot
    obtain ⟨problem, hproblem, hsame⟩ := mem_sourceKeys.mp hkey
    have hkeyOffered := (hoffered key).mp hnot
    have hle := (nodup_sourceKeys_iff hunique).mp himports.unique key hkeyOffered
    rw [← hduplicates problem key hsame] at hnot
    have hsome := (candidates_ne_nil_iff hkeyOffered).mpr
      (himports.added problem hproblem key hsame hnot)
    exact hle.antisymm (List.length_pos_iff.mpr hsome)
  · intro hone
    constructor
    · rw [nodup_sourceKeys_iff hunique]
      intro key hkeyOffered
      by_cases hkey : key ∈ sourceKeys problems
      · exact (hone key hkey ((hoffered key).mpr hkeyOffered)).le
      · have hnone : candidates problems existing updateStrategy key = [] := by
          rw [candidates, List.filter_eq_nil_iff]
          intro problem hproblem hcandidate
          rw [Bool.and_eq_true, decide_eq_true_iff] at hcandidate
          exact hkey (mem_sourceKeys.mpr ⟨problem, hproblem, hcandidate.1⟩)
        rw [hnone]
        exact Nat.zero_le 1
    · intro problem hexisting hkept
      apply List.mem_append_left
      apply mem_keptProblems.mpr
      refine ⟨hexisting, ?_⟩
      intro key hkey ⟨hoverwrite, hduplicate⟩
      exact hkept hoverwrite key (List.mem_filter.mp hduplicate).1 hkey
    · intro problem hproblem hkeyless
      apply List.mem_append_right
      apply mem_addedProblems.mpr
      refine ⟨hproblem, ?_⟩
      intro key hkey
      cases hkeyless.symm.trans hkey
    · intro problem hproblem key hkey hnot
      rw [hduplicates problem key hkey] at hnot
      apply (candidates_ne_nil_iff ((hoffered key).mp hnot)).mp
      apply List.ne_nil_of_length_pos
      rw [hone key (mem_sourceKeys.mpr ⟨problem, hproblem, hkey⟩) hnot]
      exact Nat.one_pos

/-- An import keeps the law exactly if every source key of the batch that is not skipped has one
problem whose id is not that of a skipped one. -/
theorem detectDuplicates_imports_iff (hunique : (sourceKeys existing).Nodup)
    (hstrategy : updateStrategy = "skip" ∨ updateStrategy = "overwrite") :
    ∃ detection, detectDuplicates problems existing updateStrategy = .ok detection ∧
      (Imports problems existing updateStrategy detection.finalProblems ↔
        ∀ key ∈ sourceKeys problems, ¬(updateStrategy = "skip" ∧ key ∈ sourceKeys existing) →
          (candidates problems existing updateStrategy key).length = 1) := by
  rw [detectDuplicates, if_neg]
  · exact ⟨_, rfl, imports_iff hunique hstrategy⟩
  · intro ⟨hskip, hoverwrite⟩
    exact hstrategy.elim hskip hoverwrite

/-- A problem of one platform. -/
def numbered (problemId sourceId : String) : ImportedProblem where
  problemId := problemId
  sourcePlatform := "leetcode"
  sourceProblemId := some sourceId

theorem detectDuplicates_imports_iff_numbered :
    ∃ detection, detectDuplicates [numbered "b" "2"] [numbered "a" "1"] "skip" = .ok detection ∧
      (Imports [numbered "b" "2"] [numbered "a" "1"] "skip" detection.finalProblems ↔
        ∀ key ∈ sourceKeys [numbered "b" "2"],
          ¬("skip" = "skip" ∧ key ∈ sourceKeys [numbered "a" "1"]) →
            (candidates [numbered "b" "2"] [numbered "a" "1"] "skip" key).length = 1) :=
  detectDuplicates_imports_iff (by decide) (.inl rfl)

/-- A problem of a new key goes with the duplicate whose problem id it has. -/
theorem detectDuplicates_loses_problem :
    ∃ detection,
      detectDuplicates [numbered "a" "1", numbered "a" "2"] [numbered "a" "1"] "skip" =
          .ok detection ∧
        ¬Imports [numbered "a" "1", numbered "a" "2"] [numbered "a" "1"] "skip"
          detection.finalProblems := by
  refine ⟨_, rfl, ?_⟩
  intro himports
  obtain ⟨chosen, -, hkey, hmem⟩ := himports.added (numbered "a" "2")
    (List.mem_cons_of_mem _ (List.mem_singleton_self _)) ("leetcode", "2") rfl (by
      intro ⟨_, key, hknown, hsame⟩
      cases hsame
      exact absurd hknown (by decide))
  have hfinal : chosen = numbered "a" "1" := List.mem_singleton.mp hmem
  rw [hfinal] at hkey
  exact absurd hkey (by decide)

end

end AlgorithmHarness.Importers
