import AlgorithmHarness.Core.Grouping
import AlgorithmHarness.Harness.Problem
import Mathlib.Data.String.Basic
import Mathlib.Tactic.Linarith

/-!
# Problems assigned to two variants

`stratified_assign` shuffles the problems of each stratum and hands them out in
turn; the odd problem of a stratum goes to the variant that is behind.  The
random generator is a parameter: a shuffle is some permutation.
-/

namespace AlgorithmHarness.ABTest

open Harness KeyedRows Grouping

/-- A generator whose `shuffle` permutes a list and changes its state. -/
structure Generator (Rng : Type*) where
  shuffle : Rng → List Problem → List Problem × Rng
  shuffle_perm : ∀ rng items, (shuffle rng items).1.Perm items

/-- The difficulty and the sorted tags. -/
abbrev Stratum := String × List String

def difficultyWord : Difficulty → String
  | .easy => "easy"
  | .medium => "medium"
  | .hard => "hard"

def stratum (problem : Problem) : Stratum :=
  (difficultyWord problem.difficulty, problem.tags.mergeSort)

/-- The order of tuples. -/
def Stratum.before (key other : Stratum) : Bool :=
  key.1 < other.1 || (key.1 = other.1 && decide (key.2 ≤ other.2))

/-- The identifiers of the problems with those of their variants. -/
abbrev Assignment := List (String × String)

/-- The variables of the loop over the strata. -/
structure Progress (Rng : Type*) where
  rng : Rng
  assignment : Assignment := []
  nextExtraVariant : ℕ := 0

section Assign

variable {Rng : Type*} (generator : Generator Rng) (first second : String)

/-- `variants[index % 2].id` -/
def variantAt (index : ℕ) : String := if index % 2 = 0 then first else second

/-- `enumerate(items, start=index)` -/
def assignItems : ℕ → List Problem → Assignment → Assignment
  | _, [], assignment => assignment
  | index, problem :: items, assignment =>
      assignItems (index + 1) items
        (put Prod.fst (problem.problemId, variantAt first second index) assignment)

def assignStratum (progress : Progress Rng) (items : List Problem) : Progress Rng :=
  let shuffled := generator.shuffle progress.rng items
  let odd := shuffled.1.length % 2 ≠ 0
  { rng := shuffled.2
    assignment := assignItems first second (if odd then progress.nextExtraVariant else 0)
      shuffled.1 progress.assignment
    nextExtraVariant :=
      if odd then 1 - progress.nextExtraVariant else progress.nextExtraVariant }

/-- The problems of each stratum, in the order of the strata. -/
def strata (problems : List Problem) : List (Stratum × List Problem) :=
  let groups := collect stratum [] (fun items problem => items ++ [problem]) problems
  ((groups.map Prod.fst).mergeSort Stratum.before).map fun key => (key, valueAt [] groups key)

def stratifiedAssign (rng : Rng) (problems : List Problem) (variants : List String) :
    Except String Assignment :=
  match variants with
  | [first, second] =>
      let progress := ((strata problems).map Prod.snd).foldl
        (assignStratum generator first second) { rng := rng }
      .ok progress.assignment
  | _ => .error "A/B tests require exactly two variants"

/-- The assignment of `ABTestRunner.run`, which does not go on without one problem for each. -/
def checkedAssignment (rng : Rng) (problems : List Problem) (variants : List String) :
    Except String Assignment := do
  let assignment ← stratifiedAssign generator rng problems variants
  if assignment.length ≠ problems.length then
    throw "A/B test requires unique problem IDs after filtering"
  if (assignment.map Prod.snd).eraseDups.length ≠ 2 then
    throw "A/B test requires at least one problem in each variant after filtering"
  return assignment

end Assign

/-! ## Items -/

/-- A problem with the variant it is handed to. -/
abbrev Placement := Problem × String

def Placement.entry (placement : Placement) : String × String :=
  (placement.1.problemId, placement.2)

section Items

variable (first second : String)

/-- What the loop hands out. -/
def placeItems : ℕ → List Problem → List Placement
  | _, [] => []
  | index, problem :: items =>
      (problem, variantAt first second index) :: placeItems (index + 1) items

/-- How far the first variant is ahead of the second. -/
def lead (placements : List Placement) : ℤ :=
  (placements.countP fun placement => placement.2 = first : ℤ) -
    placements.countP fun placement => placement.2 = second

theorem lead_append (placements others : List Placement) :
    lead first second (placements ++ others) =
      lead first second placements + lead first second others := by
  rw [lead, lead, lead, List.countP_append, List.countP_append]
  omega

theorem map_fst_placeItems (index : ℕ) (items : List Problem) :
    (placeItems first second index items).map Prod.fst = items := by
  induction items generalizing index with
  | nil => rfl
  | cons problem items ih => rw [placeItems, List.map_cons, ih]

theorem variantAt_cases (index : ℕ) :
    variantAt first second index = first ∨ variantAt first second index = second := by
  rw [variantAt]
  split_ifs
  · exact .inl rfl
  · exact .inr rfl

theorem variant_of_mem_placeItems {index : ℕ} {items : List Problem} {placement : Placement}
    (hmem : placement ∈ placeItems first second index items) :
    placement.2 = first ∨ placement.2 = second := by
  induction items generalizing index with
  | nil => cases hmem
  | cons problem items ih =>
      rcases List.mem_cons.mp hmem with rfl | hrest
      · exact variantAt_cases first second index
      · exact ih hrest

variable {first second}

/-- Turns alternate: an even number is balanced, an odd one is ahead by the first. -/
theorem lead_placeItems (hvariants : first ≠ second) (index : ℕ) (items : List Problem) :
    lead first second (placeItems first second index items) =
      if items.length % 2 = 0 then 0 else if index % 2 = 0 then 1 else -1 := by
  induction items generalizing index with
  | nil => rfl
  | cons problem items ih =>
      have hcons : lead first second (placeItems first second index (problem :: items)) =
          lead first second [(problem, variantAt first second index)] +
            lead first second (placeItems first second (index + 1) items) :=
        lead_append first second [_] _
      have hsingle : lead first second [(problem, variantAt first second index)] =
          if index % 2 = 0 then 1 else -1 := by
        rw [lead, variantAt]
        split_ifs
        · simp [hvariants]
        · simp [hvariants.symm]
      rw [hcons, hsingle, ih, List.length_cons]
      split_ifs <;> omega

/-- New problems are appended to the assignment. -/
theorem assignItems_eq (index : ℕ) (items : List Problem) (assignment : Assignment)
    (hfresh : (assignment.map Prod.fst ++ items.map Problem.problemId).Nodup) :
    assignItems first second index items assignment =
      assignment ++ (placeItems first second index items).map Placement.entry := by
  induction items generalizing index assignment with
  | nil => exact (List.append_nil assignment).symm
  | cons problem items ih =>
      have hnew : problem.problemId ∉ assignment.map Prod.fst := by
        intro hknown
        exact (List.nodup_append.mp hfresh).2.2 _ hknown _ List.mem_cons_self rfl
      have hput : put Prod.fst (problem.problemId, variantAt first second index) assignment =
          assignment ++ [(problem.problemId, variantAt first second index)] :=
        put_of_fetch_none (fetch_eq_none.mpr hnew)
      rw [assignItems, hput, ih, placeItems, List.map_cons, List.append_assoc]
      · rfl
      · simpa using hfresh

end Items

/-! ## Strata -/

section Strata

variable {Rng : Type*} (generator : Generator Rng) (first second : String)

/-- What one stratum is handed. -/
structure Block (items : List Problem) (block : List Placement) : Prop where
  problems : (block.map Prod.fst).Perm items
  variants : ∀ placement ∈ block, placement.2 = first ∨ placement.2 = second
  balanced : |lead first second block| ≤ 1

variable {first second}

/-- A stratum hands out its problems and passes its odd one on. -/
theorem assignStratum_spec (hvariants : first ≠ second) (progress : Progress Rng)
    (items : List Problem) (hnext : progress.nextExtraVariant ≤ 1)
    (hfresh : (progress.assignment.map Prod.fst ++ items.map Problem.problemId).Nodup) :
    ∃ block, Block first second items block ∧
      (assignStratum generator first second progress items).assignment =
        progress.assignment ++ block.map Placement.entry ∧
      (assignStratum generator first second progress items).nextExtraVariant ≤ 1 ∧
      (assignStratum generator first second progress items).nextExtraVariant =
        progress.nextExtraVariant + lead first second block := by
  have hperm := generator.shuffle_perm progress.rng items
  rw [assignStratum]
  dsimp only
  generalize (generator.shuffle progress.rng items).1 = shuffled at hperm ⊢
  have hids : (progress.assignment.map Prod.fst ++ shuffled.map Problem.problemId).Nodup := by
    refine (List.Perm.nodup_iff ?_).mpr hfresh
    exact (hperm.map Problem.problemId).append_left _
  generalize hstart : (if shuffled.length % 2 ≠ 0 then progress.nextExtraVariant else 0) = start
  have hlead := lead_placeItems hvariants start shuffled
  refine ⟨placeItems first second start shuffled, ⟨?_, ?_, ?_⟩,
    assignItems_eq start shuffled progress.assignment hids, ?_, ?_⟩
  · rw [map_fst_placeItems]
    exact hperm
  · exact fun placement hmem => variant_of_mem_placeItems first second hmem
  · rw [hlead]
    split_ifs <;> decide
  · split_ifs <;> omega
  · rw [hlead, ← hstart]
    split_ifs <;> omega

/-- All strata hand out their problems, and the variants stay even up to one. -/
theorem foldl_assignStratum (hvariants : first ≠ second) (groups : List (Stratum × List Problem))
    (progress : Progress Rng) (hnext : progress.nextExtraVariant ≤ 1)
    (hfresh : (progress.assignment.map Prod.fst ++
      ((groups.map Prod.snd).flatten).map Problem.problemId).Nodup) :
    ∃ blocks : List (List Placement),
      List.Forall₂ (fun group block => Block first second group.2 block) groups blocks ∧
      ((groups.map Prod.snd).foldl (assignStratum generator first second) progress).assignment =
        progress.assignment ++ blocks.flatten.map Placement.entry ∧
      ((groups.map Prod.snd).foldl (assignStratum generator first second)
        progress).nextExtraVariant ≤ 1 ∧
      ((groups.map Prod.snd).foldl (assignStratum generator first second)
        progress).nextExtraVariant =
          progress.nextExtraVariant + lead first second blocks.flatten := by
  induction groups generalizing progress with
  | nil => exact ⟨[], .nil, (List.append_nil _).symm, hnext, (add_zero _).symm⟩
  | cons group groups ih =>
      rw [List.map_cons, List.flatten_cons, List.map_append, ← List.append_assoc] at hfresh
      obtain ⟨block, hblock, hassignment, hless, hlead⟩ := assignStratum_spec generator hvariants
        progress group.2 hnext hfresh.of_append_left
      have hids : (block.map Placement.entry).map Prod.fst =
          (block.map Prod.fst).map Problem.problemId := by
        rw [List.map_map, List.map_map]
        rfl
      have hrest : ((assignStratum generator first second progress group.2).assignment.map
          Prod.fst ++ ((groups.map Prod.snd).flatten).map Problem.problemId).Nodup := by
        rw [hassignment, List.map_append, hids]
        refine (List.Perm.nodup_iff ?_).mpr hfresh
        exact ((hblock.problems.map Problem.problemId).append_left _).append_right _
      obtain ⟨blocks, hblocks, hothers, hlast, hsum⟩ := ih _ hless hrest
      refine ⟨block :: blocks, .cons hblock hblocks, ?_, hlast, ?_⟩
      · rw [List.map_cons, List.foldl_cons, hothers, hassignment, List.flatten_cons,
          List.map_append, List.append_assoc]
      · rw [List.map_cons, List.foldl_cons, hsum, hlead, List.flatten_cons, lead_append, add_assoc]

/-- The strata hand out their problems. -/
theorem placed_perm {groups : List (Stratum × List Problem)} {blocks : List (List Placement)}
    (hblocks : List.Forall₂ (fun group block => Block first second group.2 block)
      groups blocks) : (blocks.flatten.map Prod.fst).Perm (groups.map Prod.snd).flatten := by
  induction hblocks with
  | nil => exact List.Perm.refl _
  | cons hblock hrest ih =>
      rw [List.map_cons, List.flatten_cons, List.flatten_cons, List.map_append]
      exact hblock.problems.append ih

theorem placed_variants {groups : List (Stratum × List Problem)}
    {blocks : List (List Placement)}
    (hblocks : List.Forall₂ (fun group block => Block first second group.2 block)
      groups blocks) {placement : Placement} (hmem : placement ∈ blocks.flatten) :
    placement.2 = first ∨ placement.2 = second := by
  induction hblocks with
  | nil => cases hmem
  | cons hblock hrest ih =>
      rcases List.mem_append.mp hmem with hown | hlater
      · exact hblock.variants placement hown
      · exact ih hlater

end Strata

/-! ## The whole assignment -/

/-- A stratum consists of the problems with its key. -/
theorem valueAt_stratum (problems : List Problem) (key : Stratum) :
    valueAt [] (collect stratum [] (fun items problem => items ++ [problem]) problems) key =
      problems.filter fun problem => stratum problem = key := by
  rw [valueAt_collect]
  generalize (problems.filter fun problem => stratum problem = key) = items
  have hgrown (start : List Problem) :
      items.foldl (fun items problem => items ++ [problem]) start = start ++ items := by
    induction items generalizing start with
    | nil => exact (List.append_nil start).symm
    | cons problem items ih => rw [List.foldl_cons, ih, List.append_assoc, List.singleton_append]
  exact hgrown []

/-- The strata in their order: each key once, with the problems that have it. -/
theorem strata_eq (problems : List Problem) : ∃ keys : List Stratum, keys.Nodup ∧
    (∀ problem ∈ problems, stratum problem ∈ keys) ∧
    strata problems =
      keys.map fun key => (key, problems.filter fun problem => stratum problem = key) := by
  have hperm := List.mergeSort_perm ((collect stratum []
    (fun items problem => items ++ [problem]) problems).map Prod.fst) Stratum.before
  refine ⟨_, hperm.nodup_iff.mpr (nodup_keys_collect problems), ?_, ?_⟩
  · intro problem hmem
    exact hperm.mem_iff.mpr (mem_keys_collect.mpr ⟨problem, hmem, rfl⟩)
  · rw [strata]
    apply List.map_congr_left
    intro key hkey
    rw [valueAt_stratum]

/-- The variant of a problem. -/
def variantOf (assignment : Assignment) (problem : Problem) : Option String :=
  (fetch Prod.fst problem.problemId assignment).map Prod.snd

/-- How many of some problems a variant has. -/
def countOf (assignment : Assignment) (variant : String) (problems : List Problem) : ℕ :=
  problems.countP fun problem => variantOf assignment problem = some variant

/-- The counts of two variants differ by at most one. -/
def Even (assignment : Assignment) (first second : String) (problems : List Problem) : Prop :=
  countOf assignment first problems ≤ countOf assignment second problems + 1 ∧
    countOf assignment second problems ≤ countOf assignment first problems + 1

section Balance

variable {first second : String} {problems : List Problem} {placements : List Placement}

theorem variantOf_placement (hids : ((placements.map Prod.fst).map Problem.problemId).Nodup)
    {placement : Placement} (hmem : placement ∈ placements) :
    variantOf (placements.map Placement.entry) placement.1 = some placement.2 := by
  have hkeys : ((placements.map Placement.entry).map Prod.fst).Nodup := by
    rw [List.map_map] at hids ⊢
    exact hids
  have hfetch : fetch Prod.fst placement.1.problemId (placements.map Placement.entry) =
      some placement.entry :=
    (fetch_eq_some_iff hkeys).mpr ⟨List.mem_map_of_mem hmem, rfl⟩
  rw [variantOf, hfetch]
  rfl

/-- The problems of a variant are counted by its placements. -/
theorem countOf_placements (hids : (problems.map Problem.problemId).Nodup)
    (hperm : (placements.map Prod.fst).Perm problems) (variant : String)
    (chosen : Problem → Bool) :
    countOf (placements.map Placement.entry) variant (problems.filter chosen) =
      (placements.filter fun placement => chosen placement.1).countP
        fun placement => placement.2 = variant := by
  have hunique : ((placements.map Prod.fst).map Problem.problemId).Nodup :=
    (hperm.map Problem.problemId).nodup_iff.mpr hids
  rw [countOf, ← (hperm.filter chosen).countP_eq, List.filter_map, List.countP_map]
  apply List.countP_congr
  intro placement hmem
  have hvariant := variantOf_placement hunique (List.mem_filter.mp hmem).1
  simp [hvariant]

theorem even_of_lead (hids : (problems.map Problem.problemId).Nodup)
    (hperm : (placements.map Prod.fst).Perm problems) (chosen : Problem → Bool)
    (hlead : |lead first second (placements.filter fun placement => chosen placement.1)| ≤ 1) :
    Even (placements.map Placement.entry) first second (problems.filter chosen) := by
  rw [Even, countOf_placements hids hperm, countOf_placements hids hperm]
  rw [lead, abs_le] at hlead
  omega

/-- Only the stratum of a key contributes to its lead. -/
theorem lead_filter_stratum {groups : List (Stratum × List Problem)}
    {blocks : List (List Placement)}
    (hblocks : List.Forall₂ (fun group block => Block first second group.2 block) groups blocks)
    (hkeys : (groups.map Prod.fst).Nodup)
    (hitems : ∀ group ∈ groups, ∀ problem ∈ group.2, stratum problem = group.1) (key : Stratum) :
    |lead first second (blocks.flatten.filter fun placement => stratum placement.1 = key)| ≤ 1 ∧
      (key ∉ groups.map Prod.fst →
        (blocks.flatten.filter fun placement => stratum placement.1 = key) = []) := by
  induction hblocks with
  | nil => exact ⟨zero_le_one, fun _ => rfl⟩
  | cons hblock hrest ih =>
      rename_i group block groups blocks
      obtain ⟨hfirst, hothers⟩ := List.nodup_cons.mp hkeys
      obtain ⟨hbalanced, hempty⟩ := ih hothers fun other hmem =>
        hitems other (List.mem_cons_of_mem _ hmem)
      have hown : ∀ placement ∈ block, stratum placement.1 = group.1 := fun placement hmem =>
        hitems group List.mem_cons_self _
          (hblock.problems.mem_iff.mp (List.mem_map_of_mem hmem))
      rw [List.flatten_cons, List.filter_append]
      by_cases hkey : group.1 = key
      · have hwhole : (block.filter fun placement => stratum placement.1 = key) = block :=
          List.filter_eq_self.mpr fun placement hmem =>
            decide_eq_true ((hown placement hmem).trans hkey)
        rw [hempty (hkey ▸ hfirst), List.append_nil, hwhole]
        exact ⟨hblock.balanced, fun hnone => (hnone (hkey ▸ List.mem_cons_self)).elim⟩
      · have hnone : (block.filter fun placement => stratum placement.1 = key) = [] := by
          apply List.filter_eq_nil_iff.mpr
          intro placement hmem
          rw [hown placement hmem, decide_eq_true_eq]
          exact hkey
        rw [hnone, List.nil_append]
        exact ⟨hbalanced, fun habsent => hempty fun hmem => habsent (List.mem_cons_of_mem _ hmem)⟩

/-- The problems are handed out one by one, balanced in every stratum and over all. -/
theorem stratifiedAssign_balanced {Rng : Type*} (generator : Generator Rng) (rng : Rng)
    (problems : List Problem) (hids : (problems.map Problem.problemId).Nodup)
    (first second : String) (hvariants : first ≠ second) :
    ∃ assignment, stratifiedAssign generator rng problems [first, second] = .ok assignment ∧
      (assignment.map Prod.fst).Perm (problems.map Problem.problemId) ∧
      (∀ entry ∈ assignment, entry.2 = first ∨ entry.2 = second) ∧
      (∀ key, Even assignment first second
        (problems.filter fun problem => stratum problem = key)) ∧
      Even assignment first second problems := by
  obtain ⟨keys, hkeys, hcovered, hstrata⟩ := strata_eq problems
  have hfirsts : (strata problems).map Prod.fst = keys := by
    rw [hstrata, List.map_map]
    exact List.map_id keys
  have hitems : ∀ group ∈ strata problems, ∀ problem ∈ group.2, stratum problem = group.1 := by
    rw [hstrata]
    intro group hgroup problem hproblem
    obtain ⟨key, -, rfl⟩ := List.mem_map.mp hgroup
    exact of_decide_eq_true (List.mem_filter.mp hproblem).2
  have hflat : (((strata problems).map Prod.snd).flatten).Perm problems := by
    rw [hstrata, List.map_map]
    exact flatten_filter_perm stratum hkeys hcovered
  have hfresh : (((({ rng := rng } : Progress Rng).assignment).map Prod.fst) ++
      ((strata problems).map Prod.snd).flatten.map Problem.problemId).Nodup :=
    (hflat.map Problem.problemId).nodup_iff.mpr hids
  obtain ⟨blocks, hblocks, hassignment, hnext, hlead⟩ := foldl_assignStratum generator hvariants
    (strata problems) { rng := rng } (Nat.zero_le 1) hfresh
  have hperm := (placed_perm hblocks).trans hflat
  refine ⟨_, rfl, ?_, ?_, ?_, ?_⟩
  · rw [hassignment, List.nil_append, List.map_map]
    have hsame := hperm.map Problem.problemId
    rw [List.map_map] at hsame
    exact hsame
  · rw [hassignment]
    intro entry hentry
    obtain ⟨placement, hmem, rfl⟩ := List.mem_map.mp hentry
    exact placed_variants hblocks hmem
  · intro key
    rw [hassignment]
    exact even_of_lead hids hperm _
      (lead_filter_stratum hblocks (hfirsts ▸ hkeys) hitems key).1
  · rw [hassignment]
    have hall := @even_of_lead first second problems blocks.flatten hids hperm (fun _ => true)
    rw [List.filter_eq_self.mpr fun _ _ => rfl, List.filter_eq_self.mpr fun _ _ => rfl] at hall
    apply hall
    rw [abs_le]
    have hstart : ({ rng := rng } : Progress Rng).nextExtraVariant = 0 := rfl
    rw [hstart] at hlead
    omega

end Balance

/-! ## The check of the run -/

section Checked

variable {Rng : Type*} (generator : Generator Rng) {first second : String}

theorem keys_assignItems (index : ℕ) (items : List Problem) {assignment : Assignment}
    (hkeys : (assignment.map Prod.fst).Nodup) :
    ((assignItems first second index items assignment).map Prod.fst).Nodup ∧
      ∀ key ∈ (assignItems first second index items assignment).map Prod.fst,
        key ∈ assignment.map Prod.fst ∨ key ∈ items.map Problem.problemId := by
  induction items generalizing index assignment with
  | nil => exact ⟨hkeys, fun key hkey => .inl hkey⟩
  | cons problem items ih =>
      obtain ⟨hnodup, hknown⟩ := ih (index + 1)
        (nodup_put hkeys (problem.problemId, variantAt first second index))
      refine ⟨hnodup, fun key hkey => ?_⟩
      rcases hknown key hkey with hput | hlater
      · rw [map_key_put] at hput
        split_ifs at hput
        · exact .inl hput
        · rcases List.mem_append.mp hput with hold | hnew
          · exact .inl hold
          · exact .inr (List.mem_singleton.mp hnew ▸ List.mem_cons_self)
      · exact .inr (List.mem_cons_of_mem _ hlater)

theorem keys_foldl_assignStratum (groups : List (List Problem)) (progress : Progress Rng)
    (hkeys : (progress.assignment.map Prod.fst).Nodup) :
    ((groups.foldl (assignStratum generator first second) progress).assignment.map
        Prod.fst).Nodup ∧
      ∀ key ∈ (groups.foldl (assignStratum generator first second) progress).assignment.map
        Prod.fst, key ∈ progress.assignment.map Prod.fst ∨
          key ∈ groups.flatten.map Problem.problemId := by
  induction groups generalizing progress with
  | nil => exact ⟨hkeys, fun key hkey => .inl hkey⟩
  | cons items groups ih =>
      have hperm := generator.shuffle_perm progress.rng items
      obtain ⟨hitems, hknown⟩ := @keys_assignItems first second
        (if (generator.shuffle progress.rng items).1.length % 2 ≠ 0 then
          progress.nextExtraVariant else 0) (generator.shuffle progress.rng items).1 _ hkeys
      obtain ⟨hnodup, hlater⟩ := ih (assignStratum generator first second progress items) hitems
      refine ⟨hnodup, fun key hkey => ?_⟩
      rw [List.flatten_cons, List.map_append, List.mem_append]
      rcases hlater key hkey with hearlier | hrest
      · rcases hknown key hearlier with hold | hnew
        · exact .inl hold
        · exact .inr (.inl ((hperm.map Problem.problemId).mem_iff.mp hnew))
      · exact .inr (.inr hrest)

/-- A run goes on with unique identifiers only. -/
theorem nodup_of_checkedAssignment {rng : Rng} {problems : List Problem}
    {assignment : Assignment}
    (hchecked : checkedAssignment generator rng problems [first, second] = .ok assignment) :
    (problems.map Problem.problemId).Nodup := by
  obtain ⟨keys, hkeys, hcovered, hstrata⟩ := strata_eq problems
  have hflat : (((strata problems).map Prod.snd).flatten).Perm problems := by
    rw [hstrata, List.map_map]
    exact flatten_filter_perm stratum hkeys hcovered
  obtain ⟨hnodup, hknown⟩ := @keys_foldl_assignStratum Rng generator first second
    ((strata problems).map Prod.snd) { rng := rng } List.nodup_nil
  rw [checkedAssignment, stratifiedAssign] at hchecked
  dsimp only [bind, Except.bind] at hchecked
  generalize ((strata problems).map Prod.snd).foldl (assignStratum generator first second)
    { rng := rng } = progress at hchecked hnodup hknown
  by_cases hlength : progress.assignment.length = problems.length
  · have hsub : (progress.assignment.map Prod.fst).Subperm (problems.map Problem.problemId) := by
      apply List.subperm_of_subset hnodup
      intro key hkey
      rcases hknown key hkey with hnone | hmem
      · cases hnone
      · exact (hflat.map Problem.problemId).mem_iff.mp hmem
    have hsame := hsub.perm_of_length_le (by simp [hlength])
    exact hsame.nodup_iff.mp hnodup
  · rw [if_pos hlength] at hchecked
    cases hchecked

end Checked

/-! ## A test of two problems -/

/-- A generator that leaves lists as they are. -/
def steady : Generator Unit where
  shuffle := fun rng items => (items, rng)
  shuffle_perm := fun _ items => List.Perm.refl items

def plainProblem (problemId : String) : Problem where
  problemId := problemId
  title := "Sum"
  description := "Add two numbers."
  difficulty := .easy
  tags := ["math"]
  constraints := none
  inputOutputMode := .function
  entryPoint := "solution(**test_input)"
  judgeConfig :=
    { comparison := .exact, floatTolerance := "1e-06", whitespace := .trim, outputFormat := .auto }
  unsupportedReason := none
  publicTestCases := []
  feedbackTestCases := []
  hiddenTestCases := []

theorem stratifiedAssign_balanced_pair :
    ∃ assignment, stratifiedAssign steady () [plainProblem "p", plainProblem "q"] ["a", "b"] =
        .ok assignment ∧
      (assignment.map Prod.fst).Perm ["p", "q"] ∧
      (∀ entry ∈ assignment, entry.2 = "a" ∨ entry.2 = "b") ∧
      (∀ key, Even assignment "a" "b" ([plainProblem "p", plainProblem "q"].filter
        fun problem => stratum problem = key)) ∧
      Even assignment "a" "b" [plainProblem "p", plainProblem "q"] :=
  stratifiedAssign_balanced steady () [plainProblem "p", plainProblem "q"] (by decide) "a" "b"
    (by decide)

end AlgorithmHarness.ABTest
