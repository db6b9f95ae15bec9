import AlgorithmHarness.Strategies.VerdictLaw
import Mathlib.Algebra.Ring.GeomSum

/-!
# The bounds of a search and its best leaf

A node is expanded once, into children one level below, so what is still to
come below the frontier is bounded by geometric sums.  The fuel of a search
covers it, and what is tested is a leaf that no other leaf exceeds.
-/

namespace AlgorithmHarness.Strategies

open Harness

/-! ## The first maximum -/

section Maximum

variable {Item : Type} {le : Item → Item → Bool} {Regular : Item → Prop}

/-- Taking every larger item ends above all items. -/
theorem le_foldl_larger
    (htotal : ∀ item other, Regular item → Regular other →
      le item other = true ∨ le other item = true)
    (htrans : ∀ item middle other, le item middle = true → le middle other = true →
      le item other = true) {items : List Item} (hitems : ∀ item ∈ items, Regular item)
    {first : Item} (hfirst : Regular first) : ∀ item ∈ first :: items, le item
      (items.foldl (fun best item => if (!le item best) = true then item else best) first) =
        true := by
  induction items generalizing first with
  | nil =>
      intro item hitem
      rw [List.mem_singleton.mp hitem]
      exact (htotal first first hfirst hfirst).elim id id
  | cons next items ih =>
      have hnext := hitems next List.mem_cons_self
      have hrest := fun item hmem => hitems item (List.mem_cons_of_mem _ hmem)
      rw [List.foldl_cons]
      split_ifs with hlarger
      · have hup : le first next = true := by
          apply (htotal first next hfirst hnext).resolve_right
          simpa using hlarger
        have habove := ih hrest hnext
        intro item hitem
        rcases List.mem_cons.mp hitem with rfl | hlater
        · exact htrans _ _ _ hup (habove next List.mem_cons_self)
        · exact habove item hlater
      · have hdown : le next first = true := by simpa using hlarger
        have habove := ih hrest hfirst
        intro item hitem
        rcases List.mem_cons.mp hitem with rfl | hlater
        · exact habove item List.mem_cons_self
        · rcases List.mem_cons.mp hlater with rfl | hmem
          · exact htrans _ _ _ hdown (habove first List.mem_cons_self)
          · exact habove item (List.mem_cons_of_mem _ hmem)

end Maximum

/-- No leaf exceeds the chosen one. -/
theorem firstMaximal_lowerScore {leaves : List ThoughtNode} {best : ThoughtNode}
    (hscores : ∀ leaf ∈ leaves, leaf.qualityScore ≠ .nan)
    (hbest : firstMaximal lowerScore leaves = some best) :
    ∀ leaf ∈ leaves, Double.le leaf.qualityScore best.qualityScore = true := by
  cases leaves with
  | nil => cases hbest
  | cons first rest =>
      rw [firstMaximal, Option.some.injEq] at hbest
      rw [← hbest]
      exact @le_foldl_larger ThoughtNode
        (fun leaf other => Double.le leaf.qualityScore other.qualityScore)
        (fun leaf => leaf.qualityScore ≠ .nan) (fun _ _ => Double.le_total)
        (fun _ _ _ => Double.le_trans) rest
        (fun leaf hmem => hscores leaf (List.mem_cons_of_mem _ hmem)) first
        (hscores first List.mem_cons_self)

/-! ## Calls -/

/-- The calls of a kind that a session has recorded. -/
def Session.recorded (session : Session) (callType : String) : ℕ :=
  session.attributes.callContext.countP fun call => call.1 = callType

/-- Between two sessions lie at most so many calls of each kind, and each call is recorded. -/
structure Session.Spends (session later : Session) (expansions evaluations : ℕ) : Prop where
  expansions_le : later.recorded "branch_generation" ≤
    session.recorded "branch_generation" + expansions
  evaluations_le : later.recorded "node_evaluation" ≤
    session.recorded "node_evaluation" + evaluations
  complete : later.sent.length + session.attributes.callContext.length =
    session.sent.length + later.attributes.callContext.length

namespace Session

variable {session middle later : Session} {expansions evaluations : ℕ}

theorem Spends.refl (session : Session) : session.Spends session 0 0 := ⟨le_rfl, le_rfl, rfl⟩

theorem Spends.trans {more others : ℕ} (hfirst : session.Spends middle expansions evaluations)
    (hsecond : middle.Spends later more others) :
    session.Spends later (expansions + more) (evaluations + others) := by
  obtain ⟨hexpansions, hevaluations, hcomplete⟩ := hfirst
  obtain ⟨hmore, hothers, hrest⟩ := hsecond
  exact ⟨by omega, by omega, by omega⟩

theorem Spends.mono {more others : ℕ} (hspends : session.Spends later expansions evaluations)
    (hexpansions : expansions ≤ more) (hevaluations : evaluations ≤ others) :
    session.Spends later more others := by
  obtain ⟨hmore, hothers, hcomplete⟩ := hspends
  exact ⟨by omega, by omega, hcomplete⟩

end Session

/-- Calls of the model run nothing in the sandbox. -/
theorem executions_generateRecorded (runtime : Runtime) (prompt : String) (node : ThoughtNode)
    (callType : String) (session : Session) :
    (generateRecorded runtime prompt node callType session).2.executions =
      session.executions := by
  rw [generateRecorded]
  cases hcall : session.generate runtime prompt with
  | mk reply later =>
      cases reply with
      | refused reason =>
          obtain ⟨-, tracker, rfl⟩ := Session.generate_refused hcall
          rfl
      | answered response =>
          obtain ⟨-, tracker, rfl⟩ := Session.generate_sent hcall rfl
          rfl
      | failed message =>
          obtain ⟨-, tracker, rfl⟩ := Session.generate_sent hcall rfl
          rfl

theorem generateRecorded_spends (runtime : Runtime) (prompt : String) (node : ThoughtNode)
    (callType : String) (session : Session) :
    session.Spends (generateRecorded runtime prompt node callType session).2
      (if callType = "branch_generation" then 1 else 0)
      (if callType = "node_evaluation" then 1 else 0) := by
  rw [generateRecorded]
  cases hcall : session.generate runtime prompt with
  | mk reply later =>
      cases reply with
      | refused reason =>
          obtain ⟨-, tracker, rfl⟩ := Session.generate_refused hcall
          exact ⟨Nat.le_add_right _ _, Nat.le_add_right _ _, rfl⟩
      | answered response =>
          obtain ⟨-, tracker, rfl⟩ := Session.generate_sent hcall rfl
          constructor
          · simp [Session.recorded, Attributes.recorded, Session.send, List.countP_append]
          · simp [Session.recorded, Attributes.recorded, Session.send, List.countP_append]
          · simp [Attributes.recorded, Session.send]; omega
      | failed message =>
          obtain ⟨-, tracker, rfl⟩ := Session.generate_sent hcall rfl
          constructor
          · simp [Session.recorded, Attributes.recorded, Session.send, List.countP_append]
          · simp [Session.recorded, Attributes.recorded, Session.send, List.countP_append]
          · simp [Attributes.recorded, Session.send]; omega

/-! ## Branches -/

section Branches

variable (runtime : Runtime) (problem : Problem) (config : TreeConfig)

/-- The branches of a node are few and lie one level below. -/
theorem parseBranches_spec (response : String) (node : ThoughtNode) :
    (parseBranches runtime config response node).length ≤ config.branchingFactor ∧
      ∀ branch ∈ parseBranches runtime config response node,
        branch.depth = node.depth + 1 ∧ branch.qualityScore = Double.zero := by
  refine ⟨List.length_take_le _ _, ?_⟩
  intro branch hbranch
  obtain ⟨text, -, hparsed⟩ := List.mem_filterMap.mp (List.mem_of_mem_take hbranch)
  rw [parseSection] at hparsed
  split_ifs at hparsed
  obtain ⟨code, -, hcode⟩ := Option.bind_eq_some_iff.mp hparsed
  split_ifs at hcode
  cases hcode
  exact ⟨rfl, rfl⟩

theorem generateBranches_spec {node : ThoughtNode} {session later : Session}
    {branches : List ThoughtNode}
    (hbranches : generateBranches runtime config problem node session = (some branches, later)) :
    branches.length ≤ config.branchingFactor ∧
      ∀ branch ∈ branches, branch.depth = node.depth + 1 ∧ branch.qualityScore = Double.zero := by
  rw [generateBranches] at hbranches
  split at hbranches
  · cases hbranches
    exact parseBranches_spec runtime config _ node
  · cases hbranches
    exact ⟨Nat.zero_le _, fun branch hbranch => (List.not_mem_nil hbranch).elim⟩
  · cases hbranches

theorem generateBranches_spends (node : ThoughtNode) (session : Session) :
    session.Spends (generateBranches runtime config problem node session).2 1 0 := by
  have hspends := generateRecorded_spends runtime (branchGenerationPrompt runtime.executor problem
    config.branchingFactor node.depth node.thought node.codeSnippet) node "branch_generation"
    session
  rw [if_pos rfl, if_neg (by decide)] at hspends
  rw [generateBranches]
  split
  next response later hcall => rw [hcall] at hspends; exact hspends
  next reason later hcall => rw [hcall] at hspends; exact hspends
  next message later hcall => rw [hcall] at hspends; exact hspends

theorem bounded_ne_nan (score : Double) : bounded score ≠ .nan := by
  have hzero : Double.zero ≠ .nan := nofun
  rw [bounded]
  split_ifs with htop hbelow hbelow
  · intro hnan
    rw [hnan] at htop
    cases htop
  · exact hzero
  · intro hnan
    rw [hnan] at hbelow
    cases hbelow
  · exact hzero

theorem evaluateNode_score (node : ThoughtNode) (session : Session) :
    (evaluateNode runtime problem node session).1 ≠ .nan := by
  rw [evaluateNode]
  dsimp only
  split
  · exact bounded_ne_nan _
  · exact bounded_ne_nan _

theorem evaluateNode_spends (node : ThoughtNode) (session : Session) :
    session.Spends (evaluateNode runtime problem node session).2 0 1 := by
  have hspends := generateRecorded_spends runtime (evaluationPrompt runtime.executor problem
    node.thought node.codeSnippet) node "node_evaluation" session
  rw [if_neg (by decide), if_pos rfl] at hspends
  rw [evaluateNode]
  dsimp only
  split
  next response later hcall => rw [hcall] at hspends; exact hspends
  next reply later hcall => rw [hcall] at hspends; exact hspends

theorem evaluateBranches_spends (branches : List ThoughtNode) (session : Session) :
    session.Spends (evaluateBranches runtime problem branches session).2 0 branches.length := by
  induction branches generalizing session with
  | nil => exact .refl session
  | cons branch branches ih =>
      have hfirst := evaluateNode_spends runtime problem branch session
      rw [evaluateBranches]
      dsimp only
      split_ifs
      · exact hfirst.mono le_rfl (Nat.succ_pos _)
      · exact (hfirst.trans (ih _)).mono le_rfl (Nat.add_comm 1 _).le

/-- Rating changes nothing but the scores. -/
theorem evaluateBranches_spec (branches : List ThoughtNode) (session : Session)
    (hscores : ∀ branch ∈ branches, branch.qualityScore ≠ .nan) :
    List.Forall₂ (fun rated branch => rated.depth = branch.depth ∧ rated.qualityScore ≠ .nan)
      (evaluateBranches runtime problem branches session).1 branches := by
  induction branches generalizing session with
  | nil => exact .nil
  | cons branch branches ih =>
      have hrated := evaluateNode_score runtime problem branch session
      have hrest := fun other hmem => hscores other (List.mem_cons_of_mem _ hmem)
      rw [evaluateBranches]
      dsimp only
      split_ifs
      · refine .cons ⟨rfl, hrated⟩ (List.forall₂_same.mpr fun other hmem => ?_)
        exact ⟨rfl, hrest other hmem⟩
      · exact .cons ⟨rfl, hrated⟩ (ih _ hrest)

/-! ## Steps -/

/-- What becomes of a node that is taken from the frontier. -/
structure Expansion (config : TreeConfig) (current : ThoughtNode) (kept : List ThoughtNode)
    (session later : Session) : Prop where
  length_le : kept.length ≤ config.branchingFactor
  depth : ∀ branch ∈ kept, branch.depth = current.depth + 1
  scored : ∀ branch ∈ kept, branch.qualityScore ≠ .nan
  shallow : current.depth < config.maxDepth
  spends : session.Spends later 1 config.branchingFactor

theorem pruneBranches_spec {current : ThoughtNode} {branches : List ThoughtNode}
    {session middle : Session} (hshallow : current.depth < config.maxDepth)
    (hbranches : generateBranches runtime config problem current session =
      (some branches, middle)) :
    Expansion config current
      (pruneBranches config (evaluateBranches runtime problem branches middle).1) session
      (evaluateBranches runtime problem branches middle).2 := by
  obtain ⟨hlength, hbelow⟩ := generateBranches_spec runtime problem config hbranches
  have hscores : ∀ branch ∈ branches, branch.qualityScore ≠ .nan := by
    intro branch hmem
    rw [(hbelow branch hmem).2]
    exact Double.noConfusion
  have hrated := evaluateBranches_spec runtime problem branches middle hscores
  have hfirst := generateBranches_spends runtime problem config current session
  rw [hbranches] at hfirst
  have hspends := hfirst.trans (evaluateBranches_spends runtime problem branches middle)
  generalize evaluateBranches runtime problem branches middle = rated at hrated hspends ⊢
  have hmember : ∀ branch ∈ pruneBranches config rated.1,
      branch.depth = current.depth + 1 ∧ branch.qualityScore ≠ .nan := by
    intro branch hmem
    obtain ⟨index, hindex, rfl⟩ := List.mem_iff_getElem.mp (List.mem_of_mem_filter hmem)
    obtain ⟨hdepth, hscore⟩ := hrated.get hindex (hrated.length_eq ▸ hindex)
    exact ⟨hdepth.trans (hbelow _ (List.getElem_mem _)).1, hscore⟩
  have hfew : (pruneBranches config rated.1).length ≤ config.branchingFactor :=
    (List.length_filter_le _ rated.1).trans (hrated.length_eq.le.trans hlength)
  exact {
    length_le := hfew
    depth := fun branch hmem => (hmember branch hmem).1
    scored := fun branch hmem => (hmember branch hmem).2
    shallow := hshallow
    spends := hspends.mono le_rfl (by omega) }

/-- Keeping no branch only takes the node from the frontier. -/
theorem Search.extend_nil (search : Search) (current : ThoughtNode) :
    search.extend config current [] = search := by
  cases search with
  | mk nodes parents frontier => simp [Search.extend]

/-- A search takes a node too deep to expand, or expands it and goes on or ends there. -/
theorem searchTree_cases {search : Search} {session : Session} {current : ThoughtNode}
    {frontier : List ThoughtNode} (hfrontier : search.frontier = current :: frontier) :
    (config.maxDepth ≤ current.depth ∧ ∀ fuel,
      searchTree runtime config problem (fuel + 1) search session =
        searchTree runtime config problem fuel { search with frontier := frontier } session) ∨
    ∃ kept later, Expansion config current kept session later ∧
      ((∀ fuel, searchTree runtime config problem (fuel + 1) search session =
        (({ search with frontier := frontier } : Search).extend config current kept, later)) ∨
      ∀ fuel, searchTree runtime config problem (fuel + 1) search session =
        searchTree runtime config problem fuel
          (({ search with frontier := frontier } : Search).extend config current kept) later) := by
  by_cases hdeep : config.maxDepth ≤ current.depth
  · left
    refine ⟨hdeep, fun fuel => ?_⟩
    rw [searchTree, hfrontier]
    exact if_pos hdeep
  · right
    have hspends := generateBranches_spends runtime problem config current session
    have hnone (later : Session) (hlater : session.Spends later 1 0) :
        Expansion config current [] session later :=
      ⟨Nat.zero_le _, by simp, by simp, not_le.mp hdeep, hlater.mono le_rfl (Nat.zero_le _)⟩
    cases hbranches : generateBranches runtime config problem current session with
    | mk found later =>
        rw [hbranches] at hspends
        cases found with
        | none =>
            refine ⟨[], later, hnone later hspends, .inl fun fuel => ?_⟩
            rw [Search.extend_nil, searchTree, hfrontier]
            dsimp only
            rw [if_neg hdeep, hbranches]
        | some branches =>
            cases branches with
            | nil =>
                refine ⟨[], later, hnone later hspends, ?_⟩
                rw [Search.extend_nil]
                cases hstop : later.attributes.budgetStop.isSome with
                | true =>
                    left
                    intro fuel
                    rw [searchTree, hfrontier]
                    dsimp only
                    rw [if_neg hdeep, hbranches]
                    exact if_pos hstop
                | false =>
                    right
                    intro fuel
                    rw [searchTree, hfrontier]
                    dsimp only
                    rw [if_neg hdeep, hbranches]
                    exact if_neg (Bool.eq_false_iff.mp hstop)
            | cons first others =>
                refine ⟨_, _, pruneBranches_spec runtime problem config (not_le.mp hdeep) hbranches,
                  ?_⟩
                cases hstop : (evaluateBranches runtime problem (first :: others)
                    later).2.attributes.budgetStop.isSome with
                | true =>
                    left
                    intro fuel
                    rw [searchTree, hfrontier]
                    dsimp only
                    rw [if_neg hdeep, hbranches]
                    exact if_pos hstop
                | false =>
                    right
                    intro fuel
                    rw [searchTree, hfrontier]
                    dsimp only
                    rw [if_neg hdeep, hbranches]
                    exact if_neg (Bool.eq_false_iff.mp hstop)

/-! ## Runs -/

/-- What is to come below the frontier, measured by the height below a node. -/
def pending (measure : ℕ → ℕ) (frontier : List ThoughtNode) : ℕ :=
  (frontier.map fun node => measure (config.maxDepth - node.depth)).sum

variable {runtime problem config}

theorem pending_cons (measure : ℕ → ℕ) (current : ThoughtNode) (frontier : List ThoughtNode) :
    pending config measure (current :: frontier) =
      measure (config.maxDepth - current.depth) + pending config measure frontier := by
  rw [pending, List.map_cons, List.sum_cons]
  rfl

/-- Children wait one level below their parent. -/
theorem pending_extend (measure : ℕ → ℕ) {search : Search} {current : ThoughtNode}
    {kept : List ThoughtNode} (hdepth : ∀ branch ∈ kept, branch.depth = current.depth + 1) :
    pending config measure (search.extend config current kept).frontier =
      pending config measure search.frontier +
        kept.length * measure (config.maxDepth - (current.depth + 1)) := by
  have hchildren : ((kept.mapIdx fun i branch =>
      { branch with number := search.nodes.length + i }).map fun node =>
        measure (config.maxDepth - node.depth)).sum =
      kept.length * measure (config.maxDepth - (current.depth + 1)) := by
    have hsame : ((kept.mapIdx fun i branch =>
        { branch with number := search.nodes.length + i }).map fun node =>
          measure (config.maxDepth - node.depth)) =
        List.replicate kept.length (measure (config.maxDepth - (current.depth + 1))) := by
      apply List.ext_getElem
      · simp
      · intro index hindex _
        have hkept : index < kept.length := by simpa using hindex
        have hmem : kept[index] ∈ kept := List.getElem_mem hkept
        simp [hdepth _ hmem]
    rw [hsame, List.sum_replicate_nat]
  rw [pending, pending, Search.extend]
  dsimp only
  split_ifs
  · rw [List.map_append, List.sum_append, hchildren]
  · rw [List.map_append, List.sum_append, hchildren, Nat.add_comm]

theorem subtreeSize_pos (branchingFactor height : ℕ) : 0 < subtreeSize branchingFactor height := by
  cases height with
  | zero => exact Nat.one_pos
  | succ height => rw [subtreeSize]; omega

/-- With enough fuel for what is pending, more changes nothing. -/
theorem searchTree_fuel (fuel extra : ℕ) {search : Search} {session : Session}
    (henough : pending config (subtreeSize config.branchingFactor) search.frontier ≤ fuel) :
    searchTree runtime config problem (fuel + extra) search session =
      searchTree runtime config problem fuel search session := by
  have hend {search : Search} (hempty : search.frontier = []) (session : Session) (fuel : ℕ) :
      searchTree runtime config problem fuel search session = (search, session) := by
    cases fuel with
    | zero => rfl
    | succ fuel => rw [searchTree, hempty]
  induction fuel generalizing search session with
  | zero =>
      cases hfrontier : search.frontier with
      | nil => rw [hend hfrontier, hend hfrontier]
      | cons current frontier =>
          rw [hfrontier, pending_cons] at henough
          have hsome := subtreeSize_pos config.branchingFactor (config.maxDepth - current.depth)
          omega
  | succ fuel ih =>
      cases hfrontier : search.frontier with
      | nil => rw [hend hfrontier, hend hfrontier]
      | cons current frontier =>
          rw [hfrontier, pending_cons] at henough
          rw [Nat.add_right_comm]
          rcases searchTree_cases runtime problem config hfrontier with
            ⟨-, hskip⟩ | ⟨kept, later, hexpansion, hends | hgoes⟩
          · have hsome := subtreeSize_pos config.branchingFactor (config.maxDepth - current.depth)
            rw [hskip, hskip]
            exact ih (by dsimp only; omega)
          · rw [hends, hends]
          · rw [hgoes, hgoes]
            apply ih
            rw [pending_extend _ hexpansion.depth]
            obtain ⟨height, hheight⟩ := Nat.exists_eq_add_of_lt hexpansion.shallow
            have habove : config.maxDepth - current.depth = height + 1 := by omega
            have hbelow : config.maxDepth - (current.depth + 1) = height := by omega
            rw [habove, subtreeSize] at henough
            have hfew := Nat.mul_le_mul_right
              (subtreeSize config.branchingFactor height) hexpansion.length_le
            rw [hbelow]
            dsimp only
            omega

/-- The expansions below a node of a height. -/
def expansionsBelow (branchingFactor height : ℕ) : ℕ :=
  ∑ level ∈ Finset.range height, branchingFactor ^ level

theorem expansionsBelow_succ (branchingFactor height : ℕ) :
    expansionsBelow branchingFactor (height + 1) =
      branchingFactor * expansionsBelow branchingFactor height + 1 :=
  geom_sum_succ

theorem evaluationsBelow (branchingFactor height : ℕ) :
    ∑ level ∈ Finset.Icc 1 height, branchingFactor ^ level =
      branchingFactor * expansionsBelow branchingFactor height := by
  induction height with
  | zero => rfl
  | succ height ih =>
      rw [Finset.sum_Icc_succ_top (Nat.le_add_left 1 height), ih, expansionsBelow, expansionsBelow,
        Finset.sum_range_succ, Nat.mul_add, pow_succ']

/-- A search spends at most what is pending. -/
theorem searchTree_spends (fuel : ℕ) (search : Search) (session : Session) :
    session.Spends (searchTree runtime config problem fuel search session).2
      (pending config (expansionsBelow config.branchingFactor) search.frontier)
      (pending config (fun height =>
        config.branchingFactor * expansionsBelow config.branchingFactor height)
        search.frontier) := by
  induction fuel generalizing search session with
  | zero => exact (Session.Spends.refl session).mono (Nat.zero_le _) (Nat.zero_le _)
  | succ fuel ih =>
      cases hfrontier : search.frontier with
      | nil =>
          rw [searchTree, hfrontier]
          exact (Session.Spends.refl session).mono (Nat.zero_le _) (Nat.zero_le _)
      | cons current frontier =>
          rw [pending_cons, pending_cons]
          rcases searchTree_cases runtime problem config hfrontier with
            ⟨-, hskip⟩ | ⟨kept, later, hexpansion, hends | hgoes⟩
          · rw [hskip]
            exact (ih _ _).mono (Nat.le_add_left _ _) (Nat.le_add_left _ _)
          · obtain ⟨height, hheight⟩ := Nat.exists_eq_add_of_lt hexpansion.shallow
            have habove : config.maxDepth - current.depth = height + 1 := by omega
            rw [hends, habove, expansionsBelow_succ, Nat.mul_add]
            exact hexpansion.spends.mono (by omega) (by omega)
          · obtain ⟨height, hheight⟩ := Nat.exists_eq_add_of_lt hexpansion.shallow
            have habove : config.maxDepth - current.depth = height + 1 := by omega
            have hbelow : config.maxDepth - (current.depth + 1) = height := by omega
            have hrest := ih (({ search with frontier := frontier } : Search).extend config current
              kept) later
            rw [pending_extend _ hexpansion.depth, pending_extend _ hexpansion.depth, hbelow]
              at hrest
            have hfew := Nat.mul_le_mul_right
              (expansionsBelow config.branchingFactor height) hexpansion.length_le
            have hfewer := Nat.mul_le_mul_right
              (config.branchingFactor * expansionsBelow config.branchingFactor height)
              hexpansion.length_le
            rw [hgoes, habove, expansionsBelow_succ, Nat.mul_add]
            exact (hexpansion.spends.trans hrest).mono (by dsimp only; omega)
              (by dsimp only; omega)

/-! ## Nodes -/

/-- The nodes are told apart by their numbers, and each has a score. -/
structure Search.Sound (search : Search) : Prop where
  numbered : search.nodes.map ThoughtNode.number = List.range search.nodes.length
  waiting : ∀ node ∈ search.frontier, node ∈ search.nodes
  parents : ∀ number ∈ search.parents, number < search.nodes.length
  scored : ∀ node ∈ search.nodes, node.qualityScore ≠ .nan

theorem Search.Sound.number_lt {search : Search} (hsound : search.Sound) {node : ThoughtNode}
    (hmem : node ∈ search.nodes) : node.number < search.nodes.length := by
  have hnumber : node.number ∈ search.nodes.map ThoughtNode.number := List.mem_map_of_mem hmem
  rw [hsound.numbered] at hnumber
  exact List.mem_range.mp hnumber

theorem Search.Sound.extend {search : Search} (hsound : search.Sound) {current : ThoughtNode}
    (hcurrent : current ∈ search.nodes) {kept : List ThoughtNode}
    (hscored : ∀ branch ∈ kept, branch.qualityScore ≠ .nan) :
    (search.extend config current kept).Sound := by
  have hchild {node : ThoughtNode} (hmem : node ∈ kept.mapIdx fun i branch =>
      { branch with number := search.nodes.length + i }) : node.qualityScore ≠ .nan := by
    obtain ⟨index, hindex, rfl⟩ := List.mem_mapIdx.mp hmem
    have hscore : kept[index].qualityScore ≠ .nan := hscored _ (List.getElem_mem hindex)
    exact hscore
  have hnumbers : ((kept.mapIdx fun i branch =>
      { branch with number := search.nodes.length + i }).map ThoughtNode.number) =
        (List.range kept.length).map (search.nodes.length + ·) := by
    apply List.ext_getElem
    · simp
    · intro index hindex _
      simp
  rw [Search.extend]
  generalize hchildren : (kept.mapIdx fun i branch =>
    { branch with number := search.nodes.length + i }) = children at hchild hnumbers ⊢
  have hlength : children.length = kept.length := by rw [← hchildren, List.length_mapIdx]
  exact {
    numbered := by
      dsimp only
      rw [List.map_append, hsound.numbered, hnumbers, List.length_append, hlength,
        List.range_add]
    waiting := by
      dsimp only
      intro node hnode
      have hcases : node ∈ search.frontier ∨ node ∈ children := by
        split_ifs at hnode
        · exact List.mem_append.mp hnode
        · exact (List.mem_append.mp hnode).symm
      exact List.mem_append.mpr (hcases.imp_left (hsound.waiting node))
    parents := by
      dsimp only
      intro number hnumber
      rw [List.length_append]
      split_ifs at hnumber
      · exact (hsound.parents number hnumber).trans_le (Nat.le_add_right _ _)
      · rcases List.mem_cons.mp hnumber with rfl | hearlier
        · exact (hsound.number_lt hcurrent).trans_le (Nat.le_add_right _ _)
        · exact (hsound.parents number hearlier).trans_le (Nat.le_add_right _ _)
    scored := by
      dsimp only
      intro node hnode
      rcases List.mem_append.mp hnode with hearlier | hnew
      · exact hsound.scored node hearlier
      · exact hchild hnew }

theorem searchTree_sound (fuel : ℕ) {search : Search} {session : Session}
    (hsound : search.Sound) :
    (searchTree runtime config problem fuel search session).1.Sound := by
  induction fuel generalizing search session with
  | zero => exact hsound
  | succ fuel ih =>
      cases hfrontier : search.frontier with
      | nil =>
          rw [searchTree, hfrontier]
          exact hsound
      | cons current frontier =>
          have hcurrent : current ∈ search.nodes :=
            hsound.waiting current (hfrontier ▸ List.mem_cons_self)
          have hrest : ({ search with frontier := frontier } : Search).Sound :=
            ⟨hsound.numbered, fun node hnode => hsound.waiting node
              (hfrontier ▸ List.mem_cons_of_mem _ hnode), hsound.parents, hsound.scored⟩
          rcases searchTree_cases runtime problem config hfrontier with
            ⟨-, hskip⟩ | ⟨kept, later, hexpansion, hends | hgoes⟩
          · rw [hskip]
            exact ih hrest
          · rw [hends]
            exact hrest.extend hcurrent hexpansion.scored
          · rw [hgoes]
            exact ih (hrest.extend hcurrent hexpansion.scored)

theorem executions_searchTree (fuel : ℕ) (search : Search) (session : Session) :
    (searchTree runtime config problem fuel search session).2.executions =
      session.executions := by
  have hrecords := searchTree_records runtime problem config fuel search session
  generalize (searchTree runtime config problem fuel search session).2 = later at hrecords
  induction hrecords with
  | refl => rfl
  | tail _ hrecord ih =>
      obtain ⟨prompt, node, callType, rfl⟩ := hrecord
      rw [← ih]
      exact executions_generateRecorded runtime prompt node callType _

end Branches

/-! ## The solution -/

/-- What is tested is a leaf that no other exceeds, if there is a leaf. -/
def BestLeaf (config : TreeConfig) (search : Search) (before : Session)
    (result : ExecutionResult) (after : Session) : Prop :=
  (search.leaves config = [] ∧ result.generatedCode = "" ∧ result.finalResult = none ∧
    after.executions = before.executions) ∨
  ∃ best ∈ search.leaves config,
    (∀ leaf ∈ search.leaves config, Double.le leaf.qualityScore best.qualityScore = true) ∧
    result.generatedCode = best.codeSnippet ∧
    ∃ executions, after.executions = executions ++ before.executions ∧
      ∀ execution ∈ executions, execution.1 = best.codeSnippet

theorem executions_testFirstStage (executor : SandboxExecutor) (problem : Problem)
    (code : String) : ∀ execution ∈ (testFirstStage executor problem code).executions,
      execution.1 = code := by
  rw [testFirstStage]
  split_ifs
  · rw [executions_testStage]
    exact fun execution hmem => congrArg Prod.fst (List.mem_singleton.mp hmem)
  · rw [executions_testStage]
    exact fun execution hmem => congrArg Prod.fst (List.mem_singleton.mp hmem)
  · exact fun execution hmem => (List.not_mem_nil hmem).elim

theorem extractBestSolution_bestLeaf (runtime : Runtime) (problem : Problem)
    (config : TreeConfig) {search : Search} (hsound : search.Sound) (session : Session) :
    BestLeaf config search session
      (extractBestSolution runtime config problem search session).1
      (extractBestSolution runtime config problem search session).2 := by
  rw [extractBestSolution]
  dsimp only
  split
  next hnone =>
    rw [firstMaximal_eq_none] at hnone
    exact .inl ⟨hnone, rfl, rfl, rfl⟩
  next best hbest =>
    refine .inr ⟨best, firstMaximal_mem _ hbest, ?_, rfl, _, rfl, ?_⟩
    · apply firstMaximal_lowerScore _ hbest
      intro leaf hleaf
      exact hsound.scored leaf (List.mem_of_mem_filter hleaf)
    · exact executions_testFirstStage _ _ _

theorem root_sound (problem : Problem) :
    ({ nodes := [createRootNode problem], frontier := [createRootNode problem] } :
      Search).Sound where
  numbered := rfl
  waiting := fun _ hnode => hnode
  parents := fun _ hnumber => (List.not_mem_nil hnumber).elim
  scored := by
    intro node hnode
    rw [List.mem_singleton.mp hnode]
    exact Double.round_ne_nan 1

/-- The search of a problem from its root. -/
def searchProblem (runtime : Runtime) (config : TreeConfig) (problem : Problem)
    (session : Session) (fuel : ℕ) : Search × Session :=
  searchTree runtime config problem fuel
    { nodes := [createRootNode problem], frontier := [createRootNode problem] }
    { session with attributes := {} }

/-- A search ends within its bounds and tests a best leaf. -/
theorem treeOfThoughts_bounded (runtime : Runtime) (config : TreeConfig) (problem : Problem)
    (session : Session) :
    let size := subtreeSize config.branchingFactor config.maxDepth
    let run := searchProblem runtime config problem session size
    let outcome := treeOfThoughts runtime config problem session
    (∀ extra, searchProblem runtime config problem session (size + extra) = run) ∧
    run.2.recorded "branch_generation" ≤
      ∑ level ∈ Finset.range config.maxDepth, config.branchingFactor ^ level ∧
    run.2.recorded "node_evaluation" ≤
      ∑ level ∈ Finset.Icc 1 config.maxDepth, config.branchingFactor ^ level ∧
    run.2.sent.length = session.sent.length + run.2.attributes.callContext.length ∧
    run.1.Sound ∧ BestLeaf config run.1 session outcome.1 outcome.2 := by
  have hpending (measure : ℕ → ℕ) :
      pending config measure [createRootNode problem] = measure config.maxDepth := by
    rw [pending_cons]
    exact Nat.add_zero _
  have hspends := @searchTree_spends runtime problem config
    (subtreeSize config.branchingFactor config.maxDepth)
    { nodes := [createRootNode problem], frontier := [createRootNode problem] }
    { session with attributes := {} }
  rw [hpending, hpending] at hspends
  have hsound := @searchTree_sound runtime problem config
    (subtreeSize config.branchingFactor config.maxDepth) _ { session with attributes := {} }
    (root_sound problem)
  dsimp only
  refine ⟨?_, ?_, ?_, ?_, hsound, ?_⟩
  · intro extra
    exact searchTree_fuel _ extra (hpending _).le
  · exact hspends.expansions_le.trans (Nat.zero_add _).le
  · apply hspends.evaluations_le.trans
    rw [evaluationsBelow]
    exact (Nat.zero_add _).le
  · have hcomplete := hspends.complete
    exact hcomplete
  · have hbest := extractBestSolution_bestLeaf runtime problem config hsound (searchProblem runtime
      config problem session (subtreeSize config.branchingFactor config.maxDepth)).2
    have hexecutions : (searchProblem runtime config problem session
        (subtreeSize config.branchingFactor config.maxDepth)).2.executions =
          session.executions := executions_searchTree _ _ _
    rw [treeOfThoughts]
    dsimp only
    have hsame : ∀ (result : ExecutionResult) (context : List (String × ℕ))
        (stop : Option String), ((result.withContext context).stopped stop).generatedCode =
          result.generatedCode ∧ ((result.withContext context).stopped stop).finalResult =
            result.finalResult := by
      intro result context stop
      cases stop with
      | none => exact ⟨rfl, rfl⟩
      | some reason => exact ⟨rfl, rfl⟩
    rw [BestLeaf, hexecutions] at hbest
    rw [BestLeaf, (hsame _ _ _).1, (hsame _ _ _).2]
    exact hbest

end AlgorithmHarness.Strategies
