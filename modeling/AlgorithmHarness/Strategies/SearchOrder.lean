import AlgorithmHarness.Strategies.TreeBounds

/-!
# The order of a search

Where a prompt decides its answer and nothing stops the search, a queue and a
stack lead through the same tree: the nodes taken so far, with the whole trees
below the frontier, are always the tree below the root.
-/

namespace AlgorithmHarness.Strategies

open Harness

/-- A node without its position in the search. -/
def ThoughtNode.content (node : ThoughtNode) : ThoughtNode := { node with number := 0 }

/-! ## The tree -/

section Tree

variable (runtime : Runtime) (problem : Problem) (config : TreeConfig)
  (answer : String → LlmResponse)

def branchesOf (node : ThoughtNode) : List ThoughtNode :=
  parseBranches runtime config (answer (branchGenerationPrompt runtime.executor problem
    config.branchingFactor node.depth node.thought node.codeSnippet)).text node

def rate (branch : ThoughtNode) : ThoughtNode :=
  { branch with
    qualityScore := bounded ((parseQualityScore runtime.executor runtime.host
      (answer (evaluationPrompt runtime.executor problem branch.thought
        branch.codeSnippet)).text).getD neutralScore) }

/-- The children of a node. -/
def expand (node : ThoughtNode) : List ThoughtNode :=
  if config.maxDepth ≤ node.depth then []
  else pruneBranches config
    ((branchesOf runtime problem config answer node).map (rate runtime problem answer))

/-- A node and those below it, each with whether it has children. -/
def below : ℕ → ThoughtNode → List (ThoughtNode × Bool)
  | 0, node => [(node.content, false)]
  | height + 1, node =>
      (node.content, !(expand runtime problem config answer node).isEmpty) ::
        (expand runtime problem config answer node).flatMap (below height)

/-- The tree below a node that waits. -/
def remaining (node : ThoughtNode) : List (ThoughtNode × Bool) :=
  below runtime problem config answer (config.maxDepth - node.depth) node

end Tree

/-! ## Calls -/

section Calls

variable {runtime : Runtime} {problem : Problem} {config : TreeConfig}
  {answer : String → LlmResponse}

end Calls

/-! ## Traversals -/

/-- Whether a node of a search has children. -/
def Search.flagged (search : Search) (node : ThoughtNode) : ThoughtNode × Bool :=
  (node.content, decide (node.number ∈ search.parents))

/-- The nodes that do not wait any more. -/
def Search.settled (search : Search) : List ThoughtNode :=
  search.nodes.filter fun node => node.number ∉ search.frontier.map ThoughtNode.number

/-- A sound search whose waiting nodes are distinct and have no children yet. -/
structure Search.Traversing (search : Search) : Prop where
  sound : search.Sound
  distinct : (search.frontier.map ThoughtNode.number).Nodup
  childless : ∀ node ∈ search.frontier, node.number ∉ search.parents

namespace Search

theorem Sound.nodup {search : Search} (hsound : search.Sound) : search.nodes.Nodup :=
  List.Nodup.of_map ThoughtNode.number (hsound.numbered ▸ List.nodup_range)

variable {config : TreeConfig} {search : Search} {current : ThoughtNode}
  {kept : List ThoughtNode}

/-- The children that a node gets. -/
def children (search : Search) (kept : List ThoughtNode) : List ThoughtNode :=
  kept.mapIdx fun i branch => { branch with number := search.nodes.length + i }

theorem number_children {child : ThoughtNode} (hchild : child ∈ search.children kept) :
    search.nodes.length ≤ child.number := by
  obtain ⟨index, hindex, rfl⟩ := List.mem_mapIdx.mp hchild
  exact Nat.le_add_right _ _

theorem nodup_number_children :
    ((search.children kept).map ThoughtNode.number).Nodup := by
  have hnumbers : (search.children kept).map ThoughtNode.number =
      (List.range kept.length).map (search.nodes.length + ·) := by
    apply List.ext_getElem
    · simp [children]
    · intro index hindex _
      simp [children]
  rw [hnumbers]
  exact List.nodup_range.map fun _ _ hsame => Nat.add_left_cancel hsame

theorem frontier_extend_perm :
    (search.extend config current kept).frontier.Perm
      (search.frontier ++ search.children kept) := by
  rw [Search.extend]
  dsimp only
  split_ifs
  · exact List.Perm.refl _
  · exact List.perm_append_comm

theorem mem_parents_extend {number : ℕ} :
    number ∈ (search.extend config current kept).parents ↔
      (kept ≠ [] ∧ number = current.number) ∨ number ∈ search.parents := by
  rw [Search.extend]
  dsimp only
  by_cases hkept : kept = []
  · rw [if_pos (by simp [hkept])]
    simp [hkept]
  · rw [if_neg (by simpa using hkept), List.mem_cons]
    simp [hkept]

/-- Taking a node for its children keeps a search traversing. -/
theorem Traversing.extend (config : TreeConfig) (htraversing : search.Traversing)
    {frontier : List ThoughtNode}
    (hfrontier : search.frontier = current :: frontier)
    (hscored : ∀ branch ∈ kept, branch.qualityScore ≠ .nan) :
    (({ search with frontier := frontier } : Search).extend config current kept).Traversing := by
  obtain ⟨hsound, hdistinct, hchildless⟩ := htraversing
  rw [hfrontier] at hdistinct hchildless
  obtain ⟨hcurrentNew, hrestNodup⟩ := List.nodup_cons.mp hdistinct
  have hcurrent : current ∈ search.nodes := hsound.waiting current
    (hfrontier ▸ List.mem_cons_self)
  have hwaiting : ∀ node ∈ frontier, node ∈ search.nodes := fun node hnode =>
    hsound.waiting node (hfrontier ▸ List.mem_cons_of_mem _ hnode)
  have hrest : ({ search with frontier := frontier } : Search).Sound :=
    ⟨hsound.numbered, hwaiting, hsound.parents, hsound.scored⟩
  constructor
  · exact hrest.extend hcurrent hscored
  · rw [(frontier_extend_perm.map ThoughtNode.number).nodup_iff, List.map_append]
    refine List.nodup_append.mpr ⟨hrestNodup, nodup_number_children, ?_⟩
    intro number hearlier other hchild hsame
    obtain ⟨node, hnode, rfl⟩ := List.mem_map.mp hearlier
    obtain ⟨child, hmem, rfl⟩ := List.mem_map.mp hchild
    have hlarge := number_children hmem
    have hsmall := hsound.number_lt (hwaiting node hnode)
    dsimp only at hlarge
    omega
  · intro node hnode hparent
    rcases List.mem_append.mp (frontier_extend_perm.mem_iff.mp hnode) with hold | hchild
    · rcases mem_parents_extend.mp hparent with ⟨-, hsame⟩ | hearlier
      · exact hcurrentNew (hsame ▸ List.mem_map_of_mem hold)
      · exact hchildless node (List.mem_cons_of_mem _ hold) hearlier
    · have hlarge := number_children hchild
      rcases mem_parents_extend.mp hparent with ⟨-, hsame⟩ | hearlier
      · have hsmall := hsound.number_lt hcurrent
        dsimp only at hlarge
        omega
      · have hsmall := hsound.parents node.number hearlier
        dsimp only at hlarge
        omega

end Search

section Run

variable {runtime : Runtime} {problem : Problem} {config : TreeConfig}
  {answer : String → LlmResponse}

/-- The settled nodes, and the trees below those that wait. -/
def Search.whole (runtime : Runtime) (problem : Problem) (config : TreeConfig)
    (answer : String → LlmResponse) (search : Search) : List (ThoughtNode × Bool) :=
  search.settled.map search.flagged ++
    search.frontier.flatMap (remaining runtime problem config answer)

end Run

/-! ## Both orders -/

end AlgorithmHarness.Strategies
