import AlgorithmHarness.Core.Binary64
import AlgorithmHarness.Strategies.Loops

/-!
# The search over a tree of thoughts

`TreeOfThoughtsStrategy`: branches of a node come from one response, every
branch is rated by another, and the best leaf is tested once the search is
over.  The search has fuel; what it is given always suffices.
-/

namespace AlgorithmHarness.Strategies

open Harness Pattern
open Redaction (isSpace)

structure TreeConfig where
  branchingFactor : ℕ := 3
  maxDepth : ℕ := 4
  breadthFirst : Bool := true
  pruningThreshold : Double := Double.round (3 / 10)

/-- A node, without the links to its neighbours. -/
structure ThoughtNode where
  /-- The position among all nodes, which tells nodes of one content apart. -/
  number : ℕ := 0
  depth : ℕ
  thought : String
  codeSnippet : String
  qualityScore : Double

/-! ## Reading responses -/

/-- The mark between two branches. -/
def branchMark (host : Host) : Matcher Unit :=
  andThen (exactly "===") fun _ => andThen (many isSpace) fun _ =>
  andThen (orElse (exactly "Approach") (exactly "Variation")) fun _ =>
  andThen (many1 isSpace) fun _ => andThen (many1 fun c => (host.digit c).isSome) fun _ =>
  andThen (many isSpace) fun _ => andThen (exactly "===") fun _ => done ()

/-- `re.split`, where the mark that was found last covers `skip` more characters. -/
def splitMarked (mark : Matcher Unit) : ℕ → List Char → List (List Char)
  | _, [] => [[]]
  | skip + 1, _ :: text => splitMarked mark skip text
  | 0, c :: text =>
      match (mark (c :: text)).head? with
      | some (_, rest) => [] :: splitMarked mark (text.length - rest.length) text
      | none =>
          match splitMarked mark 0 text with
          | [] => [[c]]
          | first :: others => (c :: first) :: others

/-- Where a reasoning ends; nothing is taken. -/
def reasoningEnd : Matcher Unit := fun text =>
  if exactly "Code:" text ≠ [] || atEnd text ≠ [] then [((), text)] else []

def reasoning : Matcher (List Char) :=
  andThen (exactly "Reasoning:") fun _ => andThen (many isSpace) fun _ =>
  andThen (one fun _ => true) fun c => andThen least fun taken =>
  andThen reasoningEnd fun _ => done (c :: taken)

/-- The branch of one section, if there is code in it. -/
def parseSection (executor : SandboxExecutor) (parent : ThoughtNode) (text : List Char) :
    Option ThoughtNode :=
  if strip text = [] then none
  else
    (extractCode executor (String.ofList text) none).bind fun code =>
      if code = "" then none
      else some
        { depth := parent.depth + 1
          thought := ((find reasoning text).map fun found =>
            String.ofList (strip found)).getD "Refinement"
          codeSnippet := code
          qualityScore := Double.zero }

/-- `_parse_branches_from_response` -/
def parseBranches (runtime : Runtime) (config : TreeConfig) (response : String)
    (parent : ThoughtNode) : List ThoughtNode :=
  ((splitMarked (branchMark runtime.host) 0 response.toList).tail.filterMap
    (parseSection runtime.executor parent)).take config.branchingFactor

/-- The digits behind a point as a number. -/
def fraction (host : Host) (digits : List Char) : ℚ :=
  digits.foldr (fun c rest => (((host.digit c).getD 0 : ℕ) + rest) / 10) 0

section Score

variable (executor : SandboxExecutor) (host : Host)

/-- The forms of a score, from a boundary of a word on. -/
def score : Matcher ℚ :=
  orElse
    (andThen (optional (· = '0')) fun _ => andThen (one (· = '.')) fun _ =>
      andThen (many1 fun c => (host.digit c).isSome) fun digits =>
      andThen (wordEnd executor.isWord) fun _ => done (fraction host digits))
    (orElse
      (andThen (exactly "1.") fun _ => andThen (many1 (· = '0')) fun _ =>
        andThen (wordEnd executor.isWord) fun _ => done 1)
      (andThen (one fun c => c = '0' || c = '1') fun c =>
        andThen (wordEnd executor.isWord) fun _ => done (if c = '1' then 1 else 0)))

/-- The first score of a text; `before` says whether a word ends there. -/
def findScore : Bool → List Char → Option ℚ
  | _, [] => none
  | before, c :: text =>
      let found :=
        if before = executor.isWord c then none
        else (score executor host (c :: text)).head?.map Prod.fst
      found.or (findScore (executor.isWord c) text)

/-- `max(0.0, min(1.0, score))` -/
def bounded (score : Double) : Double :=
  let top := if Double.le score (Double.round 1) then score else Double.round 1
  if Double.le Double.zero top then top else Double.zero

/-- `_parse_quality_score`; no score is a `ValueError`. -/
def parseQualityScore (response : String) : Option Double :=
  (findScore executor host false response.toList).map fun found => bounded (Double.round found)

end Score

/-! ## Calls -/

/-- The record of a call that reached the provider. -/
def Attributes.recorded (attributes : Attributes) (iteration : IterationResult)
    (response : Option LlmResponse) (callType : String) (depth : ℕ) : Attributes :=
  { attributes with
    callIterations := attributes.callIterations ++ [iteration]
    callResponses := attributes.callResponses ++ [response]
    callContext := attributes.callContext ++ [(callType, depth)] }

/-- `_generate_recorded` -/
def generateRecorded (runtime : Runtime) (prompt : String) (node : ThoughtNode)
    (callType : String) (session : Session) : Reply × Session :=
  let call := session.generate runtime prompt
  let attributes := call.2.attributes
  let iteration := createIterationResult runtime.host (attributes.callIterations.length + 1)
    call.1.response node.codeSnippet none prompt call.1.failure none
  let attributes :=
    match call.1 with
    | .answered response =>
        attributes.recorded iteration (some response) callType node.depth
    | .failed _ =>
        attributes.recorded { iteration with usageMissing := true } none callType node.depth
    | .refused reason => { attributes with budgetStop := some reason }
  (call.1, { call.2 with attributes := attributes })

/-- `generate_branches`, where `none` is an exception of the provider. -/
def generateBranches (runtime : Runtime) (config : TreeConfig) (problem : Problem)
    (node : ThoughtNode) (session : Session) : Option (List ThoughtNode) × Session :=
  let prompt := branchGenerationPrompt runtime.executor problem config.branchingFactor
    node.depth node.thought node.codeSnippet
  match generateRecorded runtime prompt node "branch_generation" session with
  | (.answered response, session) =>
      (some (parseBranches runtime config response.text node), session)
  | (.refused _, session) => (some [], session)
  | (.failed _, session) => (none, session)

def neutralScore : Double := Double.round (1 / 2)

def evaluateNode (runtime : Runtime) (problem : Problem) (node : ThoughtNode)
    (session : Session) : Double × Session :=
  let prompt := evaluationPrompt runtime.executor problem node.thought node.codeSnippet
  match generateRecorded runtime prompt node "node_evaluation" session with
  | (.answered response, session) =>
      let parsed := parseQualityScore runtime.executor runtime.host response.text
      (bounded (parsed.getD neutralScore), session)
  | (_, session) => (bounded neutralScore, session)

/-- The branches with their scores; those behind a refused call keep theirs. -/
def evaluateBranches (runtime : Runtime) (problem : Problem) :
    List ThoughtNode → Session → List ThoughtNode × Session
  | [], session => ([], session)
  | branch :: branches, session =>
      let rated := evaluateNode runtime problem branch session
      let scored := { branch with qualityScore := rated.1 }
      if rated.2.attributes.budgetStop.isSome then (scored :: branches, rated.2)
      else
        let others := evaluateBranches runtime problem branches rated.2
        (scored :: others.1, others.2)

def pruneBranches (config : TreeConfig) (branches : List ThoughtNode) : List ThoughtNode :=
  branches.filter fun branch => Double.le config.pruningThreshold branch.qualityScore

/-! ## The search -/

structure Search where
  nodes : List ThoughtNode
  /-- The numbers of the nodes that have children. -/
  parents : List ℕ := []
  /-- The queue or the stack, with the next node first. -/
  frontier : List ThoughtNode

namespace Search

variable (config : TreeConfig) (search : Search)

/-- The branches that are kept become children and wait for their turn. -/
def extend (current : ThoughtNode) (kept : List ThoughtNode) : Search :=
  let children := kept.mapIdx fun i branch => { branch with number := search.nodes.length + i }
  { nodes := search.nodes ++ children
    parents := if children = [] then search.parents else current.number :: search.parents
    frontier :=
      if config.breadthFirst then search.frontier ++ children else children ++ search.frontier }

end Search

/-- `search_tree` -/
def searchTree (runtime : Runtime) (config : TreeConfig) (problem : Problem) :
    ℕ → Search → Session → Search × Session
  | 0, search, session => (search, session)
  | fuel + 1, search, session =>
      match search.frontier with
      | [] => (search, session)
      | current :: frontier =>
          let search := { search with frontier := frontier }
          if config.maxDepth ≤ current.depth then
            searchTree runtime config problem fuel search session
          else
            match generateBranches runtime config problem current session with
            | (none, session) => (search, session)
            | (some [], session) =>
                if session.attributes.budgetStop.isSome then (search, session)
                else searchTree runtime config problem fuel search session
            | (some (first :: others), session) =>
                let rated := evaluateBranches runtime problem (first :: others) session
                let search := search.extend config current (pruneBranches config rated.1)
                if rated.2.attributes.budgetStop.isSome then (search, rated.2)
                else searchTree runtime config problem fuel search rated.2

/-- The number of nodes below a node of this height, with it. -/
def subtreeSize (branchingFactor : ℕ) : ℕ → ℕ
  | 0 => 1
  | height + 1 => 1 + branchingFactor * subtreeSize branchingFactor height

/-- `create_root_node` -/
def createRootNode (problem : Problem) : ThoughtNode where
  depth := 0
  thought := "Analyzing problem: " ++ problem.problemId
  codeSnippet := ""
  qualityScore := Double.round 1

/-! ## The solution -/

/-- The nodes a solution is chosen from. -/
def Search.leaves (config : TreeConfig) (search : Search) : List ThoughtNode :=
  search.nodes.filter fun node =>
    (node.number ∉ search.parents || config.maxDepth ≤ node.depth) &&
      stripped node.codeSnippet ≠ ""

def lowerScore (node other : ThoughtNode) : Bool :=
  !Double.le other.qualityScore node.qualityScore

/-- `_extract_best_solution`; an exception of the sandbox is only logged. -/
def extractBestSolution (runtime : Runtime) (config : TreeConfig) (problem : Problem)
    (search : Search) (session : Session) : ExecutionResult × Session :=
  let iterations := session.attributes.callIterations
  let responses := session.attributes.callResponses
  match firstMaximal lowerScore (search.leaves config) with
  | none =>
      let category : FailureCategory :=
        if iterations.getLast?.any fun last => truthy last.llmError then .modelError
        else .codeExtractionFailed
      let result := createExecutionResult runtime problem "tree_of_thoughts" iterations none false
        responses (some category)
      ({ result with generatedCode := "" }, session)
  | some best =>
      let tested := testFirstStage runtime.executor problem best.codeSnippet
      let result := createExecutionResult runtime problem "tree_of_thoughts" iterations
        tested.sandboxResult tested.success responses none
      ({ result with generatedCode := best.codeSnippet }, session.ran tested.executions)

/-- The traces with the call each belongs to. -/
def ExecutionResult.withContext (result : ExecutionResult) (context : List (String × ℕ)) :
    ExecutionResult :=
  { result with
    llmTraces := (result.llmTraces.zip context).map (fun (trace, call) =>
        { trace with context := some call }) ++ result.llmTraces.drop context.length }

def treeOfThoughts (runtime : Runtime) (config : TreeConfig) (problem : Problem)
    (session : Session) : ExecutionResult × Session :=
  let root := createRootNode problem
  let run := searchTree runtime config problem
    (subtreeSize config.branchingFactor config.maxDepth)
    { nodes := [root], frontier := [root] } { session with attributes := {} }
  let best := extractBestSolution runtime config problem run.1 run.2
  let attributes := best.2.attributes
  ((best.1.withContext attributes.callContext).stopped attributes.budgetStop, best.2)

end AlgorithmHarness.Strategies
