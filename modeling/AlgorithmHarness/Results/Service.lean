import AlgorithmHarness.Core.Calendar
import AlgorithmHarness.Core.Sql
import Mathlib.Data.List.Sort
import Mathlib.Data.String.Basic

/-!
# The stored results of evaluations

`EvaluationResultsService` lists a user's evaluations with conditions that the
database decides on the JSON columns, and computes analytics over units that it
filters after they are loaded.  The text Python gives to a JSON value that is
not a text is a parameter, and so is the text the database gives to an array or
an object.
-/

namespace AlgorithmHarness.Results

open Calendar

/-- A row of `evaluations`. -/
structure Evaluation where
  id : String
  userId : String
  runId : Option String
  status : String
  model : Option String
  strategyNames : List String
  createdAt : DateTime
  completedAt : Option DateTime

/-- A row of `evaluation_results`; `metrics` is a dictionary or null. -/
structure EvaluationResult where
  id : String
  evaluationId : String
  problemId : String
  strategyName : String
  metrics : Option (List (String × Json))

/-- A row of `problems`; `tags` is a JSON column. -/
structure Problem where
  problemId : String
  difficulty : Option String
  tags : Option Json

structure Database where
  evaluations : List Evaluation
  results : List EvaluationResult
  problems : List Problem

/-! ## The snapshot of a unit -/

/-- The fields of a domain problem that its snapshot keeps. -/
structure FrozenFields where
  tags : List String
  difficulty : String
  sourcePlatform : Json
  sourceProblemId : Json
  sourceUrl : Json
  sourceVersion : Json
  sourceMetadata : Json

/-- The frozen version of a problem; the problem is null if it was unavailable. -/
structure FrozenProblem where
  origin : String
  problem : Option FrozenFields

/-- `_problem_metadata` -/
def problemMetadata (snapshot : FrozenProblem) : List (String × Json) :=
  let field := fun read : FrozenFields → Json => (snapshot.problem.map read).getD .null
  [("schema_version", .num 1), ("origin", .str snapshot.origin),
    ("tags", .arr (((snapshot.problem.map FrozenFields.tags).getD []).map .str)),
    ("difficulty", field fun problem => .str problem.difficulty),
    ("source_platform", field FrozenFields.sourcePlatform),
    ("source_problem_id", field FrozenFields.sourceProblemId),
    ("source_url", field FrozenFields.sourceUrl),
    ("source_version", field FrozenFields.sourceVersion),
    ("source_metadata", field FrozenFields.sourceMetadata)]

/-- `outerjoin(Problem, Problem.problem_id == EvaluationResult.problem_id)` -/
def joined (db : Database) (result : EvaluationResult) : List (EvaluationResult × Option Problem) :=
  match db.problems.filter fun problem => problem.problemId = result.problemId with
  | [] => [(result, none)]
  | problems => problems.map fun problem => (result, some problem)

/-! ## Conditions on the database -/

section Database

variable (render : Json → String)

/-- The difficulty condition of `_matching_unit_exists`. -/
def difficultyCondition (difficulty : String) (pair : EvaluationResult × Option Problem) :
    Sql.Truth :=
  let metrics := pair.1.metrics.map Json.obj
  let snapshot := Sql.extract metrics "problem_snapshot"
  let hasSnapshot : Sql.Truth := some (Sql.isNotNull (Sql.extract snapshot "schema_version"))
  let stored := Sql.extract metrics "difficulty"
  Sql.either
    (Sql.both hasSnapshot
      (Sql.equalsText render (Sql.extract snapshot "difficulty") difficulty))
    (Sql.both (Sql.negate hasSnapshot)
      (Sql.either (Sql.equalsText render stored difficulty)
        (Sql.both (some !Sql.isNotNull stored)
          (Sql.equals (pair.2.bind Problem.difficulty) difficulty))))

/-- The tag condition of `_matching_unit_exists`. -/
def tagCondition (tag : String) (pair : EvaluationResult × Option Problem) : Sql.Truth :=
  let metrics := pair.1.metrics.map Json.obj
  let snapshot := Sql.extract metrics "problem_snapshot"
  let hasSnapshot : Sql.Truth := some (Sql.isNotNull (Sql.extract snapshot "schema_version"))
  Sql.either
    (Sql.both hasSnapshot (some (Sql.eachContains (Sql.extract snapshot "tags") tag)))
    (Sql.both (Sql.negate hasSnapshot)
      (some (Sql.eachContains (pair.2.bind Problem.tags) tag)))

/-- `_matching_unit_exists`; `none` is no condition. -/
def matchingUnitExists (strategy difficulty tag : Option String) :
    Option (Database → Evaluation → Bool) :=
  if strategy.isNone && difficulty.isNone && tag.isNone then none
  else some fun db evaluation =>
    let units := db.results.filter fun result =>
      result.evaluationId = evaluation.id && strategy.all (result.strategyName = ·)
    if difficulty.isNone && tag.isNone then !units.isEmpty
    else
      (units.flatMap (joined db)).any fun pair =>
        difficulty.all (fun difficulty => Sql.Holds (difficultyCondition render difficulty pair)) &&
          tag.all fun tag => Sql.Holds (tagCondition tag pair)

/-- The condition of `list_runs`. -/
def runMatches (ownerId : String) (strategy difficulty tag status : Option String) (db : Database)
    (evaluation : Evaluation) : Bool :=
  evaluation.userId = ownerId && status.all (evaluation.status = ·) &&
    (matchingUnitExists render strategy difficulty tag).all fun condition => condition db evaluation

/-- The columns of `sort`. -/
inductive SortColumn where
  | completedAt
  | createdAt
  deriving DecidableEq, Repr

def SortColumn.read : SortColumn → Evaluation → Option DateTime
  | .completedAt, evaluation => evaluation.completedAt
  | .createdAt, evaluation => some evaluation.createdAt

/-- `DESC NULLS LAST` with the identifier as tie, or `ASC NULLS FIRST`: an absent
time counts as the earliest. -/
def comesBefore (column : SortColumn) (descending : Bool) (first second : Evaluation) : Bool :=
  let earlier := fun first second : Evaluation =>
    match column.read first, column.read second with
    | none, none => decide (first.id ≤ second.id)
    | none, some _ => true
    | some _, none => false
    | some first', some second' =>
        decide (first' < second') || (decide (first' = second') && decide (first.id ≤ second.id))
  if descending then earlier second first else earlier first second

/-- `list_runs`: the page of evaluations and the total. -/
def listRuns (ownerId : String) (strategy difficulty tag status : Option String)
    (limit : ℕ) (offset : ℤ) (sort : SortColumn) (descending : Bool) (db : Database) :
    List Evaluation × ℕ :=
  let found := db.evaluations.filter (runMatches render ownerId strategy difficulty tag status db)
  ((((found.insertionSort fun first second => comesBefore sort descending first second).drop
    (max offset 0).toNat).take limit), found.length)

end Database

/-! ## Conditions on loaded rows -/

section Loaded

variable (repr : Json → String)

/-- `str(value)` -/
def str : Json → String
  | .str text => text
  | value => repr value

/-- The difficulty of the joined problem, unless it is empty. -/
def problemDifficulty (problem : Option Problem) : Json :=
  (((problem.bind Problem.difficulty).filter (· ≠ "")).map Json.str).getD .null

/-- `_effective_difficulty`; `None` is the null value. -/
def effectiveDifficulty (metrics : Option (List (String × Json))) (problem : Option Problem) :
    Json :=
  match (metrics.getD []).lookup "problem_snapshot" with
  | some (.obj snapshot) => (snapshot.lookup "difficulty").getD .null
  | _ =>
      match (metrics.getD []).lookup "difficulty" with
      | none | some .null => problemDifficulty problem
      | some difficulty => .str (str repr difficulty)

/-- `first == second` of two hashable values. -/
def sameKey : Json → Json → Bool
  | .null, .null => true
  | .bool first, .bool second => first = second
  | .bool first, .num second | .num second, .bool first => second = if first then 1 else 0
  | .num first, .num second => first = second
  | .str first, .str second => first = second
  | _, _ => false

/-- `list(dict.fromkeys(items))`; arrays and objects are not hashable. -/
def fromKeys : List Json → List Json → Except String (List Json)
  | seen, [] => .ok seen
  | _, .arr _ :: _ | _, .obj _ :: _ => .error "unhashable type"
  | seen, item :: items =>
      fromKeys (if seen.any (sameKey item) then seen else seen ++ [item]) items

/-- `value or []` -/
def orEmptyList (value : Json) : Json := if value.truthy then value else .arr []

/-- `_tag_labels` -/
def tagLabels (metrics : Option (List (String × Json))) (problem : Option Problem) :
    Except String (List Json) :=
  match (metrics.getD []).lookup "problem_snapshot" with
  | some (.obj snapshot) => do
      let items ← (orEmptyList ((snapshot.lookup "tags").getD .null)).toItems
      fromKeys [] items
  | _ => do
      let items ← (orEmptyList ((problem.bind Problem.tags).getD .null)).toItems
      return items.map fun tag => .str (str repr tag)

/-- `_resolve`: an evaluation of the user by its identifier, else by its run. -/
def resolve (ownerId key : String) (db : Database) : Except String Evaluation :=
  let owned := db.evaluations.filter fun evaluation => evaluation.userId = ownerId
  match owned.find? fun evaluation => evaluation.id = key with
  | some evaluation => .ok evaluation
  | none =>
      match owned.find? fun evaluation => evaluation.runId = some key with
      | some evaluation => .ok evaluation
      | none => .error "Evaluation not found"

/-- The test `_analytics_pairs` makes of a loaded pair. -/
def selects (difficulty tag : Option String) (pair : EvaluationResult × Option Problem) :
    Except String Bool :=
  if difficulty.all fun difficulty =>
      (effectiveDifficulty repr pair.1.metrics pair.2).isStr difficulty then
    match tag with
    | none => .ok true
    | some tag =>
        (tagLabels repr pair.1.metrics pair.2).map fun tags => tags.any fun label => label.isStr tag
  else .ok false

/-- The loop of `_analytics_pairs`. -/
def selectPairs (difficulty tag : Option String) :
    List (EvaluationResult × Option Problem) →
      Except String (List (EvaluationResult × Option Problem))
  | [] => .ok []
  | pair :: pairs => do
      let selected ← selects repr difficulty tag pair
      let rest ← selectPairs difficulty tag pairs
      return if selected then pair :: rest else rest

/-- `_analytics_pairs` -/
def analyticsPairs (ownerId : String) (runId strategy difficulty tag : Option String)
    (db : Database) : Except String (List (EvaluationResult × Option Problem)) := do
  let evaluationIds ←
    match runId with
    | some key => (resolve ownerId key db).map fun evaluation => [evaluation.id]
    | none =>
        .ok ((db.evaluations.filter fun evaluation =>
          evaluation.userId = ownerId && evaluation.status = "completed").map Evaluation.id)
  let units := db.results.filter fun result =>
    result.evaluationId ∈ evaluationIds && strategy.all (result.strategyName = ·)
  selectPairs repr difficulty tag (units.flatMap (joined db))

end Loaded

end AlgorithmHarness.Results
