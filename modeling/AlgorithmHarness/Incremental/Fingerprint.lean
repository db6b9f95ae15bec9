import AlgorithmHarness.Core.KeyedRows
import AlgorithmHarness.Core.Table
import AlgorithmHarness.Strategies.Prompt
import Mathlib.Data.List.Induction

/-!
# Fingerprints of problems

The fingerprint hashes the fields that are listed by hand in it.  The prompt
and the sandbox read a problem on their own, and they read more of it.
-/

namespace AlgorithmHarness.Incremental

open Harness Strategies

/-! ## `compute_problem_fingerprint` -/

mutual

/-- What `json.dumps(value, sort_keys=True)` spells. -/
def sortKeys : Value → Value
  | .list items => .list (sortItems items)
  | .dict members =>
      .dict ((sortMembers members).mergeSort fun first second => first.1 ≤ second.1)
  | value => value

def sortItems : List Value → List Value
  | [] => []
  | item :: items => sortKeys item :: sortItems items

def sortMembers : List (String × Value) → List (String × Value)
  | [] => []
  | (key, item) :: members => (key, sortKeys item) :: sortMembers members

end

/-- The spelling of a value and SHA-256, taken for injective. -/
structure Hash (Digest : Type*) where
  digest : Value → Digest
  injective : Function.Injective digest

def dumpTestCase (testCase : TestCase) : Value :=
  .dict [("input", testCase.input), ("expected_output", testCase.expectedOutput),
    ("source", .str testCase.source.word),
    ("test_case_id", (testCase.testCaseId.map Value.str).getD .null)]

def dumpJudgeConfig (config : JudgeConfig) : Value :=
  .dict [("comparison", .str config.comparison.word),
    ("float_tolerance", .float config.floatTolerance),
    ("whitespace", .str config.whitespace.word), ("output_format", .str config.outputFormat.word)]

def content (problem : Problem) : Value :=
  .dict [("problem_id", .str problem.problemId), ("description", .str problem.description),
    ("input_output_mode", .str problem.inputOutputMode.word),
    ("entry_point", .str problem.entryPoint),
    ("public_test_cases", .list (problem.publicTestCases.map dumpTestCase)),
    ("feedback_test_cases", .list (problem.feedbackTestCases.map dumpTestCase)),
    ("hidden_test_cases", .list (problem.hiddenTestCases.map dumpTestCase)),
    ("judge_config", dumpJudgeConfig problem.judgeConfig)]

variable {Digest : Type*} (hash : Hash Digest)

/-- The dictionary of a comprehension; the last problem with an id wins. -/
def computeDatasetFingerprint (print : Problem → Digest) (problems : List Problem) :
    List (String × Digest) :=
  problems.foldl
    (fun prints problem => KeyedRows.put Prod.fst (problem.problemId, print problem) prints) []

/-- `{problem.problem_id: problem for problem in problems}` -/
def problemMap (problems : List Problem) (id : String) : Option Problem :=
  problems.reverse.find? fun problem => problem.problemId = id

theorem fetch_computeDatasetFingerprint (print : Problem → Digest) (problems : List Problem)
    (id : String) :
    KeyedRows.fetch Prod.fst id (computeDatasetFingerprint print problems) =
      (problemMap problems id).map fun problem => (id, print problem) := by
  induction problems using List.reverseRecOn with
  | nil => rfl
  | append_singleton problems problem ih =>
      rw [computeDatasetFingerprint, List.foldl_append, List.foldl_cons, List.foldl_nil,
        KeyedRows.fetch_put, ← computeDatasetFingerprint, ih, problemMap, problemMap,
        List.reverse_append, List.reverse_singleton, List.singleton_append, List.find?_cons]
      by_cases hid : problem.problemId = id <;> simp [hid]

theorem problemMap_mem {problems : List Problem} {id : String} {problem : Problem}
    (hfound : problemMap problems id = some problem) :
    problem ∈ problems ∧ problem.problemId = id :=
  ⟨List.mem_reverse.mp (List.mem_of_find?_eq_some hfound), by
    simpa using List.find?_some hfound⟩

theorem problemMap_isSome {problems : List Problem} {id : String}
    (hmem : id ∈ problems.map Problem.problemId) :
    ∃ problem, problemMap problems id = some problem := by
  apply Option.isSome_iff_exists.mp
  simpa [problemMap, List.find?_isSome] using hmem

structure Changes where
  addedIds : List String
  modifiedIds : List String
  deletedIds : List String

def detectChanges [DecidableEq Digest] (current historical : List (String × Digest)) : Changes where
  addedIds := (current.map Prod.fst).filter fun id => id ∉ historical.map Prod.fst
  modifiedIds := (current.filter fun entry =>
    (KeyedRows.fetch Prod.fst entry.1 historical).any fun before => before.2 ≠ entry.2).map Prod.fst
  deletedIds := (historical.map Prod.fst).filter fun id => id ∉ current.map Prod.fst

/-- An id that is neither added nor modified keeps its entry. -/
theorem fetch_of_unchanged [DecidableEq Digest] {current historical : List (String × Digest)}
    {id : String} (hid : id ∈ current.map Prod.fst)
    (hadded : id ∉ (detectChanges current historical).addedIds)
    (hmodified : id ∉ (detectChanges current historical).modifiedIds) :
    KeyedRows.fetch Prod.fst id current = KeyedRows.fetch Prod.fst id historical := by
  have hbefore : id ∈ historical.map Prod.fst := by
    by_contra hnew
    exact hadded (List.mem_filter.mpr ⟨hid, by simpa using hnew⟩)
  cases hnow : KeyedRows.fetch Prod.fst id current with
  | none => exact absurd hid (KeyedRows.fetch_eq_none.mp hnow)
  | some entry =>
      cases hthen : KeyedRows.fetch Prod.fst id historical with
      | none => exact absurd hbefore (KeyedRows.fetch_eq_none.mp hthen)
      | some before =>
          obtain ⟨hentry, hkey⟩ := KeyedRows.fetch_mem hnow
          have hsame : before.2 = entry.2 := by
            by_contra hne
            refine hmodified (List.mem_map.mpr ⟨entry, List.mem_filter.mpr ⟨hentry, ?_⟩, hkey⟩)
            rw [hkey, hthen]
            simpa using hne
          have hkeys : entry.1 = before.1 := hkey.trans (KeyedRows.fetch_mem hthen).2.symm
          rw [Option.some.injEq]
          exact Prod.ext hkeys hsame.symm

end AlgorithmHarness.Incremental
