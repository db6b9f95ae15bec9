import AlgorithmHarness.Core.KeyedRows
import AlgorithmHarness.Core.Transition
import AlgorithmHarness.Files.Store

/-!
# An import job

`FileService._process_job` for one job, one durable write a step: the checkpoint
file, the row of the job and the dataset of the user.  Everything else a process
holds is lost with it.
-/

namespace AlgorithmHarness.Files

open TaskManager (Instant Status)

/-- What `fail_job` stores of an exception. -/
structure Failure where
  statusCode : ℕ
  detail : Json

def Failure.details (failure : Failure) : JsonDict :=
  JsonDict.ofMembers [("status_code", .num failure.statusCode), ("detail", failure.detail)]

/-- `bad`. -/
def bad (message : String) (details : Option Json := none) : Failure where
  statusCode := 400
  detail := .obj (("message", .str message) :: (details.map (Prod.mk "errors")).toList)

/-- The `except Exception` branch. -/
def importFailed : Failure := ⟨500, .str "Import failed"⟩

/-- One job with its upload and the limits.  `Problem` is the pydantic model. -/
structure ImportSite (Problem : Type) where
  jobId : JobId
  userId : String
  mode : String
  record : FileObject
  /-- `parse_file` of the upload, whose bytes do not change. -/
  parsed : Except Failure Json
  /-- `validate_problem`, or the diagnostics `problem_error` takes from its
  exception. -/
  validateProblem : Json → Bool → Except Json Problem
  /-- `Problem.model_validate`, if it does not raise. -/
  modelValidate : Json → Option Problem
  /-- `model_dump(mode="json")`, if `json.dump` can write it: `allow_nan=False`
  refuses an infinite tolerance. -/
  modelDump : Problem → Option Json
  /-- The length of the encoded payload of a dataset. -/
  payloadLength : List Json → ℕ
  maxBytes : ℕ
  maxItems : ℕ

structure ImportCheckpoint where
  sha256 : String
  processed : ℕ
  problems : List Json
  errors : List Json

/-- The local variables of the loop over the rows. -/
structure Scan (Problem : Type) where
  data : List Json
  processed : ℕ := 0
  problems : List Problem := []
  errors : List Json := []

/-- Where a process is in `_process_job`. -/
inductive ImportPhase where
  /-- The first call of `progress` is next. -/
  | opened
  | looping
  /-- The checkpoint is written, `progress` is next. -/
  | saved (pausing : Bool)
  /-- `pause_job` is next. -/
  | pausing
  deriving DecidableEq, Repr

inductive ImportProcess (Problem : Type) where
  | claimed
  | running (scan : Scan Problem) (phase : ImportPhase)

structure ImportState (Problem : Type) where
  store : FileStore
  dataset : List Json := []
  checkpoint : Option ImportCheckpoint := none
  process : Option (ImportProcess Problem) := none

/-- `SELECT * FROM api_file_jobs WHERE id=?`. -/
def FileStore.job? (store : FileStore) (jobId : JobId) : Option FileJob :=
  store.jobs.find? (·.id = jobId)

variable {Problem : Type}

namespace ImportSite

variable (site : ImportSite Problem)

def csvSource : Bool := site.record.suffix = ".csv"

/-- The rows of the upload. -/
def rows : Except Failure (List Json) :=
  match site.parsed with
  | .error failure => .error failure
  | .ok (.arr data) =>
      if data = [] then .error (bad "Dataset must be a non-empty array")
      else if data.length > site.maxItems then .error ⟨413, .str "Too many problems"⟩
      else .ok data
  | .ok _ => .error (bad "Dataset must be a non-empty array")

/-- The process opens the upload and its checkpoint. -/
def openScan (checkpoint : Option ImportCheckpoint) : Except Failure (Scan Problem) :=
  match site.rows with
  | .error failure => .error failure
  | .ok data =>
      match checkpoint with
      | none => .ok { data := data }
      | some saved =>
          if saved.sha256 ≠ site.record.sha256 then .error (bad "Import checkpoint inputs changed")
          else
            match saved.problems.mapM site.modelValidate with
            | none => .error importFailed
            | some problems =>
                .ok { data := data, processed := saved.processed, problems := problems
                      errors := saved.errors }

/-- `problem_error`. -/
def problemError (index : ℕ) (details : Json) : Json :=
  .obj [("index", .num index), ("errors", details)]

/-- The body of the loop for one row. -/
def record? (scan : Scan Problem) (item : Json) : Scan Problem :=
  match site.validateProblem item site.csvSource with
  | .ok problem =>
      { scan with problems := scan.problems ++ [problem], processed := scan.processed + 1 }
  | .error details =>
      { scan with
        errors :=
          if scan.errors.length < 200 then scan.errors ++ [problemError scan.processed details]
          else scan.errors
        processed := scan.processed + 1 }

/-- The payload of `write_checkpoint`, unless `json.dump` raises. -/
def saved (scan : Scan Problem) : Option ImportCheckpoint :=
  (scan.problems.mapM site.modelDump).map fun problems =>
    { sha256 := site.record.sha256, processed := scan.processed, problems := problems
      errors := scan.errors }

def report (scan : Scan Problem) : List (String × Json) :=
  let invalid := scan.data.length - scan.problems.length
  [("total", .num scan.data.length), ("valid", .num scan.problems.length),
    ("invalid", .num invalid), ("errors", .arr scan.errors),
    ("errors_truncated", .bool (scan.errors.length < invalid)),
    ("file_id", .str (toString site.record.id))]

/-- `transform_validated`: the importer validates every problem again and skips
what is invalid. -/
def transformValidated (problems : List Problem) : List Problem :=
  problems.filterMap fun problem =>
    match site.modelDump problem with
    | some item => site.modelValidate item
    | none => some problem

/-- What `merge_dataset` is called with. -/
def transformed (scan : Scan Problem) : Except Failure (List Json) :=
  if scan.problems.isEmpty then
    .error (bad "All problems failed schema validation" (some (.obj (site.report scan))))
  else
    match (site.transformValidated scan.problems).mapM site.modelDump with
    | none => .error importFailed
    | some problems => .ok problems

/-- `problem["problem_id"]`. -/
def problemId (problem : Json) : String :=
  match problem.member "problem_id" with
  | .str id => id
  | _ => ""

/-- One turn of the loop of `merge_dataset`: the rows by id and the duplicates. -/
def addProblem : List Json × ℕ → Json → List Json × ℕ
  | (byId, duplicates), problem =>
      if (KeyedRows.fetch problemId (problemId problem) byId).isSome then (byId, duplicates + 1)
      else (byId ++ [problem], duplicates)

/-- `merge_dataset` for a running job: the dataset and the result it stores. -/
def mergeDataset (dataset problems : List Json) (report : List (String × Json)) :
    Except Failure (List Json × JsonDict) :=
  let old := if site.mode = "append" then dataset else []
  let start := old.foldl (fun byId problem => KeyedRows.put problemId problem byId) []
  let (byId, duplicates) := problems.foldl addProblem (start, 0)
  if site.payloadLength byId > site.maxBytes ∨ byId.length > site.maxItems then
    .error ⟨413, .str "Merged dataset exceeds limit"⟩
  else
    let counted := [("duplicates", .num duplicates),
      ("imported", .num (problems.length - duplicates)), ("dataset_total", .num byId.length)]
    .ok (byId, (JsonDict.ofMembers report).merge (JsonDict.ofMembers counted))

end ImportSite

namespace ImportState

variable (site : ImportSite Problem) (state : ImportState Problem)

def job? : Option FileJob := state.store.job? site.jobId

/-- `fail_job` in an `except` branch; the process returns. -/
def fail (now : Instant) (failure : Failure) : ImportState Problem :=
  { state with
    store := state.store.failJob now site.jobId failure.details
    process := none }

/-- `write_checkpoint` in `checkpoint`. -/
def save (now : Instant) (scan : Scan Problem) (pausing : Bool) : ImportState Problem :=
  match site.saved scan with
  | none => state.fail site now importFailed
  | some saved =>
      { state with
        checkpoint := some saved
        process := some (.running scan (.saved pausing)) }

/-- The rest of `_process_job` after the loop. -/
def conclude (now : Instant) (scan : Scan Problem) : ImportState Problem :=
  match site.transformed scan with
  | .error failure => state.fail site now failure
  | .ok problems =>
      if (state.job? site).any fun job => job.userId = site.userId && job.status = .running then
        match site.mergeDataset state.dataset problems (site.report scan) with
        | .error failure => state.fail site now failure
        | .ok (dataset, result) =>
            { state with
              store := state.store.completeJob now site.jobId site.userId result
              dataset := dataset
              process := none }
      else state.fail site now ⟨409, .str "Import job is no longer active"⟩

/-- The next step of a process; `pausing` is what `should_pause` answers if it is
asked. -/
def work (now : Instant) (pausing : Bool) : ImportProcess Problem → ImportState Problem
  | .claimed =>
      match site.openScan state.checkpoint with
      | .error failure => state.fail site now failure
      | .ok scan => { state with process := some (.running scan .opened) }
  | .running scan .opened =>
      { state with
        store := state.store.progress now site.jobId scan.processed scan.data.length
        process := some (.running scan .looping) }
  | .running scan .looping =>
      match scan.data[scan.processed]? with
      | none => if pausing then state.save site now scan true else state.conclude site now scan
      | some item =>
          if pausing then state.save site now scan true
          else
            let after := site.record? scan item
            if after.processed % 100 = 0 ∨ after.processed = scan.data.length then
              state.save site now after false
            else { state with process := some (.running after .looping) }
  | .running scan (.saved next) =>
      { state with
        store := state.store.progress now site.jobId scan.processed scan.data.length
        process := some (.running scan (if next then .pausing else .looping)) }
  | .running _ .pausing =>
      { state with store := state.store.pauseJob now site.jobId, process := none }

end ImportState

inductive ImportAction where
  /-- The job is claimed; a message that is delivered again finds it running. -/
  | start
  | work (pausing : Bool)
  | crash
  /-- The user's pause and resume, mirrored by `sync_task_status`. -/
  | pauseTask
  | resumeTask
  deriving DecidableEq, Repr

namespace ImportState

variable (site : ImportSite Problem) (state : ImportState Problem)

/-- A resume waits until the process has stopped. -/
def step : Instant × ImportAction → Option (ImportState Problem)
  | (now, .start) =>
      if state.process.isNone ∧ (state.job? site).any FileJob.active then
        some { state with
          store := state.store.claimJob now site.jobId site.userId
          process := some .claimed }
      else none
  | (now, .work pausing) => state.process.map (state.work site now pausing)
  | (_, .crash) => some { state with process := none }
  | (now, .pauseTask) =>
      if (state.job? site).any FileJob.active then
        some { state with
          store := state.store.syncTaskStatus now site.jobId site.userId .paused none }
      else none
  | (now, .resumeTask) =>
      if state.process.isNone then
        some { state with
          store := state.store.syncTaskStatus now site.jobId site.userId .pending (some .paused) }
      else none

end ImportState

end AlgorithmHarness.Files
