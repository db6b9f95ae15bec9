import AlgorithmHarness.Core.Json
import AlgorithmHarness.Core.Table
import AlgorithmHarness.TaskManager.Rows
import Mathlib.Algebra.GroupWithZero.Nat

/-!
# The file store

The tables of `FileStore` and its transactions.  A transaction that raises is
rolled back; its error is the `HTTPException`.  The bytes of the files are
outside the tables.
-/

namespace AlgorithmHarness.Files

open TaskManager (Instant Status)

/-- A `uuid4`. -/
abbrev FileId := ℕ

abbrev JobId := ℕ

/-- A row of `api_file_objects`. -/
structure FileObject where
  id : FileId
  userId : String
  suffix : String
  category : String
  size : ℕ := 0
  sha256 : String
  createdAt : Instant := 0
  expiresAt : Option Instant := none
  runId : Option String := none
  deleted : Bool := false
  deriving DecidableEq, Repr

/-- A row of `api_file_runs`. -/
structure FileRun where
  runId : String
  userId : String
  deleted : Bool := false
  resultFileId : Option FileId := none
  resultRevision : ℕ := 0
  resultDigest : Option String := none
  deletedRevision : Option ℕ := none
  resultContentDigest : Option String := none
  deletedContentDigest : Option String := none
  deriving DecidableEq, Repr

/-- A row of `api_file_jobs`. -/
structure FileJob where
  id : JobId
  userId : String
  fileId : FileId
  mode : String
  status : Status := .pending
  processed : ℕ := 0
  total : ℕ := 0
  updatedAt : Instant := 0
  result : Option JsonDict := none

structure FileStore where
  runs : List FileRun := []
  objects : List FileObject := []
  jobs : List FileJob := []

structure HttpException where
  statusCode : ℕ
  detail : String
  deriving DecidableEq, Repr

/-- `deleted=0 AND (expires_at IS NULL OR expires_at>now)`. -/
def FileObject.available (object : FileObject) (now : Instant) : Bool :=
  !object.deleted && object.expiresAt.all (now < ·)

/-- `status IN ('pending','running')`. -/
def FileJob.active (job : FileJob) : Bool := job.status = .pending || job.status = .running

namespace FileStore

open Table

variable (store : FileStore)

/-- `SELECT * FROM api_file_runs WHERE run_id=? AND user_id=?`. -/
def run? (runId userId : String) : Option FileRun :=
  store.runs.find? fun run => run.runId = runId && run.userId = userId

/-- `check_run`, with the row it has found. -/
def checkRun (runId userId : String) : Except HttpException FileRun :=
  match store.run? runId userId with
  | some run => if run.deleted then .error ⟨404, "Result not found"⟩ else .ok run
  | none => .error ⟨404, "Result not found"⟩

/-- The `check_run` for a file that belongs to a run. -/
def checkFileRun (object : FileObject) : Except HttpException Unit :=
  match object.runId with
  | some runId => (store.checkRun runId object.userId).map fun _ => ()
  | none => .ok ()

/-- `owned_file`. -/
def ownedFile (now : Instant) (fileId : FileId) (userId : String)
    (allowExpired : Bool := false) : Except HttpException FileObject :=
  match store.objects.find? fun object =>
      object.id = fileId && object.userId = userId && !object.deleted with
  | none => .error ⟨404, "File not found"⟩
  | some object =>
      if !allowExpired && !object.available now then .error ⟨404, "File not found"⟩
      else (store.checkFileRun object).map fun _ => object

/-- `add_file`; the table has the id as its primary key. -/
def addFile (object : FileObject) (maxUserBytes : ℕ) : Except HttpException FileStore := do
  store.checkFileRun object
  let total := ((store.objects.filter (·.userId = object.userId)).map (·.size)).sum
  if total + object.size > maxUserBytes then throw ⟨413, "User file storage limit exceeded"⟩
  if store.objects.any (·.id = object.id) then throw ⟨500, "UNIQUE constraint failed"⟩
  return { store with objects := store.objects ++ [object] }

/-- `UPDATE api_file_objects SET deleted=1 WHERE id=? AND user_id=?`. -/
def tombstone (fileId : FileId) (userId : String) : FileStore :=
  { store with
    objects := updateWhere (fun object => object.id = fileId && object.userId = userId)
      (fun object => { object with deleted := true }) store.objects }

/-! ## Snapshots -/

/-- The UPDATEs with which `activate_snapshot` moves the run on to its
candidate. -/
def setResult (runId userId : String) (fileId : FileId) (revision : ℕ) (digest : String)
    (contentDigest : Option String) (old : Option FileId) : FileStore :=
  let pointed : FileStore :=
    { store with
      runs := updateWhere (fun run => run.runId = runId && run.userId = userId)
        (fun run =>
          { run with
            resultFileId := some fileId
            resultRevision := revision
            resultDigest := some digest
            resultContentDigest := contentDigest }) store.runs
      objects := updateWhere (fun object => object.id = fileId && object.userId = userId)
        (fun object => { object with expiresAt := none }) store.objects }
  match old with
  | some previous => if previous ≠ fileId then pointed.tombstone previous userId else pointed
  | none => pointed

/-- The live file of the same revision that `activate_snapshot` finds in place,
unless it is the one to be replaced. -/
def inPlace (now : Instant) (run : FileRun) (userId : String) (revision : ℕ)
    (replaceFileId : Option FileId) : Option FileId :=
  run.resultFileId.filter fun old =>
    some old ≠ replaceFileId && run.resultRevision = revision &&
      store.objects.any fun object =>
        object.id = old && object.userId = userId && object.available now

def activateSnapshot (now : Instant) (runId userId : String) (fileId : FileId) (revision : ℕ)
    (digest : String) (replaceFileId : Option FileId) (contentDigest : Option String) :
    Except HttpException (FileStore × FileId) := do
  let run ← store.checkRun runId userId
  if run.deletedRevision.any (revision ≤ ·) then throw ⟨409, "Artifact deleted"⟩
  if contentDigest ≠ none ∧ run.deletedContentDigest = contentDigest then
    throw ⟨409, "Artifact deleted"⟩
  if run.resultRevision > revision then throw ⟨409, "Artifact revision superseded"⟩
  if run.resultRevision = revision ∧ run.resultDigest ≠ some digest then
    throw ⟨409, "Artifact revision content mismatch"⟩
  match store.inPlace now run userId revision replaceFileId with
  | some old =>
      return (if fileId ≠ old then store.tombstone fileId userId else store, old)
  | none =>
      match store.objects.find? fun object =>
          object.id = fileId && object.userId = userId && object.runId = some runId &&
            object.available now with
      | none => throw ⟨409, "Invalid artifact candidate"⟩
      | some candidate =>
          if candidate.sha256 ≠ digest ∨ candidate.category ≠ "results" then
            throw ⟨409, "Invalid artifact candidate"⟩
          return (store.setResult runId userId fileId revision digest contentDigest
            run.resultFileId, fileId)

def markFileDeleted (fileId : FileId) (userId : String) : Except HttpException FileStore :=
  if store.jobs.any fun job => job.fileId = fileId && job.active then
    .error ⟨409, "File is being imported"⟩
  else
    let marked := store.tombstone fileId userId
    .ok { marked with
      runs := updateWhere
        (fun run => run.resultFileId = some fileId && run.userId = userId &&
          run.deletedRevision.all (· < run.resultRevision))
        (fun run =>
          { run with
            deletedRevision := some run.resultRevision
            deletedContentDigest := run.resultContentDigest }) marked.runs }

def markRunDeleted (runId userId : String) : Except HttpException FileStore :=
  (store.checkRun runId userId).map fun _ =>
    { store with
      runs := updateWhere (fun run => run.runId = runId && run.userId = userId)
        (fun run => { run with deleted := true }) store.runs
      objects := updateWhere (fun object => object.runId = some runId && object.userId = userId)
        (fun object => { object with deleted := true }) store.objects }

/-! ## Cleanup -/

/-- `FILE_IMPORT_TIMEOUT_SECONDS` has passed without progress. -/
def failStaleJobs (now : Instant) (timeout : ℕ) : FileStore :=
  { store with
    jobs := updateWhere (fun job => job.active && job.updatedAt + timeout ≤ now)
      (fun job =>
        { job with
          status := .failed
          result := some (JsonDict.ofMembers
            [("status_code", .num 409), ("detail", .str "Import interrupted or timed out")])
          updatedAt := now }) store.jobs }

/-- The rows `cleanup` selects for removal. -/
def removable (now : Instant) (object : FileObject) : Bool :=
  (object.deleted || object.expiresAt.any (· ≤ now) ||
      store.runs.any fun run => some run.runId = object.runId && run.deleted) &&
    !store.jobs.any fun job => job.fileId = object.id && job.active

/-- The metadata pass of `FileService.cleanup`; a row whose file cannot be
unlinked stays for the next pass. -/
def cleanup (now : Instant) (timeout : ℕ) (unlinks : FileId → Bool) : FileStore :=
  let failed := store.failStaleJobs now timeout
  { failed with
    objects := failed.objects.filter fun object =>
      !(failed.removable now object && unlinks object.id) }

/-- The UPDATE of `FileService.discard_candidate`; a call of `cleanup` follows
it. -/
def discardCandidate (fileId : FileId) (userId : String) : FileStore :=
  { store with
    objects := updateWhere
      (fun object => object.id = fileId && object.userId = userId &&
        !store.runs.any fun run => run.resultFileId = some fileId)
      (fun object => { object with deleted := true }) store.objects }

/-! ## Import jobs -/

def createJob (now : Instant) (jobId : JobId) (fileId : FileId) (userId mode : String)
    (maxActive : ℕ) : Except HttpException FileStore := do
  match store.objects.find? fun object =>
      object.id = fileId && object.userId = userId && object.available now with
  | none => throw ⟨404, "Importable upload not found"⟩
  | some object =>
      if ¬ (object.suffix = ".json" ∨ object.suffix = ".csv") ∨ object.category ≠ "upload" then
        throw ⟨404, "Importable upload not found"⟩
      if store.jobs.any fun job => job.fileId = fileId && job.active then
        throw ⟨409, "File is already being imported"⟩
      if store.jobs.countP FileJob.active ≥ maxActive then
        throw ⟨429, "Import capacity reached"⟩
      if store.jobs.any (·.id = jobId) then throw ⟨500, "UNIQUE constraint failed"⟩
      return { store with
        jobs := store.jobs ++
          [{ id := jobId, userId := userId, fileId := fileId, mode := mode, updatedAt := now }] }

/-- An UPDATE of the status and the time of jobs. -/
def setJobStatus (now : Instant) (condition : FileJob → Bool) (status : Status) : FileStore :=
  { store with
    jobs := updateWhere condition
      (fun job => { job with status := status, updatedAt := now }) store.jobs }

def claimJob (now : Instant) (jobId : JobId) (userId : String) : FileStore :=
  store.setJobStatus now
    (fun job => job.id = jobId && job.userId = userId && job.status = .pending) .running

def pauseJob (now : Instant) (jobId : JobId) : FileStore :=
  store.setJobStatus now (fun job => job.id = jobId && job.status = .running) .paused

/-- `sync_task_status`; a resume writes `pending`. -/
def syncTaskStatus (now : Instant) (jobId : JobId) (userId : String) (status : Status)
    (expectedStatus : Option Status) : FileStore :=
  store.setJobStatus now
    (fun job => job.id = jobId && job.userId = userId && !job.status.terminal &&
      (expectedStatus = none || expectedStatus = some job.status)) status

def failJob (now : Instant) (jobId : JobId) (details : JsonDict) : FileStore :=
  { store with
    jobs := updateWhere (fun job => job.id = jobId && job.active)
      (fun job => { job with status := .failed, result := some details, updatedAt := now })
      store.jobs }

def progress (now : Instant) (jobId : JobId) (processed total : ℕ) : FileStore :=
  { store with
    jobs := updateWhere
      (fun job => job.id = jobId && (job.status = .running || job.status = .paused))
      (fun job => { job with processed := processed, total := total, updatedAt := now })
      store.jobs }

/-- The UPDATE with which `merge_dataset` completes a running job. -/
def completeJob (now : Instant) (jobId : JobId) (userId : String) (result : JsonDict) :
    FileStore :=
  { store with
    jobs := updateWhere
      (fun job => job.id = jobId && job.userId = userId && job.status = .running)
      (fun job =>
        { job with
          status := .completed
          processed := job.total
          result := some result
          updatedAt := now }) store.jobs }

end FileStore

end AlgorithmHarness.Files
