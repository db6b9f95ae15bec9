import AlgorithmHarness.Files.SnapshotRegistry

/-!
# Publication across two databases

`EvaluationArtifactService` for one evaluation: the publication row of the main
database, the registry and the files of the file store, and the calls of
`publish`, `retry` and `export_results`, one transaction a step.  A process may
die between any two of them.  The row lock of `_owned` is held across steps only
while a snapshot is activated.
-/

namespace AlgorithmHarness.Files

open TaskManager (Instant)

abbrev Bytes := List UInt8

/-- What one evaluation's calls have in common: its identity, the serialisers of
`json`, the hash, the redactor and the settings of the file service. -/
structure Site where
  evaluationId : String
  owner : String
  /-- `json_bytes`. -/
  jsonBytes : Json → Bytes
  /-- `json.dumps` with sorted keys and no blanks, encoded. -/
  canonicalBytes : Json → Bytes
  sha256 : Bytes → String
  redact : Json → Json
  maxUserBytes : ℕ
  ttl : ℕ
  timeout : ℕ

/-- A row of `evaluation_results`. -/
structure ResultRow where
  strategyName : String
  problemId : String
  status : Json
  metrics : Json
  errorMessage : Json
  executionPayload : Option Json

/-- What `stage_publication` reads: the evaluation, its task and its rows in the
order of the query. -/
structure Source where
  runId : Json
  status : String
  problemIds : List String
  strategyNames : List String
  asyncTaskId : Option String
  generation : Option String
  rows : List ResultRow

inductive PublicationStatus where
  | pending
  | published
  | failed
  deriving DecidableEq, Repr

/-- A row of `evaluation_artifact_publications`. -/
structure Publication where
  revision : ℕ
  digest : String
  contentDigest : String
  snapshot : Json
  sourceTaskId : Option String
  sourceGeneration : Option String
  status : PublicationStatus := .pending
  publishedRevision : Option ℕ := none
  errorCode : Option String := none
  attempts : ℕ := 0

/-! ## Staging -/

/-- `results.setdefault(key, []).append(item)`. -/
def setdefaultAppend (key : String) (item : Json) :
    List (String × List Json) → List (String × List Json)
  | [] => [(key, [item])]
  | (found, items) :: rest =>
      if found = key then (found, items ++ [item]) :: rest
      else (found, items) :: setdefaultAppend key item rest

/-- The item of one row. -/
def ResultRow.item (row : ResultRow) : Json :=
  .obj [("problem_id", .str row.problemId), ("strategy", .str row.strategyName),
    ("status", row.status), ("metrics", row.metrics), ("error_message", row.errorMessage),
    ("execution", row.executionPayload.getD .null)]

def Source.results (source : Source) : Json :=
  .obj ((source.rows.foldl (fun results row => setdefaultAppend row.strategyName row.item results)
    []).map fun (strategy, items) => (strategy, .arr items))

/-- `{**payload, "revision": revision}`. -/
def withRevision (payload : Json) (revision : ℕ) : Json :=
  match payload with
  | .obj members =>
      .obj (members.filter (·.1 ≠ "revision") ++ [("revision", .num revision)])
  | other => other

def optionalStr : Option String → Json
  | some text => .str text
  | none => .null

namespace Site

variable (site : Site)

/-- The redacted payload of a snapshot. -/
def payload (source : Source) : Json :=
  let expected := source.problemIds.length * source.strategyNames.length
  site.redact (.obj
    [("schema_version", .num 1), ("evaluation_id", .str site.evaluationId),
      ("run_id", source.runId), ("state", .str source.status),
      ("complete", .bool (source.status = "completed" && source.rows.length = expected)),
      ("expected_units", .num expected), ("recorded_units", .num source.rows.length),
      ("execution_payload_available", .bool (source.rows.all (·.executionPayload.isSome))),
      ("results", source.results)])

/-- The digest that identifies a snapshot and its source. -/
def identity (source : Source) : String :=
  site.sha256 (site.canonicalBytes
    (.arr [site.payload source, optionalStr source.asyncTaskId, optionalStr source.generation]))

/-- The digest of the results alone. -/
def contentDigest (source : Source) : String :=
  site.sha256 (site.canonicalBytes ((site.payload source).member "results"))

/-- `hashlib.sha256(json_bytes(snapshot)).hexdigest()`. -/
def snapshotDigest (snapshot : Json) : String := site.sha256 (site.jsonBytes snapshot)

/-- `stage_publication`; `none` if there are no results. -/
def stagePublication (source : Source) (publication : Option Publication) :
    Option Publication :=
  let staged (previous : Publication) : Publication :=
    { previous with
      contentDigest := site.contentDigest source
      digest := site.identity source
      snapshot := withRevision (site.payload source) previous.revision
      sourceTaskId := source.asyncTaskId
      sourceGeneration := source.generation
      status := .pending
      errorCode := none }
  if source.rows.isEmpty then none
  else
    match publication with
    | none =>
        some (staged
          { revision := 1, digest := "", contentDigest := "", snapshot := .null,
            sourceTaskId := none, sourceGeneration := none })
    | some current =>
        if current.digest = site.identity source then some current
        else some (staged { current with revision := current.revision + 1 })

end Site

/-- `_source_current`. -/
def Publication.sourceCurrent (publication : Publication) (source : Source) : Bool :=
  publication.sourceTaskId = source.asyncTaskId &&
    publication.sourceGeneration = source.generation &&
    (publication.snapshot.member "state").isStr source.status

/-- `status == "published" and published_revision == revision`. -/
def Publication.isPublished (publication : Publication) : Bool :=
  publication.status = .published && publication.publishedRevision = some publication.revision

/-- `_deleted`. -/
def FileRun.deletedFor (registry : FileRun) (revision : ℕ) (contentDigest : String) : Bool :=
  registry.deletedRevision.any (revision ≤ ·) ||
    registry.deletedContentDigest = some contentDigest

/-- `_mark_published`. -/
def Publication.markPublished (publication : Publication) : Publication :=
  { publication with
    status := .published
    publishedRevision := some publication.revision
    errorCode := none }

/-- The `error_code` of an exception; a failed constraint is none of the store's
`HTTPException`s. -/
def failureCode (error : HttpException) : String :=
  if error.statusCode = 500 then "storage_error"
  else if error.statusCode = 413 then "storage_limit"
  else if error.detail = "Artifact deleted" then "artifact_deleted"
  else if error.detail = "Artifact unavailable" then "artifact_unavailable"
  else "publication_conflict"

/-! ## The calls -/

/-- Where a call of `publish` is.  `candidate` is absent where the file in place
has been verified. -/
inductive Phase where
  | begun
  | captured
  | verifying (fileId : FileId)
  | preparing (invalidFileId : Option FileId)
  | staged (candidate : FileId) (invalidFileId : Option FileId)
  | ready (candidate invalidFileId : Option FileId)
  /-- It holds the row lock and has checked the publication. -/
  | checked (candidate invalidFileId : Option FileId)
  /-- The file store has committed; the row is still uncommitted. -/
  | activated
  /-- `_fail` is left. -/
  | failing (code : String)
  deriving DecidableEq, Repr

/-- A call of `publish` with what its first transaction has captured. -/
structure Worker where
  revision : ℕ
  manual : Bool
  snapshot : Json := .null
  contentDigest : String := ""
  phase : Phase := .begun

/-- Where a call of `export_results` is. -/
inductive Export where
  /-- It has found no publication row. -/
  | unpublished
  | opened (publication : Publication)
  | located (publication : Publication) (fileId : FileId)
  | loaded (publication : Publication) (data : Bytes)

structure System where
  source : Source
  publication : Option Publication := none
  files : FileStore
  /-- The bytes at the path of a file. -/
  disk : FileId → Option Bytes := fun _ => none
  lock : Option ℕ := none
  workers : ℕ → Option Worker := fun _ => none
  exports : ℕ → Option Export := fun _ => none

inductive Action where
  /-- A commit of the evaluation, its task or its results. -/
  | setSource (source : Source)
  | stage
  /-- Staging, deletion and cleanup of files by anyone. -/
  | files (operation : SnapshotOperation)
  /-- A file on disk is lost or damaged. -/
  | setDisk (fileId : FileId) (data : Option Bytes)
  | begin (worker revision : ℕ) (manual : Bool)
  | capture (worker : ℕ)
  | readRegistry (worker : ℕ)
  | verify (worker : ℕ)
  /-- `find_snapshot_candidate` has found the file. -/
  | adopt (worker : ℕ) (fileId : FileId)
  | stageSnapshot (worker : ℕ) (fileId : FileId)
  | check (worker : ℕ)
  | lockRow (worker : ℕ)
  | activate (worker : ℕ)
  | commitPublished (worker : ℕ)
  /-- An exception out of a step. -/
  | raise (worker : ℕ) (code : String)
  | fail (worker : ℕ)
  | crash (worker : ℕ)
  /-- The two transactions of `retry`. -/
  | retryStage
  | retryReset (revision : ℕ)
  /-- `_fail` after a message that could not be sent. -/
  | recordFailure (revision : ℕ) (code : String)
  /-- The same in `TaskManager._commit`. -/
  | dispatchFailed (revision : ℕ)
  | openExport (call : ℕ)
  | locate (call : ℕ)
  | load (call : ℕ)
  | deliver (call : ℕ)

namespace System

variable (site : Site) (system : System)

/-- A `uuid4` is never one a run still points to. -/
def unused (fileId : FileId) : Bool :=
  system.files.runs.all (·.resultFileId ≠ some fileId)

/-- `store.publication`. -/
def registry : Option FileRun :=
  (system.files.checkRun site.evaluationId site.owner).toOption

/-- `read_file`. -/
def readFile (now : Instant) (fileId : FileId) : Option Bytes :=
  match system.files.ownedFile now fileId site.owner with
  | .error _ => none
  | .ok object => (system.disk fileId).filter fun data => site.sha256 data = object.sha256

/-- The file of the registry if it is the publication's. -/
def currentFile (publication : Publication) : Option FileId :=
  (system.registry site).bind fun registry =>
    if registry.deletedFor publication.revision publication.contentDigest ∨
        registry.resultRevision ≠ publication.revision ∨
        registry.resultDigest ≠ some (site.snapshotDigest publication.snapshot) then none
    else registry.resultFileId

/-- `_active_snapshot`, the bytes before they are parsed. -/
def activeSnapshot (now : Instant) (publication : Publication) : Option Bytes :=
  (system.currentFile site publication).bind fun fileId =>
    (system.readFile site now fileId).filter fun data =>
      site.sha256 data = site.snapshotDigest publication.snapshot

/-- The publication a worker may go on with. -/
def currentFor (revision : ℕ) : Option Publication :=
  system.publication.filter fun publication =>
    publication.revision = revision && publication.sourceCurrent system.source

def setWorker (worker : ℕ) (state : Option Worker) : System :=
  { system with workers := Function.update system.workers worker state }

def setExport (call : ℕ) (state : Option Export) : System :=
  { system with exports := Function.update system.exports call state }

/-- The worker moves on. -/
def moveOn (worker : ℕ) (state : Worker) (phase : Phase) : System :=
  system.setWorker worker (some { state with phase := phase })

/-- The transaction of `_fail` on the row. -/
def recordFailure (now : Instant) (revision : ℕ) (code : String) : System :=
  match system.publication with
  | some publication =>
      if publication.revision ≠ revision ∨
          (publication.isPublished ∧ (system.activeSnapshot site now publication).isSome) then
        system
      else
        { system with
          publication := some { publication with status := .failed, errorCode := some code } }
  | none => system

/-- The lock goes back with the transaction that holds it. -/
def releaseLock (worker : ℕ) : System :=
  { system with lock := system.lock.filter (· ≠ worker) }

/-- The steps of a call of `publish`. -/
def publishStep (now : Instant) (worker : ℕ) (state : Worker) : Action → Option System
  | .capture _ =>
      if state.phase = .begun ∧ system.lock = none then
        match system.currentFor state.revision with
        | none => some (system.setWorker worker none)
        | some publication =>
            let captured : System :=
              { system with
                publication := some { publication with attempts := publication.attempts + 1 } }
            some (captured.setWorker worker (some { state with
              snapshot := publication.snapshot
              contentDigest := publication.contentDigest
              phase := .captured }))
      else none
  | .readRegistry _ =>
      if state.phase = .captured then
        match system.registry site with
        | none => some (system.moveOn worker state (.failing "publication_conflict"))
        | some registry =>
            if registry.deletedFor state.revision state.contentDigest then
              some (system.moveOn worker state (.failing "artifact_deleted"))
            else
              let inPlace := registry.resultFileId.filter fun _ =>
                registry.resultRevision = state.revision &&
                  registry.resultDigest = some (site.snapshotDigest state.snapshot)
              match inPlace with
              | some fileId => some (system.moveOn worker state (.verifying fileId))
              | none => some (system.moveOn worker state (.preparing none))
      else none
  | .verify _ =>
      match state.phase with
      | .verifying fileId =>
          let verified := (system.readFile site now fileId).filter fun data =>
            site.sha256 data = site.snapshotDigest state.snapshot
          let phase : Phase :=
            if verified.isSome then .ready none none
            else if state.manual then .preparing (some fileId)
            else .failing "artifact_unavailable"
          some (system.moveOn worker state phase)
      | _ => none
  | .adopt _ fileId =>
      match state.phase with
      | .preparing invalidFileId =>
          let listed := system.files.objects.any fun object =>
            object.id = fileId && object.runId = some site.evaluationId &&
              object.userId = site.owner && object.category = "results" &&
              object.sha256 = site.snapshotDigest state.snapshot && object.available now
          if listed ∧ (system.registry site).isSome ∧ (system.readFile site now fileId).isSome then
            some (system.moveOn worker state (.staged fileId invalidFileId))
          else none
      | _ => none
  | .stageSnapshot _ fileId =>
      match state.phase with
      | .preparing invalidFileId =>
          let data := site.jsonBytes (site.redact state.snapshot)
          let object : FileObject :=
            { id := fileId
              userId := site.owner
              suffix := ".json"
              category := "results"
              size := data.length
              sha256 := site.sha256 data
              createdAt := now
              expiresAt := some (now + site.ttl)
              runId := some site.evaluationId }
          if system.unused fileId then
            match system.files.addFile object site.maxUserBytes with
            | .error error => some (system.moveOn worker state (.failing (failureCode error)))
            | .ok files =>
                let written : System :=
                  { system with
                    files := files
                    disk := Function.update system.disk fileId (some data) }
                some (written.moveOn worker state (.staged fileId invalidFileId))
          else none
      | _ => none
  | .check _ =>
      match state.phase with
      | .staged candidate invalidFileId =>
          let verified := (system.readFile site now candidate).filter fun data =>
            site.sha256 data = site.snapshotDigest state.snapshot
          let phase : Phase :=
            if verified.isSome then .ready (some candidate) invalidFileId
            else .failing "publication_conflict"
          some (system.moveOn worker state phase)
      | _ => none
  | .lockRow _ =>
      match state.phase with
      | .ready candidate invalidFileId =>
          if system.lock = none then
            match system.currentFor state.revision with
            | none => some (system.setWorker worker none)
            | some _ =>
                let locked : System := { system with lock := some worker }
                some (locked.moveOn worker state (.checked candidate invalidFileId))
          else none
      | _ => none
  | .activate _ =>
      match state.phase with
      | .checked none _ => some (system.moveOn worker state .activated)
      | .checked (some candidate) invalidFileId =>
          match system.files.activateSnapshot now site.evaluationId site.owner candidate
            state.revision (site.snapshotDigest state.snapshot) invalidFileId
            (some state.contentDigest) with
          | .error error =>
              some ((system.releaseLock worker).moveOn worker state (.failing (failureCode error)))
          | .ok (files, _) =>
              let written : System := { system with files := files }
              some (written.moveOn worker state .activated)
      | _ => none
  | .commitPublished _ =>
      match state.phase with
      | .activated =>
          let committed : System :=
            { system with publication := system.publication.map Publication.markPublished }
          some ((committed.releaseLock worker).setWorker worker none)
      | _ => none
  | .raise _ code =>
      if state.phase = .begun then none
      else some ((system.releaseLock worker).moveOn worker state (.failing code))
  | .fail _ =>
      match state.phase with
      | .failing code =>
          if system.lock = none then
            some ((system.recordFailure site now state.revision code).setWorker worker none)
          else none
      | _ => none
  | .crash _ => some ((system.releaseLock worker).setWorker worker none)
  | _ => none

/-- The steps of a call of `export_results` before the last. -/
def exportStep (now : Instant) (call : ℕ) (state : Export) : Action → Option System
  | .locate _ =>
      match state with
      | .opened publication =>
          let located := system.currentFile site publication
          some (system.setExport call (located.map (.located publication)))
      | _ => none
  | .load _ =>
      match state with
      | .located publication fileId =>
          let data := (system.readFile site now fileId).filter fun data =>
            site.sha256 data = site.snapshotDigest publication.snapshot
          some (system.setExport call (data.map (.loaded publication)))
      | _ => none
  | .deliver _ =>
      match state with
      | .unpublished | .loaded _ _ => some (system.setExport call none)
      | _ => none
  | _ => none

/-- What the call returns if its last transaction comes now.  Without a
publication it reads the file of the registry; a file the registry has moved on
from is deleted, so that its two reads are one. -/
def delivered (now : Instant) (call : ℕ) : Option Bytes :=
  match system.exports call with
  | some .unpublished =>
      ((system.registry site).bind (·.resultFileId)).bind (system.readFile site now)
  | some (.loaded publication data) =>
      match system.publication, system.registry site with
      | some current, some registry =>
          if system.lock = none ∧ current.revision = publication.revision ∧
              current.digest = publication.digest ∧ current.isPublished ∧
              current.sourceCurrent system.source ∧
              ¬registry.deletedFor publication.revision current.contentDigest ∧
              registry.resultRevision = publication.revision then
            some data
          else none
      | _, _ => none
  | _ => none

/-- The worker or the call whose step the action is. -/
def Action.worker : Action → Option ℕ
  | .capture worker | .readRegistry worker | .verify worker | .adopt worker _
  | .stageSnapshot worker _ | .check worker | .lockRow worker | .activate worker
  | .commitPublished worker | .raise worker _ | .fail worker | .crash worker => some worker
  | _ => none

def step : Instant × Action → Option System
  | (_, .setSource source) =>
      if system.lock = none then some { system with source := source } else none
  | (_, .stage) =>
      if system.lock = none then
        some { system with
          publication :=
            (site.stagePublication system.source system.publication).or system.publication }
      else none
  | (now, .files operation) =>
      match operation with
      | .activateSnapshot _ _ _ _ _ => none
      | .addFile object maxUserBytes =>
          if system.unused object.id then
            some { system with
              files := system.files.committed (system.files.addFile object maxUserBytes) }
          else none
      | operation =>
          (system.files.snapshotStep site.evaluationId site.owner site.timeout
            (now, operation)).map fun files => { system with files := files }
  | (_, .setDisk fileId data) =>
      some { system with disk := Function.update system.disk fileId data }
  | (_, .begin worker revision manual) =>
      if (system.workers worker).isNone then
        some (system.setWorker worker (some { revision := revision, manual := manual }))
      else none
  | (_, .retryStage) =>
      if system.lock = none then
        (system.registry site).bind fun registry =>
          let deleted : Bool :=
            match system.publication with
            | none => registry.deletedRevision.isSome
            | some publication =>
                registry.deletedFor publication.revision publication.contentDigest
          (site.stagePublication system.source system.publication).bind fun staged =>
            if deleted ∨ registry.deletedFor staged.revision staged.contentDigest ∨
                ¬staged.sourceCurrent system.source then none
            else some { system with publication := some staged }
      else none
  | (now, .retryReset revision) =>
      if system.lock = none then
        (system.currentFor revision).bind fun publication =>
          if publication.isPublished ∧ (system.activeSnapshot site now publication).isSome then
            some system
          else
            some { system with
              publication := some { publication with status := .pending, errorCode := none } }
      else none
  | (now, .recordFailure revision code) =>
      if system.lock = none then some (system.recordFailure site now revision code) else none
  | (_, .dispatchFailed revision) =>
      if system.lock = none then
        some { system with
          publication := system.publication.map fun publication =>
            if publication.revision = revision ∧ publication.status ≠ .published then
              { publication with status := .failed, errorCode := some "queue_unavailable" }
            else publication }
      else none
  | (_, .openExport call) =>
      match system.publication with
      | none => some (system.setExport call (some .unpublished))
      | some publication =>
          if publication.isPublished ∧ publication.sourceCurrent system.source then
            some (system.setExport call (some (.opened publication)))
          else none
  | (now, .locate call) =>
      (system.exports call).bind fun state => system.exportStep site now call state (.locate call)
  | (now, .load call) =>
      (system.exports call).bind fun state => system.exportStep site now call state (.load call)
  | (now, .deliver call) =>
      (system.exports call).bind fun state => system.exportStep site now call state (.deliver call)
  | (now, action) =>
      (Action.worker action).bind fun worker =>
        (system.workers worker).bind fun state =>
          system.publishStep site now worker state action

end System

end AlgorithmHarness.Files
