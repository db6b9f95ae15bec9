import AlgorithmHarness.Core.Grouping
import AlgorithmHarness.Core.Watermark
import Mathlib.Algebra.Order.Field.Rat
import Mathlib.Algebra.BigOperators.Group.List.Basic
import Mathlib.Data.List.Sort

/-!
# The monitoring store

`MonitorStore` keeps requests and LLM calls in two tables of the authentication
database, deletes rows by age and by count, and keeps watermarks of what it
deleted and of what it failed to capture.  Times are exact rationals; the
rounding of a difference of two floats and the rank of a percentile, a rounded
product, are parameters.  Log rows and cache snapshots are kept by the same
store but no statistics read them.
-/

namespace AlgorithmHarness.Monitoring

open AlgorithmHarness.Grouping
open AlgorithmHarness.Watermark

/-- A row of `api_monitor_requests`. -/
structure RequestRow where
  id : ℕ
  timestamp : ℚ
  method : String
  route : String
  statusCode : ℕ
  durationMs : ℚ
  userId : Option String
  deriving DecidableEq, Repr

/-- A row of `api_monitor_llm_calls`. -/
structure LlmCallRow where
  id : ℕ
  timestamp : ℚ
  succeeded : Bool
  durationMs : ℚ
  deriving DecidableEq, Repr

/-- The rows of `api_monitor_meta` the statistics read. -/
structure MonitorMeta where
  startedAt : ℚ
  prunedThrough : ℚ := 0
  captureGapThrough : ℚ := 0
  llmWindowStartedAt : ℚ
  llmWindowPrunedThrough : ℚ := 0
  deriving DecidableEq, Repr

/-- The monitoring tables; the next identifiers are those of `AUTOINCREMENT`. -/
structure Database where
  requests : List RequestRow := []
  llmCalls : List LlmCallRow := []
  monitorMeta : MonitorMeta
  nextRequestId : ℕ := 1
  nextLlmCallId : ℕ := 1

/-- A `MonitorStore` object of one process. -/
structure MonitorStore where
  retentionSeconds : ℕ := 604800
  maxRows : ℕ := 10000
  captureGapThrough : ℚ := 0
  deriving DecidableEq, Repr

/-! ## Pruning -/

/-- The identifiers of `ORDER BY timestamp DESC, id DESC LIMIT ?`. -/
def newestIds {Row : Type} (id : Row → ℕ) (time : Row → ℚ) (maxRows : ℕ) (rows : List Row) :
    List ℕ :=
  ((rows.insertionSort fun first second =>
    time second < time first ∨ time first = time second ∧ id second ≤ id first).take
      maxRows).map id

/-- What the two deletions of a prune keep, and the latest time each deleted. -/
structure Pruned (Row : Type) where
  rows : List Row
  expired : Option ℚ
  overflow : Option ℚ

/-- The deletions by age and by count both prunes make of a table. -/
def pruneTable {Row : Type} (id : Row → ℕ) (time : Row → ℚ) (cutoff : ℚ) (maxRows : ℕ)
    (rows : List Row) : Pruned Row :=
  let expired := rows.filter fun row => time row < cutoff
  let fresh := rows.filter fun row => !decide (time row < cutoff)
  let newest := newestIds id time maxRows fresh
  let overflow := fresh.filter fun row => !decide (id row ∈ newest)
  { rows := fresh.filter fun row => id row ∈ newest
    expired := latest (expired.map time)
    overflow := latest (overflow.map time) }

section Float

variable (round : ℚ → ℚ) (rank : ℕ → ℕ)

/-- `_flush_capture_gap`. -/
def flushCaptureGap (store : MonitorStore) (db : Database) : Database :=
  if store.captureGapThrough = 0 then db
  else
    { db with
      monitorMeta :=
        { db.monitorMeta with
          captureGapThrough := max db.monitorMeta.captureGapThrough store.captureGapThrough } }

/-- `_prune`. -/
def prune (store : MonitorStore) (now : ℚ) (db : Database) : Database :=
  let db := flushCaptureGap store db
  let pruned := pruneTable RequestRow.id RequestRow.timestamp
    (round (now - store.retentionSeconds)) store.maxRows db.requests
  let watermark := max (pruned.expired.getD 0) (pruned.overflow.getD 0)
  { db with
    requests := pruned.rows
    monitorMeta := { db.monitorMeta with prunedThrough := max db.monitorMeta.prunedThrough watermark } }

/-- `_prune_llm_calls`. -/
def pruneLlmCalls (store : MonitorStore) (now : ℚ) (db : Database) : Database :=
  let pruned := pruneTable LlmCallRow.id LlmCallRow.timestamp
    (round (now - store.retentionSeconds)) store.maxRows db.llmCalls
  let watermark := max (pruned.expired.getD 0) (pruned.overflow.getD 0)
  let through :=
    if pruned.expired ≠ none ∨ pruned.overflow ≠ none then
      max db.monitorMeta.llmWindowPrunedThrough watermark
    else db.monitorMeta.llmWindowPrunedThrough
  { db with
    llmCalls := pruned.rows
    monitorMeta := { db.monitorMeta with llmWindowPrunedThrough := through } }

/-! ## Recording -/

/-- A request to record; the row gets its identifier from the table. -/
structure Request where
  method : String
  route : String
  statusCode : ℕ
  durationMs : ℚ
  userId : Option String
  deriving DecidableEq, Repr

/-- The row `record_request` inserts. -/
def requestRow (now : ℚ) (request : Request) (db : Database) : RequestRow :=
  { id := db.nextRequestId
    timestamp := now
    method := ((request.method.map Char.toUpper).take 16).toString
    route := (request.route.take 256).toString
    statusCode := request.statusCode
    durationMs := request.durationMs
    userId := request.userId }

/-- `record_request`; `none` is its `ValueError`. -/
def recordRequest (store : MonitorStore) (now : ℚ) (request : Request) (db : Database) :
    Option Database :=
  if 100 ≤ request.statusCode ∧ request.statusCode ≤ 599 ∧ 0 ≤ request.durationMs then
    some (prune round store now
      { db with
        requests := db.requests ++ [requestRow now request db]
        nextRequestId := db.nextRequestId + 1 })
  else none

/-- The row `record_llm_call` inserts. -/
def llmCallRow (now : ℚ) (succeeded : Bool) (durationMs : ℚ) (db : Database) : LlmCallRow :=
  { id := db.nextLlmCallId
    timestamp := now
    succeeded := succeeded
    durationMs := durationMs }

/-- `record_llm_call`, without the cumulative counters. -/
def recordLlmCall (store : MonitorStore) (now : ℚ) (succeeded : Bool) (durationMs : ℚ)
    (db : Database) : Option Database :=
  if 0 ≤ durationMs then
    some (pruneLlmCalls round store now
      { db with
        llmCalls := db.llmCalls ++ [llmCallRow now succeeded durationMs db]
        nextLlmCallId := db.nextLlmCallId + 1 })
  else none

/-- `mark_capture_gap`: the store, and the database if it can be written. -/
def markCaptureGap (when : ℚ) (written : Bool) (store : MonitorStore) (db : Database) :
    Option (MonitorStore × Database) :=
  if 0 ≤ when then
    let store := { store with captureGapThrough := max store.captureGapThrough when }
    some (store, if written then flushCaptureGap store db else db)
  else none

/-- What a new `MonitorStore` does to an existing database. -/
def openStore (store : MonitorStore) (llmNow now : ℚ) (db : Database) : Database :=
  prune round store now (pruneLlmCalls round store llmNow db)

/-! ## Statistics -/

/-- What `_request_summary` returns. -/
structure RequestSummary where
  requestCount : ℕ
  errors : ℕ
  errorRate : Option ℚ
  avgResponseTimeMs : Option ℚ
  p95ResponseTimeMs : Option ℚ
  requestsPerSecond : ℚ

/-- `_request_summary`; `rank` is `ceil(0.95 * count)`. -/
def requestSummary (rows : List RequestRow) (windowSeconds : ℕ) : RequestSummary :=
  let durations := (rows.map RequestRow.durationMs).insertionSort fun first second =>
    first ≤ second
  let count := rows.length
  let errors := rows.countP fun row => 400 ≤ row.statusCode
  { requestCount := count
    errors := errors
    errorRate := if count = 0 then none else some (errors / count)
    avgResponseTimeMs := if count = 0 then none else some (durations.sum / count)
    p95ResponseTimeMs := if count = 0 then none else durations[rank count - 1]?
    requestsPerSecond := count / windowSeconds }

/-- One entry of `endpoints`; the shown totals are null unless the window is
complete. -/
structure EndpointStats where
  method : String
  route : String
  shown : Option RequestSummary
  retainedSample : RequestSummary

/-- What `api_stats` returns. -/
structure ApiStats where
  shown : Option RequestSummary
  windowComplete : Bool
  windowSeconds : ℕ
  retentionSeconds : ℕ
  maxRows : ℕ
  startedAt : ℚ
  prunedThrough : Option ℚ
  captureGapThrough : Option ℚ
  retainedSample : RequestSummary
  endpoints : List EndpointStats

/-- `value or None` of a watermark. -/
def orNone (watermark : ℚ) : Option ℚ := if watermark = 0 then none else some watermark

/-- The `WHERE` clause of `api_stats`. -/
def inRequestWindow (start now : ℚ) (userId : Option String) (row : RequestRow) : Bool :=
  decide (start ≤ row.timestamp) &&
    (decide (row.timestamp ≤ now) && userId.all fun userId => row.userId = some userId)

/-- `api_stats`: the pruned database and the statistics; `none` is its
`ValueError`. -/
def apiStats (store : MonitorStore) (now : ℚ) (windowSeconds : ℕ) (userId : Option String)
    (db : Database) : Option (Database × ApiStats) :=
  if windowSeconds < 1 then none
  else
    let start := round (now - windowSeconds)
    let db := prune round store now db
    let rows := db.requests.filter (inRequestWindow start now userId)
    let complete : Bool :=
      db.monitorMeta.startedAt ≤ start && db.monitorMeta.prunedThrough < start &&
        db.monitorMeta.captureGapThrough < start && windowSeconds ≤ store.retentionSeconds
    let sample := requestSummary rank rows windowSeconds
    let grouped := (collect (fun row => (row.method, row.route)) []
      (fun group row => group ++ [row]) rows).insertionSort fun first second =>
        first.1.1 < second.1.1 ∨ first.1.1 = second.1.1 ∧ first.1.2 ≤ second.1.2
    some (db,
      { shown := if complete then some sample else none
        windowComplete := complete
        windowSeconds := windowSeconds
        retentionSeconds := store.retentionSeconds
        maxRows := store.maxRows
        startedAt := db.monitorMeta.startedAt
        prunedThrough := orNone db.monitorMeta.prunedThrough
        captureGapThrough := orNone db.monitorMeta.captureGapThrough
        retainedSample := sample
        endpoints := grouped.map fun ((method, route), group) =>
          let retained := requestSummary rank group windowSeconds
          { method := method
            route := route
            shown := if complete then some retained else none
            retainedSample := retained } })

/-- The totals of `_llm_window_stats`. -/
structure LlmSample where
  totalCalls : ℕ
  successfulCalls : ℕ
  failedCalls : ℕ
  successRate : Option ℚ
  avgLatencyMs : Option ℚ

/-- What `_llm_window_stats` returns. -/
structure LlmStats where
  shown : Option LlmSample
  windowSeconds : ℕ
  windowStart : ℚ
  windowEnd : ℚ
  windowComplete : Bool
  startedAt : ℚ
  prunedThrough : Option ℚ
  retentionSeconds : ℕ
  maxRows : ℕ
  retainedSample : LlmSample

/-- The `WHERE` clause of `_llm_window_stats`. -/
def inLlmWindow (start now : ℚ) (row : LlmCallRow) : Bool :=
  decide (start ≤ row.timestamp) && decide (row.timestamp ≤ now)

def llmSample (rows : List LlmCallRow) : LlmSample :=
  let count := rows.length
  let successes := rows.countP LlmCallRow.succeeded
  { totalCalls := count
    successfulCalls := successes
    failedCalls := count - successes
    successRate := if count = 0 then none else some (successes / count)
    avgLatencyMs :=
      if count = 0 then none else some ((rows.map LlmCallRow.durationMs).sum / count) }

/-- `llm_stats(window_seconds)` with a window: `_llm_window_stats`. -/
def llmWindowStats (store : MonitorStore) (now : ℚ) (windowSeconds : ℕ) (db : Database) :
    Option (Database × LlmStats) :=
  if 1 ≤ windowSeconds ∧ windowSeconds ≤ 86400 then
    let start := round (now - windowSeconds)
    let db := pruneLlmCalls round store now db
    let sample := llmSample (db.llmCalls.filter (inLlmWindow start now))
    let complete : Bool :=
      db.monitorMeta.llmWindowStartedAt ≤ start && db.monitorMeta.llmWindowPrunedThrough < start
    some (db,
      { shown := if complete then some sample else none
        windowSeconds := windowSeconds
        windowStart := start
        windowEnd := now
        windowComplete := complete
        startedAt := db.monitorMeta.llmWindowStartedAt
        prunedThrough := orNone db.monitorMeta.llmWindowPrunedThrough
        retentionSeconds := store.retentionSeconds
        maxRows := store.maxRows
        retainedSample := sample })
  else none

end Float

end AlgorithmHarness.Monitoring
