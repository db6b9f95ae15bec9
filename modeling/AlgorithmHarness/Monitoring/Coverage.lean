import AlgorithmHarness.Core.Transition
import AlgorithmHarness.Monitoring.Store

/-!
# What a complete window covers

A history is a monitoring database with the stores of its processes and,
beside them, every row ever recorded and every capture gap ever marked.  Any
process may record, prune, query, mark a gap or restart at any time the clock
shows it.  A window that is reported complete holds every row recorded in it,
and no gap the answer could know of.
-/

namespace AlgorithmHarness.Monitoring

open AlgorithmHarness.Transition
open AlgorithmHarness.Watermark

structure History where
  db : Database
  stores : ℕ → Option MonitorStore := fun _ => none
  recordedRequests : List RequestRow := []
  recordedLlmCalls : List LlmCallRow := []
  /-- The gaps whose mark reached the database. -/
  durableGaps : List ℚ := []
  /-- The gaps each process has marked since it started. -/
  heldGaps : ℕ → List ℚ := fun _ => []

inductive Event where
  | openStore (retentionSeconds maxRows : ℕ) (llmNow now : ℚ)
  | recordRequest (now : ℚ) (request : Request)
  | recordLlmCall (now : ℚ) (succeeded : Bool) (durationMs : ℚ)
  | markCaptureGap (when : ℚ) (written : Bool)
  /-- `append_log`, `query_logs` and `export_logs` prune before they do their work. -/
  | accessLogs (now : ℚ)
  | apiStats (now : ℚ) (windowSeconds : ℕ) (userId : Option String)
  | llmStats (now : ℚ) (windowSeconds : ℕ)

namespace History

/-- The database the first store creates. -/
def created (startedAt llmStartedAt : ℚ) : History :=
  { db := { monitorMeta := { startedAt := startedAt, llmWindowStartedAt := llmStartedAt } } }

/-- A prune by a process flushes the gaps it holds. -/
def pruned (history : History) (process : ℕ) (db : Database) : History :=
  { history with
    db := db
    durableGaps := history.heldGaps process ++ history.durableGaps }

variable (round : ℚ → ℚ) (rank : ℕ → ℕ)

/-- What a call to the store of a process does to the history; a call that
raises is not a step. -/
def call (history : History) (process : ℕ) (store : MonitorStore) : Event → Option History
  | .openStore .. => none
  | .recordRequest now request =>
      (recordRequest round store now request history.db).map fun db =>
        { history.pruned process db with
          recordedRequests := history.recordedRequests ++ [requestRow now request history.db] }
  | .recordLlmCall now succeeded durationMs =>
      (recordLlmCall round store now succeeded durationMs history.db).map fun db =>
        { history with
          db := db
          recordedLlmCalls :=
            history.recordedLlmCalls ++ [llmCallRow now succeeded durationMs history.db] }
  | .markCaptureGap when written =>
      (markCaptureGap when written store history.db).map fun (store, db) =>
        let held := when :: history.heldGaps process
        { history with
          db := db
          stores := Function.update history.stores process (some store)
          durableGaps := if written then held ++ history.durableGaps else history.durableGaps
          heldGaps := Function.update history.heldGaps process held }
  | .accessLogs now => some (history.pruned process (prune round store now history.db))
  | .apiStats now windowSeconds userId =>
      (apiStats round rank store now windowSeconds userId history.db).map fun answer =>
        history.pruned process answer.1
  | .llmStats now windowSeconds =>
      (llmWindowStats round store now windowSeconds history.db).map fun answer =>
        { history with db := answer.1 }

/-- An event of a process.  A store that is opened, at first or by a restart,
holds no gap of an earlier store. -/
def step (history : History) : ℕ × Event → Option History
  | (process, .openStore retentionSeconds maxRows llmNow now) =>
      if 1 ≤ retentionSeconds ∧ 1 ≤ maxRows then
        let store := { retentionSeconds := retentionSeconds, maxRows := maxRows }
        some
          { history with
            db := openStore round store llmNow now history.db
            stores := Function.update history.stores process (some store)
            heldGaps := Function.update history.heldGaps process [] }
      else none
  | (process, event) =>
      (history.stores process).bind fun store => history.call round rank process store event

end History

/-! ## Pruning keeps the law of the watermarks -/

section Prune

variable {Row : Type} {id : Row → ℕ} {time : Row → ℚ} {rows recorded : List Row}

theorem pruneTable_covered {watermark raised cutoff : ℚ} {maxRows : ℕ}
    (hcovered : Covered time rows recorded watermark) (hraised : watermark ≤ raised)
    (hexpired : ∀ last, (pruneTable id time cutoff maxRows rows).expired = some last →
      last ≤ raised)
    (hoverflow : ∀ last, (pruneTable id time cutoff maxRows rows).overflow = some last →
      last ≤ raised) :
    Covered time (pruneTable id time cutoff maxRows rows).rows recorded raised := by
  have hfresh : Covered time (rows.filter fun row => !decide (time row < cutoff)) recorded
      raised := by
    apply hcovered.prune hraised
    intro row hmem hdeleted
    have hold : decide (time row < cutoff) = true := by simpa using hdeleted
    obtain ⟨last, hlast, hle⟩ := le_latest_filter time hmem
      (fun row => decide (time row < cutoff)) hold
    exact hle.trans (hexpired last hlast)
  apply hfresh.prune le_rfl
  intro row hmem hdeleted
  have hlost : (!decide (id row ∈ newestIds id time maxRows
      (rows.filter fun row => !decide (time row < cutoff)))) = true := by rw [hdeleted]; rfl
  obtain ⟨last, hlast, hle⟩ := le_latest_filter time hmem
    (fun row => !decide (id row ∈ newestIds id time maxRows
      (rows.filter fun row => !decide (time row < cutoff)))) hlost
  exact hle.trans (hoverflow last hlast)

theorem getD_le_of_eq_some {found : Option ℚ} {last : ℚ} (hfound : found = some last) :
    last ≤ found.getD 0 := by
  rw [hfound]
  exact le_rfl

variable {round : ℚ → ℚ} {store : MonitorStore} {now : ℚ} {db : Database}

theorem prune_covered {recorded : List RequestRow}
    (hcovered : Covered RequestRow.timestamp db.requests recorded db.monitorMeta.prunedThrough) :
    Covered RequestRow.timestamp (prune round store now db).requests recorded
      (prune round store now db).monitorMeta.prunedThrough := by
  have hrequests : (flushCaptureGap store db).requests = db.requests := by
    unfold flushCaptureGap
    split_ifs <;> rfl
  have hthrough : (flushCaptureGap store db).monitorMeta.prunedThrough =
      db.monitorMeta.prunedThrough := by
    unfold flushCaptureGap
    split_ifs <;> rfl
  unfold prune
  dsimp only
  rw [hrequests, hthrough]
  apply pruneTable_covered hcovered (le_max_left _ _)
  · intro last hlast
    exact (getD_le_of_eq_some hlast).trans ((le_max_left _ _).trans (le_max_right _ _))
  · intro last hlast
    exact (getD_le_of_eq_some hlast).trans ((le_max_right _ _).trans (le_max_right _ _))

theorem pruneLlmCalls_covered {recorded : List LlmCallRow}
    (hcovered : Covered LlmCallRow.timestamp db.llmCalls recorded
      db.monitorMeta.llmWindowPrunedThrough) :
    Covered LlmCallRow.timestamp (pruneLlmCalls round store now db).llmCalls recorded
      (pruneLlmCalls round store now db).monitorMeta.llmWindowPrunedThrough := by
  unfold pruneLlmCalls
  dsimp only
  split_ifs with hdeleted
  · apply pruneTable_covered hcovered (le_max_left _ _)
    · intro last hlast
      exact (getD_le_of_eq_some hlast).trans ((le_max_left _ _).trans (le_max_right _ _))
    · intro last hlast
      exact (getD_le_of_eq_some hlast).trans ((le_max_right _ _).trans (le_max_right _ _))
  · -- Nothing was deleted, so the watermark need not move.
    rw [not_or, not_not, not_not] at hdeleted
    apply pruneTable_covered hcovered le_rfl
    · intro last hlast
      cases hdeleted.1.symm.trans hlast
    · intro last hlast
      cases hdeleted.2.symm.trans hlast

end Prune

/-! ## Gaps -/

section Gaps

variable {round : ℚ → ℚ} {store : MonitorStore} {now : ℚ} {db : Database}

/-- A flush takes the watermark of the database to that of the store. -/
theorem flushCaptureGap_through (hnonneg : 0 ≤ db.monitorMeta.captureGapThrough) :
    (flushCaptureGap store db).monitorMeta.captureGapThrough =
        max db.monitorMeta.captureGapThrough store.captureGapThrough := by
  unfold flushCaptureGap
  split_ifs with hzero
  · rw [hzero, max_eq_left hnonneg]
  · rfl

theorem prune_through (round : ℚ → ℚ) (store : MonitorStore) (now : ℚ)
    (hnonneg : 0 ≤ db.monitorMeta.captureGapThrough) :
    (prune round store now db).monitorMeta.captureGapThrough =
      max db.monitorMeta.captureGapThrough store.captureGapThrough :=
  flushCaptureGap_through hnonneg

@[simp]
theorem flushCaptureGap_tables :
    (flushCaptureGap store db).requests = db.requests ∧
      (flushCaptureGap store db).llmCalls = db.llmCalls ∧
      (flushCaptureGap store db).monitorMeta.prunedThrough = db.monitorMeta.prunedThrough ∧
      (flushCaptureGap store db).monitorMeta.llmWindowPrunedThrough =
        db.monitorMeta.llmWindowPrunedThrough := by
  unfold flushCaptureGap
  split_ifs <;> exact ⟨rfl, rfl, rfl, rfl⟩

@[simp]
theorem prune_llmCalls :
    (prune round store now db).llmCalls = db.llmCalls ∧
      (prune round store now db).monitorMeta.llmWindowPrunedThrough =
        db.monitorMeta.llmWindowPrunedThrough :=
  ⟨flushCaptureGap_tables.2.1, flushCaptureGap_tables.2.2.2⟩

end Gaps

namespace History

/-! ## The invariant -/

/-- The rows above the watermarks are those ever recorded, and no known gap lies
above the watermark that is to cover it. -/
structure Sound (history : History) : Prop where
  requests : Covered RequestRow.timestamp history.db.requests history.recordedRequests
    history.db.monitorMeta.prunedThrough
  llmCalls : Covered LlmCallRow.timestamp history.db.llmCalls history.recordedLlmCalls
    history.db.monitorMeta.llmWindowPrunedThrough
  nonneg : 0 ≤ history.db.monitorMeta.captureGapThrough
  durable : ∀ gap ∈ history.durableGaps, gap ≤ history.db.monitorMeta.captureGapThrough
  held : ∀ process store, history.stores process = some store →
    ∀ gap ∈ history.heldGaps process, gap ≤ store.captureGapThrough

theorem sound_created (startedAt llmStartedAt : ℚ) :
    (created startedAt llmStartedAt).Sound where
  requests := Covered.refl _ _
  llmCalls := Covered.refl _ _
  nonneg := le_rfl
  durable := nofun
  held := nofun

variable {round : ℚ → ℚ} {rank : ℕ → ℕ} {history : History} {process : ℕ}
  {store : MonitorStore}

/-- A prune of a database with the same gaps, by a store of the history. -/
theorem Sound.prune (hsound : history.Sound) (hstore : history.stores process = some store)
    {db : Database} {recorded : List RequestRow} (now : ℚ)
    (hrequests : Covered RequestRow.timestamp db.requests recorded
      db.monitorMeta.prunedThrough)
    (hllm : db.llmCalls = history.db.llmCalls)
    (hmeta : db.monitorMeta = history.db.monitorMeta) :
    Sound { history.pruned process (Monitoring.prune round store now db) with
      recordedRequests := recorded } := by
  have hnonneg : 0 ≤ db.monitorMeta.captureGapThrough := by
    rw [hmeta]
    exact hsound.nonneg
  have hthrough := prune_through round store now hnonneg
  constructor
  · exact prune_covered hrequests
  · change Covered _ (Monitoring.prune round store now db).llmCalls _
      (Monitoring.prune round store now db).monitorMeta.llmWindowPrunedThrough
    rw [prune_llmCalls.1, prune_llmCalls.2, hllm, hmeta]
    exact hsound.llmCalls
  · exact hthrough ▸ hnonneg.trans (le_max_left _ _)
  · intro gap hgap
    change gap ≤ (Monitoring.prune round store now db).monitorMeta.captureGapThrough
    rw [hthrough, hmeta]
    rcases List.mem_append.mp hgap with hheld | hdurable
    · exact (hsound.held process store hstore gap hheld).trans (le_max_right _ _)
    · exact (hsound.durable gap hdurable).trans (le_max_left _ _)
  · exact hsound.held

theorem pruneLlmCalls_tables {db : Database} {now : ℚ} :
    (pruneLlmCalls round store now db).requests = db.requests ∧
      (pruneLlmCalls round store now db).monitorMeta.prunedThrough =
        db.monitorMeta.prunedThrough ∧
      (pruneLlmCalls round store now db).monitorMeta.captureGapThrough =
        db.monitorMeta.captureGapThrough :=
  ⟨rfl, rfl, rfl⟩

/-- A prune of the calls of a database with the same requests and gaps. -/
theorem Sound.pruneLlmCalls (hsound : history.Sound) {db : Database}
    {recorded : List LlmCallRow} (now : ℚ)
    (hllm : Covered LlmCallRow.timestamp db.llmCalls recorded
      db.monitorMeta.llmWindowPrunedThrough)
    (hrequests : db.requests = history.db.requests)
    (hmeta : db.monitorMeta = history.db.monitorMeta) :
    Sound { history with
      db := Monitoring.pruneLlmCalls round store now db
      recordedLlmCalls := recorded } := by
  constructor
  · change Covered _ db.requests _ db.monitorMeta.prunedThrough
    rw [hrequests, hmeta]
    exact hsound.requests
  · exact pruneLlmCalls_covered hllm
  · change 0 ≤ db.monitorMeta.captureGapThrough
    rw [hmeta]
    exact hsound.nonneg
  · change ∀ gap ∈ history.durableGaps, gap ≤ db.monitorMeta.captureGapThrough
    rw [hmeta]
    exact hsound.durable
  · exact hsound.held

/-- A process starts with a store that holds no gap. -/
theorem Sound.openStore (hsound : history.Sound) (process retentionSeconds maxRows : ℕ)
    (llmNow now : ℚ) :
    Sound { history with
      db := Monitoring.openStore round
        { retentionSeconds := retentionSeconds, maxRows := maxRows } llmNow now history.db
      stores := Function.update history.stores process
        (some { retentionSeconds := retentionSeconds, maxRows := maxRows })
      heldGaps := Function.update history.heldGaps process [] } := by
  let store : MonitorStore := { retentionSeconds := retentionSeconds, maxRows := maxRows }
  let started : History :=
    { history with
      stores := Function.update history.stores process (some store)
      heldGaps := Function.update history.heldGaps process [] }
  have hstarted : started.Sound := by
    refine ⟨hsound.requests, hsound.llmCalls, hsound.nonneg, hsound.durable, ?_⟩
    intro other otherStore hother gap hgap
    by_cases hsame : other = process
    · rw [hsame] at hgap
      change gap ∈ Function.update history.heldGaps process [] process at hgap
      rw [Function.update_self] at hgap
      cases hgap
    · change Function.update history.stores process (some store) other = _ at hother
      change gap ∈ Function.update history.heldGaps process [] other at hgap
      rw [Function.update_of_ne hsame] at hother hgap
      exact hsound.held other otherStore hother gap hgap
  have hcalls := @Sound.pruneLlmCalls round _ store hstarted _ _ llmNow
    hstarted.llmCalls rfl rfl
  have hpruned := @Sound.prune round _ process store hcalls
    (by exact Function.update_self ..) _ _ now hcalls.requests rfl rfl
  refine ⟨hpruned.requests, hpruned.llmCalls, hpruned.nonneg, ?_, hpruned.held⟩
  intro gap hgap
  exact hpruned.durable gap (List.mem_append_right _ hgap)

theorem Sound.markCaptureGap (hsound : history.Sound)
    (hstore : history.stores process = some store) {when : ℚ} (hwhen : 0 ≤ when)
    (written : Bool) :
    let marked : MonitorStore :=
      { store with captureGapThrough := max store.captureGapThrough when }
    let held := when :: history.heldGaps process
    Sound { history with
      db := if written then flushCaptureGap marked history.db else history.db
      stores := Function.update history.stores process (some marked)
      durableGaps := if written then held ++ history.durableGaps else history.durableGaps
      heldGaps := Function.update history.heldGaps process held } := by
  intro marked held
  have hheld : ∀ gap ∈ held, gap ≤ marked.captureGapThrough := by
    intro gap hgap
    rcases List.mem_cons.mp hgap with rfl | hearlier
    · exact le_max_right _ _
    · exact (hsound.held process store hstore gap hearlier).trans (le_max_left _ _)
  have hstores : ∀ other otherStore,
      Function.update history.stores process (some marked) other = some otherStore →
      ∀ gap ∈ Function.update history.heldGaps process held other,
        gap ≤ otherStore.captureGapThrough := by
    intro other otherStore hother gap hgap
    by_cases hsame : other = process
    · rw [hsame, Function.update_self] at hother hgap
      exact (hheld gap hgap).trans_eq (congrArg _ (Option.some.inj hother))
    · rw [Function.update_of_ne hsame] at hother hgap
      exact hsound.held other otherStore hother gap hgap
  cases written with
  | false => exact ⟨hsound.requests, hsound.llmCalls, hsound.nonneg, hsound.durable, hstores⟩
  | true =>
      have hthrough := @flushCaptureGap_through marked _ hsound.nonneg
      have htables := @flushCaptureGap_tables marked history.db
      refine ⟨?_, ?_, ?_, ?_, hstores⟩
      · change Covered _ (flushCaptureGap marked history.db).requests _
          (flushCaptureGap marked history.db).monitorMeta.prunedThrough
        rw [htables.1, htables.2.2.1]
        exact hsound.requests
      · change Covered _ (flushCaptureGap marked history.db).llmCalls _
          (flushCaptureGap marked history.db).monitorMeta.llmWindowPrunedThrough
        rw [htables.2.1, htables.2.2.2]
        exact hsound.llmCalls
      · exact hthrough ▸ hsound.nonneg.trans (le_max_left _ _)
      · intro gap hgap
        change gap ≤ (flushCaptureGap marked history.db).monitorMeta.captureGapThrough
        rw [hthrough]
        rcases List.mem_append.mp hgap with hmarked | hdurable
        · exact (hheld gap hmarked).trans (le_max_right _ _)
        · exact (hsound.durable gap hdurable).trans (le_max_left _ _)

theorem call_sound (hsound : history.Sound) (hstore : history.stores process = some store)
    {event : Event} {next : History}
    (hcall : history.call round rank process store event = some next) : next.Sound := by
  cases event with
  | openStore => cases hcall
  | recordRequest now request =>
      obtain ⟨db, hrecord, rfl⟩ := Option.map_eq_some_iff.mp hcall
      unfold recordRequest at hrecord
      split_ifs at hrecord
      cases hrecord
      exact hsound.prune hstore now (hsound.requests.record _) rfl rfl
  | recordLlmCall now succeeded durationMs =>
      obtain ⟨db, hrecord, rfl⟩ := Option.map_eq_some_iff.mp hcall
      unfold recordLlmCall at hrecord
      split_ifs at hrecord
      cases hrecord
      exact hsound.pruneLlmCalls now (hsound.llmCalls.record _) rfl rfl
  | markCaptureGap when written =>
      obtain ⟨marked, hmark, rfl⟩ := Option.map_eq_some_iff.mp hcall
      unfold Monitoring.markCaptureGap at hmark
      by_cases hwhen : 0 ≤ when
      · rw [if_pos hwhen] at hmark
        cases hmark
        exact hsound.markCaptureGap hstore hwhen written
      · rw [if_neg hwhen] at hmark
        cases hmark
  | accessLogs now =>
      cases hcall
      exact hsound.prune hstore now hsound.requests rfl rfl
  | apiStats now windowSeconds userId =>
      obtain ⟨answer, hstats, rfl⟩ := Option.map_eq_some_iff.mp hcall
      unfold Monitoring.apiStats at hstats
      split_ifs at hstats
      cases hstats
      exact hsound.prune hstore now hsound.requests rfl rfl
  | llmStats now windowSeconds =>
      obtain ⟨answer, hstats, rfl⟩ := Option.map_eq_some_iff.mp hcall
      unfold llmWindowStats at hstats
      split_ifs at hstats
      cases hstats
      exact hsound.pruneLlmCalls now hsound.llmCalls rfl rfl

theorem sound_preserved : Preserved (step round rank) Sound := by
  rintro history ⟨process, event⟩ next hsound hstep
  have hcalled : ∀ {event : Event}, ((history.stores process).bind fun store =>
      history.call round rank process store event) = some next → next.Sound := by
    intro event hcall
    obtain ⟨store, hstore, hnext⟩ := Option.bind_eq_some_iff.mp hcall
    exact call_sound hsound hstore hnext
  cases event with
  | openStore retentionSeconds maxRows llmNow now =>
      simp only [step] at hstep
      split_ifs at hstep
      cases hstep
      exact hsound.openStore process retentionSeconds maxRows llmNow now
  | recordRequest | recordLlmCall | markCaptureGap | accessLogs | apiStats | llmStats =>
      exact hcalled hstep

end History

/-! ## Complete windows -/

section Windows

variable {round : ℚ → ℚ} {rank : ℕ → ℕ} {history : History} {process : ℕ}
  {store : MonitorStore}

/-- A request window that is reported complete counts every request recorded in
it, and lies above every gap the answer could know of. -/
theorem History.Sound.apiStats_complete (hsound : history.Sound)
    (hstore : history.stores process = some store) {now : ℚ} {windowSeconds : ℕ}
    {userId : Option String} {db : Database} {stats : ApiStats}
    (hstats : apiStats round rank store now windowSeconds userId history.db = some (db, stats))
    (hcomplete : stats.windowComplete = true) :
    let start := round (now - windowSeconds)
    db.requests.filter (inRequestWindow start now userId) =
        history.recordedRequests.filter (inRequestWindow start now userId) ∧
      stats.shown = some (requestSummary rank
        (history.recordedRequests.filter (inRequestWindow start now userId)) windowSeconds) ∧
      ∀ gap ∈ history.heldGaps process ++ history.durableGaps, gap < start := by
  intro start
  have hpruned := @Sound.prune round _ _ _ hsound hstore _ _ now hsound.requests rfl rfl
  unfold apiStats at hstats
  split_ifs at hstats
  cases hstats
  have hflag := hcomplete
  simp only [Bool.and_eq_true, decide_eq_true_eq] at hcomplete
  obtain ⟨⟨⟨-, hthrough⟩, hgaps⟩, -⟩ := hcomplete
  have hrows : (Monitoring.prune round store now history.db).requests.filter
        (inRequestWindow start now userId) =
      history.recordedRequests.filter (inRequestWindow start now userId) :=
    hpruned.requests.filter_eq hthrough fun row =>
      decide (row.timestamp ≤ now) && userId.all fun userId => row.userId = some userId
  refine ⟨hrows, (if_pos hflag).trans ?_, ?_⟩
  · change some (requestSummary rank ((Monitoring.prune round store now history.db).requests.filter
      (inRequestWindow start now userId)) windowSeconds) = _
    rw [hrows]
  · intro gap hgap
    exact (hpruned.durable gap hgap).trans_lt hgaps

/-- A window of LLM calls that is reported complete counts every call recorded
in it. -/
theorem History.Sound.llmStats_complete (hsound : history.Sound) {now : ℚ}
    {windowSeconds : ℕ} {db : Database} {stats : LlmStats}
    (hstats : llmWindowStats round store now windowSeconds history.db = some (db, stats))
    (hcomplete : stats.windowComplete = true) :
    let start := round (now - windowSeconds)
    db.llmCalls.filter (inLlmWindow start now) =
        history.recordedLlmCalls.filter (inLlmWindow start now) ∧
      stats.shown =
        some (llmSample (history.recordedLlmCalls.filter (inLlmWindow start now))) := by
  intro start
  have hpruned := @Sound.pruneLlmCalls round _ store hsound _ _ now hsound.llmCalls
    rfl rfl
  unfold llmWindowStats at hstats
  split_ifs at hstats
  cases hstats
  have hflag := hcomplete
  simp only [Bool.and_eq_true, decide_eq_true_eq] at hcomplete
  have hrows : (Monitoring.pruneLlmCalls round store now history.db).llmCalls.filter
        (inLlmWindow start now) =
      history.recordedLlmCalls.filter (inLlmWindow start now) :=
    hpruned.llmCalls.filter_eq hcomplete.2 fun row => decide (row.timestamp ≤ now)
  refine ⟨hrows, (if_pos hflag).trans ?_⟩
  change some (llmSample ((Monitoring.pruneLlmCalls round store now history.db).llmCalls.filter
    (inLlmWindow start now))) = _
  rw [hrows]

/-- After any history of records, prunes, gaps and restarts, a window the store
calls complete counts every row recorded in it. -/
theorem complete_window_counts_all (round : ℚ → ℚ) (rank : ℕ → ℕ) {startedAt llmStartedAt : ℚ}
    {schedule : List (ℕ × Event)}
    (hrun : run (History.step round rank) (History.created startedAt llmStartedAt) schedule =
      some history)
    (hstore : history.stores process = some store) (now : ℚ) (windowSeconds : ℕ) :
    (∀ userId db stats,
      apiStats round rank store now windowSeconds userId history.db = some (db, stats) →
      stats.windowComplete = true →
        db.requests.filter (inRequestWindow (round (now - windowSeconds)) now userId) =
            history.recordedRequests.filter
              (inRequestWindow (round (now - windowSeconds)) now userId) ∧
          stats.shown = some (requestSummary rank
            (history.recordedRequests.filter
              (inRequestWindow (round (now - windowSeconds)) now userId)) windowSeconds) ∧
          ∀ gap ∈ history.heldGaps process ++ history.durableGaps,
            gap < round (now - windowSeconds)) ∧
    ∀ db stats,
      llmWindowStats round store now windowSeconds history.db = some (db, stats) →
      stats.windowComplete = true →
        db.llmCalls.filter (inLlmWindow (round (now - windowSeconds)) now) =
            history.recordedLlmCalls.filter
              (inLlmWindow (round (now - windowSeconds)) now) ∧
          stats.shown = some (llmSample (history.recordedLlmCalls.filter
            (inLlmWindow (round (now - windowSeconds)) now))) := by
  have hsound : history.Sound :=
    (@History.sound_preserved round rank).run (History.sound_created _ _) hrun
  constructor
  · intro userId db stats hstats hcomplete
    exact hsound.apiStats_complete hstore hstats hcomplete
  · intro db stats hstats hcomplete
    exact hsound.llmStats_complete hstats hcomplete

/-- Out-of-order requests, one of them pruned by count, a gap and a restart. -/
def troubledDay : List (ℕ × Event) :=
  let request : Request :=
    { method := "GET", route := "/health", statusCode := 200, durationMs := 4, userId := none }
  [(0, .openStore 100 2 0 0), (0, .recordRequest 10 request), (0, .recordRequest 5 request),
    (0, .recordRequest 8 request), (0, .recordLlmCall 9 true 3), (0, .markCaptureGap 3 true),
    (0, .openStore 100 2 11 11)]

theorem complete_window_counts_all_after_troubledDay :
    ∃ history store, run (History.step id id) (History.created 0 0) troubledDay = some history ∧
      history.stores 0 = some store ∧ history.recordedRequests.length = 3 ∧
      (apiStats id id store 12 5 none history.db).any (fun answer =>
        answer.2.windowComplete) = true ∧
      ∀ db stats, apiStats id id store 12 5 none history.db = some (db, stats) →
        stats.windowComplete = true →
        db.requests.filter (inRequestWindow (12 - (5 : ℕ)) 12 none) =
          history.recordedRequests.filter (inRequestWindow (12 - (5 : ℕ)) 12 none) := by
  have hrun : (run (History.step id id) (History.created 0 0) troubledDay).isSome := by
    decide +kernel
  have hstore : (((run (History.step id id) (History.created 0 0) troubledDay).get hrun).stores
      0).isSome := by decide +kernel +revert
  refine ⟨_, _, (Option.some_get hrun).symm, (Option.some_get hstore).symm, ?_, ?_, ?_⟩
  · decide +kernel +revert
  · decide +kernel +revert
  · intro db stats hstats hcomplete
    exact ((complete_window_counts_all id id (Option.some_get hrun).symm
      (Option.some_get hstore).symm 12 5).1 none db stats hstats hcomplete).1

end Windows

end AlgorithmHarness.Monitoring
