import AlgorithmHarness.Files.ImportJob

/-!
# Resuming an import

Whatever pauses and crashes a job goes through, it ends as it would have ended
without any.  A checkpoint is the state of the loop after some of the rows, and
a process goes on from there.
-/

namespace AlgorithmHarness.Files

open TaskManager (Instant Status)
open Table
open Transition

variable {Problem : Type}

namespace ImportSite

variable {site : ImportSite Problem} {data : List Json} {count : ℕ}

/-- A problem that has been accepted and written is read back as it was. -/
def RoundTrips (site : ImportSite Problem) : Prop :=
  ∀ item csv problem written, site.validateProblem item csv = .ok problem →
    site.modelDump problem = some written → site.modelValidate written = some problem

/-! ## The loop over the rows -/

/-- The loop after `count` rows. -/
def scanned (site : ImportSite Problem) (data : List Json) : ℕ → Scan Problem
  | 0 => { data := data }
  | count + 1 =>
      match data[count]? with
      | some item => site.record? (site.scanned data count) item
      | none => site.scanned data count

def accepted (site : ImportSite Problem) (item : Json) : Option Problem :=
  (site.validateProblem item site.csvSource).toOption

/-- The diagnostics of a row that is not accepted. -/
def rejected (site : ImportSite Problem) : Json × ℕ → Option Json
  | (item, index) =>
      match site.validateProblem item site.csvSource with
      | .ok _ => none
      | .error details => some (problemError index details)

theorem scanned_succ {item : Json} (hitem : data[count]? = some item) :
    site.scanned data (count + 1) = site.record? (site.scanned data count) item := by
  rw [scanned, hitem]

theorem record?_data (scan : Scan Problem) (item : Json) :
    (site.record? scan item).data = scan.data := by
  unfold record?
  split <;> rfl

theorem record?_processed (scan : Scan Problem) (item : Json) :
    (site.record? scan item).processed = scan.processed + 1 := by
  unfold record?
  split <;> rfl

theorem scanned_data (site : ImportSite Problem) (data : List Json) (count : ℕ) :
    (site.scanned data count).data = data := by
  induction count with
  | zero => rfl
  | succ count ih =>
      rw [scanned]
      split
      · rw [record?_data, ih]
      · exact ih

theorem scanned_processed (hcount : count ≤ data.length) :
    (site.scanned data count).processed = count := by
  induction count with
  | zero => rfl
  | succ count ih =>
      rw [scanned_succ (List.getElem?_eq_getElem hcount), record?_processed, ih (by omega)]

theorem take_count (hcount : count < data.length) :
    data.take (count + 1) = data.take count ++ [data[count]] := by
  rw [List.take_add_one, List.getElem?_eq_getElem hcount]
  rfl

theorem scanned_problems (hcount : count ≤ data.length) :
    (site.scanned data count).problems = (data.take count).filterMap site.accepted := by
  induction count with
  | zero => simp [scanned]
  | succ count ih =>
      have hitem := List.getElem?_eq_getElem hcount
      rw [scanned_succ hitem, take_count hcount, List.filterMap_append, ← ih (by omega)]
      unfold record?
      split
      · next problem hvalid => simp [accepted, hvalid, Except.toOption]
      · next details hinvalid => simp [accepted, hinvalid, Except.toOption]

/-- What has been accepted is what a row holds. -/
theorem accepted_of_mem (hcount : count ≤ data.length) {problem : Problem}
    (hproblem : problem ∈ (site.scanned data count).problems) :
    ∃ item, site.validateProblem item site.csvSource = .ok problem := by
  rw [scanned_problems hcount] at hproblem
  obtain ⟨item, _, haccepted⟩ := List.mem_filterMap.mp hproblem
  refine ⟨item, ?_⟩
  unfold accepted at haccepted
  cases hvalid : site.validateProblem item site.csvSource with
  | error details =>
      rw [hvalid] at haccepted
      cases haccepted
  | ok found =>
      rw [hvalid] at haccepted
      cases haccepted
      rfl

/-! ## Checkpoints -/

theorem mapM_modelValidate {problems : List Problem} {written : List Json}
    (hround : ∀ problem ∈ problems, ∀ item, site.modelDump problem = some item →
      site.modelValidate item = some problem)
    (hwritten : problems.mapM site.modelDump = some written) :
    written.mapM site.modelValidate = some problems := by
  induction problems generalizing written with
  | nil =>
      cases hwritten
      rfl
  | cons problem problems ih =>
      rw [List.mapM_cons] at hwritten
      obtain ⟨item, hitem, hwritten⟩ := Option.bind_eq_some_iff.mp hwritten
      obtain ⟨items, hitems, hwritten⟩ := Option.bind_eq_some_iff.mp hwritten
      cases hwritten
      have hrest := ih (fun other hother => hround other (List.mem_cons_of_mem _ hother)) hitems
      rw [List.mapM_cons, hround problem List.mem_cons_self item hitem, hrest]
      rfl

theorem saved_eq_some {scan : Scan Problem} {checkpoint : ImportCheckpoint}
    (hsaved : site.saved scan = some checkpoint) :
    checkpoint.sha256 = site.record.sha256 ∧ checkpoint.processed = scan.processed ∧
      checkpoint.errors = scan.errors ∧
      scan.problems.mapM site.modelDump = some checkpoint.problems := by
  obtain ⟨problems, hproblems, rfl⟩ := Option.map_eq_some_iff.mp hsaved
  exact ⟨rfl, rfl, rfl, hproblems⟩

/-- A process goes on where the checkpoint was written. -/
theorem openScan_saved (hround : site.RoundTrips) (hrows : site.rows = .ok data)
    (hcount : count ≤ data.length) {checkpoint : ImportCheckpoint}
    (hsaved : site.saved (site.scanned data count) = some checkpoint) :
    site.openScan (some checkpoint) = .ok (site.scanned data count) := by
  obtain ⟨hsha, hprocessed, herrors, hproblems⟩ := saved_eq_some hsaved
  have hread : checkpoint.problems.mapM site.modelValidate =
      some (site.scanned data count).problems := by
    refine mapM_modelValidate ?_ hproblems
    intro problem hproblem item hwritten
    obtain ⟨row, hvalid⟩ := accepted_of_mem hcount hproblem
    exact hround row _ problem item hvalid hwritten
  unfold openScan
  rw [hrows]
  dsimp only
  rw [if_neg (not_not.mpr hsha), hread]
  dsimp only
  rw [hprocessed, herrors]
  have hdata : data = (site.scanned data count).data := (site.scanned_data data count).symm
  exact congrArg (fun rows => Except.ok { site.scanned data count with data := rows }) hdata

/-- What cannot be written early cannot be written at the end. -/
theorem saved_eq_none (hcount : count ≤ data.length)
    (hunwritten : site.saved (site.scanned data count) = none) :
    site.saved (site.scanned data data.length) = none := by
  unfold saved at hunwritten ⊢
  rw [Option.map_eq_none_iff, scanned_problems hcount] at hunwritten
  rw [Option.map_eq_none_iff, scanned_problems le_rfl, List.take_length]
  conv_lhs => rw [← List.take_append_drop count data]
  rw [List.filterMap_append, List.mapM_append, hunwritten]
  rfl

/-- How an import of the upload ends, from what the dataset holds. -/
def outcome (site : ImportSite Problem) (dataset : List Json) :
    Except Failure (List Json × JsonDict) :=
  match site.rows with
  | .error failure => .error failure
  | .ok data =>
      let scan := site.scanned data data.length
      match site.saved scan with
      | none => .error importFailed
      | some _ =>
          match site.transformed scan with
          | .error failure => .error failure
          | .ok problems => site.mergeDataset dataset problems (site.report scan)

theorem outcome_of_unreadable {dataset : List Json} {failure : Failure}
    (hrows : site.rows = .error failure) : site.outcome dataset = .error failure := by
  rw [outcome, hrows]

theorem outcome_of_unwritten {dataset : List Json} (hrows : site.rows = .ok data)
    (hcount : count ≤ data.length) (hunwritten : site.saved (site.scanned data count) = none) :
    site.outcome dataset = .error importFailed := by
  rw [outcome, hrows]
  dsimp only
  rw [saved_eq_none hcount hunwritten]

theorem outcome_of_written (dataset : List Json) (hrows : site.rows = .ok data)
    {checkpoint : ImportCheckpoint}
    (hsaved : site.saved (site.scanned data data.length) = some checkpoint) :
    site.outcome dataset =
      match site.transformed (site.scanned data data.length) with
      | .error failure => .error failure
      | .ok problems =>
          site.mergeDataset dataset problems (site.report (site.scanned data data.length)) := by
  rw [outcome, hrows]
  dsimp only
  rw [hsaved]

end ImportSite

/-! ## The row of the job -/

namespace FileStore

variable {store : FileStore} {job : FileJob} {jobId : JobId}

theorem job?_id (hjob : store.job? jobId = some job) : job.id = jobId := by
  simpa using List.find?_some hjob

/-- An update of jobs that keeps their ids changes each row under its key. -/
theorem job?_updateWhere (hjob : store.job? jobId = some job) {condition : FileJob → Bool}
    {change : FileJob → FileJob} (hkept : ∀ row, (change row).id = row.id) :
    ({ store with jobs := updateWhere condition change store.jobs } : FileStore).job? jobId =
      some (if condition job then change job else job) := by
  unfold job? at hjob ⊢
  rw [find?_updateWhere]
  · rw [hjob]
    rfl
  · intro row
    rw [hkept]

end FileStore

namespace ImportState

variable {site : ImportSite Problem} {state next : ImportState Problem} {start : List Json}
  {job : FileJob} {now : Instant}

/-- How far the outcome has come, by the status of the row. -/
def JobSound (site : ImportSite Problem) (start : List Json) (job : FileJob)
    (state : ImportState Problem) : Prop :=
  match job.status with
  | .completed =>
      ∃ data result checkpoint, site.rows = .ok data ∧
        site.outcome start = .ok (state.dataset, result) ∧ job.result = some result ∧
        job.processed = data.length ∧ job.total = data.length ∧
        site.saved (site.scanned data data.length) = some checkpoint ∧
        state.checkpoint = some checkpoint
  | .failed =>
      ∃ failure, site.outcome start = .error failure ∧ job.result = some failure.details ∧
        state.dataset = start
  | .cancelled => False
  | .pending | .running | .paused => state.dataset = start

/-- The loop has come this far, and at the end its checkpoint is written. -/
structure ScanSound (site : ImportSite Problem) (job : FileJob) (scan : Scan Problem)
    (phase : ImportPhase) (checkpoint : Option ImportCheckpoint) : Prop where
  rows : site.rows = .ok scan.data
  processed : scan.processed ≤ scan.data.length
  scanned : scan = site.scanned scan.data scan.processed
  total : phase ≠ .opened → job.total = scan.data.length
  finished : scan.processed = scan.data.length →
    ∃ saved, site.saved scan = some saved ∧ checkpoint = some saved

structure Sound (site : ImportSite Problem) (start : List Json) (job : FileJob)
    (state : ImportState Problem) : Prop where
  row : state.job? site = some job
  userId : job.userId = site.userId
  outcome : JobSound site start job state
  checkpoint : ∀ saved, state.checkpoint = some saved → ∃ data count, site.rows = .ok data ∧
    count ≤ data.length ∧ site.saved (site.scanned data count) = some saved
  active : state.process ≠ none → job.status = .running ∨ job.status = .paused
  process : ∀ scan phase, state.process = some (.running scan phase) →
    ScanSound site job scan phase state.checkpoint

/-- While the job goes on the dataset is the one it has found. -/
theorem Sound.dataset (hsound : Sound site start job state) (hopen : job.status.terminal = false) :
    state.dataset = start := by
  have houtcome := hsound.outcome
  unfold JobSound at houtcome
  cases hstatus : job.status with
  | completed | failed | cancelled =>
      rw [hstatus] at hopen
      cases hopen
  | pending | running | paused =>
      rw [hstatus] at houtcome
      exact houtcome

theorem jobSound_of_open (hopen : job.status.terminal = false) (hdataset : state.dataset = start) :
    JobSound site start job state := by
  unfold JobSound
  cases hstatus : job.status with
  | completed | failed | cancelled =>
      rw [hstatus] at hopen
      cases hopen
  | pending | running | paused => exact hdataset

theorem open_of_active (hactive : job.status = .running ∨ job.status = .paused) :
    job.status.terminal = false := by
  cases hactive with
  | inl hrunning => rw [hrunning]; rfl
  | inr hpaused => rw [hpaused]; rfl

/-- A step that leaves an unfinished job unfinished and the dataset alone. -/
theorem Sound.of_open (hsound : Sound site start job state) {after : FileJob}
    (hopen : job.status.terminal = false) (hrow : next.job? site = some after)
    (huser : after.userId = job.userId) (hafter : after.status.terminal = false)
    (hdataset : next.dataset = state.dataset)
    (hcheckpoint : ∀ saved, next.checkpoint = some saved → state.checkpoint = some saved ∨
      ∃ data count, site.rows = .ok data ∧ count ≤ data.length ∧
        site.saved (site.scanned data count) = some saved)
    (hactive : next.process ≠ none → after.status = .running ∨ after.status = .paused)
    (hprocess : ∀ scan phase, next.process = some (.running scan phase) →
      ScanSound site after scan phase next.checkpoint) : Sound site start after next where
  row := hrow
  userId := huser.trans hsound.userId
  outcome := jobSound_of_open hafter (hdataset.trans (hsound.dataset hopen))
  checkpoint saved hsaved := by
    cases hcheckpoint saved hsaved with
    | inl hbefore => exact hsound.checkpoint saved hbefore
    | inr hwritten => exact hwritten
  active := hactive
  process := hprocess

/-- The process is gone; nothing else has happened. -/
theorem Sound.stop (hsound : Sound site start job state) :
    Sound site start job { state with process := none } where
  row := hsound.row
  userId := hsound.userId
  outcome := hsound.outcome
  checkpoint := hsound.checkpoint
  active hprocess := absurd rfl hprocess
  process _ _ hprocess := nomatch hprocess

/-- An exception fails the job unless it has been paused in the meantime. -/
theorem Sound.fail (hsound : Sound site start job state) {failure : Failure}
    (hprocess : state.process ≠ none)
    (hfailure : job.status = .running → site.outcome start = .error failure) (now : Instant) :
    ∃ after, Sound site start after (state.fail site now failure) := by
  have hid := FileStore.job?_id hsound.row
  have hrow : (state.fail site now failure).job? site = some _ :=
    FileStore.job?_updateWhere hsound.row fun _ => rfl
  refine ⟨_, hrow, ?_, ?_, hsound.checkpoint, fun hprocess => absurd rfl hprocess, nofun⟩
  · split_ifs <;> exact hsound.userId
  · cases hsound.active hprocess with
    | inl hrunning =>
        have hselected : (job.id = site.jobId && job.active) = true := by
          simp [hid, FileJob.active, hrunning]
        rw [if_pos hselected]
        exact ⟨failure, hfailure hrunning, rfl, hsound.dataset (by rw [hrunning]; rfl)⟩
    | inr hpaused =>
        have hother : ¬(job.id = site.jobId && job.active) = true := by
          simp [FileJob.active, hpaused]
        rw [if_neg hother]
        exact hsound.outcome

/-! ## The steps of a process -/

theorem ScanSound.of_scanned {data : List Json} {count : ℕ} {phase : ImportPhase}
    {checkpoint : Option ImportCheckpoint} (hrows : site.rows = .ok data)
    (hcount : count ≤ data.length) (htotal : phase ≠ .opened → job.total = data.length)
    (hfinished : count = data.length → ∃ saved,
      site.saved (site.scanned data count) = some saved ∧ checkpoint = some saved) :
    ScanSound site job (site.scanned data count) phase checkpoint := by
  have hdata := site.scanned_data data count
  have hprocessed : (site.scanned data count).processed = count :=
    ImportSite.scanned_processed hcount
  constructor
  · rw [hdata]
    exact hrows
  · rw [hdata, hprocessed]
    exact hcount
  · rw [hdata, hprocessed]
  · rw [hdata]
    exact htotal
  · rw [hdata, hprocessed]
    exact hfinished

/-- The loop after the next row is the loop over one row more. -/
theorem ScanSound.record? {scan : Scan Problem} {phase : ImportPhase}
    {checkpoint : Option ImportCheckpoint} (hscan : ScanSound site job scan phase checkpoint)
    {item : Json} (hitem : scan.data[scan.processed]? = some item) :
    scan.processed + 1 ≤ scan.data.length ∧
      site.record? scan item = site.scanned scan.data (scan.processed + 1) := by
  obtain ⟨hbound, _⟩ := List.getElem?_eq_some_iff.mp hitem
  refine ⟨hbound, ?_⟩
  rw [ImportSite.scanned_succ hitem, ← hscan.scanned]

theorem rows_ne_nil {data : List Json} (hrows : site.rows = .ok data) : data ≠ [] := by
  unfold ImportSite.rows at hrows
  split at hrows
  · cases hrows
  · split_ifs at hrows with hempty
    cases hrows
    exact hempty
  · cases hrows

theorem Sound.save (hsound : Sound site start job state) (hprocess : state.process ≠ none)
    {data : List Json} {count : ℕ} (hrows : site.rows = .ok data) (hcount : count ≤ data.length)
    (htotal : job.total = data.length) (now : Instant) (pausing : Bool) :
    ∃ after, Sound site start after (state.save site now (site.scanned data count) pausing) := by
  have hactive := hsound.active hprocess
  unfold ImportState.save
  split
  · next hunwritten =>
      apply hsound.fail hprocess
      exact fun _ => ImportSite.outcome_of_unwritten hrows hcount hunwritten
  · next saved hsaved =>
      refine ⟨job, hsound.of_open (open_of_active hactive) hsound.row rfl (open_of_active hactive)
        rfl ?_ (fun _ => hactive) ?_⟩
      · intro checkpoint hcheckpoint
        cases hcheckpoint
        exact .inr ⟨data, count, hrows, hcount, hsaved⟩
      · intro scan phase hrunning
        cases hrunning
        exact .of_scanned hrows hcount (fun _ => htotal) fun _ => ⟨saved, hsaved, rfl⟩

theorem Sound.openScan (hsound : Sound site start job state) (hround : site.RoundTrips)
    (hclaimed : state.process = some .claimed) (now : Instant) (pausing : Bool) :
    ∃ after, Sound site start after (state.work site now pausing .claimed) := by
  have hprocess : state.process ≠ none := by
    rw [hclaimed]
    exact nofun
  have hactive := hsound.active hprocess
  unfold ImportState.work
  cases hrows : site.rows with
  | error failure =>
      have hopened : site.openScan state.checkpoint = .error failure := by
        rw [ImportSite.openScan, hrows]
      rw [hopened]
      exact hsound.fail hprocess (fun _ => ImportSite.outcome_of_unreadable hrows) now
  | ok data =>
      have hopened : ∃ count, count ≤ data.length ∧
          site.openScan state.checkpoint = .ok (site.scanned data count) ∧
          (count = data.length → ∃ saved,
            site.saved (site.scanned data count) = some saved ∧
              state.checkpoint = some saved) := by
        cases hcheckpoint : state.checkpoint with
        | none =>
            refine ⟨0, Nat.zero_le _, ?_, ?_⟩
            · rw [ImportSite.openScan, hrows]
              rfl
            · intro hempty
              exact absurd (List.length_eq_zero_iff.mp hempty.symm) (rows_ne_nil hrows)
        | some saved =>
            obtain ⟨found, count, hfound, hcount, hsaved⟩ := hsound.checkpoint saved hcheckpoint
            cases hrows.symm.trans hfound
            exact ⟨count, hcount, ImportSite.openScan_saved hround hrows hcount hsaved,
              fun _ => ⟨saved, hsaved, rfl⟩⟩
      obtain ⟨count, hcount, hopened, hfinished⟩ := hopened
      rw [hopened]
      refine ⟨job, hsound.of_open (open_of_active hactive) hsound.row rfl (open_of_active hactive)
        rfl (fun _ => .inl) (fun _ => hactive) ?_⟩
      intro scan phase hrunning
      cases hrunning
      exact .of_scanned hrows hcount (fun hother => absurd rfl hother) hfinished

/-- `progress` reports the rows that are done. -/
theorem Sound.progress (hsound : Sound site start job state) {scan : Scan Problem}
    {phase : ImportPhase} (hrunning : state.process = some (.running scan phase)) (now : Instant)
    (after : ImportPhase) :
    ∃ moved, moved.status = job.status ∧ Sound site start moved
      { state with
        store := state.store.progress now site.jobId scan.processed scan.data.length
        process := some (.running scan after) } := by
  have hactive := hsound.active (by rw [hrunning]; exact nofun)
  have hscan := hsound.process scan phase hrunning
  have hid := FileStore.job?_id hsound.row
  have hselected : (job.id = site.jobId &&
      (decide (job.status = .running) || decide (job.status = .paused))) = true := by
    simpa [hid] using hactive
  have hrow : (state.store.progress now site.jobId scan.processed scan.data.length).job?
      site.jobId = some _ := FileStore.job?_updateWhere hsound.row fun _ => rfl
  rw [if_pos hselected] at hrow
  refine ⟨_, ?_, hsound.of_open (open_of_active hactive) hrow rfl (open_of_active hactive) rfl
    (fun _ => .inl) (fun _ => hactive) ?_⟩
  · rfl
  intro other phase hother
  cases hother
  exact ⟨hscan.rows, hscan.processed, hscan.scanned, fun _ => rfl, hscan.finished⟩

/-- The merge completes the job with the outcome of the upload. -/
theorem Sound.conclude (hsound : Sound site start job state) {scan : Scan Problem}
    (hrunning : state.process = some (.running scan .looping))
    (hend : scan.processed = scan.data.length) (now : Instant) :
    ∃ after, Sound site start after (state.conclude site now scan) := by
  have hprocess : state.process ≠ none := by
    rw [hrunning]
    exact nofun
  have hactive := hsound.active hprocess
  have hscan := hsound.process scan .looping hrunning
  obtain ⟨checkpoint, hsaved, hcheckpoint⟩ := hscan.finished hend
  have hscanned : scan = site.scanned scan.data scan.data.length := by
    rw [← hend]
    exact hscan.scanned
  rw [hscanned] at hsaved
  have houtcome := ImportSite.outcome_of_written start hscan.rows hsaved
  rw [← hscanned] at houtcome
  unfold ImportState.conclude
  cases htransformed : site.transformed scan with
  | error failure =>
      rw [htransformed] at houtcome
      exact hsound.fail hprocess (fun _ => houtcome) now
  | ok problems =>
      rw [htransformed] at houtcome
      dsimp only at houtcome ⊢
      cases hactive with
      | inr hpaused =>
          have hinactive : (state.job? site).any (fun job =>
              job.userId = site.userId && job.status = .running) = false := by
            simp [hsound.row, hpaused]
          rw [hinactive, if_neg Bool.false_ne_true]
          refine hsound.fail hprocess (fun hrunning => ?_) now
          cases hpaused.symm.trans hrunning
      | inl hrun =>
          have hisActive : (state.job? site).any (fun job =>
              job.userId = site.userId && job.status = .running) = true := by
            simp [hsound.row, hrun, hsound.userId]
          rw [hisActive, if_pos rfl, hsound.dataset (by rw [hrun]; rfl)]
          cases hmerged : site.mergeDataset start problems (site.report scan) with
          | error failure => exact hsound.fail hprocess (fun _ => houtcome.trans hmerged) now
          | ok merged =>
              obtain ⟨dataset, result⟩ := merged
              have hid := FileStore.job?_id hsound.row
              have hrow : (state.store.completeJob now site.jobId site.userId result).job?
                  site.jobId = some _ := FileStore.job?_updateWhere hsound.row fun _ => rfl
              have hselected : (job.id = site.jobId && job.userId = site.userId &&
                  job.status = .running) = true := by simp [hid, hsound.userId, hrun]
              rw [if_pos hselected] at hrow
              have htotal := hscan.total nofun
              refine ⟨_, hrow, hsound.userId, ?_, hsound.checkpoint, nofun, nofun⟩
              exact ⟨scan.data, result, checkpoint, hscan.rows, houtcome.trans hmerged, rfl,
                htotal, htotal, hsaved, hcheckpoint⟩

theorem work_pausing (scan : Scan Problem) :
    state.work site now true (.running scan .looping) = state.save site now scan true := by
  rw [ImportState.work]
  split <;> rfl

theorem work_end {scan : Scan Problem} (hend : scan.data[scan.processed]? = none) :
    state.work site now false (.running scan .looping) = state.conclude site now scan := by
  rw [ImportState.work, hend]
  rfl

theorem work_row {scan : Scan Problem} {item : Json}
    (hitem : scan.data[scan.processed]? = some item) :
    state.work site now false (.running scan .looping) =
      if (site.record? scan item).processed % 100 = 0 ∨
          (site.record? scan item).processed = scan.data.length then
        state.save site now (site.record? scan item) false
      else { state with process := some (.running (site.record? scan item) .looping) } := by
  rw [ImportState.work, hitem]
  rfl

/-- One turn of the loop, or what comes after it. -/
theorem Sound.loop (hsound : Sound site start job state) {scan : Scan Problem}
    (hrunning : state.process = some (.running scan .looping)) (now : Instant) (pausing : Bool) :
    ∃ after, Sound site start after (state.work site now pausing (.running scan .looping)) := by
  have hprocess : state.process ≠ none := by
    rw [hrunning]
    exact nofun
  have hactive := hsound.active hprocess
  have hscan := hsound.process scan .looping hrunning
  have htotal := hscan.total nofun
  cases pausing with
  | true =>
      rw [work_pausing, hscan.scanned]
      exact hsound.save hprocess hscan.rows hscan.processed htotal now true
  | false =>
      cases hitem : scan.data[scan.processed]? with
      | none =>
          have hend : scan.processed = scan.data.length :=
            Nat.le_antisymm hscan.processed (List.getElem?_eq_none_iff.mp hitem)
          rw [work_end hitem]
          exact hsound.conclude hrunning hend now
      | some item =>
          obtain ⟨hcount, hrecord⟩ := hscan.record? hitem
          rw [work_row hitem, hrecord]
          split_ifs with hwritten
          · exact hsound.save hprocess hscan.rows hcount htotal now false
          · refine ⟨job, hsound.of_open (open_of_active hactive) hsound.row rfl
              (open_of_active hactive) rfl (fun _ => .inl) (fun _ => hactive) ?_⟩
            intro other phase hother
            cases hother
            refine .of_scanned hscan.rows hcount (fun _ => htotal) fun hend => ?_
            rw [not_or, ImportSite.scanned_processed hcount] at hwritten
            exact absurd hend hwritten.2

theorem Sound.pauseJob (hsound : Sound site start job state) {scan : Scan Problem}
    (hrunning : state.process = some (.running scan .pausing)) (now : Instant) (pausing : Bool) :
    ∃ after, Sound site start after (state.work site now pausing (.running scan .pausing)) := by
  have hactive := hsound.active (by rw [hrunning]; exact nofun)
  have hrow : (state.store.pauseJob now site.jobId).job? site.jobId = some _ :=
    FileStore.job?_updateWhere hsound.row fun _ => rfl
  refine ⟨_, hsound.of_open (open_of_active hactive) hrow ?_ ?_ rfl (fun _ => .inl)
    (fun hprocess => absurd rfl hprocess) nofun⟩
  · split_ifs <;> rfl
  · split_ifs
    · rfl
    · exact open_of_active hactive

theorem Sound.work (hsound : Sound site start job state) (hround : site.RoundTrips)
    {process : ImportProcess Problem} (hprocess : state.process = some process) (now : Instant)
    (pausing : Bool) : ∃ after, Sound site start after (state.work site now pausing process) := by
  cases process with
  | claimed => exact hsound.openScan hround hprocess now pausing
  | running scan phase =>
      cases phase with
      | opened =>
          obtain ⟨moved, _, hmoved⟩ := hsound.progress hprocess now .looping
          exact ⟨moved, hmoved⟩
      | looping => exact hsound.loop hprocess now pausing
      | saved next =>
          obtain ⟨moved, _, hmoved⟩ := hsound.progress hprocess now
            (if next then .pausing else .looping)
          exact ⟨moved, hmoved⟩
      | pausing => exact hsound.pauseJob hprocess now pausing

/-! ## Every step -/

theorem not_terminal_of_active (hactive : job.active = true) : job.status.terminal = false := by
  unfold FileJob.active at hactive
  cases hstatus : job.status with
  | pending | running | paused => rfl
  | completed | failed | cancelled =>
      rw [hstatus] at hactive
      cases hactive

/-- The state in which a claim leaves the job. -/
def started (site : ImportSite Problem) (state : ImportState Problem) (now : Instant) :
    ImportState Problem :=
  { state with
    store := state.store.claimJob now site.jobId site.userId
    process := some .claimed }

theorem Sound.started (hsound : Sound site start job state) (hactive : job.active = true)
    (now : Instant) :
    ∃ after, after.status = .running ∧ Sound site start after (state.started site now) := by
  have hid := FileStore.job?_id hsound.row
  have hrow : (state.store.claimJob now site.jobId site.userId).job? site.jobId = some _ :=
    FileStore.job?_updateWhere hsound.row fun _ => rfl
  have hclaimed : (if (job.id = site.jobId && job.userId = site.userId &&
      job.status = .pending) = true then { job with status := .running, updatedAt := now }
        else job).status = .running := by
    cases hstatus : job.status with
    | pending => simp [hid, hsound.userId]
    | running => simp [hstatus]
    | paused | completed | failed | cancelled =>
        rw [FileJob.active, hstatus] at hactive
        cases hactive
  refine ⟨_, hclaimed, hsound.of_open (not_terminal_of_active hactive) hrow ?_ ?_ rfl
    (fun _ => .inl) (fun _ => .inl hclaimed) nofun⟩
  · split_ifs <;> rfl
  · rw [hclaimed]
    rfl

/-- The user's pause may come while the process is at work. -/
theorem Sound.pauseTask (hsound : Sound site start job state) (hactive : job.active = true)
    (now : Instant) :
    ∃ after, Sound site start after
      { state with
        store := state.store.syncTaskStatus now site.jobId site.userId .paused none } := by
  have hopen := not_terminal_of_active hactive
  have hid := FileStore.job?_id hsound.row
  have hselected : (job.id = site.jobId && job.userId = site.userId && !job.status.terminal &&
      (decide ((none : Option Status) = none) || decide (none = some job.status))) = true := by
    simp [hid, hsound.userId, hopen]
  have hrow : (state.store.syncTaskStatus now site.jobId site.userId .paused none).job?
      site.jobId = some _ := FileStore.job?_updateWhere hsound.row fun _ => rfl
  rw [if_pos hselected] at hrow
  refine ⟨_, hsound.of_open hopen hrow rfl rfl rfl (fun _ => .inl) (fun _ => .inr rfl) ?_⟩
  intro scan phase hprocess
  have hscan := hsound.process scan phase hprocess
  exact ⟨hscan.rows, hscan.processed, hscan.scanned, hscan.total, hscan.finished⟩

/-- A resume sets a paused job back to pending, and no other. -/
theorem Sound.resumeTask (hsound : Sound site start job state) (hstopped : state.process = none)
    (now : Instant) :
    ∃ after, (job.status = .paused → after.status = .pending) ∧ Sound site start after
      { state with
        store := state.store.syncTaskStatus now site.jobId site.userId .pending
          (some .paused) } := by
  have hid := FileStore.job?_id hsound.row
  have hrow : (state.store.syncTaskStatus now site.jobId site.userId .pending
      (some .paused)).job? site.jobId = some _ :=
    FileStore.job?_updateWhere hsound.row fun _ => rfl
  by_cases hpaused : job.status = .paused
  · have hselected : (job.id = site.jobId && job.userId = site.userId &&
        !job.status.terminal && (decide (some Status.paused = none) ||
          decide (some Status.paused = some job.status))) = true := by
      simp [hid, hsound.userId, hpaused, Status.terminal]
    rw [if_pos hselected] at hrow
    refine ⟨_, fun _ => ?_, hsound.of_open (by rw [hpaused]; rfl) hrow rfl rfl rfl
      (fun _ => .inl) (fun hprocess => absurd hstopped hprocess)
      fun scan phase hprocess => nomatch hstopped.symm.trans hprocess⟩
    rfl
  · have hother : ¬(job.id = site.jobId && job.userId = site.userId &&
        !job.status.terminal && (decide (some Status.paused = none) ||
          decide (some Status.paused = some job.status))) = true := by
      have hne : ¬Status.paused = job.status := fun hsame => hpaused hsame.symm
      simp [hne]
    rw [if_neg hother] at hrow
    exact ⟨job, fun hsame => absurd hsame hpaused, hrow, hsound.userId, hsound.outcome,
      hsound.checkpoint, hsound.active, hsound.process⟩

/-- The job is completed or has failed. -/
def Ended (site : ImportSite Problem) (state : ImportState Problem) : Prop :=
  ∃ job, state.job? site = some job ∧ job.status.terminal = true

/-- Without pauses and crashes the process goes on to the end. -/
def Finishes (site : ImportSite Problem) (state : ImportState Problem) : Prop :=
  ∃ count final, run (step site) state (List.replicate count (0, .work false)) = some final ∧
    final.Ended site

theorem Finishes.work {process : ImportProcess Problem} (hprocess : state.process = some process)
    (hfinishes : (state.work site 0 false process).Finishes site) : state.Finishes site := by
  obtain ⟨count, final, hrun, hended⟩ := hfinishes
  refine ⟨count + 1, final, ?_, hended⟩
  rw [List.replicate_succ, run_cons_eq_some]
  refine ⟨_, ?_, hrun⟩
  rw [step, hprocess]
  rfl

/-- A job that is waiting for its first claim. -/
structure Queued (site : ImportSite Problem) (state : ImportState Problem) : Prop where
  row : ∃ job, state.job? site = some job ∧ job.userId = site.userId ∧ job.status = .pending
  checkpoint : state.checkpoint = none
  process : state.process = none

theorem Queued.sound (hqueued : state.Queued site) :
    ∃ job, job.active = true ∧ Sound site state.dataset job state := by
  obtain ⟨job, hrow, huser, hpending⟩ := hqueued.row
  refine ⟨job, by simp [FileJob.active, hpending], hrow, huser, ?_, ?_, ?_, ?_⟩
  · exact jobSound_of_open (by rw [hpending]; rfl) rfl
  · exact fun saved hsaved => nomatch hqueued.checkpoint.symm.trans hsaved
  · exact fun hprocess => absurd hqueued.process hprocess
  · exact fun scan phase hprocess => nomatch hqueued.process.symm.trans hprocess

end ImportState

end AlgorithmHarness.Files
