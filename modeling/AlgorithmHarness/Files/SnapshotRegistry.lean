import AlgorithmHarness.Core.Transition
import AlgorithmHarness.Files.Store

/-!
# The snapshot registry

The result a run points to, over its activations, its deletions and the cleanup
of candidates.  The file stays in place until the user withdraws it, by
deleting the file or the run.
-/

namespace AlgorithmHarness.Files

open TaskManager (Instant)
open Table
open Transition

/-- The user has deleted the run or its current revision. -/
def FileRun.Withdrawn (run : FileRun) : Prop :=
  run.deleted = true ∨ ∃ revision, run.deletedRevision = some revision ∧
    run.resultRevision ≤ revision

/-- The object is the file of the run's result. -/
structure FileRun.Current (run : FileRun) (fileId : FileId) (object : FileObject) : Prop where
  id : object.id = fileId
  userId : object.userId = run.userId
  runId : object.runId = some run.runId
  deleted : object.deleted = false
  expiresAt : object.expiresAt = none
  sha256 : run.resultDigest = some object.sha256

namespace FileStore

variable {store next : FileStore} {runId userId : String} {run : FileRun} {now : Instant}

theorem run?_eq_some (hrun : store.run? runId userId = some run) :
    run ∈ store.runs ∧ run.runId = runId ∧ run.userId = userId := by
  refine ⟨List.mem_of_find?_eq_some hrun, ?_⟩
  simpa using List.find?_some hrun

theorem checkRun_eq_ok (hcheck : store.checkRun runId userId = .ok run) :
    store.run? runId userId = some run ∧ run.deleted = false := by
  unfold checkRun at hcheck
  split at hcheck
  · next found hfound =>
      split_ifs at hcheck with hdeleted
      cases hcheck
      exact ⟨hfound, by simpa using hdeleted⟩
  · cases hcheck

/-- The keys are keys, and the result of the run is in place unless the user has
withdrawn it. -/
structure Sound (runId userId : String) (store : FileStore) : Prop where
  objects : (store.objects.map (·.id)).Nodup
  runs : (store.runs.map (·.runId)).Nodup
  active : ∀ run, store.run? runId userId = some run → ∀ fileId,
    run.resultFileId = some fileId →
      run.Withdrawn ∨ ∃ object ∈ store.objects, run.Current fileId object

/-- A transaction that leaves the runs alone and the current file in its place. -/
theorem Sound.of_kept (hsound : store.Sound runId userId) (hruns : next.runs = store.runs)
    (hobjects : (next.objects.map (·.id)).Nodup)
    (hkept : ∀ run fileId object, store.run? runId userId = some run → ¬run.Withdrawn →
      run.resultFileId = some fileId → run.Current fileId object → object ∈ store.objects →
      object ∈ next.objects) : next.Sound runId userId where
  objects := hobjects
  runs := by
    rw [hruns]
    exact hsound.runs
  active run hrun fileId hfile := by
    have hbefore : store.run? runId userId = some run := by
      rw [← hrun, run?, run?, hruns]
    by_cases hwithdrawn : run.Withdrawn
    · exact .inl hwithdrawn
    · obtain hwithdrawn | ⟨object, hobject, hcurrent⟩ := hsound.active run hbefore fileId hfile
      · exact .inl hwithdrawn
      · exact .inr ⟨object, hkept run fileId object hbefore hwithdrawn hfile hcurrent hobject,
          hcurrent⟩

/-! ## One lemma for each transaction -/

theorem addFile_eq_ok {object : FileObject} {maxUserBytes : ℕ}
    (hadd : store.addFile object maxUserBytes = .ok next) :
    (∀ other ∈ store.objects, other.id ≠ object.id) ∧
      next = { store with objects := store.objects ++ [object] } := by
  unfold addFile at hadd
  obtain ⟨_, _, hadd⟩ := bind_eq_ok.mp hadd
  simp only [bind, Except.bind, throw, throwThe, MonadExceptOf.throw, pure, Except.pure] at hadd
  split_ifs at hadd with hbytes hkey
  cases hadd
  exact ⟨by simpa using hkey, rfl⟩

theorem nodup_append_object {objects : List FileObject} {object : FileObject}
    (hkeys : (objects.map (·.id)).Nodup) (hfresh : ∀ other ∈ objects, other.id ≠ object.id) :
    ((objects ++ [object]).map (·.id)).Nodup := by
  rw [List.map_append, List.nodup_append]
  refine ⟨hkeys, by simp, ?_⟩
  intro id hid other hother
  obtain ⟨before, hbefore, rfl⟩ := List.mem_map.mp hid
  obtain rfl : other = object.id := by simpa using hother
  exact hfresh before hbefore

theorem Sound.addFile (hsound : store.Sound runId userId) {object : FileObject}
    {maxUserBytes : ℕ} (hadd : store.addFile object maxUserBytes = .ok next) :
    next.Sound runId userId := by
  obtain ⟨hfresh, rfl⟩ := addFile_eq_ok hadd
  refine hsound.of_kept rfl ?_ ?_
  · exact nodup_append_object hsound.objects hfresh
  · intro _ _ current _ _ _ _ hcurrent
    exact List.mem_append_left _ hcurrent

theorem tombstone_ids (store : FileStore) (fileId : FileId) (userId : String) :
    (store.tombstone fileId userId).objects.map (·.id) = store.objects.map (·.id) :=
  map_updateWhere fun _ => rfl

/-- A file that is tombstoned under its owner is not one the run relies on. -/
theorem Sound.tombstone (hsound : store.Sound runId userId) {fileId : FileId}
    (hother : ∀ run, store.run? runId userId = some run → ¬run.Withdrawn →
      run.resultFileId ≠ some fileId) : (store.tombstone fileId userId).Sound runId userId := by
  refine hsound.of_kept rfl ?_ ?_
  · rw [tombstone_ids]
    exact hsound.objects
  · intro run current object hrun hkept hfile hcurrent hobject
    apply mem_updateWhere_of_not hobject
    have hne : object.id ≠ fileId := by
      rintro rfl
      exact hother run hrun hkept (hfile.trans (congrArg some hcurrent.id.symm))
    simp [hne]

theorem run?_setResult (hrun : store.run? runId userId = some run) (fileId : FileId)
    (revision : ℕ) (digest : String) (contentDigest : Option String) (old : Option FileId) :
    (store.setResult runId userId fileId revision digest contentDigest old).run? runId userId =
      some { run with
        resultFileId := some fileId
        resultRevision := revision
        resultDigest := some digest
        resultContentDigest := contentDigest } := by
  have hruns : (store.setResult runId userId fileId revision digest contentDigest old).runs =
      updateWhere (fun run => run.runId = runId && run.userId = userId)
        (fun run =>
          { run with
            resultFileId := some fileId
            resultRevision := revision
            resultDigest := some digest
            resultContentDigest := contentDigest }) store.runs := by
    unfold setResult
    split
    · split_ifs <;> rfl
    · rfl
  obtain ⟨_, hid, huser⟩ := run?_eq_some hrun
  rw [run?, hruns, find?_updateWhere]
  · rw [run?] at hrun
    rw [hrun]
    simp [hid, huser]
  · exact fun _ => rfl

/-- The candidate becomes the current file. -/
theorem Sound.setResult (hsound : store.Sound runId userId)
    (hrun : store.run? runId userId = some run) {candidate : FileObject} {revision : ℕ}
    (hmember : candidate ∈ store.objects) (huser : candidate.userId = userId)
    (hcandidate : candidate.runId = some runId) (hlive : candidate.deleted = false)
    (contentDigest : Option String) :
    (store.setResult runId userId candidate.id revision candidate.sha256 contentDigest
      run.resultFileId).Sound runId userId := by
  have hkeys : ((store.setResult runId userId candidate.id revision candidate.sha256
      contentDigest run.resultFileId).objects.map (·.id)) = store.objects.map (·.id) := by
    unfold FileStore.setResult
    split
    · split_ifs
      · exact (tombstone_ids ..).trans (map_updateWhere fun _ => rfl)
      · exact map_updateWhere fun _ => rfl
    · exact map_updateWhere fun _ => rfl
  have hruns : ((store.setResult runId userId candidate.id revision candidate.sha256
      contentDigest run.resultFileId).runs.map (·.runId)) = store.runs.map (·.runId) := by
    unfold FileStore.setResult
    split
    · split_ifs <;> exact map_updateWhere fun _ => rfl
    · exact map_updateWhere fun _ => rfl
  have hplaced : { candidate with expiresAt := none } ∈
      (store.setResult runId userId candidate.id revision candidate.sha256 contentDigest
        run.resultFileId).objects := by
    have hkept : { candidate with expiresAt := none } ∈
        updateWhere (fun object : FileObject => object.id = candidate.id && object.userId = userId)
          (fun object => { object with expiresAt := none }) store.objects :=
      mem_updateWhere_of hmember (by simp [huser])
    unfold FileStore.setResult
    split
    · next previous _ =>
        split_ifs with hmoved
        · exact mem_updateWhere_of_not hkept (by simp [Ne.symm hmoved])
        · exact hkept
    · exact hkept
  refine ⟨by rw [hkeys]; exact hsound.objects, by rw [hruns]; exact hsound.runs, ?_⟩
  intro after hafter fileId hfile
  rw [run?_setResult hrun] at hafter
  cases hafter
  cases hfile
  obtain ⟨_, hid, howner⟩ := run?_eq_some hrun
  exact .inr ⟨_, hplaced, rfl, huser.trans howner.symm, by rw [hcandidate, ← hid], hlive, rfl, rfl⟩

/-- What `activate_snapshot` has checked when it succeeds, and what it does: it
confirms the file in place or moves on to the candidate. -/
theorem activateSnapshot_eq_ok {fileId result : FileId} {revision : ℕ} {digest : String}
    {replaceFileId : Option FileId} {contentDigest : Option String}
    (hactivate : store.activateSnapshot now runId userId fileId revision digest replaceFileId
      contentDigest = .ok (next, result)) :
    ∃ run, store.run? runId userId = some run ∧ run.deleted = false ∧
      (∀ deleted, run.deletedRevision = some deleted → deleted < revision) ∧
      (contentDigest = none ∨ run.deletedContentDigest ≠ contentDigest) ∧
      run.resultRevision ≤ revision ∧
      (run.resultRevision = revision → run.resultDigest = some digest) ∧
      ((store.inPlace now run userId revision replaceFileId = some result ∧
          next = if fileId ≠ result then store.tombstone fileId userId else store) ∨
        ∃ candidate ∈ store.objects, candidate.id = fileId ∧ candidate.userId = userId ∧
          candidate.runId = some runId ∧ candidate.deleted = false ∧ candidate.sha256 = digest ∧
          result = fileId ∧
          next = store.setResult runId userId fileId revision digest contentDigest
            run.resultFileId) := by
  unfold activateSnapshot at hactivate
  obtain ⟨run, hcheck, hactivate⟩ := bind_eq_ok.mp hactivate
  obtain ⟨hrun, hdeleted⟩ := checkRun_eq_ok hcheck
  simp only [bind, Except.bind, throw, throwThe, MonadExceptOf.throw, pure, Except.pure]
    at hactivate
  split_ifs at hactivate with hrevision hcontent hsuperseded hmismatch
  have hnewer : ∀ deleted, run.deletedRevision = some deleted → deleted < revision := by
    intro deleted hdeleted
    simpa [hdeleted] using hrevision
  have hallowed : contentDigest = none ∨ run.deletedContentDigest ≠ contentDigest := by
    by_contra hblocked
    rw [not_or, not_not] at hblocked
    exact hcontent hblocked
  have hsame : run.resultRevision = revision → run.resultDigest = some digest := by
    intro hequal
    by_contra hother
    exact hmismatch ⟨hequal, hother⟩
  refine ⟨run, hrun, hdeleted, hnewer, hallowed, not_lt.mp hsuperseded, hsame, ?_⟩
  split at hactivate
  · next old hold =>
      cases hactivate
      exact .inl ⟨hold, rfl⟩
  · split at hactivate
    · cases hactivate
    · next candidate hcandidate =>
        split_ifs at hactivate with hinvalid
        cases hactivate
        have hmember := List.mem_of_find?_eq_some hcandidate
        have hselected := List.find?_some hcandidate
        simp only [Bool.and_eq_true, decide_eq_true_eq, FileObject.available,
          Bool.not_eq_true'] at hselected
        obtain ⟨⟨⟨hid, huser⟩, hrunId⟩, hlive, _⟩ := hselected
        rw [not_or, not_not] at hinvalid
        exact .inr ⟨candidate, hmember, hid, huser, hrunId, hlive, hinvalid.1, rfl, rfl⟩

theorem Sound.activateSnapshot (hsound : store.Sound runId userId) {fileId result : FileId}
    {revision : ℕ} {digest : String} {replaceFileId : Option FileId}
    {contentDigest : Option String}
    (hactivate : store.activateSnapshot now runId userId fileId revision digest replaceFileId
      contentDigest = .ok (next, result)) : next.Sound runId userId := by
  obtain ⟨run, hrun, _, _, _, _, _, hdone⟩ := activateSnapshot_eq_ok hactivate
  obtain ⟨hplace, rfl⟩ | ⟨candidate, hmember, hid, huser, hrunId, hlive, hsha, _, rfl⟩ := hdone
  · split_ifs with hother
    · apply hsound.tombstone
      intro other hfound _ hfile
      cases hrun.symm.trans hfound
      have hold := (Option.filter_eq_some_iff.mp hplace).1
      exact hother (Option.some.inj (hfile.symm.trans hold))
    · exact hsound
  · subst hid hsha
    exact hsound.setResult hrun hmember huser hrunId hlive contentDigest

/-- A candidate that is discarded is not a file some run points to. -/
theorem mem_discardCandidate (hrun : run ∈ store.runs) {fileId : FileId}
    (hfile : run.resultFileId = some fileId) {object : FileObject} (hobject : object ∈ store.objects)
    (hid : object.id = fileId) (candidate : FileId) (owner : String) :
    object ∈ (store.discardCandidate candidate owner).objects := by
  apply mem_updateWhere_of_not hobject
  by_cases hsame : fileId = candidate
  · have hpointed : store.runs.any (fun run => run.resultFileId = some candidate) = true := by
      refine List.any_eq_true.mpr ⟨run, hrun, ?_⟩
      rw [hfile, hsame]
      exact decide_eq_true rfl
    rw [hpointed]
    simp
  · simp [hid, hsame]

theorem Sound.discardCandidate (hsound : store.Sound runId userId) (fileId : FileId)
    (owner : String) : (store.discardCandidate fileId owner).Sound runId userId := by
  refine hsound.of_kept rfl ?_ ?_
  · have hkeys : (store.discardCandidate fileId owner).objects.map (·.id) =
        store.objects.map (·.id) := map_updateWhere fun _ => rfl
    rw [hkeys]
    exact hsound.objects
  · intro run current object hrun _ hfile hcurrent hobject
    exact mem_discardCandidate (run?_eq_some hrun).1 hfile hobject hcurrent.id fileId owner

/-- `cleanup` finds no reason to remove the current file. -/
theorem mem_cleanup (hruns : (store.runs.map (·.runId)).Nodup)
    (hrun : store.run? runId userId = some run) (hkept : ¬run.Withdrawn)
    {fileId : FileId} {object : FileObject} (hcurrent : run.Current fileId object)
    (hobject : object ∈ store.objects) (now : Instant) (timeout : ℕ) (unlinks : FileId → Bool) :
    object ∈ (store.cleanup now timeout unlinks).objects := by
  have hdeleted : run.deleted = false := by
    by_contra hdeleted
    exact hkept (.inl (by simpa using hdeleted))
  have hother : store.runs.any
      (fun other => some other.runId = object.runId && other.deleted) = false := by
    apply List.any_eq_false.mpr
    intro other hother
    rw [hcurrent.runId]
    by_cases hsame : other.runId = run.runId
    · obtain rfl := row_unique hruns hother (run?_eq_some hrun).1 hsame
      simp [hdeleted]
    · simp [hsame]
  have hstays : (store.failStaleJobs now timeout).removable now object = false := by
    simp [removable, hcurrent.deleted, hcurrent.expiresAt, failStaleJobs, hother]
  apply List.mem_filter.mpr
  refine ⟨hobject, ?_⟩
  simp [hstays]

theorem Sound.cleanup (hsound : store.Sound runId userId) (now : Instant) (timeout : ℕ)
    (unlinks : FileId → Bool) : (store.cleanup now timeout unlinks).Sound runId userId := by
  refine hsound.of_kept rfl ?_ ?_
  · exact hsound.objects.sublist (List.filter_sublist.map _)
  · intro run current object hrun hkept _ hcurrent hobject
    exact mem_cleanup hsound.runs hrun hkept hcurrent hobject now timeout unlinks

theorem run?_markFileDeleted {fileId : FileId} {owner : String}
    (hmark : store.markFileDeleted fileId owner = .ok next) :
    next.run? runId userId = (store.run? runId userId).map fun run =>
      if run.resultFileId = some fileId ∧ run.userId = owner ∧
          run.deletedRevision.all (· < run.resultRevision) then
        { run with
          deletedRevision := some run.resultRevision
          deletedContentDigest := run.resultContentDigest }
      else run := by
  unfold markFileDeleted at hmark
  split_ifs at hmark
  cases hmark
  dsimp only [run?]
  rw [find?_updateWhere]
  · congr 1
    funext run
    simp [and_assoc]
  · exact fun _ => rfl

theorem Sound.markFileDeleted (hsound : store.Sound runId userId) {fileId : FileId}
    {owner : String} (hmark : store.markFileDeleted fileId owner = .ok next) :
    next.Sound runId userId := by
  have hruns : next.runs.map (·.runId) = store.runs.map (·.runId) := by
    unfold FileStore.markFileDeleted at hmark
    split_ifs at hmark
    cases hmark
    exact map_updateWhere fun _ => rfl
  have hobjects : next.objects = (store.tombstone fileId owner).objects := by
    unfold FileStore.markFileDeleted at hmark
    split_ifs at hmark
    cases hmark
    rfl
  refine ⟨?_, by rw [hruns]; exact hsound.runs, ?_⟩
  · rw [hobjects, tombstone_ids]
    exact hsound.objects
  · intro after hafter current hfile
    rw [run?_markFileDeleted hmark] at hafter
    obtain ⟨run, hrun, rfl⟩ := Option.map_eq_some_iff.mp hafter
    split_ifs at hfile ⊢ with hmarked
    · exact .inl (.inr ⟨run.resultRevision, rfl, le_rfl⟩)
    · obtain hwithdrawn | ⟨object, hobject, hcurrent⟩ := hsound.active run hrun current hfile
      · exact .inl hwithdrawn
      · by_cases htarget : object.id = fileId ∧ object.userId = owner
        · left
          obtain ⟨rfl, rfl⟩ := htarget
          have hpassed : ¬run.deletedRevision.all (· < run.resultRevision) = true := by
            intro hnewer
            exact hmarked ⟨hfile.trans (congrArg some hcurrent.id.symm), hcurrent.userId.symm,
              hnewer⟩
          cases hrevision : run.deletedRevision with
          | none => simp [hrevision] at hpassed
          | some revision =>
              right
              exact ⟨revision, hrevision, by simpa [hrevision] using hpassed⟩
        · right
          refine ⟨object, ?_, hcurrent⟩
          rw [hobjects]
          exact mem_updateWhere_of_not hobject (by simpa using htarget)

theorem run?_markRunDeleted (hmark : store.markRunDeleted runId userId = .ok next) :
    next.run? runId userId =
      (store.run? runId userId).map fun run => { run with deleted := true } := by
  obtain ⟨found, hcheck, rfl⟩ := map_eq_ok.mp hmark
  obtain ⟨hfound, _⟩ := checkRun_eq_ok hcheck
  obtain ⟨_, hid, huser⟩ := run?_eq_some hfound
  rw [run?] at hfound
  dsimp only [run?]
  rw [find?_updateWhere]
  · rw [hfound]
    simp [hid, huser]
  · exact fun _ => rfl

theorem Sound.markRunDeleted (hsound : store.Sound runId userId)
    (hmark : store.markRunDeleted runId userId = .ok next) : next.Sound runId userId := by
  have hafter := run?_markRunDeleted hmark
  obtain ⟨_, _, rfl⟩ := map_eq_ok.mp hmark
  refine ⟨?_, ?_, ?_⟩
  · rw [map_updateWhere]
    · exact hsound.objects
    · exact fun _ => rfl
  · rw [map_updateWhere]
    · exact hsound.runs
    · exact fun _ => rfl
  · intro run hrun fileId _
    rw [hafter] at hrun
    obtain ⟨before, _, rfl⟩ := Option.map_eq_some_iff.mp hrun
    exact .inl (.inl rfl)

end FileStore

/-! ## Sequences of operations on one run -/

/-- The operations on the registry of one run; a file is staged before it is a
candidate. -/
inductive SnapshotOperation where
  | addFile (object : FileObject) (maxUserBytes : ℕ)
  | activateSnapshot (fileId : FileId) (revision : ℕ) (digest : String)
      (replaceFileId : Option FileId) (contentDigest : Option String)
  | markFileDeleted (fileId : FileId) (userId : String)
  | markRunDeleted
  /-- `FileService.discard_candidate`, with its `cleanup`. -/
  | discardCandidate (fileId : FileId) (userId : String) (unlinks : FileId → Bool)
  | cleanup (unlinks : FileId → Bool)

namespace FileStore

/-- The tables after a transaction; those before it if it raises. -/
def committed (store : FileStore) : Except HttpException FileStore → FileStore
  | .ok written => written
  | .error _ => store

variable (runId userId : String) (timeout : ℕ)

def snapshotStep (store : FileStore) : Instant × SnapshotOperation → Option FileStore
  | (_, .addFile object maxUserBytes) => some (store.committed (store.addFile object maxUserBytes))
  | (now, .activateSnapshot fileId revision digest replaceFileId contentDigest) =>
      some (store.committed ((store.activateSnapshot now runId userId fileId revision digest
        replaceFileId contentDigest).map (·.1)))
  | (_, .markFileDeleted fileId owner) =>
      some (store.committed (store.markFileDeleted fileId owner))
  | (_, .markRunDeleted) => some (store.committed (store.markRunDeleted runId userId))
  | (now, .discardCandidate fileId owner unlinks) =>
      some ((store.discardCandidate fileId owner).cleanup now timeout unlinks)
  | (now, .cleanup unlinks) => some (store.cleanup now timeout unlinks)

variable {runId userId timeout}

variable {store next : FileStore} {run after : FileRun}

/-- A property of the tables survives an operation if it survives each that
commits. -/
theorem committed_cases (property : FileStore → Prop) (hstore : property store)
    (result : Except HttpException FileStore)
    (hwritten : ∀ written, result = .ok written → property written) :
    property (store.committed result) := by
  cases hresult : result with
  | error error => exact hstore
  | ok written => exact hwritten written hresult

theorem sound_snapshotStep {label : Instant × SnapshotOperation} (hsound : store.Sound runId userId)
    (hstep : store.snapshotStep runId userId timeout label = some next) :
    next.Sound runId userId := by
  obtain ⟨now, operation⟩ := label
  cases operation with
  | addFile object maxUserBytes =>
      cases hstep
      exact committed_cases _ hsound _ fun _ hadd => hsound.addFile hadd
  | activateSnapshot fileId revision digest replaceFileId contentDigest =>
      cases hstep
      refine committed_cases _ hsound _ fun written hwritten => ?_
      obtain ⟨⟨written, result⟩, hactivate, rfl⟩ := map_eq_ok.mp hwritten
      exact hsound.activateSnapshot hactivate
  | markFileDeleted fileId owner =>
      cases hstep
      exact committed_cases _ hsound _ fun _ hmark => hsound.markFileDeleted hmark
  | markRunDeleted =>
      cases hstep
      exact committed_cases _ hsound _ fun _ hmark => hsound.markRunDeleted hmark
  | discardCandidate fileId owner unlinks =>
      cases hstep
      exact (hsound.discardCandidate fileId owner).cleanup now timeout unlinks
  | cleanup unlinks =>
      cases hstep
      exact hsound.cleanup now timeout unlinks

/-- What an operation makes of the row of the run. -/
inductive RunMove (before : FileRun) : Instant × SnapshotOperation → FileRun → Prop where
  | same (label : Instant × SnapshotOperation) : RunMove before label before
  | activated (now : Instant) (fileId : FileId) (revision : ℕ) (digest : String)
      (replaceFileId : Option FileId) (contentDigest : Option String)
      (hkept : before.deleted = false) (hrevision : before.resultRevision ≤ revision)
      (hnewer : ∀ deleted, before.deletedRevision = some deleted → deleted < revision) :
      RunMove before
        (now, .activateSnapshot fileId revision digest replaceFileId contentDigest)
        { before with
          resultFileId := some fileId
          resultRevision := revision
          resultDigest := some digest
          resultContentDigest := contentDigest }
  | fileDeleted (now : Instant) (fileId : FileId) (hfile : before.resultFileId = some fileId) :
      RunMove before (now, .markFileDeleted fileId before.userId)
        { before with
          deletedRevision := some before.resultRevision
          deletedContentDigest := before.resultContentDigest }
  | runDeleted (now : Instant) :
      RunMove before (now, .markRunDeleted) { before with deleted := true }

theorem run?_snapshotStep {label : Instant × SnapshotOperation}
    (hrun : store.run? runId userId = some run)
    (hstep : store.snapshotStep runId userId timeout label = some next) :
    ∃ after, next.run? runId userId = some after ∧ RunMove run label after := by
  obtain ⟨now, operation⟩ := label
  have hstays : ∃ after, store.run? runId userId = some after ∧
      RunMove run (now, operation) after := ⟨run, hrun, .same _⟩
  cases operation with
  | addFile object maxUserBytes =>
      cases hstep
      refine committed_cases (fun written => ∃ after,
        written.run? runId userId = some after ∧ RunMove run _ after) hstays _ fun written hadd => ?_
      obtain ⟨_, rfl⟩ := addFile_eq_ok hadd
      exact ⟨run, hrun, .same _⟩
  | activateSnapshot fileId revision digest replaceFileId contentDigest =>
      cases hstep
      refine committed_cases (fun written => ∃ after,
        written.run? runId userId = some after ∧ RunMove run _ after) hstays _
        fun written hwritten => ?_
      obtain ⟨⟨written, result⟩, hactivate, rfl⟩ := map_eq_ok.mp hwritten
      obtain ⟨found, hfound, hkept, hnewer, _, hrevision, _, hdone⟩ :=
        activateSnapshot_eq_ok hactivate
      cases hrun.symm.trans hfound
      cases hdone with
      | inl hplace =>
          obtain ⟨_, rfl⟩ := hplace
          refine ⟨run, ?_, .same _⟩
          split_ifs <;> exact hrun
      | inr hmoved =>
          obtain ⟨candidate, _, _, _, _, _, _, _, rfl⟩ := hmoved
          exact ⟨_, run?_setResult hrun .., .activated _ _ _ _ _ _ hkept hrevision hnewer⟩
  | markFileDeleted fileId owner =>
      cases hstep
      refine committed_cases (fun written => ∃ after,
        written.run? runId userId = some after ∧ RunMove run _ after) hstays _ fun written hmark => ?_
      rw [run?_markFileDeleted hmark, hrun, Option.map_some]
      refine ⟨_, rfl, ?_⟩
      split_ifs with hmarked
      · obtain ⟨hfile, rfl, _⟩ := hmarked
        exact .fileDeleted now fileId hfile
      · exact .same _
  | markRunDeleted =>
      cases hstep
      refine committed_cases (fun written => ∃ after,
        written.run? runId userId = some after ∧ RunMove run _ after) hstays _ fun written hmark => ?_
      rw [run?_markRunDeleted hmark, hrun, Option.map_some]
      exact ⟨_, rfl, .runDeleted now⟩
  | discardCandidate fileId owner unlinks =>
      cases hstep
      exact ⟨run, hrun, .same _⟩
  | cleanup unlinks =>
      cases hstep
      exact ⟨run, hrun, .same _⟩

/-! ## The law of the registry -/

/-- A call of `mark_file_deleted` on the file by its owner, or of
`mark_run_deleted`. -/
def DeletedByUser (userId : String) (labels : List (Instant × SnapshotOperation))
    (fileId : FileId) : Prop :=
  (∃ now, (now, SnapshotOperation.markFileDeleted fileId userId) ∈ labels) ∨
    ∃ now, (now, SnapshotOperation.markRunDeleted) ∈ labels

/-- A withdrawn result was withdrawn by the user. -/
def Explained (runId userId : String) (labels : List (Instant × SnapshotOperation))
    (store : FileStore) : Prop :=
  ∃ run, store.run? runId userId = some run ∧ ∀ fileId, run.resultFileId = some fileId →
    run.Withdrawn → DeletedByUser userId labels fileId

theorem DeletedByUser.append {labels : List (Instant × SnapshotOperation)} {fileId : FileId}
    (hdeleted : DeletedByUser userId labels fileId) (label : Instant × SnapshotOperation) :
    DeletedByUser userId (labels ++ [label]) fileId := by
  cases hdeleted with
  | inl hfile =>
      obtain ⟨now, hfile⟩ := hfile
      exact .inl ⟨now, List.mem_append_left _ hfile⟩
  | inr hrun =>
      obtain ⟨now, hrun⟩ := hrun
      exact .inr ⟨now, List.mem_append_left _ hrun⟩

theorem explained_snapshotStep {labels : List (Instant × SnapshotOperation)}
    {label : Instant × SnapshotOperation} (hexplained : Explained runId userId labels store)
    (hstep : store.snapshotStep runId userId timeout label = some next) :
    Explained runId userId (labels ++ [label]) next := by
  obtain ⟨run, hrun, hwhy⟩ := hexplained
  obtain ⟨after, hafter, hmove⟩ := run?_snapshotStep hrun hstep
  refine ⟨after, hafter, ?_⟩
  intro fileId hfile hwithdrawn
  cases hmove with
  | same => exact (hwhy fileId hfile hwithdrawn).append label
  | activated now _ revision digest replaceFileId contentDigest hkept hrevision hnewer =>
      exfalso
      cases hwithdrawn with
      | inl hdeleted => exact Bool.false_ne_true (hkept.symm.trans hdeleted)
      | inr hlater =>
          obtain ⟨deleted, hdeleted, hle⟩ := hlater
          exact absurd (hnewer deleted hdeleted) (not_lt.mpr hle)
  | fileDeleted now _ hbefore =>
      obtain ⟨_, _, huser⟩ := run?_eq_some hrun
      cases hbefore.symm.trans hfile
      exact .inl ⟨now, by simp [huser]⟩
  | runDeleted now => exact .inr ⟨now, by simp⟩

theorem RunMove.resultRevision_le {label : Instant × SnapshotOperation}
    (hmove : RunMove run label after) : run.resultRevision ≤ after.resultRevision := by
  cases hmove with
  | activated _ _ _ _ _ _ _ hrevision _ => exact hrevision
  | _ => exact le_rfl

/-- A file of the table is found under its key. -/
theorem find?_object {object : FileObject} (hkeys : (store.objects.map (·.id)).Nodup)
    (hobject : object ∈ store.objects) :
    store.objects.find? (·.id = object.id) = some object := by
  obtain ⟨found, hfound⟩ : ∃ found, store.objects.find? (·.id = object.id) = some found := by
    rw [← Option.isSome_iff_exists, List.find?_isSome]
    exact ⟨object, hobject, by simp⟩
  have hsame : found.id = object.id := by simpa using List.find?_some hfound
  rw [hfound, row_unique hkeys (List.mem_of_find?_eq_some hfound) hobject hsame]

/-- A registered run without a result, and any files. -/
structure Registered (runId userId : String) (store : FileStore) : Prop where
  objects : (store.objects.map (·.id)).Nodup
  runs : (store.runs.map (·.runId)).Nodup
  run : store.run? runId userId = some { runId := runId, userId := userId }

theorem Registered.sound (hregistered : store.Registered runId userId) :
    store.Sound runId userId where
  objects := hregistered.objects
  runs := hregistered.runs
  active run hrun fileId hfile := by
    cases hregistered.run.symm.trans hrun
    cases hfile

theorem Registered.explained (hregistered : store.Registered runId userId) :
    Explained runId userId [] store :=
  ⟨_, hregistered.run, nofun⟩

/-- In every state a sequence of operations on the run leads to: its revision
only grows, what the user has deleted is never activated, its file is in place
with the recorded digest unless the user has deleted it, and no discarded
candidate takes it away. -/
theorem snapshot_registry {registered : FileStore} (hregistered : registered.Registered runId userId)
    {labels : List (Instant × SnapshotOperation)}
    (hrun : Transition.run (snapshotStep runId userId timeout) registered labels = some store) :
    ∃ run, store.run? runId userId = some run ∧
      (∀ label next, store.snapshotStep runId userId timeout label = some next →
        ∃ after, next.run? runId userId = some after ∧
          run.resultRevision ≤ after.resultRevision) ∧
      (∀ now fileId revision digest replaceFileId contentDigest result,
        store.activateSnapshot now runId userId fileId revision digest replaceFileId
          contentDigest = .ok result →
        (∀ deleted, run.deletedRevision = some deleted → deleted < revision) ∧
          (∀ deleted, run.deletedContentDigest = some deleted → contentDigest ≠ some deleted)) ∧
      (∀ fileId, run.resultFileId = some fileId →
        ∀ object ∈ store.objects, object.id = fileId → ∀ candidate owner,
          object ∈ (store.discardCandidate candidate owner).objects) ∧
      ∀ fileId, run.resultFileId = some fileId →
        DeletedByUser userId labels fileId ∨
          ∃ object, store.objects.find? (·.id = fileId) = some object ∧
            object.deleted = false ∧ run.resultDigest = some object.sha256 ∧
            ∀ now candidate owner unlinks,
              object ∈ ((store.discardCandidate candidate owner).cleanup now timeout
                unlinks).objects := by
  have hstate : store.Sound runId userId ∧ Explained runId userId labels store := by
    refine run_history (fun labels store =>
      store.Sound runId userId ∧ Explained runId userId labels store)
      ⟨hregistered.sound, hregistered.explained⟩ ?_ hrun
    rintro earlier state label next ⟨hsound, hexplained⟩ hstep
    exact ⟨sound_snapshotStep hsound hstep, explained_snapshotStep hexplained hstep⟩
  obtain ⟨hsound, run, hfound, hwhy⟩ := hstate
  refine ⟨run, hfound, ?_, ?_, ?_, ?_⟩
  · intro label next hstep
    obtain ⟨after, hafter, hmove⟩ := run?_snapshotStep hfound hstep
    exact ⟨after, hafter, hmove.resultRevision_le⟩
  · intro now fileId revision digest replaceFileId contentDigest result hactivate
    obtain ⟨written, placed⟩ := result
    obtain ⟨other, hother, _, hnewer, hcontent, _⟩ := activateSnapshot_eq_ok hactivate
    cases hfound.symm.trans hother
    refine ⟨hnewer, ?_⟩
    rintro deleted hdeleted rfl
    exact hcontent.resolve_left nofun hdeleted
  · intro fileId hfile object hobject hid candidate owner
    exact mem_discardCandidate (run?_eq_some hfound).1 hfile hobject hid candidate owner
  · intro fileId hfile
    by_cases hwithdrawn : run.Withdrawn
    · exact .inl (hwhy fileId hfile hwithdrawn)
    · right
      obtain ⟨object, hobject, hcurrent⟩ :=
        (hsound.active run hfound fileId hfile).resolve_left hwithdrawn
      refine ⟨object, ?_, hcurrent.deleted, hcurrent.sha256, ?_⟩
      · rw [← hcurrent.id]
        exact find?_object hsound.objects hobject
      · intro now candidate owner unlinks
        apply mem_cleanup
        · exact hsound.runs
        · exact hfound
        · exact hwithdrawn
        · exact hcurrent
        · exact mem_discardCandidate (run?_eq_some hfound).1 hfile hobject hcurrent.id candidate
            owner

/-- Two revisions are activated; a candidate left over from the first is
discarded, the second is deleted by the user. -/
theorem snapshot_registry_deleted :
    let registered : FileStore :=
      { runs := [{ runId := "r", userId := "u" }]
        objects :=
          [{ id := 1, userId := "u", suffix := ".json", category := "results", sha256 := "a",
             expiresAt := some 9, runId := some "r" },
           { id := 2, userId := "u", suffix := ".json", category := "results", sha256 := "b",
             expiresAt := some 9, runId := some "r" }] }
    let labels : List (Instant × SnapshotOperation) :=
      [(1, .activateSnapshot 1 1 "a" none (some "x")),
        (2, .activateSnapshot 2 2 "b" none (some "y")),
        (3, .discardCandidate 1 "u" fun _ => true), (4, .markFileDeleted 2 "u")]
    ∃ store run, Transition.run (snapshotStep "r" "u" 60) registered labels = some store ∧
      store.run? "r" "u" = some run ∧ run.resultRevision = 2 ∧
      run.deletedRevision = some 2 ∧ store.objects.map (·.id) = [2] ∧
      DeletedByUser "u" labels 2 := by
  intro registered labels
  have hregistered : registered.Registered "r" "u" := ⟨by decide, by decide, by decide⟩
  have hlabels : Transition.run (snapshotStep "r" "u" 60) registered labels = some _ := rfl
  obtain ⟨run, hrun, _, _, _, hfile⟩ := snapshot_registry hregistered hlabels
  refine ⟨_, run, rfl, hrun, ?_, ?_, by decide, ?_⟩
  · obtain rfl := Option.some.inj hrun
    rfl
  · obtain rfl := Option.some.inj hrun
    rfl
  · obtain rfl := Option.some.inj hrun
    exact (hfile 2 rfl).resolve_right (by
      rintro ⟨object, hobject, hlive, _⟩
      cases hobject
      cases hlive)

end FileStore

end AlgorithmHarness.Files
