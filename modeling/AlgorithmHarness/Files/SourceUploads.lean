import AlgorithmHarness.Files.SnapshotRegistry

/-!
# The uploads of unfinished imports

An unfinished import job keeps its upload and has it for itself, through every
operation on the jobs, the deletion of files and the cleanup.  All three guards
look for pending and running jobs; a paused one is not among them.
-/

namespace AlgorithmHarness.Files

open TaskManager (Instant Status)
open Table
open Transition

/-- The operations on uploads and import jobs. -/
inductive ImportOperation where
  | addFile (object : FileObject) (maxUserBytes : ℕ)
  | createJob (jobId : JobId) (fileId : FileId) (userId mode : String)
  | claimJob (jobId : JobId) (userId : String)
  | pauseJob (jobId : JobId)
  | syncTaskStatus (jobId : JobId) (userId : String) (status : Status)
      (expectedStatus : Option Status)
  | failJob (jobId : JobId) (details : JsonDict)
  | progress (jobId : JobId) (processed total : ℕ)
  /-- The commit of `merge_dataset`. -/
  | completeJob (jobId : JobId) (userId : String) (result : JsonDict)
  | markFileDeleted (fileId : FileId) (userId : String)
  | markRunDeleted (runId userId : String)
  | cleanup (unlinks : FileId → Bool)

namespace FileStore

variable (maxActive timeout : ℕ)

/-- No caller of `_persist` stores an upload for a run. -/
def importStep (store : FileStore) : Instant × ImportOperation → Option FileStore
  | (_, .addFile object maxUserBytes) =>
      if object.category = "upload" → object.runId = none then
        some (store.committed (store.addFile object maxUserBytes))
      else none
  | (now, .createJob jobId fileId userId mode) =>
      some (store.committed (store.createJob now jobId fileId userId mode maxActive))
  | (now, .claimJob jobId userId) => some (store.claimJob now jobId userId)
  | (now, .pauseJob jobId) => some (store.pauseJob now jobId)
  | (now, .syncTaskStatus jobId userId status expectedStatus) =>
      some (store.syncTaskStatus now jobId userId status expectedStatus)
  | (now, .failJob jobId details) => some (store.failJob now jobId details)
  | (now, .progress jobId processed total) => some (store.progress now jobId processed total)
  | (now, .completeJob jobId userId result) => some (store.completeJob now jobId userId result)
  | (_, .markFileDeleted fileId userId) =>
      some (store.committed (store.markFileDeleted fileId userId))
  | (_, .markRunDeleted runId userId) =>
      some (store.committed (store.markRunDeleted runId userId))
  | (now, .cleanup unlinks) => some (store.cleanup now timeout unlinks)

variable {maxActive timeout}
variable {store next : FileStore} {now : Instant}

/-- Every unfinished job has an upload that is not deleted, and no two have the
same. -/
structure SourcesSafe (store : FileStore) : Prop where
  kept : ∀ job ∈ store.jobs, job.status.terminal = false →
    ∃ object ∈ store.objects, object.id = job.fileId ∧ object.deleted = false
  single : ∀ job ∈ store.jobs, ∀ other ∈ store.jobs, job.status.terminal = false →
    other.status.terminal = false → job.fileId = other.fileId → job.id = other.id

/-- What the guards rely on besides. -/
structure SourcesSound (store : FileStore) : Prop extends store.SourcesSafe where
  objects : (store.objects.map (·.id)).Nodup
  jobs : (store.jobs.map (·.id)).Nodup
  unattached : ∀ object ∈ store.objects, object.category = "upload" → object.runId = none
  importable : ∀ job ∈ store.jobs, job.status.terminal = false →
    ∀ object ∈ store.objects, object.id = job.fileId → object.userId = job.userId ∧ object.category = "upload" ∧
      (object.suffix = ".json" ∨ object.suffix = ".csv")

/-- The step comes upon a paused job that its guard does not see: it gives the
upload to a second job, or takes it away. -/
def OverlooksPaused (maxActive : ℕ) (store : FileStore) : Instant × ImportOperation → Prop
  | (now, .createJob jobId fileId userId _) =>
      (∃ job ∈ store.jobs, job.status = .paused ∧ job.fileId = fileId ∧ job.userId = userId) ∧
        (∃ object ∈ store.objects, object.id = fileId ∧ object.available now = true) ∧
        store.jobs.countP FileJob.active < maxActive ∧ ∀ other ∈ store.jobs, other.id ≠ jobId
  | (_, .markFileDeleted fileId userId) =>
      ∃ job ∈ store.jobs, job.status = .paused ∧ job.fileId = fileId ∧ job.userId = userId
  | (now, .cleanup unlinks) =>
      ∃ job ∈ store.jobs, job.status = .paused ∧ unlinks job.fileId = true ∧
        ∃ object ∈ store.objects, object.id = job.fileId ∧ object.expiresAt.any (· ≤ now) = true
  | _ => False

instance : ∀ label, Decidable (store.OverlooksPaused maxActive label)
  | (_, .createJob _ _ _ _) => inferInstanceAs (Decidable (_ ∧ _))
  | (_, .markFileDeleted _ _) => inferInstanceAs (Decidable (∃ _ ∈ _, _))
  | (_, .cleanup _) => inferInstanceAs (Decidable (∃ _ ∈ _, _))
  | (_, .addFile _ _) | (_, .claimJob _ _) | (_, .pauseJob _) | (_, .syncTaskStatus _ _ _ _)
  | (_, .failJob _ _) | (_, .progress _ _ _) | (_, .completeJob _ _ _)
  | (_, .markRunDeleted _ _) => inferInstanceAs (Decidable False)

/-! ## Operations on the jobs -/

/-- An update of jobs that finishes some and starts none. -/
structure KeepsJob (job after : FileJob) : Prop where
  id : after.id = job.id
  userId : after.userId = job.userId
  fileId : after.fileId = job.fileId
  finished : job.status.terminal = true → after.status.terminal = true

theorem KeepsJob.refl (job : FileJob) : KeepsJob job job := ⟨rfl, rfl, rfl, fun hfinished => hfinished⟩

theorem SourcesSound.setJobs (hsound : store.SourcesSound) {condition : FileJob → Bool}
    {change : FileJob → FileJob}
    (hkept : ∀ job, condition job = true → KeepsJob job (change job)) :
    SourcesSound { store with jobs := updateWhere condition change store.jobs } := by
  have hupdated : ∀ after ∈ updateWhere condition change store.jobs,
      ∃ job ∈ store.jobs, KeepsJob job after := by
    intro after hafter
    obtain ⟨job, hjob, rfl⟩ := mem_updateWhere.mp hafter
    refine ⟨job, hjob, ?_⟩
    split_ifs with hselected
    · exact hkept job hselected
    · exact .refl job
  have hopen : ∀ {job after : FileJob}, KeepsJob job after → after.status.terminal = false →
      job.status.terminal = false := by
    intro job after hkeeps hafter
    by_contra hfinished
    rw [Bool.not_eq_false] at hfinished
    rw [hkeeps.finished hfinished] at hafter
    cases hafter
  have hids : (updateWhere condition change store.jobs).map (·.id) = store.jobs.map (·.id) := by
    rw [updateWhere, List.map_map]
    apply List.map_congr_left
    intro job _
    dsimp only [Function.comp_apply]
    split_ifs with hselected
    · exact (hkept job hselected).id
    · rfl
  refine ⟨⟨?_, ?_⟩, hsound.objects, ?_, hsound.unattached, ?_⟩
  · intro after hafter hunfinished
    obtain ⟨job, hjob, hkeeps⟩ := hupdated after hafter
    rw [hkeeps.fileId]
    exact hsound.kept job hjob (hopen hkeeps hunfinished)
  · intro after hafter other hother hunfinished hopenOther hfile
    obtain ⟨job, hjob, hkeeps⟩ := hupdated after hafter
    obtain ⟨second, hsecond, hkeepsOther⟩ := hupdated other hother
    rw [hkeeps.id, hkeepsOther.id]
    apply hsound.single job hjob second hsecond (hopen hkeeps hunfinished)
      (hopen hkeepsOther hopenOther)
    rw [← hkeeps.fileId, ← hkeepsOther.fileId, hfile]
  · rw [hids]
    exact hsound.jobs
  · intro after hafter hunfinished object hobject hid
    obtain ⟨job, hjob, hkeeps⟩ := hupdated after hafter
    rw [hkeeps.userId]
    exact hsound.importable job hjob (hopen hkeeps hunfinished) object hobject
      (hid.trans hkeeps.fileId)

theorem SourcesSound.setJobStatus (hsound : store.SourcesSound) {condition : FileJob → Bool}
    {status : Status}
    (hopen : ∀ job, condition job = true → job.status.terminal = false) :
    (store.setJobStatus now condition status).SourcesSound := by
  refine hsound.setJobs fun job hselected => ⟨rfl, rfl, rfl, fun hfinished => ?_⟩
  rw [hopen job hselected] at hfinished
  cases hfinished

theorem SourcesSound.failJob (hsound : store.SourcesSound) (now : Instant) (jobId : JobId)
    (details : JsonDict) : (store.failJob now jobId details).SourcesSound :=
  hsound.setJobs fun _ _ => ⟨rfl, rfl, rfl, fun _ => rfl⟩

theorem SourcesSound.progress (hsound : store.SourcesSound) (now : Instant) (jobId : JobId)
    (processed total : ℕ) : (store.progress now jobId processed total).SourcesSound :=
  hsound.setJobs fun _ _ => ⟨rfl, rfl, rfl, fun hfinished => hfinished⟩

theorem SourcesSound.completeJob (hsound : store.SourcesSound) (now : Instant) (jobId : JobId)
    (userId : String) (result : JsonDict) :
    (store.completeJob now jobId userId result).SourcesSound :=
  hsound.setJobs fun _ _ => ⟨rfl, rfl, rfl, fun _ => rfl⟩

theorem SourcesSound.failStaleJobs (hsound : store.SourcesSound) (now : Instant)
    (timeout : ℕ) : (store.failStaleJobs now timeout).SourcesSound :=
  hsound.setJobs fun _ _ => ⟨rfl, rfl, rfl, fun _ => rfl⟩

/-! ## Operations on the files -/

/-- The upload of an unfinished job, with what its creation has checked. -/
theorem SourcesSound.source (hsound : store.SourcesSound) {job : FileJob}
    (hjob : job ∈ store.jobs) (hopen : job.status.terminal = false) :
    ∃ object ∈ store.objects, object.id = job.fileId ∧ object.userId = job.userId ∧
      object.category = "upload" ∧ (object.suffix = ".json" ∨ object.suffix = ".csv") ∧
      object.deleted = false ∧ object.runId = none := by
  obtain ⟨object, hobject, hid, hlive⟩ := hsound.kept job hjob hopen
  obtain ⟨huser, hcategory, hsuffix⟩ := hsound.importable job hjob hopen object hobject hid
  exact ⟨object, hobject, hid, huser, hcategory, hsuffix, hlive,
    hsound.unattached object hobject hcategory⟩

/-- An unfinished job that no guard sees is paused. -/
theorem paused_of_not_active {job : FileJob} (hopen : job.status.terminal = false)
    (hunseen : job.active = false) : job.status = .paused := by
  cases hstatus : job.status <;> simp_all [FileJob.active, Status.terminal]

/-- A paused job is the only one its upload has. -/
theorem SourcesSound.not_active (hsound : store.SourcesSound) {job other : FileJob}
    (hjob : job ∈ store.jobs) (hpaused : job.status = .paused) (hother : other ∈ store.jobs)
    (hfile : other.fileId = job.fileId) : other.active = false := by
  by_contra hactive
  have hrunning : other.status = .pending ∨ other.status = .running := by
    rw [Bool.not_eq_false] at hactive
    simpa [FileJob.active] using hactive
  have hopen : other.status.terminal = false := by
    obtain hpending | hrunning := hrunning
    · rw [hpending]
      rfl
    · rw [hrunning]
      rfl
  have hid := hsound.single other hother job hjob hopen (by rw [hpaused]; rfl) hfile
  obtain rfl := row_unique hsound.jobs hother hjob hid
  simp [hpaused] at hrunning

theorem SourcesSound.addFile (hsound : store.SourcesSound) {object : FileObject}
    {maxUserBytes : ℕ} (hattached : object.category = "upload" → object.runId = none)
    (hadd : store.addFile object maxUserBytes = .ok next) : next.SourcesSound := by
  obtain ⟨hfresh, rfl⟩ := addFile_eq_ok hadd
  refine ⟨⟨?_, hsound.single⟩, ?_, hsound.jobs, ?_, ?_⟩
  · intro job hjob hopen
    obtain ⟨upload, hupload, hkept⟩ := hsound.kept job hjob hopen
    exact ⟨upload, List.mem_append_left _ hupload, hkept⟩
  · exact nodup_append_object hsound.objects hfresh
  · intro other hother hcategory
    cases List.mem_append.mp hother with
    | inl hbefore => exact hsound.unattached other hbefore hcategory
    | inr hadded =>
        obtain rfl : other = object := by simpa using hadded
        exact hattached hcategory
  · intro job hjob hopen other hother hid
    cases List.mem_append.mp hother with
    | inl hbefore => exact hsound.importable job hjob hopen other hbefore hid
    | inr hadded =>
        obtain rfl : other = object := by simpa using hadded
        obtain ⟨upload, hupload, hsame, _⟩ := hsound.kept job hjob hopen
        exact absurd (hsame.trans hid.symm) (hfresh upload hupload)

/-- What `create_job` has checked when it succeeds. -/
theorem createJob_eq_ok {jobId : JobId} {fileId : FileId} {userId mode : String} :
    store.createJob now jobId fileId userId mode maxActive = .ok next ↔
      (∃ object, (store.objects.find? fun object =>
          object.id = fileId && object.userId = userId && object.available now) = some object ∧
        (object.suffix = ".json" ∨ object.suffix = ".csv") ∧ object.category = "upload") ∧
      (∀ job ∈ store.jobs, job.fileId = fileId → job.active = false) ∧
      store.jobs.countP FileJob.active < maxActive ∧ (∀ job ∈ store.jobs, job.id ≠ jobId) ∧
      next = { store with
        jobs := store.jobs ++
          [{ id := jobId, userId := userId, fileId := fileId, mode := mode, updatedAt := now }] } := by
  unfold createJob
  simp only [bind, Except.bind, throw, throwThe, MonadExceptOf.throw, pure, Except.pure]
  cases hfound : store.objects.find? fun object =>
      object.id = fileId && object.userId = userId && object.available now with
  | none => simp
  | some object =>
      dsimp only
      split_ifs with hkind hactive hcapacity hkey
      · constructor
        · nofun
        · rintro ⟨⟨found, hsame, hsuffix, hcategory⟩, _⟩
          obtain rfl := Option.some.inj hsame
          exact absurd hkind (by simp [hsuffix, hcategory])
      · constructor
        · nofun
        · rintro ⟨_, hunseen, _⟩
          obtain ⟨job, hjob, hseen⟩ := List.any_eq_true.mp hactive
          simp only [Bool.and_eq_true, decide_eq_true_eq] at hseen
          cases (hunseen job hjob hseen.1).symm.trans hseen.2
      · constructor
        · nofun
        · rintro ⟨_, _, hfree, _⟩
          exact absurd hcapacity (not_le.mpr hfree)
      · constructor
        · nofun
        · rintro ⟨_, _, _, hfresh, _⟩
          obtain ⟨job, hjob, hsame⟩ := List.any_eq_true.mp hkey
          exact absurd (of_decide_eq_true hsame) (hfresh job hjob)
      · rw [not_or, not_not, not_not] at hkind
        rw [Bool.not_eq_true] at hactive hkey
        constructor
        · intro hcreated
          cases hcreated
          refine ⟨⟨object, rfl, hkind⟩, ?_, not_le.mp hcapacity, ?_, rfl⟩
          · intro job hjob hfile
            simpa [hfile] using List.any_eq_false.mp hactive job hjob
          · intro job hjob
            simpa using List.any_eq_false.mp hkey job hjob
        · rintro ⟨_, _, _, _, rfl⟩
          rfl

/-- The new job has its upload for itself, unless a paused job has it. -/
theorem SourcesSound.createJob (hsound : store.SourcesSound) {jobId : JobId} {fileId : FileId}
    {userId mode : String}
    (hheeded : ¬store.OverlooksPaused maxActive (now, .createJob jobId fileId userId mode))
    (hcreate : store.createJob now jobId fileId userId mode maxActive = .ok next) :
    next.SourcesSound := by
  obtain ⟨⟨object, hfound, hsuffix, hcategory⟩, hunseen, hfree, hfresh, rfl⟩ :=
    createJob_eq_ok.mp hcreate
  have hobject := List.mem_of_find?_eq_some hfound
  have hselected := List.find?_some hfound
  simp only [Bool.and_eq_true, decide_eq_true_eq] at hselected
  obtain ⟨⟨hid, huser⟩, havailable⟩ := hselected
  have hfinished : ∀ job ∈ store.jobs, job.status.terminal = false → job.fileId ≠ fileId := by
    intro job hjob hopen hfile
    apply hheeded
    have hpaused := paused_of_not_active hopen (hunseen job hjob hfile)
    have howner := (hsound.importable job hjob hopen object hobject (hid.trans hfile.symm)).1
    exact ⟨⟨job, hjob, hpaused, hfile, howner.symm.trans huser⟩,
      ⟨object, hobject, hid, havailable⟩, hfree, hfresh⟩
  refine ⟨⟨?_, ?_⟩, hsound.objects, ?_, hsound.unattached, ?_⟩
  · intro job hjob hopen
    cases List.mem_append.mp hjob with
    | inl hbefore => exact hsound.kept job hbefore hopen
    | inr hadded =>
        obtain rfl := List.mem_singleton.mp hadded
        refine ⟨object, hobject, hid, ?_⟩
        simp only [FileObject.available, Bool.and_eq_true, Bool.not_eq_true'] at havailable
        exact havailable.1
  · intro job hjob other hother hopen hopenOther hfile
    cases List.mem_append.mp hjob with
    | inl hbefore =>
        cases List.mem_append.mp hother with
        | inl hotherBefore => exact hsound.single job hbefore other hotherBefore hopen hopenOther hfile
        | inr hadded =>
            obtain rfl := List.mem_singleton.mp hadded
            exact absurd hfile (hfinished job hbefore hopen)
    | inr hadded =>
        obtain rfl := List.mem_singleton.mp hadded
        cases List.mem_append.mp hother with
        | inl hotherBefore => exact absurd hfile.symm (hfinished other hotherBefore hopenOther)
        | inr hotherAdded =>
            obtain rfl := List.mem_singleton.mp hotherAdded
            rfl
  · dsimp only
    rw [List.map_append, List.nodup_append]
    refine ⟨hsound.jobs, by simp, ?_⟩
    intro id hmember other hadded
    obtain ⟨job, hjob, rfl⟩ := List.mem_map.mp hmember
    obtain rfl : other = jobId := by simpa using hadded
    exact hfresh job hjob
  · intro job hjob hopen other hother hsame
    cases List.mem_append.mp hjob with
    | inl hbefore => exact hsound.importable job hbefore hopen other hother hsame
    | inr hadded =>
        obtain rfl := List.mem_singleton.mp hadded
        obtain rfl := row_unique hsound.objects hother hobject (hsame.trans hid.symm)
        exact ⟨huser, hcategory, hsuffix⟩

/-- Where a paused job has the upload, the new one is the second. -/
theorem not_safe_createJob (hsound : store.SourcesSound) {jobId : JobId} {fileId : FileId}
    {userId mode : String}
    (hoverlooked : store.OverlooksPaused maxActive (now, .createJob jobId fileId userId mode)) :
    ¬(store.committed
      (store.createJob now jobId fileId userId mode maxActive)).SourcesSafe := by
  obtain ⟨⟨job, hjob, hpaused, hfile, huser⟩, ⟨object, hobject, hid, havailable⟩, hfree, hfresh⟩ :=
    hoverlooked
  have hopen : job.status.terminal = false := by rw [hpaused]; rfl
  obtain ⟨howner, hcategory, hsuffix⟩ :=
    hsound.importable job hjob hopen object hobject (hid.trans hfile.symm)
  obtain ⟨found, hfound⟩ : ∃ found, (store.objects.find? fun object =>
      object.id = fileId && object.userId = userId && object.available now) = some found := by
    rw [← Option.isSome_iff_exists, List.find?_isSome]
    exact ⟨object, hobject, by simp [hid, howner.trans huser, havailable]⟩
  have hsame : found.id = fileId := by
    have hselected := List.find?_some hfound
    simp only [Bool.and_eq_true, decide_eq_true_eq] at hselected
    exact hselected.1.1
  obtain rfl := row_unique hsound.objects (List.mem_of_find?_eq_some hfound) hobject
    (hsame.trans hid.symm)
  have hunseen : ∀ other ∈ store.jobs, other.fileId = fileId → other.active = false :=
    fun other hother hotherFile =>
      hsound.not_active hjob hpaused hother (hotherFile.trans hfile.symm)
  have hcreated : store.createJob now jobId fileId userId mode maxActive = .ok _ :=
    createJob_eq_ok.mpr ⟨⟨found, hfound, hsuffix, hcategory⟩, hunseen, hfree, hfresh, rfl⟩
  rw [hcreated]
  intro hsafe
  have htwice := hsafe.single job (List.mem_append_left _ hjob) _
    (List.mem_append_right _ (List.mem_singleton_self _)) hopen rfl hfile
  exact hfresh job hjob htwice

/-- The uploads of unfinished jobs are among the objects that are left, which
have changed only in their tombstones. -/
theorem SourcesSound.setObjects (hsound : store.SourcesSound) {runs : List FileRun}
    {objects : List FileObject} (hkeys : (objects.map (·.id)).Nodup)
    (hbefore : ∀ object ∈ objects, ∃ before ∈ store.objects,
      object = { before with deleted := object.deleted })
    (hkept : ∀ job ∈ store.jobs, job.status.terminal = false → ∀ object ∈ store.objects,
      object.id = job.fileId → object.userId = job.userId → object.deleted = false →
      object.runId = none → object ∈ objects) :
    SourcesSound { store with runs := runs, objects := objects } := by
  refine ⟨⟨?_, hsound.single⟩, hkeys, hsound.jobs, ?_, ?_⟩
  · intro job hjob hopen
    obtain ⟨object, hobject, hid, huser, _, _, hlive, hrun⟩ := hsound.source hjob hopen
    exact ⟨object, hkept job hjob hopen object hobject hid huser hlive hrun, hid, hlive⟩
  · intro object hobject hcategory
    obtain ⟨before, hmember, hsame⟩ := hbefore object hobject
    rw [hsame] at hcategory ⊢
    exact hsound.unattached before hmember hcategory
  · intro job hjob hopen object hobject hid
    obtain ⟨before, hmember, hsame⟩ := hbefore object hobject
    rw [hsame] at hid ⊢
    exact hsound.importable job hjob hopen before hmember hid

theorem exists_before_of_marked {condition : FileObject → Bool} {objects : List FileObject} :
    ∀ object ∈ updateWhere condition (fun object => { object with deleted := true }) objects,
      ∃ before ∈ objects, object = { before with deleted := object.deleted } := by
  intro object hobject
  obtain ⟨before, hmember, rfl⟩ := mem_updateWhere.mp hobject
  refine ⟨before, hmember, ?_⟩
  split_ifs <;> rfl

theorem SourcesSound.markFileDeleted (hsound : store.SourcesSound) {fileId : FileId}
    {userId : String}
    (hheeded : ¬store.OverlooksPaused maxActive (now, .markFileDeleted fileId userId))
    (hmark : store.markFileDeleted fileId userId = .ok next) : next.SourcesSound := by
  unfold FileStore.markFileDeleted at hmark
  split_ifs at hmark with hactive
  rw [Bool.not_eq_true] at hactive
  cases hmark
  refine hsound.setObjects ?_ exists_before_of_marked ?_
  · exact (tombstone_ids store fileId userId).symm ▸ hsound.objects
  · intro job hjob hopen object hobject hid huser _ _
    apply mem_updateWhere_of_not hobject
    by_contra htarget
    rw [Bool.not_eq_false, Bool.and_eq_true, decide_eq_true_eq, decide_eq_true_eq] at htarget
    have hfile : job.fileId = fileId := hid.symm.trans htarget.1
    have hunseen : job.active = false := by
      simpa [hfile] using List.any_eq_false.mp hactive job hjob
    exact hheeded ⟨job, hjob, paused_of_not_active hopen hunseen, hfile,
      huser.symm.trans htarget.2⟩

/-- The tombstone of a file with a paused job is the deletion of its upload. -/
theorem not_safe_markFileDeleted (hsound : store.SourcesSound) {fileId : FileId}
    {userId : String}
    (hoverlooked : store.OverlooksPaused maxActive (now, .markFileDeleted fileId userId)) :
    ¬(store.committed (store.markFileDeleted fileId userId)).SourcesSafe := by
  obtain ⟨job, hjob, hpaused, hfile, huser⟩ := hoverlooked
  have hopen : job.status.terminal = false := by rw [hpaused]; rfl
  have hunseen : store.jobs.any (fun job => job.fileId = fileId && job.active) = false := by
    apply List.any_eq_false.mpr
    intro other hother
    by_cases hsame : other.fileId = fileId
    · have hinactive := hsound.not_active hjob hpaused hother (hsame.trans hfile.symm)
      simp [hinactive]
    · simp [hsame]
  unfold FileStore.markFileDeleted
  rw [hunseen, if_neg Bool.false_ne_true]
  intro hsafe
  obtain ⟨object, hobject, hid, hlive⟩ := hsafe.kept job hjob hopen
  obtain ⟨before, hmember, rfl⟩ := mem_updateWhere.mp hobject
  have hbefore : before.id = fileId := by
    split_ifs at hid <;> exact hid.trans hfile
  have howner := (hsound.importable job hjob hopen before hmember (hbefore.trans hfile.symm)).1
  rw [if_pos (by simp [hbefore, howner, huser])] at hlive
  cases hlive

theorem SourcesSound.markRunDeleted (hsound : store.SourcesSound) {runId userId : String}
    (hmark : store.markRunDeleted runId userId = .ok next) : next.SourcesSound := by
  obtain ⟨_, _, rfl⟩ := map_eq_ok.mp hmark
  refine hsound.setObjects ?_ exists_before_of_marked ?_
  · rw [map_updateWhere]
    · exact hsound.objects
    · exact fun _ => rfl
  · intro job hjob hopen object hobject _ _ _ hrun
    apply mem_updateWhere_of_not hobject
    simp [hrun]

/-- The objects that `cleanup` removes, after it has failed the stale jobs. -/
theorem removable_upload {object : FileObject} (hlive : object.deleted = false)
    (hrun : object.runId = none) :
    store.removable now object =
      (object.expiresAt.any (· ≤ now) &&
        !store.jobs.any fun job => job.fileId = object.id && job.active) := by
  have hruns : store.runs.any (fun run => some run.runId = object.runId && run.deleted) = false := by
    apply List.any_eq_false.mpr
    simp [hrun]
  simp [removable, hlive, hruns]

theorem SourcesSound.cleanup (hsound : store.SourcesSound) {unlinks : FileId → Bool}
    (hheeded : ¬store.OverlooksPaused maxActive (now, .cleanup unlinks)) :
    (store.cleanup now timeout unlinks).SourcesSound := by
  have hfailed := hsound.failStaleJobs now timeout
  refine hfailed.setObjects ?_ ?_ ?_
  · exact hsound.objects.sublist (List.filter_sublist.map _)
  · intro object hobject
    exact ⟨object, (List.mem_filter.mp hobject).1, rfl⟩
  · intro job hjob hopen object hobject hid _ hlive hrun
    apply List.mem_filter.mpr
    refine ⟨hobject, ?_⟩
    by_contra hremoved
    rw [Bool.not_eq_true, Bool.not_eq_false', Bool.and_eq_true, removable_upload hlive hrun,
      Bool.and_eq_true, Bool.not_eq_true'] at hremoved
    obtain ⟨⟨hexpired, hunused⟩, hunlinked⟩ := hremoved
    have hunseen : job.active = false := by
      simpa [hid] using List.any_eq_false.mp hunused job hjob
    have hpaused := paused_of_not_active hopen hunseen
    -- A paused job was not among those that cleanup has failed.
    obtain ⟨before, hbefore, hsame⟩ := mem_updateWhere.mp hjob
    have hunchanged : before = job := by
      split_ifs at hsame with hstale
      · rw [← hsame] at hpaused
        cases hpaused
      · exact hsame
    subst hunchanged
    exact hheeded ⟨before, hbefore, hpaused, by rwa [← hid], object, hobject, hid, hexpired⟩

/-- The expired upload of a paused job is removed. -/
theorem not_safe_cleanup (hsound : store.SourcesSound) {unlinks : FileId → Bool}
    (hoverlooked : store.OverlooksPaused maxActive (now, .cleanup unlinks)) :
    ¬(store.cleanup now timeout unlinks).SourcesSafe := by
  obtain ⟨job, hjob, hpaused, hunlinked, object, hobject, hid, hexpired⟩ := hoverlooked
  have hopen : job.status.terminal = false := by rw [hpaused]; rfl
  have hstays : job ∈ (store.failStaleJobs now timeout).jobs :=
    mem_updateWhere_of_not hjob (by simp [FileJob.active, hpaused])
  intro hsafe
  obtain ⟨kept, hkept, hkeptId, _⟩ := hsafe.kept job hstays hopen
  obtain ⟨hmember, hstay⟩ := List.mem_filter.mp hkept
  obtain rfl := row_unique hsound.objects hmember hobject (hkeptId.trans hid.symm)
  obtain ⟨source, hsource, hsourceId, _, _, _, hlive, hrun⟩ := hsound.source hjob hopen
  obtain rfl := row_unique hsound.objects hsource hobject (hsourceId.trans hid.symm)
  have hunused : (store.failStaleJobs now timeout).jobs.any
      (fun other => other.fileId = source.id && other.active) = false := by
    apply List.any_eq_false.mpr
    intro other hother
    by_cases hsame : other.fileId = source.id
    · have hinactive := (hsound.failStaleJobs now timeout).not_active hstays hpaused hother
        (hsame.trans hid)
      simp [hinactive]
    · simp [hsame]
  rw [removable_upload hlive hrun, hunused, hexpired, hid, hunlinked] at hstay
  cases hstay

/-! ## Runs -/

theorem sourcesSound_importStep {label : Instant × ImportOperation} (hsound : store.SourcesSound)
    (hheeded : ¬store.OverlooksPaused maxActive label)
    (hstep : store.importStep maxActive timeout label = some next) : next.SourcesSound := by
  obtain ⟨now, operation⟩ := label
  cases operation with
  | addFile object maxUserBytes =>
      simp only [importStep] at hstep
      split_ifs at hstep with hattached
      cases hstep
      exact committed_cases SourcesSound hsound _ fun _ hadd => hsound.addFile hattached hadd
  | createJob jobId fileId userId mode =>
      cases hstep
      exact committed_cases SourcesSound hsound _ fun _ hcreate => hsound.createJob hheeded hcreate
  | claimJob jobId userId =>
      cases hstep
      apply hsound.setJobStatus
      intro job hselected
      simp only [Bool.and_eq_true, decide_eq_true_eq] at hselected
      rw [hselected.2]
      rfl
  | pauseJob jobId =>
      cases hstep
      apply hsound.setJobStatus
      intro job hselected
      simp only [Bool.and_eq_true, decide_eq_true_eq] at hselected
      rw [hselected.2]
      rfl
  | syncTaskStatus jobId userId status expectedStatus =>
      cases hstep
      apply hsound.setJobStatus
      intro job hselected
      simp only [Bool.and_eq_true, Bool.not_eq_true'] at hselected
      exact hselected.1.2
  | failJob jobId details =>
      cases hstep
      exact hsound.failJob now jobId details
  | progress jobId processed total =>
      cases hstep
      exact hsound.progress now jobId processed total
  | completeJob jobId userId result =>
      cases hstep
      exact hsound.completeJob now jobId userId result
  | markFileDeleted fileId userId =>
      cases hstep
      exact committed_cases SourcesSound hsound _ fun _ hmark => hsound.markFileDeleted hheeded hmark
  | markRunDeleted runId userId =>
      cases hstep
      exact committed_cases SourcesSound hsound _ fun _ hmark => hsound.markRunDeleted hmark
  | cleanup unlinks =>
      cases hstep
      exact hsound.cleanup hheeded

theorem not_safe_importStep {label : Instant × ImportOperation} (hsound : store.SourcesSound)
    (hoverlooked : store.OverlooksPaused maxActive label) :
    ∃ next, store.importStep maxActive timeout label = some next ∧ ¬next.SourcesSafe := by
  obtain ⟨now, operation⟩ := label
  cases operation with
  | createJob jobId fileId userId mode => exact ⟨_, rfl, not_safe_createJob hsound hoverlooked⟩
  | markFileDeleted fileId userId => exact ⟨_, rfl, not_safe_markFileDeleted hsound hoverlooked⟩
  | cleanup unlinks => exact ⟨_, rfl, not_safe_cleanup hsound hoverlooked⟩
  | _ => exact absurd hoverlooked id

/-- A file store without import jobs. -/
structure Idle (store : FileStore) : Prop where
  jobs : store.jobs = []
  objects : (store.objects.map (·.id)).Nodup
  unattached : ∀ object ∈ store.objects, object.category = "upload" → object.runId = none

theorem Idle.sourcesSound (hidle : store.Idle) : store.SourcesSound where
  kept := by simp [hidle.jobs]
  single := by simp [hidle.jobs]
  objects := hidle.objects
  jobs := by simp [hidle.jobs]
  unattached := hidle.unattached
  importable := by simp [hidle.jobs]

/-- A run of operations keeps the uploads of unfinished imports safe in all its
states if and only if none of its steps overlooks a paused job. -/
theorem sourcesSafe_iff (hidle : store.Idle) (labels : List (Instant × ImportOperation)) :
    StepsMeet (importStep maxActive timeout)
        (fun store label => ∀ next, store.importStep maxActive timeout label = some next →
          next.SourcesSafe) store labels ↔
      StepsMeet (importStep maxActive timeout)
        (fun store label => ¬store.OverlooksPaused maxActive label) store labels := by
  refine (StepsMeet.congr SourcesSound ?_ ?_ hidle.sourcesSound labels).symm
  · intro state label hsound
    constructor
    · intro hheeded next hstep
      exact (sourcesSound_importStep hsound hheeded hstep).toSourcesSafe
    · intro hsafe hoverlooked
      obtain ⟨next, hstep, hunsafe⟩ := not_safe_importStep hsound hoverlooked
      exact hunsafe (hsafe next hstep)
  · intro state label next hsound hheeded hstep
    exact sourcesSound_importStep hsound hheeded hstep

/-- A store with one upload. -/
def uploaded : FileStore :=
  { objects := [{ id := 1, userId := "u", suffix := ".json", category := "upload", sha256 := "a",
                  expiresAt := some 100 }] }

theorem uploaded_idle : uploaded.Idle := ⟨rfl, by decide, by decide⟩

/-- While its import runs the upload cannot be deleted, and after its end it
can. -/
theorem sourcesSafe_iff_finished :
    let labels : List (Instant × ImportOperation) :=
      [(1, .createJob 1 1 "u" "append"), (2, .claimJob 1 "u"), (3, .markFileDeleted 1 "u"),
        (4, .pauseJob 1), (5, .syncTaskStatus 1 "u" .pending (some .paused)),
        (6, .cleanup fun _ => true), (7, .claimJob 1 "u"), (8, .completeJob 1 "u" ∅),
        (9, .markFileDeleted 1 "u"), (10, .cleanup fun _ => true)]
    StepsMeet (importStep 8 60)
      (fun store label => ∀ next, store.importStep 8 60 label = some next → next.SourcesSafe)
      uploaded labels := by
  intro labels
  exact (sourcesSafe_iff uploaded_idle labels).mpr (by decide +kernel)

/-- An import is paused and its owner deletes the upload: the job goes on
without it.  Or it is submitted once more, and the paused job resumed. -/
theorem paused_source_lost :
    (∃ store, Transition.run (importStep 8 60) uploaded
        [(1, .createJob 1 1 "u" "append"), (2, .claimJob 1 "u"), (3, .pauseJob 1),
          (4, .markFileDeleted 1 "u")] = some store ∧
      store.jobs.map (·.status) = [.paused] ∧ store.objects.map (·.deleted) = [true] ∧
      ¬store.SourcesSafe) ∧
    ∃ store, Transition.run (importStep 8 60) uploaded
        [(1, .createJob 1 1 "u" "append"), (2, .claimJob 1 "u"), (3, .pauseJob 1),
          (4, .createJob 2 1 "u" "append"),
          (5, .syncTaskStatus 1 "u" .pending (some .paused))] = some store ∧
      store.jobs.map (fun job => (job.fileId, job.status)) = [(1, .pending), (1, .pending)] ∧
      ¬store.SourcesSafe := by
  refine ⟨⟨_, rfl, by decide, by decide, ?_⟩, ⟨_, rfl, by decide, ?_⟩⟩
  · intro hsafe
    obtain ⟨object, hobject, _, hlive⟩ := hsafe.kept _ (List.mem_singleton_self _) rfl
    obtain rfl := List.mem_singleton.mp hobject
    cases hlive
  · intro hsafe
    have htwice := hsafe.single _ List.mem_cons_self _
      (List.mem_cons_of_mem _ List.mem_cons_self) rfl rfl rfl
    cases htwice

end FileStore

end AlgorithmHarness.Files
