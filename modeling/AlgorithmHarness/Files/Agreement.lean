import AlgorithmHarness.Files.Publication

/-!
# Agreement of the publication row and the registry

What the row says is published is what the registry points to.  The invariant
relates the two at every moment of every call: the registry is never ahead of
the row, and the row lock keeps the revision still while a call activates it.
-/

namespace AlgorithmHarness.Files

open TaskManager (Instant)
open Transition

/-- The phases of a call that has seen its revision in the registry. -/
def Phase.verified : Phase → Bool
  | .verifying _ | .ready none _ | .checked none _ | .activated => true
  | _ => false

/-- The phases in which a call holds the row lock. -/
def Phase.locked : Phase → Bool
  | .checked _ _ | .activated => true
  | _ => false

namespace FileStore

open Table

variable {store next : FileStore} {runId userId : String} {timeout : ℕ}

/-- A file the run points to has the recorded digest as long as it is live. -/
def Matches (runId userId : String) (store : FileStore) : Prop :=
  ∀ run, store.run? runId userId = some run → ∀ object ∈ store.objects,
    run.resultFileId = some object.id → object.deleted = false →
      run.resultDigest = some object.sha256

/-- What the run points to is what it pointed to before. -/
def Kept (runId userId : String) (store next : FileStore) : Prop :=
  ∀ run, store.run? runId userId = some run → ∃ moved, next.run? runId userId = some moved ∧
    moved.resultFileId = run.resultFileId ∧ moved.resultRevision = run.resultRevision ∧
    moved.resultDigest = run.resultDigest

theorem mem_of_tombstoned {condition : FileObject → Bool} {objects : List FileObject}
    {object : FileObject}
    (hobject : object ∈ updateWhere condition (fun row => { row with deleted := true }) objects)
    (hlive : object.deleted = false) : object ∈ objects := by
  obtain ⟨before, hbefore, hrow⟩ := mem_updateWhere.mp hobject
  split_ifs at hrow
  · subst hrow
    cases hlive
  · exact hrow ▸ hbefore

theorem Matches.of_kept {run : FileRun} (hmatches : store.Matches runId userId)
    (hrun : store.run? runId userId = some run) (hkept : Kept runId userId store next)
    (hobjects : ∀ object ∈ next.objects, run.resultFileId = some object.id →
      object.deleted = false → object ∈ store.objects) : next.Matches runId userId := by
  obtain ⟨moved, hmoved, hfile, _, hdigest⟩ := hkept run hrun
  intro found hfound object hobject hpointed hlive
  cases hmoved.symm.trans hfound
  rw [hfile] at hpointed
  rw [hdigest]
  exact hmatches run hrun object (hobjects object hobject hpointed hlive) hpointed hlive

/-- An operation other than an activation leaves the pointer alone. -/
theorem kept_snapshotStep {now : Instant} {operation : SnapshotOperation}
    (hstep : store.snapshotStep runId userId timeout (now, operation) = some next)
    (hother : ∀ fileId revision digest replaceFileId contentDigest,
      operation ≠ .activateSnapshot fileId revision digest replaceFileId contentDigest) :
    Kept runId userId store next := by
  intro run hrun
  obtain ⟨moved, hmoved, hmove⟩ := run?_snapshotStep hrun hstep
  refine ⟨moved, hmoved, ?_⟩
  cases hmove with
  | activated => exact (hother _ _ _ _ _ rfl).elim
  | same | fileDeleted | runDeleted => exact ⟨rfl, rfl, rfl⟩

theorem mem_of_cleanup {now : Instant} {unlinks : FileId → Bool} {object : FileObject}
    (hobject : object ∈ (store.cleanup now timeout unlinks).objects) : object ∈ store.objects :=
  List.mem_of_mem_filter hobject

/-- No operation but an activation brings a file under a key the run points to,
if a new file has a new key. -/
theorem live_snapshotStep {run : FileRun} {now : Instant} {operation : SnapshotOperation}
    (hstep : store.snapshotStep runId userId timeout (now, operation) = some next)
    (hother : ∀ fileId revision digest replaceFileId contentDigest,
      operation ≠ .activateSnapshot fileId revision digest replaceFileId contentDigest)
    (hfresh : ∀ object maxUserBytes, operation = .addFile object maxUserBytes →
      run.resultFileId ≠ some object.id) :
    ∀ object ∈ next.objects, run.resultFileId = some object.id → object.deleted = false →
      object ∈ store.objects := by
  intro object hobject hpointed hlive
  cases operation with
  | activateSnapshot => exact (hother _ _ _ _ _ rfl).elim
  | addFile added maxUserBytes =>
      cases hstep
      refine committed_cases (fun written => object ∈ written.objects →
        object ∈ store.objects) id _ (fun written hadd => ?_) hobject
      obtain ⟨_, rfl⟩ := addFile_eq_ok hadd
      intro hmember
      cases List.mem_append.mp hmember with
      | inl hbefore => exact hbefore
      | inr hadded =>
          obtain rfl := List.mem_singleton.mp hadded
          exact absurd hpointed (hfresh object maxUserBytes rfl)
  | markFileDeleted fileId owner =>
      cases hstep
      refine committed_cases (fun written => object ∈ written.objects →
        object ∈ store.objects) id _ (fun written hmark => ?_) hobject
      unfold markFileDeleted at hmark
      split_ifs at hmark
      cases hmark
      exact fun hmember => mem_of_tombstoned hmember hlive
  | markRunDeleted =>
      cases hstep
      refine committed_cases (fun written => object ∈ written.objects →
        object ∈ store.objects) id _ (fun written hmark => ?_) hobject
      obtain ⟨_, _, rfl⟩ := map_eq_ok.mp hmark
      exact fun hmember => mem_of_tombstoned hmember hlive
  | discardCandidate fileId owner unlinks =>
      cases hstep
      exact mem_of_tombstoned (mem_of_cleanup hobject) hlive
  | cleanup unlinks =>
      cases hstep
      exact mem_of_cleanup hobject

/-- The run after an activation: at the revision, with its digest. -/
theorem activateSnapshot_run {now : Instant} {fileId result : FileId} {revision : ℕ}
    {digest : String} {replaceFileId : Option FileId} {contentDigest : Option String}
    (hactivate : store.activateSnapshot now runId userId fileId revision digest replaceFileId
      contentDigest = .ok (next, result)) :
    ∃ run moved, store.run? runId userId = some run ∧ next.run? runId userId = some moved ∧
      run.resultRevision ≤ revision ∧ moved.resultRevision = revision ∧
      moved.resultDigest = some digest ∧ moved.resultFileId = some result := by
  obtain ⟨run, hrun, _, _, _, hrevision, hdigest, hdone⟩ := activateSnapshot_eq_ok hactivate
  cases hdone with
  | inl hplace =>
      obtain ⟨hplace, rfl⟩ := hplace
      obtain ⟨hold, hchecked⟩ := Option.filter_eq_some_iff.mp hplace
      have hsame : run.resultRevision = revision := by
        simp only [Bool.and_eq_true, decide_eq_true_eq] at hchecked
        exact hchecked.1.2
      refine ⟨run, run, hrun, ?_, hrevision, hsame, hdigest hsame, hold⟩
      split_ifs <;> exact hrun
  | inr hmoved =>
      obtain ⟨candidate, _, _, _, _, _, _, rfl, rfl⟩ := hmoved
      exact ⟨run, _, hrun, run?_setResult hrun .., hrevision, rfl, rfl, rfl⟩

theorem Matches.activateSnapshot (hmatches : store.Matches runId userId)
    (hkeys : (store.objects.map (·.id)).Nodup) {now : Instant} {fileId result : FileId}
    {revision : ℕ} {digest : String} {replaceFileId : Option FileId}
    {contentDigest : Option String}
    (hactivate : store.activateSnapshot now runId userId fileId revision digest replaceFileId
      contentDigest = .ok (next, result)) : next.Matches runId userId := by
  obtain ⟨run, hrun, _, _, _, _, _, hdone⟩ := activateSnapshot_eq_ok hactivate
  cases hdone with
  | inl hplace =>
      obtain ⟨_, rfl⟩ := hplace
      split_ifs
      · refine hmatches.of_kept hrun (fun found hfound => ⟨found, hfound, rfl, rfl, rfl⟩) ?_
        exact fun object hobject _ hlive => mem_of_tombstoned hobject hlive
      · exact hmatches
  | inr hmoved =>
      obtain ⟨candidate, hmember, hid, _, _, _, hsha, _, rfl⟩ := hmoved
      intro moved hfound object hobject hpointed hlive
      rw [run?_setResult hrun] at hfound
      cases hfound
      have hplaced : object.id = fileId := (Option.some.inj hpointed).symm
      have hbefore : ∃ before ∈ store.objects, before.id = object.id ∧
          before.sha256 = object.sha256 := by
        have hexpires : object ∈ updateWhere
            (fun object => object.id = fileId && object.userId = userId)
            (fun object => { object with expiresAt := none }) store.objects := by
          unfold setResult at hobject
          dsimp only at hobject
          split at hobject
          · split_ifs at hobject
            · exact mem_of_tombstoned hobject hlive
            · exact hobject
          · exact hobject
        obtain ⟨before, hbefore, rfl⟩ := mem_updateWhere.mp hexpires
        refine ⟨before, hbefore, ?_⟩
        split_ifs <;> exact ⟨rfl, rfl⟩
      obtain ⟨before, hbefore, hsame, hdigest⟩ := hbefore
      cases row_unique hkeys hbefore hmember ((hsame.trans hplaced).trans hid.symm)
      exact congrArg some (hsha.symm.trans hdigest)

end FileStore

namespace System

variable {site : Site} {system next : System} {now : Instant}

/-- The registry of a publication: at most at its revision, there with its
snapshot, and there if the row says so. -/
structure Behind (site : Site) (publication : Publication) (run : FileRun) : Prop where
  positive : 0 < publication.revision
  revision : run.resultRevision ≤ publication.revision
  digest : run.resultRevision = publication.revision →
    run.resultDigest = some (site.snapshotDigest publication.snapshot)
  pointed : 0 < run.resultRevision → run.resultFileId ≠ none
  published : publication.isPublished = true → run.resultRevision = publication.revision

/-- What a call of `publish` relies on. -/
structure WorkerSound (publication : Publication) (run : FileRun) (lock : Option ℕ)
    (worker : ℕ) (state : Worker) : Prop where
  revision : state.revision ≤ publication.revision
  captured : state.revision = publication.revision →
    state.snapshot = publication.snapshot ∧ state.contentDigest = publication.contentDigest
  verified : state.phase.verified = true → state.revision ≤ run.resultRevision
  locked : state.phase.locked = true → lock = some worker ∧ state.revision = publication.revision

/-- The publication a call of `export_results` has found. -/
def Export.found : Export → Option Publication
  | .unpublished => none
  | .opened publication | .located publication _ | .loaded publication _ => some publication

/-- What a call of `export_results` relies on. -/
structure ExportSound (site : Site) (publication : Publication) (state : Export) : Prop where
  found : ∀ opened, Export.found state = some opened → opened.revision ≤ publication.revision ∧
    (opened.revision = publication.revision → opened.snapshot = publication.snapshot)
  loaded : ∀ opened data, state = .loaded opened data →
    site.sha256 data = site.snapshotDigest opened.snapshot

/-- The row of the run in the registry, deleted or not. -/
def run? (site : Site) (system : System) : Option FileRun :=
  system.files.run? site.evaluationId site.owner

structure Invariant (site : Site) (system : System) : Prop where
  files : system.files.Sound site.evaluationId site.owner
  current : system.files.Matches site.evaluationId site.owner
  registered : ∃ run, system.run? site = some run
  unpublished : system.publication = none → ∀ run, system.run? site = some run →
    run.resultRevision = 0 ∧ run.resultFileId = none
  behind : ∀ publication, system.publication = some publication → ∀ run,
    system.run? site = some run → Behind site publication run
  workers : ∀ worker state, system.workers worker = some state → state.phase ≠ .begun →
    ∃ publication run, system.publication = some publication ∧ system.run? site = some run ∧
      WorkerSound publication run system.lock worker state
  exports : ∀ call state, system.exports call = some state → state ≠ .unpublished →
    ∃ publication, system.publication = some publication ∧ ExportSound site publication state

/-! ## What any step leaves to the calls -/

/-- A publication moves on by whole revisions, and only while nobody holds the
lock. -/
def Later (lock : Option ℕ) (before after : Publication) : Prop :=
  (after.revision = before.revision ∧ after.snapshot = before.snapshot ∧
    after.contentDigest = before.contentDigest) ∨
  (before.revision < after.revision ∧ lock = none)

theorem WorkerSound.mono {publication after : Publication} {run moved : FileRun}
    {lock held : Option ℕ} {worker : ℕ} {state : Worker}
    (hsound : WorkerSound publication run lock worker state)
    (hlater : Later lock publication after) (hrun : run.resultRevision ≤ moved.resultRevision)
    (hlock : lock = some worker → held = some worker) :
    WorkerSound after moved held worker state := by
  cases hlater with
  | inl hsame =>
      obtain ⟨hrevision, hsnapshot, hcontent⟩ := hsame
      refine ⟨?_, ?_, fun hverified => le_trans (hsound.verified hverified) hrun, ?_⟩
      · rw [hrevision]
        exact hsound.revision
      · intro hcurrent
        rw [hsnapshot, hcontent]
        exact hsound.captured (hcurrent.trans hrevision)
      · intro hlocked
        obtain ⟨hheld, hcurrent⟩ := hsound.locked hlocked
        exact ⟨hlock hheld, hcurrent.trans hrevision.symm⟩
  | inr hmoved =>
      obtain ⟨hnewer, hfree⟩ := hmoved
      have hbehind := hsound.revision
      refine ⟨by omega, fun hcurrent => by omega,
        fun hverified => le_trans (hsound.verified hverified) hrun, ?_⟩
      intro hlocked
      cases hfree.symm.trans (hsound.locked hlocked).1

theorem ExportSound.mono {publication after : Publication} {lock : Option ℕ} {state : Export}
    (hsound : ExportSound site publication state) (hlater : Later lock publication after) :
    ExportSound site after state := by
  refine ⟨?_, hsound.loaded⟩
  intro opened hopened
  obtain ⟨hbehind, hcurrent⟩ := hsound.found opened hopened
  cases hlater with
  | inl hsame =>
      obtain ⟨hrevision, hsnapshot, _⟩ := hsame
      rw [hrevision, hsnapshot]
      exact ⟨hbehind, hcurrent⟩
  | inr hmoved => exact ⟨by omega, fun hequal => by omega⟩

theorem registry_eq_some {registry : FileRun} (hregistry : system.registry site = some registry) :
    system.run? site = some registry ∧ registry.deleted = false := by
  unfold System.registry at hregistry
  cases hcheck : system.files.checkRun site.evaluationId site.owner with
  | error error =>
      rw [hcheck] at hregistry
      cases hregistry
  | ok found =>
      rw [hcheck] at hregistry
      cases hregistry
      exact FileStore.checkRun_eq_ok hcheck

/-- A step keeps the invariant if it keeps the registry behind the publication
and does not disturb the other calls. -/
theorem Invariant.of_later (hinv : system.Invariant site)
    (hfiles : next.files.Sound site.evaluationId site.owner)
    (hcurrent : next.files.Matches site.evaluationId site.owner)
    (hrun : ∀ run, system.run? site = some run → ∃ moved, next.run? site = some moved ∧
      run.resultRevision ≤ moved.resultRevision)
    (hpublication : ∀ publication, system.publication = some publication →
      ∃ after, next.publication = some after ∧ Later system.lock publication after)
    (hunpublished : next.publication = none → ∀ run, next.run? site = some run →
      run.resultRevision = 0 ∧ run.resultFileId = none)
    (hbehind : ∀ publication, next.publication = some publication → ∀ run,
      next.run? site = some run → Behind site publication run)
    (hworkers : ∀ worker state, next.workers worker = some state → state.phase ≠ .begun →
      (system.workers worker = some state ∧
        (system.lock = some worker → next.lock = some worker)) ∨
      ∃ publication run, next.publication = some publication ∧ next.run? site = some run ∧
        WorkerSound publication run next.lock worker state)
    (hexports : ∀ call state, next.exports call = some state → state ≠ .unpublished →
      system.exports call = some state ∨
      ∃ publication, next.publication = some publication ∧ ExportSound site publication state) :
    next.Invariant site where
  files := hfiles
  current := hcurrent
  registered := by
    obtain ⟨run, hfound⟩ := hinv.registered
    obtain ⟨moved, hmoved, _⟩ := hrun run hfound
    exact ⟨moved, hmoved⟩
  unpublished := hunpublished
  behind := hbehind
  workers worker state hstate hbegun := by
    cases hworkers worker state hstate hbegun with
    | inr hsound => exact hsound
    | inl hkept =>
        obtain ⟨hbefore, hlock⟩ := hkept
        obtain ⟨publication, run, hstaged, hfound, hsound⟩ :=
          hinv.workers worker state hbefore hbegun
        obtain ⟨after, hafter, hlater⟩ := hpublication publication hstaged
        obtain ⟨moved, hmoved, hrevision⟩ := hrun run hfound
        exact ⟨after, moved, hafter, hmoved, hsound.mono hlater hrevision hlock⟩
  exports call state hstate hfenced := by
    cases hexports call state hstate hfenced with
    | inr hsound => exact hsound
    | inl hbefore =>
        obtain ⟨publication, hstaged, hsound⟩ := hinv.exports call state hbefore hfenced
        obtain ⟨after, hafter, hlater⟩ := hpublication publication hstaged
        exact ⟨after, hafter, hsound.mono hlater⟩

/-! ## One lemma for each part of the system -/

/-- The row is written, on the same revision or on a new one. -/
theorem Invariant.setPublication (hinv : system.Invariant site) {after : Publication}
    (hlater : ∀ publication, system.publication = some publication →
      Later system.lock publication after)
    (hbehind : ∀ run, system.run? site = some run → Behind site after run) :
    ({ system with publication := some after } : System).Invariant site := by
  refine hinv.of_later ?_ ?_ ?_ ?_ ?_ ?_ ?_ ?_
  · exact hinv.files
  · exact hinv.current
  · exact fun run hrun => ⟨run, hrun, le_rfl⟩
  · exact fun publication hstaged => ⟨after, rfl, hlater publication hstaged⟩
  · exact nofun
  · intro publication hpublication run hrun
    cases hpublication
    exact hbehind run hrun
  · exact fun worker state hstate _ => .inl ⟨hstate, id⟩
  · exact fun call state hstate _ => .inl hstate

/-- The row is written without its revision, and not as published. -/
theorem Invariant.rewrite (hinv : system.Invariant site) {publication after : Publication}
    (hstaged : system.publication = some publication)
    (hrevision : after.revision = publication.revision)
    (hsnapshot : after.snapshot = publication.snapshot)
    (hcontent : after.contentDigest = publication.contentDigest)
    (hpublished : after.isPublished = true → publication.isPublished = true) :
    ({ system with publication := some after } : System).Invariant site := by
  apply hinv.setPublication
  · intro other hother
    cases hstaged.symm.trans hother
    exact .inl ⟨hrevision, hsnapshot, hcontent⟩
  · intro run hrun
    have hbehind := hinv.behind publication hstaged run hrun
    constructor
    · rw [hrevision]
      exact hbehind.positive
    · rw [hrevision]
      exact hbehind.revision
    · rw [hrevision, hsnapshot]
      exact hbehind.digest
    · exact hbehind.pointed
    · intro hafter
      rw [hrevision]
      exact hbehind.published (hpublished hafter)

/-- The file store is written, and the run keeps its result. -/
theorem Invariant.setFiles (hinv : system.Invariant site) {files : FileStore}
    (hfiles : files.Sound site.evaluationId site.owner)
    (hcurrent : files.Matches site.evaluationId site.owner)
    (hkept : FileStore.Kept site.evaluationId site.owner system.files files)
    (disk : FileId → Option Bytes) :
    ({ system with files := files, disk := disk } : System).Invariant site := by
  have hmoved : ∀ moved, files.run? site.evaluationId site.owner = some moved →
      ∃ run, system.run? site = some run ∧ moved.resultFileId = run.resultFileId ∧
        moved.resultRevision = run.resultRevision ∧ moved.resultDigest = run.resultDigest := by
    intro moved hfound
    obtain ⟨run, hrun⟩ := hinv.registered
    obtain ⟨other, hother, hsame⟩ := hkept run hrun
    cases hother.symm.trans hfound
    exact ⟨run, hrun, hsame⟩
  refine hinv.of_later ?_ ?_ ?_ ?_ ?_ ?_ ?_ ?_
  · exact hfiles
  · exact hcurrent
  · intro run hrun
    obtain ⟨moved, hfound, _, hrevision, _⟩ := hkept run hrun
    exact ⟨moved, hfound, Nat.le_of_eq hrevision.symm⟩
  · exact fun publication hstaged => ⟨publication, hstaged, .inl ⟨rfl, rfl, rfl⟩⟩
  · intro hnone moved hfound
    obtain ⟨run, hrun, hfile, hrevision, _⟩ := hmoved moved hfound
    obtain ⟨hzero, hempty⟩ := hinv.unpublished hnone run hrun
    exact ⟨hrevision.trans hzero, hfile.trans hempty⟩
  · intro publication hstaged moved hfound
    obtain ⟨run, hrun, hfile, hrevision, hdigest⟩ := hmoved moved hfound
    have hbehind := hinv.behind publication hstaged run hrun
    constructor
    · exact hbehind.positive
    · rw [hrevision]
      exact hbehind.revision
    · rw [hrevision, hdigest]
      exact hbehind.digest
    · rw [hrevision, hfile]
      exact hbehind.pointed
    · rw [hrevision]
      exact hbehind.published
  · exact fun worker state hstate _ => .inl ⟨hstate, id⟩
  · exact fun call state hstate _ => .inl hstate

theorem setWorker_self (system : System) (worker : ℕ) (state : Option Worker) :
    (system.setWorker worker state).workers worker = state :=
  Function.update_self ..

theorem setWorker_of_ne {worker other : ℕ} (hother : other ≠ worker) (system : System)
    (state : Option Worker) :
    (system.setWorker worker state).workers other = system.workers other :=
  Function.update_of_ne hother ..

theorem setExport_self (system : System) (call : ℕ) (state : Option Export) :
    (system.setExport call state).exports call = state :=
  Function.update_self ..

theorem setExport_of_ne {call other : ℕ} (hother : other ≠ call) (system : System)
    (state : Option Export) :
    (system.setExport call state).exports other = system.exports other :=
  Function.update_of_ne hother ..

/-- A worker moves on, and takes the lock or gives its own back. -/
theorem Invariant.setWorker (hinv : system.Invariant site) (worker : ℕ) (state : Option Worker)
    {lock : Option ℕ}
    (hlock : ∀ other, other ≠ worker → system.lock = some other → lock = some other)
    (hstate : ∀ moved, state = some moved → moved.phase ≠ .begun →
      ∃ publication run, system.publication = some publication ∧ system.run? site = some run ∧
        WorkerSound publication run lock worker moved) :
    (({ system with lock := lock } : System).setWorker worker state).Invariant site := by
  refine hinv.of_later ?_ ?_ ?_ ?_ ?_ ?_ ?_ ?_
  · exact hinv.files
  · exact hinv.current
  · exact fun run hrun => ⟨run, hrun, le_rfl⟩
  · exact fun publication hstaged => ⟨publication, hstaged, .inl ⟨rfl, rfl, rfl⟩⟩
  · exact hinv.unpublished
  · exact hinv.behind
  · intro other moved hmoved hbegun
    by_cases hsame : other = worker
    · subst hsame
      right
      rw [setWorker_self] at hmoved
      exact hstate moved hmoved hbegun
    · left
      rw [setWorker_of_ne hsame] at hmoved
      exact ⟨hmoved, hlock other hsame⟩
  · exact fun call state hstate _ => .inl hstate

theorem Invariant.dropWorker (hinv : system.Invariant site) (worker : ℕ) {lock : Option ℕ}
    (hlock : ∀ other, other ≠ worker → system.lock = some other → lock = some other) :
    (({ system with lock := lock } : System).setWorker worker none).Invariant site :=
  hinv.setWorker worker none hlock fun _ hnone => by cases hnone

theorem Invariant.setExport (hinv : system.Invariant site) (call : ℕ) (state : Option Export)
    (hstate : ∀ moved, state = some moved → moved ≠ .unpublished →
      ∃ publication, system.publication = some publication ∧
        ExportSound site publication moved) :
    (system.setExport call state).Invariant site := by
  refine hinv.of_later ?_ ?_ ?_ ?_ ?_ ?_ ?_ ?_
  · exact hinv.files
  · exact hinv.current
  · exact fun run hrun => ⟨run, hrun, le_rfl⟩
  · exact fun publication hstaged => ⟨publication, hstaged, .inl ⟨rfl, rfl, rfl⟩⟩
  · exact hinv.unpublished
  · exact hinv.behind
  · exact fun worker state hstate _ => .inl ⟨hstate, id⟩
  · intro other moved hmoved hfenced
    by_cases hsame : other = call
    · subst hsame
      right
      rw [setExport_self] at hmoved
      exact hstate moved hmoved hfenced
    · left
      rw [setExport_of_ne hsame] at hmoved
      exact hmoved

theorem Invariant.closeExport (hinv : system.Invariant site) (call : ℕ) :
    (system.setExport call none).Invariant site :=
  hinv.setExport call none fun _ hnone => by cases hnone

/-! ## The row -/

/-- Staging keeps the row or starts the next revision. -/
theorem stagePublication_cases {source : Source} {publication : Option Publication}
    {staged : Publication} (hstaged : site.stagePublication source publication = some staged) :
    publication = some staged ∨ (staged.isPublished = false ∧
      staged.revision = (publication.map (·.revision)).getD 0 + 1) := by
  unfold Site.stagePublication at hstaged
  dsimp only at hstaged
  split_ifs at hstaged
  cases publication with
  | none =>
      cases hstaged
      exact .inr ⟨rfl, rfl⟩
  | some current =>
      dsimp only at hstaged
      split_ifs at hstaged
      · exact .inl hstaged
      · cases hstaged
        exact .inr ⟨rfl, rfl⟩

theorem Invariant.stage (hinv : system.Invariant site) (hlock : system.lock = none)
    {staged : Publication}
    (hstaged : site.stagePublication system.source system.publication = some staged) :
    ({ system with publication := some staged } : System).Invariant site := by
  cases stagePublication_cases hstaged with
  | inl hkept => exact hinv.rewrite hkept rfl rfl rfl id
  | inr hnew =>
      obtain ⟨hpending, hrevision⟩ := hnew
      have hnewer : ∀ run, system.run? site = some run →
          run.resultRevision < staged.revision ∧
            (0 < run.resultRevision → run.resultFileId ≠ none) := by
        intro run hrun
        cases hpublication : system.publication with
        | none =>
            obtain ⟨hzero, _⟩ := hinv.unpublished hpublication run hrun
            exact ⟨by omega, fun hpositive => by omega⟩
        | some publication =>
            have hbehind := hinv.behind publication hpublication run hrun
            have hbefore := hbehind.revision
            rw [hpublication] at hrevision
            have hafter : staged.revision = publication.revision + 1 := hrevision
            exact ⟨by omega, hbehind.pointed⟩
      apply hinv.setPublication
      · intro publication hpublication
        rw [hpublication] at hrevision
        have hafter : staged.revision = publication.revision + 1 := hrevision
        exact .inr ⟨by omega, hlock⟩
      · intro run hrun
        obtain ⟨hbefore, hpointed⟩ := hnewer run hrun
        refine ⟨by omega, by omega, fun hequal => by omega, hpointed, fun hpublished => ?_⟩
        rw [hpending] at hpublished
        cases hpublished

theorem Invariant.recordFailure (hinv : system.Invariant site) (now : Instant) (revision : ℕ)
    (code : String) : (system.recordFailure site now revision code).Invariant site := by
  unfold System.recordFailure
  split
  · next publication hstaged =>
      split_ifs
      · exact hinv
      · exact hinv.rewrite hstaged rfl rfl rfl nofun
  · exact hinv

/-! ## The steps of a call of `publish` -/

variable {worker : ℕ} {state : Worker}

theorem currentFor_eq_some {revision : ℕ} {publication : Publication}
    (hcurrent : system.currentFor revision = some publication) :
    system.publication = some publication ∧ publication.revision = revision := by
  obtain ⟨hstaged, hchecked⟩ := Option.filter_eq_some_iff.mp hcurrent
  simp only [Bool.and_eq_true, decide_eq_true_eq] at hchecked
  exact ⟨hstaged, hchecked.1⟩

/-- A call that has captured its revision enters another phase. -/
theorem Invariant.moveOn (hinv : system.Invariant site)
    (hworker : system.workers worker = some state) (hbegun : state.phase ≠ .begun)
    {lock : Option ℕ} {phase : Phase}
    (hlock : ∀ other, other ≠ worker → system.lock = some other → lock = some other)
    (hverified : phase.verified = true → ∀ run, system.run? site = some run →
      state.revision ≤ run.resultRevision)
    (hlocked : phase.locked = true → lock = some worker ∧
      ∀ publication, system.publication = some publication →
        state.revision = publication.revision) :
    (({ system with lock := lock } : System).moveOn worker state phase).Invariant site := by
  obtain ⟨publication, run, hstaged, hrun, hsound⟩ := hinv.workers worker state hworker hbegun
  apply hinv.setWorker worker _ hlock
  intro moved hmoved _
  cases hmoved
  refine ⟨publication, run, hstaged, hrun, hsound.revision, hsound.captured, ?_, ?_⟩
  · exact fun hphase => hverified hphase run hrun
  · intro hphase
    obtain ⟨hheld, hrevision⟩ := hlocked hphase
    exact ⟨hheld, hrevision publication hstaged⟩

/-- Giving the lock back is nothing to those that do not have it. -/
theorem releaseLock_of_ne {other : ℕ} (hother : other ≠ worker)
    (hheld : system.lock = some other) :
    (system.releaseLock worker).lock = some other := by
  rw [releaseLock, hheld]
  simp [Option.filter, hother]

/-- A call that fails gives its lock back. -/
theorem Invariant.abandon (hinv : system.Invariant site)
    (hworker : system.workers worker = some state) (hbegun : state.phase ≠ .begun)
    (code : String) :
    ((system.releaseLock worker).moveOn worker state (.failing code)).Invariant site :=
  hinv.moveOn hworker hbegun (fun _ => releaseLock_of_ne) nofun nofun

/-- A call ends. -/
theorem Invariant.retire (hinv : system.Invariant site) (worker : ℕ) :
    ((system.releaseLock worker).setWorker worker none).Invariant site :=
  hinv.dropWorker worker (fun _ => releaseLock_of_ne)

theorem Invariant.capture (hinv : system.Invariant site)
    (hstep : system.publishStep site now worker state (.capture worker) = some next) :
    next.Invariant site := by
  unfold System.publishStep at hstep
  simp only at hstep
  split_ifs at hstep
  split at hstep
  · cases hstep
    exact hinv.dropWorker worker (fun _ _ => id)
  · next publication hcurrent =>
      cases hstep
      obtain ⟨hstaged, hrevision⟩ := currentFor_eq_some hcurrent
      obtain ⟨run, hrun⟩ := hinv.registered
      have hcounted : ({ system with publication := some { publication with
          attempts := publication.attempts + 1 } } : System).Invariant site :=
        hinv.rewrite hstaged rfl rfl rfl id
      apply hcounted.setWorker worker _ fun _ _ => id
      intro moved hmoved _
      cases hmoved
      exact ⟨_, run, rfl, hrun, Nat.le_of_eq hrevision.symm, fun _ => ⟨rfl, rfl⟩, nofun, nofun⟩

theorem Invariant.readRegistry (hinv : system.Invariant site)
    (hworker : system.workers worker = some state)
    (hstep : system.publishStep site now worker state (.readRegistry worker) = some next) :
    next.Invariant site := by
  unfold System.publishStep at hstep
  simp only at hstep
  split_ifs at hstep with hphase
  have hbegun : state.phase ≠ .begun := by
    rw [hphase]
    exact nofun
  split at hstep
  · cases hstep
    exact hinv.moveOn hworker hbegun (fun _ _ => id) nofun nofun
  · next registry hregistry =>
      split_ifs at hstep
      · cases hstep
        exact hinv.moveOn hworker hbegun (fun _ _ => id) nofun nofun
      · split at hstep
        · next fileId hplace =>
            cases hstep
            obtain ⟨_, hchecked⟩ := Option.filter_eq_some_iff.mp hplace
            simp only [Bool.and_eq_true, decide_eq_true_eq] at hchecked
            refine hinv.moveOn hworker hbegun (fun _ _ => id) (fun _ run hrun => ?_) nofun
            cases (registry_eq_some hregistry).1.symm.trans hrun
            exact Nat.le_of_eq hchecked.1.symm
        · cases hstep
          exact hinv.moveOn hworker hbegun (fun _ _ => id) nofun nofun

/-- A phase entered from one that has seen the revision in the registry. -/
theorem Invariant.seen (hinv : system.Invariant site)
    (hworker : system.workers worker = some state) (hverified : state.phase.verified = true)
    (run : FileRun) (hrun : system.run? site = some run) :
    state.revision ≤ run.resultRevision := by
  have hbegun : state.phase ≠ .begun := by
    intro hphase
    rw [hphase] at hverified
    cases hverified
  obtain ⟨_, found, _, hfound, hsound⟩ := hinv.workers worker state hworker hbegun
  cases hfound.symm.trans hrun
  exact hsound.verified hverified

theorem Invariant.verify (hinv : system.Invariant site)
    (hworker : system.workers worker = some state)
    (hstep : system.publishStep site now worker state (.verify worker) = some next) :
    next.Invariant site := by
  unfold System.publishStep at hstep
  simp only at hstep
  split at hstep
  · next fileId hphase =>
      cases hstep
      have hbegun : state.phase ≠ .begun := by
        rw [hphase]
        exact nofun
      apply hinv.moveOn hworker hbegun fun _ _ => id
      · exact fun _ => hinv.seen hworker (by rw [hphase]; rfl)
      · split_ifs <;> exact nofun
  · cases hstep

theorem Invariant.adopt (hinv : system.Invariant site) {fileId : FileId}
    (hworker : system.workers worker = some state)
    (hstep : system.publishStep site now worker state (.adopt worker fileId) = some next) :
    next.Invariant site := by
  unfold System.publishStep at hstep
  simp only at hstep
  split at hstep
  · next invalidFileId hphase =>
      have hbegun : state.phase ≠ .begun := by
        rw [hphase]
        exact nofun
      split_ifs at hstep
      cases hstep
      exact hinv.moveOn hworker hbegun (fun _ _ => id) nofun nofun
  · cases hstep

theorem Invariant.addFile (hinv : system.Invariant site) {object : FileObject}
    {maxUserBytes : ℕ} {files : FileStore}
    (hadd : system.files.addFile object maxUserBytes = .ok files)
    (hunused : system.unused object.id = true) (disk : FileId → Option Bytes) :
    ({ system with files := files, disk := disk } : System).Invariant site := by
  have hsound := hinv.files.addFile hadd
  obtain ⟨_, rfl⟩ := FileStore.addFile_eq_ok hadd
  obtain ⟨run, hrun⟩ := hinv.registered
  have hkept : FileStore.Kept site.evaluationId site.owner system.files
      { system.files with objects := system.files.objects ++ [object] } :=
    fun found hfound => ⟨found, hfound, rfl, rfl, rfl⟩
  refine hinv.setFiles hsound (hinv.current.of_kept hrun hkept ?_) hkept disk
  intro other hother hpointed _
  cases List.mem_append.mp hother with
  | inl hbefore => exact hbefore
  | inr hadded =>
      obtain rfl := List.mem_singleton.mp hadded
      have hfree := List.all_eq_true.mp hunused run (FileStore.run?_eq_some hrun).1
      exact absurd hpointed (by simpa using hfree)

theorem Invariant.stageSnapshot (hinv : system.Invariant site) {fileId : FileId}
    (hworker : system.workers worker = some state)
    (hstep : system.publishStep site now worker state (.stageSnapshot worker fileId) =
      some next) : next.Invariant site := by
  unfold System.publishStep at hstep
  simp only at hstep
  split at hstep
  · next invalidFileId hphase =>
      have hbegun : state.phase ≠ .begun := by
        rw [hphase]
        exact nofun
      split_ifs at hstep with hunused
      split at hstep
      · cases hstep
        exact hinv.moveOn hworker hbegun (fun _ _ => id) nofun nofun
      · next files hadd =>
          cases hstep
          exact (hinv.addFile hadd hunused _).moveOn hworker hbegun (fun _ _ => id) nofun nofun
  · cases hstep

theorem Invariant.check (hinv : system.Invariant site)
    (hworker : system.workers worker = some state)
    (hstep : system.publishStep site now worker state (.check worker) = some next) :
    next.Invariant site := by
  unfold System.publishStep at hstep
  simp only at hstep
  split at hstep
  · next candidate invalidFileId hphase =>
      cases hstep
      have hbegun : state.phase ≠ .begun := by
        rw [hphase]
        exact nofun
      apply hinv.moveOn hworker hbegun fun _ _ => id
      · split_ifs <;> exact nofun
      · split_ifs <;> exact nofun
  · cases hstep

theorem Invariant.lockRow (hinv : system.Invariant site)
    (hworker : system.workers worker = some state)
    (hstep : system.publishStep site now worker state (.lockRow worker) = some next) :
    next.Invariant site := by
  unfold System.publishStep at hstep
  simp only at hstep
  split at hstep
  · next candidate invalidFileId hphase =>
      have hbegun : state.phase ≠ .begun := by
        rw [hphase]
        exact nofun
      split_ifs at hstep with hfree
      split at hstep
      · cases hstep
        exact hinv.dropWorker worker (fun _ _ => id)
      · next publication hcurrent =>
          cases hstep
          obtain ⟨hstaged, hrevision⟩ := currentFor_eq_some hcurrent
          refine hinv.moveOn hworker hbegun ?_ ?_ ?_
          · intro other _ hheld
            cases hfree.symm.trans hheld
          · intro hverified
            apply hinv.seen hworker
            rw [hphase]
            cases candidate with
            | none => rfl
            | some candidate => cases hverified
          · intro _
            refine ⟨rfl, fun other hother => ?_⟩
            cases hstaged.symm.trans hother
            exact hrevision.symm
  · cases hstep

/-- What a call knows while it holds the lock. -/
theorem Invariant.held (hinv : system.Invariant site)
    (hworker : system.workers worker = some state) (hlocked : state.phase.locked = true) :
    ∃ publication run, system.publication = some publication ∧ system.run? site = some run ∧
      system.lock = some worker ∧ state.revision = publication.revision ∧
      state.snapshot = publication.snapshot ∧ Behind site publication run := by
  have hbegun : state.phase ≠ .begun := by
    intro hphase
    rw [hphase] at hlocked
    cases hlocked
  obtain ⟨publication, run, hstaged, hrun, hsound⟩ := hinv.workers worker state hworker hbegun
  obtain ⟨hheld, hrevision⟩ := hsound.locked hlocked
  exact ⟨publication, run, hstaged, hrun, hheld, hrevision, (hsound.captured hrevision).1,
    hinv.behind publication hstaged run hrun⟩

/-- The file store commits the revision the row is locked at. -/
theorem Invariant.activateSnapshot (hinv : system.Invariant site)
    (hworker : system.workers worker = some state) (hlocked : state.phase.locked = true)
    {candidate result : FileId} {invalidFileId : Option FileId} {contentDigest : Option String}
    {files : FileStore}
    (hactivate : system.files.activateSnapshot now site.evaluationId site.owner candidate
      state.revision (site.snapshotDigest state.snapshot) invalidFileId contentDigest =
        .ok (files, result)) :
    ({ system with files := files } : System).Invariant site ∧
      ∃ run, files.run? site.evaluationId site.owner = some run ∧
        run.resultRevision = state.revision := by
  obtain ⟨run, moved, hrun, hmoved, hbefore, hrevision, hdigest, hfile⟩ :=
    FileStore.activateSnapshot_run hactivate
  obtain ⟨publication, _, hstaged, _, _, hcurrent, hsnapshot, hbehind⟩ :=
    hinv.held hworker hlocked
  refine ⟨?_, moved, hmoved, hrevision⟩
  refine hinv.of_later ?_ ?_ ?_ ?_ ?_ ?_ ?_ ?_
  · exact hinv.files.activateSnapshot hactivate
  · exact hinv.current.activateSnapshot hinv.files.objects hactivate
  · intro found hfound
    cases hrun.symm.trans hfound
    exact ⟨moved, hmoved, by omega⟩
  · exact fun publication hstaged => ⟨publication, hstaged, .inl ⟨rfl, rfl, rfl⟩⟩
  · intro hnone
    cases hstaged.symm.trans hnone
  · intro other hother found hfound
    cases hstaged.symm.trans hother
    cases hmoved.symm.trans hfound
    refine ⟨hbehind.positive, by omega, ?_, ?_, fun _ => by omega⟩
    · intro _
      rw [hdigest, hsnapshot]
    · rw [hfile]
      exact fun _ => nofun
  · exact fun worker state hstate _ => .inl ⟨hstate, id⟩
  · exact fun call state hstate _ => .inl hstate

theorem Invariant.activate (hinv : system.Invariant site)
    (hworker : system.workers worker = some state)
    (hstep : system.publishStep site now worker state (.activate worker) = some next) :
    next.Invariant site := by
  unfold System.publishStep at hstep
  simp only at hstep
  split at hstep
  · next invalidFileId hphase =>
      cases hstep
      have hlocked : state.phase.locked = true := by rw [hphase]; rfl
      obtain ⟨publication, _, hstaged, _, hheld, hrevision, _⟩ := hinv.held hworker hlocked
      apply hinv.moveOn hworker (by rw [hphase]; exact nofun) fun _ _ => id
      · exact fun _ => hinv.seen hworker (by rw [hphase]; rfl)
      · refine fun _ => ⟨hheld, fun other hother => ?_⟩
        cases hstaged.symm.trans hother
        exact hrevision
  · next candidate invalidFileId hphase =>
      have hlocked : state.phase.locked = true := by rw [hphase]; rfl
      have hbegun : state.phase ≠ .begun := by
        rw [hphase]
        exact nofun
      split at hstep
      · cases hstep
        exact hinv.abandon hworker hbegun _
      · next files result hactivate =>
          cases hstep
          obtain ⟨hwritten, run, hrun, hactivated⟩ :=
            hinv.activateSnapshot hworker hlocked hactivate
          obtain ⟨publication, _, hstaged, _, hheld, hrevision, _⟩ := hinv.held hworker hlocked
          apply hwritten.moveOn hworker hbegun fun _ _ => id
          · intro _ found hfound
            cases hrun.symm.trans hfound
            exact Nat.le_of_eq hactivated.symm
          · refine fun _ => ⟨hheld, fun other hother => ?_⟩
            cases hstaged.symm.trans hother
            exact hrevision
  · cases hstep

theorem Invariant.commitPublished (hinv : system.Invariant site)
    (hworker : system.workers worker = some state)
    (hstep : system.publishStep site now worker state (.commitPublished worker) = some next) :
    next.Invariant site := by
  unfold System.publishStep at hstep
  simp only at hstep
  split at hstep
  · next hphase =>
      cases hstep
      obtain ⟨publication, run, hstaged, hrun, _, hrevision, _, hbehind⟩ :=
        hinv.held hworker (by rw [hphase]; rfl)
      have hseen := hinv.seen hworker (by rw [hphase]; rfl) run hrun
      have hcommitted : ({ system with
          publication := some publication.markPublished } : System).Invariant site := by
        apply hinv.setPublication
        · intro other hother
          cases hstaged.symm.trans hother
          exact .inl ⟨rfl, rfl, rfl⟩
        · intro found hfound
          cases hrun.symm.trans hfound
          refine ⟨hbehind.positive, hbehind.revision, hbehind.digest, hbehind.pointed, fun _ => ?_⟩
          have hbefore := hbehind.revision
          exact Nat.le_antisymm hbefore (hrevision ▸ hseen)
      rw [hstaged]
      exact hcommitted.retire worker
  · cases hstep

theorem Invariant.fail (hinv : system.Invariant site)
    (hstep : system.publishStep site now worker state (.fail worker) = some next) :
    next.Invariant site := by
  unfold System.publishStep at hstep
  simp only at hstep
  split at hstep
  · split_ifs at hstep
    cases hstep
    exact (hinv.recordFailure now _ _).dropWorker worker (fun _ _ => id)
  · cases hstep

theorem Invariant.publishStep (hinv : system.Invariant site) {action : Action}
    (haction : Action.worker action = some worker) (hworker : system.workers worker = some state)
    (hstep : system.publishStep site now worker state action = some next) :
    next.Invariant site := by
  cases action with
  | capture => cases haction; exact hinv.capture hstep
  | readRegistry => cases haction; exact hinv.readRegistry hworker hstep
  | verify => cases haction; exact hinv.verify hworker hstep
  | adopt => cases haction; exact hinv.adopt hworker hstep
  | stageSnapshot => cases haction; exact hinv.stageSnapshot hworker hstep
  | check => cases haction; exact hinv.check hworker hstep
  | lockRow => cases haction; exact hinv.lockRow hworker hstep
  | activate => cases haction; exact hinv.activate hworker hstep
  | commitPublished => cases haction; exact hinv.commitPublished hworker hstep
  | fail => cases haction; exact hinv.fail hstep
  | raise _ code =>
      unfold System.publishStep at hstep
      simp only at hstep
      split_ifs at hstep with hbegun
      cases hstep
      exact hinv.abandon hworker hbegun code
  | crash =>
      cases hstep
      exact hinv.retire worker
  | _ => cases haction

/-! ## The steps of a call of `export_results` -/

variable {call : ℕ} {opened : Export}

/-- A call goes on with the publication it has found. -/
theorem Invariant.follow (hinv : system.Invariant site) {publication : Publication}
    (hcall : system.exports call = some opened) (hfound : Export.found opened = some publication)
    {after : Export} (hafter : Export.found after = some publication)
    (hloaded : ∀ found data, after = .loaded found data →
      site.sha256 data = site.snapshotDigest found.snapshot) :
    (system.setExport call (some after)).Invariant site := by
  apply hinv.setExport
  intro moved hmoved _
  cases hmoved
  have hfenced : opened ≠ .unpublished := by
    rintro rfl
    cases hfound
  obtain ⟨current, hcurrent, hsound⟩ := hinv.exports call opened hcall hfenced
  refine ⟨current, hcurrent, ?_, hloaded⟩
  intro found hsame
  cases hafter.symm.trans hsame
  exact hsound.found publication hfound

theorem Invariant.exportStep (hinv : system.Invariant site) {action : Action}
    (hcall : system.exports call = some opened)
    (hstep : system.exportStep site now call opened action = some next) :
    next.Invariant site := by
  unfold System.exportStep at hstep
  split at hstep
  · split at hstep
    · next publication =>
        cases hstep
        cases hlocated : system.currentFile site publication with
        | none => exact hinv.closeExport call
        | some fileId => exact hinv.follow hcall rfl rfl fun _ _ hloaded => by cases hloaded
    · cases hstep
  · split at hstep
    · next publication fileId =>
        cases hstep
        cases hdata : (system.readFile site now fileId).filter fun data =>
            site.sha256 data = site.snapshotDigest publication.snapshot with
        | none => exact hinv.closeExport call
        | some data =>
            apply hinv.follow hcall rfl rfl
            intro found other hsame
            cases hsame
            simpa using (Option.filter_eq_some_iff.mp hdata).2
    · cases hstep
  · split at hstep
    · cases hstep
      exact hinv.closeExport call
    · cases hstep
      exact hinv.closeExport call
    · cases hstep
  · cases hstep

/-! ## Every step -/

theorem Invariant.filesStep (hinv : system.Invariant site) {operation : SnapshotOperation}
    (hstep : system.step site (now, .files operation) = some next) : next.Invariant site := by
  obtain ⟨run, hrun⟩ := hinv.registered
  have hoperation : (∀ fileId revision digest replaceFileId contentDigest, operation ≠
        .activateSnapshot fileId revision digest replaceFileId contentDigest) ∧
      (∀ object maxUserBytes, operation = .addFile object maxUserBytes →
        run.resultFileId ≠ some object.id) ∧
      ∃ files, system.files.snapshotStep site.evaluationId site.owner site.timeout
        (now, operation) = some files ∧ next = { system with files := files } := by
    cases operation with
    | activateSnapshot => cases hstep
    | addFile object maxUserBytes =>
        simp only [System.step] at hstep
        split_ifs at hstep with hunused
        cases hstep
        refine ⟨nofun, ?_, _, rfl, rfl⟩
        intro _ _ hsame
        cases hsame
        have hfree := List.all_eq_true.mp hunused run (FileStore.run?_eq_some hrun).1
        simpa using hfree
    | _ =>
        cases hstep
        exact ⟨nofun, nofun, _, rfl, rfl⟩
  obtain ⟨hother, hfresh, files, hfiles, rfl⟩ := hoperation
  have hkept := FileStore.kept_snapshotStep hfiles hother
  refine hinv.setFiles (FileStore.sound_snapshotStep hinv.files hfiles) ?_ hkept system.disk
  exact hinv.current.of_kept hrun hkept (FileStore.live_snapshotStep hfiles hother hfresh)

theorem invariant_preserved (site : Site) :
    Preserved (System.step site) (System.Invariant site) := by
  intro system label next hinv hstep
  obtain ⟨now, action⟩ := label
  cases action with
  | setSource source =>
      simp only [System.step] at hstep
      split_ifs at hstep
      cases hstep
      exact ⟨hinv.files, hinv.current, hinv.registered, hinv.unpublished, hinv.behind,
        hinv.workers, hinv.exports⟩
  | stage =>
      simp only [System.step] at hstep
      split_ifs at hstep with hfree
      cases hstep
      cases hstaged : site.stagePublication system.source system.publication with
      | none => exact hinv
      | some staged => exact hinv.stage hfree hstaged
  | files operation => exact hinv.filesStep hstep
  | setDisk fileId data =>
      cases hstep
      exact hinv.setFiles hinv.files hinv.current
        (fun run hrun => ⟨run, hrun, rfl, rfl, rfl⟩) _
  | begin worker revision manual =>
      simp only [System.step] at hstep
      split_ifs at hstep
      cases hstep
      apply hinv.setWorker worker _ fun _ _ => id
      intro moved hmoved hbegun
      cases hmoved
      exact absurd rfl hbegun
  | retryStage =>
      simp only [System.step] at hstep
      split_ifs at hstep with hfree
      obtain ⟨registry, _, hstep⟩ := Option.bind_eq_some_iff.mp hstep
      obtain ⟨staged, hstaged, hstep⟩ := Option.bind_eq_some_iff.mp hstep
      split_ifs at hstep
      all_goals
        cases hstep
        exact hinv.stage hfree hstaged
  | retryReset revision =>
      simp only [System.step] at hstep
      split_ifs at hstep
      obtain ⟨publication, hcurrent, hstep⟩ := Option.bind_eq_some_iff.mp hstep
      split_ifs at hstep
      · cases hstep
        exact hinv
      · cases hstep
        exact hinv.rewrite (currentFor_eq_some hcurrent).1 rfl rfl rfl nofun
  | recordFailure revision code =>
      simp only [System.step] at hstep
      split_ifs at hstep
      cases hstep
      exact hinv.recordFailure now revision code
  | dispatchFailed revision =>
      simp only [System.step] at hstep
      split_ifs at hstep
      cases hstep
      cases hstaged : system.publication with
      | none =>
          rw [Option.map_none, ← hstaged]
          exact hinv
      | some publication =>
          rw [Option.map_some]
          split_ifs
          · exact hinv.rewrite hstaged rfl rfl rfl nofun
          · exact hinv.rewrite hstaged rfl rfl rfl id
  | openExport call =>
      simp only [System.step] at hstep
      split at hstep
      · cases hstep
        apply hinv.setExport
        intro moved hmoved hfenced
        cases hmoved
        exact absurd rfl hfenced
      · next publication hstaged =>
          split_ifs at hstep
          cases hstep
          apply hinv.setExport
          intro moved hmoved _
          cases hmoved
          refine ⟨publication, hstaged, ?_, nofun⟩
          intro found hfound
          cases hfound
          exact ⟨le_rfl, fun _ => rfl⟩
  | locate call | load call | deliver call =>
      obtain ⟨opened, hcall, hstep⟩ := Option.bind_eq_some_iff.mp hstep
      exact hinv.exportStep hcall hstep
  | _ =>
      obtain ⟨state, hworker, hstep⟩ := Option.bind_eq_some_iff.mp hstep
      exact hinv.publishStep rfl hworker hstep

/-! ## The law of publication -/

/-- The run is registered, and nothing has been staged or called. -/
structure Fresh (site : Site) (system : System) : Prop where
  files : system.files.Registered site.evaluationId site.owner
  publication : system.publication = none
  workers : ∀ worker, system.workers worker = none
  exports : ∀ call, system.exports call = none

theorem Fresh.invariant (hfresh : system.Fresh site) : system.Invariant site where
  files := hfresh.files.sound
  current run hrun object _ hfile := by
    cases hfresh.files.run.symm.trans hrun
    cases hfile
  registered := ⟨_, hfresh.files.run⟩
  unpublished _ run hrun := by
    cases hfresh.files.run.symm.trans hrun
    exact ⟨rfl, rfl⟩
  behind publication hstaged := by
    cases hfresh.publication.symm.trans hstaged
  workers worker state hstate := by
    cases (hfresh.workers worker).symm.trans hstate
  exports call state hstate := by
    cases (hfresh.exports call).symm.trans hstate

theorem Invariant.agrees (hinv : system.Invariant site) {publication : Publication}
    {registry : FileRun} (hstaged : system.publication = some publication)
    (hregistry : system.registry site = some registry)
    (hpublished : publication.isPublished = true)
    (hkept : registry.deletedFor publication.revision publication.contentDigest = false) :
    registry.resultRevision = publication.revision ∧
      ∃ object ∈ system.files.objects, registry.resultFileId = some object.id ∧
        object.deleted = false ∧ object.sha256 = site.snapshotDigest publication.snapshot := by
  obtain ⟨hrun, hlive⟩ := registry_eq_some hregistry
  have hbehind := hinv.behind publication hstaged registry hrun
  have hrevision := hbehind.published hpublished
  refine ⟨hrevision, ?_⟩
  have hpositive := hbehind.positive
  obtain ⟨fileId, hfile⟩ := Option.ne_none_iff_exists'.mp (hbehind.pointed (by omega))
  cases hinv.files.active registry hrun fileId hfile with
  | inl hwithdrawn =>
      exfalso
      cases hwithdrawn with
      | inl hdeleted => exact Bool.false_ne_true (hlive.symm.trans hdeleted)
      | inr hdeleted =>
          obtain ⟨deleted, hdeleted, hcovers⟩ := hdeleted
          rw [FileRun.deletedFor, hdeleted, Bool.or_eq_false_iff] at hkept
          have huncovered : ¬publication.revision ≤ deleted := by simpa using hkept.1
          omega
  | inr hcurrent =>
      obtain ⟨object, hobject, hcurrent⟩ := hcurrent
      refine ⟨object, hobject, hfile.trans (congrArg some hcurrent.id.symm), hcurrent.deleted, ?_⟩
      exact Option.some.inj (hcurrent.sha256.symm.trans (hbehind.digest hrevision))

theorem readFile_eq_some {fileId : FileId} {data : Bytes}
    (hread : system.readFile site now fileId = some data) :
    ∃ object ∈ system.files.objects, object.id = fileId ∧ object.deleted = false ∧
      site.sha256 data = object.sha256 := by
  unfold readFile at hread
  split at hread
  · cases hread
  · next object howned =>
      obtain ⟨_, hdata⟩ := Option.filter_eq_some_iff.mp hread
      unfold FileStore.ownedFile at howned
      split at howned
      · cases howned
      · next found hfound =>
          split_ifs at howned
          obtain ⟨_, _, rfl⟩ := map_eq_ok.mp howned
          have hselected := List.find?_some hfound
          simp only [Bool.and_eq_true, decide_eq_true_eq, Bool.not_eq_true'] at hselected
          exact ⟨found, List.mem_of_find?_eq_some hfound, hselected.1.1, hselected.2,
            by simpa using hdata⟩

/-- The bytes of the file of the registry have the digest of the registry. -/
theorem Invariant.sha256_registered (hinv : system.Invariant site) {registry : FileRun}
    {data : Bytes} (hregistry : system.registry site = some registry)
    (hread : registry.resultFileId.bind (system.readFile site now) = some data) :
    registry.resultDigest = some (site.sha256 data) := by
  obtain ⟨hrun, _⟩ := registry_eq_some hregistry
  obtain ⟨fileId, hfile, hread⟩ := Option.bind_eq_some_iff.mp hread
  obtain ⟨object, hobject, rfl, hlive, hdata⟩ := readFile_eq_some hread
  rw [hdata]
  exact hinv.current registry hrun object hobject hfile hlive

/-- The revision the registry points to is the one of the row. -/
def Caught (site : Site) (system : System) : Prop :=
  ∃ publication registry, system.publication = some publication ∧
    system.registry site = some registry ∧ registry.resultRevision = publication.revision

/-- Delivered bytes are those of the row's snapshot if and only if the call has
found a row or the registry has caught up with it. -/
theorem Invariant.delivered_iff (hinv : system.Invariant site) {call : ℕ} {data : Bytes}
    (hdelivered : system.delivered site now call = some data) :
    (system.Caught site ∧ ∃ publication, system.publication = some publication ∧
        site.sha256 data = site.snapshotDigest publication.snapshot) ↔
      (system.exports call ≠ some .unpublished ∨ system.Caught site) := by
  unfold System.delivered at hdelivered
  split at hdelivered
  · next hunfenced =>
      constructor
      · exact fun hproperty => .inr hproperty.1
      · intro hcondition
        have hcaught := hcondition.resolve_left (not_not.mpr hunfenced)
        refine ⟨hcaught, ?_⟩
        obtain ⟨publication, registry, hstaged, hregistry, hrevision⟩ := hcaught
        rw [hregistry, Option.bind_some] at hdelivered
        have hread := hinv.sha256_registered hregistry hdelivered
        have hbehind := hinv.behind publication hstaged registry (registry_eq_some hregistry).1
        exact ⟨publication, hstaged,
          Option.some.inj (hread.symm.trans (hbehind.digest hrevision))⟩
  · next found data hcall =>
      rw [hcall]
      refine iff_of_true ?_ (.inl nofun)
      split at hdelivered
      · next publication registry hstaged hregistry =>
          split_ifs at hdelivered with hchecked
          cases hdelivered
          obtain ⟨_, hrevision, _, _, _, _, hpointed⟩ := hchecked
          obtain ⟨current, hcurrent, hsound⟩ := hinv.exports call _ hcall nofun
          cases hstaged.symm.trans hcurrent
          obtain ⟨_, hsnapshot⟩ := hsound.found found rfl
          refine ⟨⟨publication, registry, hstaged, hregistry, hpointed.trans hrevision.symm⟩,
            publication, hstaged, ?_⟩
          rw [← hsnapshot hrevision.symm]
          exact hsound.loaded found data rfl
      · cases hdelivered
  · cases hdelivered

/-- In every state any interleaving leads to, a row that says published agrees
with the registry unless the user has deleted the run or the revision; and what
a call of `export_results` delivers is the file of the row's revision, with the
digest of its snapshot, if and only if the call has found a row or the registry
has caught up with the row. -/
theorem publication_agreement_iff {fresh : System} (hfresh : fresh.Fresh site)
    (hreach : Reachable (System.step site) fresh system) :
    (∀ publication registry, system.publication = some publication →
      system.registry site = some registry → publication.isPublished = true →
      registry.deletedFor publication.revision publication.contentDigest = false →
      registry.resultRevision = publication.revision ∧
        ∃ object ∈ system.files.objects, registry.resultFileId = some object.id ∧
          object.deleted = false ∧
          object.sha256 = site.snapshotDigest publication.snapshot) ∧
    ∀ now call data, system.delivered site now call = some data →
      ((system.Caught site ∧ ∃ publication, system.publication = some publication ∧
          site.sha256 data = site.snapshotDigest publication.snapshot) ↔
        (system.exports call ≠ some .unpublished ∨ system.Caught site)) := by
  have hinv := (invariant_preserved site).reachable hfresh.invariant hreach
  refine ⟨?_, ?_⟩
  · intro publication registry hstaged hregistry hpublished hkept
    exact hinv.agrees hstaged hregistry hpublished hkept
  · intro now call data hdelivered
    exact hinv.delivered_iff hdelivered

/-! ## A call that has found no row -/

/-- A snapshot is written as one byte for its state. -/
def stateBytes (snapshot : Json) : Bytes :=
  if (snapshot.member "state").isStr "completed" then [2] else [1]

def exampleSite : Site where
  evaluationId := "e"
  owner := "u"
  jsonBytes := stateBytes
  canonicalBytes
    | .arr (payload :: _) => stateBytes payload
    | _ => []
  sha256 data := if data = [2] then "two" else "one"
  redact snapshot := snapshot
  maxUserBytes := 100
  ttl := 60
  timeout := 60

/-- An evaluation that is stopped after its first problem. -/
def exampleSource : Source where
  runId := .str "e"
  status := "cancelled"
  problemIds := ["p", "q"]
  strategyNames := ["s"]
  asyncTaskId := none
  generation := none
  rows := [{ strategyName := "s", problemId := "p", status := .str "passed", metrics := .null,
             errorMessage := .null, executionPayload := some .null }]

def exampleSystem : System where
  source := exampleSource
  files := { runs := [{ runId := "e", userId := "u" }] }

/-- A call of `export_results` opens, the first revision is staged and published
by a worker, and the second is staged. -/
def overtakenExport : List (Instant × Action) :=
  [(1, .openExport 0), (1, .stage), (2, .begin 7 1 false), (2, .capture 7), (2, .readRegistry 7),
    (2, .stageSnapshot 7 1), (3, .check 7), (3, .lockRow 7), (3, .activate 7),
    (3, .commitPublished 7),
    (4, .setSource { exampleSource with status := "completed" }), (4, .stage)]

theorem exampleSystem_fresh : exampleSystem.Fresh exampleSite where
  files := ⟨by decide, by decide, by decide⟩
  publication := rfl
  workers _ := rfl
  exports _ := rfl

/-- Before the second revision is staged the row and the registry agree, and the
call would return the bytes of the first. -/
theorem publication_agreement_iff_overtaken :
    ∃ system publication registry,
      run (System.step exampleSite) exampleSystem (overtakenExport.take 10) = some system ∧
      system.publication = some publication ∧ system.registry exampleSite = some registry ∧
      registry.resultRevision = publication.revision ∧
      system.delivered exampleSite 5 0 = some [1] ∧
      (system.Caught exampleSite ∧ ∃ publication, system.publication = some publication ∧
        exampleSite.sha256 [1] = exampleSite.snapshotDigest publication.snapshot) := by
  obtain ⟨hagrees, hexports⟩ := publication_agreement_iff exampleSystem_fresh
    ⟨overtakenExport.take 10, rfl⟩
  obtain ⟨hrevision, _⟩ := hagrees _ _ rfl rfl rfl rfl
  refine ⟨_, _, _, rfl, rfl, rfl, hrevision, rfl, ?_⟩
  exact (hexports 5 0 [1] rfl).mpr (.inr ⟨_, _, rfl, rfl, hrevision⟩)

/-- It returns the bytes of the first revision. -/
theorem overtaken_export_stale :
    ∃ system publication registry data,
      run (System.step exampleSite) exampleSystem overtakenExport = some system ∧
      system.delivered exampleSite 5 0 = some data ∧
      system.publication = some publication ∧ system.registry exampleSite = some registry ∧
      registry.resultRevision < publication.revision ∧
      exampleSite.sha256 data ≠ exampleSite.snapshotDigest publication.snapshot :=
  ⟨_, _, _, _, rfl, rfl, rfl, rfl, by decide, by decide⟩

end System

end AlgorithmHarness.Files
