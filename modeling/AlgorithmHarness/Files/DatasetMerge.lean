import AlgorithmHarness.Files.ImportJob
import Mathlib.Algebra.Field.Rat
import Mathlib.Data.List.Induction

/-!
# Merging a dataset

`merge_dataset` as the transaction it is: the job that must still be running,
the dataset of its user, the limits and the two writes.  What
`AuthStore.connection` does with a transaction that raises is separate from it.
The payload of a dataset is held as the list it encodes.
-/

namespace AlgorithmHarness.Files

open TaskManager (Instant)
open ImportSite (problemId addProblem)

/-! ## Transactions -/

/-- A row of `api_file_datasets`. -/
structure DatasetRow where
  userId : String
  problems : List Json
  updatedAt : Instant

structure Database where
  files : FileStore
  datasets : List DatasetRow := []

inductive MergeError where
  | http (failure : Failure)
  /-- The `ValueError` of `json.dumps`. -/
  | value

/-- The answer of the statements of a transaction or what they raise, with what they have written
by then. -/
abbrev Transaction (Answer : Type) := Database → Except MergeError Answer × Database

/-- `with self.connection() as db`: a transaction that raises is rolled back. -/
def connection {Answer : Type} (statements : Transaction Answer) : Transaction Answer :=
  fun database =>
    match statements database with
    | (.ok answer, written) => (.ok answer, written)
    | (.error error, _) => (.error error, database)

theorem connection_error {Answer : Type} {statements : Transaction Answer}
    {database after : Database} {error : MergeError}
    (hraised : connection statements database = (.error error, after)) : after = database := by
  rw [connection] at hraised
  split at hraised
  · cases hraised
  · exact (Prod.mk.inj hraised).2.symm

/-! ## `merge_dataset` -/

/-- The arguments of a call. -/
structure MergeCall where
  now : Instant
  jobId : JobId
  userId : String
  problems : List Json
  report : List (String × Json)
  maxBytes : ℕ
  maxItems : ℕ

namespace Database

/-- `SELECT payload FROM api_file_datasets WHERE user_id=?`, or no problems. -/
def dataset (database : Database) (userId : String) : List Json :=
  ((KeyedRows.fetch DatasetRow.userId userId database.datasets).map DatasetRow.problems).getD []

/-- The job of a call, if it is still running. -/
def runningJob (database : Database) (call : MergeCall) : Option FileJob :=
  database.files.jobs.find? fun job =>
    job.id = call.jobId && job.userId = call.userId && job.status = .running

/-- The dataset a call adds its problems to. -/
def kept (database : Database) (call : MergeCall) (job : FileJob) : List Json :=
  if job.mode = "append" then database.dataset call.userId else []

/-- The problems by id and the number of duplicates. -/
def merged (database : Database) (call : MergeCall) (job : FileJob) : List Json × ℕ :=
  call.problems.foldl addProblem
    ((database.kept call job).foldl (fun byId problem => KeyedRows.put problemId problem byId) [],
      0)

/-- The result of the job. -/
def mergeResult (call : MergeCall) (byId : List Json) (duplicates : ℕ) : JsonDict :=
  (JsonDict.ofMembers call.report).merge
    (JsonDict.ofMembers
      [("duplicates", .num duplicates), ("imported", .num (call.problems.length - duplicates)),
        ("dataset_total", .num byId.length)])

/-- The INSERT of the dataset. -/
def storeDataset (database : Database) (call : MergeCall) (byId : List Json) : Database :=
  { database with
    datasets := KeyedRows.put DatasetRow.userId
      { userId := call.userId, problems := byId, updatedAt := call.now } database.datasets }

/-- The statements of `merge_dataset`; `dumps` is `json.dumps(value, allow_nan=False)`, unless it
raises. -/
def mergeStatements (dumps : Json → Option String) (call : MergeCall) : Transaction JsonDict :=
  fun database =>
    match database.runningJob call with
    | none => (.error (.http ⟨409, .str "Import job is no longer active"⟩), database)
    | some job =>
        let (byId, duplicates) := database.merged call job
        match dumps (.arr byId) with
        | none => (.error .value, database)
        | some payload =>
            if payload.utf8ByteSize > call.maxBytes ∨ byId.length > call.maxItems then
              (.error (.http ⟨413, .str "Merged dataset exceeds limit"⟩), database)
            else
              let result := mergeResult call byId duplicates
              let written := database.storeDataset call byId
              match dumps (.obj (result.entries.map fun entry => (entry.1, entry.2))) with
              | none => (.error .value, written)
              | some _ =>
                  (.ok result,
                    { written with
                      files := written.files.completeJob call.now call.jobId call.userId result })

def mergeDataset (dumps : Json → Option String) (call : MergeCall) : Transaction JsonDict :=
  connection (mergeStatements dumps call)

end Database

/-- The databases the service can leave: no other method writes a dataset, and those of the jobs
may do anything to them. -/
inductive Database.Stored (dumps : Json → Option String) : Database → Prop
  | empty (files : FileStore) : Stored dumps { files }
  | merged {database : Database} (hstored : Stored dumps database) (call : MergeCall) :
      Stored dumps (database.mergeDataset dumps call).2
  | other {database : Database} (hstored : Stored dumps database) (files : FileStore) :
      Stored dumps { database with files }

/-! ## Problems by id -/

def UniqueIds (problems : List Json) : Prop := (problems.map problemId).Nodup

/-- A dictionary of problems with unique ids has them in their order. -/
theorem foldl_put_eq {problems : List Json} (hunique : UniqueIds problems) :
    problems.foldl (fun byId problem => KeyedRows.put problemId problem byId) [] = problems := by
  induction problems using List.reverseRecOn with
  | nil => rfl
  | append_singleton problems problem ih =>
      rw [UniqueIds, List.map_append, List.nodup_append] at hunique
      obtain ⟨hearlier, -, hdisjoint⟩ := hunique
      rw [List.foldl_append, ih hearlier]
      apply KeyedRows.put_of_fetch_none
      apply KeyedRows.fetch_eq_none.mpr
      intro hmem
      exact hdisjoint _ hmem _ (List.mem_singleton_self _) rfl

/-- The loop appends the problems with new ids and counts the others. -/
structure Added (byId problems added : List Json) (duplicates : ℕ) : Prop where
  chosen : added.Sublist problems
  counted : added.length + duplicates = problems.length
  unique : UniqueIds byId → UniqueIds (byId ++ added)
  covered : ∀ problem ∈ problems, problemId problem ∈ (byId ++ added).map problemId

theorem foldl_addProblem (problems byId : List Json) (before : ℕ) :
    ∃ added duplicates, problems.foldl addProblem (byId, before) =
        (byId ++ added, before + duplicates) ∧ Added byId problems added duplicates := by
  induction problems generalizing byId before with
  | nil =>
      refine ⟨[], 0, by rw [List.append_nil]; rfl, List.Sublist.refl [], rfl, ?_, ?_⟩
      · rw [List.append_nil]
        exact id
      · exact fun _ hmem => absurd hmem List.not_mem_nil
  | cons problem problems ih =>
      rw [List.foldl_cons, addProblem]
      cases hfetch : KeyedRows.fetch problemId (problemId problem) byId with
      | some found =>
          obtain ⟨added, duplicates, hfold, hadded⟩ := ih byId (before + 1)
          refine ⟨added, duplicates + 1, ?_, ?_, ?_, hadded.unique, ?_⟩
          · rw [Option.isSome_some, if_pos rfl, hfold, Nat.add_assoc, Nat.add_comm 1]
          · exact hadded.chosen.trans (List.sublist_cons_self _ _)
          · rw [← Nat.add_assoc, hadded.counted, List.length_cons]
          · obtain ⟨hmem, hsame⟩ := KeyedRows.fetch_mem hfetch
            rw [List.forall_mem_cons]
            refine ⟨?_, hadded.covered⟩
            rw [← hsame]
            exact List.mem_map_of_mem (List.mem_append_left _ hmem)
      | none =>
          obtain ⟨added, duplicates, hfold, hadded⟩ := ih (byId ++ [problem]) before
          have hcons : byId ++ [problem] ++ added = byId ++ problem :: added := by
            rw [List.append_assoc, List.singleton_append]
          refine ⟨problem :: added, duplicates, ?_, ?_, ?_, ?_, ?_⟩
          · rw [Option.isSome_none, if_neg Bool.false_ne_true, hfold, hcons]
          · exact hadded.chosen.cons_cons problem
          · rw [List.length_cons, List.length_cons, Nat.add_right_comm, hadded.counted]
          · intro hunique
            rw [← hcons]
            apply hadded.unique
            have hfresh := KeyedRows.fetch_eq_none.mp hfetch
            rw [UniqueIds, List.map_append, List.nodup_append]
            refine ⟨hunique, List.nodup_singleton _, ?_⟩
            intro id hid other hother hsame
            rw [List.map_singleton, List.mem_singleton] at hother
            exact hfresh (hother ▸ hsame ▸ hid)
          · rw [← hcons]
            rw [List.forall_mem_cons]
            refine ⟨?_, hadded.covered⟩
            apply List.mem_map_of_mem
            exact List.mem_append_left _ (List.mem_append_right _ (List.mem_singleton_self _))

/-! ## What a call does -/

namespace Database

variable {dumps : Json → Option String} {database after : Database} {call : MergeCall}

theorem dataset_storeDataset (database : Database) (call : MergeCall) (byId : List Json)
    (userId : String) :
    (database.storeDataset call byId).dataset userId =
      if call.userId = userId then byId else database.dataset userId := by
  rw [dataset, storeDataset, KeyedRows.fetch_put]
  split_ifs
  · rfl
  · rfl

/-- Every dataset has unique ids. -/
def Unique (database : Database) : Prop :=
  ∀ row ∈ database.datasets, UniqueIds row.problems

theorem Unique.dataset (hunique : database.Unique) (userId : String) :
    UniqueIds (database.dataset userId) := by
  rw [Database.dataset]
  cases hfetch : KeyedRows.fetch DatasetRow.userId userId database.datasets with
  | none => exact List.nodup_nil
  | some row => exact hunique row (KeyedRows.fetch_mem hfetch).1

theorem Unique.kept (hunique : database.Unique) (call : MergeCall) (job : FileJob) :
    UniqueIds (database.kept call job) := by
  rw [Database.kept]
  split_ifs
  · exact hunique.dataset call.userId
  · exact List.nodup_nil

theorem merged_eq (hunique : database.Unique) (call : MergeCall) (job : FileJob) :
    ∃ added duplicates, database.merged call job =
        (database.kept call job ++ added, duplicates) ∧
      Added (database.kept call job) call.problems added duplicates := by
  obtain ⟨added, duplicates, hfold, hadded⟩ :=
    foldl_addProblem call.problems (database.kept call job) 0
  refine ⟨added, duplicates, ?_, hadded⟩
  rw [merged, foldl_put_eq (hunique.kept call job), hfold, Nat.zero_add]

/-- What a call that answers has done. -/
structure MergedInto (database after : Database) (call : MergeCall) (job : FileJob)
    (result : JsonDict) : Prop where
  unique : UniqueIds (after.dataset call.userId)
  appended : ∃ added duplicates, after.dataset call.userId = database.kept call job ++ added ∧
    Added (database.kept call job) call.problems added duplicates ∧
    result.get "imported" = .num added.length ∧ result.get "duplicates" = .num duplicates
  others : ∀ userId ≠ call.userId, after.dataset userId = database.dataset userId
  kept : after.Unique

theorem get_mergeResult (call : MergeCall) (byId : List Json) (duplicates : ℕ) :
    (mergeResult call byId duplicates).get "duplicates" = .num duplicates ∧
      (mergeResult call byId duplicates).get "imported" =
        .num (call.problems.length - duplicates) := by
  have hcounted : ∀ (key : String) (value : Json),
      [("duplicates", Json.num duplicates), ("imported", .num (call.problems.length - duplicates)),
        ("dataset_total", .num byId.length)].lookup key = some value →
      (mergeResult call byId duplicates).get key = value := by
    intro key value hlookup
    have hmem : key ∈ JsonDict.ofMembers
        [("duplicates", Json.num duplicates),
          ("imported", .num (call.problems.length - duplicates)),
          ("dataset_total", .num byId.length)] := by
      rw [← AList.lookup_isSome, JsonDict.lookup_ofMembers, hlookup]
      rfl
    rw [mergeResult, JsonDict.get, JsonDict.merge, AList.lookup_union_left hmem,
      JsonDict.lookup_ofMembers, hlookup]
    rfl
  exact ⟨hcounted _ _ rfl, hcounted _ _ rfl⟩

/-- A limit is exceeded by the dataset a call would store. -/
def Exceeds (database : Database) (call : MergeCall) (job : FileJob) (payload : String) : Prop :=
  payload.utf8ByteSize > call.maxBytes ∨ (database.merged call job).1.length > call.maxItems

/-- The ends of a call. -/
inductive Ends (dumps : Json → Option String) (call : MergeCall) (database : Database) :
    Except MergeError JsonDict × Database → Prop
  | inactive (hjob : database.runningJob call = none) :
      Ends dumps call database
        (.error (.http ⟨409, .str "Import job is no longer active"⟩), database)
  | unencodable (job : FileJob) (hjob : database.runningJob call = some job)
      (hdumps : dumps (.arr (database.merged call job).1) = none) :
      Ends dumps call database (.error .value, database)
  | exceeds (job : FileJob) (hjob : database.runningJob call = some job) (payload : String)
      (hdumps : dumps (.arr (database.merged call job).1) = some payload)
      (hlimit : database.Exceeds call job payload) :
      Ends dumps call database
        (.error (.http ⟨413, .str "Merged dataset exceeds limit"⟩), database)
  | unreported (job : FileJob) (hjob : database.runningJob call = some job) (payload : String)
      (hdumps : dumps (.arr (database.merged call job).1) = some payload)
      (hlimit : ¬database.Exceeds call job payload) :
      Ends dumps call database (.error .value, database)
  | stored (job : FileJob) (hjob : database.runningJob call = some job) (payload : String)
      (hdumps : dumps (.arr (database.merged call job).1) = some payload)
      (hlimit : ¬database.Exceeds call job payload) (files : FileStore) :
      Ends dumps call database
        (.ok (mergeResult call (database.merged call job).1 (database.merged call job).2),
          { database.storeDataset call (database.merged call job).1 with files })

theorem mergeDataset_ends (dumps : Json → Option String) (call : MergeCall)
    (database : Database) : Ends dumps call database (database.mergeDataset dumps call) := by
  rw [mergeDataset, connection, mergeStatements]
  cases hjob : database.runningJob call with
  | none => exact .inactive hjob
  | some job =>
      dsimp only
      cases hdumps : dumps (.arr (database.merged call job).1) with
      | none => exact .unencodable job hjob hdumps
      | some payload =>
          dsimp only
          split_ifs with hlimit
          · exact .exceeds job hjob payload hdumps hlimit
          · cases dumps (.obj ((mergeResult call (database.merged call job).1
              (database.merged call job).2).entries.map fun entry => (entry.1, entry.2))) with
            | none => exact .unreported job hjob payload hdumps hlimit
            | some text => exact .stored job hjob payload hdumps hlimit _

theorem mergedInto_of_ok (hunique : database.Unique) {result : JsonDict}
    (hmerged : database.mergeDataset dumps call = (.ok result, after)) :
    ∃ job, database.runningJob call = some job ∧
      database.MergedInto after call job result := by
  have hends := mergeDataset_ends dumps call database
  rw [hmerged] at hends
  cases hends with
  | stored job hjob payload hdumps hlimit files =>
      refine ⟨job, hjob, ?_⟩
      obtain ⟨added, duplicates, hbyId, hadded⟩ := merged_eq hunique call job
      obtain ⟨hduplicates, himported⟩ :=
        get_mergeResult call (database.kept call job ++ added) duplicates
      have hids := hadded.unique (hunique.kept call job)
      have hdataset : ∀ userId, Database.dataset
          { database.storeDataset call (database.merged call job).1 with files } userId =
          if call.userId = userId then database.kept call job ++ added
          else database.dataset userId := by
        intro userId
        rw [← dataset_storeDataset, hbyId]
        rfl
      rw [hbyId]
      rw [hbyId] at hdataset
      have hnumber : (call.problems.length : ℚ) - duplicates = added.length := by
        rw [← hadded.counted, Nat.cast_add, add_sub_cancel_right]
      refine ⟨?_, ⟨added, duplicates, ?_, hadded, ?_, hduplicates⟩, ?_, ?_⟩
      · rw [hdataset, if_pos rfl]
        exact hids
      · rw [hdataset, if_pos rfl]
      · rw [himported, hnumber]
      · intro userId hother
        rw [hdataset, if_neg hother.symm]
      · intro row hrow
        rcases KeyedRows.mem_put hrow with rfl | hold
        · exact hids
        · exact hunique row hold

theorem Stored.unique (hstored : database.Stored dumps) : database.Unique := by
  induction hstored with
  | empty files => exact fun _ hmem => absurd hmem List.not_mem_nil
  | other _ files ih => exact ih
  | @merged database hstored call ih =>
      cases hanswer : database.mergeDataset dumps call with
      | mk answer after =>
          cases answer with
          | error error => rwa [connection_error hanswer]
          | ok result =>
              obtain ⟨job, -, hinto⟩ := mergedInto_of_ok ih hanswer
              exact hinto.kept

end Database

/-- A call of `merge_dataset` keeps the ids of the dataset unique, appends to what is kept, and
counts every problem once; one that is refused leaves the database as it was. -/
theorem mergeDataset_law {dumps : Json → Option String} {database : Database}
    (hstored : database.Stored dumps) (call : MergeCall) :
    (database.runningJob call = none →
      ∃ failure, database.mergeDataset dumps call = (.error (.http failure), database)) ∧
    (∀ job payload, database.runningJob call = some job →
      dumps (.arr (database.merged call job).1) = some payload →
      database.Exceeds call job payload →
      ∃ failure, database.mergeDataset dumps call = (.error (.http failure), database)) ∧
    (∀ error after, database.mergeDataset dumps call = (.error error, after) →
      after = database) ∧
    ∀ result after, database.mergeDataset dumps call = (.ok result, after) →
      ∃ job, database.runningJob call = some job ∧
        database.MergedInto after call job result := by
  have hends := Database.mergeDataset_ends dumps call database
  refine ⟨?_, ?_, fun error after => connection_error,
    fun result after => Database.mergedInto_of_ok hstored.unique⟩
  · intro hnone
    generalize database.mergeDataset dumps call = answer at hends ⊢
    have hother : ∀ job, database.runningJob call ≠ some job := by
      intro job hjob
      rw [hnone] at hjob
      cases hjob
    cases hends with
    | inactive hjob => exact ⟨_, rfl⟩
    | unencodable job hjob => exact absurd hjob (hother job)
    | exceeds job hjob => exact absurd hjob (hother job)
    | unreported job hjob => exact absurd hjob (hother job)
    | stored job hjob => exact absurd hjob (hother job)
  · intro job payload hcurrent hpayload hexceeds
    generalize database.mergeDataset dumps call = answer at hends ⊢
    cases hends with
    | inactive hjob => exact ⟨_, rfl⟩
    | unencodable other hjob hdumps =>
        obtain rfl := Option.some_inj.mp (hcurrent.symm.trans hjob)
        cases hpayload.symm.trans hdumps
    | exceeds other hjob text hdumps hlimit => exact ⟨_, rfl⟩
    | unreported other hjob text hdumps hlimit =>
        obtain rfl := Option.some_inj.mp (hcurrent.symm.trans hjob)
        obtain rfl := Option.some_inj.mp (hpayload.symm.trans hdumps)
        exact absurd hexceeds hlimit
    | stored other hjob text hdumps hlimit files =>
        obtain rfl := Option.some_inj.mp (hcurrent.symm.trans hjob)
        obtain rfl := Option.some_inj.mp (hpayload.symm.trans hdumps)
        exact absurd hexceeds hlimit

/-- A running job that appends. -/
def appending : Database where
  files :=
    { jobs := [{ id := 0, userId := "u", fileId := 0, mode := "append", status := .running }] }

/-- The same problem twice. -/
def repeated : MergeCall where
  now := 1
  jobId := 0
  userId := "u"
  problems := [.obj [("problem_id", .str "a")], .obj [("problem_id", .str "a")]]
  report := []
  maxBytes := 100
  maxItems := 1

theorem mergeDataset_law_repeated :
    ∃ job result after, appending.mergeDataset (fun _ => some "") repeated = (.ok result, after) ∧
      appending.MergedInto after repeated job result := by
  have hstored : appending.Stored fun _ => some "" := .empty _
  obtain ⟨result, after, hanswer⟩ : ∃ result after,
      appending.mergeDataset (fun _ => some "") repeated = (.ok result, after) := ⟨_, _, rfl⟩
  obtain ⟨job, -, hinto⟩ := (mergeDataset_law hstored repeated).2.2.2 result after hanswer
  exact ⟨job, result, after, hanswer, hinto⟩

end AlgorithmHarness.Files
