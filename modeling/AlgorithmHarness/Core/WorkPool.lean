import Mathlib.Data.List.Nodup

/-!
# A pool of workers

Jobs in the order in which they were submitted.  A free worker takes the first
one that nobody has taken; what a job makes of that is up to the caller.  A job
may come to nothing, and it may fail.
-/

namespace AlgorithmHarness.WorkPool

inductive Progress (Result : Type*) where
  | queued
  | executing
  | done (result : Option Result)
  | failed
  deriving DecidableEq

structure Job (Key Result : Type*) where
  key : Key
  progress : Progress Result := .queued
  deriving DecidableEq

variable {Key Result : Type*}

def Job.isQueued (job : Job Key Result) : Bool :=
  match job.progress with
  | .queued => true
  | _ => false

def Job.isExecuting (job : Job Key Result) : Bool :=
  match job.progress with
  | .executing => true
  | _ => false

/-- The workers that are busy. -/
def busy (jobs : List (Job Key Result)) : ℕ := jobs.countP (·.isExecuting)

/-- The job a free worker takes. -/
def first? (jobs : List (Job Key Result)) : Option Key :=
  (jobs.find? (·.isQueued)).map (·.key)

/-- A worker takes the first job in the queue. -/
def take (progress : Progress Result) : List (Job Key Result) → List (Job Key Result)
  | [] => []
  | job :: jobs =>
      if job.isQueued then { job with progress := progress } :: jobs
      else job :: take progress jobs

/-- The key of the job at a position, if a worker executes it. -/
def executing? (position : ℕ) (jobs : List (Job Key Result)) : Option Key :=
  (jobs[position]?.filter (·.isExecuting)).map (·.key)

/-- The worker of the job at a position leaves it at `progress`. -/
def settle (position : ℕ) (progress : Progress Result) (jobs : List (Job Key Result)) :
    List (Job Key Result) :=
  jobs.modify position fun job => { job with progress := progress }

variable {jobs : List (Job Key Result)} {key : Key} {progress : Progress Result}

theorem Job.isQueued_iff {job : Job Key Result} :
    job.isQueued = true ↔ job = ⟨job.key, .queued⟩ := by
  obtain ⟨key, progress⟩ := job
  cases progress <;> simp [isQueued]

theorem Job.isExecuting_iff {job : Job Key Result} :
    job.isExecuting = true ↔ job = ⟨job.key, .executing⟩ := by
  obtain ⟨key, progress⟩ := job
  cases progress <;> simp [isExecuting]

/-! ## Taking a job -/

theorem first?_mem (hfirst : first? jobs = some key) :
    (⟨key, .queued⟩ : Job Key Result) ∈ jobs := by
  obtain ⟨job, hjob, rfl⟩ := Option.map_eq_some_iff.mp hfirst
  have hqueued : job = ⟨job.key, .queued⟩ := Job.isQueued_iff.mp (List.find?_some hjob)
  have hmember : job ∈ jobs := List.mem_of_find?_eq_some hjob
  rwa [hqueued] at hmember

theorem map_key_take : (take progress jobs).map (·.key) = jobs.map (·.key) := by
  induction jobs with
  | nil => rfl
  | cons job jobs ih =>
      rw [take]
      split
      · rfl
      · rw [List.map_cons, ih, List.map_cons]

/-- Taking a job changes that job only. -/
theorem mem_take (hnodup : (jobs.map (·.key)).Nodup) (hfirst : first? jobs = some key)
    {job : Job Key Result} :
    job ∈ take progress jobs ↔ (job ∈ jobs ∧ job.key ≠ key) ∨ job = ⟨key, progress⟩ := by
  induction jobs with
  | nil => cases hfirst
  | cons head jobs ih =>
      obtain ⟨hhead, htail⟩ := List.nodup_cons.mp hnodup
      rw [first?] at hfirst
      rw [take, List.mem_cons]
      by_cases hqueued : head.isQueued = true
      · rw [List.find?_cons_of_pos hqueued] at hfirst
        cases hfirst
        have hbehind : job ∈ jobs → job.key ≠ head.key := fun hjob hsame =>
          hhead (List.mem_map.mpr ⟨job, hjob, hsame⟩)
        rw [if_pos hqueued, List.mem_cons]
        grind
      · rw [List.find?_cons_of_neg hqueued] at hfirst
        have hskipped : head.key ≠ key := fun hsame =>
          hhead (List.mem_map.mpr ⟨_, first?_mem hfirst, hsame.symm⟩)
        rw [if_neg hqueued, List.mem_cons, ih htail hfirst]
        grind

/-! ## Leaving a job -/

theorem executing?_eq_some {position : ℕ} :
    executing? position jobs = some key ↔ jobs[position]? = some ⟨key, .executing⟩ := by
  rw [executing?, Option.map_eq_some_iff]
  constructor
  · rintro ⟨job, hjob, rfl⟩
    obtain ⟨hget, hexecuting⟩ := Option.filter_eq_some_iff.mp hjob
    rw [hget, ← Job.isExecuting_iff.mp hexecuting]
  · intro hget
    exact ⟨⟨key, .executing⟩, by rw [hget]; rfl, rfl⟩

theorem executing?_mem {position : ℕ} (hexecuting : executing? position jobs = some key) :
    (⟨key, .executing⟩ : Job Key Result) ∈ jobs :=
  List.mem_of_getElem? (executing?_eq_some.mp hexecuting)

theorem map_key_settle (position : ℕ) :
    (settle position progress jobs).map (·.key) = jobs.map (·.key) := by
  apply List.ext_getElem?
  intro index
  rw [settle, List.getElem?_map, List.getElem?_modify, List.getElem?_map]
  cases jobs[index]? with
  | none => rfl
  | some job =>
      by_cases hsame : position = index
      · simp [hsame]
      · simp [hsame]

/-- Leaving a job changes that job only. -/
theorem mem_settle (hnodup : (jobs.map (·.key)).Nodup) {position : ℕ}
    (hexecuting : executing? position jobs = some key) {job : Job Key Result} :
    job ∈ settle position progress jobs ↔
      (job ∈ jobs ∧ job.key ≠ key) ∨ job = ⟨key, progress⟩ := by
  have hfound := executing?_eq_some.mp hexecuting
  have hbound : position < (jobs.map (·.key)).length := by
    rw [List.length_map]
    exact (List.getElem?_eq_some_iff.mp hfound).1
  have hother : ∀ index, jobs[index]? = some job → position ≠ index → job.key ≠ key := by
    intro index hget hne hsame
    apply hne
    apply (List.getElem?_inj hbound hnodup).mp
    rw [List.getElem?_map, List.getElem?_map, hfound, hget, Option.map_some, Option.map_some, hsame]
  constructor
  · intro hjob
    obtain ⟨index, hindex⟩ := List.getElem?_of_mem hjob
    rw [settle, List.getElem?_modify] at hindex
    by_cases hsame : position = index
    · subst hsame
      have hsettled : (⟨key, progress⟩ : Job Key Result) = job := by simpa [hfound] using hindex
      exact .inr hsettled.symm
    · have hkept : jobs[index]? = some job := by simpa [hsame] using hindex
      exact .inl ⟨List.mem_of_getElem? hkept, hother index hkept hsame⟩
  · rintro (⟨hjob, hne⟩ | rfl)
    · obtain ⟨index, hindex⟩ := List.getElem?_of_mem hjob
      have hposition : position ≠ index := by
        rintro rfl
        rw [hfound] at hindex
        exact hne (congrArg Job.key (Option.some.inj hindex)).symm
      apply List.mem_of_getElem?
      rw [settle, List.getElem?_modify, hindex]
      simp [hposition]
    · apply List.mem_of_getElem?
      rw [settle, List.getElem?_modify, hfound]
      simp

end AlgorithmHarness.WorkPool
