import AlgorithmHarness.Core.Transition
import Mathlib.Data.List.Perm.Basic
import Mathlib.Logic.Function.Basic

/-!
# The incremental history file

Every process reads the whole history when its run starts and writes the whole
list, with its own record behind it, when the run has ended.  The lock is held
for one reading or one writing.
-/

namespace AlgorithmHarness.Incremental

open Transition

/-- Record of a single evaluation run for incremental matching. -/
structure RunRecord where
  runId : String
  timestamp : String
  strategy : String
  model : String
  datasetFingerprint : List (String × String)
  resultPath : String
  problemCount : ℕ
  successCount : ℕ
  deriving DecidableEq

structure IncrementalHistory where
  runs : List RunRecord
  deriving DecidableEq

/-- The file; `unreadable` is one that is no history, as a file just created is. -/
inductive HistoryFile
  | missing
  | unreadable
  | holding (history : IncrementalHistory)
  deriving DecidableEq

/-- An empty history where the file does not exist or cannot be parsed. -/
def IncrementalHistory.load : HistoryFile → IncrementalHistory
  | .missing => ⟨[]⟩
  | .unreadable => ⟨[]⟩
  | .holding history => history

def IncrementalHistory.addRun (history : IncrementalHistory) (record : RunRecord) :
    IncrementalHistory :=
  ⟨history.runs ++ [record]⟩

/-- `open(path, "a+")` creates the file and does not truncate it. -/
def HistoryFile.openAppend : HistoryFile → HistoryFile
  | .missing => .unreadable
  | file => file

inductive Phase
  | starting
  | evaluating (history : IncrementalHistory)
  | saving (history : IncrementalHistory) (record : RunRecord)
  | finished
  deriving DecidableEq

structure Processes (Process : Type*) where
  file : HistoryFile
  phase : Process → Phase

/-- What a process does to the file. -/
inductive HistoryStep (Process : Type*)
  | load (process : Process)
  | openFile (process : Process) (record : RunRecord)
  | write (process : Process) (record : RunRecord)
  deriving DecidableEq

namespace Processes

variable {Process : Type*} [DecidableEq Process]

def enter (state : Processes Process) (process : Process) (phase : Phase) : Processes Process :=
  { state with phase := Function.update state.phase process phase }

/-- `load` at the start of a run, and again at its end where nothing is reused;
`add_run` and the opening and the writing of `save` at its end. -/
def step (state : Processes Process) : HistoryStep Process → Option (Processes Process)
  | .load process =>
      match state.phase process with
      | .starting | .evaluating _ => some (state.enter process (.evaluating (.load state.file)))
      | _ => none
  | .openFile process record =>
      match state.phase process with
      | .evaluating history =>
          some { state.enter process (.saving history record) with file := state.file.openAppend }
      | _ => none
  | .write process record =>
      match state.phase process with
      | .saving history added =>
          if record = added then
            some { state.enter process .finished with file := .holding (history.addRun record) }
          else none
      | _ => none

def initial (file : HistoryFile) : Processes Process := ⟨file, fun _ => .starting⟩

/-- The records the file holds. -/
def records (state : Processes Process) : List RunRecord :=
  (IncrementalHistory.load state.file).runs

end Processes

/-- The records whose writing is among the steps. -/
def saved {Process : Type*} (steps : List (HistoryStep Process)) : List RunRecord :=
  steps.filterMap fun
    | .write _ record => some record
    | _ => none

/-- What a process that has not yet saved read at its start. -/
def Phase.read : Phase → Option IncrementalHistory
  | .evaluating history => some history
  | .saving history _ => some history
  | _ => none

/-- The file that a save overwrites holds what its process had read. -/
def Undisturbed {Process : Type*} (state : Processes Process) : HistoryStep Process → Prop
  | .write process _ => ∀ history ∈ (state.phase process).read, history.runs = state.records
  | _ => True

instance {Process : Type*} (state : Processes Process) (label : HistoryStep Process) :
    Decidable (Undisturbed state label) :=
  match label with
  | .write process _ =>
      inferInstanceAs
        (Decidable (∀ history ∈ (state.phase process).read, history.runs = state.records))
  | .load _ => inferInstanceAs (Decidable True)
  | .openFile _ _ => inferInstanceAs (Decidable True)

namespace Processes

variable {Process : Type*} [DecidableEq Process] {state next : Processes Process}

theorem load_openAppend (file : HistoryFile) :
    IncrementalHistory.load file.openAppend = IncrementalHistory.load file := by
  cases file <;> rfl

@[simp]
theorem enter_phase_self (state : Processes Process) (process : Process) (phase : Phase) :
    (state.enter process phase).phase process = phase := Function.update_self ..

theorem enter_phase_of_ne (state : Processes Process) {process other : Process} (phase : Phase)
    (hne : other ≠ process) : (state.enter process phase).phase other = state.phase other :=
  Function.update_of_ne hne ..

/-- What a step does to the records and to what the processes have read. -/
theorem step_cases {label : HistoryStep Process} (hstep : state.step label = some next) :
    (saved [label] = [] ∧ next.records = state.records ∧
        ∀ process, ∀ history ∈ (next.phase process).read,
          history ∈ (state.phase process).read ∨ history.runs = state.records) ∨
      ∃ process record history, label = .write process record ∧
        history ∈ (state.phase process).read ∧ next.records = history.runs ++ [record] ∧
        ∀ other, ∀ read ∈ (next.phase other).read, read ∈ (state.phase other).read := by
  cases label with
  | load process =>
      refine .inl ⟨rfl, ?_⟩
      have hnext : next = state.enter process (.evaluating (.load state.file)) := by
        simp only [step] at hstep
        split at hstep <;> cases hstep <;> rfl
      subst hnext
      refine ⟨rfl, fun other history hread => ?_⟩
      by_cases hother : other = process
      · subst hother
        rw [enter_phase_self] at hread
        cases hread
        exact .inr rfl
      · rw [enter_phase_of_ne _ _ hother] at hread
        exact .inl hread
  | openFile process record =>
      refine .inl ⟨rfl, ?_⟩
      simp only [step] at hstep
      split at hstep
      · next history hphase =>
          cases hstep
          refine ⟨congrArg IncrementalHistory.runs (load_openAppend state.file), ?_⟩
          intro other read hread
          by_cases hother : other = process
          · subst hother
            simp only [enter_phase_self] at hread
            cases hread
            exact .inl (by rw [hphase]; rfl)
          · simp only [enter_phase_of_ne _ _ hother] at hread
            exact .inl hread
      · cases hstep
  | write process record =>
      refine .inr ⟨process, record, ?_⟩
      simp only [step] at hstep
      split at hstep
      · next history added hphase =>
          split at hstep
          · cases hstep
            refine ⟨history, rfl, by rw [hphase]; rfl, rfl, ?_⟩
            intro other read hread
            by_cases hother : other = process
            · subst hother
              simp only [enter_phase_self] at hread
              cases hread
            · simp only [enter_phase_of_ne _ _ hother] at hread
              exact hread
          · cases hstep
      · cases hstep

omit [DecidableEq Process] in
theorem saved_append (first second : List (HistoryStep Process)) :
    saved (first ++ second) = saved first ++ saved second := List.filterMap_append

/-! ## Where nothing is lost -/

theorem records_of_undisturbed {steps : List (HistoryStep Process)} {final : Processes Process}
    (hmeet : StepsMeet step Undisturbed state steps) (hrun : run step state steps = some final) :
    final.records = state.records ++ saved steps := by
  induction steps generalizing state with
  | nil =>
      obtain rfl : state = final := by simpa using hrun
      exact (List.append_nil _).symm
  | cons label steps ih =>
      obtain ⟨next, hstep, hrest⟩ := run_cons_eq_some.mp hrun
      have hlater := ih (hmeet.2 next hstep) hrest
      rw [← List.singleton_append, saved_append, ← List.append_assoc]
      cases step_cases hstep with
      | inl hkept =>
          obtain ⟨hnone, hrecords, -⟩ := hkept
          rw [hlater, hnone, hrecords, List.append_nil]
      | inr hwritten =>
          obtain ⟨process, record, history, rfl, hread, hrecords, -⟩ := hwritten
          rw [hlater, hrecords, hmeet.1 history hread]
          rfl

/-! ## Where something is lost -/

/-- The file and what has been read hold at most `count` records; what has been
read and is not the file's holds fewer. -/
structure AtMost (count : ℕ) (state : Processes Process) : Prop where
  records : state.records.length ≤ count
  read : ∀ process, ∀ history ∈ (state.phase process).read,
    history.runs = state.records ∨ history.runs.length < count

/-- The file and what has been read hold fewer than `count` records. -/
structure Fewer (count : ℕ) (state : Processes Process) : Prop where
  records : state.records.length < count
  read : ∀ process, ∀ history ∈ (state.phase process).read, history.runs.length < count

variable {count : ℕ} {label : HistoryStep Process}

theorem AtMost.step (hcount : AtMost count state) (hstep : state.step label = some next) :
    AtMost (count + (saved [label]).length) next := by
  cases step_cases hstep with
  | inl hkept =>
      obtain ⟨hnone, hrecords, hread⟩ := hkept
      rw [hnone, List.length_nil, Nat.add_zero]
      refine ⟨hrecords ▸ hcount.records, fun process history hhistory => ?_⟩
      rw [hrecords]
      cases hread process history hhistory with
      | inl hbefore => exact hcount.read process history hbefore
      | inr hnow => exact .inl hnow
  | inr hwritten =>
      obtain ⟨process, record, history, rfl, hhistory, hrecords, hread⟩ := hwritten
      have hle : ∀ other, ∀ read ∈ (state.phase other).read, read.runs.length ≤ count := by
        intro other read hother
        cases hcount.read other read hother with
        | inl hsame => exact hsame ▸ hcount.records
        | inr hless => exact Nat.le_of_lt hless
      refine ⟨?_, fun other read hother => .inr ?_⟩
      · rw [hrecords, List.length_append]
        exact Nat.add_le_add_right (hle process history hhistory) 1
      · exact Nat.lt_succ_of_le (hle other read (hread other read hother))

theorem Fewer.step (hcount : Fewer count state) (hstep : state.step label = some next) :
    Fewer (count + (saved [label]).length) next := by
  cases step_cases hstep with
  | inl hkept =>
      obtain ⟨hnone, hrecords, hread⟩ := hkept
      rw [hnone, List.length_nil, Nat.add_zero]
      refine ⟨hrecords ▸ hcount.records, fun process history hhistory => ?_⟩
      cases hread process history hhistory with
      | inl hbefore => exact hcount.read process history hbefore
      | inr hnow => exact hnow ▸ hcount.records
  | inr hwritten =>
      obtain ⟨process, record, history, rfl, hhistory, hrecords, hread⟩ := hwritten
      refine ⟨?_, fun other read hother => ?_⟩
      · rw [hrecords, List.length_append]
        exact Nat.add_lt_add_right (hcount.read process history hhistory) 1
      · exact Nat.lt_succ_of_lt (hcount.read other read (hread other read hother))

/-- A save over a file that has changed since the process read it loses a record. -/
theorem AtMost.fewer (hcount : AtMost count state) (hstep : state.step label = some next)
    (hdisturbed : ¬ Undisturbed state label) :
    Fewer (count + (saved [label]).length) next := by
  cases step_cases hstep with
  | inl hkept =>
      obtain ⟨hnone, -, -⟩ := hkept
      cases label with
      | write process record => cases hnone
      | load process => exact absurd trivial hdisturbed
      | openFile process record => exact absurd trivial hdisturbed
  | inr hwritten =>
      obtain ⟨process, record, history, rfl, hhistory, hrecords, hread⟩ := hwritten
      have hmore := hcount.step hstep
      have hless : history.runs.length < count := by
        apply (hcount.read process history hhistory).resolve_left
        intro hsame
        apply hdisturbed
        intro other hother
        rw [Option.mem_unique hother hhistory, hsame]
      refine ⟨?_, fun other read hother => ?_⟩
      · rw [hrecords, List.length_append]
        exact Nat.add_lt_add_right hless 1
      · cases hcount.read other read (hread other read hother) with
        | inl hsame => exact hsame ▸ Nat.lt_succ_of_le hcount.records
        | inr hfewer => exact Nat.lt_succ_of_lt hfewer

theorem Fewer.run {steps : List (HistoryStep Process)} {final : Processes Process}
    (hcount : Fewer count state) (hrun : Transition.run Processes.step state steps = some final) :
    Fewer (count + (saved steps).length) final := by
  induction steps generalizing state count with
  | nil =>
      obtain rfl : state = final := by simpa using hrun
      exact hcount
  | cons label steps ih =>
      obtain ⟨next, hstep, hrest⟩ := run_cons_eq_some.mp hrun
      have hlater := ih (hcount.step hstep) hrest
      rwa [Nat.add_assoc, ← List.length_append, ← saved_append, List.singleton_append] at hlater

theorem AtMost.undisturbed {steps : List (HistoryStep Process)} {final : Processes Process}
    (hcount : AtMost count state) (hrun : Transition.run Processes.step state steps = some final)
    (hlength : final.records.length = count + (saved steps).length) :
    StepsMeet Processes.step Undisturbed state steps := by
  induction steps generalizing state count with
  | nil => trivial
  | cons label steps ih =>
      obtain ⟨next, hstep, hrest⟩ := run_cons_eq_some.mp hrun
      rw [← List.singleton_append, saved_append, List.length_append, ← Nat.add_assoc] at hlength
      by_cases hmeets : Undisturbed state label
      · exact .cons hmeets hstep (ih (hcount.step hstep) hrest hlength)
      · have hlost := ((hcount.fewer hstep hmeets).run hrest).records
        rw [hlength] at hlost
        exact absurd hlost (Nat.lt_irrefl _)

/-- The file ends with every record saved, each once, and those before them
exactly if no save is made over a file that has changed since its process read
it. -/
theorem update_kept_iff (file : HistoryFile) (steps : List (HistoryStep Process))
    (final : Processes Process) (hrun : run step (initial file) steps = some final) :
    final.records.Perm ((IncrementalHistory.load file).runs ++ saved steps) ↔
      StepsMeet step Undisturbed (initial file) steps := by
  constructor
  · intro hperm
    have hcount : AtMost (IncrementalHistory.load file).runs.length
        (initial file : Processes Process) := ⟨Nat.le_refl _, nofun⟩
    apply hcount.undisturbed hrun
    rw [hperm.length_eq, List.length_append]
  · intro hmeet
    rw [records_of_undisturbed hmeet hrun]
    exact .refl _

/-- A record of a run, for runs that differ in their names only. -/
def recordNamed (runId : String) : RunRecord where
  runId
  timestamp := "2026-01-01T00:00:00+00:00"
  strategy := "vanilla"
  model := "gpt-4"
  datasetFingerprint := [("two_sum", "3f2a")]
  resultPath := "results/" ++ runId
  problemCount := 1
  successCount := 1

def sequentialSaves : List (HistoryStep Bool) :=
  [.load true, .openFile true (recordNamed "a"), .write true (recordNamed "a"),
    .load false, .openFile false (recordNamed "b"), .write false (recordNamed "b")]

/-- Two runs one after the other. -/
theorem update_kept_iff_sequential : ∃ final : Processes Bool,
    run step (initial .missing) sequentialSaves = some final ∧
      final.records.Perm ((IncrementalHistory.load .missing).runs ++ saved sequentialSaves) :=
  ⟨_, rfl, (update_kept_iff .missing sequentialSaves _ rfl).mpr (by decide)⟩

def overlappingSaves : List (HistoryStep Bool) :=
  [.load true, .load false, .openFile true (recordNamed "a"), .write true (recordNamed "a"),
    .openFile false (recordNamed "b"), .write false (recordNamed "b")]

/-- Both processes read before either saves, and the first record is lost. -/
theorem overlapping_save_lost :
    ¬ ∀ (file : HistoryFile) (steps : List (HistoryStep Bool)) (final : Processes Bool),
      run step (initial file) steps = some final →
      (∀ process, final.phase process = .starting ∨ final.phase process = .finished) →
      final.records.Perm ((IncrementalHistory.load file).runs ++ saved steps) := by
  intro hkept
  have hperm := hkept .missing overlappingSaves _ rfl (by
    intro process
    cases process <;> exact .inr rfl)
  exact absurd hperm.length_eq (by decide)

end Processes

end AlgorithmHarness.Incremental
