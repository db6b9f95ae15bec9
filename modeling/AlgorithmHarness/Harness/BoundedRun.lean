import AlgorithmHarness.Core.Transition
import Mathlib.Data.List.Infix
import Mathlib.Data.Nat.Notation
import Mathlib.Logic.Function.Basic

/-!
# Runs with a deadline and an output cap

`run_bounded`: two threads pump the output of a process tree into buffers,
while the caller polls the cap, the deadline and the end of the run.  The tree,
the two pumps and the caller take their steps in any order; a pump that counts
more bytes than the cap stops the tree.
-/

namespace AlgorithmHarness.BoundedRun

open Transition

inductive Stream where
  | stdout
  | stderr
  deriving DecidableEq, Repr

/-- Why a pump returned: a read raised, the stream ended, or the cap was exceeded. -/
inductive Stop where
  | failed
  | ended
  | limited
  deriving DecidableEq, Repr

/-- Where `_pump` is.  It holds a chunk until it has the lock, and acts on the
total that it counted under the lock after it gave the lock back. -/
inductive Pump where
  | reading
  | holding (chunk : List UInt8)
  | counted (total : ℕ)
  | breached
  | returned (stop : Stop)
  deriving DecidableEq, Repr

def Pump.held : Pump → List UInt8
  | .holding chunk => chunk
  | _ => []

/-- How a call ends: `BoundedRunResult`, `OutputLimitExceededError` or `ProcessTimeoutError`. -/
inductive Outcome where
  | result (returncode : ℤ) (output : Stream → List UInt8)
  | outputLimitExceeded (output : Stream → List UInt8)
  | timeout (output : Stream → List UInt8)

/-- Where the caller is: in its loop, behind the loop, in the `finally` block, or done. -/
inductive Caller where
  | checkLimit
  | limitSeen
  | checkDeadline
  | deadlineSeen
  | checkEnd
  | collect
  | collected (output : Stream → List UInt8)
  | cleanup (outcome : Outcome)
  | done (outcome : Outcome)

/-- A call with the process tree it has spawned.  `written` is all that the tree
wrote and `pending` what no pump has read of it. -/
structure Run where
  written : Stream → List UInt8 := fun _ => []
  pending : Stream → List UInt8 := fun _ => []
  writable : Stream → Bool := fun _ => true
  exited : Option ℤ := none
  buffers : Stream → List UInt8 := fun _ => []
  pumps : Stream → Pump := fun _ => .reading
  limitHit : Bool := false
  terminated : Bool := false
  caller : Caller := .checkLimit

/-- A step of the tree, of a pump, or of the caller, who finds the deadline expired or not. -/
inductive Label where
  | write (stream : Stream) (bytes : List UInt8)
  | close (stream : Stream)
  | exit (returncode : ℤ)
  | read (stream : Stream)
  | failRead (stream : Stream)
  | advance (stream : Stream)
  | call (expired : Bool)
  deriving Repr

/-- `_READ_CHUNK_BYTES` -/
def readChunkBytes : ℕ := 65536

/-- The bytes of both streams. -/
def size (output : Stream → List UInt8) : ℕ := (output .stdout).length + (output .stderr).length

namespace Run

variable (maxOutputBytes : ℕ)

def setPump (run : Run) (stream : Stream) (pump : Pump) : Run :=
  { run with pumps := Function.update run.pumps stream pump }

/-- `stream.read(_READ_CHUNK_BYTES)`: a whole chunk, or what is left when the stream has ended. -/
def read (run : Run) (stream : Stream) : Option Run :=
  if readChunkBytes ≤ (run.pending stream).length then
    some { run with
      pending := Function.update run.pending stream ((run.pending stream).drop readChunkBytes)
      pumps := Function.update run.pumps stream
        (.holding ((run.pending stream).take readChunkBytes)) }
  else if run.writable stream then none
  else if run.pending stream = [] then some (run.setPump stream (.returned .ended))
  else
    some { run with
      pending := Function.update run.pending stream []
      pumps := Function.update run.pumps stream (.holding (run.pending stream)) }

/-- What a pump does with the chunk it has read. -/
def advance (run : Run) (stream : Stream) : Option Run :=
  match run.pumps stream with
  | .holding chunk =>
      let buffers := Function.update run.buffers stream (run.buffers stream ++ chunk)
      some { run with
        buffers
        pumps := Function.update run.pumps stream (.counted (size buffers)) }
  | .counted total =>
      if maxOutputBytes < total then
        some ({ run with limitHit := true }.setPump stream .breached)
      else some (run.setPump stream .reading)
  | .breached => some ({ run with terminated := true }.setPump stream (.returned .limited))
  | .reading | .returned _ => none

def returned (run : Run) (stream : Stream) : Bool :=
  match run.pumps stream with
  | .returned _ => true
  | _ => false

/-- The caller: its loop, the result, and the `finally` block. -/
def call (run : Run) (expired : Bool) : Option Run :=
  match run.caller with
  | .checkLimit =>
      some { run with caller := if run.limitHit then .limitSeen else .checkDeadline }
  | .limitSeen => some { run with caller := .cleanup (.outputLimitExceeded run.buffers) }
  | .checkDeadline =>
      some { run with caller := if expired then .deadlineSeen else .checkEnd }
  | .deadlineSeen => some { run with caller := .cleanup (.timeout run.buffers) }
  | .checkEnd =>
      some { run with
        caller := if run.exited.isSome && run.returned .stdout && run.returned .stderr then .collect
          else .checkLimit }
  | .collect => some { run with caller := .collected run.buffers }
  | .collected output =>
      if run.limitHit then some { run with caller := .limitSeen }
      else run.exited.map fun returncode =>
        { run with caller := .cleanup (.result returncode output) }
  | .cleanup outcome => some { run with terminated := true, caller := .done outcome }
  | .done _ => none

def step (run : Run) : Label → Option Run
  | .write stream bytes =>
      if run.writable stream then
        some { run with
          written := Function.update run.written stream (run.written stream ++ bytes)
          pending := Function.update run.pending stream (run.pending stream ++ bytes) }
      else none
  | .close stream => some { run with writable := Function.update run.writable stream false }
  | .exit returncode =>
      if run.exited = none then some { run with exited := some returncode } else none
  | .read stream => if run.pumps stream = .reading then run.read stream else none
  | .failRead stream =>
      if run.pumps stream = .reading then some (run.setPump stream (.returned .failed)) else none
  | .advance stream => run.advance maxOutputBytes stream
  | .call expired => run.call expired

end Run

/-! ## The pumps -/

/-- The pump has seen the cap exceeded, and acts on it or has acted. -/
def Pump.crossed (maxOutputBytes : ℕ) : Pump → Bool
  | .counted total => maxOutputBytes < total
  | .breached | .returned .limited => true
  | _ => false

namespace Run

/-- The pumps that have seen the cap exceeded. -/
def crossings (run : Run) (maxOutputBytes : ℕ) : ℕ :=
  ((run.pumps .stdout).crossed maxOutputBytes).toNat +
    ((run.pumps .stderr).crossed maxOutputBytes).toNat

/-- Nothing that a pump reads is lost, and one that crosses the cap says so. -/
structure Pumped (maxOutputBytes : ℕ) (run : Run) : Prop where
  flows : ∀ stream, run.buffers stream ++ ((run.pumps stream).held ++ run.pending stream) =
    run.written stream
  held : ∀ stream, (run.pumps stream).held.length ≤ readChunkBytes
  ended : ∀ stream, run.pumps stream = .returned .ended →
    run.pending stream = [] ∧ run.writable stream = false
  counted : ∀ stream total, run.pumps stream = .counted total → total ≤ size run.buffers
  hit : run.limitHit = true → maxOutputBytes < size run.buffers
  noticed : maxOutputBytes < size run.buffers → run.limitHit = true ∨
    ∃ stream total, run.pumps stream = .counted total ∧ maxOutputBytes < total
  raised : ∀ stream, run.pumps stream = .breached ∨ run.pumps stream = .returned .limited →
    run.limitHit = true
  bounded : size run.buffers ≤ maxOutputBytes + readChunkBytes * run.crossings maxOutputBytes

end Run

theorem size_update (output : Stream → List UInt8) (stream : Stream) (bytes : List UInt8) :
    size (Function.update output stream (output stream ++ bytes)) =
      size output + bytes.length := by
  cases stream <;> simp [size] <;> omega

namespace Run

variable {maxOutputBytes : ℕ} {run next : Run}

theorem crossings_setPump (run : Run) (maxOutputBytes : ℕ) (stream : Stream) (pump : Pump) :
    (run.setPump stream pump).crossings maxOutputBytes +
        ((run.pumps stream).crossed maxOutputBytes).toNat =
      run.crossings maxOutputBytes + (pump.crossed maxOutputBytes).toNat := by
  cases stream <;> simp [crossings, setPump] <;> omega

/-- A pump moves and what the others see stays. -/
theorem Pumped.move (hpumped : run.Pumped maxOutputBytes) {stream : Stream} {pump : Pump}
    {pending : List UInt8}
    (hflows : pump.held ++ pending = (run.pumps stream).held ++ run.pending stream)
    (hheld : pump.held.length ≤ readChunkBytes)
    (hended : pump = .returned .ended → pending = [] ∧ run.writable stream = false)
    (hcounted : ∀ total, pump ≠ .counted total)
    (hraised : pump = .breached ∨ pump = .returned .limited → run.limitHit = true)
    (hnoticed : ∀ total, run.pumps stream = .counted total → total ≤ maxOutputBytes ∨
      run.limitHit = true)
    (hcrossed : (run.pumps stream).crossed maxOutputBytes = pump.crossed maxOutputBytes) :
    ({ run with
        pending := Function.update run.pending stream pending
        pumps := Function.update run.pumps stream pump } : Run).Pumped maxOutputBytes := by
  constructor
  · intro other
    by_cases hsame : other = stream
    · subst hsame
      simp only [Function.update_self]
      rw [hflows]
      exact hpumped.flows other
    · simp only [Function.update_of_ne hsame]
      exact hpumped.flows other
  · intro other
    by_cases hsame : other = stream
    · subst hsame
      simpa only [Function.update_self] using hheld
    · simpa only [Function.update_of_ne hsame] using hpumped.held other
  · intro other
    by_cases hsame : other = stream
    · subst hsame
      simpa only [Function.update_self] using hended
    · simpa only [Function.update_of_ne hsame] using hpumped.ended other
  · intro other total
    by_cases hsame : other = stream
    · subst hsame
      simp only [Function.update_self]
      exact fun hpump => absurd hpump (hcounted total)
    · simpa only [Function.update_of_ne hsame] using hpumped.counted other total
  · exact hpumped.hit
  · intro hover
    rcases hpumped.noticed hover with hhit | ⟨other, total, hother, htotal⟩
    · exact .inl hhit
    · by_cases hsame : other = stream
      · subst hsame
        rcases hnoticed total hother with hle | hhit
        · exact absurd htotal (Nat.not_lt.mpr hle)
        · exact .inl hhit
      · exact .inr ⟨other, total, by simpa only [Function.update_of_ne hsame] using hother, htotal⟩
  · intro other
    by_cases hsame : other = stream
    · subst hsame
      simpa only [Function.update_self] using hraised
    · simpa only [Function.update_of_ne hsame] using hpumped.raised other
  · have hcrossings := crossings_setPump run maxOutputBytes stream pump
    rw [hcrossed] at hcrossings
    have hsame : ({ run with
        pending := Function.update run.pending stream pending
        pumps := Function.update run.pumps stream pump } : Run).crossings maxOutputBytes =
        run.crossings maxOutputBytes := Nat.add_right_cancel hcrossings
    rw [hsame]
    exact hpumped.bounded

theorem Pumped.read (hpumped : run.Pumped maxOutputBytes) {stream : Stream}
    (hreading : run.pumps stream = .reading) (hread : run.read stream = some next) :
    next.Pumped maxOutputBytes := by
  have hnoticed : ∀ total, run.pumps stream = .counted total → total ≤ maxOutputBytes ∨
      run.limitHit = true := by
    intro total htotal
    rw [hreading] at htotal
    cases htotal
  rw [Run.read] at hread
  split_ifs at hread with hchunk hwritable hempty
  · cases hread
    refine hpumped.move ?_ (List.length_take_le _ _) (fun hended => by cases hended)
      (fun _ hcounted => by cases hcounted) (by simp) hnoticed (by rw [hreading]; rfl)
    rw [hreading]
    exact List.take_append_drop _ _
  · cases hread
    rw [setPump, ← Function.update_eq_self stream run.pending]
    exact hpumped.move (by rw [hreading]; rfl) (Nat.zero_le _)
      (fun _ => ⟨hempty, eq_false_of_ne_true hwritable⟩) (fun _ hcounted => by cases hcounted)
      (by simp) hnoticed (by rw [hreading]; rfl)
  · cases hread
    refine hpumped.move ?_ (Nat.le_of_lt (Nat.not_le.mp hchunk)) (fun hended => by cases hended)
      (fun _ hcounted => by cases hcounted) (by simp) hnoticed (by rw [hreading]; rfl)
    rw [hreading]
    exact List.append_nil _

theorem Pumped.failRead (hpumped : run.Pumped maxOutputBytes) {stream : Stream}
    (hreading : run.pumps stream = .reading) :
    (run.setPump stream (.returned .failed)).Pumped maxOutputBytes := by
  rw [setPump, ← Function.update_eq_self stream run.pending]
  refine hpumped.move (by rw [hreading]; rfl) (Nat.zero_le _) (fun hended => by cases hended)
    (fun _ hcounted => by cases hcounted) (by simp) ?_ (by rw [hreading]; rfl)
  intro total htotal
  rw [hreading] at htotal
  cases htotal

/-- The lock is held while a chunk is appended and the bytes of both buffers are counted. -/
theorem Pumped.append (hpumped : run.Pumped maxOutputBytes) {stream : Stream}
    {chunk : List UInt8} (hholding : run.pumps stream = .holding chunk) :
    ({ run with
        buffers := Function.update run.buffers stream (run.buffers stream ++ chunk)
        pumps := Function.update run.pumps stream (.counted
          (size (Function.update run.buffers stream (run.buffers stream ++ chunk)))) } :
      Run).Pumped maxOutputBytes := by
  have hgrown := size_update run.buffers stream chunk
  have hchunk : chunk.length ≤ readChunkBytes := by
    have hheld := hpumped.held stream
    rwa [hholding] at hheld
  constructor
  · intro other
    by_cases hsame : other = stream
    · subst hsame
      have hflows := hpumped.flows other
      rw [hholding] at hflows
      simp only [Function.update_self, List.append_assoc]
      exact hflows
    · simp only [Function.update_of_ne hsame]
      exact hpumped.flows other
  · intro other
    by_cases hsame : other = stream
    · subst hsame
      simp only [Function.update_self]
      exact Nat.zero_le _
    · simpa only [Function.update_of_ne hsame] using hpumped.held other
  · intro other
    by_cases hsame : other = stream
    · subst hsame
      simp only [Function.update_self]
      intro hended
      cases hended
    · simpa only [Function.update_of_ne hsame] using hpumped.ended other
  · intro other total
    by_cases hsame : other = stream
    · subst hsame
      simp only [Function.update_self]
      intro htotal
      cases htotal
      exact Nat.le_refl _
    · simp only [Function.update_of_ne hsame]
      intro htotal
      have hle := hpumped.counted other total htotal
      omega
  · intro hhit
    have hover := hpumped.hit hhit
    simp only
    omega
  · intro hover
    exact .inr ⟨stream, _, Function.update_self .., hover⟩
  · intro other
    by_cases hsame : other = stream
    · subst hsame
      simp only [Function.update_self]
      rintro (hbreached | hreturned)
      · cases hbreached
      · cases hreturned
    · simpa only [Function.update_of_ne hsame] using hpumped.raised other
  · have hcrossings := crossings_setPump run maxOutputBytes stream (.counted
      (size (Function.update run.buffers stream (run.buffers stream ++ chunk))))
    have hbefore : (run.pumps stream).crossed maxOutputBytes = false := by rw [hholding]; rfl
    have hbounded := hpumped.bounded
    rw [hbefore] at hcrossings
    simp only [Bool.toNat_false, Nat.add_zero] at hcrossings
    change size _ ≤ maxOutputBytes + readChunkBytes * (run.setPump stream _).crossings _
    rw [hcrossings, hgrown]
    by_cases hover : maxOutputBytes < size run.buffers + chunk.length
    · -- This pump crosses the cap now, by a chunk at most.
      have hcrossed : (Pump.counted (size run.buffers + chunk.length)).crossed maxOutputBytes =
          true := decide_eq_true hover
      rw [hcrossed, Bool.toNat_true, Nat.mul_add, Nat.mul_one]
      omega
    · have hle : size run.buffers + chunk.length ≤ maxOutputBytes := Nat.not_lt.mp hover
      exact hle.trans (Nat.le_add_right _ _)

theorem Pumped.raise (hpumped : run.Pumped maxOutputBytes)
    (hover : maxOutputBytes < size run.buffers) :
    ({ run with limitHit := true } : Run).Pumped maxOutputBytes where
  flows := hpumped.flows
  held := hpumped.held
  ended := hpumped.ended
  counted := hpumped.counted
  hit _ := hover
  noticed _ := .inl rfl
  raised _ _ := rfl
  bounded := hpumped.bounded

theorem Pumped.terminate (hpumped : run.Pumped maxOutputBytes) (terminated : Bool)
    (exited : Option ℤ) (caller : Caller) :
    ({ run with terminated, exited, caller } : Run).Pumped maxOutputBytes where
  flows := hpumped.flows
  held := hpumped.held
  ended := hpumped.ended
  counted := hpumped.counted
  hit := hpumped.hit
  noticed := hpumped.noticed
  raised := hpumped.raised
  bounded := hpumped.bounded

theorem Pumped.advance (hpumped : run.Pumped maxOutputBytes) {stream : Stream}
    (hadvance : run.advance maxOutputBytes stream = some next) :
    next.Pumped maxOutputBytes := by
  rw [Run.advance] at hadvance
  split at hadvance
  next chunk hholding =>
    cases hadvance
    exact hpumped.append hholding
  next total hcounted =>
    split_ifs at hadvance with hover
    · cases hadvance
      have hraised := hpumped.raise (hover.trans_le (hpumped.counted stream total hcounted))
      rw [setPump, ← Function.update_eq_self stream run.pending]
      refine hraised.move ?_ (Nat.zero_le _) (fun hended => by cases hended)
        (fun _ hother => by cases hother) (fun _ => rfl) (fun _ _ => .inr rfl) ?_
      · rw [hcounted]
        rfl
      · rw [hcounted]
        exact decide_eq_true hover
    · cases hadvance
      rw [setPump, ← Function.update_eq_self stream run.pending]
      refine hpumped.move ?_ (Nat.zero_le _) (fun hended => by cases hended)
        (fun _ hother => by cases hother) (by simp) ?_ ?_
      · rw [hcounted]
        rfl
      · intro other hother
        cases hcounted.symm.trans hother
        exact .inl (Nat.not_lt.mp hover)
      · rw [hcounted]
        exact decide_eq_false hover
  next hbreached =>
    cases hadvance
    have hhit := hpumped.raised stream (.inl hbreached)
    have hterminated := hpumped.terminate true run.exited run.caller
    rw [setPump, ← Function.update_eq_self stream run.pending]
    refine hterminated.move ?_ (Nat.zero_le _) (fun hended => by cases hended)
      (fun _ hcounted => by cases hcounted) (fun _ => hhit) (fun _ _ => .inr hhit) ?_
    · rw [hbreached]
      rfl
    · rw [hbreached]
      rfl
  next => cases hadvance
  next => cases hadvance

theorem Pumped.write (hpumped : run.Pumped maxOutputBytes) {stream : Stream}
    (hwritable : run.writable stream = true) (bytes : List UInt8) :
    ({ run with
        written := Function.update run.written stream (run.written stream ++ bytes)
        pending := Function.update run.pending stream (run.pending stream ++ bytes) } :
      Run).Pumped maxOutputBytes where
  flows other := by
    by_cases hsame : other = stream
    · subst hsame
      simp only [Function.update_self, ← hpumped.flows other, List.append_assoc]
    · simp only [Function.update_of_ne hsame]
      exact hpumped.flows other
  held := hpumped.held
  ended other hother := by
    have hended := hpumped.ended other hother
    by_cases hsame : other = stream
    · subst hsame
      cases hended.2.symm.trans hwritable
    · simpa only [Function.update_of_ne hsame] using hended
  counted := hpumped.counted
  hit := hpumped.hit
  noticed := hpumped.noticed
  raised := hpumped.raised
  bounded := hpumped.bounded

theorem Pumped.close (hpumped : run.Pumped maxOutputBytes) (stream : Stream) :
    ({ run with writable := Function.update run.writable stream false } : Run).Pumped
      maxOutputBytes where
  flows := hpumped.flows
  held := hpumped.held
  ended other hother := by
    obtain ⟨hpending, hclosed⟩ := hpumped.ended other hother
    refine ⟨hpending, ?_⟩
    by_cases hsame : other = stream
    · subst hsame
      exact Function.update_self ..
    · exact (Function.update_of_ne hsame ..).trans hclosed
  counted := hpumped.counted
  hit := hpumped.hit
  noticed := hpumped.noticed
  raised := hpumped.raised
  bounded := hpumped.bounded

theorem call_fields {expired : Bool} (hcall : run.call expired = some next) :
    ∃ terminated caller, next = { run with terminated, caller } := by
  rw [call] at hcall
  split at hcall
  next =>
    cases hcall
    exact ⟨_, _, rfl⟩
  next =>
    cases hcall
    exact ⟨_, _, rfl⟩
  next =>
    cases hcall
    exact ⟨_, _, rfl⟩
  next =>
    cases hcall
    exact ⟨_, _, rfl⟩
  next =>
    cases hcall
    exact ⟨_, _, rfl⟩
  next =>
    cases hcall
    exact ⟨_, _, rfl⟩
  next =>
    split_ifs at hcall
    · cases hcall
      exact ⟨_, _, rfl⟩
    · obtain ⟨returncode, -, rfl⟩ := Option.map_eq_some_iff.mp hcall
      exact ⟨_, _, rfl⟩
  next =>
    cases hcall
    exact ⟨_, _, rfl⟩
  next => cases hcall

theorem pumped_preserved : Preserved (step maxOutputBytes) (Pumped maxOutputBytes) := by
  intro run label next hpumped hstep
  cases label with
  | write stream bytes =>
      rw [step] at hstep
      split_ifs at hstep with hwritable
      cases hstep
      exact hpumped.write hwritable bytes
  | close stream =>
      cases hstep
      exact hpumped.close stream
  | exit returncode =>
      rw [step] at hstep
      split_ifs at hstep
      cases hstep
      exact hpumped.terminate run.terminated _ run.caller
  | read stream =>
      rw [step] at hstep
      split_ifs at hstep with hreading
      exact hpumped.read hreading hstep
  | failRead stream =>
      rw [step] at hstep
      split_ifs at hstep with hreading
      cases hstep
      exact hpumped.failRead hreading
  | advance stream => exact hpumped.advance hstep
  | call expired =>
      obtain ⟨terminated, caller, rfl⟩ := call_fields hstep
      exact hpumped.terminate terminated run.exited caller

theorem pumped_initial : ({} : Run).Pumped maxOutputBytes where
  flows _ := rfl
  held _ := Nat.zero_le _
  ended _ hended := by cases hended
  counted _ _ hcounted := by cases hcounted
  hit hhit := by cases hhit
  noticed hover := absurd hover (Nat.not_lt_zero _)
  raised _ hraised := by rcases hraised with hbreached | hreturned <;> contradiction
  bounded := Nat.zero_le _

/-- What a pump holds counts against the chunk that it may cross the cap by. -/
theorem Pumped.held_crossed (hpumped : run.Pumped maxOutputBytes) (stream : Stream) :
    (run.pumps stream).held.length +
        readChunkBytes * ((run.pumps stream).crossed maxOutputBytes).toNat ≤ readChunkBytes := by
  have hcrossed : readChunkBytes * ((run.pumps stream).crossed maxOutputBytes).toNat ≤
      readChunkBytes :=
    (Nat.mul_le_mul_left _ (Bool.toNat_le _)).trans (Nat.le_of_eq (Nat.mul_one _))
  cases hpump : run.pumps stream with
  | holding chunk =>
      have hheld := hpumped.held stream
      rwa [hpump] at hheld
  | reading | counted | breached | returned =>
      rw [hpump] at hcrossed
      simpa only [Pump.held, List.length_nil, Nat.zero_add] using hcrossed

/-! ## The caller -/

/-- Both pumps have returned. -/
def Settled (run : Run) : Prop :=
  ∀ stream, run.returned stream = true

/-- What the steps of the tree and of the pumps leave as it is for the caller. -/
structure Later (run next : Run) : Prop where
  caller : next.caller = run.caller
  exited : ∀ returncode, run.exited = some returncode → next.exited = some returncode
  grown : ∀ stream, run.buffers stream <+: next.buffers stream
  hit : run.limitHit = true → next.limitHit = true
  terminated : run.terminated = true → next.terminated = true
  settled : run.Settled →
    next.Settled ∧ next.buffers = run.buffers ∧ next.limitHit = run.limitHit

theorem prefix_update (output : Stream → List UInt8) (stream : Stream) (bytes : List UInt8)
    (other : Stream) :
    output other <+: Function.update output stream (output stream ++ bytes) other := by
  by_cases hsame : other = stream
  · subst hsame
    rw [Function.update_self]
    exact List.prefix_append _ _
  · rw [Function.update_of_ne hsame]

/-- A pump that has not returned may do what it likes with its own data. -/
theorem Later.pump {stream : Stream} (hworking : run.returned stream = false)
    (bytes : List UInt8) (pending : Stream → List UInt8) (pumps : Stream → Pump)
    (limitHit terminated : Bool) (hhit : run.limitHit = true → limitHit = true)
    (hterminated : run.terminated = true → terminated = true) :
    run.Later { run with
      buffers := Function.update run.buffers stream (run.buffers stream ++ bytes)
      pending, pumps, limitHit, terminated } where
  caller := rfl
  exited _ := id
  grown := prefix_update run.buffers stream bytes
  hit := hhit
  terminated := hterminated
  settled hsettled := by cases hworking.symm.trans (hsettled stream)

theorem Later.move {stream : Stream} (hworking : run.returned stream = false)
    (pending : Stream → List UInt8) (pumps : Stream → Pump) :
    run.Later { run with pending, pumps } := by
  have hlater := Later.pump hworking [] pending pumps run.limitHit run.terminated id id
  rwa [List.append_nil, Function.update_eq_self] at hlater

theorem Later.advance {stream : Stream} (hadvance : run.advance maxOutputBytes stream = some next) :
    run.Later next := by
  have hworking : run.returned stream = false := by
    cases hpump : run.pumps stream with
    | returned stop =>
        rw [Run.advance, hpump] at hadvance
        cases hadvance
    | reading | holding | counted | breached => rw [returned, hpump]
  rw [Run.advance] at hadvance
  split at hadvance
  next chunk hholding =>
    cases hadvance
    exact .pump hworking chunk run.pending _ run.limitHit run.terminated id id
  next total hcounted =>
    split_ifs at hadvance
    · cases hadvance
      have hlater := Later.pump hworking [] run.pending
        (Function.update run.pumps stream .breached) true run.terminated (fun _ => rfl) id
      rwa [List.append_nil, Function.update_eq_self] at hlater
    · cases hadvance
      exact .move hworking run.pending _
  next hbreached =>
    cases hadvance
    have hlater := Later.pump hworking [] run.pending
      (Function.update run.pumps stream (.returned .limited)) run.limitHit true id (fun _ => rfl)
    rwa [List.append_nil, Function.update_eq_self] at hlater
  next => cases hadvance
  next => cases hadvance

theorem Later.read {stream : Stream} (hreading : run.pumps stream = .reading)
    (hread : run.read stream = some next) : run.Later next := by
  have hworking : run.returned stream = false := by rw [returned, hreading]
  rw [Run.read] at hread
  split_ifs at hread
  · cases hread
    exact .move hworking _ _
  · cases hread
    exact .move hworking run.pending _
  · cases hread
    exact .move hworking _ _

/-- Every step but the caller's own leaves the caller where it is. -/
theorem later_step {label : Label} (hlabel : ∀ expired, label ≠ .call expired)
    (hstep : run.step maxOutputBytes label = some next) : run.Later next := by
  have hquiet : ∀ stream, run.buffers stream <+: run.buffers stream :=
    fun stream => List.prefix_refl _
  cases label with
  | write stream bytes =>
      rw [step] at hstep
      split_ifs at hstep
      cases hstep
      exact ⟨rfl, fun _ => id, hquiet, id, id, fun hsettled => ⟨hsettled, rfl, rfl⟩⟩
  | close stream =>
      cases hstep
      exact ⟨rfl, fun _ => id, hquiet, id, id, fun hsettled => ⟨hsettled, rfl, rfl⟩⟩
  | exit returncode =>
      rw [step] at hstep
      split_ifs at hstep with hexited
      cases hstep
      refine ⟨rfl, ?_, hquiet, id, id, fun hsettled => ⟨hsettled, rfl, rfl⟩⟩
      intro earlier hearlier
      cases hexited.symm.trans hearlier
  | read stream =>
      rw [step] at hstep
      split_ifs at hstep with hreading
      exact .read hreading hstep
  | failRead stream =>
      rw [step] at hstep
      split_ifs at hstep with hreading
      cases hstep
      exact .move (by rw [returned, hreading]) run.pending _
  | advance stream => exact .advance hstep
  | call expired => exact absurd rfl (hlabel expired)

end Run

/-- What holds of an outcome that the caller has settled on. -/
def Outcome.Sound (maxOutputBytes : ℕ) (run : Run) : Outcome → Prop
  | .result returncode output =>
      run.exited = some returncode ∧ run.Settled ∧ output = run.buffers ∧ run.limitHit = false
  | .outputLimitExceeded output =>
      maxOutputBytes < size output ∧ ∀ stream, output stream <+: run.buffers stream
  | .timeout output => ∀ stream, output stream <+: run.buffers stream

def Caller.Sound (maxOutputBytes : ℕ) (run : Run) : Caller → Prop
  | .limitSeen => run.limitHit = true
  | .collect => run.exited.isSome = true ∧ run.Settled
  | .collected output => run.exited.isSome = true ∧ run.Settled ∧ output = run.buffers
  | .cleanup outcome => outcome.Sound maxOutputBytes run
  | .done outcome => outcome.Sound maxOutputBytes run ∧ run.terminated = true
  | .checkLimit | .checkDeadline | .deadlineSeen | .checkEnd => True

theorem Outcome.Sound.later {maxOutputBytes : ℕ} {run next : Run} (hlater : run.Later next)
    {outcome : Outcome} (hsound : outcome.Sound maxOutputBytes run) :
    outcome.Sound maxOutputBytes next := by
  cases outcome with
  | result returncode output =>
      obtain ⟨hexited, hsettled, houtput, hhit⟩ := hsound
      obtain ⟨hstill, hbuffers, hlimit⟩ := hlater.settled hsettled
      exact ⟨hlater.exited returncode hexited, hstill, houtput.trans hbuffers.symm,
        hlimit.trans hhit⟩
  | outputLimitExceeded output =>
      exact ⟨hsound.1, fun stream => (hsound.2 stream).trans (hlater.grown stream)⟩
  | timeout output => exact fun stream => (hsound stream).trans (hlater.grown stream)

theorem Caller.Sound.later {maxOutputBytes : ℕ} {run next : Run} (hlater : run.Later next)
    {caller : Caller} (hsound : caller.Sound maxOutputBytes run) :
    caller.Sound maxOutputBytes next := by
  have hexited : run.exited.isSome = true → next.exited.isSome = true := by
    intro hsome
    obtain ⟨returncode, hreturncode⟩ := Option.isSome_iff_exists.mp hsome
    rw [hlater.exited returncode hreturncode]
    rfl
  cases caller with
  | limitSeen => exact hlater.hit hsound
  | collect => exact ⟨hexited hsound.1, (hlater.settled hsound.2).1⟩
  | collected output =>
      obtain ⟨hsome, hsettled, houtput⟩ := hsound
      obtain ⟨hstill, hbuffers, -⟩ := hlater.settled hsettled
      exact ⟨hexited hsome, hstill, houtput.trans hbuffers.symm⟩
  | cleanup outcome => exact Outcome.Sound.later hlater hsound
  | done outcome => exact ⟨hsound.1.later hlater, hlater.terminated hsound.2⟩
  | checkLimit | checkDeadline | deadlineSeen | checkEnd => trivial

namespace Run

variable {maxOutputBytes : ℕ} {run next : Run}

theorem sound_call (hpumped : run.Pumped maxOutputBytes)
    (hsound : run.caller.Sound maxOutputBytes run) {expired : Bool}
    (hcall : run.call expired = some next) : next.caller.Sound maxOutputBytes next := by
  have hbuffers : ∀ stream, run.buffers stream <+: run.buffers stream :=
    fun stream => List.prefix_refl _
  rw [call] at hcall
  split at hcall
  next =>
    cases hcall
    by_cases hhit : run.limitHit = true
    · simp only [if_pos hhit]
      exact hhit
    · simp only [if_neg hhit]
      trivial
  next hcaller =>
    cases hcall
    rw [hcaller] at hsound
    exact ⟨hpumped.hit hsound, hbuffers⟩
  next =>
    cases hcall
    cases expired <;> exact trivial
  next =>
    cases hcall
    exact hbuffers
  next =>
    cases hcall
    by_cases hend : (run.exited.isSome && run.returned .stdout && run.returned .stderr) = true
    · simp only [if_pos hend]
      rw [Bool.and_eq_true, Bool.and_eq_true] at hend
      obtain ⟨⟨hexited, hstdout⟩, hstderr⟩ := hend
      refine ⟨hexited, fun stream => ?_⟩
      cases stream
      · exact hstdout
      · exact hstderr
    · simp only [if_neg hend]
      trivial
  next hcaller =>
    cases hcall
    rw [hcaller] at hsound
    exact ⟨hsound.1, hsound.2, rfl⟩
  next output hcaller =>
    rw [hcaller] at hsound
    split_ifs at hcall with hhit
    · cases hcall
      exact hhit
    · obtain ⟨returncode, hexited, rfl⟩ := Option.map_eq_some_iff.mp hcall
      exact ⟨hexited, hsound.2.1, hsound.2.2, eq_false_of_ne_true hhit⟩
  next outcome hcaller =>
    cases hcall
    rw [hcaller] at hsound
    refine ⟨?_, rfl⟩
    cases outcome <;> exact hsound
  next => cases hcall

/-- The invariant of a call: of the pumps and of the caller. -/
structure Valid (maxOutputBytes : ℕ) (run : Run) : Prop where
  pumped : run.Pumped maxOutputBytes
  caller : run.caller.Sound maxOutputBytes run

theorem valid_initial : ({} : Run).Valid maxOutputBytes :=
  ⟨pumped_initial, trivial⟩

theorem valid_preserved : Preserved (step maxOutputBytes) (Valid maxOutputBytes) := by
  intro run label next hvalid hstep
  refine ⟨pumped_preserved run label next hvalid.pumped hstep, ?_⟩
  by_cases hcall : ∃ expired, label = .call expired
  · obtain ⟨expired, rfl⟩ := hcall
    exact sound_call hvalid.pumped hvalid.caller hstep
  · have hlater := later_step (fun expired hlabel => hcall ⟨expired, hlabel⟩) hstep
    rw [hlater.caller]
    exact hvalid.caller.later hlater

/-- A buffer holds a beginning of what the tree wrote to the stream. -/
theorem Pumped.prefix_written (hpumped : run.Pumped maxOutputBytes) (stream : Stream) :
    run.buffers stream <+: run.written stream :=
  ⟨_, hpumped.flows stream⟩

/-- When both pumps are back and none has seen the cap exceeded, only a failed read has
cut an output short. -/
theorem Pumped.complete (hpumped : run.Pumped maxOutputBytes) (hsettled : run.Settled)
    (hhit : run.limitHit = false) (stream : Stream) :
    run.pumps stream = .returned .failed ∨ run.buffers stream = run.written stream := by
  have hreturned := hsettled stream
  rw [returned] at hreturned
  split at hreturned
  next stop hstop =>
    cases stop with
    | failed => exact .inl hstop
    | ended =>
        have hflows := hpumped.flows stream
        rw [(hpumped.ended stream hstop).1, hstop] at hflows
        exact .inr ((List.append_nil _).symm.trans hflows)
    | limited => cases hhit.symm.trans (hpumped.raised stream (.inr hstop))
  next => cases hreturned

theorem Pumped.within (hpumped : run.Pumped maxOutputBytes) (hsettled : run.Settled)
    (hhit : run.limitHit = false) : size run.buffers ≤ maxOutputBytes := by
  by_contra hover
  rcases hpumped.noticed (Nat.not_le.mp hover) with hlimit | ⟨stream, total, hcounted, -⟩
  · cases hhit.symm.trans hlimit
  · have hreturned := hsettled stream
    rw [returned, hcounted] at hreturned
    cases hreturned

end Run

/-- `stdout` and `stderr` of what a call returns or raises. -/
def Outcome.output : Outcome → Stream → List UInt8
  | .result _ output | .outputLimitExceeded output | .timeout output => output

/-- Whatever the order in which tree, pumps and caller move: a result has the leader's
return code and, a failed read apart, all that the tree wrote, which is within the cap;
the limit is only reported with more output than the cap; every output is a
beginning of what was written; and the tree has been terminated. -/
theorem call_ends_soundly {maxOutputBytes : ℕ} {labels : List Label} {final : Run}
    {outcome : Outcome} (hrun : Transition.run (Run.step maxOutputBytes) {} labels = some final)
    (hdone : final.caller = .done outcome) :
    final.terminated = true ∧ (∀ stream, outcome.output stream <+: final.written stream) ∧
      match outcome with
      | .result returncode output =>
          final.exited = some returncode ∧ size output ≤ maxOutputBytes ∧
            ∀ stream, final.pumps stream = .returned .failed ∨
              output stream = final.written stream
      | .outputLimitExceeded output => maxOutputBytes < size output
      | .timeout _ => True := by
  have hvalid := Run.valid_preserved.run Run.valid_initial hrun
  have hpumped := hvalid.pumped
  have hcaller := hvalid.caller
  rw [hdone] at hcaller
  obtain ⟨hsound, hterminated⟩ := hcaller
  refine ⟨hterminated, ?_⟩
  cases outcome with
  | result returncode output =>
      obtain ⟨hexited, hsettled, rfl, hhit⟩ := hsound
      exact ⟨hpumped.prefix_written, hexited, hpumped.within hsettled hhit,
        hpumped.complete hsettled hhit⟩
  | outputLimitExceeded output =>
      exact ⟨fun stream => (hsound.2 stream).trans (hpumped.prefix_written stream), hsound.1⟩
  | timeout output =>
      exact ⟨fun stream => (hsound stream).trans (hpumped.prefix_written stream), trivial⟩

/-- The tree writes to both streams and ends, the pumps drain them in turn. -/
def drainedRun : List Label :=
  [.write .stdout [1, 2], .write .stderr [3], .call false, .close .stdout, .close .stderr,
    .read .stderr, .read .stdout, .advance .stdout, .advance .stderr, .advance .stderr,
    .advance .stdout, .read .stdout, .exit 0, .read .stderr, .call false, .call false,
    .call true, .call true, .call true]

theorem call_ends_soundly_drained :
    ∃ final output, Transition.run (Run.step 3) {} drainedRun = some final ∧
      final.caller = .done (.result 0 output) ∧ final.terminated = true ∧ size output ≤ 3 := by
  have hdone : ∃ output, (Transition.run (Run.step 3) {} drainedRun).map Run.caller =
      some (.done (.result 0 output)) := ⟨_, rfl⟩
  obtain ⟨output, hdone⟩ := hdone
  obtain ⟨final, hrun, hcaller⟩ := Option.map_eq_some_iff.mp hdone
  have hsound := call_ends_soundly hrun hcaller
  exact ⟨final, output, hrun, hcaller, hsound.1, hsound.2.2.2.1⟩

/-- All that a call keeps of the output, the chunks in the pumps' hands included, exceeds
the cap by two chunks at most. -/
theorem kept_bytes_bounded {maxOutputBytes : ℕ} {run : Run}
    (hreach : Reachable (Run.step maxOutputBytes) {} run) :
    size run.buffers + size (fun stream => (run.pumps stream).held) ≤
      maxOutputBytes + 2 * readChunkBytes := by
  have hpumped := (Run.valid_preserved.reachable Run.valid_initial hreach).pumped
  have hstdout := hpumped.held_crossed .stdout
  have hstderr := hpumped.held_crossed .stderr
  have hbounded := hpumped.bounded
  rw [Run.crossings, Nat.mul_add] at hbounded
  simp only [size] at hbounded ⊢
  omega

theorem kept_bytes_bounded_holding :
    ∃ run, Reachable (Run.step 3) {} run ∧
      size run.buffers + size (fun stream => (run.pumps stream).held) ≤
        3 + 2 * readChunkBytes := by
  refine ⟨_, ⟨[.write .stdout [1, 2, 3, 4], .close .stdout, .read .stdout], rfl⟩, ?_⟩
  exact kept_bytes_bounded ⟨[.write .stdout [1, 2, 3, 4], .close .stdout, .read .stdout], rfl⟩

/-! ## The deadline -/

/-- The moves the caller has left once the deadline is over. -/
def Caller.left : Caller → ℕ
  | .done _ => 0
  | .cleanup _ => 1
  | .limitSeen | .deadlineSeen => 2
  | .checkDeadline | .collected _ => 3
  | .checkLimit | .collect => 4
  | .checkEnd => 5

def Label.isCall : Label → Bool
  | .call _ => true
  | _ => false

namespace Run

variable {maxOutputBytes : ℕ} {run next : Run}

theorem left_call (hcall : run.call true = some next) :
    next.caller.left + 1 ≤ run.caller.left := by
  rw [call] at hcall
  split at hcall
  next hcaller =>
    cases hcall
    rw [hcaller]
    dsimp only
    split <;> simp [Caller.left]
  next hcaller =>
    cases hcall
    rw [hcaller]
    exact Nat.le_refl _
  next hcaller =>
    cases hcall
    rw [hcaller]
    exact Nat.le_refl _
  next hcaller =>
    cases hcall
    rw [hcaller]
    exact Nat.le_refl _
  next hcaller =>
    cases hcall
    rw [hcaller]
    dsimp only
    split <;> simp [Caller.left]
  next hcaller =>
    cases hcall
    rw [hcaller]
    exact Nat.le_refl _
  next hcaller =>
    rw [hcaller]
    split_ifs at hcall
    · cases hcall
      exact Nat.le_refl _
    · obtain ⟨returncode, -, rfl⟩ := Option.map_eq_some_iff.mp hcall
      exact Nat.le_succ _
  next hcaller =>
    cases hcall
    rw [hcaller]
    exact Nat.le_refl _
  next => cases hcall

theorem left_run {labels : List Label} {final : Run}
    (hexpired : ∀ expired, .call expired ∈ labels → expired = true)
    (hrun : Transition.run (step maxOutputBytes) run labels = some final) :
    final.caller.left + labels.countP Label.isCall ≤ run.caller.left := by
  induction labels generalizing run with
  | nil =>
      cases hrun
      exact Nat.le_refl _
  | cons label labels ih =>
      obtain ⟨next, hstep, hrest⟩ := run_cons_eq_some.mp hrun
      have hleft := ih (fun expired hmem => hexpired expired (List.mem_cons_of_mem _ hmem)) hrest
      by_cases hcall : ∃ expired, label = .call expired
      · obtain ⟨expired, rfl⟩ := hcall
        obtain rfl := hexpired expired List.mem_cons_self
        have hmove := left_call hstep
        rw [List.countP_cons_of_pos rfl]
        omega
      · have hlater := later_step (fun expired hlabel => hcall ⟨expired, hlabel⟩) hstep
        have hother : ¬label.isCall = true := by
          cases label with
          | call expired => exact absurd ⟨expired, rfl⟩ hcall
          | write | close | exit | read | failRead | advance => exact Bool.false_ne_true
        rw [List.countP_cons_of_neg hother, ← hlater.caller]
        exact hleft

/-- A caller that is not done can always move. -/
theorem call_enabled (hsound : run.caller.Sound maxOutputBytes run)
    (hopen : ∀ outcome, run.caller ≠ .done outcome) (expired : Bool) :
    ∃ next, run.call expired = some next := by
  rw [call]
  split
  next => exact ⟨_, rfl⟩
  next => exact ⟨_, rfl⟩
  next => exact ⟨_, rfl⟩
  next => exact ⟨_, rfl⟩
  next => exact ⟨_, rfl⟩
  next => exact ⟨_, rfl⟩
  next output hcaller =>
    rw [hcaller] at hsound
    obtain ⟨returncode, hexited⟩ := Option.isSome_iff_exists.mp hsound.1
    split_ifs
    · exact ⟨_, rfl⟩
    · rw [hexited]
      exact ⟨_, rfl⟩
  next => exact ⟨_, rfl⟩
  next outcome hcaller => exact absurd hcaller (hopen outcome)

end Run

theorem Caller.left_le (caller : Caller) : caller.left ≤ 5 := by
  cases caller <;> simp [Caller.left]

/-- Once the deadline is over, the caller is done after at most five moves of its own,
whatever tree and pumps do in between, and until then nothing keeps it from moving. -/
theorem deadline_ends_call {maxOutputBytes : ℕ} {run final : Run} {labels : List Label}
    (hreach : Reachable (Run.step maxOutputBytes) {} run)
    (hexpired : ∀ expired, .call expired ∈ labels → expired = true)
    (hrun : Transition.run (Run.step maxOutputBytes) run labels = some final) :
    labels.countP Label.isCall ≤ 5 ∧
      ((∃ outcome, final.caller = .done outcome) ∨ ∃ next, final.call true = some next) := by
  have hleft := Run.left_run hexpired hrun
  have hvalid := Run.valid_preserved.reachable Run.valid_initial (hreach.trans hrun)
  refine ⟨?_, ?_⟩
  · have hle := run.caller.left_le
    omega
  · by_cases hdone : ∃ outcome, final.caller = .done outcome
    · exact .inl hdone
    · exact .inr (Run.call_enabled hvalid.caller (fun outcome h => hdone ⟨outcome, h⟩) true)

theorem deadline_ends_call_silent :
    [Label.call true, .write .stdout [1], .call true].countP Label.isCall ≤ 5 := by
  have hexpired : ∀ expired, Label.call expired ∈
      [Label.call true, .write .stdout [1], .call true] → expired = true := by
    intro expired hmem
    simpa using hmem
  have hrun : ∃ final, Transition.run (Run.step 3) {}
      [Label.call true, .write .stdout [1], .call true] = some final := ⟨_, rfl⟩
  obtain ⟨final, hrun⟩ := hrun
  exact (deadline_ends_call (Reachable.refl _) hexpired hrun).1

end AlgorithmHarness.BoundedRun
