import AlgorithmHarness.Core.Table
import AlgorithmHarness.Incremental.Fingerprint
import Mathlib.Tactic.SplitIfs

/-!
# What a fingerprint misses

Problems with one fingerprint are evaluated alike if they also agree in what
the fingerprint leaves out: the title, the constraints, the reason why a
problem is unsupported, and the order of the members of their test data.
-/

namespace AlgorithmHarness.Incremental

open Harness Strategies

variable {Digest : Type*} {hash : Hash Digest} {p q : Problem}

/-! ## What the fingerprint covers -/

/-- The fields that the fingerprint covers as they are. -/
structure Covered (p q : Problem) : Prop where
  problemId : p.problemId = q.problemId
  description : p.description = q.description
  inputOutputMode : p.inputOutputMode = q.inputOutputMode
  entryPoint : p.entryPoint = q.entryPoint
  judgeConfig : p.judgeConfig = q.judgeConfig

/-- Why `execute` refuses every candidate. -/
def refusal (executor : SandboxExecutor) (problem : Problem) : Option String :=
  if problem.unsupported then problem.unsupportedReason
  else if problem.inputOutputMode = .function &&
      (executor.entryPointParts problem.entryPoint).isNone then
    some ("Unsupported entry point: " ++ problem.entryPoint)
  else none

variable {executor : SandboxExecutor}

/-- What `execute` reads of a problem that it does not refuse. -/
def bare (problem : Problem) : Problem :=
  { problem with
    title := "", difficulty := .easy, tags := [], constraints := none, unsupportedReason := none }

/-- A hash that is what it hashes. -/
def transparent : Hash Value := ⟨id, Function.injective_id⟩

theorem zero_converts (_ : Bool) (_ : Numeral) (_ : false = true) :
    ∃ converted, (.ok .zero : Except String Double) = .ok converted :=
  ⟨.zero, rfl⟩

/-- A sandbox in which every candidate times out. -/
def idle : SandboxExecutor where
  run := fun _ => .timedOut
  timeoutSeconds := "5"
  allowedImports := []
  allowedText := "set()"
  unavailable := none
  isWord := fun c => c.isAlphanum || c = '_'
  printable := fun _ => true
  arithmetic :=
    { ofBool := fun value => .int (if value then 1 else 0)
      same := fun _ _ => false
      toFloat := fun _ => .ok .zero
      isClose := fun _ _ _ => false
      toFloat_of_same := zero_converts }
  loads := fun _ => none

end AlgorithmHarness.Incremental
