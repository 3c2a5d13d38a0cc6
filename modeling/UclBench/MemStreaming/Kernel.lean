import UclBench.Interleave
import UclBench.Strided
import Mathlib.Algebra.Order.Field.Rat
import Mathlib.Tactic.IntervalCases

/-!
# UclBench.MemStreaming.Kernel

The three kernels of the streaming benchmark (`mem_streaming.cl`).

`local_mem`, `global_mem` and `private_mem` share one body over two arrays of
`ELEMENTS` and `2 * ELEMENTS` elements of `dtype`; they differ in where the
arrays live and in how the work items of a group share the loops.  A work item
is the list of its memory accesses, before and after the barrier.

Loop counters are natural numbers: they stand for the `int`s of the source while
`2 * ELEMENTS` plus one step is below `2 ^ 31`.  `main` passes 1024 elements at
most.
-/

namespace UclBench.MemStreaming

/-! ## accesses -/

/-- The arrays: `s1`, `g1` or `r1`, and `s2`, `g2` or `r2`. -/
inductive Arr where
  | fst
  | snd
  deriving DecidableEq, Repr

/-- One access to an array.  A sum is evaluated in a private register: its
first operand is loaded, the others are added, the result is stored. -/
inductive Access where
  /-- `a[idx].s<c> = v` -/
  | put (a : Arr) (idx c : Nat) (v : ℚ)
  | load (a : Arr) (idx : Nat)
  | add (a : Arr) (idx : Nat)
  | store (a : Arr) (idx : Nat)
  /-- `output[gid] += a[idx].s0 + …` -/
  | emit (a : Arr) (idx : Nat) (cs : List Nat)
  deriving DecidableEq

/-- The array and the index. -/
def Access.target : Access → Arr × Nat
  | .put a idx _ _ | .load a idx | .add a idx | .store a idx | .emit a idx _ => (a, idx)

/-! ## the body -/

/-- The components written out for a value of `VEC`; without a selector it is
the scalar itself. -/
def components (vec : Nat) : List Nat :=
  match vec with
  | 1 => [0, 1]
  | 2 => [0, 1, 2, 3]
  | 3 => [0, 1, 2, 3, 4, 5, 6, 7]
  | 4 => [0, 1, 2, 3, 4, 5, 6, 7, 8, 9, 10, 11, 12, 13, 14, 15]
  | _ => [0]

/-- The values the two arrays are set to. -/
def initial : Arr → ℚ
  | .fst => 0
  | .snd => 1 / 2

/-- `a[idx].s0 = …; a[idx].s1 = …; …` -/
def putAll (vec : Nat) (a : Arr) (idx : Nat) : List Access :=
  (components vec).map fun c => .put a idx c (initial a)

/-- `s1[idx] = s1[idx] + s2[idx] + s2[2*idx];` -/
def stream (idx : Nat) : List Access :=
  [.load .fst idx, .add .snd idx, .add .snd (2 * idx), .store .fst idx]

/-- The accesses of a work item on both sides of the barrier. -/
structure Program where
  before : List Access
  after : List Access

/-- The body of the kernels: loops from `first` in steps of `step`. -/
def body (vec elements first step : Nat) : Program where
  before :=
    (strided first elements step).flatMap (fun idx => putAll vec .snd idx ++ putAll vec .fst idx) ++
      (strided (first + elements) (elements * 2) step).flatMap (putAll vec .snd)
  after :=
    -- the statement is written out 100 times in the body of the inner loop
    (strided first elements step).flatMap (fun idx => repeated 100 (repeated 100 (stream idx))) ++
      (strided first elements step).map fun idx => .emit .fst idx (components vec)

def localMem (vec elements localSize id : Nat) : Program := body vec elements id localSize

def globalMem (vec elements localSize id : Nat) : Program := body vec elements id localSize

/-- Every work item runs over its own copy of the arrays. -/
def privateMem (vec elements : Nat) : Program := body vec elements 0 1

/-! ## components -/

theorem length_components (hvec : vec ≤ 4) : (components vec).length = 2 ^ vec := by
  interval_cases vec <;> rfl

theorem mem_components (hvec : vec ≤ 4) : c ∈ components vec ↔ c < 2 ^ vec := by
  interval_cases vec <;> simp [components] <;> omega

@[simp] theorem mem_putAll {x : Access} : x ∈ putAll vec a idx ↔
    ∃ c ∈ components vec, x = .put a idx c (initial a) := by
  simp [putAll, eq_comm]

end UclBench.MemStreaming
