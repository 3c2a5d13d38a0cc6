import UclBench.Stmt
import Mathlib.Logic.Function.Basic

/-!
# UclBench.BufferBandwidth.Transfer

The three measurements of the bandwidth benchmark (`buffer_bandwidth.cpp`):
`measureHostToDevice`, `measureDeviceToHost` and `measureDeviceToDevice`.

The API is a parameter.  `Statuses` says what each call whose status is stored
in `err` reports, `Contents` what the calls leave in memory: the set-up writes
and the final read-back are exact, a timed transfer leaves anything in its
destination.  Calls whose status is dropped (`clFinish`, unmapping, the final
read) have no other effect, and the time taken is not modelled here.
-/

namespace UclBench.BufferBandwidth

open Function Stmt

/-! ## the API -/

/-- `cl_int` -/
abbrev Status := Int32

def CL_SUCCESS : Status := 0

/-- `_MemMode` -/
inductive MemMode where
  | pinned
  | pageable
  deriving DecidableEq, Repr

/-- `_AccessMode` -/
inductive AccessMode where
  | mapped
  | direct
  deriving DecidableEq, Repr

/-- The arrays of a measurement. -/
inductive Buf where
  | dmem
  | pinnedHmem
  | dmemSrc
  | dmemDst
  | data
  | checkData
  deriving DecidableEq, Repr

/-- What the calls report. -/
structure Statuses where
  /-- `clCreateBuffer` -/
  create : Buf → Status
  /-- The `clEnqueueMapBuffer` calls on pinned memory, in order. -/
  setupMap : Nat → Status
  /-- The set-up `clEnqueueWriteBuffer`. -/
  setupWrite : Status
  /-- The transfer call of each pass of the timed loop. -/
  timed : Nat → Status
  /-- `clReleaseMemObject` -/
  release : Buf → Status

/-- What the calls leave in arrays of `size` elements. -/
structure Contents (α : Type _) (size : Nat) where
  /-- New memory. -/
  fresh : Buf → Fin size → α
  /-- The device buffer after a set-up write that failed. -/
  unwritten : Fin size → α
  /-- The destination of each timed transfer. -/
  left : Nat → Fin size → α

/-- `err` and the arrays. -/
structure State (α : Type _) (size : Nat) where
  err : Status
  mem : Buf → Fin size → α

/-- `exit(-1)`, or a return with the arrays as they are then. -/
inductive Result (α : Type _) (size : Nat) where
  | exited
  | returned (err : Status) (mem : Buf → Fin size → α)

/-! ## statements -/

section
variable {α : Type _} {size : Nat}

/-- `err = …` -/
def setErr (status : Status) : Stmt (Result α size) (State α size) :=
  fun s => .ok { s with err := status }

/-- `if(err != CL_SUCCESS) return err;` -/
def returnOnError : Stmt (Result α size) (State α size) :=
  fun s => if s.err ≠ CL_SUCCESS then .error (.returned s.err s.mem) else .ok s

/-- The array holds `x`. -/
def fill (b : Buf) (x : Fin size → α) : Stmt (Result α size) (State α size) :=
  fun s => .ok { s with mem := update s.mem b x }

/-- An exact transfer. -/
def copy (dst src : Buf) : Stmt (Result α size) (State α size) :=
  fun s => .ok { s with mem := update s.mem dst (s.mem src) }

/-- `clEnqueueWriteBuffer` of `data` before the timed loop. -/
def setupWrite (st : Statuses) (ct : Contents α size) (dst : Buf) :
    Stmt (Result α size) (State α size) :=
  if st.setupWrite = CL_SUCCESS then copy dst .data else fill dst ct.unwritten

/-- The final read-back and the comparison with `data`. -/
def check [DecidableEq α] (src : Buf) : Stmt (Result α size) (State α size) :=
  seq [copy .checkData src,
    fun s => if ∃ i, s.mem .checkData i ≠ s.mem .data i then .error .exited else .ok s]

/-- Behind the last statement stands `return err`. -/
def finish : Except (Result α size) (State α size) → Result α size
  | .ok s => .returned s.err s.mem
  | .error r => r

/-- On entry: the caller's array, and nothing else. -/
def entry (ct : Contents α size) (data : Fin size → α) : State α size :=
  ⟨CL_SUCCESS, update ct.fresh .data data⟩

/-! ## measurements -/

/-- `transfer_data`, which for pageable memory is `data` itself. -/
def transferData (mm : MemMode) : Buf := if mm = .pinned then .pinnedHmem else .data

def measureHostToDevice [DecidableEq α] (st : Statuses) (ct : Contents α size) (mm : MemMode)
    (am : AccessMode) (iterations : Nat) : Stmt (Result α size) (State α size) :=
  seq [
    setErr (st.create .dmem), returnOnError,
    if mm = .pinned then seq [
      setErr (st.create .pinnedHmem), returnOnError,
      setErr (st.setupMap 0), returnOnError,
      copy .pinnedHmem .data,
      setErr (st.setupMap 1), returnOnError] else skip,
    loop (fun i =>
      if am = .direct then
        seq [setErr (st.timed i), returnOnError, fill .dmem (ct.left i)]
      else
        -- map, `memcpy` and unmap
        seq [setErr (st.timed i), returnOnError, fill .dmem (ct.left i)]) iterations,
    check .dmem]

def measureDeviceToHost [DecidableEq α] (st : Statuses) (ct : Contents α size) (mm : MemMode)
    (am : AccessMode) (iterations : Nat) : Stmt (Result α size) (State α size) :=
  seq [
    setErr (st.create .dmem), returnOnError,
    setErr st.setupWrite, setupWrite st ct .dmem,
    if mm = .pinned then seq [
      setErr (st.create .pinnedHmem), returnOnError,
      setErr (st.setupMap 0), returnOnError] else skip,
    loop (fun i =>
      if am = .direct then
        seq [setErr (st.timed i), returnOnError, fill (transferData mm) (ct.left i)]
      else
        -- a failed map goes round again
        seq [setErr (st.timed i), if st.timed i ≠ CL_SUCCESS then skip else fill .data (ct.left i)])
      iterations,
    check .dmem]

def measureDeviceToDevice [DecidableEq α] (st : Statuses) (ct : Contents α size) (_mm : MemMode)
    (_am : AccessMode) (iterations : Nat) : Stmt (Result α size) (State α size) :=
  seq [
    setErr (st.create .dmemSrc), returnOnError,
    setErr (st.create .dmemDst), returnOnError,
    setErr st.setupWrite, setupWrite st ct .dmemSrc, returnOnError,
    loop (fun i => seq [setErr (st.timed i), fill .dmemDst (ct.left i)]) iterations,
    check .dmemDst,
    setErr (st.release .dmemSrc),
    fun s => .ok { s with err := s.err ||| st.release .dmemDst }]

/-- The three directions. -/
inductive Direction where
  | hostToDevice
  | deviceToHost
  | deviceToDevice
  deriving DecidableEq, Repr

def Direction.measure [DecidableEq α] (d : Direction) (st : Statuses) (ct : Contents α size)
    (mm : MemMode) (am : AccessMode) (iterations : Nat) (data : Fin size → α) : Result α size :=
  finish ((match d with
    | .hostToDevice => measureHostToDevice st ct mm am iterations
    | .deviceToHost => measureDeviceToHost st ct mm am iterations
    | .deviceToDevice => measureDeviceToDevice st ct mm am iterations) (entry ct data))

end

/-! ## rules -/

section
variable {α : Type _} {size : Nat} {P Q : (Buf → Fin size → α) → Prop} {R : Result α size → Prop}
  {Q' : State α size → Prop} {cs : List (Stmt (Result α size) (State α size))} {e e' : Status}

/-- `err` is `e` and the arrays satisfy `P`. -/
def At (e : Status) (P : (Buf → Fin size → α) → Prop) (s : State α size) : Prop :=
  s.err = e ∧ P s.mem

theorem triple_setErr : Triple (At e P) (setErr e') (At e' P) R := fun _ hs => ⟨rfl, hs.2⟩

/-- A call whose failure is returned at once. -/
theorem triple_call (hfail : e' ≠ CL_SUCCESS → ∀ mem, R (.returned e' mem))
    (hok : e' = CL_SUCCESS → Triple (At CL_SUCCESS P) (seq cs) Q' R) :
    Triple (At e P) (seq (setErr e' :: returnOnError :: cs)) Q' R := by
  refine Triple.seq_cons triple_setErr ?_
  rintro s ⟨rfl, hs⟩
  by_cases herr : s.err = CL_SUCCESS
  · have hreturn : returnOnError s = .ok s := by simp [returnOnError, herr]
    rw [seq_cons_ok hreturn]
    exact hok herr s ⟨herr, hs⟩
  · have hreturn : returnOnError s = .error (.returned s.err s.mem) := by
      simp [returnOnError, herr]
    rw [seq_cons_error hreturn]
    exact hfail herr s.mem

theorem triple_fill {b : Buf} {x : Fin size → α} (h : ∀ mem, P mem → Q (update mem b x)) :
    Triple (At e P) (fill b x) (At e Q) R := fun _ hs => ⟨hs.1, h _ hs.2⟩

theorem triple_copy {dst src : Buf} (h : ∀ mem, P mem → Q (update mem dst (mem src))) :
    Triple (At e P) (copy dst src) (At e Q) R := fun _ hs => ⟨hs.1, h _ hs.2⟩

/-- The set-up write leaves the other arrays alone. -/
theorem triple_setupWrite {st : Statuses} {ct : Contents α size} {dst : Buf}
    (hok : st.setupWrite = CL_SUCCESS → ∀ mem, P mem → Q (update mem dst (mem .data)))
    (hfail : st.setupWrite ≠ CL_SUCCESS → ∀ mem, P mem → Q (update mem dst ct.unwritten)) :
    Triple (At e P) (setupWrite st ct dst) (At e Q) R :=
  Triple.ite (fun h => triple_copy (hok h)) (fun h => triple_fill (hfail h))

/-- The check goes on when what it reads back is `data`, and exits otherwise. -/
theorem triple_check [DecidableEq α] {src : Buf}
    (h : ∀ mem, P mem → mem src = mem .data → Q (update mem .checkData (mem src)))
    (hexit : ∀ mem, P mem → mem src ≠ mem .data → R .exited) :
    Triple (At e P) (check src) (At e Q) R := by
  rintro ⟨err, mem⟩ ⟨rfl, hP⟩
  simp only [check, seq, copy, update_self, ne_eq, reduceCtorEq, not_false_eq_true, update_of_ne]
  by_cases heq : mem src = mem .data
  · simp only [heq, not_true_eq_false, exists_false, if_false]
    exact ⟨rfl, heq ▸ h mem hP heq⟩
  · have hne : ∃ i, ¬ mem src i = mem .data i := Function.ne_iff.mp heq
    simp only [if_pos hne]
    exact hexit mem hP heq

end

end UclBench.BufferBandwidth
