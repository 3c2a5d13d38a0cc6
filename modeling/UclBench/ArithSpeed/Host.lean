import UclBench.ArithSpeed.KernelRun

/-!
# UclBench.ArithSpeed.Host

The host side of the arithmetic benchmark (`run_benchmark` in
`arith_speed.cpp`): the input array it prepares, the kernel arguments, and the
replay of its consistency check.

The host computes with the same operations and literals as the device; the
functions of the C library are `fn1` and `fn2` under their own names.
-/

namespace UclBench.ArithSpeed

open OpenCL Buffer

/-! ## the input array -/

/-- Clear the two operands of one lane, then set those the function uses. -/
def prepareLane (ar : Arith T) (fct : Function) (vec : Nat) (data : Buffer T) (i : Nat) : Buffer T :=
  let data := (data.set i (ar.lit "0.0".toList)).set (i + vec) (ar.lit "0.0".toList)
  match fct with
  | .add | .sub => (data.set i (ar.lit "1.0".toList)).set (i + vec) (ar.lit "1.0".toList)
  | .mul | .div | .madMul | .vec | .vliw =>
      (data.set i (ar.lit "1.00000001".toList)).set (i + vec) (ar.lit "0.99999999".toList)
  | .mad => (data.set i (ar.lit "1.0".toList)).set (i + vec) (ar.lit "1.0".toList)
  | .tan => data.set i (ar.lit "0.001".toList)
  | _ => data.set i (ar.lit "1.0".toList)

/-- `data`, as transferred to the device. -/
def prepareData (ar : Arith T) (fct : Function) (vec : Nat) : Buffer T :=
  (List.range vec).foldl (prepareLane ar fct vec) (alloc T (2 * vec))

/-- The values of the two operands, in every lane. -/
def firstOperand (ar : Arith T) : Function → T
  | .mul | .div | .madMul | .vec | .vliw => ar.lit "1.00000001".toList
  | .tan => ar.lit "0.001".toList
  | _ => ar.lit "1.0".toList

def secondOperand (ar : Arith T) : Function → T
  | .add | .sub | .mad => ar.lit "1.0".toList
  | .mul | .div | .madMul | .vec | .vliw => ar.lit "0.99999999".toList
  | _ => ar.lit "0.0".toList

def operand (ar : Arith T) (fct : Function) (vec k : Nat) : T :=
  if k < vec then firstOperand ar fct else secondOperand ar fct

/-- What one pass of the preparation loop leaves in the array. -/
theorem prepareLane_eq (ar : Arith T) (fct : Function) (vec : Nat) (data : Buffer T) {i : Nat}
    (hi : i < vec) : prepareLane ar fct vec data i =
      (data.set i (firstOperand ar fct)).set (i + vec) (secondOperand ar fct) := by
  have hne : i + vec ≠ i := by omega
  have hover (x y x' y' : T) : (((data.set i x).set (i + vec) y).set i x').set (i + vec) y' =
      (data.set i x').set (i + vec) y' := by
    rw [set_comm _ hne, set_set, set_comm _ hne.symm, set_set]
  have hfirst (x y x' : T) : ((data.set i x).set (i + vec) y).set i x' =
      (data.set i x').set (i + vec) y := by
    rw [set_comm _ hne.symm, set_set]
  cases fct <;> first | exact hover _ _ _ _ | exact hfirst _ _ _

/-- The invariant of the preparation loop: the lanes below `k` are set. -/
theorem prepareLanes (ar : Arith T) (fct : Function) {vec k : Nat} (hk : k ≤ vec) :
    ((List.range k).foldl (prepareLane ar fct vec) (alloc T (2 * vec))).size = 2 * vec ∧
      ∀ j < k, ((List.range k).foldl (prepareLane ar fct vec) (alloc T (2 * vec))).cell j =
          some (firstOperand ar fct) ∧
        ((List.range k).foldl (prepareLane ar fct vec) (alloc T (2 * vec))).cell (j + vec) =
          some (secondOperand ar fct) := by
  induction k with
  | zero => exact ⟨rfl, fun j hj => absurd hj (Nat.not_lt_zero j)⟩
  | succ k ih =>
      obtain ⟨hsize, hcells⟩ := ih (by omega)
      rw [List.range_succ, List.foldl_append, List.foldl_cons, List.foldl_nil,
        prepareLane_eq ar fct vec _ hk]
      generalize (List.range k).foldl (prepareLane ar fct vec) (alloc T (2 * vec)) = data
        at hsize hcells
      refine ⟨hsize, fun j hj => ?_⟩
      by_cases hjk : j = k
      · subst hjk
        rw [cell_set_of_ne _ (by omega), cell_set_self _ (by omega),
          cell_set_self _ (by rw [size_set]; omega)]
        exact ⟨rfl, rfl⟩
      · rw [cell_set_of_ne _ (by omega), cell_set_of_ne _ hjk, cell_set_of_ne _ (by omega),
          cell_set_of_ne _ (by omega)]
        exact hcells j (by omega)

theorem size_prepareData (ar : Arith T) (fct : Function) (vec : Nat) :
    (prepareData ar fct vec).size = 2 * vec :=
  (prepareLanes ar fct le_rfl).1

theorem cell_prepareData (ar : Arith T) (fct : Function) {vec k : Nat} (hk : k < 2 * vec) :
    (prepareData ar fct vec).cell k = some (operand ar fct vec k) := by
  obtain ⟨-, hcells⟩ := prepareLanes ar fct (le_refl vec)
  unfold operand
  split
  · next hlt => exact (hcells k hlt).1
  · next hge =>
      obtain ⟨j, rfl⟩ := Nat.exists_eq_add_of_le' (Nat.not_lt.mp hge)
      exact (hcells j (by omega)).2

/-! ## the replay -/

/-- `ARITH_OPERATIONS` and `TRANS_OPERATIONS`, selected as `trans` does. -/
def Function.unrollFactor : Function → Nat
  | .add | .mul | .sub | .div | .mad | .madMul | .vec | .vliw => 100
  | _ => 10

/-- The variables of the replay, and the number of operations replayed. -/
structure Replay (T : Type _) where
  a : T
  b : T
  c : T
  d : T
  steps : Nat

/-- One operation that assigns only `a`. -/
def Replay.assignA (r : Replay T) (x : T) : Replay T := { r with a := x, steps := r.steps + 1 }

/-- `tmp = x; a = b; b = tmp;` -/
def Replay.shift (r : Replay T) (x : T) : Replay T :=
  { r with a := r.b, b := x, steps := r.steps + 1 }

/-- The body of the replay loop, for every function but `_VLIW`. -/
def replayStep (ar : Arith T) (fct : Function) (r : Replay T) : Replay T :=
  match fct with
  | .add => r.shift (ar.op .add r.a r.b)
  | .mul => r.shift (ar.op .mul r.a r.b)
  | .sub => r.shift (ar.op .sub r.a r.b)
  | .div => r.shift (ar.op .div r.a r.b)
  | .mad => r.shift (ar.op .add (ar.op .mul r.a r.b) (ar.lit "0.1".toList))
  | .madMul =>
      let tmp := ar.op .add (ar.op .mul r.a r.b) (ar.lit "0.1".toList)
      -- `tmp2 = c * d` is computed, but `d = tmp` follows
      { a := r.b, b := tmp, c := r.d, d := tmp, steps := r.steps + 1 }
  | .vec => r.assignA (ar.op .sub r.a r.b)
  | .vliw => r
  | .exp => r.assignA (ar.fn1 "expf".toList r.a)
  | .log => r.assignA (ar.fn1 "logf".toList r.a)
  | .sqr => r.assignA (ar.fn2 "powf".toList r.a (ar.lit "2.0f".toList))
  | .sqrt => r.assignA (ar.fn1 "sqrtf".toList r.a)
  | .cos => r.assignA (ar.fn1 "cosf".toList r.a)
  | .sin => r.assignA (ar.fn1 "sinf".toList r.a)
  | .tan => r.assignA (ar.fn1 "tanf".toList r.a)

/-- The operation `_VLIW` replays at position `i` of an unrolled block, from
`ops = vec % 3`. -/
def vliwReplayOp (ops i : Nat) : Op :=
  match ops with
  | 1 => if i % 3 = 0 then .add else if i % 3 = 1 then .mul else .sub
  | 2 => if i % 3 = 0 then .add else if i % 3 = 1 then .sub else .mul
  | _ => .add

/-- `for (cl_ulong i = 0; i < ARITH_OPERATIONS; i++) …` -/
def vliwReplayBlock (ar : Arith T) (vec : Nat) (r : Replay T) : Replay T :=
  (List.range 100).foldl (fun r i => r.assignA (ar.op (vliwReplayOp (vec % 3) i) r.a r.b)) r

/-- The consistency check up to its comparison: the replay of `size`
operations on the first lane. -/
def replay (ar : Arith T) (fct : Function) (vec size : Nat) (data : Buffer T) :
    Except Fault (Replay T) := do
  let a ← data.read 0
  let b ← data.read vec
  let r : Replay T := ⟨a, b, b, a, 0⟩
  match fct with
  | .vliw => .ok ((vliwReplayBlock ar vec)^[size / fct.unrollFactor] r)
  | fct => .ok ((replayStep ar fct)^[size] r)

/-! ## the kernel run -/

/-- `clSetKernelArg(kernel, 2, sizeof(cl_uint), &_size)` -/
def iterationsArg (fct : Function) (size : Nat) : Nat := size / fct.unrollFactor % 2 ^ 32

/-- Execute the kernel as work item `gid` of `global`, with the buffers and
arguments `run_benchmark` sets. -/
def runBenchmark (ar : Arith T) (elem : ElemType) (fct : Function) (ftype : FunctionType)
    (vec localSize global size gid : Nat) (fuel : Nat) : Except Fault (WorkItem T) :=
  match genKernel elem fct ftype vec localSize fct.unrollFactor with
  | .error _ => .error .illFormed
  | .ok source =>
      runItem ar elem.scalar fuel source [.buffer (prepareData ar fct vec),
        .buffer (alloc T (global * vec)), .uint (iterationsArg fct size)] gid

theorem index_lt {vec gid global j : Nat} (hgid : gid < global) (hj : j < vec) :
    vec * gid + j < global * vec := by
  have hrow : vec * (gid + 1) ≤ vec * global := Nat.mul_le_mul_left vec hgid
  rw [Nat.mul_comm global]
  rw [Nat.mul_add_one] at hrow
  omega

/-- **The kernel run**: every work item of the launch terminates without a
fault, so it reads inside the `2 * vec` cells of its input, whatever the
operation count. -/
theorem runBenchmark_ok (ar : Arith T) {elem : ElemType} {fct : Function} {vec : Nat}
    (hsup : Supported elem fct vec) (hvec : 1 ≤ vec) (ftype : FunctionType)
    (localSize size : Nat) {gid global : Nat} (hgid : gid < global) (hsize : global * vec < 2 ^ 31) :
    ∃ w, (∀ fuel, iterationsArg fct size < fuel →
        runBenchmark ar elem fct ftype vec localSize global size gid fuel = .ok w) ∧
      w.writes = laneWrites vec gid (fun j => laneResult ar (functionToCode ftype fct).ntemps
        (finalLane ar fct ftype (operand ar fct vec) vec fct.unrollFactor (iterationsArg fct size) j)) ∧
      ∀ j < vec, w.assigned (accName fct j) = iterationsArg fct size * fct.unrollFactor := by
  have hlast := index_lt hgid (Nat.sub_one_lt_of_lt hvec)
  have hsmall : vec ≤ global * vec := Nat.le_mul_of_pos_left vec (by omega)
  have hiter : iterationsArg fct size < 2 ^ 32 := Nat.mod_lt _ (by decide)
  have hout : vec * gid + vec ≤ (alloc T (global * vec)).size := by
    rw [size_alloc]
    omega
  obtain ⟨w, hrun, hwrites, hassigned⟩ := runItem_kernelText ar hsup hvec ftype localSize
    fct.unrollFactor (iterationsArg fct size) gid
    (fun k hk => cell_prepareData ar fct hk) (by omega) hout (by rw [size_alloc]; omega) hiter
    (Nat.lt_succ_self _)
  refine ⟨w, fun fuel hfuel => ?_, hwrites, hassigned⟩
  unfold runBenchmark
  rw [genKernel_text hsup]
  exact runItem_mono hrun hfuel

end UclBench.ArithSpeed
