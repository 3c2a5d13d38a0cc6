import UclBench.MemLatency.Ring

/-!
# UclBench.MemLatency.Kernel

The three `latencyCnt` kernels (`global_latency.cl`, `constant_latency.cl`,
`local_latency.cl`).  Each traverses its array in blocks of 128 dependent
loads written out one after the other, tests for the end of the ring once per
block, and does so `iterations` times; the local kernel first copies the array
to `shared` with a 32-fold unrolled loop.

The run carries the number of dependent loads beside the kernel's own
variables.  Over a ring whose size is a multiple of 128 the end of the ring is
always met at the end of a block, so one iteration is one round
(`traverse_block_ring`) and a kernel run is `iterations` rounds
(`traverse_ring`).
-/

namespace UclBench.MemLatency

open Buffer

/-- The private variables `next` and `res` of a traversal, and the number of
dependent loads so far. -/
structure Chase where
  next : Nat
  res : Nat
  loads : Nat
  deriving DecidableEq, Repr

/-- `next = input[next];` -/
def load (input : Buffer Nat) (c : Chase) : Except Fault Chase :=
  match input.read c.next with
  | .error e => .error e
  | .ok next => .ok { c with next := next, loads := c.loads + 1 }

/-- `do { next = input[next]; … res += next; } while (next);`, one block. -/
def blockPass (input : Buffer Nat) (c : Chase) : Except Fault (Pass Chase Chase) :=
  match unroll (load input) requiredIterationDivisor c with
  | .error e => .error e
  | .ok c =>
      let c := { c with res := (c.res + c.next) % 2 ^ 32 }
      .ok (if c.next = 0 then .leave c else .again c)

/-- The traversal all three kernels share; the type and the arithmetic of the
outer counter are those of the kernel. -/
def traverse (test : ι → Bool) (succ : ι → ι) (zero : ι) (fuel : Nat) (input : Buffer Nat) :
    Except Fault Chase :=
  forLoop test succ (fun _ => runLoop (blockPass input) fuel) fuel zero ⟨0, 0, 0⟩

/-- `global_latency.cl`: the counter is a `uint`. -/
def latencyCntGlobal (fuel : Nat) (input : Buffer Nat) (iterations : Nat) : Except Fault Chase :=
  traverse (fun i : Nat => decide (i < iterations)) (fun i => (i + 1) % 2 ^ 32) 0 fuel input

/-- `constant_latency.cl`: the text of the global kernel with a `__constant`
array. -/
def latencyCntConstant (fuel : Nat) (input : Buffer Nat) (iterations : Nat) : Except Fault Chase :=
  traverse (fun i : Nat => decide (i < iterations)) (fun i => (i + 1) % 2 ^ 32) 0 fuel input

/-- `shared[i] = input[i]; ++i;` -/
def copyStep (input : Buffer Nat) (s : Nat × Buffer Nat) : Except Fault (Nat × Buffer Nat) := do
  let v ← input.read s.1
  let shared ← s.2.write s.1 v
  return (s.1 + 1, shared)

/-- One pass of the 32-fold unrolled copy loop. -/
def copyPass (size : Nat) (input : Buffer Nat) (s : Nat × Buffer Nat) :
    Except Fault (Pass (Nat × Buffer Nat) (Buffer Nat)) :=
  if s.1 < size then do
    let s ← unroll (copyStep input) 32 s
    return .again s
  else return .leave s.2

/-- `local_latency.cl` with `SIZE` defined as `size`: the outer counter is an
`int`, converted to `uint` for the comparison with `iterations`. -/
def latencyCntLocal (fuel size : Nat) (input : Buffer Nat) (iterations : Nat) :
    Except Fault Chase := do
  let shared ← runLoop (copyPass size input) fuel (0, alloc Nat size)
  traverse (fun i : Int => decide ((i % 2 ^ 32).toNat < iterations))
    (fun i => Int.bmod (i + 1) (2 ^ 32)) 0 fuel shared

/-- `clSetKernelArg(kernel, 2, sizeof(cl_uint), &iterations)`: the kernel sees
the low 32 bits of the host's `unsigned long`. -/
def iterationsArg (iterations : Nat) : Nat := iterations % 2 ^ 32

/-! ## one iteration is one round -/

theorem load_ring {input : Buffer Nat} (hring : input.Ring) (k r l : Nat) :
    load input ⟨input.next^[k] 0, r, l⟩ = .ok ⟨input.next^[k + 1] 0, r, l + 1⟩ := by
  have hread := hring.read_next (hring.cycle.inBounds k)
  rw [← Function.iterate_succ_apply' input.next k 0] at hread
  simp only [load, hread]

/-- A block moves 128 links along the ring and adds the sample at its end. -/
theorem blockPass_ring {input : Buffer Nat} (hring : input.Ring) (k r l : Nat) :
    blockPass input ⟨input.next^[128 * k] 0, r, l⟩ =
      .ok (let c := ⟨input.next^[128 * (k + 1)] 0, (r + input.next^[128 * (k + 1)] 0) % 2 ^ 32,
          l + 128⟩
        if c.next = 0 then .leave c else .again c) := by
  have hloads := unroll_of_steps (load input)
    (fun j => ⟨input.next^[128 * k + j] 0, r, l + j⟩) 128
    (fun j _ => load_ring hring (128 * k + j) r (l + j))
  simp only [Nat.add_zero] at hloads
  simp only [blockPass, requiredIterationDivisor, hloads]
  rfl

/-- The state `k` blocks into a round that was entered with result `r` and
`l` loads done. -/
def chaseAt (input : Buffer Nat) (r l k : Nat) : Chase :=
  ⟨input.next^[128 * k] 0, (r + sampleSum input.next 128 k) % 2 ^ 32, l + 128 * k⟩

theorem blockPass_chaseAt {input : Buffer Nat} (hring : input.Ring) (r l k : Nat) :
    blockPass input (chaseAt input r l k) =
      .ok (if input.next^[128 * (k + 1)] 0 = 0 then .leave (chaseAt input r l (k + 1))
        else .again (chaseAt input r l (k + 1))) := by
  simp only [chaseAt, blockPass_ring hring, sampleSum_succ, Nat.mod_add_mod, Nat.mul_succ,
    Nat.add_assoc]

/-- **One iteration** of a kernel over a ring goes round exactly once. -/
theorem traverse_block_ring {input : Buffer Nat} (hring : input.Ring) (hdvd : 128 ∣ input.size)
    (hfuel : input.size ≤ fuel) (r l : Nat) :
    runLoop (blockPass input) fuel ⟨0, r % 2 ^ 32, l⟩ =
      .ok ⟨0, (r + sampleSum input.next 128 (input.size / 128)) % 2 ^ 32, l + input.size⟩ := by
  have hpos := hring.cycle.pos
  obtain ⟨m, hm⟩ := hdvd
  have hend : input.next^[128 * m] 0 = 0 := by rw [← hm]; exact hring.cycle.iterate_length
  have hloop := runLoop_of_passes (blockPass input) fuel
    (chaseAt input r l) (m - 1) (r := chaseAt input r l m)
    (fun k hk => by
      rw [blockPass_chaseAt hring, if_neg (hring.cycle.iterate_ne_zero (by omega) (by omega))])
    (by rw [blockPass_chaseAt hring, show m - 1 + 1 = m by omega, if_pos hend])
    (by omega)
  have hstart : chaseAt input r l 0 = ⟨0, r % 2 ^ 32, l⟩ := by simp [chaseAt]
  have hstop : chaseAt input r l m =
      ⟨0, (r + sampleSum input.next 128 (input.size / 128)) % 2 ^ 32, l + input.size⟩ := by
    rw [chaseAt, hend, ← hm, show input.size / 128 = m by omega]
  rwa [hstart, hstop] at hloop

/-- **A traversal** whose counter lets `n` iterations through goes round `n`
times. -/
theorem traverse_ring {input : Buffer Nat} {test : ι → Bool} {succ : ι → ι} (hring : input.Ring)
    (hdvd : 128 ∣ input.size) (c : Nat → ι) (n : Nat) (hsucc : ∀ k < n, succ (c k) = c (k + 1))
    (htest : ∀ k < n, test (c k) = true) (hexit : test (c n) = false)
    (hfuel : input.size + n < fuel) :
    traverse test succ (c 0) fuel input =
      .ok ⟨0, n * sampleSum input.next 128 (input.size / 128) % 2 ^ 32, n * input.size⟩ := by
  have hloop := forLoop_of_steps (fun _ => runLoop (blockPass input) fuel) c
    (fun k => (⟨0, k * sampleSum input.next 128 (input.size / 128) % 2 ^ 32, k * input.size⟩ : Chase))
    n hsucc
    (fun k _ => by
      rw [traverse_block_ring hring hdvd (by omega), Nat.succ_mul, Nat.succ_mul])
    htest hexit (by omega : n < fuel)
  simpa [traverse] using hloop

/-! ## the copy to local memory -/

/-- The first `j` cells of `input`, in storage of the same size. -/
def copied (input : Buffer Nat) (j : Nat) : Buffer Nat where
  size := input.size
  cell i := if i < j then input.cell i else none
  outside i hi := by
    split
    · exact input.outside i hi
    · rfl

theorem copyStep_copied {input : Buffer Nat} (hassigned : input.Assigned) (hj : j < input.size) :
    copyStep input (j, copied input j) = .ok (j + 1, copied input (j + 1)) := by
  obtain ⟨v, hv⟩ := hassigned j hj
  have hset : (copied input j).set j v = copied input (j + 1) := by
    refine ext_cells rfl fun i _ => ?_
    by_cases hij : i = j
    · subst hij
      rw [cell_set_self (b := copied input i) v hj]
      simp [copied, hv]
    · rw [cell_set_of_ne v hij]
      simp only [copied, show (i < j + 1 ↔ i < j) by omega]
  have hwrite : (copied input j).write j v = .ok ((copied input j).set j v) := write_of_lt v hj
  simp only [copyStep, read_of_cell hv]
  change ((copied input j).write j v >>= fun shared => Except.ok (j + 1, shared)) = _
  rw [hwrite, hset]
  rfl

/-- The copy loop reproduces an assigned array whose size is a multiple of
32. -/
theorem copyPass_copies {input : Buffer Nat} (hassigned : input.Assigned) (hdvd : 32 ∣ input.size)
    (hfuel : input.size < fuel) :
    runLoop (copyPass input.size input) fuel (0, alloc Nat input.size) = .ok input := by
  obtain ⟨m, hm⟩ := hdvd
  have hempty : copied input 0 = alloc Nat input.size :=
    ext_cells rfl fun i _ => by simp [copied, alloc]
  have hfull : copied input (32 * m) = input := by
    refine ext_cells rfl fun i hi => ?_
    have hi : i < input.size := hi
    simp only [copied, if_pos (show i < 32 * m by omega)]
  have hloop := runLoop_of_passes (copyPass input.size input) fuel
    (fun k => (32 * k, copied input (32 * k))) m (r := input)
    (fun k hk => by
      have hunroll := unroll_of_steps (copyStep input)
        (fun j => (32 * k + j, copied input (32 * k + j))) 32
        (fun j hj => copyStep_copied hassigned (by omega))
      simp only [Nat.add_zero] at hunroll
      simp only [copyPass, if_pos (show 32 * k < input.size by omega), hunroll]
      rfl)
    (by
      simp only [copyPass, if_neg (show ¬ 32 * m < input.size by omega), hfull]
      rfl)
    (by omega)
  rwa [Nat.mul_zero, hempty] at hloop

/-! ## the kernels over a ring -/

/-- What a kernel run over a ring ends with: back at the start, `iterations`
rounds of samples, `iterations` rounds of loads. -/
def roundsResult (input : Buffer Nat) (iterations : Nat) : Chase :=
  ⟨0, iterations * sampleSum input.next 128 (input.size / 128) % 2 ^ 32, iterations * input.size⟩

theorem latencyCntGlobal_ring {input : Buffer Nat} (hring : input.Ring) (hdvd : 128 ∣ input.size)
    (hit : iterations < 2 ^ 32) (hfuel : input.size + iterations < fuel) :
    latencyCntGlobal fuel input iterations = .ok (roundsResult input iterations) :=
  traverse_ring hring hdvd (fun k => k) iterations (fun _ _ => Nat.mod_eq_of_lt (by omega))
    (fun _ hk => decide_eq_true hk) (decide_eq_false (Nat.lt_irrefl _)) hfuel

theorem latencyCntConstant_ring {input : Buffer Nat} (hring : input.Ring)
    (hdvd : 128 ∣ input.size) (hit : iterations < 2 ^ 32)
    (hfuel : input.size + iterations < fuel) :
    latencyCntConstant fuel input iterations = .ok (roundsResult input iterations) :=
  latencyCntGlobal_ring hring hdvd hit hfuel

theorem latencyCntLocal_ring {input : Buffer Nat} (hring : input.Ring) (hdvd : 128 ∣ input.size)
    (hit : iterations < 2 ^ 31) (hfuel : input.size + iterations < fuel) :
    latencyCntLocal fuel input.size input iterations = .ok (roundsResult input iterations) := by
  have hcopy : runLoop (copyPass input.size input) fuel (0, alloc Nat input.size) = .ok input :=
    copyPass_copies hring.assigned (Nat.dvd_trans (by decide) hdvd) (by omega)
  -- an `int` counter below `2 ^ 31` never wraps and converts to itself
  have hcount (k : Nat) (hk : k < 2 ^ 31) : (((k : Int) % 2 ^ 32).toNat) = k := by omega
  have hrun : traverse (fun i : Int => decide ((i % 2 ^ 32).toNat < iterations))
      (fun i => Int.bmod (i + 1) (2 ^ 32)) ((0 : Nat) : Int) fuel input = _ :=
    traverse_ring hring hdvd (fun k => (k : Int)) iterations
    (fun k hk => by rw [Int.bmod_eq_of_le (by omega) (by omega)]; push_cast; rfl)
    (fun k hk => decide_eq_true (by rw [hcount k (by omega)]; exact hk))
    (decide_eq_false (by rw [hcount iterations hit]; exact Nat.lt_irrefl _)) hfuel
  simp only [latencyCntLocal, hcopy]
  exact hrun

end UclBench.MemLatency
