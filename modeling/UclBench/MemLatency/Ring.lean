import UclBench.Cycle
import Mathlib.Data.Nat.ModEq
import Mathlib.Data.Nat.Prime.Basic

/-!
# UclBench.MemLatency.Ring

The pointer ring of `run_latency_benchmark` (`mem_latency.cpp`): the code that
fills `data` for a layout, and the host walk that checks the layout and
computes the expected result.  All quantities are `cl_uint`, so additions are
taken modulo `2 ^ 32`.

The sequential layout links `i` to `i + 1`.  The cache-step layout starts at
`1`, jumps by 128 and wraps modulo `num_elems - 1`, which is coprime to the
step because `num_elems` is a multiple of 128; the fill loop therefore passes
through `cacheStepPath` and closes it after `num_elems` links
(`fillRing_cacheStep`).  With exactly 128 elements the modulus is one below
the step: the loop meets index `0` early and never assigns the last cell
(`fillRing_cacheStep_128`).
-/

namespace UclBench.MemLatency

open Buffer

/-- `CACHE_STEP_WIDTH` -/
def cacheStepWidth : Nat := 128

/-- `REQUIRED_ITERATION_DIVISOR` -/
def requiredIterationDivisor : Nat := 128

/-- `enum _DATA_LAYOUT` -/
inductive DataLayout where
  | sequential
  | cacheStep
  deriving DecidableEq, Repr

/-! ## filling the data buffer -/

/-- One pass of the `while(true)` loop of the cache-step layout, over the
buffer and `index`. -/
def cacheStepPass (numElems : Nat) (s : Buffer Nat × Nat) :
    Except Fault (Pass (Buffer Nat × Nat) (Buffer Nat)) :=
  let newindex := (s.2 + cacheStepWidth) % 2 ^ 32
  if newindex = numElems then do
    let data ← s.1.write s.2 0
    return .leave data
  else do
    let newindex := if newindex > numElems then newindex % (numElems - 1) else newindex
    let data ← s.1.write s.2 newindex
    return .again (data, newindex)

/-- "prepare data buffer according to layout": the `switch(layout)` of
`run_latency_benchmark`. -/
def fillRing (fuel : Nat) (layout : DataLayout) (numElems : Nat) : Except Fault (Buffer Nat) :=
  let data := alloc Nat numElems
  match layout with
  | .cacheStep => do
      let data ← data.write 0 1
      runLoop (cacheStepPass numElems) fuel (data, 1)
  | .sequential => do
      let data ← forLoop (fun i => decide (i < numElems)) (fun i => (i + 1) % 2 ^ 32)
        (fun i data => data.write i ((i + 1) % 2 ^ 32)) fuel 0 data
      data.write (numElems - 1) 0

/-! ## the host walk -/

/-- The locals of the checking loop. -/
structure Walk where
  next : Nat
  opcount : Nat
  expectedResult : Nat
  deriving DecidableEq, Repr

/-- One pass of `while(next)`. -/
def walkPass (data : Buffer Nat) (w : Walk) : Except Fault (Pass Walk Walk) :=
  if w.next = 0 then .ok (.leave w)
  else do
    let next ← data.read w.next
    let opcount := (w.opcount + 1) % 2 ^ 32
    let expectedResult :=
      if opcount % requiredIterationDivisor = 0 then (w.expectedResult + next) % 2 ^ 32
      else w.expectedResult
    return .again ⟨next, opcount, expectedResult⟩

/-- "check data layout and calculate expected result", up to the end of the
loop. -/
def walkRing (fuel : Nat) (data : Buffer Nat) : Except Fault Walk := do
  let next ← data.read 0
  runLoop (walkPass data) fuel ⟨next, 1, 0⟩

/-- `expected_result *= iterations`: a `cl_uint` times an `unsigned long`. -/
def Walk.scaled (w : Walk) (iterations : Nat) : Nat := w.expectedResult * iterations % 2 ^ 64 % 2 ^ 32

/-! ## the paths the fill code follows -/

/-- The indices in the order the sequential layout visits them. -/
def sequentialPath (n k : Nat) : Nat := if k = n then 0 else k

/-- The indices in the order the cache-step layout visits them. -/
def cacheStepPath (n k : Nat) : Nat :=
  if k = 0 ∨ k = n then 0 else cacheStepWidth * (k - 1) % (n - 1) + 1

theorem cacheStepPath_succ {n k : Nat} (hk : k + 1 < n) :
    cacheStepPath n (k + 1) = 128 * k % (n - 1) + 1 := by
  rw [cacheStepPath, if_neg (by omega), Nat.add_sub_cancel, cacheStepWidth]

@[simp] theorem cacheStepPath_zero (n : Nat) : cacheStepPath n 0 = 0 := if_pos (.inl rfl)

@[simp] theorem cacheStepPath_length (n : Nat) : cacheStepPath n n = 0 := if_pos (.inr rfl)

/-- The step of 128 generates the residues of `n - 1`. -/
theorem coprime_step (hdvd : 128 ∣ n) (hpos : 0 < n) : Nat.Coprime 128 (n - 1) := by
  have hodd : Nat.Coprime 2 (n - 1) := by
    rw [Nat.coprime_two_left]
    exact Nat.odd_iff.mpr (by omega)
  exact hodd.pow_left 7

/-- Multiples of the step below one round have distinct residues. -/
theorem step_mod_injective (hdvd : 128 ∣ n) (hpos : 0 < n) {i j : Nat} (hi : i < n - 1)
    (hj : j < n - 1) (h : 128 * i % (n - 1) = 128 * j % (n - 1)) : i = j := by
  have hmod : i ≡ j [MOD n - 1] :=
    Nat.ModEq.cancel_left_of_coprime (Nat.coprime_comm.mp (coprime_step hdvd hpos)) h
  rwa [Nat.ModEq, Nat.mod_eq_of_lt hi, Nat.mod_eq_of_lt hj] at hmod

/-- One jump of the step inside `[0, m)`: the residue moves up by 128, or
wraps once. -/
theorem step_mod_succ {m : Nat} (k : Nat) (hm : 128 ≤ m) :
    128 * (k + 1) % m =
      if 128 * k % m + 128 < m then 128 * k % m + 128 else 128 * k % m + 128 - m := by
  have hr : 128 * k % m < m := Nat.mod_lt _ (by omega)
  have hadd : 128 * (k + 1) % m = (128 * k % m + 128) % m := by
    rw [Nat.mul_succ, Nat.mod_add_mod]
  rw [hadd]
  split
  · exact Nat.mod_eq_of_lt ‹_›
  · rw [Nat.mod_eq_sub_mod (by omega), Nat.mod_eq_of_lt (by omega)]

theorem cacheStepPath_lt {n k : Nat} (hpos : 1 < n) (hk : k < n) : cacheStepPath n k < n := by
  cases k with
  | zero => rw [cacheStepPath_zero]; omega
  | succ k =>
      have : 128 * k % (n - 1) < n - 1 := Nat.mod_lt _ (by omega)
      rw [cacheStepPath_succ hk]
      omega

theorem cacheStepPath_injOn (hdvd : 128 ∣ n) (hpos : 0 < n) :
    Set.InjOn (cacheStepPath n) (Set.Iio n) := by
  intro i hi j hj h
  rw [Set.mem_Iio] at hi hj
  cases i with
  | zero =>
      cases j with
      | zero => rfl
      | succ j => rw [cacheStepPath_zero, cacheStepPath_succ hj] at h; omega
  | succ i =>
      cases j with
      | zero => rw [cacheStepPath_zero, cacheStepPath_succ hi] at h; omega
      | succ j =>
          rw [cacheStepPath_succ hi, cacheStepPath_succ hj] at h
          have := step_mod_injective hdvd hpos (by omega) (by omega) (Nat.add_right_cancel h)
          omega

/-! ## the fill code builds a ring -/

/-- A pass before the last: the next index on the path is linked in. -/
theorem cacheStepPass_again {data : Buffer Nat} (hdvd : 128 ∣ n) (hlo : 256 ≤ n) (hhi : n < 2 ^ 32)
    (hsize : data.size = n) (hk : k + 2 < n) :
    cacheStepPass n (data, cacheStepPath n (k + 1)) =
      .ok (.again (data.set (cacheStepPath n (k + 1)) (cacheStepPath n (k + 2)),
        cacheStepPath n (k + 2))) := by
  have hr : 128 * k % (n - 1) < n - 1 := Nat.mod_lt _ (by omega)
  have hsucc := step_mod_succ (m := n - 1) k (by omega)
  have hin : cacheStepPath n (k + 1) < data.size := by
    rw [hsize]; exact cacheStepPath_lt (by omega) (by omega)
  -- meeting `n` here would mean residue 0, the residue of step 0
  have hne : 128 * k % (n - 1) + 128 ≠ n - 1 := fun h => by
    have hz : 128 * (k + 1) % (n - 1) = 128 * 0 % (n - 1) := by rw [hsucc, if_neg (by omega)]; simp [h]
    have := step_mod_injective hdvd (by omega) (by omega) (by omega) hz
    omega
  have hwrap : (cacheStepPath n (k + 1) + 128) % 2 ^ 32 = 128 * k % (n - 1) + 129 := by
    rw [cacheStepPath_succ (by omega), Nat.mod_eq_of_lt (by omega)]
  have hnew : (if 128 * k % (n - 1) + 129 > n then (128 * k % (n - 1) + 129) % (n - 1)
      else 128 * k % (n - 1) + 129) = cacheStepPath n (k + 2) := by
    rw [cacheStepPath_succ (by omega), hsucc]
    split
    · rw [if_neg (by omega), Nat.mod_eq_sub_mod (by omega), Nat.mod_eq_of_lt (by omega)]
      omega
    · rw [if_pos (by omega)]
  simp only [cacheStepPass, cacheStepWidth, hwrap]
  rw [if_neg (by omega), hnew, write_of_lt _ hin]
  rfl

/-- The last pass: the ring is closed with a link to `0`. -/
theorem cacheStepPass_leave {data : Buffer Nat} (hdvd : 128 ∣ n) (hlo : 256 ≤ n) (hhi : n < 2 ^ 32)
    (hsize : data.size = n) :
    cacheStepPass n (data, cacheStepPath n (n - 1)) =
      .ok (.leave (data.set (cacheStepPath n (n - 1)) 0)) := by
  obtain ⟨k, rfl⟩ : ∃ k, n = k + 2 := ⟨n - 2, by omega⟩
  have hin : cacheStepPath (k + 2) (k + 1) < data.size := by
    rw [hsize]; exact cacheStepPath_lt (by omega) (by omega)
  have hsucc := step_mod_succ (m := k + 1) k (by omega)
  have hr : 128 * k % (k + 1) < k + 1 := Nat.mod_lt _ (by omega)
  have hzero : 128 * (k + 1) % (k + 1) = 0 := Nat.mul_mod_left 128 (k + 1)
  -- the step after the last one would be back at residue 0
  have hlast : 128 * k % (k + 1) + 128 = k + 1 := by
    rw [hzero] at hsucc
    split at hsucc <;> omega
  have hwrap : (cacheStepPath (k + 2) (k + 1) + 128) % 2 ^ 32 = k + 2 := by
    rw [cacheStepPath_succ (by omega), show k + 2 - 1 = k + 1 from rfl,
      Nat.mod_eq_of_lt (by omega)]
    omega
  simp only [cacheStepPass, cacheStepWidth, show k + 2 - 1 = k + 1 from rfl, hwrap, if_true]
  rw [write_of_lt _ hin]
  rfl

/-- **The cache-step layout** links its path, for every element count from 256
on that is a multiple of 128. -/
theorem fillRing_cacheStep (hdvd : 128 ∣ n) (hlo : 256 ≤ n) (hhi : n < 2 ^ 32) (hfuel : n ≤ fuel) :
    fillRing fuel .cacheStep n = .ok (linked n (cacheStepPath n) n) := by
  have hfirst : cacheStepPath n 1 = 1 := by rw [cacheStepPath_succ (by omega)]; simp
  have hstart : (alloc Nat n).write 0 1 = .ok (linked n (cacheStepPath n) 1) := by
    rw [write_of_lt 1 (show 0 < (alloc Nat n).size by rw [size_alloc]; omega)]
    simp [linked, hfirst]
  have hloop : runLoop (cacheStepPass n) fuel (linked n (cacheStepPath n) 1, 1) =
      .ok (linked n (cacheStepPath n) n) := by
    have htrace := runLoop_of_passes (cacheStepPass n) fuel
      (fun k => (linked n (cacheStepPath n) (k + 1), cacheStepPath n (k + 1))) (n - 2)
      (r := linked n (cacheStepPath n) n)
      (fun k hk => cacheStepPass_again hdvd hlo hhi (size_linked _ _ _) (by omega))
      (by
        rw [show n - 2 + 1 = n - 1 by omega, cacheStepPass_leave hdvd hlo hhi (size_linked _ _ _)]
        have hclose : linked n (cacheStepPath n) (n - 1 + 1) =
            (linked n (cacheStepPath n) (n - 1)).set (cacheStepPath n (n - 1)) 0 := by
          rw [linked, show n - 1 + 1 = n by omega, cacheStepPath_length]
        rw [← hclose, show n - 1 + 1 = n by omega])
      (by omega)
    simpa [hfirst] using htrace
  simp only [fillRing, hstart]
  exact hloop

/-- **The sequential layout** links its path, for every positive element
count. -/
theorem fillRing_sequential (hpos : 0 < n) (hhi : n < 2 ^ 32) (hfuel : n < fuel) :
    fillRing fuel .sequential n = .ok (linked n (sequentialPath n) n) := by
  have hloop : forLoop (fun i => decide (i < n)) (fun i => (i + 1) % 2 ^ 32)
      (fun i data => data.write i ((i + 1) % 2 ^ 32)) fuel 0 (alloc Nat n) =
      .ok (linked n id n) :=
    forLoop_of_steps _ (fun k => k) (linked n id) n
      (fun k hk => Nat.mod_eq_of_lt (by omega))
      (fun k hk => by
        rw [write_of_lt _ (by rw [size_linked]; exact hk), Nat.mod_eq_of_lt (by omega)]; rfl)
      (fun k hk => decide_eq_true hk) (decide_eq_false (Nat.lt_irrefl n)) hfuel
  obtain ⟨m, rfl⟩ : ∃ m, n = m + 1 := ⟨n - 1, by omega⟩
  -- the link of the last index is written twice, and the second write counts
  have hpre : linked (m + 1) id m = linked (m + 1) (sequentialPath (m + 1)) m :=
    linked_congr fun k hk => by rw [sequentialPath, if_neg (by omega)]; rfl
  simp only [fillRing, hloop]
  change (linked (m + 1) id (m + 1)).write m 0 = _
  rw [write_of_lt _ (by rw [size_linked]; omega)]
  simp only [linked, id, set_set, hpre]
  simp [sequentialPath]

theorem sequentialPath_injOn (n : Nat) : Set.InjOn (sequentialPath n) (Set.Iio n) := by
  intro i hi j hj h
  rw [Set.mem_Iio] at hi hj
  rwa [sequentialPath, if_neg (by omega), sequentialPath, if_neg (by omega)] at h

/-- The smallest element count a layout can handle. -/
def DataLayout.minElems : DataLayout → Nat
  | .sequential => 128
  | .cacheStep => 256

/-- **Ring construction**: from its smallest element count on, each layout is
filled completely, and the result is a single cycle. -/
theorem fillRing_ring (layout : DataLayout) (hdvd : 128 ∣ n) (hlo : layout.minElems ≤ n)
    (hhi : n < 2 ^ 32) :
    ∃ data : Buffer Nat, data.size = n ∧ data.Ring ∧
      ∀ fuel, n < fuel → fillRing fuel layout n = .ok data := by
  cases layout with
  | sequential =>
      have hpos : 0 < n := lt_of_lt_of_le (by decide) hlo
      refine ⟨_, size_linked n (sequentialPath n) n, ?_, fun fuel hf => fillRing_sequential hpos hhi hf⟩
      exact ring_of_linked hpos (if_neg (by omega)) (if_pos rfl)
        (fun k hk => by rw [sequentialPath, if_neg (by omega)]; exact hk) (sequentialPath_injOn n)
  | cacheStep =>
      have hlo : 256 ≤ n := hlo
      refine ⟨_, size_linked n (cacheStepPath n) n, ?_, fun fuel hf =>
        fillRing_cacheStep hdvd hlo hhi hf.le⟩
      exact ring_of_linked (by omega) (cacheStepPath_zero n) (cacheStepPath_length n)
        (fun k hk => cacheStepPath_lt (by omega) hk) (cacheStepPath_injOn hdvd (by omega))

/-! ## the host walk over a ring -/

/-- The locals of the host walk after `k` loads. -/
def walkAt (data : Buffer Nat) (k : Nat) : Walk :=
  ⟨data.next^[k] 0, k, sampleSum data.next 128 (k / 128) % 2 ^ 32⟩

theorem walkPass_again {data : Buffer Nat} (hring : data.Ring) (hhi : data.size < 2 ^ 32)
    (hpos : 0 < k) (hk : k < data.size) :
    walkPass data (walkAt data k) = .ok (.again (walkAt data (k + 1))) := by
  have hne : data.next^[k] 0 ≠ 0 := hring.cycle.iterate_ne_zero hpos hk
  have hread := hring.read_next (hring.cycle.inBounds k)
  have hcount : (k + 1) % 2 ^ 32 = k + 1 := Nat.mod_eq_of_lt (by omega)
  rw [← Function.iterate_succ_apply' data.next k 0] at hread
  simp only [walkPass, walkAt, if_neg hne, hread, hcount, requiredIterationDivisor]
  by_cases hd : (k + 1) % 128 = 0
  · -- the load that completes a block of 128 adds its sample
    have hblock : (k + 1) / 128 = k / 128 + 1 := by omega
    have hindex : 128 * (k / 128 + 1) = k + 1 := by omega
    simp only [hd, hblock, sampleSum_succ, hindex, if_true, Nat.mod_add_mod]
    rfl
  · have hblock : (k + 1) / 128 = k / 128 := by omega
    simp only [hd, hblock, if_false]
    rfl

/-- **The host walk over a ring** ends, counts every element once and adds up
one sample for every 128 loads. -/
theorem walkRing_ring {data : Buffer Nat} (hring : data.Ring) (hhi : data.size < 2 ^ 32)
    (hfuel : data.size ≤ fuel) :
    walkRing fuel data =
      .ok ⟨0, data.size, sampleSum data.next 128 (data.size / 128) % 2 ^ 32⟩ := by
  have hpos := hring.cycle.pos
  have hlast : walkAt data data.size =
      ⟨0, data.size, sampleSum data.next 128 (data.size / 128) % 2 ^ 32⟩ := by
    rw [walkAt, hring.cycle.iterate_length]
  have hloop := runLoop_of_passes (walkPass data) fuel
    (fun k => walkAt data (k + 1)) (data.size - 1) (r := walkAt data data.size)
    (fun k hk => walkPass_again hring hhi (Nat.succ_pos k) (by omega))
    (by
      rw [show data.size - 1 + 1 = data.size by omega, hlast]
      rfl)
    (by omega)
  have hread := hring.read_next hpos
  simp only [walkRing, hread, ← hlast, ← hloop]
  rfl

/-! ## the layouts at the smallest element count -/

/-- With 128 elements the cache-step loop walks into index `0`: it links `0`
to itself and leaves the last cell unassigned. -/
theorem fillRing_cacheStep_128 :
    ∃ data, fillRing 128 .cacheStep 128 = .ok data ∧ data.cell 0 = some 0 ∧
      data.cell 127 = none := by
  have h : (fillRing 128 .cacheStep 128).toOption.map (fun data => (data.cell 0, data.cell 127)) =
      some (some 0, none) := by decide +kernel
  cases hd : fillRing 128 .cacheStep 128 with
  | error e => rw [hd] at h; contradiction
  | ok data =>
      rw [hd] at h
      have hcells := Option.some.inj h
      exact ⟨data, rfl, congrArg Prod.fst hcells, congrArg Prod.snd hcells⟩

end UclBench.MemLatency
