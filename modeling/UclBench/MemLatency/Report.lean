import UclBench.MemLatency.Kernel
import UclBench.MemLatency.Options

/-!
# UclBench.MemLatency.Report

What a latency run prints about itself (`run_latency_benchmark` and `main` of
`mem_latency.cpp`): the number of operations and, in the CSV output, the size
of the data.

The host multiplies 64-bit numbers where the kernel gets the low 32 bits of the
iteration count, so the operations are right exactly for counts that are not
negative.  The size loses its fraction of a kilobyte and is multiplied by 1000,
so it is never right (`reported_never`).
-/

namespace UclBench.MemLatency

open Buffer

/-- `*ops_performed = iterations * opcount` -/
def opsPerformed (iterations opcount : Nat) : Nat := iterations * opcount % 2 ^ 64

/-- `(unsigned long long)data_size_kb*1000` for `data_size_kb = size/1024.0`.
The quotient is exact, and the cast cuts it before it is multiplied. -/
def dataSizeB (size : Nat) : Nat := size / 1024 * 1000 % 2 ^ 64

/-- The kernel for a memory type.  `SIZE`, the length of the local array, is
printed with `%d`: from 2^31 on it is negative, and there is no kernel. -/
def latencyCnt (mt : MemType) (fuel numElems : Nat) (input : Buffer Nat) (iterations : Nat) :
    Except Fault Chase :=
  match mt with
  | .global => latencyCntGlobal fuel input iterations
  | .constant => latencyCntConstant fuel input iterations
  | .local =>
      if numElems < 2 ^ 31 then latencyCntLocal fuel numElems input iterations
      else .error .illFormed

/-- The outcome of a run: what is printed, and what happened on the device. -/
structure Reported where
  operations : Nat
  dataSize : Nat
  loads : Nat
  bytes : Nat

/-- A run over `numElems` elements for an iteration count given as `v`. -/
def report (fuel : Nat) (mt : MemType) (layout : DataLayout) (numElems : Nat) (v : Int32) :
    Except Fault Reported := do
  let iterations := toULong v.toInt
  let size := numElems * 4
  let data ← fillRing fuel layout numElems
  let w ← walkRing fuel data
  let c ← latencyCnt mt fuel numElems data (iterationsArg iterations)
  return ⟨opsPerformed iterations w.opcount, dataSizeB size, c.loads, 4 * data.size⟩

/-- The printed operations are the loads of the kernel. -/
def Reported.OperationsRight (r : Reported) : Prop := r.operations = r.loads

/-- The printed size is that of the chased buffer. -/
def Reported.SizeRight (r : Reported) : Prop := r.dataSize = r.bytes

/-! ## the operations -/

/-- The `int` counter of the local kernel, compared as a `uint`, counts to any
32-bit number, if it wraps. -/
theorem latencyCntLocal_ring_wrap {input : Buffer Nat} (hring : input.Ring)
    (hdvd : 128 ∣ input.size) (hit : iterations < 2 ^ 32)
    (hfuel : input.size + iterations < fuel) :
    latencyCntLocal fuel input.size input iterations = .ok (roundsResult input iterations) := by
  have hcopy : runLoop (copyPass input.size input) fuel (0, alloc Nat input.size) = .ok input :=
    copyPass_copies hring.assigned (Nat.dvd_trans (by decide) hdvd) (by omega)
  have hcount (k : Nat) (hk : k < 2 ^ 32) : (Int.bmod k (2 ^ 32) % 2 ^ 32).toNat = k := by
    have hmod : Int.bmod k (2 ^ 32) % 2 ^ 32 = k % 2 ^ 32 := Int.bmod_emod
    rw [hmod]
    omega
  have hrun : traverse (fun i : Int => decide ((i % 2 ^ 32).toNat < iterations))
      (fun i => Int.bmod (i + 1) (2 ^ 32)) (Int.bmod (0 : Nat) (2 ^ 32)) fuel input = _ :=
    traverse_ring hring hdvd (fun k => Int.bmod k (2 ^ 32)) iterations
      (fun k hk => by
        push_cast
        exact Int.bmod_add_bmod)
      (fun k hk => decide_eq_true (by rw [hcount k (by omega)]; exact hk))
      (decide_eq_false (by rw [hcount iterations hit]; exact Nat.lt_irrefl _)) hfuel
  simp only [latencyCntLocal, hcopy]
  exact hrun

theorem latencyCnt_ring {input : Buffer Nat} (mt : MemType) (hring : input.Ring)
    (hdvd : 128 ∣ input.size) (hit : iterations < 2 ^ 32)
    (hlocal : mt = .local → input.size < 2 ^ 31) (hfuel : input.size + iterations < fuel) :
    latencyCnt mt fuel input.size input iterations = .ok (roundsResult input iterations) := by
  cases mt with
  | global => exact latencyCntGlobal_ring hring hdvd hit hfuel
  | constant => exact latencyCntConstant_ring hring hdvd hit hfuel
  | «local» =>
      simp only [latencyCnt, if_pos (hlocal rfl)]
      exact latencyCntLocal_ring_wrap hring hdvd hit hfuel

/-- What a run prints and does, over any size the layout can handle. -/
theorem report_eq (mt : MemType) (layout : DataLayout) (v : Int32) (hdvd : 128 ∣ n)
    (hlo : layout.minElems ≤ n) (hhi : n < 2 ^ 32) (hlocal : mt = .local → n < 2 ^ 31)
    (hfuel : n + iterationsArg (toULong v.toInt) < fuel) :
    report fuel mt layout n v = .ok ⟨opsPerformed (toULong v.toInt) n, dataSizeB (n * 4),
      iterationsArg (toULong v.toInt) * n, 4 * n⟩ := by
  obtain ⟨data, rfl, hring, hfill⟩ := fillRing_ring layout hdvd hlo hhi
  have hit : iterationsArg (toULong v.toInt) < 2 ^ 32 := Nat.mod_lt _ (by decide)
  have hwalk := walkRing_ring hring hhi (show data.size ≤ fuel by omega)
  have hkernel := latencyCnt_ring mt hring hdvd hit hlocal hfuel
  simp only [report, hfill fuel (by omega), hwalk, hkernel, bind, Except.bind, pure, Except.pure]
  simp [roundsResult]

/-- A negative count is sign-extended on the host and cut for the device. -/
theorem operations_iff (v : Int32) (hpos : 0 < n) (hhi : n < 2 ^ 32) :
    opsPerformed (toULong v.toInt) n = iterationsArg (toULong v.toInt) * n ↔ 0 ≤ v.toInt := by
  have hlow := v.le_toInt
  have hhigh := v.toInt_lt
  by_cases hsign : 0 ≤ v.toInt
  · have hulong : toULong v.toInt = v.toInt.toNat := by
      rw [toULong]
      omega
    have hlt : v.toInt.toNat < 2 ^ 31 := by omega
    have hprod : v.toInt.toNat * n < 2 ^ 31 * 2 ^ 32 :=
      Nat.mul_lt_mul_of_lt_of_lt hlt hhi
    have harg : v.toInt.toNat % 2 ^ 32 = v.toInt.toNat := Nat.mod_eq_of_lt (by omega)
    simp only [hsign, iff_true, opsPerformed, iterationsArg, hulong, harg]
    exact Nat.mod_eq_of_lt (by omega)
  · -- `y` rounds fewer than 2^64 on the host, than 2^32 on the device
    obtain ⟨y, hy⟩ : ∃ y : Nat, v.toInt = -y := ⟨(-v.toInt).toNat, by omega⟩
    have hypos : 0 < y := by omega
    have hyle : y ≤ 2 ^ 31 := by omega
    have hulong : toULong v.toInt = 2 ^ 64 - y := by
      rw [toULong, hy]
      omega
    have harg : (2 ^ 64 - y) % 2 ^ 32 = 2 ^ 32 - y := by omega
    have hprod : 0 < y * n := Nat.mul_pos hypos hpos
    have hprodle : y * n ≤ 2 ^ 31 * 2 ^ 32 := Nat.mul_le_mul hyle hhi.le
    simp only [hsign, iff_false, opsPerformed, iterationsArg, hulong, harg, Nat.sub_mul]
    omega

/-! ## the size -/

/-- Multiples of 512 are never multiples of 1000 in this way. -/
theorem dataSizeB_ne (hdvd : 128 ∣ n) (hpos : 0 < n) (hhi : n < 2 ^ 32) :
    dataSizeB (n * 4) ≠ 4 * n := by
  obtain ⟨m, rfl⟩ := hdvd
  have hkilo : 128 * m * 4 / 1024 = m / 2 := by omega
  rw [dataSizeB, hkilo, Nat.mod_eq_of_lt (by omega)]
  omega

/-- **Reporting**: for every memory type, layout, size the layout and the kernel
can handle and iteration count, a run ends; the printed size is never the size of the
buffer, and the printed operations are the loads of the kernel exactly when
the count is not negative. -/
theorem reported_never (mt : MemType) (layout : DataLayout) (n : Nat) (v : Int32) (hdvd : 128 ∣ n)
    (hlo : layout.minElems ≤ n) (hhi : n < 2 ^ 32) (hlocal : mt = .local → n < 2 ^ 31) :
    ∃ (r : Reported) (bound : Nat), (∀ fuel, bound ≤ fuel → report fuel mt layout n v = .ok r) ∧
      ¬ (r.OperationsRight ∧ r.SizeRight) ∧ ¬ r.SizeRight ∧ (r.OperationsRight ↔ 0 ≤ v.toInt) := by
  have hpos : 0 < n := by
    cases layout <;> exact lt_of_lt_of_le (by decide) hlo
  have hsize := dataSizeB_ne hdvd hpos hhi
  exact ⟨_, n + iterationsArg (toULong v.toInt) + 1,
    fun fuel hf => report_eq mt layout v hdvd hlo hhi hlocal (by omega),
    fun h => hsize h.2, hsize, operations_iff v hpos hhi⟩

/-- One kilobyte in global memory, two rounds. -/
theorem reported_never_1K : 128 ∣ 256 ∧ DataLayout.cacheStep.minElems ≤ 256 ∧
    ∃ (r : Reported) (bound : Nat),
      (∀ fuel, bound ≤ fuel → report fuel .global .cacheStep 256 2 = .ok r) ∧ ¬ r.SizeRight := by
  obtain ⟨r, bound, hrun, -, hsize, -⟩ :=
    reported_never .global .cacheStep 256 2 (by decide) (by decide) (by decide) (by decide)
  exact ⟨by decide, by decide, r, bound, hrun, hsize⟩

/-- One kilobyte is printed as 1000 bytes. -/
theorem report_fails_1K : ∃ (r : Reported) (bound : Nat),
    (∀ fuel, bound ≤ fuel → report fuel .global .cacheStep 256 2 = .ok r) ∧ r.dataSize = 1000 ∧
      r.bytes = 1024 ∧ ¬ (r.OperationsRight ∧ r.SizeRight) := by
  have hfuel (fuel : Nat) (hf : 259 ≤ fuel) :
      256 + iterationsArg (toULong (2 : Int32).toInt) < fuel := by
    have harg : iterationsArg (toULong (2 : Int32).toInt) = 2 := rfl
    omega
  refine ⟨_, 259, fun fuel hf => report_eq .global .cacheStep 2 (by decide) (by decide) (by decide)
    (by decide) (hfuel fuel hf), rfl, rfl, fun h => ?_⟩
  exact dataSizeB_ne (by decide) (by decide) (by decide) h.2

end UclBench.MemLatency
