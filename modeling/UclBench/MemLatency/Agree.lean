import UclBench.MemLatency.Kernel

/-!
# UclBench.MemLatency.Agree

Host and device of the latency benchmark against each other.

* `ringBuilt_iff` — for which layouts and sizes the fill code produces the
  single cycle that the host's own assertion demands: every one except the
  cache-step layout with exactly 128 elements.
* `latencyCnt_agrees` — on the arrays the fill code produces, all three
  kernels terminate in bounds, do `iterations * num_elems` dependent loads and
  store what the host computed with its one-load-at-a-time walk.
-/

namespace UclBench.MemLatency

open Buffer

/-! ## more fuel changes nothing -/

theorem fillRing_mono {layout : DataLayout} (h : fillRing fuel layout n = .ok data)
    (hle : fuel ≤ fuel') : fillRing fuel' layout n = .ok data := by
  cases layout with
  | cacheStep =>
      cases hw : (alloc Nat n).write 0 1 with
      | error e => simp only [fillRing, hw] at h; contradiction
      | ok first =>
          simp only [fillRing, hw] at h ⊢
          exact runLoop_mono h hle
  | sequential =>
      cases hl : forLoop (fun i => decide (i < n)) (fun i => (i + 1) % 2 ^ 32)
          (fun i data => data.write i ((i + 1) % 2 ^ 32)) fuel 0 (alloc Nat n) with
      | error e => simp only [fillRing, hl] at h; contradiction
      | ok linked =>
          simp only [fillRing, hl] at h
          simp only [fillRing, forLoop, runLoop_mono hl hle]
          exact h

/-! ## ring construction -/

/-- What ring construction owes the benchmark: the fill code terminates in
bounds and assigns every element, following `data[]` from `0` visits every
index exactly once before it returns to `0`, and the host walk ends with
`opcount == num_elems`, so its assertion does not fire. -/
def RingBuilt (layout : DataLayout) (n : Nat) : Prop :=
  ∃ (data : Buffer Nat) (bound : Nat),
    (∀ fuel, bound ≤ fuel → fillRing fuel layout n = .ok data) ∧
    data.size = n ∧ data.Assigned ∧
    (∀ i < n, ∃! k, k < n ∧ data.next^[k] 0 = i) ∧ data.next^[n] 0 = 0 ∧
    ∀ fuel, bound ≤ fuel → ∃ w, walkRing fuel data = .ok w ∧ w.opcount = n

theorem ringBuilt_of_minElems (layout : DataLayout) (hdvd : 128 ∣ n) (hlo : layout.minElems ≤ n)
    (hhi : n < 2 ^ 32) : RingBuilt layout n := by
  obtain ⟨data, rfl, hring, hfill⟩ := fillRing_ring layout hdvd hlo hhi
  refine ⟨data, data.size + 1, fun fuel hf => hfill fuel (by omega), rfl, hring.assigned,
    hring.cycle.existsUnique_visit, hring.cycle.iterate_length, fun fuel hf => ?_⟩
  exact ⟨_, walkRing_ring hring hhi (by omega), rfl⟩

/-- The smallest size fails for the cache-step layout: the last cell is never
assigned. -/
theorem not_ringBuilt_cacheStep_128 : ¬ RingBuilt .cacheStep 128 := by
  rintro ⟨data, bound, hfill, hsize, hassigned, -⟩
  obtain ⟨data', hfill', -, hlast⟩ := fillRing_cacheStep_128
  have hmax := fillRing_mono hfill' (Nat.le_max_right bound 128)
  rw [hfill _ (Nat.le_max_left bound 128)] at hmax
  obtain rfl : data = data' := Except.ok.inj hmax
  obtain ⟨v, hv⟩ := hassigned 127 (by omega)
  rw [hlast] at hv
  contradiction

/-- **Ring construction, exactly**: of all sizes the adjustment can produce,
only the cache-step layout with 128 elements is not a ring. -/
theorem ringBuilt_iff (layout : DataLayout) (n : Nat) (hdvd : 128 ∣ n) (hpos : 0 < n)
    (hhi : n < 2 ^ 32) : RingBuilt layout n ↔ layout = .sequential ∨ n ≠ 128 := by
  constructor
  · intro hbuilt
    by_contra hbad
    obtain ⟨hlayout, rfl⟩ : layout ≠ .sequential ∧ n = 128 := by
      rw [not_or, not_not] at hbad; exact hbad
    cases layout with
    | sequential => exact hlayout rfl
    | cacheStep => exact not_ringBuilt_cacheStep_128 hbuilt
  · intro hgood
    refine ringBuilt_of_minElems layout hdvd ?_ hhi
    cases layout with
    | sequential => exact Nat.le_of_dvd hpos hdvd
    | cacheStep =>
        have hne : n ≠ 128 := by simpa using hgood
        change 256 ≤ n
        omega

theorem ringBuilt_iff_256 : RingBuilt .cacheStep 256 ↔ DataLayout.cacheStep = .sequential ∨ 256 ≠ 128 :=
  ringBuilt_iff .cacheStep 256 (by decide) (by decide) (by decide)

/-- At the failing size the walk stops after one load, so
`assert(opcount == num_elems)` fires. -/
theorem ringBuilt_fails : ∃ data, fillRing 128 .cacheStep 128 = .ok data ∧
    walkRing 1 data = .ok ⟨0, 1, 0⟩ ∧ ¬ RingBuilt .cacheStep 128 := by
  obtain ⟨data, hfill, hfirst, -⟩ := fillRing_cacheStep_128
  refine ⟨data, hfill, ?_, not_ringBuilt_cacheStep_128⟩
  simp only [walkRing, read_of_cell hfirst]
  rfl

/-! ## host check and kernels -/

/-- **Host and device agree**: for every size a layout can handle and every
iteration count, the three kernels run to completion on the array the fill
code builds, do `iterations * n` dependent loads, and return the host's
`expected_result`. -/
theorem latencyCnt_agrees (layout : DataLayout) (n iterations : Nat) (hdvd : 128 ∣ n)
    (hlo : layout.minElems ≤ n) (hhi : n < 2 ^ 32) (hit : iterations < 2 ^ 31) :
    ∃ (data : Buffer Nat) (w : Walk), data.size = n ∧
      (∀ fuel, n < fuel → fillRing fuel layout n = .ok data ∧ walkRing fuel data = .ok w) ∧
      ∀ fuel, n + iterations < fuel →
        latencyCntGlobal fuel data (iterationsArg iterations) =
          .ok ⟨0, w.scaled iterations, iterations * n⟩ ∧
        latencyCntConstant fuel data (iterationsArg iterations) =
          .ok ⟨0, w.scaled iterations, iterations * n⟩ ∧
        (n < 2 ^ 31 → latencyCntLocal fuel n data (iterationsArg iterations) =
          .ok ⟨0, w.scaled iterations, iterations * n⟩) := by
  obtain ⟨data, rfl, hring, hfill⟩ := fillRing_ring layout hdvd hlo hhi
  have harg : iterationsArg iterations = iterations := Nat.mod_eq_of_lt (by omega)
  have hscaled : roundsResult data iterations =
      ⟨0, (⟨0, data.size, sampleSum data.next 128 (data.size / 128) % 2 ^ 32⟩ : Walk).scaled
        iterations, iterations * data.size⟩ := by
    have hdvd32 : 2 ^ 32 ∣ 2 ^ 64 := by decide
    rw [roundsResult, Walk.scaled, Nat.mod_mod_of_dvd _ hdvd32, Nat.mod_mul_mod,
      Nat.mul_comm iterations (sampleSum _ _ _)]
  refine ⟨data, _, rfl, fun fuel hf => ⟨hfill fuel hf, walkRing_ring hring hhi hf.le⟩,
    fun fuel hf => ?_⟩
  rw [harg, ← hscaled]
  exact ⟨latencyCntGlobal_ring hring hdvd (by omega) hf,
    latencyCntConstant_ring hring hdvd (by omega) hf,
    fun _ => latencyCntLocal_ring hring hdvd hit hf⟩

theorem latencyCnt_agrees_256 : ∃ (data : Buffer Nat) (w : Walk), data.size = 256 ∧
      (∀ fuel, 256 < fuel → fillRing fuel .cacheStep 256 = .ok data ∧ walkRing fuel data = .ok w) ∧
      ∀ fuel, 256 + 2 < fuel →
        latencyCntGlobal fuel data (iterationsArg 2) = .ok ⟨0, w.scaled 2, 2 * 256⟩ ∧
        latencyCntConstant fuel data (iterationsArg 2) = .ok ⟨0, w.scaled 2, 2 * 256⟩ ∧
        (256 < 2 ^ 31 → latencyCntLocal fuel 256 data (iterationsArg 2) =
          .ok ⟨0, w.scaled 2, 2 * 256⟩) :=
  latencyCnt_agrees .cacheStep 256 2 (by decide) (by decide) (by decide) (by decide)

end UclBench.MemLatency
