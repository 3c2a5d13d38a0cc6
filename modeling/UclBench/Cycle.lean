import UclBench.Buffer
import Mathlib.Dynamics.PeriodicPts.Defs
import Mathlib.Data.Finset.Card
import Mathlib.Data.Fintype.EquivFin
import Mathlib.Algebra.BigOperators.Group.Finset.Basic

/-!
# UclBench.Cycle

Single cycles: successor functions that visit every index of `[0, n)` exactly
once, starting from `0`, before they come back to `0`.

The bridge to programs is `SingleCycle.of_path` — a walk that lists the
visited indices and returns to `0` for the first time at step `n`.  From it
follow the facts a pointer chase needs: it never leaves `[0, n)`, it is back
at `0` exactly at the multiples of `n` (`iterate_eq_zero_iff`), and it visits
every index (`existsUnique_visit`).

A ring in storage is a buffer whose cells hold the successor of their own
index; `Buffer.linked` builds one along a path, one write per step, and
`Buffer.ring_of_linked` turns a closed path into a ring.
-/

namespace UclBench

open Function

/-- Following `f` from `0` stays in `[0, n)` and returns to `0` for the first
time after exactly `n` steps. -/
structure SingleCycle (f : Nat → Nat) (n : Nat) : Prop where
  pos : 0 < n
  inBounds : ∀ k, f^[k] 0 < n
  period : minimalPeriod f 0 = n

namespace SingleCycle

variable {f : Nat → Nat} {n : Nat}

/-- The walk is back at its start exactly at the multiples of its length. -/
theorem iterate_eq_zero_iff (h : SingleCycle f n) (k : Nat) : f^[k] 0 = 0 ↔ n ∣ k := by
  rw [← h.period, ← isPeriodicPt_iff_minimalPeriod_dvd]
  rfl

theorem iterate_ne_zero (h : SingleCycle f n) {k : Nat} (hpos : 0 < k) (hlt : k < n) :
    f^[k] 0 ≠ 0 := fun hz =>
  Nat.not_le_of_lt hlt (Nat.le_of_dvd hpos ((h.iterate_eq_zero_iff k).mp hz))

theorem iterate_length (h : SingleCycle f n) : f^[n] 0 = 0 :=
  (h.iterate_eq_zero_iff n).mpr (dvd_refl n)

/-- Within one round no index is visited twice. -/
theorem iterate_injOn (h : SingleCycle f n) : Set.InjOn (fun k => f^[k] 0) (Set.Iio n) := by
  have := iterate_injOn_Iio_minimalPeriod (f := f) (x := 0)
  rwa [h.period] at this

/-- **Coverage**: one round visits every index exactly once. -/
theorem existsUnique_visit (h : SingleCycle f n) (i : Nat) (hi : i < n) :
    ∃! k, k < n ∧ f^[k] 0 = i := by
  -- `n` distinct visits inside an `n`-element set exhaust it
  have hsurj : Surjective fun k : Fin n => (⟨f^[k] 0, h.inBounds k⟩ : Fin n) := by
    refine Finite.injective_iff_surjective.mp fun k j hkj => Fin.ext ?_
    exact h.iterate_injOn k.isLt j.isLt (congrArg Fin.val hkj)
  obtain ⟨k, hk⟩ := hsurj ⟨i, hi⟩
  refine ⟨k, ⟨k.isLt, congrArg Fin.val hk⟩, fun j ⟨hj, hji⟩ => ?_⟩
  exact h.iterate_injOn hj k.isLt (hji.trans (congrArg Fin.val hk).symm)

/-- A walk through `p 0 = 0, p 1, …, p n = 0` inside `[0, n)` that meets `0`
only at its two ends is a single cycle. -/
theorem of_path (p : Nat → Nat) (hpos : 0 < n) (hstart : p 0 = 0) (hend : p n = 0)
    (hstep : ∀ k < n, f (p k) = p (k + 1)) (hin : ∀ k < n, p k < n)
    (hne : ∀ k, 0 < k → k < n → p k ≠ 0) : SingleCycle f n := by
  have hiter : ∀ k ≤ n, f^[k] 0 = p k := fun k hk => by
    induction k with
    | zero => rw [iterate_zero, id, hstart]
    | succ k ih => rw [iterate_succ_apply', ih (by omega), hstep k (by omega)]
  have hper : IsPeriodicPt f n 0 := (hiter n le_rfl).trans hend
  have hmin : minimalPeriod f 0 = n := by
    refine le_antisymm (hper.minimalPeriod_le hpos) (Nat.le_of_not_lt fun hlt => ?_)
    have hzero : p (minimalPeriod f 0) = 0 := by
      rw [← hiter _ hlt.le]; exact iterate_minimalPeriod
    exact hne _ (hper.minimalPeriod_pos hpos) hlt hzero
  refine ⟨hpos, fun k => ?_, hmin⟩
  have hmod : f^[k] 0 = p (k % n) := by
    rw [← hiter _ (Nat.mod_lt k hpos).le, ← hmin, iterate_mod_minimalPeriod_eq]
  rw [hmod]
  exact hin _ (Nat.mod_lt k hpos)

end SingleCycle

/-! ## sampling a walk -/

/-- What a walk that samples its position after every `b` steps has added up
after `m` samples. -/
def sampleSum (f : Nat → Nat) (b m : Nat) : Nat := ∑ j ∈ Finset.range m, f^[b * (j + 1)] 0

@[simp] theorem sampleSum_zero (f : Nat → Nat) (b : Nat) : sampleSum f b 0 = 0 := rfl

theorem sampleSum_succ (f : Nat → Nat) (b m : Nat) :
    sampleSum f b (m + 1) = sampleSum f b m + f^[b * (m + 1)] 0 := Finset.sum_range_succ _ m

/-! ## rings held in storage -/

namespace Buffer

/-- The successor function a buffer of indices describes. -/
def next (b : Buffer Nat) (i : Nat) : Nat := (b.cell i).getD 0

/-- A ring: every cell is assigned, and following the cells from `0` is a
single cycle through all of them. -/
structure Ring (b : Buffer Nat) : Prop where
  assigned : b.Assigned
  cycle : SingleCycle b.next b.size

theorem next_of_cell {b : Buffer Nat} (h : b.cell i = some v) : b.next i = v := by
  rw [next, h]; rfl

/-- Reading a ring anywhere in range follows its successor function. -/
theorem Ring.read_next {b : Buffer Nat} (h : b.Ring) (hi : i < b.size) :
    b.read i = .ok (b.next i) := by
  obtain ⟨v, hv⟩ := h.assigned i hi
  rw [read_of_cell hv, next_of_cell hv]

/-- The first `m` links of the path `p`, written into fresh storage. -/
def linked (n : Nat) (p : Nat → Nat) : Nat → Buffer Nat
  | 0 => alloc Nat n
  | m + 1 => (linked n p m).set (p m) (p (m + 1))

@[simp] theorem size_linked (n : Nat) (p : Nat → Nat) (m : Nat) : (linked n p m).size = n := by
  induction m with
  | zero => rfl
  | succ m ih => rw [linked, size_set, ih]

/-- Only the part of the path that has been linked matters. -/
theorem linked_congr {p q : Nat → Nat} (h : ∀ k ≤ m, p k = q k) : linked n p m = linked n q m := by
  induction m with
  | zero => rfl
  | succ m ih =>
      rw [linked, linked, ih fun k hk => h k (by omega), h m (by omega), h (m + 1) le_rfl]

/-- On a path without repetitions no later link overwrites an earlier one. -/
theorem cell_linked {p : Nat → Nat} (hin : ∀ k < m, p k < n)
    (hinj : Set.InjOn p (Set.Iio m)) (hj : j < m) :
    (linked n p m).cell (p j) = some (p (j + 1)) := by
  induction m with
  | zero => omega
  | succ m ih =>
      rw [linked]
      rcases Nat.lt_succ_iff_lt_or_eq.mp hj with hlt | rfl
      · have hne : p j ≠ p m := fun h => by
          have := hinj (Set.mem_Iio.mpr hj) (Set.mem_Iio.mpr (Nat.lt_succ_self m)) h
          omega
        rw [cell_set_of_ne _ hne]
        exact ih (fun k hk => hin k (by omega)) (hinj.mono (Set.Iio_subset_Iio (by omega))) hlt
      · exact cell_set_self _ (by rw [size_linked]; exact hin j hj)

/-- **Closing a ring**: a path that starts and ends at `0`, meets `0` only
there and repeats no index, written link by link, is a ring. -/
theorem ring_of_linked {p : Nat → Nat} (hpos : 0 < n) (hstart : p 0 = 0) (hend : p n = 0)
    (hin : ∀ k < n, p k < n) (hinj : Set.InjOn p (Set.Iio n)) : (linked n p n).Ring := by
  have hcell : ∀ k < n, (linked n p n).cell (p k) = some (p (k + 1)) := fun k hk =>
    cell_linked hin hinj hk
  have hne : ∀ k, 0 < k → k < n → p k ≠ 0 := fun k hk hkn hz => by
    have := hinj (Set.mem_Iio.mpr hkn) (Set.mem_Iio.mpr hpos) (hz.trans hstart.symm)
    omega
  have hcycle : SingleCycle (linked n p n).next n :=
    SingleCycle.of_path p hpos hstart hend (fun k hk => next_of_cell (hcell k hk)) hin hne
  refine ⟨fun i hi => ?_, by rwa [size_linked]⟩
  -- every index is on the path, because the path is as long as the storage
  have hsurj : Function.Surjective fun k : Fin n => (⟨p k, hin k k.isLt⟩ : Fin n) :=
    Finite.injective_iff_surjective.mp fun k j hkj =>
      Fin.ext (hinj k.isLt j.isLt (congrArg Fin.val hkj))
  obtain ⟨k, hk⟩ := hsurj ⟨i, by rwa [size_linked] at hi⟩
  exact ⟨p (k + 1), by rw [← hcell k k.isLt, show p k = i from congrArg Fin.val hk]⟩

end Buffer

end UclBench
