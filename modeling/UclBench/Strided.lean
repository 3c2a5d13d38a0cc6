import Mathlib.Algebra.BigOperators.Group.Finset.Basic
import Mathlib.Data.Nat.Count
import Mathlib.Data.Nat.ModEq

/-!
# UclBench.Strided

Loops `for (idx = lo; idx < hi; idx += step)` that divide a range among `step`
parties.

* `mem_strided` — what one party visits;
* `existsUnique_strided` — every index belongs to exactly one party;
* `sum_count_mod` — together they visit the range.
-/

namespace UclBench

/-- The values of the counter in the body of the loop. -/
def strided (lo hi step : Nat) : List Nat := List.range' lo ((hi - lo + (step - 1)) / step) step

/-- The test fails. -/
theorem strided_of_le (h : hi ≤ lo) (hstep : 0 < step) : strided lo hi step = [] := by
  have hzero : (hi - lo + (step - 1)) / step = 0 := Nat.div_eq_of_lt (by omega)
  rw [strided, hzero, List.range'_zero]

/-- The test succeeds: one pass, then the loop from the next counter. -/
theorem strided_of_lt (h : lo < hi) (hstep : 0 < step) :
    strided lo hi step = lo :: strided (lo + step) hi step := by
  have hcount : (hi - lo + (step - 1)) / step = (hi - (lo + step) + (step - 1)) / step + 1 := by
    rw [← Nat.add_div_right _ hstep]
    obtain hle | hgt := Nat.le_total (lo + step) hi
    · congr 1
      omega
    · have hone : (hi - lo + (step - 1)) / step = 1 :=
        Nat.div_eq_of_lt_le (by omega) (by omega)
      have hone' : (hi - (lo + step) + (step - 1) + step) / step = 1 :=
        Nat.div_eq_of_lt_le (by omega) (by omega)
      rw [hone, hone']
  rw [strided, hcount, List.range'_succ, strided]

theorem mem_strided (hstep : 0 < step) : x ∈ strided lo hi step ↔
    lo ≤ x ∧ x < hi ∧ step ∣ x - lo := by
  rw [strided, List.mem_range']
  constructor
  · rintro ⟨i, hi, rfl⟩
    have hlt := (Nat.lt_div_iff_mul_lt hstep).mp hi
    rw [Nat.mul_comm] at hlt
    refine ⟨Nat.le_add_right .., by omega, ?_⟩
    rw [Nat.add_sub_cancel_left]
    exact Nat.dvd_mul_right step i
  · rintro ⟨hle, hlt, i, hi⟩
    refine ⟨i, (Nat.lt_div_iff_mul_lt hstep).mpr ?_, by omega⟩
    rw [Nat.mul_comm]
    omega

theorem nodup_strided (hstep : 0 < step) (lo hi : Nat) : (strided lo hi step).Nodup :=
  List.nodup_range' _ hstep

/-- A loop that starts at the number of its party. -/
theorem mem_strided_id {id : Nat} (hid : id < step) :
    x ∈ strided id hi step ↔ x < hi ∧ x % step = id := by
  rw [mem_strided (by omega)]
  constructor
  · rintro ⟨hle, hlt, hdvd⟩
    have hmod : id % step = x % step := (Nat.modEq_iff_dvd' hle).mpr hdvd
    rw [Nat.mod_eq_of_lt hid] at hmod
    exact ⟨hlt, hmod.symm⟩
  · rintro ⟨hlt, rfl⟩
    exact ⟨Nat.mod_le x step, hlt, (Nat.modEq_iff_dvd' (Nat.mod_le x step)).mp (Nat.mod_modEq x step)⟩

/-- **Coverage and exclusivity**: of the loops that start at `base + id`,
exactly one visits each index from `base` on. -/
theorem existsUnique_strided {base : Nat} (hstep : 0 < step) (hle : base ≤ x) (hlt : x < hi) :
    ∃! id, id < step ∧ x ∈ strided (id + base) hi step := by
  have hiff (id : Nat) (hid : id < step) :
      x ∈ strided (id + base) hi step ↔ (x - base) % step = id := by
    have hshift : x ∈ strided (id + base) hi step ↔ x - base ∈ strided id (hi - base) step := by
      rw [mem_strided hstep, mem_strided hstep, Nat.sub_sub, Nat.add_comm id base]
      omega
    rw [hshift, mem_strided_id hid]
    omega
  refine ⟨(x - base) % step, ⟨Nat.mod_lt _ hstep, ?_⟩, fun id ⟨hid, hmem⟩ => ?_⟩
  · exact (hiff _ (Nat.mod_lt _ hstep)).mpr rfl
  · exact ((hiff id hid).mp hmem).symm

theorem length_strided_id {id : Nat} (hid : id < step) (hi : Nat) :
    (strided id hi step).length = Nat.count (· % step = id) hi := by
  have hset : (strided id hi step).toFinset = {x ∈ Finset.range hi | x % step = id} := by
    ext x
    simp [mem_strided_id hid]
  rw [Nat.count_eq_card_filter_range, ← hset,
    List.toFinset_card_of_nodup (nodup_strided (by omega) id hi)]

/-- Every index has one residue. -/
theorem sum_count_mod (hstep : 0 < step) (hi : Nat) :
    ∑ id ∈ Finset.range step, Nat.count (· % step = id) hi = hi := by
  simp only [Nat.count_eq_card_filter_range]
  rw [← Finset.card_eq_sum_card_fiberwise, Finset.card_range]
  exact fun x _ => Finset.mem_coe.mpr (Finset.mem_range.mpr (Nat.mod_lt x hstep))

end UclBench
