import UclBench.BranchPenalty.Selector
import Mathlib.Algebra.Order.Field.Rat
import Mathlib.Data.List.Nodup
import Mathlib.Data.Rat.Cast.Order
import Mathlib.Tactic.Linarith

/-!
# UclBench.BranchPenalty.Kernel

The kernel of the branching penalty benchmark (`bp_kernel.cl`).  A work-item
tests its value against 128 narrow ranges, one around each whole number, and
enters the branch of every range the value lies in.

`entered_iff`: in every measurement the work-group enters exactly the branches
`1, …, branchtypes`, so the number of branches the benchmark prints is the
number of branches it has timed.
-/

namespace UclBench.BranchPenalty

/-- `BPSIZE` -/
def bpSize : Nat := 128

/-- `funfun`, without rounding -/
def funfun (v : ℚ) : ℚ := (fun v => v * (v + 2) / (v + 19 / 10))^[100000] v

/-- The whole numbers the branches test for, in the order of the source. -/
def branches : List Nat := (List.range' 1 128).reverse

/-- `brancharray[id] >= k-0.1 && brancharray[id] <= k+0.1` -/
def inRange (k : Nat) (v : ℚ) : Bool := k - 1 / 10 ≤ v ∧ v ≤ k + 1 / 10

/-- The branches a work-item with value `v` enters, one after another. -/
def entered (v : ℚ) : List Nat := branches.filter (inRange · v)

/-- `branchPenalty`, for work-item `id` -/
def branchPenalty (brancharray outarray : Buffer ℚ) (id : Nat) : Except Fault (Buffer ℚ) := do
  let v ← brancharray.read id
  (entered v).foldlM (fun outarray (k : Nat) => outarray.write id (funfun (k * v))) outarray

theorem mem_branches : k ∈ branches ↔ 1 ≤ k ∧ k ≤ bpSize := by
  simp only [branches, bpSize, List.mem_reverse, List.mem_range'_1]
  omega

/-- The range around one whole number contains no other. -/
theorem inRange_natCast (k i : Nat) : inRange k (i : ℚ) = true ↔ k = i := by
  simp only [inRange, decide_eq_true_eq]
  constructor
  · rintro ⟨hlo, hhi⟩
    have hle : (k : ℚ) < i + 1 := by linarith
    have hge : (i : ℚ) < k + 1 := by linarith
    have hle' : k < i + 1 := by exact_mod_cast hle
    have hge' : i < k + 1 := by exact_mod_cast hge
    omega
  · rintro rfl
    constructor <;> linarith

/-- The value of a branch id enters the branch of that id and no other. -/
theorem entered_natCast (hlo : 1 ≤ k) (hhi : k ≤ bpSize) : entered (k : ℚ) = [k] := by
  have hnodup : branches.Nodup := List.nodup_reverse.mpr (List.nodup_range' _)
  have hcount : branches.count k = 1 :=
    List.count_eq_one_of_mem hnodup (mem_branches.mpr ⟨hlo, hhi⟩)
  calc entered (k : ℚ) = branches.filter (· == k) :=
        List.filter_congr fun j _ => by rw [Bool.eq_iff_iff, inRange_natCast, beq_iff_eq]
    _ = [k] := by rw [List.filter_beq, hcount, List.replicate_one]

/-- Such a work-item stores its result once. -/
theorem branchPenalty_natCast {brancharray outarray : Buffer ℚ} {id : Nat} (hlo : 1 ≤ k)
    (hhi : k ≤ bpSize) (hv : brancharray.cell id = some (k : ℚ)) :
    branchPenalty brancharray outarray id = outarray.write id (funfun (k * k)) := by
  have hread := Buffer.read_of_cell hv
  simp only [branchPenalty, hread, Bind.bind, Except.bind, entered_natCast hlo hhi,
    List.foldlM_cons, List.foldlM_nil]
  cases outarray.write id (funfun (k * k)) <;> rfl

/-- **The measured branches**: with the selector of a measurement every
work-item enters one branch, and together they enter the branches
`1, …, branchtypes`. -/
theorem entered_iff (hts : (t, s) ∈ sweep bpSize) {b : Buffer ℚ}
    (hb : Pattern (Nat.cast : Nat → ℚ) bpSize t s b) :
    (∀ i < bpSize, ∃ v, b.cell i = some v ∧ entered v = [branchId t s i]) ∧
      ∀ k, (∃ i < bpSize, ∃ v, b.cell i = some v ∧ k ∈ entered v) ↔ 1 ≤ k ∧ k ≤ t := by
  obtain ⟨ht, hs, hle⟩ := mem_sweep.mp hts
  have htn : t ≤ bpSize := (Nat.le_mul_of_pos_right t hs).trans hle
  have hone (i : Nat) : entered (branchId t s i : ℚ) = [branchId t s i] := by
    obtain ⟨hlo, hhi⟩ := Set.mem_Icc.mp (branchId_mem ht s i)
    exact entered_natCast hlo (hhi.trans htn)
  refine ⟨fun i hi => ⟨_, hb.element i hi, hone i⟩, fun k => ⟨?_, fun hk => ?_⟩⟩
  · rintro ⟨i, hi, v, hv, hmem⟩
    rw [hb.element i hi] at hv
    obtain rfl := Option.some.inj hv
    have heq := List.mem_singleton.mp (hone i ▸ hmem)
    rw [heq]
    exact Set.mem_Icc.mp (branchId_mem ht s i)
  · have hmem : (k : ℚ) ∈ Set.image (Nat.cast : Nat → ℚ) (Set.Icc 1 t) := ⟨k, hk, rfl⟩
    rw [hb.ids] at hmem
    obtain ⟨i, hi, hv⟩ := hmem
    exact ⟨i, hi, k, hv, by rw [entered_natCast hk.1 (hk.2.trans htn)]; simp⟩

end UclBench.BranchPenalty
