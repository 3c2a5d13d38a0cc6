import UclBench.MemStreaming.Host
import Mathlib.Algebra.BigOperators.Ring.Finset
import Mathlib.Tactic.Linarith

/-!
# UclBench.MemStreaming.Accounting

The bandwidth that is printed, against the accesses a work-group performs.

A run credits `elements * 400240` accesses of `dtype`, whatever the number of
timed launches.  One launch performs 40004 for each element a work item visits
(`moved_body`), and the number of visits depends on the type of memory
(`sum_moved`); `bandwidthAccounted_iff` compares the two.
-/

namespace UclBench.MemStreaming

/-- The components of `dtype` an access moves. -/
def Access.width (vec : Nat) : Access → Nat
  | .put .. => 1
  | .load .. | .add .. | .store .. => 2 ^ vec
  | .emit _ _ cs => cs.length

/-- The components a list of accesses moves. -/
def moved (vec : Nat) (l : List Access) : Nat := (l.map (Access.width vec)).sum

/-- The accesses of `dtype` size that one work-group performs in `iterations`
launches; an assignment of one component is a fraction of one. -/
def groupAccesses (type f4 elements localSize iterations : Nat) : ℚ :=
  (iterations * ∑ id ∈ Finset.range localSize,
    (moved f4 (kernel type f4 elements localSize id).before +
      moved f4 (kernel type f4 elements localSize id).after) : Nat) / 2 ^ f4

/-- `elements*(double)400240` -/
def creditedAccesses (elements : Nat) : ℚ := elements * 400240

/-- Within one percent. -/
def Accounted (type f4 ws maxWorkItemSize elements iterations : Nat) : Prop :=
  |groupAccesses type f4 elements (chooseLocal ws maxWorkItemSize elements) iterations -
    creditedAccesses elements| ≤ creditedAccesses elements / 100

/-! ## one work item -/

section
variable {vec n : Nat} {l l' : List Access}

@[simp] theorem moved_nil : moved vec [] = 0 := rfl

@[simp] theorem moved_cons {x : Access} : moved vec (x :: l) = x.width vec + moved vec l := by
  simp [moved]

@[simp] theorem moved_append : moved vec (l ++ l') = moved vec l + moved vec l' := by
  simp [moved]

theorem moved_repeated : moved vec (repeated n l) = n * moved vec l := by
  induction n with
  | zero => simp [repeated]
  | succ n ih =>
      have hsplit : repeated (n + 1) l = l ++ repeated n l := by
        simp [repeated, List.replicate_succ]
      rw [hsplit, moved_append, ih, Nat.succ_mul, Nat.add_comm]

theorem moved_flatMap {block : α → List Access} {xs : List α}
    (h : ∀ x ∈ xs, moved vec (block x) = n) : moved vec (xs.flatMap block) = xs.length * n := by
  induction xs with
  | nil => simp
  | cons x xs ih =>
      rw [List.flatMap_cons, moved_append, h x List.mem_cons_self,
        ih fun y hy => h y (List.mem_cons_of_mem _ hy), List.length_cons]
      ring

theorem moved_putAll (hvec : vec ≤ 4) (a : Arr) (idx : Nat) :
    moved vec (putAll vec a idx) = 2 ^ vec := by
  have hone : Access.width vec ∘ (fun c => Access.put a idx c (initial a)) = fun _ => 1 := rfl
  simp [moved, putAll, hone, length_components hvec]

theorem moved_stream (idx : Nat) : moved vec (stream idx) = 4 * 2 ^ vec := by
  simp [stream, Access.width]
  ring

/-- The work of one work item: 40003 accesses for each element of the first
half, and one for each of the second. -/
theorem moved_body (hvec : vec ≤ 4) (elements first stride : Nat) :
    moved vec (body vec elements first stride).before + moved vec (body vec elements first stride).after =
      ((strided first elements stride).length * 40003 +
        (strided (first + elements) (elements * 2) stride).length) * 2 ^ vec := by
  have hinit (idx : Nat) : moved vec (putAll vec .snd idx ++ putAll vec .fst idx) = 2 * 2 ^ vec := by
    rw [moved_append, moved_putAll hvec, moved_putAll hvec, Nat.two_mul]
  have hstream (idx : Nat) : moved vec (repeated 100 (repeated 100 (stream idx))) =
      40000 * 2 ^ vec := by
    rw [moved_repeated, moved_repeated, moved_stream]
    ring
  have hemit (idx : Nat) : moved vec [.emit .fst idx (components vec)] = 2 ^ vec := by
    simp [Access.width, length_components hvec]
  simp only [body, moved_append, List.map_eq_flatMap, moved_flatMap fun idx _ => hinit idx,
    moved_flatMap fun idx _ => moved_putAll hvec .snd idx, moved_flatMap fun idx _ => hstream idx,
    moved_flatMap fun idx _ => hemit idx]
  ring

end

/-! ## a work-group -/

/-- The elements the work items of a group visit, with multiplicity: every
element once, except that in private memory each work item has its own,
rounded up. -/
def visits (type elements localSize : Nat) : Nat :=
  if type = 1 then localSize * ((elements + localSize - 1) / localSize) else elements

theorem visits_of_ne (h : type ≠ 1) (elements localSize : Nat) :
    visits type elements localSize = elements := if_neg h

theorem length_strided (lo hi step : Nat) :
    (strided lo hi step).length = (hi - lo + (step - 1)) / step := by
  simp [strided]

theorem sum_length_strided (hlocal : 0 < localSize) (elements : Nat) :
    ∑ id ∈ Finset.range localSize, (strided id elements localSize).length = elements := by
  rw [Finset.sum_congr rfl fun id hid => length_strided_id (Finset.mem_range.mp hid) elements,
    sum_count_mod hlocal]

/-- The second initialisation loop is as long as the first. -/
theorem length_strided_second (id elements localSize : Nat) :
    (strided (id + elements) (elements * 2) localSize).length =
      (strided id elements localSize).length := by
  rw [length_strided, length_strided]
  congr 2
  omega

theorem sum_moved (hf4 : f4 ≤ 4) (hlocal : 0 < localSize) (type elements : Nat) :
    ∑ id ∈ Finset.range localSize, (moved f4 (kernel type f4 elements localSize id).before +
        moved f4 (kernel type f4 elements localSize id).after) =
      visits type elements localSize * 40004 * 2 ^ f4 := by
  by_cases hone : type = 1
  · subst hone
    have hitem (id : Nat) : moved f4 (kernel 1 f4 elements localSize id).before +
        moved f4 (kernel 1 f4 elements localSize id).after =
        (elements + localSize - 1) / localSize * 40004 * 2 ^ f4 := by
      simp only [kernel, privateMem, elementsToAlloc, moved_body hf4, length_strided]
      norm_num
      ring_nf
      omega
    simp [hitem, visits]
    ring
  · have hitem (id : Nat) : moved f4 (kernel type f4 elements localSize id).before +
        moved f4 (kernel type f4 elements localSize id).after =
        (strided id elements localSize).length * (40004 * 2 ^ f4) := by
      have hbody : kernel type f4 elements localSize id = body f4 elements id localSize := by
        simp only [kernel, elementsToAlloc, if_neg hone]
        split <;> first | contradiction | rfl
      rw [hbody, moved_body hf4, length_strided_second]
      ring
    simp only [hitem, ← Finset.sum_mul, sum_length_strided hlocal, visits_of_ne hone]
    ring

/-- What a group performs. -/
theorem groupAccesses_eq (hf4 : f4 ≤ 4) (hlocal : 0 < localSize) (type elements iterations : Nat) :
    groupAccesses type f4 elements localSize iterations =
      40004 * (iterations * visits type elements localSize) := by
  rw [groupAccesses, sum_moved hf4 hlocal]
  push_cast
  rw [← mul_assoc, mul_div_assoc, div_self (by positivity)]
  ring

/-! ## the comparison -/

/-- One percent, in whole numbers. -/
theorem bandwidthAccounted_iff_visits (hf4 : f4 ≤ 4) (hmax : 0 < maxWorkItemSize) (helements : 0 < elements) :
    Accounted type f4 ws maxWorkItemSize elements iterations ↔
      495297 * elements ≤
        50005 * (iterations * visits type elements (chooseLocal ws maxWorkItemSize elements)) ∧
      50005 * (iterations * visits type elements (chooseLocal ws maxWorkItemSize elements)) ≤
        505303 * elements := by
  rw [Accounted, groupAccesses_eq hf4 (chooseLocal_pos helements hmax), creditedAccesses, abs_le,
    ← Nat.cast_mul]
  generalize iterations * visits type elements (chooseLocal ws maxWorkItemSize elements) = w
  constructor
  · rintro ⟨hlow, hhigh⟩
    have hlow' : (495297 * elements : ℚ) ≤ 50005 * w := by linarith
    have hhigh' : (50005 * w : ℚ) ≤ 505303 * elements := by linarith
    exact ⟨by exact_mod_cast hlow', by exact_mod_cast hhigh'⟩
  · rintro ⟨hlow, hhigh⟩
    have hlow' : (495297 * elements : ℚ) ≤ 50005 * w := by exact_mod_cast hlow
    have hhigh' : (50005 * w : ℚ) ≤ 505303 * elements := by exact_mod_cast hhigh
    constructor <;> linarith

/-- **Accounting**: in local and global memory the credit is right, to within
one percent, exactly for ten timed launches.  In private memory it is right
exactly when the launches times `elements`, rounded up to a multiple of
`local`, come to ten times `elements`, to within 1.05 percent. -/
theorem bandwidthAccounted_iff (type f4 ws maxWorkItemSize elements iterations : Nat) (hf4 : f4 ≤ 4)
    (hmax : 0 < maxWorkItemSize) (helements : 0 < elements) :
    Accounted type f4 ws maxWorkItemSize elements iterations ↔
      (type ≠ 1 ∧ iterations = 10) ∨
      (type = 1 ∧
        let localSize := chooseLocal ws maxWorkItemSize elements
        let roundedUp := localSize * ((elements + localSize - 1) / localSize)
        495297 * elements ≤ 50005 * (iterations * roundedUp) ∧
          50005 * (iterations * roundedUp) ≤ 505303 * elements) := by
  rw [bandwidthAccounted_iff_visits hf4 hmax helements]
  by_cases hone : type = 1
  · simp [hone, visits]
  · simp only [visits_of_ne hone, hone, ne_eq, not_false_eq_true, true_and, false_and, or_false]
    constructor
    · rintro ⟨hlow, hhigh⟩
      have hlow' : 495297 ≤ 50005 * iterations := by
        apply Nat.le_of_mul_le_mul_right _ helements
        linarith
      have hhigh' : 50005 * iterations ≤ 505303 := by
        apply Nat.le_of_mul_le_mul_right _ helements
        linarith
      omega
    · rintro rfl
      omega

/-- Ten launches over local memory. -/
theorem bandwidthAccounted_iff_ten : 0 ≤ 4 ∧ 0 < 512 ∧ 0 < 1024 ∧ Accounted 0 0 1 512 1024 10 :=
  ⟨by decide, by decide, by decide,
    (bandwidthAccounted_iff 0 0 1 512 1024 10 (by decide) (by decide) (by decide)).mpr
      (.inl ⟨by decide, rfl⟩)⟩

/-- Twenty launches move twice what is credited. -/
theorem accounting_fails_twenty : ¬ Accounted 0 0 0 512 1024 20 := by
  rw [bandwidthAccounted_iff_visits (by decide) (by decide) (by decide)]
  simp [visits]

end UclBench.MemStreaming
