import UclBench.Buffer
import Mathlib.Algebra.Order.Field.Rat
import Mathlib.Data.List.GetD
import Mathlib.Data.Rat.Floor

/-!
# UclBench.KernelOverheads.Durations

The times a run of `kernel_overheads` reports (`run_kernel_benchmark`).

The variables `t1` and `t3` outlive a launch: where the profiling information of
one is not available they keep what they had.  `figures_eq` is about all ten
launches: without a first value a variable is read that is not set, and
otherwise the time that is reported is the upper median of those measured, and
the spread the largest difference of two.
-/

namespace UclBench.KernelOverheads

/-! ## sorting -/

section
variable {α : Type} {R : α → α → Bool} {l : List α} {a : α}

/-- Up to a position everything is in front of what is there. -/
theorem succ_le_countP (hrefl : ∀ x, R x x = true) (h : l.Pairwise fun x y => R x y = true) {k : Nat}
    (hk : l[k]? = some a) : k + 1 ≤ l.countP fun x => R x a := by
  induction l generalizing k with
  | nil => contradiction
  | cons x l ih =>
      obtain ⟨hx, hl⟩ := List.pairwise_cons.mp h
      rcases k with _ | k
      · obtain rfl : x = a := by simpa using hk
        rw [List.countP_cons_of_pos (p := fun y => R y x) (hrefl x)]
        omega
      · rw [List.getElem?_cons_succ] at hk
        rw [List.countP_cons_of_pos (p := fun y => R y a) (hx a (List.mem_of_getElem? hk))]
        exact Nat.succ_le_succ (ih hl hk)

/-- From a position on everything is behind what is there. -/
theorem sub_le_countP (hrefl : ∀ x, R x x = true) (h : l.Pairwise fun x y => R x y = true) {k : Nat}
    (hk : l[k]? = some a) : l.length - k ≤ l.countP fun x => R a x := by
  induction l generalizing k with
  | nil => contradiction
  | cons x l ih =>
      obtain ⟨hx, hl⟩ := List.pairwise_cons.mp h
      rcases k with _ | k
      · obtain rfl : x = a := by simpa using hk
        have hall : (x :: l).countP (fun y => R x y) = (x :: l).length :=
          List.countP_eq_length.mpr (List.forall_mem_cons.mpr ⟨hrefl x, hx⟩)
        omega
      · rw [List.getElem?_cons_succ] at hk
        have hle := ih hl hk
        have hcons : l.countP (fun y => R a y) ≤ (x :: l).countP fun y => R a y :=
          List.Sublist.countP_le (List.sublist_cons_self x l)
        rw [List.length_cons]
        omega

end

/-- `dblcmp`, which puts the larger first -/
def dblcmp (p1 p2 : ℚ) : Int := if p1 > p2 then -1 else if p1 < p2 then 1 else 0

theorem dblcmp_nonpos_iff {x y : ℚ} : dblcmp x y ≤ 0 ↔ y ≤ x := by
  unfold dblcmp
  split
  · next h => simpa using h.le
  · split
    · next h => simpa using h
    · next h => simpa using h

/-- `qsort(durations, 10, sizeof(double), dblcmp)`; equal numbers cannot be told apart. -/
def qsort (ds : List ℚ) : List ℚ := ds.mergeSort fun x y => dblcmp x y ≤ 0

theorem pairwise_qsort (ds : List ℚ) : (qsort ds).Pairwise fun x y => decide (y ≤ x) = true := by
  have hle (x y : ℚ) : decide (dblcmp x y ≤ 0) = decide (y ≤ x) := decide_eq_decide.mpr dblcmp_nonpos_iff
  simp only [qsort, hle]
  exact List.pairwise_mergeSort (fun a b c hab hbc => by simp at *; exact hbc.trans hab)
    (fun a b => by simpa using le_total b a) ds

/-! ## the launches -/

/-- The number of launches that are timed. -/
def launches : Nat := 10

/-- What `clGetEventProfilingInfo` gives after a launch; nothing when it fails. -/
structure Reading where
  queued : Option UInt64
  start : Option UInt64

/-- `t1`, `t3` and the array. -/
structure Timers where
  t1 : Option UInt64
  t3 : Option UInt64
  durations : Buffer ℚ

/-- `(t3 - t1) * 1e-6`, in exact numbers -/
def duration (t1 t3 : UInt64) : ℚ := (t3 - t1).toNat / 1000000

/-- The rest of the loop after launch `i`. -/
def launch (readings : Nat → Reading) (s : Timers) (i : Nat) : Except Fault Timers :=
  let t1 := (readings i).queued <|> s.t1
  let t3 := (readings i).start <|> s.t3
  match t1, t3 with
  | some a, some b => do
      let durations ← s.durations.write i (duration a b)
      pure ⟨t1, t3, durations⟩
  | _, _ => .error .uninitialised

/-- `*duration` and `*delta` -/
def figures (readings : Nat → Reading) : Except Fault (ℚ × ℚ) := do
  let s ← (List.range launches).foldlM (launch readings) ⟨none, none, Buffer.alloc ℚ launches⟩
  let durations ← (List.range launches).mapM s.durations.read
  let sorted := qsort durations
  pure (sorted.getD 4 0, sorted.getD 0 0 - sorted.getD 9 0)

/-- What a variable holds after `k` launches. -/
def held (f : Nat → Option UInt64) : Nat → Option UInt64
  | 0 => none
  | k + 1 => f k <|> held f k

/-- What is stored for launch `i`. -/
def stored (readings : Nat → Reading) (i : Nat) : ℚ :=
  duration ((held (fun k => (readings k).queued) (i + 1)).getD 0)
    ((held (fun k => (readings k).start) (i + 1)).getD 0)

/-- The upper median, and the largest difference. -/
structure Summary (ds : List ℚ) (median spread : ℚ) : Prop where
  mem : median ∈ ds
  above : 5 ≤ ds.countP (median ≤ ·)
  below : 6 ≤ ds.countP (· ≤ median)
  attained : ∃ x ∈ ds, ∃ y ∈ ds, spread = x - y
  largest : ∀ x ∈ ds, ∀ y ∈ ds, x - y ≤ spread

/-- What is picked from the sorted array. -/
theorem summary_qsort {ds : List ℚ} (hlength : ds.length = 10) :
    Summary ds ((qsort ds).getD 4 0) ((qsort ds).getD 0 0 - (qsort ds).getD 9 0) := by
  have hperm : (qsort ds).Perm ds := List.mergeSort_perm _ _
  have hlen : (qsort ds).length = 10 := hperm.length_eq.trans hlength
  have hget {k : Nat} (hk : k < 10) : (qsort ds)[k]? = some ((qsort ds).getD k 0) := by
    rw [List.getD_eq_getElem _ _ (by omega), List.getElem?_eq_getElem]
  have hmem {k : Nat} (hk : k < 10) : (qsort ds).getD k 0 ∈ ds :=
    hperm.mem_iff.mp (List.mem_of_getElem? (hget hk))
  have hsorted := pairwise_qsort ds
  have hrefl (x : ℚ) : decide (x ≤ x) = true := decide_eq_true le_rfl
  -- the first is in front of all, the last behind all
  have hall {p : ℚ → Bool} (hcount : 10 ≤ (qsort ds).countP p) : ∀ x ∈ ds, p x = true :=
    fun x hx => List.countP_eq_length.mp (Nat.le_antisymm List.countP_le_length (hlen ▸ hcount)) x
      (hperm.mem_iff.mpr hx)
  have hfirst := hall (hlen ▸ sub_le_countP hrefl hsorted (hget (by decide : 0 < 10)))
  have hlast := hall (succ_le_countP hrefl hsorted (hget (by decide : 9 < 10)))
  refine ⟨hmem (by decide), ?_, ?_, ⟨_, hmem (by decide), _, hmem (by decide), rfl⟩, fun x hx y hy => ?_⟩
  · rw [← hperm.countP_eq]
    exact succ_le_countP hrefl hsorted (hget (by decide : 4 < 10))
  · rw [← hperm.countP_eq]
    have hbelow := sub_le_countP hrefl hsorted (hget (by decide : 4 < 10))
    rwa [hlen] at hbelow
  · have hx' := of_decide_eq_true (hfirst x hx)
    have hy' := of_decide_eq_true (hlast y hy)
    exact sub_le_sub hx' hy'

section
variable {readings : Nat → Reading}

/-- A variable that had a value keeps one. -/
theorem exists_held {f : Nat → Option UInt64} (h : f 0 ≠ none) (k : Nat) :
    ∃ v, held f (k + 1) = some v := by
  induction k with
  | zero =>
      obtain ⟨v, hv⟩ := Option.ne_none_iff_exists'.mp h
      exact ⟨v, by rw [held, hv]; rfl⟩
  | succ k ih =>
      obtain ⟨v, hv⟩ := ih
      cases hf : f (k + 1) with
      | none => exact ⟨v, by rw [held, hf, hv]; rfl⟩
      | some u => exact ⟨u, by rw [held, hf]; rfl⟩

/-- The variables and the array after `k` launches. -/
structure Timed (readings : Nat → Reading) (k : Nat) (s : Timers) : Prop where
  t1 : s.t1 = held (fun k => (readings k).queued) k
  t3 : s.t3 = held (fun k => (readings k).start) k
  size : s.durations.size = launches
  durations : s.durations.StartsWith ((List.range k).map (stored readings))

theorem Timed.launch (hqueued : (readings 0).queued ≠ none) (hstart : (readings 0).start ≠ none)
    {k : Nat} (hk : k < launches) {s : Timers} (h : Timed readings k s) :
    ∃ s', launch readings s k = .ok s' ∧ Timed readings (k + 1) s' := by
  obtain ⟨ht1, ht3, hsize, hstarts⟩ := h
  obtain ⟨a, ha⟩ := exists_held (f := fun k => (readings k).queued) hqueued k
  obtain ⟨b, hb⟩ := exists_held (f := fun k => (readings k).start) hstart k
  have hqueuedK : ((readings k).queued <|> s.t1) = some a := by rw [ht1]; exact ha
  have hstartK : ((readings k).start <|> s.t3) = some b := by rw [ht3]; exact hb
  have hstored : stored readings k = duration a b := by rw [stored, ha, hb]; rfl
  refine ⟨⟨some a, some b, s.durations.set k (duration a b)⟩, ?_, ha.symm, hb.symm, hsize, ?_⟩
  · simp only [KernelOverheads.launch, hqueuedK, hstartK, Buffer.write_of_lt _ (hsize ▸ hk : k < s.durations.size),
      bind, Except.bind]
    rfl
  · have hnext := hstarts.set (stored readings k) (by simpa [hsize] using hk)
    rwa [List.length_map, List.length_range, hstored, ← hstored, ← List.map_singleton,
      ← List.map_append, ← List.range_succ, hstored] at hnext

/-- **The times**: all ten launches count, each with the values that were last available, unless
there is none for the first. -/
theorem figures_eq (readings : Nat → Reading) :
    ((readings 0).queued ≠ none ∧ (readings 0).start ≠ none → ∃ median spread,
      figures readings = .ok (median, spread) ∧
        Summary ((List.range launches).map (stored readings)) median spread) ∧
    (¬ ((readings 0).queued ≠ none ∧ (readings 0).start ≠ none) →
      figures readings = .error .uninitialised) := by
  constructor
  · rintro ⟨hqueued, hstart⟩
    have hzero : Timed readings 0 ⟨none, none, Buffer.alloc ℚ launches⟩ :=
      ⟨rfl, rfl, rfl, fun k hk => absurd hk (Nat.not_lt_zero k)⟩
    obtain ⟨s, hrun, -, -, -, hstarts⟩ := foldlM_range_of_invariant (Timed readings) hzero
      fun k hk s hs => hs.launch hqueued hstart hk
    have hread : (List.range launches).mapM s.durations.read =
        .ok ((List.range launches).map (stored readings)) := by
      refine mapM_eq_ok fun k hk => Buffer.read_of_cell ?_
      rw [hstarts k (by simpa using hk), List.getElem?_map,
        List.getElem?_range (List.mem_range.mp hk)]
      rfl
    refine ⟨_, _, ?_, summary_qsort (by rw [List.length_map, List.length_range, launches])⟩
    simp only [figures, hrun, hread, bind, Except.bind]
    rfl
  · intro h
    have hfirst : launch readings ⟨none, none, Buffer.alloc ℚ launches⟩ 0 = .error .uninitialised := by
      rw [not_and_or, not_not, not_not] at h
      simp only [launch]
      rcases h with h | h
      · rw [h]
        rfl
      · rw [h]
        cases (readings 0).queued <;> rfl
    have hrun : (List.range launches).foldlM (launch readings) ⟨none, none, Buffer.alloc ℚ launches⟩ =
        .error .uninitialised := by
      rw [launches, List.range_succ_eq_map, List.foldlM_cons, ← launches, hfirst]
      rfl
    simp only [figures, hrun, bind, Except.bind]

end

end UclBench.KernelOverheads
