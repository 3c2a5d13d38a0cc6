import UclBench.Buffer
import Mathlib.Algebra.Group.Nat.Defs
import Mathlib.Data.List.Forall2
import Mathlib.Data.Set.Function
import Mathlib.Order.Interval.Set.Defs

/-!
# UclBench.BranchPenalty.Selector

The branch selector of the branching penalty benchmark
(`branch_penalty.cpp`): before each measurement every work-item is given a
branch id, `branchsize` neighbours the same one, and the ids cycle through
`1, …, branchtypes`.

The loop does not compute the id of an element.  It carries `curbranch` along,
bumps it where a block starts and sends it back to `1` when it has gone one
too far.

* `nextBranch_zero`, `nextBranch_succ` — one pass takes the id of an element
  to the id of the next;
* `fillSelector_pattern` — the pattern the loop leaves behind;
* `sweepWrites_pattern` — what the device is given over the whole benchmark.
-/

namespace UclBench.BranchPenalty

/-! ## branch ids -/

/-- The branch id of element `i`. -/
def branchId (branchtypes branchsize i : Nat) : Nat := i / branchsize % branchtypes + 1

theorem branchId_mem (ht : 1 ≤ t) (s i : Nat) : branchId t s i ∈ Set.Icc 1 t := by
  have := Nat.mod_lt (i / s) ht
  simp only [branchId, Set.mem_Icc]
  omega

/-- A block has one id. -/
theorem branchId_of_block (hlo : j * s ≤ i) (hhi : i < (j + 1) * s) :
    branchId t s i = j % t + 1 := by
  rw [branchId, Nat.div_eq_of_lt_le hlo hhi]

/-- Id `k` is that of the first element of block `k - 1`. -/
theorem branchId_start (hs : 1 ≤ s) (hk : k ∈ Set.Icc 1 t) : branchId t s ((k - 1) * s) = k := by
  obtain ⟨hlo, hhi⟩ := Set.mem_Icc.mp hk
  rw [branchId, Nat.mul_div_cancel _ hs, Nat.mod_eq_of_lt (by omega), Nat.sub_add_cancel hlo]

/-! ## the fill loop -/

/-- `curbranch` after one pass. -/
def nextBranch (branchtypes branchsize i curbranch : Nat) : Nat :=
  let curbranch := if i % branchsize = 0 then curbranch + 1 else curbranch
  if curbranch % (branchtypes + 1) = 0 then 1 else curbranch

/-- The first element is bumped from `0`. -/
theorem nextBranch_zero (ht : 1 ≤ t) (s : Nat) : nextBranch t s 0 0 = branchId t s 0 := by
  have hone : 1 % (t + 1) = 1 := Nat.mod_eq_of_lt (by omega)
  simp [nextBranch, branchId, hone]

/-- Up to `t` the reset test fails, at `t + 1` it succeeds. -/
theorem reset_iff (hlo : 1 ≤ c) (hhi : c ≤ t + 1) : c % (t + 1) = 0 ↔ c = t + 1 := by
  obtain rfl | hlt := Nat.eq_or_lt_of_le hhi
  · simp
  · rw [Nat.mod_eq_of_lt hlt]
    omega

/-- Counting one further around the cycle. -/
theorem succ_mod (ht : 1 ≤ t) (q : Nat) :
    (q + 1) % t + 1 = if q % t + 1 + 1 = t + 1 then 1 else q % t + 1 + 1 := by
  have hlt := Nat.mod_lt q ht
  rw [← Nat.mod_add_mod q t 1]
  by_cases hlast : q % t + 1 = t
  · rw [hlast, Nat.mod_self, if_pos rfl]
  · rw [Nat.mod_eq_of_lt (by omega), if_neg (by omega)]

/-- One pass takes the id of an element to the id of the next. -/
theorem nextBranch_succ (ht : 1 ≤ t) (s i : Nat) :
    nextBranch t s (i + 1) (branchId t s i) = branchId t s (i + 1) := by
  obtain ⟨hlo, hhi⟩ := Set.mem_Icc.mp (branchId_mem ht s i)
  by_cases hstart : s ∣ i + 1
  · -- a block starts
    have hdiv : (i + 1) / s = i / s + 1 := by rw [Nat.succ_div, if_pos hstart]
    have hreset := reset_iff (c := branchId t s i + 1) (t := t) (by omega) (by omega)
    simp only [nextBranch, Nat.mod_eq_zero_of_dvd hstart, if_true, hreset]
    rw [branchId, branchId, hdiv, succ_mod ht]
  · have hdiv : (i + 1) / s = i / s := by rw [Nat.succ_div, if_neg hstart, Nat.add_zero]
    have hno : ¬ branchId t s i % (t + 1) = 0 := by
      rw [reset_iff hlo (by omega)]
      omega
    simp only [nextBranch, if_neg (mt Nat.dvd_of_mod_eq_zero hstart), if_neg hno]
    rw [branchId, branchId, hdiv]

/-- `(float)n`: 24 significant bits, to nearest, halves to even. -/
def single (n : Nat) : Nat :=
  let ulp := 2 ^ (n.log2 - 23)
  let q := n / ulp
  let r := n % ulp
  ulp * (if ulp < 2 * r ∨ (2 * r = ulp ∧ q % 2 = 1) then q + 1 else q)

/-- Ids of up to 24 bits are converted exactly. -/
theorem single_of_lt (h : n < 2 ^ 24) : single n = n := by
  have hlog : n.log2 - 23 = 0 := by
    obtain rfl | hpos := Nat.eq_zero_or_pos n
    · rfl
    · have := (Nat.log2_lt hpos.ne').mpr h
      omega
  simp [single, hlog, Nat.mod_one]

variable {F : Type _} (toFloat : Nat → F)

/-- One pass of the loop, `toFloat` being the conversion `(float)`. -/
def fillPass (branchtypes branchsize : Nat) (p : Nat × Buffer F) (i : Nat) :
    Except Fault (Nat × Buffer F) := do
  let curbranch := nextBranch branchtypes branchsize i p.1
  let branchSelector ← p.2.write i (toFloat curbranch)
  pure (curbranch, branchSelector)

/-- `for(int i = 0; i<BPSIZE; ++i)`, `curbranch` starting at `0` -/
def fillSelector (bpSize branchtypes branchsize : Nat) (branchSelector : Buffer F) :
    Except Fault (Buffer F) := do
  let p ← (List.range bpSize).foldlM (fillPass toFloat branchtypes branchsize) (0, branchSelector)
  pure p.2

/-- After `n` passes the first `n` elements are set and `curbranch` is the id
of the last of them. -/
structure Filled (t s n : Nat) (p : Nat × Buffer F) : Prop where
  cells : ∀ i < n, p.2.cell i = some (toFloat (branchId t s i))
  last : ∀ i, n = i + 1 → p.1 = branchId t s i
  first : n = 0 → p.1 = 0

/-- The step: one pass sets one more element. -/
theorem Filled.pass {toFloat : Nat → F} {p : Nat × Buffer F} (h : Filled toFloat t s n p)
    (ht : 1 ≤ t) (hn : n < p.2.size) :
    ∃ p', fillPass toFloat t s p n = .ok p' ∧ p'.2.size = p.2.size ∧
      Filled toFloat t s (n + 1) p' := by
  have hnext : nextBranch t s n p.1 = branchId t s n := by
    cases n with
    | zero => rw [h.first rfl, nextBranch_zero ht]
    | succ i => rw [h.last i rfl, nextBranch_succ ht]
  refine ⟨(branchId t s n, p.2.set n (toFloat (branchId t s n))), ?_, by simp, ?_, ?_, by simp⟩
  · rw [fillPass, hnext, Buffer.write_of_lt _ hn]
    rfl
  · intro i hi
    by_cases heq : i = n
    · rw [heq, Buffer.cell_set_self _ hn]
    · rw [Buffer.cell_set_of_ne _ heq, h.cells i (by omega)]
  · intro i hi
    obtain rfl : n = i := by omega
    rfl

/-- The run: all passes. -/
theorem filled_passes (ht : 1 ≤ t) (s : Nat) (b : Buffer F) :
    ∃ p, (List.range b.size).foldlM (fillPass toFloat t s) (0, b) = .ok p ∧ p.2.size = b.size ∧
      Filled toFloat t s b.size p := by
  refine foldlM_range_of_invariant (fun n p => p.2.size = b.size ∧ Filled toFloat t s n p)
    ⟨rfl, by simp, by simp, by simp⟩ fun n hn p ⟨hsize, hfilled⟩ => ?_
  obtain ⟨p', hpass, hsize', hfilled'⟩ := hfilled.pass ht (by omega)
  exact ⟨p', hpass, by omega, hfilled'⟩

/-! ## the pattern -/

/-- What the selector holds: the id of every element, block by block the next
id of the cycle, and no values but those of the ids. -/
structure Pattern (bpSize branchtypes branchsize : Nat) (branchSelector : Buffer F) : Prop where
  element : ∀ i < bpSize,
    branchSelector.cell i = some (toFloat (i / branchsize % branchtypes + 1))
  block : ∀ j i, j * branchsize ≤ i → i < (j + 1) * branchsize → i < bpSize →
    branchSelector.cell i = some (toFloat (j % branchtypes + 1))
  ids : Set.image toFloat (Set.Icc 1 branchtypes) =
    {v | ∃ i < bpSize, branchSelector.cell i = some v}

/-- The blocks and the ids follow from the elements. -/
theorem Pattern.of_element {toFloat : Nat → F} {b : Buffer F} (ht : 1 ≤ t) (hs : 1 ≤ s)
    (hts : t * s ≤ n) (h : ∀ i < n, b.cell i = some (toFloat (branchId t s i))) :
    Pattern toFloat n t s b := by
  refine ⟨h, fun j i hlo hhi hi => ?_, Set.ext fun v => ⟨?_, ?_⟩⟩
  · rw [h i hi, branchId_of_block hlo hhi]
  · rintro ⟨k, hk, rfl⟩
    have hlt : (k - 1) * s < n := by
      calc (k - 1) * s < k * s := Nat.mul_lt_mul_of_pos_right (by grind) hs
        _ ≤ t * s := Nat.mul_le_mul_right s hk.2
        _ ≤ n := hts
    exact ⟨(k - 1) * s, hlt, by rw [h _ hlt, branchId_start hs hk]⟩
  · rintro ⟨i, hi, hv⟩
    rw [h i hi] at hv
    exact ⟨branchId t s i, branchId_mem ht s i, Option.some.inj hv⟩

/-- **The selector pattern**: whatever the array held before, the loop leaves
`i / s % t + 1`, converted to a float, in element `i`; blocks of `s` elements are
constant, their values cycle through the floats of `1, …, t`, and exactly these
occur.  With `t` below `2 ^ 24` they are the ids themselves (`Pattern.exact`). -/
theorem fillSelector_pattern {b : Buffer F} (ht : 1 ≤ t) (hs : 1 ≤ s)
    (hts : t * s ≤ b.size) :
    ∃ b', fillSelector toFloat b.size t s b = .ok b' ∧ b'.size = b.size ∧
      Pattern toFloat b.size t s b' := by
  obtain ⟨p, hrun, hsize, hfilled⟩ := filled_passes toFloat ht s b
  refine ⟨p.2, ?_, hsize, .of_element ht hs hts hfilled.cells⟩
  rw [fillSelector, hrun]
  rfl

/-- The shipped length, three ids, blocks of five. -/
theorem fillSelector_pattern_five :
    3 * 5 ≤ (Buffer.alloc Nat 128).size ∧
      ∃ b', fillSelector single 128 3 5 (Buffer.alloc Nat 128) = .ok b' ∧ b'.size = 128 ∧
        Pattern single 128 3 5 b' :=
  ⟨by decide, fillSelector_pattern single (b := Buffer.alloc Nat 128) (by decide) (by decide)
    (by decide)⟩

/-- Two elements hold the same value when their ids are equal, and with a
conversion that tells the ids apart only then. -/
theorem Pattern.cell_eq_iff {toFloat : Nat → F} {b : Buffer F} (h : Pattern toFloat n t s b)
    (ht : 1 ≤ t) (hinj : Set.InjOn toFloat (Set.Icc 1 t)) (hi : i < n) (hj : j < n) :
    b.cell i = b.cell j ↔ branchId t s i = branchId t s j := by
  rw [h.element i hi, h.element j hj, Option.some_inj]
  exact hinj.eq_iff (branchId_mem ht s i) (branchId_mem ht s j)

/-- With up to 24 bits the array holds the ids themselves. -/
theorem Pattern.exact {b : Buffer Nat} (h : Pattern single n t s b) (ht : 1 ≤ t)
    (hbits : t < 2 ^ 24) (hi : i < n) : b.cell i = some (branchId t s i) := by
  have hle := (branchId_mem ht s i).2
  have hexact : single (branchId t s i) = branchId t s i := single_of_lt (by omega)
  rw [h.element i hi, ← branchId, hexact]

/-! ## all measurements -/

/-- The two outer loops: `branchtypes` and `branchsize` of every measurement. -/
def sweep (bpSize : Nat) : List (Nat × Nat) :=
  (List.range' 1 bpSize).flatMap fun branchtypes =>
    (List.range' 1 (bpSize / branchtypes)).map fun branchsize => (branchtypes, branchsize)

/-- The benchmark measures exactly the patterns that fit the array. -/
theorem mem_sweep : (t, s) ∈ sweep n ↔ 1 ≤ t ∧ 1 ≤ s ∧ t * s ≤ n := by
  simp only [sweep, List.mem_flatMap, List.mem_map, List.mem_range'_1, Prod.mk.injEq]
  constructor
  · rintro ⟨t, ⟨ht, -⟩, s, ⟨hs, hlt⟩, rfl, rfl⟩
    have hle : s ≤ n / t := by omega
    rw [Nat.le_div_iff_mul_le ht, Nat.mul_comm] at hle
    exact ⟨ht, hs, hle⟩
  · rintro ⟨ht, hs, hts⟩
    have htn : t ≤ n := (Nat.le_mul_of_pos_right t hs).trans hts
    have hle : s ≤ n / t := by rwa [Nat.le_div_iff_mul_le ht, Nat.mul_comm]
    exact ⟨t, ⟨ht, by omega⟩, s, ⟨hs, by omega⟩, rfl, rfl⟩

/-- What the measurements send to the device one after another; each fills the
array its predecessor has left. -/
def sweepWrites (bpSize : Nat) : List (Nat × Nat) → Buffer F → Except Fault (List (Buffer F))
  | [], _ => .ok []
  | (branchtypes, branchsize) :: ps, branchSelector => do
      let branchSelector ← fillSelector toFloat bpSize branchtypes branchsize branchSelector
      let later ← sweepWrites bpSize ps branchSelector
      pure (branchSelector :: later)

theorem fillSelector_of_mem (b : Buffer F) (hp : p ∈ sweep b.size) :
    ∃ b', fillSelector toFloat b.size p.1 p.2 b = .ok b' ∧ b'.size = b.size ∧
      Pattern toFloat b.size p.1 p.2 b' := by
  obtain ⟨ht, hs, hts⟩ := mem_sweep.mp hp
  obtain ⟨⟨_, b'⟩, hpasses, hsize, hfilled⟩ := filled_passes toFloat ht p.2 b
  refine ⟨b', ?_, hsize, .of_element ht hs hts hfilled.cells⟩
  rw [fillSelector, hpasses]
  rfl

theorem sweepWrites_of_mem (ps : List (Nat × Nat)) (b : Buffer F)
    (hps : ∀ p ∈ ps, p ∈ sweep b.size) :
    ∃ bs, sweepWrites toFloat b.size ps b = .ok bs ∧
      List.Forall₂ (fun p b' => Pattern toFloat b.size p.1 p.2 b') ps bs := by
  induction ps generalizing b with
  | nil => exact ⟨[], rfl, .nil⟩
  | cons p ps ih =>
      obtain ⟨b', hfill, hsize, hpattern⟩ := fillSelector_of_mem toFloat b (hps p (by simp))
      obtain ⟨bs, hlater, hpatterns⟩ := ih b' fun q hq => by
        rw [hsize]
        exact hps q (by simp [hq])
      rw [hsize] at hlater hpatterns
      refine ⟨b' :: bs, ?_, .cons hpattern hpatterns⟩
      simp only [sweepWrites, hfill, hlater, Bind.bind, Except.bind, pure, Except.pure]

/-- **The whole benchmark**: every measurement sends the pattern of its own
`branchtypes` and `branchsize`. -/
theorem sweepWrites_pattern (b : Buffer F) :
    ∃ bs, sweepWrites toFloat b.size (sweep b.size) b = .ok bs ∧
      List.Forall₂ (fun p b' => Pattern toFloat b.size p.1 p.2 b') (sweep b.size) bs :=
  sweepWrites_of_mem toFloat _ b fun _ h => h

end UclBench.BranchPenalty
