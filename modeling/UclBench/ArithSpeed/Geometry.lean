import UclBench.Loop
import Mathlib.Algebra.Order.Ring.Nat
import Mathlib.Data.Nat.Size
import Mathlib.Tactic.ByContra

/-!
# UclBench.ArithSpeed.Geometry

The launch shape of the multi-item runs (`main` of `arith_speed.cpp`).

The local size and the number of work items start at what the options and the
device say, and are halved together until the buffers fit.  Nothing ties the
two truncations to each other, stops at a local size of one, or leaves the loop
when not even an empty launch fits; `legalLaunch_iff` says for which inputs
none of this matters.  Sizes are `size_t`, so products are taken modulo 2^64.
-/

namespace UclBench.ArithSpeed

/-- What the loop reads of the device. -/
structure Device where
  /-- `max_work_item_sizes[0]` -/
  maxWorkItemSize : Nat
  maxComputeUnits : Nat
  globalMemSize : Nat
  maxWorkItemSize_pos : 0 < maxWorkItemSize
  maxComputeUnits_pos : 0 < maxComputeUnits

/-- `atoi(...)` stored in a `size_t`: a negative option value becomes a huge one. -/
def sizeOfOption (v : Int) : Nat := (v % 2 ^ 64).toNat

/-- `maxLocal`, for `--local` -/
def maxLocal (d : Device) (localA : Int) : Nat :=
  if 0 < sizeOfOption localA ∧ sizeOfOption localA ≤ d.maxWorkItemSize then sizeOfOption localA
  else d.maxWorkItemSize

/-- `maxGlobal`, for `--groups` -/
def maxGlobal (d : Device) (localA blocksA : Int) : Nat :=
  (if 0 < sizeOfOption blocksA then sizeOfOption blocksA else d.maxComputeUnits) *
    maxLocal d localA % 2 ^ 64

/-- `memory` -/
def Device.memory (d : Device) : Nat := d.globalMemSize / 1024

/-- `(global + 2) * sizeof(T) * vec`, for `bytes = sizeof(T)` -/
def needed (bytes vec global : Nat) : Nat := (global + 2) * bytes * vec % 2 ^ 64

/-- `global` and `local` -/
structure Shape where
  global : Nat
  localSize : Nat
  deriving DecidableEq, Repr

/-- One pass of `while((global + 2) * sizeof(T) * vec > memory)`. -/
def reducePass (memory bytes vec : Nat) (s : Shape) : Except Fault (Pass Shape Shape) :=
  if memory < needed bytes vec s.global then .ok (.again ⟨s.global / 2, s.localSize / 2⟩)
  else .ok (.leave s)

/-- The shape of the launch. -/
def launchShape (fuel : Nat) (d : Device) (localA blocksA : Int) (bytes vec : Nat) :
    Except Fault Shape :=
  runLoop (reducePass d.memory bytes vec) fuel ⟨maxGlobal d localA blocksA, maxLocal d localA⟩

/-- A shape that can be enqueued, and fits. -/
structure Shape.Legal (memory bytes vec : Nat) (s : Shape) : Prop where
  local_pos : 1 ≤ s.localSize
  global_pos : 1 ≤ s.global
  dvd : s.localSize ∣ s.global
  fits : (s.global + 2) * bytes * vec ≤ memory

/-- The loop ends, in a legal shape. -/
def LegalLaunch (d : Device) (localA blocksA : Int) (bytes vec : Nat) : Prop :=
  ∃ (s : Shape) (bound : Nat),
    (∀ fuel, bound ≤ fuel → launchShape fuel d localA blocksA bytes vec = .ok s) ∧
    s.Legal d.memory bytes vec

/-! ## halvings -/

/-- The shape after `k` halvings. -/
def halved (s : Shape) (k : Nat) : Shape := ⟨s.global / 2 ^ k, s.localSize / 2 ^ k⟩

section
variable {memory bytes vec fuel k : Nat} {s r : Shape}

@[simp] theorem halved_zero : halved s 0 = s := by
  simp [halved]

theorem halved_succ (s : Shape) (k : Nat) :
    halved s (k + 1) = ⟨(halved s k).global / 2, (halved s k).localSize / 2⟩ := by
  simp [halved, Nat.pow_succ, Nat.div_div_eq_div_mul]

/-- The loop halves as long as the launch does not fit. -/
theorem runLoop_reduce (hbig : ∀ j < k, memory < needed bytes vec (halved s j).global)
    (hfits : needed bytes vec (halved s k).global ≤ memory) (hfuel : k < fuel) :
    runLoop (reducePass memory bytes vec) fuel s = .ok (halved s k) := by
  have hloop := runLoop_of_passes (reducePass memory bytes vec) fuel (halved s) k
    (r := halved s k)
    (fun j hj => by rw [reducePass, if_pos (hbig j hj), halved_succ])
    (by rw [reducePass, if_neg (not_lt.mpr hfits)]) hfuel
  rwa [halved_zero] at hloop

/-- Whenever it ends, it ends so. -/
theorem exists_halved (h : runLoop (reducePass memory bytes vec) fuel (halved s k) = .ok r)
    (hbig : ∀ j < k, memory < needed bytes vec (halved s j).global) :
    ∃ n, r = halved s n ∧ needed bytes vec (halved s n).global ≤ memory ∧
      ∀ j < n, memory < needed bytes vec (halved s j).global := by
  induction fuel generalizing k with
  | zero => contradiction
  | succ fuel ih =>
      by_cases hfits : memory < needed bytes vec (halved s k).global
      · have hagain : reducePass memory bytes vec (halved s k) = .ok (.again (halved s (k + 1))) := by
          rw [reducePass, if_pos hfits, halved_succ]
        rw [runLoop_again hagain] at h
        exact ih h (Nat.forall_lt_succ_right.mpr ⟨hbig, hfits⟩)
      · have hleave : reducePass memory bytes vec (halved s k) = .ok (.leave (halved s k)) := by
          rw [reducePass, if_neg hfits]
        rw [runLoop_leave hleave] at h
        exact ⟨k, (Except.ok.inj h).symm, not_lt.mp hfits, hbig⟩

end

/-! ## the sizes for which it works -/

section
variable (d : Device) (localA blocksA : Int) (bytes vec : Nat)

/-- The elements of `bytes * vec` bytes that the memory holds. -/
def capacity : Nat := d.memory / (bytes * vec)

/-- The halvings that `maxGlobal` needs. -/
def halvings : Nat := (maxGlobal d localA blocksA / (capacity d bytes vec - 1)).size

/-- An empty launch is not all that fits, the local size stands the halvings and
divides what they leave of `maxGlobal`, and no product on the way wraps around. -/
structure Reducible : Prop where
  room : 3 ≤ capacity d bytes vec
  global_pos : 1 ≤ maxGlobal d localA blocksA
  local_large : 2 ^ halvings d localA blocksA bytes vec ≤ maxLocal d localA
  dvd : maxLocal d localA / 2 ^ halvings d localA blocksA bytes vec ∣
    maxGlobal d localA blocksA / 2 ^ halvings d localA blocksA bytes vec
  no_wrap : ∀ j < halvings d localA blocksA bytes vec,
    d.memory < needed bytes vec (maxGlobal d localA blocksA / 2 ^ j)

end

section
variable {d : Device} {localA blocksA : Int} {bytes vec : Nat}

theorem fits_iff_le_capacity (hbytes : 0 < bytes) (hvec : 0 < vec) (global : Nat) :
    (global + 2) * bytes * vec ≤ d.memory ↔ global + 2 ≤ capacity d bytes vec := by
  rw [capacity, Nat.le_div_iff_mul_le (Nat.mul_pos hbytes hvec), Nat.mul_assoc]

/-- Exactly `halvings` of them are enough. -/
theorem fits_iff_halvings_le (localA blocksA : Int) (hbytes : 0 < bytes) (hvec : 0 < vec)
    (hroom : 3 ≤ capacity d bytes vec) (k : Nat) :
    (maxGlobal d localA blocksA / 2 ^ k + 2) * bytes * vec ≤ d.memory ↔
      halvings d localA blocksA bytes vec ≤ k := by
  rw [fits_iff_le_capacity hbytes hvec, halvings, Nat.size_le,
    Nat.div_lt_iff_lt_mul (by omega : 0 < capacity d bytes vec - 1), Nat.mul_comm,
    ← Nat.div_lt_iff_lt_mul (Nat.two_pow_pos k)]
  omega

/-- The number of halvings after which the loop stops. -/
theorem halvings_eq (hbytes : 0 < bytes) (hvec : 0 < vec) (hroom : 3 ≤ capacity d bytes vec) {k : Nat}
    (hfits : (maxGlobal d localA blocksA / 2 ^ k + 2) * bytes * vec ≤ d.memory)
    (hbig : ∀ j < k, d.memory < needed bytes vec (maxGlobal d localA blocksA / 2 ^ j)) :
    halvings d localA blocksA bytes vec = k := by
  apply Nat.le_antisymm ((fits_iff_halvings_le localA blocksA hbytes hvec hroom k).mp hfits)
  by_contra hlt
  have hearly := (fits_iff_halvings_le localA blocksA hbytes hvec hroom _).mpr (Nat.le_refl _)
  exact absurd ((Nat.mod_le _ _).trans hearly) (not_le.mpr (hbig _ (not_le.mp hlt)))

/-- The halvings leave something of `maxGlobal`. -/
theorem Reducible.global_large (h : Reducible d localA blocksA bytes vec) :
    2 ^ halvings d localA blocksA bytes vec ≤ maxGlobal d localA blocksA := by
  have hroom := h.room
  have hpos := h.global_pos
  cases hk : halvings d localA blocksA bytes vec with
  | zero => simpa using hpos
  | succ k =>
      -- one halving fewer does not do, and the capacity is at least three
      have hlt : k < halvings d localA blocksA bytes vec := by omega
      rw [halvings, Nat.lt_size, Nat.le_div_iff_mul_le (by omega)] at hlt
      have htwo : 2 ^ k * 2 ≤ 2 ^ k * (capacity d bytes vec - 1) :=
        Nat.mul_le_mul_left _ (by omega)
      rw [Nat.pow_succ]
      omega

/-- **Launch geometry**: for every device, option values, element size and
vector width. -/
theorem legalLaunch_iff (hbytes : 0 < bytes) (hvec : 0 < vec) :
    LegalLaunch d localA blocksA bytes vec ↔ Reducible d localA blocksA bytes vec := by
  constructor
  · rintro ⟨s, bound, hrun, hlegal⟩
    have hstart := hrun bound (Nat.le_refl _)
    rw [launchShape, ← halved_zero (s := ⟨maxGlobal d localA blocksA, maxLocal d localA⟩)] at hstart
    obtain ⟨k, rfl, -, hbig⟩ := exists_halved hstart (by simp)
    have hglobal : 1 ≤ maxGlobal d localA blocksA / 2 ^ k := hlegal.global_pos
    have hlocal : 1 ≤ maxLocal d localA / 2 ^ k := hlegal.local_pos
    have hfits : (maxGlobal d localA blocksA / 2 ^ k + 2) * bytes * vec ≤ d.memory := hlegal.fits
    have hroom : 3 ≤ capacity d bytes vec := by
      rw [fits_iff_le_capacity hbytes hvec] at hfits
      omega
    have hk := halvings_eq hbytes hvec hroom hfits hbig
    exact {
      room := hroom
      global_pos := hglobal.trans (Nat.div_le_self _ _)
      local_large := hk ▸ (Nat.one_le_div_iff (Nat.two_pow_pos k)).mp hlocal
      dvd := hk ▸ hlegal.dvd
      no_wrap := hk ▸ hbig }
  · intro h
    have hfits := (fits_iff_halvings_le localA blocksA hbytes hvec h.room _).mpr (Nat.le_refl _)
    refine ⟨halved ⟨maxGlobal d localA blocksA, maxLocal d localA⟩
      (halvings d localA blocksA bytes vec), halvings d localA blocksA bytes vec + 1,
      fun fuel hf => runLoop_reduce h.no_wrap ((Nat.mod_le _ _).trans hfits) (by omega), ?_⟩
    exact {
      local_pos := (Nat.one_le_div_iff (Nat.two_pow_pos _)).mpr h.local_large
      global_pos := (Nat.one_le_div_iff (Nat.two_pow_pos _)).mpr h.global_large
      dvd := h.dvd
      fits := hfits }

end

/-- A device of powers of two throughout. -/
def plainDevice : Device := ⟨1024, 16, 2 ^ 30, by decide, by decide⟩

/-- The default options on it, single precision at width 16: one halving. -/
theorem legalLaunch_iff_plain : 0 < 4 ∧ 0 < 16 ∧ LegalLaunch plainDevice 0 0 4 16 := by
  have hhalvings : halvings plainDevice 0 0 4 16 = 1 := Nat.size_one
  refine ⟨by decide, by decide, (legalLaunch_iff (by decide) (by decide)).mpr ⟨?_, ?_, ?_, ?_, ?_⟩⟩
  · decide
  · decide
  · rw [hhalvings]
    decide
  · rw [hhalvings]
    decide
  · rw [hhalvings]
    decide

/-- `--local=1 --groups=32768` at width 16: two halvings, and the local size is zero. -/
theorem launch_fails_groups :
    launchShape 3 plainDevice 1 32768 4 16 = .ok ⟨8192, 0⟩ ∧
    ¬ LegalLaunch plainDevice 1 32768 4 16 := by
  have hrun : launchShape 3 plainDevice 1 32768 4 16 = .ok ⟨8192, 0⟩ := by decide
  refine ⟨hrun, ?_⟩
  rintro ⟨s, bound, hs, hlegal⟩
  obtain rfl := runLoop_unique hrun (hs bound (Nat.le_refl _))
  exact absurd hlegal.local_pos (by decide)

end UclBench.ArithSpeed
