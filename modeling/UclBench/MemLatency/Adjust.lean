import UclBench.MemLatency.Ring
import Mathlib.Order.Bounds.Defs

/-!
# UclBench.MemLatency.Adjust

The size of the chased buffer: "adjust requested size based on device
capabilities" of `run_latency_benchmark`.

The device limit less 64 bytes bounds the request, and what remains is rounded
down to blocks of 128 elements.  The arithmetic is that of `cl_ulong` (the
subtraction wraps) and the element count that of `unsigned` (the quotient is
cut to 32 bits); `sizeAdjusted_iff` says for which requests and devices that
does not matter.
-/

namespace UclBench.MemLatency

/-- `enum _MEM_TYPE` -/
inductive MemType where
  | global
  | constant
  | local
  deriving DecidableEq, Repr

/-- What the code reads of `_DEVICE_INFO`. -/
structure DeviceInfo where
  /-- `type == CL_DEVICE_TYPE_ACCELERATOR` -/
  accelerator : Bool
  globalMemSize : Nat
  localMemSize : Nat
  maxConstantBufferSize : Nat
  globalMemSize_lt : globalMemSize < 2 ^ 64
  localMemSize_lt : localMemSize < 2 ^ 64
  maxConstantBufferSize_lt : maxConstantBufferSize < 2 ^ 64

/-- The size reported for a memory type. -/
def DeviceInfo.memSize (info : DeviceInfo) : MemType → Nat
  | .global => info.globalMemSize
  | .local => info.localMemSize
  | .constant => info.maxConstantBufferSize

/-- `limit`, a `cl_ulong` -/
def limit (info : DeviceInfo) (mt : MemType) : Nat :=
  let limit := (info.memSize mt + 2 ^ 64 - 64) % 2 ^ 64
  if mt = .local ∧ info.accelerator then limit / 2 else limit

/-- `size` and `num_elems` -/
structure Adjusted where
  size : Nat
  numElems : Nat
  deriving DecidableEq, Repr

/-- From the requested to the final size. -/
def adjust (info : DeviceInfo) (mt : MemType) (size : Nat) : Adjusted :=
  let size := if size > limit info mt then limit info mt else size
  let numElems := size / 4 % 2 ^ 32
  let remainder := numElems % requiredIterationDivisor
  let numElems := numElems - remainder
  ⟨numElems * 4, numElems⟩

/-- The limit without wrap-around. -/
def exactLimit (info : DeviceInfo) (mt : MemType) : Int :=
  if mt = .local ∧ info.accelerator then ((info.memSize mt : Int) - 64) / 2
  else (info.memSize mt : Int) - 64

/-- What the adjustment is for: with room for a block, the largest number of
whole blocks within the request and the limit; otherwise nothing larger than
the memory. -/
def SizeAdjusted (info : DeviceInfo) (mt : MemType) (size : Nat) : Prop :=
  (512 ≤ exactLimit info mt →
    (adjust info mt size).size = 4 * (adjust info mt size).numElems ∧
    IsGreatest {s : Nat | 512 ∣ s ∧ (s : Int) ≤ min (size : Int) (exactLimit info mt)}
      (adjust info mt size).size ∧
    0 < (adjust info mt size).numElems ∧ 128 ∣ (adjust info mt size).numElems) ∧
  (exactLimit info mt < 512 → (adjust info mt size).size ≤ info.memSize mt)

/-! ## the two roundings -/

theorem memSize_lt (info : DeviceInfo) (mt : MemType) : info.memSize mt < 2 ^ 64 := by
  cases mt
  · exact info.globalMemSize_lt
  · exact info.maxConstantBufferSize_lt
  · exact info.localMemSize_lt

/-- From 64 bytes on the subtraction does not wrap. -/
theorem limit_eq {info : DeviceInfo} {mt : MemType} (h : 64 ≤ info.memSize mt) :
    (limit info mt : Int) = exactLimit info mt := by
  have hlt := memSize_lt info mt
  have hsub : (info.memSize mt + 2 ^ 64 - 64) % 2 ^ 64 = info.memSize mt - 64 := by omega
  simp only [limit, exactLimit, hsub]
  split <;> omega

/-- The final size, in blocks. -/
theorem adjust_eq (info : DeviceInfo) (mt : MemType) (size : Nat) :
    adjust info mt size = ⟨512 * (min size (limit info mt) / 4 % 2 ^ 32 / 128),
      128 * (min size (limit info mt) / 4 % 2 ^ 32 / 128)⟩ := by
  have hmin : (if size > limit info mt then limit info mt else size) = min size (limit info mt) := by
    rw [Nat.min_def]
    split <;> split <;> omega
  simp only [adjust, hmin, requiredIterationDivisor, Adjusted.mk.injEq]
  omega

/-- Below 16 GiB the element count is not cut. -/
theorem adjust_size_eq {info : DeviceInfo} {mt : MemType} (h : min size (limit info mt) < 2 ^ 34) :
    (adjust info mt size).size = 512 * (min size (limit info mt) / 512) := by
  rw [adjust_eq]
  dsimp only
  omega

/-! ## agreement -/

/-- `size` fits when the clamped request is below 16 GiB; on a device that
reports less than 64 bytes, when the elements left over after the cut do not
make a block. -/
def Fits (info : DeviceInfo) (mt : MemType) (size : Nat) : Prop :=
  if 64 ≤ info.memSize mt then min size (limit info mt) < 2 ^ 34
  else min size (limit info mt) / 4 % 2 ^ 32 < 128

instance (info : DeviceInfo) (mt : MemType) (size : Nat) : Decidable (Fits info mt size) :=
  inferInstanceAs (Decidable (if 64 ≤ info.memSize mt then min size (limit info mt) < 2 ^ 34
    else min size (limit info mt) / 4 % 2 ^ 32 < 128))

/-- Devices that report less than 64 bytes have no room for a block. -/
theorem sizeAdjusted_of_wrap {info : DeviceInfo} {mt : MemType} (h : info.memSize mt < 64) :
    SizeAdjusted info mt size ↔ min size (limit info mt) / 4 % 2 ^ 32 < 128 := by
  have hlimit : exactLimit info mt < 512 := by
    rw [exactLimit]
    split <;> omega
  rw [SizeAdjusted, adjust_eq]
  constructor
  · rintro ⟨-, hsmall⟩
    have hsize := hsmall hlimit
    dsimp only at hsize
    omega
  · intro hcut
    exact ⟨fun hroom => absurd hroom (not_le.mpr hlimit), fun _ => by dsimp only; omega⟩

theorem sizeAdjusted_of_memSize {info : DeviceInfo} {mt : MemType} (hsize : 512 ≤ size)
    (h : 64 ≤ info.memSize mt) : SizeAdjusted info mt size ↔ min size (limit info mt) < 2 ^ 34 := by
  have hlimit := limit_eq h
  have hmin : min (size : Int) (exactLimit info mt) = (min size (limit info mt) : Nat) := by
    omega
  have hle : exactLimit info mt ≤ info.memSize mt - 64 := by
    rw [exactLimit]
    split <;> omega
  constructor
  · rintro ⟨hroom, -⟩
    by_contra hbig
    -- the final size stays below 16 GiB, where a larger multiple of 512 lies
    obtain ⟨-, ⟨-, hgreatest⟩, -, -⟩ := hroom (by omega)
    have hmem : 512 * (min size (limit info mt) / 512) ≤ (adjust info mt size).size :=
      hgreatest ⟨Nat.dvd_mul_right .., by rw [hmin]; omega⟩
    rw [adjust_eq] at hmem
    dsimp only at hmem
    omega
  · intro hsmall
    have hfinal := adjust_size_eq hsmall
    have hboth : (adjust info mt size).size = 4 * (adjust info mt size).numElems ∧
        128 ∣ (adjust info mt size).numElems := by
      rw [adjust_eq]
      exact ⟨by dsimp only; omega, Nat.dvd_mul_right ..⟩
    refine ⟨fun hroom => ⟨hboth.1, ⟨⟨?_, ?_⟩, ?_⟩, ?_, hboth.2⟩, fun hnone => ?_⟩
    · rw [hfinal]
      exact Nat.dvd_mul_right ..
    · rw [hmin, hfinal]
      omega
    · rintro s ⟨⟨k, rfl⟩, hs⟩
      rw [hmin] at hs
      rw [hfinal]
      omega
    · omega
    · rw [hfinal]
      omega

/-- **Size adjustment**: for every request of at least 512 bytes, every memory
type and every device. -/
theorem sizeAdjusted_iff (info : DeviceInfo) (mt : MemType) (size : Nat) (hsize : 512 ≤ size) :
    SizeAdjusted info mt size ↔ Fits info mt size := by
  rw [Fits]
  split
  · exact sizeAdjusted_of_memSize hsize ‹_›
  · exact sizeAdjusted_of_wrap (by omega)

/-- A device with 32 GiB of global memory, 32 KiB of local memory and 64 KiB of
constant memory. -/
def largeDevice : DeviceInfo := ⟨false, 2 ^ 35, 2 ^ 15, 2 ^ 16, by decide, by decide, by decide⟩

theorem sizeAdjusted_iff_local : 512 ≤ 2 ^ 25 ∧ SizeAdjusted largeDevice .local (2 ^ 25) :=
  ⟨by decide, (sizeAdjusted_iff largeDevice .local (2 ^ 25) (by decide)).mpr (by decide)⟩

/-- A request for 16 GiB is cut to a buffer of no elements. -/
theorem adjust_fails_16G : adjust largeDevice .global (2 ^ 34) = ⟨0, 0⟩ ∧
    ¬ SizeAdjusted largeDevice .global (2 ^ 34) := by
  refine ⟨by decide, fun h => ?_⟩
  rw [sizeAdjusted_of_memSize (by decide) (by decide)] at h
  exact absurd h (by decide)

end UclBench.MemLatency
