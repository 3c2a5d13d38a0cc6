import Mathlib.Algebra.Order.Monoid.Defs
import Mathlib.Algebra.Ring.Nat
import Mathlib.Tactic.NthRewrite
import Mathlib.Tactic.Set

/-!
# UclBench.ClLib.Timing

The clock of the benchmarks (`gettimeofday`, `current_msecs` and `elapsed_msecs`
of `clcommon.cpp`).

A `long` has `w` bits.  With 32 of them the milliseconds of the epoch do not fit;
`toNat_elapsedMsecs` shows that the difference of two of them is right all the
same, and `elapsedMsecs_accurate` how far it is from the time that has gone by.
-/

namespace UclBench.ClLib

/-- `FILETIME`: the time in units of 100 nanoseconds, in two halves. -/
structure FileTime where
  dwHighDateTime : BitVec 32
  dwLowDateTime : BitVec 32

def FileTime.ticks (ft : FileTime) : Nat := ft.dwHighDateTime.toNat * 2 ^ 32 + ft.dwLowDateTime.toNat

/-- `DELTA_EPOCH_IN_MICROSECS`: from 1601 to 1970 -/
def deltaEpoch : BitVec 64 := 11644473600000000#64

/-- `struct timeval` -/
structure TimeVal (w : Nat) where
  tv_sec : BitVec w
  tv_usec : BitVec w

section
variable (w : Nat)

/-- `gettimeofday` -/
def gettimeofday (ft : FileTime) : TimeVal w :=
  let tmpres := 0#64
  let tmpres := tmpres ||| ft.dwHighDateTime.setWidth 64
  let tmpres := tmpres <<< 32
  let tmpres := tmpres ||| ft.dwLowDateTime.setWidth 64
  let tmpres := tmpres / 10#64
  let tmpres := tmpres - deltaEpoch
  ⟨(tmpres / 1000000#64).setWidth w, (tmpres % 1000000#64).setWidth w⟩

/-- `current_msecs`; the multiplication may wrap around. -/
def currentMsecs (ft : FileTime) : BitVec w :=
  let current := gettimeofday w ft
  current.tv_sec * 1000#w + current.tv_usec.sdiv 1000#w

/-- `elapsed_msecs`, called at `now` -/
def elapsedMsecs (startMsecs : BitVec w) (now : FileTime) : BitVec w := currentMsecs w now - startMsecs

end

/-! ## milliseconds -/

/-- The milliseconds since 1970. -/
def FileTime.msecs (ft : FileTime) : Nat := (ft.ticks / 10 - 11644473600000000) / 1000

/-- Not before 1970. -/
def FileTime.InEpoch (ft : FileTime) : Prop := 116444736000000000 ≤ ft.ticks

instance (ft : FileTime) : Decidable ft.InEpoch := inferInstanceAs (Decidable (_ ≤ _))

theorem FileTime.ticks_lt (ft : FileTime) : ft.ticks < 2 ^ 64 := by
  have hhigh := ft.dwHighDateTime.isLt
  have hlow := ft.dwLowDateTime.isLt
  unfold ticks
  omega

/-- The two halves side by side. -/
theorem toNat_halves (high low : BitVec 32) :
    (((0#64 ||| high.setWidth 64) <<< 32) ||| low.setWidth 64).toNat =
      high.toNat * 2 ^ 32 + low.toNat := by
  have hhigh := high.isLt
  have hlow := low.isLt
  have hshift : ((0#64 ||| high.setWidth 64) <<< 32).toNat = high.toNat <<< 32 := by
    rw [BitVec.zero_or, BitVec.toNat_shiftLeft, BitVec.toNat_setWidth, Nat.mod_eq_of_lt (by omega),
      Nat.mod_eq_of_lt (by omega)]
  rw [BitVec.toNat_or, hshift, BitVec.toNat_setWidth, Nat.mod_eq_of_lt (by omega),
    ← Nat.shiftLeft_add_eq_or_of_lt hlow, Nat.shiftLeft_eq]

theorem setWidth_div (w : Nat) (x y : BitVec 64) :
    (x / y).setWidth w = BitVec.ofNat w (x.toNat / y.toNat) := by
  rw [← BitVec.ofNat_toNat, BitVec.toNat_udiv]

theorem setWidth_mod (w : Nat) (x y : BitVec 64) :
    (x % y).setWidth w = BitVec.ofNat w (x.toNat % y.toNat) := by
  rw [← BitVec.ofNat_toNat, BitVec.toNat_umod]

theorem gettimeofday_eq (w : Nat) {ft : FileTime} (h : ft.InEpoch) :
    let u := ft.ticks / 10 - 11644473600000000
    gettimeofday w ft = ⟨BitVec.ofNat w (u / 1000000), BitVec.ofNat w (u % 1000000)⟩ := by
  have hlt := ft.ticks_lt
  unfold FileTime.InEpoch at h
  set tmpres := (((0#64 ||| ft.dwHighDateTime.setWidth 64) <<< 32) ||| ft.dwLowDateTime.setWidth 64) /
    10#64 - deltaEpoch with htmpres
  have hmicros : tmpres.toNat = ft.ticks / 10 - 11644473600000000 := by
    rw [htmpres, BitVec.toNat_sub, BitVec.toNat_udiv, toNat_halves, ← FileTime.ticks]
    simp only [deltaEpoch, BitVec.toNat_ofNat, Nat.reducePow, Nat.reduceMod]
    omega
  dsimp only
  rw [← hmicros, gettimeofday, setWidth_div, setWidth_mod]
  rfl

/-- Dividing a small number is not affected by the sign. -/
theorem sdiv_ofNat {w x y : Nat} (hx : 2 * x < 2 ^ w) (hy : 2 * y < 2 ^ w) :
    (BitVec.ofNat w x).sdiv (BitVec.ofNat w y) = BitVec.ofNat w (x / y) := by
  have hnat {z : Nat} (hz : 2 * z < 2 ^ w) : (BitVec.ofNat w z).toNat = z :=
    Nat.mod_eq_of_lt (by omega)
  have hmsb {z : Nat} (hz : 2 * z < 2 ^ w) : (BitVec.ofNat w z).msb = false := by
    rwa [BitVec.msb_eq_false_iff_two_mul_lt, hnat hz]
  rw [BitVec.sdiv_eq, hmsb hx, hmsb hy]
  refine BitVec.eq_of_toNat_eq ?_
  rw [BitVec.udiv_eq, BitVec.toNat_udiv, hnat hx, hnat hy, hnat]
  exact (Nat.mul_le_mul_left 2 (Nat.div_le_self x y)).trans_lt hx

theorem currentMsecs_eq {w : Nat} (hw : 32 ≤ w) {ft : FileTime} (h : ft.InEpoch) :
    currentMsecs w ft = BitVec.ofNat w ft.msecs := by
  have hword : 2 ^ 32 ≤ 2 ^ w := Nat.pow_le_pow_right (by decide) hw
  rw [currentMsecs, gettimeofday_eq w h]
  dsimp only
  rw [sdiv_ofNat (by omega) (by omega), BitVec.ofNat_mul_ofNat, BitVec.ofNat_add_ofNat,
    FileTime.msecs]
  congr 1
  omega

/-! ## differences -/

section
variable {w : Nat} {start now : FileTime}

/-- The difference is that of the milliseconds, in `w` bits. -/
theorem toNat_elapsedMsecs (hw : 32 ≤ w) (hstart : start.InEpoch) (hle : start.ticks ≤ now.ticks) :
    (elapsedMsecs w (currentMsecs w start) now).toNat = (now.msecs - start.msecs) % 2 ^ w := by
  have hmsecs : start.msecs ≤ now.msecs := by
    unfold FileTime.msecs
    omega
  rw [elapsedMsecs, currentMsecs_eq hw hstart, currentMsecs_eq hw (hstart.trans hle)]
  nth_rewrite 1 [← Nat.add_sub_cancel' hmsecs]
  rw [BitVec.ofNat_add, BitVec.add_comm, BitVec.add_sub_cancel, BitVec.toNat_ofNat]

/-- **The clock**: from 1970 on, whether or not the milliseconds of the epoch fit a `long`, what
is measured is less than a millisecond away from the time that has gone by, as long as this fits
one. -/
theorem elapsedMsecs_accurate (hw : 32 ≤ w) (hstart : start.InEpoch) (hle : start.ticks ≤ now.ticks)
    (hshort : now.ticks - start.ticks < 10000 * (2 ^ w - 1)) :
    let e := (elapsedMsecs w (currentMsecs w start) now).toNat
    now.ticks - start.ticks < 10000 * (e + 1) ∧ 10000 * e < now.ticks - start.ticks + 10000 := by
  have hdiff : now.msecs - start.msecs < 2 ^ w := by
    unfold FileTime.msecs
    omega
  dsimp only
  rw [toNat_elapsedMsecs hw hstart hle, Nat.mod_eq_of_lt hdiff]
  unfold FileTime.InEpoch at hstart
  unfold FileTime.msecs
  omega

end

/-- Two seconds in 2011, with a `long` of 32 bits. -/
theorem elapsedMsecs_accurate_two :
    let start : FileTime := ⟨30120000#32, 0#32⟩
    let now : FileTime := ⟨30120000#32, 20000000#32⟩
    let e := (elapsedMsecs 32 (currentMsecs 32 start) now).toNat
    2 ^ 32 ≤ start.msecs ∧ 20000000 < 10000 * (e + 1) ∧ 10000 * e < 20000000 + 10000 := by
  have h := @elapsedMsecs_accurate 32 ⟨30120000#32, 0#32⟩ ⟨30120000#32, 20000000#32⟩ (by decide)
    (by decide) (by decide) (by decide)
  exact ⟨by decide, h⟩

end UclBench.ClLib
