import UclBench.BufferBandwidth.Transfer
import Mathlib.Algebra.Order.Field.Rat
import Mathlib.Algebra.BigOperators.Group.List.Basic
import Mathlib.Tactic.Ring

/-!
# UclBench.BufferBandwidth.Repeats

From the statuses of the measurements to the printed figures.

A measurement returns an OpenCL status, `run_benchmark` forwards it, and `main`
gives up a data point when it is positive.  OpenCL errors are negative, so
`main` never does: `figuresSound_iff` says that the figures are what they
should be exactly when no run of the data point fails.

Times are exact, with the not-a-number and the infinity of `double`.
-/

namespace UclBench.BufferBandwidth

/-! ## numbers -/

/-- A `double`, without rounding; times are not negative. -/
inductive Value where
  | nan
  | inf
  | fin (q : ℚ)
  deriving DecidableEq

namespace Value

def add : Value → Value → Value
  | nan, _ | _, nan => nan
  | inf, _ | _, inf => inf
  | fin p, fin q => fin (p + q)

def div : Value → Value → Value
  | nan, _ | _, nan | inf, inf => nan
  | inf, fin _ => inf
  | fin _, inf => fin 0
  | fin p, fin q => if q = 0 then if p = 0 then nan else inf else fin (p / q)

/-- The sum, divided by the number of terms. -/
def mean (l : List Value) : Value := div (l.foldl add (fin 0)) (fin l.length)

@[simp] theorem nan_div (v : Value) : div nan v = nan := by
  cases v <;> rfl

@[simp] theorem div_nan (v : Value) : div v nan = nan := by
  cases v <;> rfl

theorem foldl_add_fin (p : ℚ) (l : List ℚ) : (l.map fin).foldl add (fin p) = fin (p + l.sum) := by
  induction l generalizing p with
  | nil => simp
  | cons q l ih =>
      rw [List.map_cons, List.foldl_cons, List.sum_cons, ← add_assoc]
      exact ih (p + q)

/-- Of finite times, `mean` is the mean. -/
theorem mean_fin {l : List ℚ} (hl : l ≠ []) : mean (l.map fin) = fin (l.sum / l.length) := by
  have hlength : (l.length : ℚ) ≠ 0 := by
    simpa using hl
  rw [mean, foldl_add_fin, List.length_map, div, if_neg hlength, zero_add]

end Value

open Value

/-! ## runs -/

/-- What the three measurements of a run return: a time in milliseconds, or a
status other than `CL_SUCCESS`. -/
structure Run where
  hostToDevice : Except Status Nat
  deviceToHost : Except Status Nat
  deviceToDevice : Except Status Nat

/-- `(time/1000.0) / (double)iterations` -/
def seconds (msecs iterations : Nat) : Value := div (fin (msecs / 1000)) (fin iterations)

/-- The status and `time_taken` of a run; the entries are set to zero first,
and stay so when a measurement fails.  `main` has four entries (`_time`) and looks
at these; the zeros stored in `time_taken[4]` and `time_taken[5]`, which lie behind
them, are left out. -/
def runBenchmark (iterations : Nat) (r : Run) : Status × (Nat → Value) :=
  let zeroed : Nat → Value := fun _ => fin 0
  match r.hostToDevice with
  | .error err => (err, zeroed)
  | .ok timeH2d =>
      match r.deviceToHost with
      | .error err => (err, zeroed)
      | .ok timeD2h =>
          match r.deviceToDevice with
          | .error err => (err, zeroed)
          | .ok timeD2d =>
              (0, fun m =>
                match m with
                | 1 => seconds timeH2d iterations
                | 2 => seconds timeD2d iterations
                | 3 => seconds timeD2h iterations
                | _ => fin 0)

/-- The loop over the repeats: `time` after it. -/
def sumTimes (iterations : Nat) : List Run → (Nat → Value) → Nat → Value
  | [], time => time
  | r :: runs, time =>
      if 0 < (runBenchmark iterations r).1 then fun _ => nan
      else sumTimes iterations runs fun m => add (time m) ((runBenchmark iterations r).2 m)

/-- `time` of a data point, for the outcomes of its runs. -/
def times (iterations : Nat) (runs : List Run) (m : Nat) : Value :=
  div (sumTimes iterations runs (fun _ => fin 0) m) (fin runs.length)

/-- `(size / time)/1024/1024` -/
def mbps (size : Nat) (time : Value) : Value :=
  div (div (div (fin size) time) (fin 1024)) (fin 1024)

/-- Every measurement succeeded. -/
def Run.Succeeds (r : Run) : Prop := ∀ err, r.hostToDevice ≠ .error err ∧ r.deviceToHost ≠ .error err ∧
  r.deviceToDevice ≠ .error err

/-- OpenCL reports errors as negative numbers. -/
def Run.Negative (r : Run) : Prop := ∀ err, r.hostToDevice = .error err ∨ r.deviceToHost = .error err ∨
  r.deviceToDevice = .error err → err < 0

/-- A data point with a failed run prints no figures; otherwise the figures
come from the mean time. -/
def FiguresSound (iterations size : Nat) (runs : List Run) : Prop :=
  ((∀ r ∈ runs, r.Succeeds) → ∀ m < 4,
    times iterations runs m = mean (runs.map fun r => (runBenchmark iterations r).2 m) ∧
    mbps size (times iterations runs m) =
      mbps size (mean (runs.map fun r => (runBenchmark iterations r).2 m))) ∧
  (¬ (∀ r ∈ runs, r.Succeeds) → ∀ m < 4,
    times iterations runs m = nan ∧ mbps size (times iterations runs m) = nan)

/-! ## the status test -/

/-- The status of a run is never positive. -/
theorem runBenchmark_status {r : Run} (h : r.Negative) (iterations : Nat) :
    ¬ 0 < (runBenchmark iterations r).1 := by
  have hneg (err : Status) (herr : err < 0) : ¬ 0 < err := by
    rw [Int32.lt_iff_toInt_lt] at herr ⊢
    omega
  rw [runBenchmark]
  split
  · next err herr => exact hneg err (h err (.inl herr))
  · split
    · next err herr => exact hneg err (h err (.inr (.inl herr)))
    · split
      · next err herr => exact hneg err (h err (.inr (.inr herr)))
      · exact Int32.lt_irrefl

/-- So the loop adds up whatever the runs leave in their times. -/
theorem sumTimes_eq {runs : List Run} (h : ∀ r ∈ runs, r.Negative) (iterations : Nat)
    (time : Nat → Value) (m : Nat) : sumTimes iterations runs time m =
      (runs.map fun r => (runBenchmark iterations r).2 m).foldl add (time m) := by
  induction runs generalizing time with
  | nil => rfl
  | cons r runs ih =>
      rw [sumTimes, if_neg (runBenchmark_status (h r List.mem_cons_self) iterations),
        ih fun r hr => h r (List.mem_cons_of_mem _ hr)]
      rfl

theorem times_eq_mean {runs : List Run} (h : ∀ r ∈ runs, r.Negative) (iterations m : Nat) :
    times iterations runs m = mean (runs.map fun r => (runBenchmark iterations r).2 m) := by
  rw [times, sumTimes_eq h, mean, List.length_map]

/-- The first entry is zero in every run, failed or not. -/
theorem times_zero {runs : List Run} (h : ∀ r ∈ runs, r.Negative) (hruns : runs ≠ [])
    (iterations : Nat) : times iterations runs 0 = fin 0 := by
  have hfirst (r : Run) : (runBenchmark iterations r).2 0 = fin 0 := by
    rw [runBenchmark]
    split
    · rfl
    · split
      · rfl
      · split <;> rfl
  have hmap : (runs.map fun r => (runBenchmark iterations r).2 0) =
      (runs.map fun _ => (0 : ℚ)).map fin := by
    simp [hfirst]
  rw [times_eq_mean h, hmap, mean_fin (by simpa using hruns)]
  simp

/-- A failed run leaves the first time at zero, where NaN is due. -/
theorem not_figuresSound {runs : List Run} (hneg : ∀ r ∈ runs, r.Negative) (hruns : runs ≠ [])
    (hfail : ¬ ∀ r ∈ runs, r.Succeeds) : ¬ FiguresSound iterations size runs := by
  rintro ⟨-, hnan⟩
  have hzero := (hnan hfail 0 (by decide)).1
  rw [times_zero hneg hruns] at hzero
  contradiction

/-- **Failures**: for every sequence of outcomes, the times and figures of a
data point are sound exactly when all its runs succeed. -/
theorem figuresSound_iff (iterations size : Nat) (runs : List Run) (hruns : runs ≠ [])
    (hneg : ∀ r ∈ runs, r.Negative) :
    FiguresSound iterations size runs ↔ ∀ r ∈ runs, r.Succeeds := by
  constructor
  · intro h
    by_contra hfail
    exact not_figuresSound hneg hruns hfail h
  · intro hall
    refine ⟨fun _ m _ => ?_, fun hfail => absurd hall hfail⟩
    rw [times_eq_mean hneg]
    exact ⟨rfl, rfl⟩

/-- Two repeats that succeed. -/
theorem figuresSound_iff_two :
    [(⟨.ok 40, .ok 50, .ok 20⟩ : Run), ⟨.ok 44, .ok 50, .ok 20⟩] ≠ [] ∧
    FiguresSound 25 4096 [⟨.ok 40, .ok 50, .ok 20⟩, ⟨.ok 44, .ok 50, .ok 20⟩] := by
  refine ⟨by simp, (figuresSound_iff 25 4096 _ (by simp) ?_).mpr ?_⟩
  · simp [Run.Negative]
  · simp [Run.Succeeds]

/-- One run that succeeds, and one whose first measurement fails with
`CL_MEM_OBJECT_ALLOCATION_FAILURE`. -/
theorem figures_fail_second :
    ¬ FiguresSound 25 4096 [⟨.ok 40, .ok 50, .ok 20⟩, ⟨.error (-4), .ok 0, .ok 0⟩] := by
  refine not_figuresSound ?_ (by simp) ?_
  · simp [Run.Negative]
  · simp [Run.Succeeds]

end UclBench.BufferBandwidth
