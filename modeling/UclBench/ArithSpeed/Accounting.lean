import UclBench.ArithSpeed.Agree
import Mathlib.Tactic.FieldSimp
import Mathlib.Tactic.Ring

/-!
# UclBench.ArithSpeed.Accounting

How many operations a lane performs, how many the check replays, and how many
`main` credits.

* `accounted_iff` — the three counts agree exactly for the multiples of the
  unroll factor whose quotient fits the 32-bit kernel argument.
-/

namespace UclBench.ArithSpeed

open OpenCL Buffer

/-! ## operation counts -/

/-- An entry of `--operations`, from the number and the character `sscanf`
reads; `main` refuses any other suffix. -/
def operationsSize (s : Nat) (suffix : Option Char) : Option Nat :=
  match suffix with
  | none => some (s % 2 ^ 64)
  | some 'K' | some 'k' => some (s * 1024 % 2 ^ 64)
  | some 'M' | some 'm' => some (s * 1024 * 1024 % 2 ^ 64)
  | some _ => none

/-- The throughput `main` prints, in exact arithmetic. -/
def mops (global vec size : Nat) (time : ℚ) : ℚ := global * (size / 1000000) / time * vec

/-- The throughput of `global * vec` lanes that perform `steps` operations
each. -/
def laneMops (global vec steps : Nat) (time : ℚ) : ℚ := global * vec * steps / 1000000 / time

/-- **Operation accounting**: every lane of every work item performs the
operations the check replays, and as many are credited in the printed
throughput. -/
def Accounted (ar : Arith T) (elem : ElemType) (fct : Function) (ftype : FunctionType)
    (vec localSize global size : Nat) : Prop :=
  ∃ r, replay ar fct vec size (prepareData ar fct vec) = .ok r ∧
    (∀ time, mops global vec size time = laneMops global vec r.steps time) ∧
    ∀ gid < global, ∃ w, (∀ fuel, size < fuel →
        runBenchmark ar elem fct ftype vec localSize global size gid fuel = .ok w) ∧
      ∀ j < vec, w.assigned (accName fct j) = r.steps

/-- A lane is credited with `size` operations. -/
theorem mops_eq_laneMops {global vec size steps : Nat} (hglobal : 1 ≤ global) (hvec : 1 ≤ vec) :
    (∀ time, mops global vec size time = laneMops global vec steps time) ↔ steps = size := by
  constructor
  · intro h
    have hone := h 1
    have hg : (global : ℚ) ≠ 0 := by exact_mod_cast (by omega : global ≠ 0)
    have hv : (vec : ℚ) ≠ 0 := by exact_mod_cast (by omega : vec ≠ 0)
    simp only [mops, laneMops, div_one] at hone
    field_simp at hone
    exact_mod_cast hone.symm
  · rintro rfl time
    simp only [mops, laneMops]
    ring

/-! ## replayed operations -/

theorem steps_replayStep (ar : Arith T) {fct : Function} (h : fct ≠ .vliw) (r : Replay T) :
    (replayStep ar fct r).steps = r.steps + 1 := by
  cases fct with
  | vliw => exact absurd rfl h
  | _ => rfl

theorem steps_vliwReplayBlock (ar : Arith T) (vec : Nat) (r : Replay T) :
    (vliwReplayBlock ar vec r).steps = r.steps + 100 := by
  suffices hfold : ∀ (l : List Nat) (r : Replay T), (l.foldl (fun r i =>
      r.assignA (ar.op (vliwReplayOp (vec % 3) i) r.a r.b)) r).steps = r.steps + l.length by
    rw [vliwReplayBlock, hfold, List.length_range]
  intro l
  induction l with
  | nil => exact fun _ => rfl
  | cons i l ih =>
      intro r
      rw [List.foldl_cons, ih, List.length_cons]
      change r.steps + 1 + l.length = _
      omega

/-- Repeating a step that counts. -/
theorem steps_iterate {f : Replay T → Replay T} {n : Nat} (hf : ∀ r, (f r).steps = r.steps + n)
    (k : Nat) (r : Replay T) : (f^[k] r).steps = r.steps + n * k := by
  induction k generalizing r with
  | zero => simp
  | succ k ih => rw [Function.iterate_succ_apply, ih, hf, Nat.mul_add_one]; omega

/-- The replay of `_VLIW` runs in whole blocks; the others count every
operation. -/
theorem steps_replay (ar : Arith T) (fct : Function) {vec : Nat} (hvec : 1 ≤ vec) (size : Nat) :
    ∃ r, replay ar fct vec size (prepareData ar fct vec) = .ok r ∧
      r.steps = match fct with
        | .vliw => 100 * (size / 100)
        | _ => size := by
  refine ⟨_, replay_prepareData ar fct hvec size, ?_⟩
  cases fct with
  | vliw =>
      rw [steps_iterate (steps_vliwReplayBlock ar vec)]
      exact Nat.zero_add _
  | _ =>
      rw [steps_iterate (steps_replayStep ar (by decide)), Nat.one_mul]
      exact Nat.zero_add _

/-! ## the three counts -/

theorem unrollFactor_pos (fct : Function) : 0 < fct.unrollFactor := by
  cases fct <;> decide

theorem iterationsArg_le (fct : Function) (size : Nat) : iterationsArg fct size ≤ size :=
  (Nat.mod_le _ _).trans (Nat.div_le_self _ _)

/-- A truncated 32-bit quotient restores the count exactly when nothing is
lost. -/
theorem iterationsArg_mul_eq (fct : Function) (size : Nat) :
    iterationsArg fct size * fct.unrollFactor = size ↔
      fct.unrollFactor ∣ size ∧ size / fct.unrollFactor < 2 ^ 32 := by
  have hpos := unrollFactor_pos fct
  constructor
  · intro h
    have hquot : size / fct.unrollFactor = iterationsArg fct size := by
      conv_lhs => rw [← h]
      exact Nat.mul_div_cancel _ hpos
    refine ⟨⟨_, by rw [Nat.mul_comm]; exact h.symm⟩, ?_⟩
    rw [hquot]
    exact Nat.mod_lt _ (by decide)
  · rintro ⟨hdvd, hlt⟩
    rw [iterationsArg, Nat.mod_eq_of_lt hlt, Nat.div_mul_cancel hdvd]

/-- **Accounting, exactly**: of the sizes `--operations` accepts, the counts
agree for the multiples of the unroll factor whose quotient fits 32 bits. -/
theorem accounted_iff (ar : Arith T) (elem : ElemType) (fct : Function) (ftype : FunctionType)
    (vec localSize global size : Nat) (hsup : Supported elem fct vec) (hvec : 1 ≤ vec)
    (hglobal : 1 ≤ global) (hlarge : global * vec < 2 ^ 31) :
    Accounted ar elem fct ftype vec localSize global size ↔
      fct.unrollFactor ∣ size ∧ size / fct.unrollFactor < 2 ^ 32 := by
  rw [← iterationsArg_mul_eq]
  constructor
  · rintro ⟨r, -, hcredit, hitems⟩
    obtain ⟨w, hrun, hassigned⟩ := hitems 0 hglobal
    obtain ⟨w', hrun', -, hassigned'⟩ :=
      runBenchmark_ok ar hsup hvec ftype localSize size hglobal hlarge
    have hfuel := Nat.lt_succ_self size
    obtain rfl : w = w' := Except.ok.inj
      ((hrun _ hfuel).symm.trans (hrun' _ ((iterationsArg_le fct size).trans_lt hfuel)))
    rw [← hassigned' 0 hvec, hassigned 0 hvec, (mops_eq_laneMops hglobal hvec).mp hcredit]
  · intro hcount
    obtain ⟨r, hreplay, hsteps⟩ := steps_replay ar fct hvec size
    have hsize : r.steps = size := by
      cases fct with
      | vliw =>
          have hdvd := ((iterationsArg_mul_eq .vliw size).mp hcount).1
          rw [hsteps]
          exact Nat.mul_div_cancel' hdvd
      | _ => exact hsteps
    refine ⟨r, hreplay, (mops_eq_laneMops hglobal hvec).mpr hsize, fun gid hgid => ?_⟩
    obtain ⟨w, hrun, -, hassigned⟩ :=
      runBenchmark_ok ar hsup hvec ftype localSize size hgid hlarge
    exact ⟨w, fun fuel hfuel => hrun fuel ((iterationsArg_le fct size).trans_lt hfuel),
      fun j hj => by rw [hassigned j hj, hcount, hsize]⟩

theorem accounted_iff_100K : Accounted plainArith .float .exp .native 4 8 16 102400 ↔
    Function.unrollFactor .exp ∣ 102400 ∧ 102400 / Function.unrollFactor .exp < 2 ^ 32 :=
  accounted_iff plainArith .float .exp .native 4 8 16 102400 (Or.inr rfl) (by decide)
    (by decide) (by decide)

/-- `--operations=1K`: of 1024 operations the device performs 1000, the check
replays 1024. -/
theorem accounting_fails_1K : operationsSize 1 (some 'K') = some 1024 ∧
    ¬ Accounted plainArith .float .add .default 1 1 1 1024 := by
  refine ⟨rfl, ?_⟩
  rintro ⟨r, -, hcredit, hitems⟩
  obtain ⟨w, hrun, hassigned⟩ := hitems 0 Nat.one_pos
  obtain ⟨w', hrun', -, hassigned'⟩ := runBenchmark_ok plainArith
    (show Supported .float .add 1 from Or.inr rfl) le_rfl .default 1 1024
    (show 0 < 1 from Nat.one_pos) (by decide)
  obtain rfl : w = w' := Except.ok.inj ((hrun 1025 (by decide)).symm.trans (hrun' 1025 (by decide)))
  have hsteps := (mops_eq_laneMops le_rfl le_rfl).mp hcredit
  have hcount := (hassigned' 0 Nat.one_pos).symm.trans ((hassigned 0 Nat.one_pos).trans hsteps)
  exact absurd hcount (by decide)

end UclBench.ArithSpeed
