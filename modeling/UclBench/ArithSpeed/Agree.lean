import UclBench.ArithSpeed.Host
import Mathlib.Algebra.Order.Field.Rat
import Mathlib.Tactic.Choose

/-!
# UclBench.ArithSpeed.Agree

Generated kernel and host replay against each other.

* `genKernel_agrees` — for the functions whose replay repeats the kernel's
  recurrence, a launch partitions its output among the work items and leaves
  in `output[0]` what the host replays;
* `not_madMulAgrees` — the replay of `_MAD_MUL` compares `a` with a kernel
  result that is `a + c`.
-/

namespace UclBench.ArithSpeed

open OpenCL Buffer

/-! ## the output of a launch -/

theorem mem_laneWrites {vec gid : Nat} {value : Nat → T} {x : Write T} :
    x ∈ laneWrites vec gid value ↔ ∃ j < vec, x = ⟨outputName, vec * gid + j, value j⟩ := by
  simp only [laneWrites, List.mem_map, List.mem_range]
  constructor
  · rintro ⟨j, hj, rfl⟩
    exact ⟨j, hj, rfl⟩
  · rintro ⟨j, hj, rfl⟩
    exact ⟨j, hj, rfl⟩

/-- The work item that owns an output cell. -/
theorem laneWrites_owner (gid : Nat) {vec j : Nat} (hj : j < vec) : (vec * gid + j) / vec = gid := by
  rw [Nat.mul_add_div (by omega), Nat.div_eq_of_lt hj, Nat.add_zero]

/-- The cells of the work items partition the output. -/
theorem existsUnique_writer {vec global c : Nat} (value : Nat → Nat → T) (hc : c < global * vec) :
    ∃! gid, gid < global ∧ ∃ x ∈ laneWrites vec gid (value gid), x.index = c := by
  have hvec : 0 < vec := Nat.pos_of_ne_zero fun h => by simp [h] at hc
  refine ⟨c / vec, ⟨(Nat.div_lt_iff_lt_mul hvec).mpr hc, ?_⟩, ?_⟩
  · have hmod := Nat.mod_lt c hvec
    exact ⟨_, mem_laneWrites.mpr ⟨c % vec, hmod, rfl⟩, Nat.div_add_mod c vec⟩
  · rintro gid ⟨-, x, hx, rfl⟩
    obtain ⟨j, hj, rfl⟩ := mem_laneWrites.mp hx
    exact (laneWrites_owner gid hj).symm

/-- A cell after the writes of its owner. -/
theorem foldl_laneWrites {vec gid j : Nat} (value : Nat → T) (hj : j < vec) :
    (laneWrites vec gid value).foldl
      (fun old x => if x.index = vec * gid + j then some x.value else old) none =
        some (value j) := by
  suffices hprefix : ∀ n, ((List.range n).map fun k =>
      (⟨outputName, vec * gid + k, value k⟩ : Write T)).foldl
        (fun old x => if x.index = vec * gid + j then some x.value else old) none =
          if j < n then some (value j) else none by
    rw [laneWrites, hprefix vec, if_pos hj]
  intro n
  induction n with
  | zero => rfl
  | succ n ih =>
      rw [List.range_succ, List.map_append, List.foldl_append, ih]
      simp only [List.map_cons, List.map_nil, List.foldl_cons, List.foldl_nil, Nat.add_left_cancel_iff]
      by_cases hjn : n = j
      · subst hjn
        rw [if_pos rfl, if_pos (Nat.lt_succ_self n)]
      · have hlt : j < n + 1 ↔ j < n := by omega
        rw [if_neg hjn]
        simp only [hlt]

/-- The logs of a launch. -/
def launchLogs (global : Nat) (items : Nat → WorkItem T) (gid : Nat) : List (Write T) :=
  if gid < global then (items gid).writes else []

/-- **Any order**: however the writes of the work items interleave, the launch
ends in bounds with the same output. -/
theorem commit_laneWrites {vec global : Nat} (value : Nat → Nat → T) {items : Nat → WorkItem T}
    (hitems : ∀ gid < global, (items gid).writes = laneWrites vec gid (value gid))
    {τ : List (Nat × Write T)} (h : Interleaves (launchLogs global items) τ) :
    ∃ out, commit outputName τ (alloc T (global * vec)) = .ok out ∧ out.size = global * vec ∧
      ∀ gid < global, ∀ j < vec, out.cell (vec * gid + j) = some (value gid j) := by
  have hlog {gid : Nat} {x : Write T} (hx : (gid, x) ∈ τ) :
      gid < global ∧ ∃ j < vec, x = ⟨outputName, vec * gid + j, value gid j⟩ := by
    have hmem := h.mem hx
    unfold launchLogs at hmem
    split at hmem
    · next hgid =>
        rw [hitems gid hgid] at hmem
        exact ⟨hgid, mem_laneWrites.mp hmem⟩
    · exact absurd hmem List.not_mem_nil
  have hwrite {gid j : Nat} (b : Buffer T) : commitWrite outputName b
      ⟨outputName, vec * gid + j, value gid j⟩ = b.write (vec * gid + j) (value gid j) := if_pos rfl
  have hsafe : ∃ out, commit outputName τ (alloc T (global * vec)) = .ok out ∧
      out.size = global * vec :=
    run_invariant _ (fun b : Buffer T => b.size = global * vec) (fun ⟨gid, x⟩ he b hb => by
      obtain ⟨hgid, j, hj, rfl⟩ := hlog he
      have hlt : vec * gid + j < b.size := hb ▸ index_lt hgid hj
      exact ⟨b.set _ _, by rw [hwrite, write_of_lt _ hlt], hb⟩) rfl
  obtain ⟨out, hrun, hsize⟩ := hsafe
  refine ⟨out, hrun, hsize, fun gid hgid j hj => ?_⟩
  have hview := run_view (i := gid) (fun b => b.cell (vec * gid + j))
    (fun old x => if x.index = vec * gid + j then some x.value else old)
    (fun x hx b b' hstep => by
      obtain ⟨hgid, k, hk, rfl⟩ := hlog hx
      change commitWrite _ _ _ = _ at hstep
      rw [hwrite, write] at hstep
      split at hstep
      · next hlt =>
          obtain rfl := Except.ok.inj hstep
          by_cases hkj : k = j
          · subst hkj
            rw [if_pos rfl, cell_set_self _ hlt]
          · rw [if_neg (by simpa using hkj), cell_set_of_ne _ (by omega)]
      · contradiction)
    (fun gid' x hne hx b b' hstep => by
      obtain ⟨-, k, hk, rfl⟩ := hlog hx
      change commitWrite _ _ _ = _ at hstep
      rw [hwrite, write] at hstep
      split at hstep
      · obtain rfl := Except.ok.inj hstep
        refine cell_set_of_ne _ fun heq => hne ?_
        rw [← laneWrites_owner gid' hk, ← heq, laneWrites_owner gid hj]
      · contradiction)
    hrun
  rw [hview, h gid, launchLogs, if_pos hgid, hitems gid hgid]
  exact foldl_laneWrites (value gid) hj

/-! ## kernel and replay -/

/-- The functions whose replay repeats the recurrence of the kernel. -/
def Replayed (fct : Function) (ftype : FunctionType) : Bool :=
  match fct with
  | .add | .sub | .mul | .mad | .vec | .vliw => true
  | .div => ftype = .default
  | _ => false

theorem unrollFactor_of_replayed {fct : Function} {ftype : FunctionType} (h : Replayed fct ftype) :
    fct.unrollFactor = 100 := by
  cases fct with
  | add | sub | mul | div | mad | vec | vliw => rfl
  | _ => exact absurd h Bool.false_ne_true

theorem ntemps_of_replayed {fct : Function} {ftype : FunctionType} (h : Replayed fct ftype) :
    (functionToCode ftype fct).ntemps < 2 := by
  cases fct with
  | add | sub | mul | mad => exact Nat.one_lt_two
  | div => cases ftype <;> exact Nat.one_lt_two
  | vec | vliw => exact Nat.two_pos
  | _ => exact absurd h Bool.false_ne_true

/-- The replay as a lane. -/
def Replay.lane (r : Replay T) : Lane T := ⟨r.a, r.b, r.c, r.d⟩

/-- One replayed operation is one line of the kernel on the first lane. -/
theorem lane_replayStep (ar : Arith T) {fct : Function} {ftype : FunctionType}
    (h : Replayed fct ftype) (hvliw : fct ≠ .vliw) (cnt : Nat) (r : Replay T) :
    lineStep ar fct ftype cnt r.lane = (replayStep ar fct r).lane := by
  cases fct with
  | add | sub | mul | mad | vec => rfl
  | div =>
      obtain rfl : ftype = .default := by simpa [Replayed] using h
      rfl
  | vliw => exact absurd rfl hvliw
  | _ => exact absurd h Bool.false_ne_true

/-- On the first lane the operator counter of the kernel is `i * vec`; the
replay tells the three orders apart by `vec % 3`. -/
theorem vliwOp_eq_replayOp (vec i : Nat) : vliwOp (i * vec) = vliwReplayOp (vec % 3) i := by
  have hmul := Nat.mul_mod i vec 3
  have hi := Nat.mod_lt i (show 0 < 3 by decide)
  have hvec := Nat.mod_lt vec (show 0 < 3 by decide)
  unfold vliwOp
  rw [hmul]
  generalize hx : i % 3 = x at hi
  generalize vec % 3 = y at hvec
  simp only [vliwReplayOp, hx]
  obtain rfl | rfl | rfl : x = 0 ∨ x = 1 ∨ x = 2 := by omega
  all_goals obtain rfl | rfl | rfl : y = 0 ∨ y = 1 ∨ y = 2 := by omega
  all_goals rfl

/-- One pass of the kernel's loop is 100 replayed operations. -/
theorem iterationStep_semiconj (ar : Arith T) {fct : Function} {ftype : FunctionType}
    (h : Replayed fct ftype) (hvliw : fct ≠ .vliw) (vec : Nat) :
    Function.Semiconj Replay.lane ((replayStep ar fct)^[100]) (iterationStep ar fct ftype vec 100 0) := by
  intro r
  have hhom : iterationStep ar fct ftype vec 100 0 r.lane =
      ((List.range 100).foldl (fun r _ => replayStep ar fct r) r).lane :=
    List.foldl_hom Replay.lane fun r i => lane_replayStep ar h hvliw _ r
  rw [List.foldl_const, List.length_range] at hhom
  exact hhom.symm

theorem vliwReplayBlock_semiconj (ar : Arith T) (ftype : FunctionType) (vec : Nat) :
    Function.Semiconj Replay.lane (vliwReplayBlock ar vec) (iterationStep ar .vliw ftype vec 100 0) := by
  intro r
  refine (List.foldl_hom Replay.lane fun r i => ?_).symm
  rw [Nat.add_zero]
  simp only [lineStep, vliwOp_eq_replayOp]
  rfl

/-- What the check starts from. -/
def replayStart (ar : Arith T) (fct : Function) (vec : Nat) : Replay T :=
  ⟨operand ar fct vec 0, operand ar fct vec vec, operand ar fct vec vec, operand ar fct vec 0, 0⟩

/-- The replay of the prepared array. -/
theorem replay_prepareData (ar : Arith T) (fct : Function) {vec : Nat} (hvec : 1 ≤ vec) (size : Nat) :
    replay ar fct vec size (prepareData ar fct vec) = .ok (match fct with
      | .vliw => (vliwReplayBlock ar vec)^[size / fct.unrollFactor] (replayStart ar fct vec)
      | fct' => (replayStep ar fct')^[size] (replayStart ar fct vec)) := by
  have ha := read_of_cell (cell_prepareData ar fct (show 0 < 2 * vec by omega))
  have hb := read_of_cell (cell_prepareData ar fct (show vec < 2 * vec by omega))
  cases fct <;> simp only [replay, ha, hb] <;> rfl

/-- **The check replays the first lane.** -/
theorem replay_eq_finalLane (ar : Arith T) {fct : Function} {ftype : FunctionType} {vec : Nat}
    (h : Replayed fct ftype) (hvec : 1 ≤ vec) (k : Nat) :
    ∃ r, replay ar fct vec (100 * k) (prepareData ar fct vec) = .ok r ∧
      r.lane = finalLane ar fct ftype (operand ar fct vec) vec 100 k 0 := by
  refine ⟨_, replay_prepareData ar fct hvec _, ?_⟩
  have hstart : (replayStart ar fct vec).lane = startLane (operand ar fct vec) vec 0 := rfl
  by_cases hvliw : fct = .vliw
  · subst hvliw
    have hpasses := (vliwReplayBlock_semiconj ar ftype vec).iterate_right k (replayStart ar .vliw vec)
    rw [hstart] at hpasses
    rw [finalLane, ← hpasses]
    have hk : 100 * k / Function.unrollFactor .vliw = k := Nat.mul_div_cancel_left k (by decide)
    rw [hk]
  · have hpasses := (iterationStep_semiconj ar h hvliw vec).iterate_right k (replayStart ar fct vec)
    rw [hstart, ← Function.iterate_mul] at hpasses
    rw [finalLane, ← hpasses]
    cases fct with
    | vliw => exact absurd rfl hvliw
    | _ => rfl

/-- The cells a work item writes, in order. -/
def writtenCells (w : WorkItem T) : List (Text × Nat) := w.writes.map fun x => (x.buffer, x.index)

/-- **Generated kernel and host check agree**: on the array `run_benchmark`
prepares, of `2 * vec` elements, every work item terminates without a fault and
writes each of its `vec` cells once; the cells of the work items partition the
output; and however the work items interleave, the launch leaves in `output[0]`
what the check replays. -/
theorem genKernel_agrees (ar : Arith T) (elem : ElemType) (fct : Function) (ftype : FunctionType)
    (vec localSize global k : Nat) (hfct : Replayed fct ftype) (hsup : Supported elem fct vec)
    (hvec : 1 ≤ vec) (hk : k < 2 ^ 32) (hglobal : 1 ≤ global) (hsize : global * vec < 2 ^ 31) :
    (prepareData ar fct vec).size = 2 * vec ∧
    ∃ (items : Nat → WorkItem T) (r : Replay T),
      (∀ gid < global, (∀ fuel, k < fuel →
          runBenchmark ar elem fct ftype vec localSize global (100 * k) gid fuel = .ok (items gid)) ∧
        writtenCells (items gid) = (List.range vec).map fun j => (outputName, vec * gid + j)) ∧
      (∀ c < global * vec, ∃! gid, gid < global ∧ (outputName, c) ∈ writtenCells (items gid)) ∧
      replay ar fct vec (100 * k) (prepareData ar fct vec) = .ok r ∧
      ∀ τ, Interleaves (launchLogs global items) τ →
        ∃ out, commit outputName τ (alloc T (global * vec)) = .ok out ∧ out.Assigned ∧
          out.cell 0 = some r.a := by
  have hunroll := unrollFactor_of_replayed hfct
  have hiter : iterationsArg fct (100 * k) = k := by
    rw [iterationsArg, hunroll, Nat.mul_div_cancel_left k (by decide), Nat.mod_eq_of_lt hk]
  have hntemps := ntemps_of_replayed hfct
  -- the result of lane `j`, the same in every work item
  let value (_gid j : Nat) : T :=
    (finalLane ar fct ftype (operand ar fct vec) vec 100 k j).a
  have hrun (gid : Nat) (hgid : gid < global) : ∃ w, (∀ fuel, k < fuel →
      runBenchmark ar elem fct ftype vec localSize global (100 * k) gid fuel = .ok w) ∧
      w.writes = laneWrites vec gid (value gid) := by
    obtain ⟨w, hrun, hwrites, -⟩ := runBenchmark_ok ar hsup hvec ftype localSize (100 * k) hgid hsize
    rw [hiter] at hrun hwrites
    rw [hunroll] at hwrites
    refine ⟨w, hrun, hwrites.trans ?_⟩
    simp only [laneResult, if_pos hntemps, value]
  choose! items hitems hwrites using hrun
  have hcells (gid : Nat) (hgid : gid < global) : writtenCells (items gid) =
      (List.range vec).map fun j => (outputName, vec * gid + j) := by
    rw [writtenCells, hwrites gid hgid, laneWrites, List.map_map]
    rfl
  obtain ⟨r, hreplay, hlane⟩ := replay_eq_finalLane ar hfct hvec k
  refine ⟨size_prepareData ar fct vec, items, r, fun gid hgid => ⟨hitems gid hgid, hcells gid hgid⟩,
    fun c hc => ?_, hreplay, fun τ hτ => ?_⟩
  · obtain ⟨gid, ⟨hgid, x, hx, rfl⟩, hunique⟩ := existsUnique_writer value hc
    refine ⟨gid, ⟨hgid, ?_⟩, fun gid' h => hunique gid' ⟨h.1, ?_⟩⟩
    · obtain ⟨j, hj, rfl⟩ := mem_laneWrites.mp hx
      rw [hcells gid hgid, List.mem_map]
      exact ⟨j, List.mem_range.mpr hj, rfl⟩
    · obtain ⟨hgid', hmem⟩ := h
      rw [hcells gid' hgid', List.mem_map] at hmem
      obtain ⟨j, hj, heq⟩ := hmem
      exact ⟨_, mem_laneWrites.mpr ⟨j, List.mem_range.mp hj, rfl⟩, congrArg Prod.snd heq⟩
  · obtain ⟨out, hcommit, hout, hcell⟩ := commit_laneWrites value hwrites hτ
    refine ⟨out, hcommit, fun c hc => ?_, ?_⟩
    · rw [hout] at hc
      have hmod := Nat.mod_lt c hvec
      have hdiv : c / vec < global := (Nat.div_lt_iff_lt_mul hvec).mpr hc
      have := hcell (c / vec) hdiv (c % vec) hmod
      rw [Nat.div_add_mod] at this
      exact ⟨_, this⟩
    · have hzero := hcell 0 hglobal 0 hvec
      rw [Nat.mul_zero, Nat.add_zero] at hzero
      rw [hzero]
      exact congrArg some (congrArg Lane.a hlane).symm

/-! ## exact arithmetic -/

/-- The value of a decimal literal; an `f` after the digits means nothing
here. -/
def decimalValue (ds : Text) : ℚ :=
  let digits := ds.filter Char.isDigit
  let fraction := (ds.dropWhile (· ≠ '.')).filter Char.isDigit
  (numeral digits : ℚ) / 10 ^ fraction.length

/-- Rational numbers, with arbitrary built-in functions. -/
def exactArith (fn1 : Text → ℚ → ℚ) (fn2 : Text → ℚ → ℚ → ℚ) : Arith ℚ where
  op
    | .add => (· + ·)
    | .sub => (· - ·)
    | .mul => (· * ·)
    | .div => (· / ·)
  lit := decimalValue
  fn1 := fn1
  fn2 := fn2

/-- Rational numbers whose built-in functions return their first argument. -/
def plainArith : Arith ℚ := exactArith (fun _ x => x) (fun _ x _ => x)

theorem genKernel_agrees_vliw : (prepareData plainArith .vliw 2).size = 2 * 2 ∧
    ∃ (items : Nat → WorkItem ℚ) (r : Replay ℚ),
      (∀ gid < 3, (∀ fuel, 5 < fuel →
          runBenchmark plainArith .float .vliw .native 2 1 3 (100 * 5) gid fuel = .ok (items gid)) ∧
        writtenCells (items gid) = (List.range 2).map fun j => (outputName, 2 * gid + j)) ∧
      (∀ c < 3 * 2, ∃! gid, gid < 3 ∧ (outputName, c) ∈ writtenCells (items gid)) ∧
      replay plainArith .vliw 2 (100 * 5) (prepareData plainArith .vliw 2) = .ok r ∧
      ∀ τ, Interleaves (launchLogs 3 items) τ →
        ∃ out, commit outputName τ (alloc ℚ (3 * 2)) = .ok out ∧ out.Assigned ∧
          out.cell 0 = some r.a :=
  genKernel_agrees plainArith .float .vliw .native 2 1 3 5 rfl (Or.inl rfl) (by decide) (by decide)
    (by decide) (by decide)

/-! ## `_MAD_MUL` -/

/-- The part of a lane that the replay of `_MAD_MUL` follows. -/
def madPair (ar : Arith T) (p : T × T) : T × T :=
  (p.2, ar.op .add (ar.op .mul p.1 p.2) (ar.lit "0.1".toList))

theorem madPair_kernel (ar : Arith T) (ftype : FunctionType) (cnt : Nat) :
    Function.Semiconj (fun s : Lane T => (s.a, s.b)) (lineStep ar .madMul ftype cnt) (madPair ar) :=
  fun _ => rfl

theorem madPair_replay (ar : Arith T) :
    Function.Semiconj (fun r : Replay T => (r.a, r.b)) (replayStep ar .madMul) (madPair ar) :=
  fun _ => rfl

/-- All lines of `_MAD_MUL` are alike. -/
theorem finalLane_madMul (ar : Arith T) (ftype : FunctionType) (data : Nat → T)
    (vec unrollFactor k j : Nat) : finalLane ar .madMul ftype data vec unrollFactor k j =
      (lineStep ar .madMul ftype 0)^[unrollFactor * k] (startLane data vec j) := by
  have hpass : iterationStep ar .madMul ftype vec unrollFactor j =
      (lineStep ar .madMul ftype 0)^[unrollFactor] := by
    funext s
    have hconst := List.foldl_const (lineStep ar .madMul ftype 0) s (List.range unrollFactor)
    rw [List.length_range] at hconst
    exact hconst
  rw [finalLane, hpass, Function.iterate_mul]

theorem one_le_of_accepts {elem : ElemType} {vec : Nat} (h : elem.accepts vec) : 1 ≤ vec := by
  refine Nat.pos_of_ne_zero fun hzero => ?_
  subst hzero
  cases elem <;> cases h

/-- **What the kernel stores**: `a + c` where the check compares `a`. -/
theorem madMul_stored (ar : Arith T) {elem : ElemType} {vec : Nat} (hvec : elem.accepts vec)
    (ftype : FunctionType) (localSize : Nat) {global size : Nat} (hglobal : 1 ≤ global)
    (hlarge : global * vec < 2 ^ 31) (hdvd : 100 ∣ size) (hsize : size / 100 < 2 ^ 32) :
    ∃ w r, (∀ fuel, size / 100 < fuel →
        runBenchmark ar elem .madMul ftype vec localSize global size 0 fuel = .ok w) ∧
      replay ar .madMul vec size (prepareData ar .madMul vec) = .ok r ∧
      w.writes.head? = some ⟨outputName, 0, ar.op .add r.a
        ((lineStep ar .madMul ftype 0)^[size] (startLane (operand ar .madMul vec) vec 0)).c⟩ := by
  have hpos := one_le_of_accepts hvec
  obtain ⟨w, hrun, hwrites, -⟩ := runBenchmark_ok ar
    (show Supported elem .madMul vec from Or.inr hvec) hpos ftype localSize size hglobal hlarge
  have hiter : iterationsArg .madMul size = size / 100 := Nat.mod_eq_of_lt hsize
  have hunroll : 100 * (size / 100) = size := Nat.mul_div_cancel' hdvd
  rw [hiter] at hrun hwrites
  refine ⟨w, _, hrun, replay_prepareData ar .madMul hpos size, ?_⟩
  obtain ⟨vec, rfl⟩ : ∃ v, vec = v + 1 := ⟨vec - 1, by omega⟩
  have hfinal : finalLane ar .madMul ftype (operand ar .madMul (vec + 1)) (vec + 1) 100 (size / 100) 0 =
      (lineStep ar .madMul ftype 0)^[size] (startLane (operand ar .madMul (vec + 1)) (vec + 1) 0) := by
    rw [finalLane_madMul, hunroll]
  -- both sides follow the same pair `(a, b)`
  have hkernel := (madPair_kernel ar ftype 0).iterate_right size
    (startLane (operand ar .madMul (vec + 1)) (vec + 1) 0)
  have hreplay := (madPair_replay ar).iterate_right size (replayStart ar .madMul (vec + 1))
  have ha : ((lineStep ar .madMul ftype 0)^[size]
      (startLane (operand ar .madMul (vec + 1)) (vec + 1) 0)).a =
        ((replayStep ar .madMul)^[size] (replayStart ar .madMul (vec + 1))).a :=
    congrArg Prod.fst (hkernel.trans hreplay.symm)
  rw [hwrites, laneWrites, List.range_succ_eq_map, List.map_cons, List.head?_cons]
  simp only [Function.unrollFactor, hfinal, Nat.mul_zero, Nat.add_zero]
  rw [← ha]
  rfl

/-- What the `_MAD_MUL` check relies on: under every interpretation of the
operations, the kernel stores first the value that the check compares. -/
def MadMulAgrees (elem : ElemType) (ftype : FunctionType) (vec localSize global size : Nat) : Prop :=
  ∀ (T : Type) (ar : Arith T), ∃ w r, (∀ fuel, size / 100 < fuel →
      runBenchmark ar elem .madMul ftype vec localSize global size 0 fuel = .ok w) ∧
    replay ar .madMul vec size (prepareData ar .madMul vec) = .ok r ∧
    w.writes.head? = some ⟨outputName, 0, r.a⟩

/-- In exact arithmetic `c` stays positive. -/
theorem madMul_c_pos (ftype : FunctionType) (vec n : Nat) (hvec : 1 ≤ vec) :
    0 < ((lineStep plainArith .madMul ftype 0)^[n]
      (startLane (operand plainArith .madMul vec) vec 0)).c := by
  have hfirst : 0 < decimalValue "1.00000001".toList := by decide +kernel
  have hsecond : 0 < decimalValue "0.99999999".toList := by decide +kernel
  have hstart : operand plainArith .madMul vec vec = decimalValue "0.99999999".toList :=
    if_neg (Nat.lt_irrefl vec)
  have hstart' : operand plainArith .madMul vec 0 = decimalValue "1.00000001".toList := if_pos hvec
  have hstep (s : Lane ℚ) (hs : 0 < s.c ∧ 0 < s.d) :
      0 < (lineStep plainArith .madMul ftype 0 s).c ∧ 0 < (lineStep plainArith .madMul ftype 0 s).d :=
    ⟨hs.2, mul_pos hs.1 hs.2⟩
  have hinit : 0 < (startLane (operand plainArith .madMul vec) vec 0).c ∧
      0 < (startLane (operand plainArith .madMul vec) vec 0).d := by
    simp only [startLane, Nat.add_zero, hstart, hstart']
    exact ⟨hsecond, hfirst⟩
  exact (Function.Iterate.rec (fun s : Lane ℚ => 0 < s.c ∧ 0 < s.d) hinit hstep n).1

/-- In exact arithmetic the kernel stores more than the check expects. -/
theorem madMul_stored_gt {elem : ElemType} {vec : Nat} (hvec : elem.accepts vec)
    (ftype : FunctionType) (localSize : Nat) {global size : Nat} (hglobal : 1 ≤ global)
    (hlarge : global * vec < 2 ^ 31) (hdvd : 100 ∣ size) (hsize : size / 100 < 2 ^ 32) :
    ∃ w r x, (∀ fuel, size / 100 < fuel →
        runBenchmark plainArith elem .madMul ftype vec localSize global size 0 fuel = .ok w) ∧
      replay plainArith .madMul vec size (prepareData plainArith .madMul vec) = .ok r ∧
      w.writes.head? = some ⟨outputName, 0, x⟩ ∧ r.a < x := by
  obtain ⟨w, r, hrun, hreplay, hfirst⟩ := madMul_stored plainArith hvec ftype localSize hglobal
    hlarge hdvd hsize
  have hc := madMul_c_pos ftype vec size (one_le_of_accepts hvec)
  exact ⟨w, r, _, hrun, hreplay, hfirst, lt_add_of_pos_right r.a hc⟩

theorem not_madMulAgrees_of_gt {elem : ElemType} {ftype : FunctionType}
    {vec localSize global size : Nat} {w : WorkItem ℚ} {r : Replay ℚ} {x : ℚ}
    (hrun : ∀ fuel, size / 100 < fuel →
      runBenchmark plainArith elem .madMul ftype vec localSize global size 0 fuel = .ok w)
    (hreplay : replay plainArith .madMul vec size (prepareData plainArith .madMul vec) = .ok r)
    (hfirst : w.writes.head? = some ⟨outputName, 0, x⟩) (hlt : r.a < x) :
    ¬ MadMulAgrees elem ftype vec localSize global size := by
  intro h
  obtain ⟨w', r', hrun', hreplay', hfirst'⟩ := h ℚ plainArith
  obtain rfl : w' = w := Except.ok.inj ((hrun' _ (Nat.lt_succ_self _)).symm.trans
    (hrun _ (Nat.lt_succ_self _)))
  obtain rfl : r' = r := Except.ok.inj (hreplay'.symm.trans hreplay)
  exact absurd (congrArg Write.value (Option.some.inj (hfirst'.symm.trans hfirst))) hlt.ne

/-- **The `_MAD_MUL` check compares the wrong value**, at every size. -/
theorem not_madMulAgrees (elem : ElemType) (ftype : FunctionType) (vec localSize global size : Nat)
    (hvec : elem.accepts vec) (hglobal : 1 ≤ global) (hlarge : global * vec < 2 ^ 31)
    (hdvd : 100 ∣ size) (hsize : size / 100 < 2 ^ 32) :
    ¬ MadMulAgrees elem ftype vec localSize global size := by
  obtain ⟨w, r, x, hrun, hreplay, hfirst, hlt⟩ := madMul_stored_gt hvec ftype localSize hglobal
    hlarge hdvd hsize
  exact not_madMulAgrees_of_gt hrun hreplay hfirst hlt

theorem not_madMulAgrees_float4 : ¬ MadMulAgrees .float .native 4 2 6 100000 :=
  not_madMulAgrees .float .native 4 2 6 100000 rfl (by decide) (by decide) (by decide) (by decide)

/-- The smallest run: one work item, one pass of the loop. -/
theorem madMul_fails_100 : ¬ MadMulAgrees .float .default 1 1 1 100 := by
  obtain ⟨w, r, x, hrun, hreplay, hfirst, hlt⟩ := madMul_stored_gt
    (show ElemType.float.accepts 1 = true from rfl) .default 1 le_rfl (by decide)
    (show 100 ∣ 100 by decide) (by decide)
  exact not_madMulAgrees_of_gt hrun hreplay hfirst hlt

end UclBench.ArithSpeed
