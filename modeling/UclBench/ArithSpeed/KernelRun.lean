import UclBench.ArithSpeed.KernelSyntax
import UclBench.OpenCL.Exec
import Mathlib.Data.List.Nodup
import Mathlib.Logic.Function.Iterate

/-!
# UclBench.ArithSpeed.KernelRun

What a work item does when it executes a generated kernel.

Every private variable holds one value per lane.  `Lane` is the state of one
lane, `lineStep` what one line of operations does to it, and `Running` relates
a work item to the lanes it computes.  `exec_kernelTree` follows a whole run:
lane `j` takes `unrollFactor` steps per iteration, and the work item writes its
`vec` results to consecutive cells of `output`.
-/

namespace UclBench.ArithSpeed

open OpenCL

/-! ## one lane -/

/-- The private variables of one lane; functions that do not declare `b`, `c`
or `d` leave these components alone. -/
structure Lane (T : Type _) where
  a : T
  b : T
  c : T
  d : T

/-- `tmp = x; a = b; b = tmp;` -/
def Lane.shift (s : Lane T) (x : T) : Lane T := { s with a := s.b, b := x }

/-- One line of operations on one lane; `cnt` is the position of its operation
among those of `_VLIW`. -/
def lineStep (ar : Arith T) (fct : Function) (ftype : FunctionType) (cnt : Nat) (s : Lane T) :
    Lane T :=
  match fct with
  | .add => s.shift (ar.op .add s.a s.b)
  | .sub => s.shift (ar.op .sub s.a s.b)
  | .mul => s.shift (ar.op .mul s.a s.b)
  | .div =>
      match ftype with
      | .default => s.shift (ar.op .div s.a s.b)
      | .native => s.shift (ar.fn2 "native_divide".toList s.a s.b)
  | .mad => s.shift (ar.op .add (ar.op .mul s.a s.b) (ar.lit "0.1".toList))
  | .madMul =>
      ⟨s.b, ar.op .add (ar.op .mul s.a s.b) (ar.lit "0.1".toList), s.d, ar.op .mul s.c s.d⟩
  | .vec => { s with a := ar.op .sub s.a s.b }
  | .vliw => { s with a := ar.op (vliwOp cnt) s.a s.b }
  | .sqr => { s with a := ar.fn2 (Function.builtin ftype .sqr) s.a (ar.lit "2.0".toList) }
  | fct => { s with a := ar.fn1 (fct.builtin ftype) s.a }

/-- One iteration of the kernel's loop on lane `j`. -/
def iterationStep (ar : Arith T) (fct : Function) (ftype : FunctionType) (vec unrollFactor j : Nat)
    (s : Lane T) : Lane T :=
  (List.range unrollFactor).foldl (fun s i => lineStep ar fct ftype (i * vec + j) s) s

/-! ## values with one component per lane -/

/-- The components `f 0, …, f (width - 1)`. -/
def lanesOf (width : Nat) (f : Nat → T) : List T := (List.range width).map f

@[simp] theorem length_lanesOf (width : Nat) (f : Nat → T) : (lanesOf width f).length = width := by
  simp [lanesOf]

theorem zipWith_lanesOf (g : T → T → T) (width : Nat) (f f' : Nat → T) :
    List.zipWith g (lanesOf width f) (lanesOf width f') = lanesOf width fun j => g (f j) (f' j) := by
  simp [lanesOf, List.zipWith_map, List.zipWith_self]

theorem map_lanesOf (g : T → T) (width : Nat) (f : Nat → T) :
    (lanesOf width f).map g = lanesOf width fun j => g (f j) := by
  simp [lanesOf, Function.comp_def]

theorem replicate_eq_lanesOf (width : Nat) (x : T) :
    List.replicate width x = lanesOf width fun _ => x := by
  simp [lanesOf, List.map_const']

theorem lanesOf_one (f : Nat → T) : lanesOf 1 f = [f 0] := rfl

theorem getElem?_lanesOf {width j : Nat} (h : j < width) (f : Nat → T) :
    (lanesOf width f)[j]? = some (f j) := by
  simp [lanesOf, h]

section
variable {env : Env T} {w : WorkItem T} {ty : Ty}

theorem fits_lanesOf (hty : ty.scalar = env.elem) (f : Nat → T) :
    (Val.elems (lanesOf ty.width f)).fits env ty := by
  simp [Val.fits, hty]

/-- A cast literal has the same value in every lane. -/
theorem eval_castReal (hty : ty.scalar = env.elem) (ds : Text) :
    eval env w (.conv ty (.real ds)) = .ok (.elems (lanesOf ty.width fun _ => env.ar.lit ds)) := by
  simp only [eval, convElems, if_pos hty, List.length_singleton]
  by_cases h : 1 = ty.width
  · rw [if_pos h, ← h, lanesOf_one]
  · rw [if_neg h, replicate_eq_lanesOf]

theorem eval_bin_lanesOf {o : Op} {e e' : Expr} {width : Nat} {f f' : Nat → T}
    (he : eval env w e = .ok (.elems (lanesOf width f)))
    (he' : eval env w e' = .ok (.elems (lanesOf width f'))) :
    eval env w (.bin o e e') =
      .ok (.elems (lanesOf width fun j => env.ar.op o (f j) (f' j))) := by
  rw [eval_bin_elems he he' (by simp), zipWith_lanesOf]

theorem eval_call1_lanesOf {f : Text} {e : Expr} {width : Nat} {g : Nat → T}
    (he : eval env w e = .ok (.elems (lanesOf width g))) :
    eval env w (.call f e) = .ok (.elems (lanesOf width fun j => env.ar.fn1 f (g j))) := by
  rw [eval_call he, callVal, map_lanesOf]

theorem eval_call2_lanesOf {f : Text} {e e' : Expr} {width : Nat} {g g' : Nat → T}
    (he : eval env w e = .ok (.elems (lanesOf width g)))
    (he' : eval env w e' = .ok (.elems (lanesOf width g'))) :
    eval env w (.call f (.join e e')) =
      .ok (.elems (lanesOf width fun j => env.ar.fn2 f (g j) (g' j))) := by
  rw [eval_call (eval_join he he'), callVal]
  simp only [length_lanesOf, if_true, zipWith_lanesOf]

end

/-! ## lane variables -/

theorem decimal_injective {m n : Nat} (h : decimal m = decimal n) : m = n := by
  rw [← numeral_decimal m, h, numeral_decimal]

theorem laneVar_inj {c c' : Char} {i j : Nat} : laneVar c i = laneVar c' j ↔ c = c' ∧ i = j := by
  constructor
  · intro h
    exact ⟨(List.cons.inj h).1, decimal_injective (List.cons.inj h).2⟩
  · rintro ⟨rfl, rfl⟩
    rfl

/-- The variable that accumulates the result of lane `j`. -/
def accName (fct : Function) (j : Nat) : Text := if fct.laned then laneVar 'a' j else ['a']

/-! ## the state of a run -/

/-- The private variables of the scalar and vector functions hold the lanes
`s`. -/
structure VectorHolds (ty : Ty) (binaryOp : Bool) (ntemps : Nat) (s : Nat → Lane T) (w : WorkItem T) :
    Prop where
  a : w.vars ['a'] = some ⟨ty, some (.elems (lanesOf ty.width fun j => (s j).a))⟩
  b : binaryOp = true → w.vars ['b'] = some ⟨ty, some (.elems (lanesOf ty.width fun j => (s j).b))⟩
  tmp : binaryOp = true → ∃ v, w.vars tmpName = some ⟨ty, v⟩
  c : ntemps > 1 → w.vars ['c'] = some ⟨ty, some (.elems (lanesOf ty.width fun j => (s j).c))⟩
  d : ntemps > 1 → w.vars ['d'] = some ⟨ty, some (.elems (lanesOf ty.width fun j => (s j).d))⟩
  tmp2 : ntemps > 1 → ∃ v, w.vars tmp2Name = some ⟨ty, v⟩

/-- The private variables of `_VEC` and `_VLIW` hold the lanes `s`. -/
structure LanesHold (ty : Ty) (vec : Nat) (s : Nat → Lane T) (w : WorkItem T) : Prop where
  a : ∀ j < vec, w.vars (laneVar 'a' j) = some ⟨ty, some (.elems [(s j).a])⟩
  b : ∀ j < vec, w.vars (laneVar 'b' j) = some ⟨ty, some (.elems [(s j).b])⟩

/-- The variables a kernel does not compute with, and the writes so far. -/
structure FrameHolds (gid iterations : Nat) (i : Option (Val T)) (w : WorkItem T) : Prop where
  gid : w.vars gidName = some ⟨⟨.uint, 1⟩, some (.uint gid)⟩
  iterations : w.vars iterationsName = some ⟨⟨.uint, 1⟩, some (.uint iterations)⟩
  counter : w.vars ['i'] = some ⟨⟨.uint, 1⟩, i⟩
  writes : w.writes = []

/-- A work item in the middle of its operations: `count` of them are done on
every lane. -/
structure Running (fct : Function) (ftype : FunctionType) (ty : Ty) (vec gid iterations : Nat)
    (i : Option (Val T)) (count : Nat) (s : Nat → Lane T) (w : WorkItem T) : Prop where
  frame : FrameHolds gid iterations i w
  vector : fct.laned = false →
    VectorHolds ty (functionToCode ftype fct).binaryOp (functionToCode ftype fct).ntemps s w
  lanes : fct.laned = true → LanesHold ty vec s w
  assigned : ∀ j < vec, w.assigned (accName fct j) = count

/-! ## one line of operations -/

section
variable {env : Env T} {w : WorkItem T} {ty : Ty} {gid iterations : Nat} {i : Option (Val T)}

theorem FrameHolds.set (h : FrameHolds gid iterations i w) {x : Text}
    (hx : gidName ≠ x ∧ iterationsName ≠ x ∧ ['i'] ≠ x) (ty : Ty) (v : Val T) :
    FrameHolds gid iterations i (w.set x ty v) where
  gid := by rw [WorkItem.set_vars_of_ne hx.1, h.gid]
  iterations := by rw [WorkItem.set_vars_of_ne hx.2.1, h.iterations]
  counter := by rw [WorkItem.set_vars_of_ne hx.2.2, h.counter]
  writes := h.writes

/-- **The shift** `tmp = e; a = b; b = tmp;` -/
theorem exec_shiftStmts (hty : ty.scalar = env.elem) {s : Nat → Lane T} {e : Expr} {x : Nat → T}
    (h : VectorHolds ty true 1 s w) (hf : FrameHolds gid iterations i w)
    (he : eval env w e = .ok (.elems (lanesOf ty.width x))) :
    ∃ w', execAll env (shiftStmts e) w = .ok w' ∧ FrameHolds gid iterations i w' ∧
      VectorHolds ty true 1 (fun j => (s j).shift (x j)) w' ∧
      w'.assigned ['a'] = w.assigned ['a'] + 1 := by
  obtain ⟨old, htmp⟩ := h.tmp rfl
  have ha := h.a
  have hb := h.b rfl
  have hstmt₁ := execSimple_assign htmp he (fits_lanesOf hty x)
  have hstmt₂ : execSimple env (.assign ['a'] varB)
      (w.set tmpName ty (.elems (lanesOf ty.width x))) = .ok _ :=
    execSimple_assign (by simp [WorkItem.set, tmpName, ha]; rfl)
      (eval_var (by simp [WorkItem.set, tmpName, hb]; rfl)) (fits_lanesOf hty fun j => (s j).b)
  have hstmt₃ : execSimple env (.assign ['b'] (.var tmpName))
      ((w.set tmpName ty (.elems (lanesOf ty.width x))).set ['a'] ty
        (.elems (lanesOf ty.width fun j => (s j).b))) = .ok _ :=
    execSimple_assign (by simp [WorkItem.set, tmpName, hb]; rfl)
      (eval_var (by simp [WorkItem.set, tmpName]; rfl)) (fits_lanesOf hty x)
  refine ⟨_, (execAll_cons hstmt₁).trans ((execAll_cons hstmt₂).trans (execAll_singleton hstmt₃)),
    ?_, ?_, ?_⟩
  · exact ((hf.set (by decide) _ _).set (by decide) _ _).set (by decide) _ _
  · constructor <;> simp [WorkItem.set, tmpName, Lane.shift]
  · simp [WorkItem.set, tmpName, Function.update]

theorem eval_madExpr (hty : ty.scalar = env.elem) {binaryOp : Bool} {ntemps : Nat}
    {s : Nat → Lane T} (h : VectorHolds ty binaryOp ntemps s w) (hbinary : binaryOp = true) :
    eval env w (madExpr ty) = .ok (.elems (lanesOf ty.width fun j =>
      env.ar.op .add (env.ar.op .mul (s j).a (s j).b) (env.ar.lit "0.1".toList))) :=
  eval_bin_lanesOf (eval_bin_lanesOf (eval_var h.a) (eval_var (h.b hbinary))) (eval_castReal hty _)

/-- The line of `_MAD_MUL`. -/
theorem exec_madMul (hty : ty.scalar = env.elem) {s : Nat → Lane T}
    (h : VectorHolds ty true 2 s w) (hf : FrameHolds gid iterations i w) (ftype : FunctionType)
    (vec cnt : Nat) :
    ∃ w', execAll env (lineStmts .madMul ftype ty vec cnt) w = .ok w' ∧
      FrameHolds gid iterations i w' ∧
      VectorHolds ty true 2 (fun j => lineStep env.ar .madMul ftype cnt (s j)) w' ∧
      w'.assigned ['a'] = w.assigned ['a'] + 1 := by
  obtain ⟨old, htmp⟩ := h.tmp rfl
  obtain ⟨old2, htmp2⟩ := h.tmp2 (by decide)
  have ha := h.a
  have hb := h.b rfl
  have hc := h.c (by decide)
  have hd := h.d (by decide)
  -- the values of the two temporaries
  generalize hx : (fun j => env.ar.op .add (env.ar.op .mul (s j).a (s j).b)
    (env.ar.lit "0.1".toList)) = x
  generalize hy : (fun j => env.ar.op .mul (s j).c (s j).d) = y
  have hmad : eval env w (madExpr ty) = .ok (.elems (lanesOf ty.width x)) :=
    hx ▸ eval_madExpr hty h rfl
  have hfit (f : Nat → T) := fits_lanesOf hty f
  have hstmt₁ := execSimple_assign htmp hmad (hfit x)
  generalize hw₁ : w.set tmpName ty (.elems (lanesOf ty.width x)) = w₁ at hstmt₁
  have hmul : eval env w₁ (.bin .mul varC varD) = .ok (.elems (lanesOf ty.width y)) := by
    rw [← hw₁, ← hy]
    exact eval_bin_lanesOf (eval_var (by simp [WorkItem.set, tmpName, hc]; rfl))
      (eval_var (by simp [WorkItem.set, tmpName, hd]; rfl))
  have hstmt₂ : execSimple env (.assign tmp2Name (.bin .mul varC varD)) w₁ = .ok _ :=
    execSimple_assign (by rw [← hw₁, WorkItem.set_vars_of_ne (by decide), htmp2]) hmul (hfit y)
  generalize hw₂ : w₁.set tmp2Name ty (.elems (lanesOf ty.width y)) = w₂ at hstmt₂
  have hstmt₃ : execSimple env (.assign ['a'] varB) w₂ = .ok _ :=
    execSimple_assign (by simp [← hw₂, ← hw₁, WorkItem.set, tmpName, tmp2Name, ha]; rfl)
      (eval_var (by simp [← hw₂, ← hw₁, WorkItem.set, tmpName, tmp2Name, hb]; rfl))
      (hfit fun j => (s j).b)
  generalize hw₃ : w₂.set ['a'] ty (.elems (lanesOf ty.width fun j => (s j).b)) = w₃ at hstmt₃
  have hstmt₄ : execSimple env (.assign ['b'] (.var tmpName)) w₃ = .ok _ :=
    execSimple_assign (by simp [← hw₃, ← hw₂, ← hw₁, WorkItem.set, tmpName, tmp2Name, hb]; rfl)
      (eval_var (by simp [← hw₃, ← hw₂, ← hw₁, WorkItem.set, tmpName, tmp2Name]; rfl)) (hfit x)
  generalize hw₄ : w₃.set ['b'] ty (.elems (lanesOf ty.width x)) = w₄ at hstmt₄
  have hstmt₅ : execSimple env (.assign ['c'] varD) w₄ = .ok _ :=
    execSimple_assign
      (by simp [← hw₄, ← hw₃, ← hw₂, ← hw₁, WorkItem.set, tmpName, tmp2Name, hc]; rfl)
      (eval_var (by simp [← hw₄, ← hw₃, ← hw₂, ← hw₁, WorkItem.set, tmpName, tmp2Name, hd]; rfl))
      (hfit fun j => (s j).d)
  generalize hw₅ : w₄.set ['c'] ty (.elems (lanesOf ty.width fun j => (s j).d)) = w₅ at hstmt₅
  have hstmt₆ : execSimple env (.assign ['d'] (.var tmp2Name)) w₅ = .ok _ :=
    execSimple_assign
      (by simp [← hw₅, ← hw₄, ← hw₃, ← hw₂, ← hw₁, WorkItem.set, tmpName, tmp2Name, hd]; rfl)
      (eval_var (by simp [← hw₅, ← hw₄, ← hw₃, ← hw₂, ← hw₁, WorkItem.set, tmpName, tmp2Name]; rfl))
      (hfit y)
  refine ⟨_, (execAll_cons hstmt₁).trans ((execAll_cons hstmt₂).trans ((execAll_cons hstmt₃).trans
    ((execAll_cons hstmt₄).trans ((execAll_cons hstmt₅).trans (execAll_singleton hstmt₆))))),
    ?_, ?_, ?_⟩
  · rw [← hw₅, ← hw₄, ← hw₃, ← hw₂, ← hw₁]
    exact (((((hf.set (by decide) _ _).set (by decide) _ _).set (by decide)
      _ _).set (by decide) _ _).set (by decide) _ _).set (by decide) _ _
  · rw [← hw₅, ← hw₄, ← hw₃, ← hw₂, ← hw₁]
    constructor <;> simp [WorkItem.set, tmpName, tmp2Name, lineStep, ← hx, ← hy]
  · simp [← hw₅, ← hw₄, ← hw₃, ← hw₂, ← hw₁, WorkItem.set, tmpName, tmp2Name, Function.update]

/-- The line of a transcendental function. -/
theorem exec_unary (hty : ty.scalar = env.elem) {s : Nat → Lane T} {e : Expr} {x : Nat → T}
    (h : VectorHolds ty false 0 s w) (hf : FrameHolds gid iterations i w)
    (he : eval env w e = .ok (.elems (lanesOf ty.width x))) :
    ∃ w', execAll env [.assign ['a'] e] w = .ok w' ∧ FrameHolds gid iterations i w' ∧
      VectorHolds ty false 0 (fun j => { s j with a := x j }) w' ∧
      w'.assigned ['a'] = w.assigned ['a'] + 1 := by
  have hstmt := execSimple_assign h.a he (fits_lanesOf hty x)
  refine ⟨_, execAll_singleton hstmt, hf.set (by decide) _ _, ?_, WorkItem.set_assigned_self ..⟩
  constructor <;> simp

/-- Operations on separate lane variables, one after the other. -/
theorem exec_laneOps (hty : ty.scalar = env.elem) (hwidth : ty.width = 1) {s : Nat → Lane T}
    {vec : Nat} (h : LanesHold ty vec s w) (hf : FrameHolds gid iterations i w) (o : Nat → Op) :
    ∃ w', execAll env ((List.range vec).flatMap fun j =>
        [.assign (laneVar 'a' j) (.bin (o j) (.var (laneVar 'a' j)) (.var (laneVar 'b' j)))]) w = .ok w' ∧
      FrameHolds gid iterations i w' ∧
      LanesHold ty vec (fun j => { s j with a := env.ar.op (o j) (s j).a (s j).b }) w' ∧
      ∀ j < vec, w'.assigned (laneVar 'a' j) = w.assigned (laneVar 'a' j) + 1 := by
  -- the invariant: the first `k` lanes are done
  let done (k : Nat) (j : Nat) : Lane T :=
    if j < k then { s j with a := env.ar.op (o j) (s j).a (s j).b } else s j
  have hdone (k j : Nat) : (done k j).b = (s j).b := by simp only [done]; split <;> rfl
  obtain ⟨w', hrun, hf', hlanes, hassigned⟩ := execAll_flatMap env w
    (fun k w₁ => FrameHolds gid iterations i w₁ ∧ LanesHold ty vec (done k) w₁ ∧
      ∀ j < vec, w₁.assigned (laneVar 'a' j) = w.assigned (laneVar 'a' j) + if j < k then 1 else 0) vec
    (fun k hk w₁ ⟨hf₁, hlanes, hassigned⟩ => by
      have ha := hlanes.a k hk
      have hb := hlanes.b k hk
      have hval : eval env w₁ (.bin (o k) (.var (laneVar 'a' k)) (.var (laneVar 'b' k))) =
          .ok (.elems [env.ar.op (o k) (s k).a (s k).b]) := by
        simpa [done] using eval_bin_elems (o := o k) (eval_var ha) (eval_var hb) rfl
      have hfit : (Val.elems [env.ar.op (o k) (s k).a (s k).b]).fits env ty := by
        simp [Val.fits, hty, hwidth]
      have hne {c : Char} {j : Nat} (hcj : ¬ (c = 'a' ∧ j = k)) : laneVar c j ≠ laneVar 'a' k :=
        fun h => hcj (laneVar_inj.mp h)
      refine ⟨_, execAll_singleton (execSimple_assign ha hval hfit),
        hf₁.set ⟨?_, ?_, ?_⟩ _ _, ⟨fun j hj => ?_, fun j hj => ?_⟩, fun j hj => ?_⟩
      · exact fun h => absurd (List.cons.inj h).1 (by decide)
      · exact fun h => absurd (List.cons.inj h).1 (by decide)
      · exact fun h => absurd (List.cons.inj h).1 (by decide)
      · by_cases hjk : j = k
        · subst hjk
          simp [done]
        · rw [WorkItem.set_vars_of_ne (hne (by simp [hjk])), hlanes.a j hj]
          simp [done, show (j < k + 1 ↔ j < k) by omega]
      · rw [WorkItem.set_vars_of_ne (hne (by simp)), hlanes.b j hj, hdone, hdone]
      · by_cases hjk : j = k
        · subst hjk
          simp [hassigned j hj]
        · rw [WorkItem.set_assigned_of_ne (hne (by simp [hjk])), hassigned j hj]
          simp [show (j < k + 1 ↔ j < k) by omega])
    ⟨hf, ⟨by simpa [done] using h.a, by simpa [done] using h.b⟩, fun j _ => by simp⟩
  refine ⟨w', hrun, hf', ⟨fun j hj => ?_, fun j hj => ?_⟩, fun j hj => ?_⟩
  · simpa [done, hj] using hlanes.a j hj
  · simpa [done, hj] using hlanes.b j hj
  · simpa [hj] using hassigned j hj

/-- A line of lane operations. -/
theorem Running.laneLine {fct : Function} {ftype : FunctionType} {vec count cnt : Nat}
    {s : Nat → Lane T} (hty : ty.scalar = env.elem) (hwidth : ty.width = 1)
    (h : Running fct ftype ty vec gid iterations i count s w) (hlaned : fct.laned = true)
    (o : Nat → Op)
    (hline : lineStmts fct ftype ty vec cnt = (List.range vec).flatMap fun j =>
      [.assign (laneVar 'a' j) (.bin (o j) (.var (laneVar 'a' j)) (.var (laneVar 'b' j)))])
    (hstep : ∀ j s, lineStep env.ar fct ftype (cnt + j) s = { s with a := env.ar.op (o j) s.a s.b }) :
    ∃ w', execAll env (lineStmts fct ftype ty vec cnt) w = .ok w' ∧
      Running fct ftype ty vec gid iterations i (count + 1)
        (fun j => lineStep env.ar fct ftype (cnt + j) (s j)) w' := by
  have hassigned := h.assigned
  simp only [accName, hlaned, if_true] at hassigned
  obtain ⟨w', hrun, hf', hlanes', hassigned'⟩ := exec_laneOps hty hwidth (h.lanes hlaned) h.frame o
  refine ⟨w', hline ▸ hrun, hf', by simp [hlaned], fun _ => ?_, fun j hj => ?_⟩
  · simpa only [hstep] using hlanes'
  · rw [accName, hlaned, if_pos rfl, hassigned' j hj, hassigned j hj]

/-- A line that assigns to `a` once and takes the lanes to `s'`. -/
theorem Running.vectorLine {fct : Function} {ftype : FunctionType} {vec count cnt : Nat}
    {s s' : Nat → Lane T} (h : Running fct ftype ty vec gid iterations i count s w)
    (hlaned : fct.laned = false)
    (hline : ∃ w', execAll env (lineStmts fct ftype ty vec cnt) w = .ok w' ∧
      FrameHolds gid iterations i w' ∧ VectorHolds ty (functionToCode ftype fct).binaryOp
        (functionToCode ftype fct).ntemps s' w' ∧ w'.assigned ['a'] = w.assigned ['a'] + 1)
    (hstep : ∀ j, lineStep env.ar fct ftype (cnt + j) (s j) = s' j) :
    ∃ w', execAll env (lineStmts fct ftype ty vec cnt) w = .ok w' ∧
      Running fct ftype ty vec gid iterations i (count + 1)
        (fun j => lineStep env.ar fct ftype (cnt + j) (s j)) w' := by
  have hassigned := h.assigned
  simp only [accName, hlaned, Bool.false_eq_true, if_false] at hassigned
  obtain ⟨w', hrun, hf', hvector', hassigned'⟩ := hline
  refine ⟨w', hrun, hf', fun _ => ?_, by simp [hlaned], fun j hj => ?_⟩
  · simpa only [hstep] using hvector'
  · rw [accName, hlaned, if_neg (by decide), hassigned', hassigned j hj]

/-- **One line** advances every lane by one step. -/
theorem Running.line {fct : Function} {ftype : FunctionType} {vec count : Nat} {s : Nat → Lane T}
    (hty : ty.scalar = env.elem) (hwidth : fct.laned = true → ty.width = 1)
    (h : Running fct ftype ty vec gid iterations i count s w) (cnt : Nat) :
    ∃ w', execAll env (lineStmts fct ftype ty vec cnt) w = .ok w' ∧
      Running fct ftype ty vec gid iterations i (count + 1)
        (fun j => lineStep env.ar fct ftype (cnt + j) (s j)) w' := by
  cases hlaned : fct.laned with
  | true =>
      cases fct with
      | vec => exact h.laneLine hty (hwidth hlaned) hlaned (fun _ => .sub) rfl fun _ _ => rfl
      | vliw =>
          exact h.laneLine hty (hwidth hlaned) hlaned (fun j => vliwOp (cnt + j)) rfl fun _ _ => rfl
      | _ => exact absurd hlaned (by decide)
  | false =>
      have hvector := h.vector hlaned
      have hbin (o : Op) (hb : (functionToCode ftype fct).binaryOp = true) :
          eval env w (.bin o varA varB) =
            .ok (.elems (lanesOf ty.width fun j => env.ar.op o (s j).a (s j).b)) :=
        eval_bin_lanesOf (eval_var hvector.a) (eval_var (hvector.b hb))
      have hfn1 (f : Text) : eval env w (.call f varA) =
          .ok (.elems (lanesOf ty.width fun j => env.ar.fn1 f (s j).a)) :=
        eval_call1_lanesOf (eval_var hvector.a)
      cases fct with
      | add => exact h.vectorLine hlaned (exec_shiftStmts hty hvector h.frame (hbin .add rfl)) fun _ => rfl
      | sub => exact h.vectorLine hlaned (exec_shiftStmts hty hvector h.frame (hbin .sub rfl)) fun _ => rfl
      | mul => exact h.vectorLine hlaned (exec_shiftStmts hty hvector h.frame (hbin .mul rfl)) fun _ => rfl
      | div =>
          cases ftype with
          | default =>
              exact h.vectorLine hlaned (exec_shiftStmts hty hvector h.frame (hbin .div rfl)) fun _ => rfl
          | native =>
              exact h.vectorLine hlaned (exec_shiftStmts hty hvector h.frame (eval_call2_lanesOf
                (eval_var hvector.a) (eval_var (hvector.b rfl)))) fun _ => rfl
      | mad =>
          exact h.vectorLine hlaned
            (exec_shiftStmts hty hvector h.frame (eval_madExpr hty hvector rfl)) fun _ => rfl
      | madMul => exact h.vectorLine hlaned (exec_madMul hty hvector h.frame ftype vec cnt) fun _ => rfl
      | sqr =>
          exact h.vectorLine hlaned (exec_unary hty hvector h.frame (eval_call2_lanesOf (eval_var hvector.a)
            (eval_castReal hty "2.0".toList))) fun _ => rfl
      | vec => exact absurd hlaned (by decide)
      | vliw => exact absurd hlaned (by decide)
      | _ => exact h.vectorLine hlaned (exec_unary hty hvector h.frame (hfn1 _)) fun _ => rfl

/-- The loop body runs `unrollFactor` lines. -/
theorem Running.body {elem : ElemType} {fct : Function} {ftype : FunctionType} {vec count : Nat}
    {s : Nat → Lane T} (helem : elem.scalar = env.elem)
    (h : Running fct ftype (laneTy elem fct vec) vec gid iterations i count s w) (unrollFactor : Nat) :
    ∃ w', execAll env (bodyStmts elem fct ftype vec unrollFactor) w = .ok w' ∧
      Running fct ftype (laneTy elem fct vec) vec gid iterations i (count + unrollFactor)
        (fun j => iterationStep env.ar fct ftype vec unrollFactor j (s j)) w' := by
  obtain ⟨w', hrun, hinv⟩ := execAll_flatMap env w
    (fun n => Running fct ftype (laneTy elem fct vec) vec gid iterations i (count + n)
      fun j => iterationStep env.ar fct ftype vec n j (s j)) unrollFactor
    (fun n _ w₁ h₁ => by
      have hwidth : fct.laned = true → (laneTy elem fct vec).width = 1 := fun hl => if_pos hl
      obtain ⟨w₂, hrun, h₂⟩ := h₁.line helem hwidth (n * vec)
      refine ⟨w₂, hrun, ?_⟩
      simpa [iterationStep, List.range_succ, Nat.add_assoc] using h₂)
    (by simpa [iterationStep] using h)
  exact ⟨w', hrun, hinv⟩

/-- Assigning the loop counter leaves the lanes alone. -/
theorem Running.setCounter {fct : Function} {ftype : FunctionType} {vec count : Nat}
    {s : Nat → Lane T} (h : Running fct ftype ty vec gid iterations i count s w) (n : Nat) :
    Running fct ftype ty vec gid iterations (some (.uint n)) count s
      (w.set ['i'] ⟨.uint, 1⟩ (.uint n)) := by
  have hlane {c : Char} {j : Nat} (hc : c ≠ 'i') : laneVar c j ≠ ['i'] :=
    fun h => hc (List.cons.inj h).1
  have hacc (j : Nat) : accName fct j ≠ ['i'] := by
    unfold accName
    split
    · exact hlane (by decide)
    · decide
  refine ⟨⟨?_, ?_, WorkItem.set_vars_self .., h.frame.writes⟩, fun hl => ?_,
    fun hl => ⟨fun j hj => ?_, fun j hj => ?_⟩, fun j hj => ?_⟩
  · rw [WorkItem.set_vars_of_ne (by decide), h.frame.gid]
  · rw [WorkItem.set_vars_of_ne (by decide), h.frame.iterations]
  · have hv := h.vector hl
    exact {
      a := by rw [WorkItem.set_vars_of_ne (by decide), hv.a]
      b := fun hb => by rw [WorkItem.set_vars_of_ne (by decide), hv.b hb]
      tmp := fun hb => by rw [WorkItem.set_vars_of_ne (by decide)]; exact hv.tmp hb
      c := fun hn => by rw [WorkItem.set_vars_of_ne (by decide), hv.c hn]
      d := fun hn => by rw [WorkItem.set_vars_of_ne (by decide), hv.d hn]
      tmp2 := fun hn => by rw [WorkItem.set_vars_of_ne (by decide)]; exact hv.tmp2 hn }
  · rw [WorkItem.set_vars_of_ne (hlane (by decide)), (h.lanes hl).a j hj]
  · rw [WorkItem.set_vars_of_ne (hlane (by decide)), (h.lanes hl).b j hj]
  · rw [WorkItem.set_assigned_of_ne (hacc j), h.assigned j hj]

/-- **The loop** takes every lane through `iterations` iterations. -/
theorem Running.loop {elem : ElemType} {fct : Function} {ftype : FunctionType} {vec fuel : Nat}
    {s : Nat → Lane T} (helem : elem.scalar = env.elem)
    (h : Running fct ftype (laneTy elem fct vec) vec gid iterations i 0 s w) (unrollFactor : Nat)
    (hiter : iterations < 2 ^ 32) (hfuel : iterations < fuel) :
    ∃ w', execStmt env fuel (.loop loopHead (bodyStmts elem fct ftype vec unrollFactor)) w = .ok w' ∧
      Running fct ftype (laneTy elem fct vec) vec gid iterations (some (.uint iterations))
        (iterations * unrollFactor)
        (fun j => (iterationStep env.ar fct ftype vec unrollFactor j)^[iterations] (s j)) w' := by
  have hinit : execSimple env (.assign ['i'] (.int 0)) w = .ok (w.set ['i'] ⟨.uint, 1⟩ (.uint 0)) :=
    execSimple_assign h.frame.counter (eval_int (by decide)) rfl
  obtain ⟨w', hrun, hinv⟩ := runLoop_counted env loopHead
    (bodyStmts elem fct ftype vec unrollFactor)
    (fun n => Running fct ftype (laneTy elem fct vec) vec gid iterations (some (.uint n))
      (n * unrollFactor) fun j => (iterationStep env.ar fct ftype vec unrollFactor j)^[n] (s j))
    iterations
    (fun n _ w₁ h₁ => ⟨eval_var h₁.frame.counter, eval_var h₁.frame.iterations⟩)
    (fun n hn w₁ h₁ => by
      obtain ⟨w₂, hbody, h₂⟩ := h₁.body helem unrollFactor
      have hadd : uintOp .add n 1 = .ok (n + 1) := by
        rw [uintOp, Nat.mod_eq_of_lt (by omega)]
      have hnext : execSimple env (.assign ['i'] (.bin .add (.var ['i']) (.int 1))) w₂ = .ok _ :=
        execSimple_assign h₂.frame.counter (eval_bin_uint (eval_var h₂.frame.counter) (eval_int (by decide))
          hadd) rfl
      refine ⟨_, (execAll_append hbody).trans (execAll_singleton hnext), ?_⟩
      have h₃ := h₂.setCounter (n + 1)
      simp only [Function.iterate_succ_apply', Nat.succ_mul]
      exact h₃)
    (by simpa using h.setCounter 0) hfuel
  refine ⟨w', ?_, hinv⟩
  simp only [execStmt, loopHead, hinit]
  exact hrun

/-! ## the private variables -/

/-- A list of inputs evaluates to their cells. -/
theorem eval_joinInputs {b : Buffer T} {data : Nat → T} (hb : env.bufs inputName = some b) (i : Nat)
    (is : List Nat) (hcell : ∀ k ∈ i :: is, b.cell k = some (data k) ∧ k < 2 ^ 32) :
    eval env w (joinInputs i is) = .ok (match is with
      | [] => .elems [data i]
      | is => .args ((i :: is).map fun k => [data k])) := by
  induction is generalizing i with
  | nil =>
      obtain ⟨hi, hlt⟩ := hcell i List.mem_cons_self
      exact eval_index hb (eval_int hlt) hi
  | cons j js ih =>
      obtain ⟨hi, hlt⟩ := hcell i List.mem_cons_self
      have hhead : eval env w (inputAt i) = .ok (.elems [data i]) := eval_index hb (eval_int hlt) hi
      have htail := ih j fun k hk => hcell k (List.mem_cons_of_mem i hk)
      cases js with
      | nil => rw [joinInputs, eval, hhead, htail]; rfl
      | cons k ks => rw [joinInputs, eval, hhead, htail]; rfl

theorem eval_load {b : Buffer T} {data : Nat → T} (hb : env.bufs inputName = some b)
    (hty : ty.scalar = env.elem) (i : Nat) (is : List Nat)
    (hcell : ∀ k ∈ i :: is, b.cell k = some (data k) ∧ k < 2 ^ 32) (hlen : is.length + 1 = ty.width) :
    eval env w (.conv ty (joinInputs i is)) = .ok (.elems ((i :: is).map data)) := by
  have hjoin := eval_joinInputs (w := w) hb i is hcell
  rw [eval, hjoin]
  cases is with
  | nil => simp [convElems, hty, ← hlen]
  | cons j js =>
      have hflat (ks : List Nat) : (ks.map fun k => [data k]).flatten = ks.map data := by
        induction ks with
        | nil => rfl
        | cons k ks ih => simp [ih]
      simp only [hflat, convElems, if_pos hty, List.length_map, List.length_cons]
      rw [if_pos (by simpa using hlen)]

/-- `vec` cells from `base` on, as the vector literals list them. -/
theorem map_inputs {vec : Nat} (hvec : 1 ≤ vec) (base : Nat) (data : Nat → T) :
    (base :: (List.range' 1 (vec - 1)).map (· + base)).map data = lanesOf vec fun j => data (base + j) := by
  obtain ⟨n, rfl⟩ : ∃ n, vec = n + 1 := ⟨vec - 1, by omega⟩
  rw [lanesOf, List.range_eq_range', List.range'_succ]
  simp [Function.comp_def, Nat.add_comm]

/-- The lanes before the first operation: `c` starts like `b` and `d` like
`a`. -/
def startLane (data : Nat → T) (vec j : Nat) : Lane T :=
  ⟨data j, data (vec + j), data (vec + j), data j⟩

/-- What the kernel finds in its input: `2 * vec` cells holding `data`. -/
structure InputHolds (env : Env T) (vec : Nat) (data : Nat → T) (b : Buffer T) : Prop where
  bound : env.bufs inputName = some b
  cell : ∀ k < 2 * vec, b.cell k = some (data k)
  pos : 1 ≤ vec
  small : 2 * vec < 2 ^ 32

theorem declares_load {vec : Nat} {data : Nat → T} {b : Buffer T} (hin : InputHolds env vec data b)
    (hty : ty.scalar = env.elem) (hwidth : ty.width = vec) (x : Text) {base : Nat}
    (hbase : base ≤ vec) :
    Declares env [loadStmt ty x base ((List.range' 1 (vec - 1)).map (· + base))]
      [(x, ⟨ty, some (.elems (lanesOf ty.width fun j => data (base + j)))⟩)] := by
  have hpos := hin.pos
  have hcell : ∀ k ∈ base :: (List.range' 1 (vec - 1)).map (· + base),
      b.cell k = some (data k) ∧ k < 2 ^ 32 := by
    intro k hk
    have hlt : k < 2 * vec := by
      rw [List.mem_cons, List.mem_map] at hk
      obtain rfl | ⟨j, hj, rfl⟩ := hk
      · omega
      · rw [List.mem_range'_1] at hj; omega
    exact ⟨hin.cell k hlt, by have := hin.small; omega⟩
  refine declares_singleton fun w hx => ?_
  have heval := eval_load (w := w) hin.bound hty base _ hcell (by simp; omega)
  have hfit : (Val.elems (lanesOf ty.width fun j => data (base + j))).fits env ty := fits_lanesOf hty _
  rw [map_inputs hin.pos] at heval
  rw [hwidth] at hfit ⊢
  exact execSimple_decl hx heval hfit

/-- A work item before its first statement: only `iterations` has a value. -/
def initial (iterations : Nat) : WorkItem T :=
  (⟨fun _ => none, fun _ => 0, []⟩ : WorkItem T).declare iterationsName
    ⟨⟨.uint, 1⟩, some (.uint (iterations % 2 ^ 32))⟩

theorem initial_vars {iterations : Nat} {x : Text} (h : x ≠ iterationsName) :
    (initial iterations : WorkItem T).vars x = none := WorkItem.declare_vars_of_ne h _

/-- After the two declarations every kernel starts with. -/
def started (gid iterations : Nat) : WorkItem T :=
  ((initial iterations).declare ['i'] ⟨⟨.uint, 1⟩, none⟩).declare gidName
    ⟨⟨.uint, 1⟩, some (.uint (gid % 2 ^ 32))⟩

theorem started_vars {gid iterations : Nat} {x : Text}
    (h : x ≠ gidName ∧ x ≠ ['i'] ∧ x ≠ iterationsName) :
    (started gid iterations : WorkItem T).vars x = none := by
  rw [started, WorkItem.declare_vars_of_ne h.1, WorkItem.declare_vars_of_ne h.2.1, initial_vars h.2.2]

theorem exec_startStmts (iterations : Nat) :
    execAll env startStmts (initial iterations) = .ok (started env.gid iterations) := by
  have hi : (initial iterations : WorkItem T).vars ['i'] = none := initial_vars (by decide)
  have hgid : ((initial iterations : WorkItem T).declare ['i'] ⟨⟨.uint, 1⟩, none⟩).vars gidName = none := by
    rw [WorkItem.declare_vars_of_ne (by decide), initial_vars (by decide)]
  have hcall : eval env ((initial iterations : WorkItem T).declare ['i'] ⟨⟨.uint, 1⟩, none⟩)
      (.call "get_global_id".toList (.int 0)) = .ok (.uint (env.gid % 2 ^ 32)) := rfl
  exact (execAll_cons (execSimple_declare _ hi)).trans (execAll_singleton (execSimple_decl hgid hcall rfl))

theorem frame_started (hgid : gid < 2 ^ 32) (hiter : iterations < 2 ^ 32) :
    FrameHolds gid iterations none (started gid iterations : WorkItem T) where
  gid := by rw [started, WorkItem.declare_vars_self, Nat.mod_eq_of_lt hgid]
  iterations := by
    rw [started, WorkItem.declare_vars_of_ne (by decide),
      WorkItem.declare_vars_of_ne (by decide), initial, WorkItem.declare_vars_self,
      Nat.mod_eq_of_lt hiter]
  counter := by rw [started, WorkItem.declare_vars_of_ne (by decide), WorkItem.declare_vars_self]
  writes := rfl

/-- The private variables are declared behind the others. -/
theorem exec_started {ss : List Simple} {ds : List (Text × Slot T)} (h : Declares env ss ds)
    (hnodup : (ds.map Prod.fst).Nodup)
    (hnames : ∀ d ∈ ds, d.1 ≠ gidName ∧ d.1 ≠ ['i'] ∧ d.1 ≠ iterationsName)
    (hgid : gid < 2 ^ 32) (hiter : iterations < 2 ^ 32) :
    execAll env ss (started gid iterations) = .ok ((started gid iterations).declareAll ds) ∧
      FrameHolds gid iterations none ((started gid iterations).declareAll ds) := by
  have hframe : FrameHolds gid iterations none (started gid iterations : WorkItem T) :=
    frame_started hgid hiter
  refine ⟨h _ (fun d hd => started_vars (hnames d hd)) hnodup, ?_, ?_, ?_, ?_⟩
  · rw [WorkItem.declareAll_vars_of_ne fun d hd => (hnames d hd).1.symm, hframe.gid]
  · rw [WorkItem.declareAll_vars_of_ne fun d hd => (hnames d hd).2.2.symm, hframe.iterations]
  · rw [WorkItem.declareAll_vars_of_ne fun d hd => (hnames d hd).2.1.symm, hframe.counter]
  · rw [WorkItem.declareAll_writes, hframe.writes]

/-- What the declarations of a scalar or vector function create. -/
def privateSlots (ty : Ty) (binaryOp : Bool) (ntemps vec : Nat) (data : Nat → T) :
    List (Text × Slot T) :=
  let first : Slot T := ⟨ty, some (.elems (lanesOf ty.width data))⟩
  let second : Slot T := ⟨ty, some (.elems (lanesOf ty.width fun j => data (vec + j)))⟩
  (['a'], first) ::
    (if binaryOp then
      [(['b'], second), (tmpName, ⟨ty, none⟩)] ++
        (if ntemps > 1 then [(['c'], second), (['d'], first), (tmp2Name, ⟨ty, none⟩)] else [])
    else [])

section
variable {vec ntemps : Nat} {binaryOp : Bool} {data : Nat → T} {b : Buffer T}

theorem declares_private (hin : InputHolds env vec data b) (hty : ty.scalar = env.elem)
    (hwidth : ty.width = vec) (binaryOp : Bool) (ntemps : Nat) :
    Declares env (privateStmts ty binaryOp ntemps vec)
      (privateSlots ty binaryOp ntemps vec data) := by
  have hfirst (x : Text) := declares_load hin hty hwidth x (Nat.zero_le vec)
  have hsecond (x : Text) := declares_load hin hty hwidth x le_rfl
  have htmp (x : Text) : Declares env [.decl ty x none] [(x, (⟨ty, none⟩ : Slot T))] :=
    declares_singleton fun w hx => execSimple_declare ty hx
  simp only [Nat.add_zero, List.map_id', Nat.zero_add] at hfirst
  unfold privateStmts privateSlots
  cases binaryOp with
  | false => exact hfirst ['a']
  | true =>
      by_cases htemps : ntemps > 1
      · simp only [if_true, if_pos htemps]
        exact (hfirst ['a']).append (((hsecond ['b']).append (htmp tmpName)).append
          ((hsecond ['c']).append ((hfirst ['d']).append (htmp tmp2Name))))
      · simp only [if_true, if_neg htemps, List.append_nil]
        exact (hfirst ['a']).append ((hsecond ['b']).append (htmp tmpName))

/-- The variables of scalar and vector functions. -/
def privateNames : List Text := [['a'], ['b'], tmpName, ['c'], ['d'], tmp2Name]

theorem privateSlots_sublist (ty : Ty) (binaryOp : Bool) (ntemps vec : Nat) (data : Nat → T) :
    ((privateSlots ty binaryOp ntemps vec data).map Prod.fst).Sublist privateNames := by
  unfold privateSlots
  cases binaryOp with
  | false => exact (by decide : List.Sublist [['a']] privateNames)
  | true =>
      by_cases htemps : ntemps > 1
      · simp only [if_true, if_pos htemps]
        exact List.Sublist.refl privateNames
      · simp only [if_true, if_neg htemps]
        exact (by decide : List.Sublist [['a'], ['b'], tmpName] privateNames)

theorem nodup_privateSlots (ty : Ty) (binaryOp : Bool) (ntemps vec : Nat) (data : Nat → T) :
    ((privateSlots ty binaryOp ntemps vec data).map Prod.fst).Nodup :=
  (by decide : privateNames.Nodup).sublist (privateSlots_sublist ..)

theorem privateSlots_names :
    ∀ d ∈ privateSlots ty binaryOp ntemps vec data,
      d.1 ≠ gidName ∧ d.1 ≠ ['i'] ∧ d.1 ≠ iterationsName := by
  have hall : ∀ x ∈ privateNames, x ≠ gidName ∧ x ≠ ['i'] ∧ x ≠ iterationsName := by decide
  exact fun d hd => hall d.1 ((privateSlots_sublist ..).subset (List.mem_map_of_mem hd))

theorem vectorHolds_privateSlots (hntemps : ntemps > 1 → binaryOp = true) (w : WorkItem T) :
    VectorHolds ty binaryOp ntemps (startLane data vec)
      (w.declareAll (privateSlots ty binaryOp ntemps vec data)) := by
  have hslot {x : Text} {slot : Slot T} (h : (x, slot) ∈ privateSlots ty binaryOp ntemps vec data) :=
    WorkItem.declareAll_vars_of_mem (w := w) (nodup_privateSlots ty binaryOp ntemps vec data) h
  constructor
  case a => exact hslot (by simp [privateSlots, startLane])
  case b => exact fun hb => hslot (by simp [privateSlots, startLane, hb])
  case tmp => exact fun hb => ⟨none, hslot (by simp [privateSlots, hb])⟩
  case c => exact fun hc => hslot (by simp [privateSlots, startLane, hntemps hc, hc])
  case d => exact fun hd => hslot (by simp [privateSlots, startLane, hntemps hd, hd])
  case tmp2 => exact fun h => ⟨none, hslot (by simp [privateSlots, hntemps h, h])⟩

/-- Scalar and vector functions declare the variables they use, and no
others. -/
theorem exec_privateStmts (hin : InputHolds env vec data b) (hty : ty.scalar = env.elem)
    (hwidth : ty.width = vec) (hntemps : ntemps > 1 → binaryOp = true) (hgid : gid < 2 ^ 32)
    (hiter : iterations < 2 ^ 32) :
    ∃ w', execAll env (privateStmts ty binaryOp ntemps vec) (started gid iterations) = .ok w' ∧
      FrameHolds gid iterations none w' ∧
      VectorHolds ty binaryOp ntemps (startLane data vec) w' ∧ ∀ x, w'.assigned x = 0 := by
  obtain ⟨hrun, hframe⟩ := exec_started (declares_private hin hty hwidth binaryOp ntemps)
    (nodup_privateSlots ..) privateSlots_names hgid hiter
  refine ⟨_, hrun, hframe, vectorHolds_privateSlots hntemps _, fun x => ?_⟩
  rw [WorkItem.declareAll_assigned]
  rfl

/-- What the declarations of `_VEC` and `_VLIW` create. -/
def laneSlots (ty : Ty) (vec : Nat) (data : Nat → T) : List (Text × Slot T) :=
  (List.range vec).flatMap fun j =>
    [(laneVar 'a' j, ⟨ty, some (.elems [data j])⟩), (laneVar 'b' j, ⟨ty, some (.elems [data (vec + j)])⟩)]

theorem declares_lanes (hin : InputHolds env vec data b) (hty : ty.scalar = env.elem)
    (hwidth : ty.width = 1) : Declares env (lanesStmts ty vec) (laneSlots ty vec data) := by
  have hsmall := hin.small
  refine declares_flatMap _ fun j hj => ?_
  rw [List.mem_range] at hj
  have hlane (x : Text) {n : Nat} (hn : n < 2 * vec) :
      Declares env [.decl ty x (some (inputAt n))] [(x, ⟨ty, some (.elems [data n])⟩)] := by
    refine declares_singleton fun w hx => execSimple_decl hx ?_ (by simp [Val.fits, hty, hwidth])
    exact eval_index hin.bound (eval_int (by omega)) (hin.cell n hn)
  rw [Nat.add_comm vec j]
  exact (hlane (laneVar 'a' j) (by omega)).append (hlane (laneVar 'b' j) (by omega))

theorem nodup_laneSlots (ty : Ty) (vec : Nat) (data : Nat → T) :
    ((laneSlots ty vec data).map Prod.fst).Nodup := by
  rw [laneSlots, List.map_flatMap, List.nodup_flatMap]
  refine ⟨fun j _ => by simp [laneVar], List.nodup_range.imp fun hne => ?_⟩
  simp [List.Disjoint, laneVar_inj, hne, hne.symm]

theorem laneSlots_names :
    ∀ d ∈ laneSlots ty vec data, d.1 ≠ gidName ∧ d.1 ≠ ['i'] ∧ d.1 ≠ iterationsName := by
  intro d hd
  obtain ⟨j, -, hd⟩ := List.mem_flatMap.mp hd
  have hhead {c : Char} {x : Text} (hc : x.head? ≠ some c) : laneVar c j ≠ x := by
    rintro rfl
    exact hc rfl
  simp only [List.mem_cons, List.not_mem_nil, or_false] at hd
  obtain rfl | rfl := hd <;>
    exact ⟨hhead (by decide), hhead (by decide), hhead (by decide)⟩

theorem lanesHold_laneSlots (w : WorkItem T) :
    LanesHold ty vec (startLane data vec) (w.declareAll (laneSlots ty vec data)) := by
  have hslot {x : Text} {slot : Slot T} (h : (x, slot) ∈ laneSlots ty vec data) :=
    WorkItem.declareAll_vars_of_mem (w := w) (nodup_laneSlots ty vec data) h
  exact ⟨fun j hj => hslot (List.mem_flatMap.mpr ⟨j, List.mem_range.mpr hj, by simp [startLane]⟩),
    fun j hj => hslot (List.mem_flatMap.mpr ⟨j, List.mem_range.mpr hj, by simp [startLane]⟩)⟩

/-- `_VEC` and `_VLIW` declare two variables per lane. -/
theorem exec_lanesStmts (hin : InputHolds env vec data b) (hty : ty.scalar = env.elem)
    (hwidth : ty.width = 1) (hgid : gid < 2 ^ 32) (hiter : iterations < 2 ^ 32) :
    ∃ w', execAll env (lanesStmts ty vec) (started gid iterations) = .ok w' ∧
      FrameHolds gid iterations none w' ∧ LanesHold ty vec (startLane data vec) w' ∧
      ∀ x, w'.assigned x = 0 := by
  obtain ⟨hrun, hframe⟩ := exec_started (declares_lanes hin hty hwidth) (nodup_laneSlots ..)
    laneSlots_names hgid hiter
  refine ⟨_, hrun, hframe, lanesHold_laneSlots _, fun x => ?_⟩
  rw [WorkItem.declareAll_assigned]
  rfl

end

/-- **The declarations** leave every lane at its start. -/
theorem exec_declStmts {elem : ElemType} {vec : Nat} {data : Nat → T} {b : Buffer T}
    (hin : InputHolds env vec data b) (helem : elem.scalar = env.elem) (fct : Function)
    (ftype : FunctionType) (iterations : Nat) (hgid : env.gid < 2 ^ 32) (hiter : iterations < 2 ^ 32) :
    ∃ w', execAll env (declStmts elem fct ftype vec) (initial iterations) = .ok w' ∧
      Running fct ftype (laneTy elem fct vec) vec env.gid iterations none 0 (startLane data vec) w' := by
  have hstart : execAll env startStmts (initial iterations) = .ok (started env.gid iterations) :=
    exec_startStmts iterations
  have helem : (laneTy elem fct vec).scalar = env.elem := helem
  cases hlaned : fct.laned with
  | true =>
      have hwidth : (laneTy elem fct vec).width = 1 := if_pos hlaned
      obtain ⟨w', hrun, hf, hlanes, hassigned⟩ :=
        exec_lanesStmts hin helem hwidth hgid hiter
      refine ⟨w', ?_, hf, by simp [hlaned], fun _ => hlanes, fun j _ => hassigned _⟩
      simp only [declStmts, hlaned, if_true]
      exact (execAll_append hstart).trans hrun
  | false =>
      have hwidth : (laneTy elem fct vec).width = vec := if_neg (by simp [hlaned])
      have hntemps : (functionToCode ftype fct).ntemps > 1 →
          (functionToCode ftype fct).binaryOp = true := by
        cases fct <;> cases ftype <;> decide
      obtain ⟨w', hrun, hf, hvector, hassigned⟩ :=
        exec_privateStmts hin helem hwidth hntemps hgid hiter
      refine ⟨w', ?_, hf, fun _ => hvector, by simp [hlaned], fun j _ => hassigned _⟩
      simp only [declStmts, hlaned, Bool.false_eq_true, if_false]
      exact (execAll_append hstart).trans hrun

/-! ## the results -/

/-- What a lane contributes to the output. -/
def laneResult (ar : Arith T) (ntemps : Nat) (s : Lane T) : T :=
  if ntemps < 2 then s.a else ar.op .add s.a s.c

/-- The writes of a work item: one cell per lane, in order. -/
def laneWrites (vec gid : Nat) (value : Nat → T) : List (Write T) :=
  (List.range vec).map fun j => ⟨outputName, vec * gid + j, value j⟩

/-- The cells of one work item, from a value for each. -/
theorem exec_cellStores {vec : Nat} {out : Buffer T} {res : Nat → T} {e : Nat → Expr}
    (hframe : FrameHolds gid iterations i w) (hout : env.bufs outputName = some out)
    (hsize : vec * gid + vec ≤ out.size) (hsmall : vec * gid + vec < 2 ^ 32)
    (he : ∀ j < vec, ∀ writes : List (Write T),
      eval env { w with writes := writes } (e j) = .ok (.elems [res j])) :
    execAll env ((List.range vec).flatMap fun j => [.store outputName (cellIndex vec j) (e j)]) w =
      .ok ⟨w.vars, w.assigned, laneWrites vec gid res⟩ := by
  let laneWrites' (k : Nat) : List (Write T) :=
    (List.range k).map fun j => ⟨outputName, vec * gid + j, res j⟩
  obtain ⟨w', hrun, rfl⟩ := execAll_flatMap env w
    (fun k w' => w' = { w with writes := laneWrites' k }) vec
    (fun k hk w' hw' => by
      have hgid : eval env w' (.var gidName) = .ok (.uint gid) := by
        rw [hw']
        exact eval_var hframe.gid
      have hmul : uintOp .mul vec gid = .ok (vec * gid) := by
        rw [uintOp, Nat.mod_eq_of_lt (by omega)]
      have hadd : uintOp .add (vec * gid) k = .ok (vec * gid + k) := by
        rw [uintOp, Nat.mod_eq_of_lt (by omega)]
      have hindex : eval env w' (cellIndex vec k) = .ok (.uint (vec * gid + k)) :=
        eval_bin_uint (eval_bin_uint (eval_int (by omega)) hgid hmul) (eval_int (by omega)) hadd
      have hvalue : eval env w' (e k) = .ok (.elems [res k]) := by
        rw [hw']
        exact he k hk _
      refine ⟨_, execAll_singleton (execSimple_store hout hindex hvalue (by omega)), ?_⟩
      rw [hw']
      simp [laneWrites', List.range_succ])
    (by simp [laneWrites', ← hframe.writes])
  exact hrun

theorem exec_resultsStmts {elem : ElemType} {fct : Function} {ftype : FunctionType}
    {vec count : Nat} {s : Nat → Lane T} {out : Buffer T} (hpos : 1 ≤ vec)
    (h : Running fct ftype (laneTy elem fct vec) vec gid iterations i count s w)
    (hout : env.bufs outputName = some out) (hsize : vec * gid + vec ≤ out.size)
    (hsmall : vec * gid + vec < 2 ^ 32) :
    execAll env (resultsStmts fct (functionToCode ftype fct).ntemps vec) w =
      .ok ⟨w.vars, w.assigned, laneWrites vec gid fun j =>
        laneResult env.ar (functionToCode ftype fct).ntemps (s j)⟩ := by
  generalize hres : (fun j => laneResult env.ar (functionToCode ftype fct).ntemps (s j)) = res
  have hval : ∀ j, laneResult env.ar (functionToCode ftype fct).ntemps (s j) = res j :=
    fun j => congrFun hres j
  cases hlaned : fct.laned with
  | true =>
      have hntemps : (functionToCode ftype fct).ntemps < 2 := by
        cases fct with
        | vec | vliw => exact Nat.two_pos
        | _ => exact absurd hlaned (by decide)
      simp only [resultsStmts, hlaned, if_true]
      refine exec_cellStores h.frame hout hsize hsmall fun j hj writes => ?_
      rw [← hval j, laneResult, if_pos hntemps]
      exact eval_var ((h.lanes hlaned).a j hj)
  | false =>
      have hv := h.vector hlaned
      have hwidth : (laneTy elem fct vec).width = vec := if_neg (by simp [hlaned])
      have ha := hv.a
      have hc := hv.c
      rw [hwidth] at ha hc
      simp only [resultsStmts, hlaned, Bool.false_eq_true, if_false]
      by_cases hone : vec = 1
      · -- a scalar is stored at `gid`
        subst hone
        have hvalue : eval env w (if (functionToCode ftype fct).ntemps < 2 then varA
            else .bin .add varA varC) = .ok (.elems [res 0]) := by
          rw [← hval 0, laneResult]
          split
          · exact eval_var ha
          · exact eval_bin_elems (eval_var ha) (eval_var (hc (by omega))) rfl
        simp only [if_true]
        rw [execAll_singleton (execSimple_store hout (eval_var h.frame.gid) hvalue (by omega)),
          h.frame.writes]
        simp [laneWrites]
      · simp only [if_neg hone]
        refine exec_cellStores h.frame hout hsize hsmall fun j hj writes => ?_
        have hlane {x : Text} {f : Nat → T} (hx : w.vars x =
            some ⟨laneTy elem fct vec, some (.elems (lanesOf vec f))⟩) :
            eval env { w with writes := writes } (.lane (.var x) j) = .ok (.elems [f j]) :=
          eval_lane (eval_var hx) (getElem?_lanesOf hj f)
        rw [← hval j, laneResult]
        split
        · exact hlane ha
        · exact eval_bin_elems (hlane ha) (hlane (hc (by omega))) rfl

end

/-! ## a whole run -/

/-- The final state of lane `j`. -/
def finalLane (ar : Arith T) (fct : Function) (ftype : FunctionType) (data : Nat → T)
    (vec unrollFactor iterations j : Nat) : Lane T :=
  (iterationStep ar fct ftype vec unrollFactor j)^[iterations] (startLane data vec j)

/-- The body of a kernel, from declarations to results. -/
theorem exec_kernelTree {env : Env T} {elem : ElemType} {vec fuel : Nat} {data : Nat → T}
    {input output : Buffer T} (hinput : InputHolds env vec data input) (helem : elem.scalar = env.elem)
    (houtput : env.bufs outputName = some output) (hsize : vec * env.gid + vec ≤ output.size)
    (hsmall : output.size < 2 ^ 32) (fct : Function) (ftype : FunctionType)
    (localSize unrollFactor iterations : Nat) (hiter : iterations < 2 ^ 32)
    (hfuel : iterations < fuel) :
    ∃ w, execStmts env fuel (kernelTree elem fct ftype vec localSize unrollFactor).body
        (initial iterations) = .ok w ∧
      w.writes = laneWrites vec env.gid (fun j => laneResult env.ar (functionToCode ftype fct).ntemps
        (finalLane env.ar fct ftype data vec unrollFactor iterations j)) ∧
      ∀ j < vec, w.assigned (accName fct j) = iterations * unrollFactor := by
  have hgid : env.gid < 2 ^ 32 := by
    have := Nat.le_mul_of_pos_left env.gid hinput.pos
    omega
  obtain ⟨w₁, hdecl, h₁⟩ := exec_declStmts hinput helem fct ftype iterations hgid hiter
  obtain ⟨w₂, hloop, h₂⟩ := h₁.loop helem unrollFactor hiter hfuel
  have hresults := exec_resultsStmts hinput.pos h₂ houtput hsize (by omega)
  rw [← execStmts_simple fuel] at hdecl hresults
  refine ⟨⟨w₂.vars, w₂.assigned, _⟩, ?_, rfl, h₂.assigned⟩
  have hbody : (kernelTree elem fct ftype vec localSize unrollFactor).body =
      (declStmts elem fct ftype vec).map .simple ++
        .loop loopHead (bodyStmts elem fct ftype vec unrollFactor) ::
          (resultsStmts fct (functionToCode ftype fct).ntemps vec).map .simple := rfl
  rw [hbody, execStmts_append hdecl, execStmts, hloop]
  exact hresults

/-- The buffers of a kernel, by name. -/
def kernelBufs (input output : Buffer T) : Text → Option (Buffer T) :=
  Function.update (Function.update (fun _ => none) outputName (some output)) inputName (some input)

theorem bindArgs_params (elem : ElemType) (input output : Buffer T) (iterations : Nat) :
    bindArgs elem.scalar (params elem) [.buffer input, .buffer output, .uint iterations] =
      some (kernelBufs input output, (initial iterations : WorkItem T).vars) := by
  simp only [bindArgs, params, if_true, Option.map_some]
  rfl

theorem kernelBufs_input (input output : Buffer T) :
    kernelBufs input output inputName = some input := Function.update_self ..

theorem kernelBufs_output (input output : Buffer T) :
    kernelBufs input output outputName = some output := by
  rw [kernelBufs, Function.update_of_ne (by decide), Function.update_self]

/-- **Executing the generated text**: work item `gid` terminates without a
fault, takes `iterations * unrollFactor` steps on each lane, and writes the
result of lane `j` to `output[vec * gid + j]`, once and in order. -/
theorem runItem_kernelText (ar : Arith T) {elem : ElemType} {fct : Function} {vec fuel : Nat}
    (hsup : Supported elem fct vec) (hpos : 1 ≤ vec) (ftype : FunctionType)
    (localSize unrollFactor iterations gid : Nat) {data : Nat → T} {input output : Buffer T}
    (hin : ∀ k < 2 * vec, input.cell k = some (data k)) (hsmall : 2 * vec < 2 ^ 32)
    (hout : vec * gid + vec ≤ output.size) (hsize : output.size < 2 ^ 32)
    (hiter : iterations < 2 ^ 32) (hfuel : iterations < fuel) :
    ∃ w, runItem ar elem.scalar fuel (kernelText elem fct ftype vec localSize unrollFactor)
        [.buffer input, .buffer output, .uint iterations] gid = .ok w ∧
      w.writes = laneWrites vec gid (fun j => laneResult ar (functionToCode ftype fct).ntemps
        (finalLane ar fct ftype data vec unrollFactor iterations j)) ∧
      ∀ j < vec, w.assigned (accName fct j) = iterations * unrollFactor := by
  have hinput : InputHolds ⟨ar, elem.scalar, gid, kernelBufs input output⟩ vec data input :=
    ⟨kernelBufs_input input output, hin, hpos, hsmall⟩
  obtain ⟨w, hrun, hwrites, hassigned⟩ := exec_kernelTree hinput rfl (kernelBufs_output input output)
    hout hsize fct ftype localSize unrollFactor iterations hiter hfuel
  refine ⟨w, ?_, hwrites, hassigned⟩
  have hparams : (kernelTree elem fct ftype vec localSize unrollFactor).params = params elem := rfl
  rw [runItem, compile_kernelText hsup]
  simp only [hparams, bindArgs_params]
  exact hrun

end UclBench.ArithSpeed
