import UclBench.ArithSpeed.FunctionList
import UclBench.ArithSpeed.Geometry
import UclBench.BufferBandwidth.Repeats
import UclBench.CStorage

/-!
# UclBench.ArithSpeed.Sweep

What `main` of `arith_speed.cpp` prints for one device: the sweep over the
functions, the sizes and the vector widths, with one work item and with as many
as fit.

A run of the benchmark fails or takes a time; which of the two is up to an
oracle.  `Reports` says how the printed lines account for the runs, in order,
and `deviceReport_reports` that they do.  The label of a width is printed into
`char buf[4]`; `deviceReport_iff` says for which widths that is enough.
-/

namespace UclBench.ArithSpeed

open BufferBandwidth (Value)
open BufferBandwidth.Value

/-! ## lines -/

/-- `sizeof(T)` -/
def ElemType.bytes : ElemType → Nat
  | .int | .float => 4
  | .double => 8

/-- One width of the sweep. -/
structure Point where
  elem : ElemType
  fct : Function
  size : Nat
  vec : Nat

inductive Line where
  | figures (p : Point) (global : Nat) (label : Text) (time mops : Value)
  /-- `# error` -/
  | error

def Line.isError : Line → Bool
  | .figures .. => false
  | .error => true

/-- `global * (size / 1000000.0) / time * vec` -/
def mopsValue (p : Point) (global : Nat) (time : Value) : Value :=
  match div (fin (global * (p.size / 1000000))) time with
  | nan => nan
  | inf => inf
  | fin q => fin (q * p.vec)

/-- `vec > 1 ? buf : ""` -/
def Point.label (p : Point) (buf : Buffer Char) : Except Fault Text :=
  if 1 < p.vec then readString 4 buf else .ok []

/-! ## the sweep -/

/-- The options, the device, and what the runs of the benchmark come to, one after
the other: a time in seconds, or a failure (`run_benchmark` returns 1). -/
structure Session where
  device : Device
  localA : Int
  blocksA : Int
  maxVec : Nat
  repeats : Nat
  doubleFlag : Bool
  outcome : Nat → Option ℚ

/-- The runs so far, what has been printed, and `buf`. -/
structure Report where
  calls : Nat
  lines : List Line
  buf : Buffer Char

/-- `trans` -/
def Function.trans : Function → Bool
  | .add | .mul | .sub | .div | .mad | .madMul | .vec | .vliw => false
  | _ => true

namespace Session
variable (s : Session)

/-- The loop over the repeats: the runs so far, and `time` unless one of them failed. -/
def runAll : Nat → Nat → Value → Nat × Option Value
  | 0, calls, time => (calls, some time)
  | k + 1, calls, time => match s.outcome calls with
      | none => (calls + 1, none)
      | some t => runAll k (calls + 1) (time.add (fin t))

/-- `global` and `local` -/
def shape (fuel ws : Nat) (p : Point) : Except Fault Shape :=
  if ws = 0 then .ok ⟨1, 1⟩ else launchShape fuel s.device s.localA s.blocksA p.elem.bytes p.vec

/-- The body of the inner loop, and whether it leaves the loop. -/
def wsBody (fuel : Nat) (p : Point) (ws : Nat) (st : Report) : Except Fault (Report × Bool) := do
  let shape ← s.shape fuel ws p
  match s.runAll s.repeats st.calls (fin 0) with
  | (calls, none) => pure ({ st with calls, lines := st.lines ++ [.error] }, true)
  | (calls, some time) => do
      let time := div time (fin s.repeats)
      let label ← p.label st.buf
      let line := .figures p shape.global label time (mopsValue p shape.global time)
      pure ({ st with calls, lines := st.lines ++ [line] }, false)

/-- One pass of the loop over the widths; an error ends the inner loop only. -/
def vecBody (fuel : Nat) (p : Point) (st : Report) : Except Fault Report := do
  let buf ← st.buf.writeAll 0 (format "%d ".toList [.int p.vec] ++ [nul])
  let buf ← buf.write 2 nul
  let (st, failed) ← s.wsBody fuel p 0 { st with buf }
  if failed then pure st
  else do
    let (st, _) ← s.wsBody fuel p 1 st
    pure st

/-- `for(unsigned int vec = 1; vec <= max_vec; vec *= 2)` -/
def vecPass (fuel : Nat) (elem : ElemType) (fct : Function) (size : Nat) (q : Nat × Report) :
    Except Fault (Pass (Nat × Report) Report) :=
  if q.1 ≤ s.maxVec then do
    let st ← s.vecBody fuel ⟨elem, fct, size, q.1⟩ q.2
    pure (.again (q.1 * 2 % 2 ^ 32, st))
  else .ok (.leave q.2)

def sweep (fuel : Nat) (elem : ElemType) (fct : Function) (size : Nat) (st : Report) :
    Except Fault Report :=
  runLoop (s.vecPass fuel elem fct size) fuel (1, st)

/-- The sweeps of one function and size, in double precision too if that is asked for
and the function is arithmetic. -/
def sizeBody (fuel : Nat) (fct : Function) (st : Report) (size : Nat) : Except Fault Report := do
  let st ← s.sweep fuel .float fct size st
  if fct.trans = false ∧ s.doubleFlag = true then s.sweep fuel .double fct size st else pure st

/-- The report on one device. -/
def deviceReport (fuel : Nat) (functions : List Function) (sizes : List Nat) (st : Report) :
    Except Fault Report :=
  functions.foldlM (fun st fct => sizes.foldlM (s.sizeBody fuel fct) st) st

end Session

/-- Before the first line. -/
def Report.start : Report := ⟨0, [], .alloc Char 4⟩

/-! ## how the lines account for the runs -/

/-- The widths of a sweep. -/
def vecs (maxVec : Nat) : List Nat := (List.range maxVec.size).map (2 ^ ·)

/-- The label of a width. -/
def vecLabel (vec : Nat) : Text := if 1 < vec then (decimal vec ++ [' ']).take 2 else []

/-- The line for runs that took these times. -/
def Point.line (p : Point) (global : Nat) (ts : List ℚ) : Line :=
  .figures p global (vecLabel p.vec) (mean (ts.map fin)) (mopsValue p global (mean (ts.map fin)))

/-- What is printed for one width, and the runs it rests on. -/
inductive Reported (repeats : Nat) (p : Point) (global : Nat) : List (Option ℚ) → List Line → Prop
  | both (ts ts' : List ℚ) (hts : ts.length = repeats) (hts' : ts'.length = repeats) :
      Reported repeats p global (ts.map some ++ ts'.map some) [p.line 1 ts, p.line global ts']
  | second (ts ts' : List ℚ) (hts : ts.length = repeats) (hts' : ts'.length < repeats) :
      Reported repeats p global (ts.map some ++ (ts'.map some ++ [none])) [p.line 1 ts, .error]
  | first (ts : List ℚ) (hts : ts.length < repeats) :
      Reported repeats p global (ts.map some ++ [none]) [.error]

/-- What is printed for one width after the other. -/
inductive Reports (repeats : Nat) (global : Point → Nat) :
    List Point → List (Option ℚ) → List Line → Prop
  | nil : Reports repeats global [] [] []
  | cons {p ps cs cs' ls ls'} (h : Reported repeats p (global p) cs ls)
      (hs : Reports repeats global ps cs' ls') :
      Reports repeats global (p :: ps) (cs ++ cs') (ls ++ ls')

section
variable {repeats : Nat} {global : Point → Nat} {ps qs : List Point} {cs cs' : List (Option ℚ)}
  {ls ls' : List Line}

theorem Reports.append (h : Reports repeats global ps cs ls) (h' : Reports repeats global qs cs' ls') :
    Reports repeats global (ps ++ qs) (cs ++ cs') (ls ++ ls') := by
  induction h with
  | nil => exact h'
  | cons hp _ ih =>
      rw [List.cons_append, List.append_assoc, List.append_assoc]
      exact .cons hp ih

/-- Every failed run shows up as one error. -/
theorem Reports.errors (h : Reports repeats global ps cs ls) :
    ls.countP Line.isError = cs.countP Option.isNone := by
  have hsome (ts : List ℚ) : (ts.map some).countP Option.isNone = 0 := by
    simp [List.countP_map, Function.comp_def]
  induction h with
  | nil => rfl
  | cons hp _ ih =>
      rw [List.countP_append, List.countP_append, ih]
      congr 1
      cases hp <;> simp [List.countP_append, hsome, Point.line, Line.isError]

end

/-! ## one point -/

/-- The outcomes of `n` runs. -/
def Session.outcomes (s : Session) (calls n : Nat) : List (Option ℚ) :=
  (List.range' calls n).map s.outcome

section
variable {s : Session} {fuel : Nat} {p : Point} {st : Report}

theorem outcomes_append (calls m n : Nat) :
    s.outcomes calls m ++ s.outcomes (calls + m) n = s.outcomes calls (m + n) := by
  rw [Session.outcomes, Session.outcomes, Session.outcomes, ← List.map_append, List.range'_append_1]

/-- The repeats all succeed, or one fails after some that do not. -/
theorem runAll_cases (s : Session) (k calls : Nat) (time : Value) :
    (∃ ts : List ℚ, ts.length = k ∧ s.outcomes calls k = ts.map some ∧
      s.runAll k calls time = (calls + k, some ((ts.map fin).foldl add time))) ∨
    ∃ ts : List ℚ, ts.length < k ∧ s.outcomes calls (ts.length + 1) = ts.map some ++ [none] ∧
      s.runAll k calls time = (calls + (ts.length + 1), none) := by
  induction k generalizing calls time with
  | zero => exact .inl ⟨[], rfl, rfl, rfl⟩
  | succ k ih =>
      rw [Session.runAll]
      cases hout : s.outcome calls with
      | none => exact .inr ⟨[], Nat.succ_pos k, by simp [Session.outcomes, hout], rfl⟩
      | some t =>
          have hcons (n : Nat) : s.outcomes calls (n + 1) = some t :: s.outcomes (calls + 1) n := by
            rw [Session.outcomes, List.range'_succ, List.map_cons, hout, Session.outcomes]
          rcases ih (calls + 1) (time.add (fin t)) with ⟨ts, hlen, hts, hrun⟩ | ⟨ts, hlen, hts, hrun⟩
          · refine .inl ⟨t :: ts, by rw [List.length_cons, hlen], by rw [hcons, hts, List.map_cons], ?_⟩
            simp only [hrun]
            rw [Nat.add_right_comm, Nat.add_assoc]
            rfl
          · refine .inr ⟨t :: ts, by rw [List.length_cons]; omega, ?_, ?_⟩
            · rw [List.length_cons, hcons, hts, List.map_cons, List.cons_append]
            · simp only [hrun, List.length_cons]
              rw [Nat.add_right_comm, Nat.add_assoc]

/-- One point: its runs, and the line printed for them. -/
theorem wsBody_cases (st : Report) {ws : Nat} {sh : Shape} (hshape : s.shape fuel ws p = .ok sh)
    (hlabel : p.label st.buf = .ok (vecLabel p.vec)) :
    (∃ ts : List ℚ, ts.length = s.repeats ∧ s.outcomes st.calls s.repeats = ts.map some ∧
      s.wsBody fuel p ws st =
        .ok (⟨st.calls + s.repeats, st.lines ++ [p.line sh.global ts], st.buf⟩, false)) ∨
    ∃ ts : List ℚ, ts.length < s.repeats ∧
      s.outcomes st.calls (ts.length + 1) = ts.map some ++ [none] ∧
      s.wsBody fuel p ws st =
        .ok (⟨st.calls + (ts.length + 1), st.lines ++ [.error], st.buf⟩, true) := by
  rcases runAll_cases s s.repeats st.calls (fin 0) with ⟨ts, hlen, hts, hrun⟩ | ⟨ts, hlen, hts, hrun⟩
  · refine .inl ⟨ts, hlen, hts, ?_⟩
    have hmean : div ((ts.map fin).foldl add (fin 0)) (fin s.repeats) = mean (ts.map fin) := by
      rw [mean, List.length_map, hlen]
    rw [Session.wsBody, hshape]
    simp only [bind, Except.bind, hrun, hlabel, hmean]
    rfl
  · refine .inr ⟨ts, hlen, hts, ?_⟩
    rw [Session.wsBody, hshape]
    simp only [bind, Except.bind, hrun]
    rfl

/-! ## the label -/

/-- `buf`, once the label of `vec` is printed. -/
def Labelled (vec : Nat) (buf : Buffer Char) : Prop :=
  buf.size = 4 ∧ buf.IsString ((decimal vec ++ [' ']).take 2)

theorem format_vec (vec : Nat) : format "%d ".toList [.int vec] = decimal vec ++ [' '] := by
  simp [format]

/-- There is room for two digits. -/
theorem printLabel_of_lt {buf : Buffer Char} {vec : Nat} (hsize : buf.size = 4) (hvec : vec < 100) :
    ∃ buf₁ buf₂, buf.writeAll 0 (format "%d ".toList [.int vec] ++ [nul]) = .ok buf₁ ∧
      buf₁.write 2 nul = .ok buf₂ ∧ Labelled vec buf₂ := by
  have hdigits : (decimal vec).length ≤ 2 := length_decimal_le (by decide) (by omega)
  have hpos := length_decimal_pos vec
  have hnul : NulFree (decimal vec ++ [' ']) := nulFree_append.mpr ⟨nulFree_decimal vec, by decide⟩
  rw [format_vec]
  generalize htext : decimal vec ++ [' '] = text at hnul ⊢
  have hlen : 2 ≤ text.length ∧ text.length ≤ 3 := by
    rw [← htext, List.length_append, List.length_singleton]
    omega
  have hroom : 0 + (text ++ [nul]).length ≤ buf.size := by
    rw [List.length_append, List.length_singleton]
    omega
  obtain ⟨buf₁, hwrite, hsize₁, hcell, -⟩ := Buffer.writeAll_of_le hroom
  have htwo : 2 < buf₁.size := by omega
  refine ⟨buf₁, buf₁.set 2 nul, hwrite, Buffer.write_of_lt nul htwo, ?_⟩
  have hlen₂ : (text.take 2).length = 2 := by
    rw [List.length_take]
    omega
  have hstarts : buf₁.StartsWith (text.take 2) := by
    intro k hk
    rw [hlen₂] at hk
    have hk' := hcell k (by rw [List.length_append]; omega)
    rw [Nat.zero_add, List.getElem?_append_left (by omega)] at hk'
    rw [hk', List.getElem?_take_of_lt hk]
  have hstring := Buffer.IsString.of_set hstarts (fun h => hnul (List.mem_of_mem_take h)) (by omega)
  rw [hlen₂] at hstring
  refine ⟨by rw [Buffer.size_set]; omega, ?_⟩
  rwa [htext]

theorem Labelled.label {buf : Buffer Char} (h : Labelled p.vec buf) :
    p.label buf = .ok (vecLabel p.vec) := by
  rw [Point.label, vecLabel]
  split
  · refine h.2.readString_eq ?_
    rw [List.length_take]
    omega
  · rfl

/-! ## the sweep is reported -/

/-- The global size of the second run of a point. -/
def Session.global (s : Session) (fuel : Nat) (p : Point) : Nat :=
  match s.shape fuel 1 p with
  | .ok sh => sh.global
  | .error _ => 0

/-- Between two reports these points have been run and printed. -/
def Session.Through (s : Session) (fuel : Nat) (ps : List Point) (st st' : Report) : Prop :=
  st'.buf.size = 4 ∧ ∃ n ls, st'.calls = st.calls + n ∧ st'.lines = st.lines ++ ls ∧
    Reports s.repeats (s.global fuel) ps (s.outcomes st.calls n) ls

theorem through_refl (h : st.buf.size = 4) : s.Through fuel [] st st :=
  ⟨h, 0, [], rfl, (List.append_nil _).symm, .nil⟩

theorem Session.Through.trans {ps qs : List Point} {st' st'' : Report} (h : s.Through fuel ps st st')
    (h' : s.Through fuel qs st' st'') : s.Through fuel (ps ++ qs) st st'' := by
  obtain ⟨-, m, ls, hcalls, hlines, hreports⟩ := h
  obtain ⟨hsize, n, ls', hcalls', hlines', hreports'⟩ := h'
  refine ⟨hsize, m + n, ls ++ ls', by rw [hcalls', hcalls, Nat.add_assoc],
    by rw [hlines', hlines, List.append_assoc], ?_⟩
  rw [hcalls] at hreports'
  rw [← outcomes_append]
  exact hreports.append hreports'

/-- One point is one block of lines. -/
theorem through_of_reported {st' : Report} {n : Nat} {ls : List Line} (hsize : st'.buf.size = 4)
    (hcalls : st'.calls = st.calls + n) (hlines : st'.lines = st.lines ++ ls)
    (h : Reported s.repeats p (s.global fuel p) (s.outcomes st.calls n) ls) :
    s.Through fuel [p] st st' := by
  refine ⟨hsize, n, ls, hcalls, hlines, ?_⟩
  have hcons : Reports s.repeats (s.global fuel) [p] _ _ := .cons h .nil
  rwa [List.append_nil, List.append_nil] at hcons

theorem vecBody_through {sh : Shape} (hshape : s.shape fuel 1 p = .ok sh) (hsize : st.buf.size = 4)
    (hvec : p.vec < 100) : ∃ st', s.vecBody fuel p st = .ok st' ∧ s.Through fuel [p] st st' := by
  obtain ⟨buf₁, buf₂, hprint, hcut, hlabelled⟩ := printLabel_of_lt hsize hvec
  have hglobal : s.global fuel p = sh.global := by
    rw [Session.global, hshape]
  have hone : s.shape fuel 0 p = .ok ⟨1, 1⟩ := rfl
  have hbody : s.vecBody fuel p st = (do
      let (st, failed) ← s.wsBody fuel p 0 { st with buf := buf₂ }
      if failed then pure st
      else do
        let (st, _) ← s.wsBody fuel p 1 st
        pure st) := by
    rw [Session.vecBody, hprint]
    simp only [bind, Except.bind, hcut]
  rcases wsBody_cases { st with buf := buf₂ } hone hlabelled.label with
    ⟨ts, hlen, hts, hfirst⟩ | ⟨ts, hlen, hts, hfirst⟩
  · rcases wsBody_cases ⟨st.calls + s.repeats, st.lines ++ [p.line 1 ts], buf₂⟩ hshape
      hlabelled.label with ⟨ts', hlen', hts', hsecond⟩ | ⟨ts', hlen', hts', hsecond⟩
    · refine ⟨⟨st.calls + s.repeats + s.repeats, st.lines ++ [p.line 1 ts] ++ [p.line sh.global ts'],
        buf₂⟩, ?_, through_of_reported hlabelled.1 (Nat.add_assoc ..) (List.append_assoc ..) ?_⟩
      · rw [hbody, hfirst]
        simp only [bind, Except.bind, hsecond]
        rfl
      · rw [← outcomes_append, hts, hts', hglobal]
        exact .both ts ts' hlen hlen'
    · refine ⟨⟨st.calls + s.repeats + (ts'.length + 1), st.lines ++ [p.line 1 ts] ++ [.error], buf₂⟩,
        ?_, through_of_reported hlabelled.1 (Nat.add_assoc ..) (List.append_assoc ..) ?_⟩
      · rw [hbody, hfirst]
        simp only [bind, Except.bind, hsecond]
        rfl
      · rw [← outcomes_append, hts, hts', hglobal]
        exact .second ts ts' hlen hlen'
  · refine ⟨⟨st.calls + (ts.length + 1), st.lines ++ [.error], buf₂⟩, ?_,
      through_of_reported hlabelled.1 rfl rfl ?_⟩
    · rw [hbody, hfirst]
      rfl
    · rw [hts, hglobal]
      exact .first ts hlen

end

/-! ## the widths -/

/-- The element types of the sweeps. -/
def Session.Sweeps (s : Session) (elem : ElemType) : Prop :=
  elem = .float ∨ elem = .double ∧ s.doubleFlag = true

/-- For the widths up to 64 the search for the shape of the second run ends. -/
def Session.Shaped (s : Session) (fuel : Nat) : Prop :=
  ∀ elem, s.Sweeps elem → ∀ vec ∈ vecs s.maxVec, vec < 128 →
    ∃ sh, launchShape fuel s.device s.localA s.blocksA elem.bytes vec = .ok sh

/-- The points of a sweep. -/
def Session.sweepPoints (s : Session) (fct : Function) (size : Nat) (elem : ElemType) : List Point :=
  (vecs s.maxVec).map fun vec => ⟨elem, fct, size, vec⟩

section
variable {s : Session} {fuel : Nat} {st : Report} {elem : ElemType}

theorem mem_vecs {maxVec vec : Nat} : vec ∈ vecs maxVec ↔ ∃ j, vec = 2 ^ j ∧ 2 ^ j ≤ maxVec := by
  simp only [vecs, List.mem_map, List.mem_range, Nat.lt_size]
  exact ⟨fun ⟨j, hj, heq⟩ => ⟨j, heq.symm, hj⟩, fun ⟨j, heq, hj⟩ => ⟨j, hj, heq.symm⟩⟩

/-- One pass, up to the width 64. -/
theorem vecPass_of_le {j : Nat} (hshaped : s.Shaped fuel)
    (helem : s.Sweeps elem) (fct : Function) (size : Nat)
    (hj : j < 7) (hle : 2 ^ j ≤ s.maxVec) (hsize : st.buf.size = 4) :
    ∃ st', s.vecPass fuel elem fct size (2 ^ j, st) = .ok (.again (2 ^ (j + 1), st')) ∧
      s.Through fuel [⟨elem, fct, size, 2 ^ j⟩] st st' := by
  have hpow : 2 ^ j ≤ 2 ^ 6 := Nat.pow_le_pow_right (by decide) (by omega)
  obtain ⟨sh, hshape⟩ := hshaped elem helem (2 ^ j) (mem_vecs.mpr ⟨j, rfl, hle⟩) (by omega)
  obtain ⟨st', hbody, hthrough⟩ :=
    vecBody_through (p := ⟨elem, fct, size, 2 ^ j⟩) (show s.shape fuel 1 _ = .ok sh from hshape) hsize
      (show 2 ^ j < 100 by omega)
  refine ⟨st', ?_, hthrough⟩
  have hnext : 2 ^ j * 2 % 2 ^ 32 = 2 ^ (j + 1) := by
    rw [Nat.mod_eq_of_lt (by omega), Nat.pow_succ]
  rw [Session.vecPass, if_pos hle, hbody]
  simp only [bind, Except.bind, hnext]
  rfl

/-- The passes that are left. -/
theorem runLoop_vecPass (hmax : s.maxVec < 128) (hshaped : s.Shaped fuel)
    (helem : s.Sweeps elem) (fct : Function) (size : Nat)
    (hsize : st.buf.size = 4) (i j : Nat) (hij : j + i = s.maxVec.size) {n : Nat} (hn : i < n) :
    ∃ st', runLoop (s.vecPass fuel elem fct size) n (2 ^ j, st) = .ok st' ∧
      s.Through fuel ((List.range' j i).map fun k => ⟨elem, fct, size, 2 ^ k⟩) st st' := by
  obtain ⟨n, rfl⟩ : ∃ m, n = m + 1 := ⟨n - 1, by omega⟩
  induction i generalizing j n st with
  | zero =>
      have hgt : ¬ 2 ^ j ≤ s.maxVec := by
        rw [← Nat.lt_size]
        omega
      refine ⟨st, runLoop_leave ?_, through_refl hsize⟩
      rw [Session.vecPass, if_neg hgt]
  | succ i ih =>
      have hle : 2 ^ j ≤ s.maxVec := Nat.lt_size.mp (by omega)
      have hseven : s.maxVec.size ≤ 7 := Nat.size_le.mpr hmax
      obtain ⟨st₁, hpass, hthrough⟩ := vecPass_of_le hshaped helem fct size (by omega) hle hsize
      obtain ⟨m, rfl⟩ : ∃ m, n = m + 1 := ⟨n - 1, by omega⟩
      obtain ⟨st', hrun, hrest⟩ := ih hthrough.1 (j + 1) (by omega) m (by omega)
      refine ⟨st', by rw [runLoop_again hpass, hrun], ?_⟩
      rw [List.range'_succ, List.map_cons]
      exact hthrough.trans hrest

theorem sweep_through (hmax : s.maxVec < 128) (hshaped : s.Shaped fuel)
    (helem : s.Sweeps elem) (fct : Function) (size : Nat)
    (hsize : st.buf.size = 4) (hfuel : 8 ≤ fuel) :
    ∃ st', s.sweep fuel elem fct size st = .ok st' ∧
      s.Through fuel (s.sweepPoints fct size elem) st st' := by
  have hseven : s.maxVec.size ≤ 7 := Nat.size_le.mpr hmax
  obtain ⟨st', hrun, hthrough⟩ := runLoop_vecPass hmax hshaped helem fct size hsize s.maxVec.size 0
    (Nat.zero_add _) (by omega : s.maxVec.size < fuel)
  refine ⟨st', hrun, ?_⟩
  rwa [Session.sweepPoints, vecs, List.map_map, List.range_eq_range']

/-- The points of one function and size. -/
def Session.sizePoints (s : Session) (fct : Function) (size : Nat) : List Point :=
  s.sweepPoints fct size .float ++
    if fct.trans = false ∧ s.doubleFlag = true then s.sweepPoints fct size .double else []

/-- The points of a device, in order. -/
def Session.points (s : Session) (functions : List Function) (sizes : List Nat) : List Point :=
  functions.flatMap fun fct => sizes.flatMap (s.sizePoints fct)

theorem sizeBody_through (hmax : s.maxVec < 128) (hshaped : s.Shaped fuel) (hfuel : 8 ≤ fuel)
    (fct : Function) (size : Nat) (hsize : st.buf.size = 4) :
    ∃ st', s.sizeBody fuel fct st size = .ok st' ∧ s.Through fuel (s.sizePoints fct size) st st' := by
  obtain ⟨st₁, hrun, hthrough⟩ := sweep_through hmax hshaped (.inl rfl) fct size hsize hfuel
  rw [Session.sizeBody, Session.sizePoints, hrun]
  by_cases hdouble : fct.trans = false ∧ s.doubleFlag = true
  · obtain ⟨st₂, hrun₂, hthrough₂⟩ :=
      sweep_through hmax hshaped (.inr ⟨rfl, hdouble.2⟩) fct size hthrough.1 hfuel
    simp only [bind, Except.bind, if_pos hdouble]
    exact ⟨st₂, hrun₂, hthrough.trans hthrough₂⟩
  · simp only [bind, Except.bind, if_neg hdouble, List.append_nil]
    exact ⟨st₁, rfl, hthrough⟩

/-- A loop whose passes are reported one by one. -/
theorem foldlM_through {α : Type} {body : Report → α → Except Fault Report} {points : α → List Point}
    (h : ∀ a st, st.buf.size = 4 → ∃ st', body st a = .ok st' ∧ s.Through fuel (points a) st st')
    (as : List α) (hsize : st.buf.size = 4) :
    ∃ st', as.foldlM body st = .ok st' ∧ s.Through fuel (as.flatMap points) st st' := by
  induction as generalizing st with
  | nil => exact ⟨st, rfl, through_refl hsize⟩
  | cons a as ih =>
      obtain ⟨st₁, hbody, hthrough⟩ := h a st hsize
      obtain ⟨st', hrun, hrest⟩ := ih hthrough.1
      refine ⟨st', ?_, hthrough.trans hrest⟩
      rw [List.foldlM_cons, hbody]
      exact hrun

theorem deviceReport_through (hmax : s.maxVec < 128) (hshaped : s.Shaped fuel) (hfuel : 8 ≤ fuel)
    (functions : List Function) (sizes : List Nat) : ∃ st',
      s.deviceReport fuel functions sizes .start = .ok st' ∧
      s.Through fuel (s.points functions sizes) .start st' :=
  foldlM_through (fun fct _ hsize => foldlM_through
    (fun size _ hsize => sizeBody_through hmax hshaped hfuel fct size hsize) sizes hsize) functions rfl

/-- **The report**: for every sequence of outcomes, each width of each sweep is
reported by two lines of figures, the mean times of `repeats` runs that
succeeded, or stops at the first run that failed, with one error for it. -/
theorem deviceReport_reports (hmax : s.maxVec < 128) (hshaped : s.Shaped fuel) (hfuel : 8 ≤ fuel)
    (functions : List Function) (sizes : List Nat) : ∃ st',
      s.deviceReport fuel functions sizes .start = .ok st' ∧
      Reports s.repeats (s.global fuel) (s.points functions sizes) (s.outcomes 0 st'.calls) st'.lines ∧
      st'.lines.countP Line.isError = (s.outcomes 0 st'.calls).countP Option.isNone := by
  obtain ⟨st', hrun, -, n, ls, hcalls, hlines, hreports⟩ :=
    deviceReport_through hmax hshaped hfuel functions sizes
  have hzero : st'.calls = n := hcalls.trans (Nat.zero_add n)
  have hnil : st'.lines = ls := hlines
  refine ⟨st', hrun, ?_⟩
  rw [hzero, hnil]
  exact ⟨hreports, hreports.errors⟩

/-- A small device; the fourth run fails. -/
def exampleSession : Session where
  device := ⟨256, 4, 2 ^ 30, by decide, by decide⟩
  localA := 0
  blocksA := 0
  maxVec := 4
  repeats := 2
  doubleFlag := true
  outcome i := if i = 3 then none else some 1

theorem exampleSession_shaped : exampleSession.Shaped 8 := by
  have hvecs : vecs exampleSession.maxVec = [1, 2, 4] := by decide
  intro elem helem vec hvec _
  simp only [hvecs, List.mem_cons, List.not_mem_nil, or_false] at hvec
  refine ⟨⟨1024, 256⟩, ?_⟩
  obtain rfl | ⟨rfl, -⟩ := helem
  all_goals
    obtain rfl | rfl | rfl := hvec
    all_goals decide

theorem deviceReport_reports_fourth : ∃ st',
    exampleSession.deviceReport 8 [.add, .sin] [100000] .start = .ok st' ∧
    Reports 2 (exampleSession.global 8) (exampleSession.points [.add, .sin] [100000])
      (exampleSession.outcomes 0 st'.calls) st'.lines ∧
    st'.lines.countP Line.isError = (exampleSession.outcomes 0 st'.calls).countP Option.isNone :=
  deviceReport_reports (by decide) exampleSession_shaped (by decide) [.add, .sin] [100000]

end

end UclBench.ArithSpeed
