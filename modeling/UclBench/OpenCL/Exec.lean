import UclBench.Buffer
import UclBench.Interleave
import UclBench.OpenCL.Parser

/-!
# UclBench.OpenCL.Exec

What one work item does when it executes a kernel.

Kernels compute on `unsigned int` counters and on one element type, scalar or
vector, whose operations, literals and built-in functions are a parameter
(`Arith`): no law is assumed about them.  Vectors are lists of components.

A work item ends with its writes to global memory, in order, and with the
number of assignments to each of its private variables; a run that ends in
`.ok` declared every name once, read only initialised variables and cells, and
stayed inside its buffers.

* `execAll_append` — statements run one after the other;
* `runLoop_counted` — the loop rule: an indexed invariant that the body
  advances holds when the counter reaches its bound;
* `Declares` — statements that declare new variables, put together.
-/

namespace UclBench.OpenCL

open Function

/-- The operations of an element type. -/
structure Arith (T : Type _) where
  op : Op → T → T → T
  /-- A floating-point literal, converted to the element type. -/
  lit : Text → T
  /-- Built-in functions of one and two arguments. -/
  fn1 : Text → T → T
  fn2 : Text → T → T → T

inductive Val (T : Type _) where
  | uint (n : Nat)
  | elems (xs : List T)
  /-- Operands of a vector literal or a function call. -/
  | args (xss : List (List T))

/-- A private variable, with its value once it has one. -/
structure Slot (T : Type _) where
  ty : Ty
  val : Option (Val T)

/-- One write to global memory. -/
structure Write (T : Type _) where
  buffer : Text
  index : Nat
  value : T
  deriving DecidableEq, Repr

/-- What a work item finds when it starts. -/
structure Env (T : Type _) where
  ar : Arith T
  /-- The element type. -/
  elem : Scalar
  gid : Nat
  bufs : Text → Option (Buffer T)

structure WorkItem (T : Type _) where
  vars : Text → Option (Slot T)
  assigned : Text → Nat
  writes : List (Write T)

instance : Inhabited (WorkItem T) := ⟨⟨fun _ => none, fun _ => 0, []⟩⟩

/-! ## expressions -/

/-- `unsigned int` arithmetic. -/
def uintOp (o : Op) (m n : Nat) : Except Fault Nat :=
  match o with
  | .add => .ok ((m + n) % 2 ^ 32)
  | .sub => .ok ((m + (2 ^ 32 - n % 2 ^ 32)) % 2 ^ 32)
  | .mul => .ok (m * n % 2 ^ 32)
  | .div => if n = 0 then .error .illFormed else .ok (m / n)

/-- `(ty)(xs)`: a single scalar is replicated. -/
def convElems (env : Env T) (ty : Ty) (xs : List T) : Except Fault (Val T) :=
  if ty.scalar = env.elem then
    if xs.length = ty.width then .ok (.elems xs)
    else match xs with
      | [x] => .ok (.elems (List.replicate ty.width x))
      | _ => .error .illFormed
  else .error .illFormed

def getGlobalId : Text := "get_global_id".toList

def callVal (env : Env T) (f : Text) : Val T → Except Fault (Val T)
  | .uint n => if f = getGlobalId ∧ n = 0 then .ok (.uint (env.gid % 2 ^ 32)) else .error .illFormed
  | .elems xs => .ok (.elems (xs.map (env.ar.fn1 f)))
  | .args [xs, ys] =>
      if xs.length = ys.length then .ok (.elems (List.zipWith (env.ar.fn2 f) xs ys))
      else .error .illFormed
  | .args _ => .error .illFormed

def eval (env : Env T) (w : WorkItem T) : Expr → Except Fault (Val T)
  | .var x =>
      match w.vars x with
      | some ⟨_, some v⟩ => .ok v
      | some ⟨_, none⟩ => .error .uninitialised
      | none => .error .illFormed
  | .int n => .ok (.uint (n % 2 ^ 32))
  | .real ds => .ok (.elems [env.ar.lit ds])
  | .index p e =>
      match env.bufs p, eval env w e with
      | some b, .ok (.uint i) => (b.read i).map fun x => .elems [x]
      | _, .error f => .error f
      | _, _ => .error .illFormed
  | .lane e k =>
      match eval env w e with
      | .ok (.elems xs) =>
          match xs[k]? with
          | some x => .ok (.elems [x])
          | none => .error .illFormed
      | .error f => .error f
      | _ => .error .illFormed
  | .bin o e e' =>
      match eval env w e, eval env w e' with
      | .ok (.uint m), .ok (.uint n) => (uintOp o m n).map .uint
      | .ok (.elems xs), .ok (.elems ys) =>
          if xs.length = ys.length then .ok (.elems (List.zipWith (env.ar.op o) xs ys))
          else .error .illFormed
      | .error f, _ => .error f
      | _, .error f => .error f
      | _, _ => .error .illFormed
  | .conv ty e =>
      match eval env w e with
      | .ok (.elems xs) => convElems env ty xs
      | .ok (.args xss) => convElems env ty xss.flatten
      | .ok (.uint _) => .error .illFormed
      | .error f => .error f
  | .call f e =>
      match eval env w e with
      | .ok v => callVal env f v
      | .error f => .error f
  | .join e e' =>
      match eval env w e, eval env w e' with
      | .ok (.elems xs), .ok (.elems ys) => .ok (.args [xs, ys])
      | .ok (.elems xs), .ok (.args yss) => .ok (.args (xs :: yss))
      | .error f, _ => .error f
      | _, .error f => .error f
      | _, _ => .error .illFormed

theorem eval_var {env : Env T} {w : WorkItem T} {x : Text} {ty : Ty} {v : Val T}
    (h : w.vars x = some ⟨ty, some v⟩) : eval env w (.var x) = .ok v := by
  rw [eval, h]

/-! ## statements -/

/-- A value of a type. -/
def Val.fits (env : Env T) (ty : Ty) : Val T → Bool
  | .uint _ => ty = ⟨.uint, 1⟩
  | .elems xs => ty.scalar = env.elem ∧ xs.length = ty.width
  | .args _ => false

/-- The work item after `x = v`. -/
def WorkItem.set (w : WorkItem T) (x : Text) (ty : Ty) (v : Val T) : WorkItem T where
  vars := update w.vars x (some ⟨ty, some v⟩)
  assigned := update w.assigned x (w.assigned x + 1)
  writes := w.writes

/-- The work item after a declaration of `x`. -/
def WorkItem.declare (w : WorkItem T) (x : Text) (slot : Slot T) : WorkItem T :=
  { w with vars := update w.vars x (some slot) }

def execSimple (env : Env T) : Simple → WorkItem T → Except Fault (WorkItem T)
  | .decl ty x init, w =>
      match w.vars x, init with
      | some _, _ => .error .illFormed
      | none, none => .ok (w.declare x ⟨ty, none⟩)
      | none, some e =>
          match eval env w e with
          | .ok v => if v.fits env ty then .ok (w.declare x ⟨ty, some v⟩) else .error .illFormed
          | .error f => .error f
  | .assign x e, w =>
      match w.vars x, eval env w e with
      | some slot, .ok v => if v.fits env slot.ty then .ok (w.set x slot.ty v) else .error .illFormed
      | _, .error f => .error f
      | none, _ => .error .illFormed
  | .store p i e, w =>
      match env.bufs p, eval env w i, eval env w e with
      | some b, .ok (.uint n), .ok (.elems [x]) =>
          if n < b.size then .ok { w with writes := w.writes ++ [⟨p, n, x⟩] }
          else .error .outOfBounds
      | _, .error f, _ => .error f
      | _, _, .error f => .error f
      | _, _, _ => .error .illFormed

def execAll (env : Env T) : List Simple → WorkItem T → Except Fault (WorkItem T)
  | [], w => .ok w
  | s :: ss, w => match execSimple env s w with
    | .error f => .error f
    | .ok w => execAll env ss w

/-- One pass of a `for` loop, from its test to its increment. -/
def loopPass (env : Env T) (head : LoopHead) (body : List Simple) (w : WorkItem T) :
    Except Fault (Pass (WorkItem T) (WorkItem T)) :=
  match eval env w head.lhs, eval env w head.rhs with
  | .ok (.uint m), .ok (.uint n) =>
      if m < n then
        match execAll env (body ++ [.assign head.next (.bin .add (.var head.next) (.int 1))]) w with
        | .ok w => .ok (.again w)
        | .error f => .error f
      else .ok (.leave w)
  | .error f, _ => .error f
  | _, .error f => .error f
  | _, _ => .error .illFormed

def execStmt (env : Env T) (fuel : Nat) : Stmt → WorkItem T → Except Fault (WorkItem T)
  | .simple s, w => execSimple env s w
  | .loop head body, w =>
      match execSimple env (.assign head.counter head.start) w with
      | .ok w => runLoop (loopPass env head body) fuel w
      | .error f => .error f

def execStmts (env : Env T) (fuel : Nat) : List Stmt → WorkItem T → Except Fault (WorkItem T)
  | [], w => .ok w
  | s :: ss, w => match execStmt env fuel s w with
    | .error f => .error f
    | .ok w => execStmts env fuel ss w

/-! ## kernels -/

inductive Argument (T : Type _) where
  | buffer (b : Buffer T)
  | uint (n : Nat)

/-- Match arguments to parameters: buffers by name, and the private variables
that hold the others. -/
def bindArgs (elem : Scalar) : List Param → List (Argument T) →
    Option ((Text → Option (Buffer T)) × (Text → Option (Slot T)))
  | [], [] => some (fun _ => none, fun _ => none)
  | .buffer sc x :: ps, .buffer b :: as =>
      if sc = elem then
        (bindArgs elem ps as).map fun bound => (update bound.1 x (some b), bound.2)
      else none
  | .uint x :: ps, .uint n :: as =>
      (bindArgs elem ps as).map fun bound =>
        (bound.1, update bound.2 x (some ⟨⟨.uint, 1⟩, some (.uint (n % 2 ^ 32))⟩))
  | _, _ => none

/-- **Execute a source text** as work item `gid`. -/
def runItem (ar : Arith T) (elem : Scalar) (fuel : Nat) (source : Text) (as : List (Argument T))
    (gid : Nat) : Except Fault (WorkItem T) :=
  match compile source with
  | none => .error .illFormed
  | some kernel => match bindArgs elem kernel.params as with
    | none => .error .illFormed
    | some (bufs, vars) =>
        execStmts ⟨ar, elem, gid, bufs⟩ fuel kernel.body ⟨vars, fun _ => 0, []⟩

/-- Carry out one write, if it goes to the buffer named `p`. -/
def commitWrite (p : Text) (b : Buffer T) (x : Write T) : Except Fault (Buffer T) :=
  if x.buffer = p then b.write x.index x.value else .ok b

/-- Carry out the writes of a launch, tagged with their work items, to the
buffer named `p`. -/
def commit (p : Text) (τ : List (Nat × Write T)) (b : Buffer T) : Except Fault (Buffer T) :=
  run (fun b e => commitWrite p b e.2) τ b

/-! ## rules -/

section
variable {env : Env T} {w w' : WorkItem T}

theorem execAll_append {ss tt : List Simple} (h : execAll env ss w = .ok w') :
    execAll env (ss ++ tt) w = execAll env tt w' := by
  induction ss generalizing w with
  | nil => rw [Except.ok.inj h]; rfl
  | cons s ss ih =>
      rw [execAll] at h
      rw [List.cons_append, execAll]
      cases hs : execSimple env s w with
      | error f => simp only [hs] at h; contradiction
      | ok w₁ => simp only [hs] at h ⊢; exact ih h

theorem execStmts_append {fuel : Nat} {ss tt : List Stmt} (h : execStmts env fuel ss w = .ok w') :
    execStmts env fuel (ss ++ tt) w = execStmts env fuel tt w' := by
  induction ss generalizing w with
  | nil => rw [Except.ok.inj h]; rfl
  | cons s ss ih =>
      rw [execStmts] at h
      rw [List.cons_append, execStmts]
      cases hs : execStmt env fuel s w with
      | error f => simp only [hs] at h; contradiction
      | ok w₁ => simp only [hs] at h ⊢; exact ih h

/-- More fuel changes nothing. -/
theorem execStmts_mono {fuel fuel' : Nat} {ss : List Stmt} (h : execStmts env fuel ss w = .ok w')
    (hle : fuel ≤ fuel') : execStmts env fuel' ss w = .ok w' := by
  induction ss generalizing w with
  | nil => exact h
  | cons s ss ih =>
      rw [execStmts] at h ⊢
      cases hs : execStmt env fuel s w with
      | error f => simp only [hs] at h; contradiction
      | ok w₁ =>
          have hs' : execStmt env fuel' s w = .ok w₁ := by
            cases s with
            | simple s => exact hs
            | loop head body =>
                rw [execStmt] at hs ⊢
                cases hinit : execSimple env (.assign head.counter head.start) w with
                | error f => simp only [hinit] at hs; contradiction
                | ok w₂ => simp only [hinit] at hs ⊢; exact runLoop_mono hs hle
          simp only [hs, hs'] at h ⊢
          exact ih h

theorem runItem_mono {ar : Arith T} {elem : Scalar} {fuel fuel' : Nat} {source : Text}
    {as : List (Argument T)} {gid : Nat} (h : runItem ar elem fuel source as gid = .ok w)
    (hle : fuel ≤ fuel') : runItem ar elem fuel' source as gid = .ok w := by
  unfold runItem at h ⊢
  cases hk : compile source with
  | none => simp only [hk] at h; contradiction
  | some kernel =>
      simp only [hk] at h ⊢
      cases hbind : bindArgs elem kernel.params as with
      | none => simp only [hbind] at h; contradiction
      | some bound => simp only [hbind] at h ⊢; exact execStmts_mono h hle

/-- Simple statements run alike inside and outside loops. -/
theorem execStmts_simple (fuel : Nat) (ss : List Simple) :
    execStmts env fuel (ss.map .simple) w = execAll env ss w := by
  induction ss generalizing w with
  | nil => rfl
  | cons s ss ih =>
      simp only [List.map_cons, execStmts, execAll, execStmt]
      cases execSimple env s w with
      | error f => rfl
      | ok w₁ => exact ih

/-- An invariant that every fragment of a program advances. -/
theorem execAll_flatMap (env : Env T) (w : WorkItem T) {ss : Nat → List Simple}
    (Inv : Nat → WorkItem T → Prop) (n : Nat)
    (hstep : ∀ k < n, ∀ w, Inv k w → ∃ w', execAll env (ss k) w = .ok w' ∧ Inv (k + 1) w')
    (h₀ : Inv 0 w) : ∃ w', execAll env ((List.range n).flatMap ss) w = .ok w' ∧ Inv n w' := by
  induction n with
  | zero => exact ⟨w, rfl, h₀⟩
  | succ n ih =>
      obtain ⟨w₁, hrun, hinv⟩ := ih fun k hk => hstep k (by omega)
      obtain ⟨w₂, hlast, hinv⟩ := hstep n (by omega) w₁ hinv
      refine ⟨w₂, ?_, hinv⟩
      rw [List.range_succ, List.flatMap_append, execAll_append hrun]
      simpa using hlast

/-- **The loop rule**: a loop that counts `i` from `0` to `n` while its body
advances an indexed invariant ends with the invariant at `n`. -/
theorem runLoop_counted (env : Env T) (head : LoopHead) (body : List Simple)
    (Inv : Nat → WorkItem T → Prop) (n : Nat) {fuel : Nat}
    (htest : ∀ k ≤ n, ∀ w, Inv k w →
      eval env w head.lhs = .ok (.uint k) ∧ eval env w head.rhs = .ok (.uint n))
    (hstep : ∀ k < n, ∀ w, Inv k w → ∃ w', execAll env
      (body ++ [.assign head.next (.bin .add (.var head.next) (.int 1))]) w = .ok w' ∧
        Inv (k + 1) w')
    (h₀ : Inv 0 w) (hfuel : n < fuel) :
    ∃ w', runLoop (loopPass env head body) fuel w = .ok w' ∧ Inv n w' := by
  -- generalised over the passes still to come
  suffices hgen : ∀ j k w, k + j = n → Inv k w → ∀ fuel, j < fuel →
      ∃ w', runLoop (loopPass env head body) fuel w = .ok w' ∧ Inv n w' from
    hgen n 0 w (by omega) h₀ fuel hfuel
  intro j
  induction j with
  | zero =>
      intro k w hk hinv fuel hfuel
      obtain ⟨fuel, rfl⟩ : ∃ f, fuel = f + 1 := ⟨fuel - 1, by omega⟩
      obtain rfl : k = n := by omega
      obtain ⟨hlhs, hrhs⟩ := htest k le_rfl w hinv
      refine ⟨w, runLoop_leave ?_, hinv⟩
      simp only [loopPass, hlhs, hrhs, if_neg (Nat.lt_irrefl k)]
  | succ j ih =>
      intro k w hk hinv fuel hfuel
      obtain ⟨fuel, rfl⟩ : ∃ f, fuel = f + 1 := ⟨fuel - 1, by omega⟩
      obtain ⟨hlhs, hrhs⟩ := htest k (by omega) w hinv
      obtain ⟨w', hbody, hinv'⟩ := hstep k (by omega) w hinv
      have hpass : loopPass env head body w = .ok (.again w') := by
        simp only [loopPass, hlhs, hrhs, if_pos (show k < n by omega), hbody]
      rw [runLoop_again hpass]
      exact ih (k + 1) w' (by omega) hinv' fuel (by omega)

/-! ### single statements -/

@[simp] theorem WorkItem.set_writes (x : Text) (ty : Ty) (v : Val T) :
    (w.set x ty v).writes = w.writes := rfl

@[simp] theorem WorkItem.set_vars_self (x : Text) (ty : Ty) (v : Val T) :
    (w.set x ty v).vars x = some ⟨ty, some v⟩ := update_self ..

theorem WorkItem.set_vars_of_ne {x y : Text} (h : y ≠ x) (ty : Ty) (v : Val T) :
    (w.set x ty v).vars y = w.vars y := update_of_ne h ..

@[simp] theorem WorkItem.set_assigned_self (x : Text) (ty : Ty) (v : Val T) :
    (w.set x ty v).assigned x = w.assigned x + 1 := update_self ..

theorem WorkItem.set_assigned_of_ne {x y : Text} (h : y ≠ x) (ty : Ty) (v : Val T) :
    (w.set x ty v).assigned y = w.assigned y := update_of_ne h ..

@[simp] theorem WorkItem.declare_writes (x : Text) (slot : Slot T) :
    (w.declare x slot).writes = w.writes := rfl

@[simp] theorem WorkItem.declare_assigned (x : Text) (slot : Slot T) :
    (w.declare x slot).assigned = w.assigned := rfl

@[simp] theorem WorkItem.declare_vars_self (x : Text) (slot : Slot T) :
    (w.declare x slot).vars x = some slot := update_self ..

theorem WorkItem.declare_vars_of_ne {x y : Text} (h : y ≠ x) (slot : Slot T) :
    (w.declare x slot).vars y = w.vars y := update_of_ne h ..

theorem eval_int {n : Nat} (h : n < 2 ^ 32) : eval env w (.int n) = .ok (.uint n) := by
  rw [eval, Nat.mod_eq_of_lt h]

theorem eval_index {p : Text} {b : Buffer T} {e : Expr} {n : Nat} {x : T} (hp : env.bufs p = some b)
    (he : eval env w e = .ok (.uint n)) (hx : b.cell n = some x) :
    eval env w (.index p e) = .ok (.elems [x]) := by
  rw [eval, hp, he]
  simp only [Buffer.read_of_cell hx]
  rfl

theorem eval_bin_uint {o : Op} {e e' : Expr} {m n k : Nat} (he : eval env w e = .ok (.uint m))
    (he' : eval env w e' = .ok (.uint n)) (hk : uintOp o m n = .ok k) :
    eval env w (.bin o e e') = .ok (.uint k) := by
  rw [eval, he, he']
  simp only [hk]
  rfl

theorem eval_bin_elems {o : Op} {e e' : Expr} {xs ys : List T} (he : eval env w e = .ok (.elems xs))
    (he' : eval env w e' = .ok (.elems ys)) (hlen : xs.length = ys.length) :
    eval env w (.bin o e e') = .ok (.elems (List.zipWith (env.ar.op o) xs ys)) := by
  rw [eval, he, he']
  simp only [if_pos hlen]

theorem eval_lane {e : Expr} {xs : List T} {k : Nat} {x : T} (he : eval env w e = .ok (.elems xs))
    (hx : xs[k]? = some x) : eval env w (.lane e k) = .ok (.elems [x]) := by
  rw [eval, he]
  simp only [hx]

theorem eval_call {f : Text} {e : Expr} {v : Val T} (he : eval env w e = .ok v) :
    eval env w (.call f e) = callVal env f v := by
  rw [eval, he]

theorem eval_join {e e' : Expr} {xs ys : List T} (he : eval env w e = .ok (.elems xs))
    (he' : eval env w e' = .ok (.elems ys)) : eval env w (.join e e') = .ok (.args [xs, ys]) := by
  rw [eval, he, he']

theorem execSimple_assign {x : Text} {ty : Ty} {old : Option (Val T)} {e : Expr} {v : Val T}
    (hx : w.vars x = some ⟨ty, old⟩) (he : eval env w e = .ok v) (hfit : v.fits env ty) :
    execSimple env (.assign x e) w = .ok (w.set x ty v) := by
  simp only [execSimple, hx, he, hfit, if_true]

theorem execSimple_decl {x : Text} {ty : Ty} {e : Expr} {v : Val T} (hx : w.vars x = none)
    (he : eval env w e = .ok v) (hfit : v.fits env ty) :
    execSimple env (.decl ty x (some e)) w = .ok (w.declare x ⟨ty, some v⟩) := by
  simp only [execSimple, hx, he, hfit, if_true]

theorem execSimple_declare (ty : Ty) {x : Text} (hx : w.vars x = none) :
    execSimple env (.decl ty x none) w = .ok (w.declare x ⟨ty, none⟩) := by
  simp only [execSimple, hx]

theorem execSimple_store {p : Text} {b : Buffer T} {i e : Expr} {n : Nat} {x : T}
    (hp : env.bufs p = some b) (hi : eval env w i = .ok (.uint n))
    (he : eval env w e = .ok (.elems [x])) (hn : n < b.size) :
    execSimple env (.store p i e) w = .ok { w with writes := w.writes ++ [⟨p, n, x⟩] } := by
  simp only [execSimple, hp, hi, he, if_pos hn]

theorem execAll_cons {s : Simple} {ss : List Simple} (h : execSimple env s w = .ok w') :
    execAll env (s :: ss) w = execAll env ss w' := by
  rw [execAll, h]

theorem execAll_singleton {s : Simple} (h : execSimple env s w = .ok w') :
    execAll env [s] w = .ok w' := by
  rw [execAll_cons h, execAll]

end

/-! ## declarations -/

/-- The work item after declarations, one after the other. -/
def WorkItem.declareAll (w : WorkItem T) (ds : List (Text × Slot T)) : WorkItem T :=
  ds.foldl (fun w d => w.declare d.1 d.2) w

section
variable {env : Env T} {w : WorkItem T} {ss tt : List Simple} {d : Text × Slot T}
  {ds es : List (Text × Slot T)} {x : Text}

theorem WorkItem.declareAll_cons : w.declareAll (d :: ds) = (w.declare d.1 d.2).declareAll ds := rfl

theorem WorkItem.declareAll_append : w.declareAll (ds ++ es) = (w.declareAll ds).declareAll es :=
  List.foldl_append

@[simp] theorem WorkItem.declareAll_assigned : (w.declareAll ds).assigned = w.assigned := by
  induction ds generalizing w with
  | nil => rfl
  | cons d ds ih => rw [declareAll_cons, ih, declare_assigned]

@[simp] theorem WorkItem.declareAll_writes : (w.declareAll ds).writes = w.writes := by
  induction ds generalizing w with
  | nil => rfl
  | cons d ds ih => rw [declareAll_cons, ih, declare_writes]

/-- Other variables are unchanged. -/
theorem WorkItem.declareAll_vars_of_ne (h : ∀ d ∈ ds, x ≠ d.1) :
    (w.declareAll ds).vars x = w.vars x := by
  induction ds generalizing w with
  | nil => rfl
  | cons d ds ih =>
      rw [List.forall_mem_cons] at h
      rw [declareAll_cons, ih h.2, declare_vars_of_ne h.1]

/-- Each of different variables has its slot. -/
theorem WorkItem.declareAll_vars_of_mem {slot : Slot T} (hnodup : (ds.map Prod.fst).Nodup)
    (h : (x, slot) ∈ ds) : (w.declareAll ds).vars x = some slot := by
  induction ds generalizing w with
  | nil => simp at h
  | cons d ds ih =>
      rw [List.map_cons, List.nodup_cons] at hnodup
      rw [declareAll_cons]
      obtain rfl | h := List.mem_cons.mp h
      · have hne : ∀ e ∈ ds, x ≠ e.1 := fun e he heq =>
          hnodup.1 (List.mem_map.mpr ⟨e, he, heq.symm⟩)
        rw [declareAll_vars_of_ne hne, declare_vars_self]
      · exact ih hnodup.2 h

/-- Where the variables `ds` are new and different, `ss` declares them. -/
def Declares (env : Env T) (ss : List Simple) (ds : List (Text × Slot T)) : Prop :=
  ∀ w : WorkItem T, (∀ d ∈ ds, w.vars d.1 = none) → (ds.map Prod.fst).Nodup →
    execAll env ss w = .ok (w.declareAll ds)

theorem declares_nil : Declares env [] [] := fun _ _ _ => rfl

theorem declares_singleton {s : Simple} {slot : Slot T}
    (h : ∀ w : WorkItem T, w.vars x = none → execSimple env s w = .ok (w.declare x slot)) :
    Declares env [s] [(x, slot)] := fun w hnew _ =>
  execAll_singleton (h w (hnew _ (List.mem_singleton.mpr rfl)))

/-- Declarations one after the other. -/
theorem Declares.append (hs : Declares env ss ds) (ht : Declares env tt es) :
    Declares env (ss ++ tt) (ds ++ es) := by
  intro w hnew hnodup
  rw [List.map_append, List.nodup_append] at hnodup
  obtain ⟨hds, hes, hdisjoint⟩ := hnodup
  rw [List.forall_mem_append] at hnew
  rw [execAll_append (hs w hnew.1 hds), WorkItem.declareAll_append]
  refine ht _ (fun e he => ?_) hes
  have hne : ∀ d ∈ ds, e.1 ≠ d.1 := fun d hd =>
    (hdisjoint d.1 (List.mem_map_of_mem hd) e.1 (List.mem_map_of_mem he)).symm
  rw [WorkItem.declareAll_vars_of_ne hne, hnew.2 e he]

theorem declares_flatMap {f : α → List Simple} {g : α → List (Text × Slot T)} (l : List α)
    (h : ∀ a ∈ l, Declares env (f a) (g a)) : Declares env (l.flatMap f) (l.flatMap g) := by
  induction l with
  | nil => exact declares_nil
  | cons a l ih =>
      rw [List.forall_mem_cons] at h
      exact h.1.append (ih h.2)

end

end UclBench.OpenCL
