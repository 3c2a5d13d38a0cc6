import UclBench.OpenCL.Exec
import UclBench.OpenCL.Guarded

/-!
# UclBench.OpenCL.GuardedRun

What one work item does when it executes straight-line code with conditions.

Unlike the kernels of `Exec`, these read what they have written, so the buffers
are part of the state.  Integers are literals; next to an element they are
converted, and there is no arithmetic on integers alone.
-/

namespace UclBench.OpenCL

/-- The operations of an element type; no law is assumed about them. -/
structure Numbers (T : Type _) where
  op : Op → T → T → T
  ofInt : Nat → T
  gt : T → T → Bool

/-- The buffers, by the names of the parameters, and the private variables, with
their values once they have one. -/
structure Store (T : Type _) where
  bufs : Text → Option (Buffer T)
  vars : Text → Option (Option T)

inductive Operand (T : Type _) where
  | int (n : Nat)
  | elem (x : T)

/-- The usual arithmetic conversions. -/
def Operand.toElem (num : Numbers T) : Operand T → T
  | .int n => num.ofInt n
  | .elem x => x

/-! ## execution -/

def Store.readVar (s : Store T) (x : Text) : Except Fault (Operand T) :=
  match s.vars x with
  | some (some v) => .ok (.elem v)
  | some none => .error .uninitialised
  | none => .error .illFormed

def Store.readCell (s : Store T) (p : Text) : Operand T → Except Fault (Operand T)
  | .int n => match s.bufs p with
      | some b => (b.read n).map .elem
      | none => .error .illFormed
  | .elem _ => .error .illFormed

def arith (num : Numbers T) (o : Op) : Operand T → Operand T → Except Fault (Operand T)
  | .int _, .int _ => .error .illFormed
  | v, v' => .ok (.elem (num.op o (v.toElem num) (v'.toElem num)))

def Store.eval (num : Numbers T) (s : Store T) : Expr → Except Fault (Operand T)
  | .var x => s.readVar x
  | .int n => .ok (.int n)
  | .index p e => do s.readCell p (← s.eval num e)
  | .bin o e e' => do
      let v ← s.eval num e
      let v' ← s.eval num e'
      arith num o v v'
  | .real _ | .lane .. | .conv .. | .call .. | .join .. => .error .illFormed

def Store.declare (s : Store T) (x : Text) (v : Option T) : Store T :=
  { s with vars := Function.update s.vars x (some v) }

def Store.put (s : Store T) (p : Text) (b : Buffer T) : Store T :=
  { s with bufs := Function.update s.bufs p (some b) }

def Store.writeCell (s : Store T) (p : Text) (i : Operand T) (v : T) : Except Fault (Store T) :=
  match s.bufs p, i with
  | some b, .int n => do
      let b ← b.write n v
      pure (s.put p b)
  | _, _ => .error .illFormed

def Store.exec (num : Numbers T) (s : Store T) : Simple → Except Fault (Store T)
  | .decl ty x init =>
      if ty = ⟨.float, 1⟩ ∧ s.vars x = none then
        match init with
        | none => .ok (s.declare x none)
        | some e => do
            let v ← s.eval num e
            pure (s.declare x (some (v.toElem num)))
      else .error .illFormed
  | .assign x e =>
      if s.vars x = none then .error .illFormed
      else do
        let v ← s.eval num e
        pure (s.declare x (some (v.toElem num)))
  | .store p i e => do
      let i ← s.eval num i
      let v ← s.eval num e
      s.writeCell p i (v.toElem num)

/-- `if(lhs > rhs)` -/
def Store.test (num : Numbers T) (s : Store T) : Option (Expr × Expr) → Except Fault Bool
  | none => .ok true
  | some (lhs, rhs) => do
      let v ← s.eval num lhs
      let v' ← s.eval num rhs
      pure (num.gt (v.toElem num) (v'.toElem num))

def execGuarded (num : Numbers T) (s : Store T) (g : Guarded) : Except Fault (Store T) := do
  let holds ← s.test num g.guard
  if holds then s.exec num g.stmt else pure s

/-- A body, one statement after the other. -/
def execBody (num : Numbers T) (gs : List Guarded) (s : Store T) : Except Fault (Store T) :=
  gs.foldlM (execGuarded num) s

/-- One launch, by a single work item: what it leaves in the buffers. -/
def launchGuarded (num : Numbers T) (k : GuardedKernel) (bufs : Text → Option (Buffer T)) :
    Except Fault (Text → Option (Buffer T)) := do
  let s ← execBody num k.body ⟨bufs, fun _ => none⟩
  pure s.bufs

/-- **Execute a source text**, `n` times on the same buffers. -/
def runGuarded (num : Numbers T) (source : Text) (as : List (Buffer T)) (n : Nat) :
    Except Fault (Text → Option (Buffer T)) :=
  match compileGuarded source with
  | none => .error .illFormed
  | some k => match bindArgs .float k.params (as.map .buffer) with
    | none => .error .illFormed
    | some (bufs, _) => (List.range n).foldlM (fun bufs _ => launchGuarded num k bufs) bufs

/-! ## rules -/

section
variable {num : Numbers T} {s : Store T} {p x y : Text}

@[simp] theorem Store.declare_bufs (v : Option T) : (s.declare x v).bufs = s.bufs := rfl

@[simp] theorem Store.declare_vars_self (v : Option T) : (s.declare x v).vars x = some v :=
  Function.update_self ..

theorem Store.declare_vars_of_ne (h : y ≠ x) (v : Option T) : (s.declare x v).vars y = s.vars y :=
  Function.update_of_ne h ..

@[simp] theorem Store.put_vars (b : Buffer T) : (s.put p b).vars = s.vars := rfl

@[simp] theorem Store.put_bufs_self (b : Buffer T) : (s.put p b).bufs p = some b :=
  Function.update_self ..

theorem Store.put_bufs_of_ne (h : y ≠ p) (b : Buffer T) : (s.put p b).bufs y = s.bufs y :=
  Function.update_of_ne h ..

theorem Store.eval_var (x : Text) : s.eval num (.var x) = s.readVar x := rfl

/-- `p[0]` of a buffer with a value. -/
theorem Store.eval_index_zero {b : Buffer T} {v : T} (hp : s.bufs p = some b) (hv : b.cell 0 = some v) :
    s.eval num (.index p (.int 0)) = .ok (.elem v) := by
  change s.readCell p (.int 0) = _
  simp only [readCell, hp, Buffer.read_of_cell hv]
  rfl

theorem Store.eval_mul_int {e : Expr} {v : T} {n : Nat} (he : s.eval num e = .ok (.elem v)) :
    s.eval num (.bin .mul e (.int n)) = .ok (.elem (num.op .mul v (num.ofInt n))) := by
  rw [eval, he]
  rfl

theorem Store.exec_decl (hx : s.vars x = none) :
    s.exec num (.decl ⟨.float, 1⟩ x none) = .ok (s.declare x none) := by
  rw [exec, if_pos ⟨rfl, hx⟩]

theorem Store.exec_assign {e : Expr} {v : T} (hx : s.vars x ≠ none) (he : s.eval num e = .ok (.elem v)) :
    s.exec num (.assign x e) = .ok (s.declare x (some v)) := by
  rw [exec, if_neg hx, he]
  rfl

theorem Store.exec_store_zero {b : Buffer T} {e : Expr} {v : T} (hp : s.bufs p = some b) (hb : 0 < b.size)
    (he : s.eval num e = .ok (.elem v)) : s.exec num (.store p (.int 0) e) =
      .ok (s.put p (b.set 0 v)) := by
  have hint : s.eval num (.int 0) = .ok (.int 0) := rfl
  rw [exec, hint, he]
  change s.writeCell p (.int 0) v = _
  simp only [writeCell, hp, Buffer.write_of_lt v hb]
  rfl

theorem execBody_cons (g : Guarded) (gs : List Guarded) :
    execBody num (g :: gs) s = execGuarded num s g >>= execBody num gs := List.foldlM_cons

theorem execBody_append (gs gs' : List Guarded) :
    execBody num (gs ++ gs') s = execBody num gs s >>= execBody num gs' := List.foldlM_append

theorem execGuarded_none (stmt : Simple) : execGuarded num s ⟨none, stmt⟩ = s.exec num stmt := rfl

end

end UclBench.OpenCL
