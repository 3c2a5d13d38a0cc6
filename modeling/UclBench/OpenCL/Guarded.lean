import UclBench.OpenCL.Parser

/-!
# UclBench.OpenCL.Guarded

Kernels without a required work-group size whose body is straight-line code
with conditions: `if(e > e)` in front of an assignment.

A condition belongs to the statement that follows it, up to the semicolon; one
in front of a closing brace is not read (`Item.bad`).
-/

namespace UclBench.OpenCL

/-! ## syntax -/

/-- A statement, under `if(lhs > rhs)` or not. -/
structure Guarded where
  guard : Option (Expr × Expr)
  stmt : Simple
  deriving DecidableEq, Repr

structure GuardedKernel where
  name : Text
  params : List Param
  body : List Guarded
  deriving DecidableEq, Repr

def Simple.isDecl : Simple → Bool
  | .decl .. => true
  | .assign .. | .store .. => false

/-- The variables and buffers an expression names. -/
def Expr.names : Expr → List Text
  | .var x => [x]
  | .int _ | .real _ => []
  | .index p e => p :: e.names
  | .lane e _ => e.names
  | .bin _ e e' => e.names ++ e'.names
  | .conv _ e => e.names
  | .call _ e => e.names
  | .join e e' => e.names ++ e'.names

def Simple.names : Simple → List Text
  | .decl _ x none => [x]
  | .decl _ x (some e) => x :: e.names
  | .assign x e => x :: e.names
  | .store p i e => p :: (i.names ++ e.names)

def Guarded.names (g : Guarded) : List Text :=
  match g.guard with
  | some (e, e') => e.names ++ (e'.names ++ g.stmt.names)
  | none => g.stmt.names

/-! ## parser -/

/-- `if(e > e)`, and what follows it. -/
def parseGuard : List Tok → Option ((Expr × Expr) × List Tok)
  | .word w :: .punct '(' :: ts =>
      if w = "if".toList then do
        let (e, ts) ← parseExpr (exprFuel ts) .sum ts
        match ts with
        | .punct '>' :: ts => do
            let (e', ts) ← parseExpr (exprFuel ts) .sum ts
            match ts with
            | .punct ')' :: ts => some ((e, e'), ts)
            | _ => none
        | _ => none
      else none
  | _ => none

/-- The statements before one semicolon; under a condition there is one, and it
declares nothing. -/
def parseGuarded (ts : List Tok) : Option (List Guarded) :=
  match parseGuard ts with
  | some (g, ts) => do
      match ← parseSimple ts with
      | [s] => if s.isDecl then none else some [⟨some g, s⟩]
      | _ => none
  | none => (parseSimple ts).map fun ss => ss.map (⟨none, ·⟩)

/-- Prolong the body. -/
def readGuarded (ss : List Guarded) : Item → Option (List Guarded)
  | .simple ts => (parseGuarded ts).map (ss ++ ·)
  | .openBlock _ | .closeBlock | .bad => none

/-- `__kernel void name(…)` -/
def parsePlainSignature : List Tok → Option (Text × List Param)
  | .word k :: .word v :: .word name :: .punct '(' :: ts =>
      if k = "__kernel".toList ∧ v = "void".toList then (parseParams ts).map fun ps => (name, ps)
      else none
  | _ => none

/-- The syntax tree of a source text with one kernel. -/
def compileGuarded (text : Text) : Option GuardedKernel :=
  match itemsOf text with
  | some (.openBlock ts :: items) => do
      let (name, ps) ← parsePlainSignature ts
      if items.getLast? = some .closeBlock then do
        let body ← items.dropLast.foldlM readGuarded []
        some ⟨name, ps, body⟩
      else none
  | _ => none

/-! ## fragments -/

/-- `text` is a sequence of whole statements, namely `ss`. -/
def GuardedFragment (text : Text) (ss : List Guarded) : Prop :=
  ∃ items, Reads text items ∧ ∀ ss₀, items.foldlM readGuarded ss₀ = some (ss₀ ++ ss)

theorem guardedFragment_nil : GuardedFragment [] [] :=
  ⟨[], reads_nil, fun ss₀ => by rw [List.append_nil]; rfl⟩

/-- **Concatenation** of fragments. -/
theorem GuardedFragment.append {s t : Text} {ss tt : List Guarded} (hs : GuardedFragment s ss)
    (ht : GuardedFragment t tt) : GuardedFragment (s ++ t) (ss ++ tt) := by
  obtain ⟨is, hreads, hs⟩ := hs
  obtain ⟨js, hreadt, ht⟩ := ht
  refine ⟨is ++ js, hreads.append hreadt, fun ss₀ => ?_⟩
  rw [List.foldlM_append, hs, Option.bind_eq_bind, Option.bind_some, ht, List.append_assoc]

/-- One statement, from its tokens. -/
theorem guardedFragment_of_lexes {text : Text} (ts : List Tok) {ss : List Guarded}
    (hlex : Lexes .none text (ts ++ [.punct ';']) .none)
    (hsplit : transduce splitStep .start (ts ++ [.punct ';']) = ([.simple ts], .start))
    (hparse : parseGuarded ts = some ss) : GuardedFragment text ss :=
  ⟨[.simple ts], ⟨_, hlex, hsplit⟩, fun ss₀ => by simp [readGuarded, hparse]⟩

/-- **A kernel**, from its signature and its body. -/
theorem compileGuarded_kernel {sig body finish : Text} {sts : List Tok} {name : Text} {ps : List Param}
    {ss : List Guarded} (hsig : Reads sig [.openBlock sts])
    (hparams : parsePlainSignature sts = some (name, ps)) (hbody : GuardedFragment body ss)
    (hfinish : Reads finish [.closeBlock]) :
    compileGuarded (sig ++ (body ++ finish)) = some ⟨name, ps, ss⟩ := by
  obtain ⟨is, hreads, hfold⟩ := hbody
  have hitems := (hsig.append (hreads.append hfinish)).itemsOf
  rw [compileGuarded, hitems]
  simp only [List.singleton_append, hparams, List.getLast?_concat, List.dropLast_concat, if_true,
    hfold, List.nil_append, Option.bind_eq_bind, Option.bind_some]

example : compileGuarded "__kernel void f(__global float* a)\n\x7b\n\tif(t > a[0])\n\t\ta[0] = t;\x7d\n".toList =
    some ⟨['f'], [.buffer .float ['a']],
      [⟨some (.var ['t'], .index ['a'] (.int 0)), .store ['a'] (.int 0) (.var ['t'])⟩]⟩ := by decide +kernel

/-- A condition in front of the closing brace. -/
example : compileGuarded "__kernel void f(__global float* a)\n\x7b\n\tif(t > a[0])\n\x7d\n".toList = none := by
  decide +kernel

end UclBench.OpenCL
