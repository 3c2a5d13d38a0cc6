import UclBench.OpenCL.Lexer

/-!
# UclBench.OpenCL.Parser

Syntax of the OpenCL C kernels this development meets: straight-line code over
private variables and buffer parameters, and `for` loops around it.

Expressions are read by recursive descent over the tokens of one statement.
Statements are read one `Item` at a time by `readItem`; a fragment of simple
statements prolongs whatever block is being read, so `Fragment` is closed
under concatenation (`Fragment.append`) and the syntax tree of a generated
program is assembled from those of its fragments.
-/

namespace UclBench.OpenCL

/-! ## syntax -/

inductive Scalar where
  | uint
  | int
  | float
  | double
  deriving DecidableEq, Repr

/-- A scalar type or a vector of `width` components. -/
structure Ty where
  scalar : Scalar
  width : Nat
  deriving DecidableEq, Repr

inductive Op where
  | add
  | sub
  | mul
  | div
  deriving DecidableEq, Repr

inductive Expr where
  | var (x : Text)
  | int (n : Nat)
  | real (digits : Text)
  /-- `p[e]` -/
  | index (p : Text) (e : Expr)
  /-- `e.s0`, …, `e.sf` -/
  | lane (e : Expr) (k : Nat)
  | bin (o : Op) (e e' : Expr)
  /-- `(ty)e` and the vector literal `(ty)(e, …)` -/
  | conv (ty : Ty) (e : Expr)
  | call (f : Text) (e : Expr)
  /-- `e, e'` between parentheses -/
  | join (e e' : Expr)
  deriving DecidableEq, Repr

inductive Simple where
  | decl (ty : Ty) (x : Text) (init : Option Expr)
  | assign (x : Text) (e : Expr)
  /-- `p[i] = e` -/
  | store (p : Text) (i e : Expr)
  deriving DecidableEq, Repr

/-- `for (counter = start; lhs < rhs; ++next)` -/
structure LoopHead where
  counter : Text
  start : Expr
  lhs : Expr
  rhs : Expr
  next : Text
  deriving DecidableEq, Repr

inductive Stmt where
  | simple (s : Simple)
  | loop (head : LoopHead) (body : List Simple)
  deriving DecidableEq, Repr

inductive Param where
  /-- `__global T* x` -/
  | buffer (scalar : Scalar) (x : Text)
  /-- `const unsigned int x` -/
  | uint (x : Text)
  deriving DecidableEq, Repr

/-- A kernel with its required work-group size. -/
structure Kernel where
  name : Text
  groupSize : Nat
  params : List Param
  body : List Stmt
  deriving DecidableEq, Repr

/-! ## expressions -/

/-- Element type names. -/
def scalarWords : List (Text × Scalar) :=
  [("int".toList, .int), ("float".toList, .float), ("double".toList, .double)]

/-- Type names with a vector width appended. -/
def typeWords : List (Text × Ty) :=
  [("int".toList, ⟨.int, 1⟩), ("float".toList, ⟨.float, 1⟩), ("double".toList, ⟨.double, 1⟩),
    ("float2".toList, ⟨.float, 2⟩), ("float4".toList, ⟨.float, 4⟩), ("float8".toList, ⟨.float, 8⟩),
    ("float16".toList, ⟨.float, 16⟩), ("double2".toList, ⟨.double, 2⟩),
    ("double4".toList, ⟨.double, 4⟩), ("double8".toList, ⟨.double, 8⟩),
    ("double16".toList, ⟨.double, 16⟩)]

def wordIn (table : List (Text × β)) (w : Text) : Option β :=
  match table with
  | [] => none
  | (v, b) :: table => if w = v then some b else wordIn table w

def typeOf (w : Text) : Option Ty := wordIn typeWords w

/-- The operator a symbol stands for. -/
def opOf (c : Char) : Option Op :=
  if c = '+' then some .add
  else if c = '-' then some .sub
  else if c = '*' then some .mul
  else if c = '/' then some .div
  else none

def hexDigits : Text := "0123456789abcdef".toList

/-- The component a selector `s0` … `sf` names. -/
def laneOf : Text → Option Nat
  | ['s', c] => hexDigits.idxOf? c
  | _ => none

/-- What to read next; the tails carry the operand read so far. -/
inductive Phase where
  /-- `sum, …, sum` -/
  | list
  | sum
  | sumTail (e : Expr)
  | product
  | productTail (e : Expr)
  | factor
  | selection (e : Expr)

/-- Read one expression off the front of the tokens. -/
def parseExpr : Nat → Phase → List Tok → Option (Expr × List Tok)
  | 0, _, _ => none
  | n + 1, .list, ts => do
      let (e, ts) ← parseExpr n .sum ts
      match ts with
      | .punct ',' :: ts => do
          let (e', ts) ← parseExpr n .list ts
          some (.join e e', ts)
      | ts => some (e, ts)
  | n + 1, .sum, ts => do
      let (e, ts) ← parseExpr n .product ts
      parseExpr n (.sumTail e) ts
  | n + 1, .sumTail e, .op ['+'] :: ts => do
      let (e', ts) ← parseExpr n .product ts
      parseExpr n (.sumTail (.bin .add e e')) ts
  | n + 1, .sumTail e, .op ['-'] :: ts => do
      let (e', ts) ← parseExpr n .product ts
      parseExpr n (.sumTail (.bin .sub e e')) ts
  | _ + 1, .sumTail e, ts => some (e, ts)
  | n + 1, .product, ts => do
      let (e, ts) ← parseExpr n .factor ts
      parseExpr n (.productTail e) ts
  | n + 1, .productTail e, .op ['*'] :: ts => do
      let (e', ts) ← parseExpr n .factor ts
      parseExpr n (.productTail (.bin .mul e e')) ts
  | n + 1, .productTail e, .op ['/'] :: ts => do
      let (e', ts) ← parseExpr n .factor ts
      parseExpr n (.productTail (.bin .div e e')) ts
  | _ + 1, .productTail e, ts => some (e, ts)
  | n + 1, .factor, .punct '(' :: .word w :: .punct ')' :: ts =>
      match typeOf w with
      | some ty => do
          let (e, ts) ← parseExpr n .factor ts
          some (.conv ty e, ts)
      | none => parseExpr n (.selection (.var w)) ts
  | n + 1, .factor, .punct '(' :: ts => do
      let (e, ts) ← parseExpr n .list ts
      match ts with
      | .punct ')' :: ts => parseExpr n (.selection e) ts
      | _ => none
  | n + 1, .factor, .word f :: .punct '(' :: ts => do
      let (e, ts) ← parseExpr n .list ts
      match ts with
      | .punct ')' :: ts => parseExpr n (.selection (.call f e)) ts
      | _ => none
  | n + 1, .factor, .word p :: .punct '[' :: ts => do
      let (e, ts) ← parseExpr n .sum ts
      match ts with
      | .punct ']' :: ts => parseExpr n (.selection (.index p e)) ts
      | _ => none
  | n + 1, .factor, .word x :: ts => parseExpr n (.selection (.var x)) ts
  | _ + 1, .factor, .int k :: ts => some (.int k, ts)
  | _ + 1, .factor, .real ds :: ts => some (.real ds, ts)
  | _ + 1, .factor, _ => none
  | n + 1, .selection e, .punct '.' :: .word l :: ts => do
      let k ← laneOf l
      parseExpr n (.selection (.lane e k)) ts
  | _ + 1, .selection e, ts => some (e, ts)

/-- Lists are read element by element. -/
theorem parseExpr_list_cons {n : Nat} {ts us vs : List Tok} {e e' : Expr}
    (h : parseExpr n .sum ts = some (e, .punct ',' :: us)) (h' : parseExpr n .list us = some (e', vs)) :
    parseExpr (n + 1) .list ts = some (.join e e', vs) := by
  simp only [parseExpr, h, h', Option.bind_eq_bind, Option.bind_some]

/-- Enough fuel for every expression in `ts`. -/
def exprFuel (ts : List Tok) : Nat := 4 * (ts.length + 1)

/-- The expression that fills the tokens. -/
def wholeExpr (ts : List Tok) : Option Expr :=
  match parseExpr (exprFuel ts) .sum ts with
  | some (e, []) => some e
  | _ => none

/-! ## simple statements -/

/-- `x`, `x = e`, separated by commas. -/
def parseDeclarators (ty : Ty) : Nat → List Tok → Option (List Simple)
  | 0, _ => none
  | n + 1, .word x :: .op ['='] :: ts => do
      let (e, ts) ← parseExpr (exprFuel ts) .sum ts
      match ts with
      | [] => some [.decl ty x (some e)]
      | .punct ',' :: ts => do
          let ss ← parseDeclarators ty n ts
          some (.decl ty x (some e) :: ss)
      | _ => none
  | n + 1, .word x :: .punct ',' :: ts => do
      let ss ← parseDeclarators ty n ts
      some (.decl ty x none :: ss)
  | _ + 1, [.word x] => some [.decl ty x none]
  | _ + 1, _ => none

def unsignedWord : Text := "unsigned".toList

def intWord : Text := "int".toList

/-- The statements before one semicolon; none for the empty statement. -/
def parseSimple : List Tok → Option (List Simple)
  | [] => some []
  | .word w :: .word v :: ts =>
      if w = unsignedWord then
        if v = intWord then parseDeclarators ⟨.uint, 1⟩ (ts.length + 1) ts else none
      else match typeOf w with
        | some ty => parseDeclarators ty (ts.length + 2) (.word v :: ts)
        | none => none
  | .word x :: .op ['='] :: ts => do
      let e ← wholeExpr ts
      some [.assign x e]
  | .word x :: .op [c, '='] :: ts => do
      let o ← opOf c
      let e ← wholeExpr ts
      some [.assign x (.bin o (.var x) e)]
  | .word p :: .punct '[' :: ts => do
      let (i, ts) ← parseExpr (exprFuel ts) .sum ts
      match ts with
      | .punct ']' :: .op ['='] :: ts => do
          let e ← wholeExpr ts
          some [.store p i e]
      | _ => none
  | _ => none

/-! ## blocks -/

/-- `for (x = e; e < e; ++x)` -/
def parseFor : List Tok → Option LoopHead
  | .word f :: .punct '(' :: .word x :: .op ['='] :: ts =>
      if f = "for".toList then do
        let (start, ts) ← parseExpr (exprFuel ts) .sum ts
        match ts with
        | .punct ';' :: ts => do
            let (lhs, ts) ← parseExpr (exprFuel ts) .sum ts
            match ts with
            | .op ['<'] :: ts => do
                let (rhs, ts) ← parseExpr (exprFuel ts) .sum ts
                match ts with
                | [.punct ';', .op ['+', '+'], .word y, .punct ')'] => some ⟨x, start, lhs, rhs, y⟩
                | _ => none
            | _ => none
        | _ => none
      else none
  | _ => none

/-- The statements read so far, and the loop whose body is being read. -/
structure Reading where
  stmts : List Stmt
  loop : Option (LoopHead × List Simple)
  deriving DecidableEq, Repr

/-- Prolong the innermost block. -/
def Reading.add (r : Reading) (ss : List Simple) : Reading :=
  match r.loop with
  | none => ⟨r.stmts ++ ss.map .simple, none⟩
  | some (head, body) => ⟨r.stmts, some (head, body ++ ss)⟩

def readItem (r : Reading) : Item → Option Reading
  | .simple ts => (parseSimple ts).map r.add
  | .openBlock ts =>
      match r.loop with
      | none => (parseFor ts).map fun head => ⟨r.stmts, some (head, [])⟩
      | some _ => none
  | .closeBlock =>
      match r.loop with
      | none => none
      | some (head, body) => some ⟨r.stmts ++ [.loop head body], none⟩
  | .bad => none

@[simp] theorem Reading.add_nil (r : Reading) : r.add [] = r := by
  obtain ⟨stmts, _ | ⟨head, body⟩⟩ := r <;> simp [Reading.add]

@[simp] theorem Reading.add_add (r : Reading) (ss ss' : List Simple) :
    (r.add ss).add ss' = r.add (ss ++ ss') := by
  obtain ⟨stmts, _ | ⟨head, body⟩⟩ := r <;> simp [Reading.add]

/-! ## kernels -/

/-- Parameters, up to the closing parenthesis. -/
def parseParams : List Tok → Option (List Param)
  | .word g :: .word t :: .op ['*'] :: .word x :: .punct c :: ts =>
      if g = "__global".toList then do
        let scalar ← wordIn scalarWords t
        if c = ',' then do
          let ps ← parseParams ts
          some (.buffer scalar x :: ps)
        else if c = ')' ∧ ts = [] then some [.buffer scalar x]
        else none
      else none
  | [.word k, .word u, .word t, .word x, .punct ')'] =>
      if k = "const".toList ∧ u = unsignedWord ∧ t = intWord then some [.uint x] else none
  | _ => none

/-- `__kernel __attribute__((reqd_work_group_size(n,1,1))) void name(…)` -/
def parseSignature : List Tok → Option (Nat × Text × List Param)
  | .word k :: .word a :: .punct '(' :: .punct '(' :: .word r :: .punct '(' :: .int n ::
      .punct ',' :: .int 1 :: .punct ',' :: .int 1 :: .punct ')' :: .punct ')' :: .punct ')' ::
      .word v :: .word name :: .punct '(' :: ts =>
      if k = "__kernel".toList ∧ a = "__attribute__".toList ∧
          r = "reqd_work_group_size".toList ∧ v = "void".toList then
        (parseParams ts).map fun ps => (n, name, ps)
      else none
  | _ => none

/-- A source text with one kernel. -/
def parseKernel : List Item → Option Kernel
  | .openBlock ts :: items => do
      let (n, name, ps) ← parseSignature ts
      if items.getLast? = some .closeBlock then do
        let r ← items.dropLast.foldlM readItem ⟨[], none⟩
        match r.loop with
        | none => some ⟨name, n, ps, r.stmts⟩
        | some _ => none
      else none
  | _ => none

/-- The syntax tree of a source text. -/
def compile (text : Text) : Option Kernel :=
  match itemsOf text with
  | none => none
  | some items => parseKernel items

/-! ## casts and calls -/

/-- A cast literal, `(type)d`. -/
theorem parseExpr_cast {n : Nat} {type : Text} {ty : Ty} (h : typeOf type = some ty) (ds : Text)
    (ts : List Tok) : parseExpr (n + 2) .factor
      (.punct '(' :: .word type :: .punct ')' :: .real ds :: ts) = some (.conv ty (.real ds), ts) := by
  simp only [parseExpr, h, Option.bind_eq_bind, Option.bind_some]

/-- The last element of a list. -/
theorem parseExpr_list_factor {n : Nat} {ts us : List Tok} {e : Expr}
    (h : parseExpr (n + 1) .factor ts = some (e, .punct ')' :: us)) :
    parseExpr (n + 4) .list ts = some (e, .punct ')' :: us) := by
  rw [parseExpr, parseExpr, parseExpr, h]
  rfl

/-- A function call, from its arguments. -/
theorem wholeExpr_call {n : Nat} {f : Text} {ts : List Tok} {e : Expr}
    (hn : exprFuel (.word f :: .punct '(' :: ts) = n + 3)
    (h : parseExpr n .list ts = some (e, [.punct ')'])) :
    wholeExpr (.word f :: .punct '(' :: ts) = some (.call f e) := by
  cases n with
  | zero => contradiction
  | succ n =>
      have hfactor : parseExpr (n + 2) .factor (.word f :: .punct '(' :: ts) = some (.call f e, []) := by
        rw [parseExpr, h]
        rfl
      rw [wholeExpr, hn, parseExpr, parseExpr, hfactor]
      rfl

/-! ## fragments -/

/-- `text` is a sequence of whole simple statements, namely `ss`. -/
def Fragment (text : Text) (ss : List Simple) : Prop :=
  ∃ items, Reads text items ∧ ∀ r, items.foldlM readItem r = some (Reading.add r ss)

theorem fragment_nil : Fragment [] [] := ⟨[], reads_nil, fun r => by rw [Reading.add_nil]; rfl⟩

/-- **Concatenation** of fragments. -/
theorem Fragment.append {s t : Text} {ss tt : List Simple} (hs : Fragment s ss)
    (ht : Fragment t tt) : Fragment (s ++ t) (ss ++ tt) := by
  obtain ⟨is, hreads, hs⟩ := hs
  obtain ⟨js, hreadt, ht⟩ := ht
  refine ⟨is ++ js, hreads.append hreadt, fun r => ?_⟩
  rw [List.foldlM_append, hs, Option.bind_eq_bind, Option.bind_some, ht, Reading.add_add]

theorem fragment_flatMap {f : α → Text} {g : α → List Simple} (l : List α)
    (h : ∀ a ∈ l, Fragment (f a) (g a)) : Fragment (l.flatMap f) (l.flatMap g) := by
  induction l with
  | nil => exact fragment_nil
  | cons a l ih =>
      simp only [List.flatMap_cons]
      exact (h a List.mem_cons_self).append (ih fun b hb => h b (List.mem_cons_of_mem a hb))

/-- One statement, from its tokens. -/
theorem fragment_of_lexes {text : Text} (ts : List Tok) {ss : List Simple}
    (hlex : Lexes .none text (ts ++ [.punct ';']) .none)
    (hsplit : transduce splitStep .start (ts ++ [.punct ';']) = ([.simple ts], .start))
    (hparse : parseSimple ts = some ss) : Fragment text ss :=
  ⟨[.simple ts], ⟨_, hlex, hsplit⟩, fun r => by simp [readItem, hparse]⟩

/-- The simple statements of a closed text, when it is a sequence of such. -/
def stmtsOf (text : Text) : Option (List Simple) :=
  match transduce lexStep .none text with
  | (ts, p) => match transduce splitStep .start ts with
    | (items, s) =>
        if p = .none ∧ s = .start then
          items.foldlM (fun ss item =>
            match item with
            | .simple ts => (parseSimple ts).map (ss ++ ·)
            | _ => none) []
        else none

theorem foldlM_readItem_of_simple {items : List Item} {ss ss₀ : List Simple}
    (h : items.foldlM (fun ss item =>
      match item with
      | .simple ts => (parseSimple ts).map (ss ++ ·)
      | _ => none) ss₀ = some ss) (r : Reading) :
    items.foldlM readItem (r.add ss₀) = some (r.add ss) := by
  induction items generalizing ss₀ with
  | nil => simpa using congrArg (fun s => s.map r.add) h
  | cons item items ih =>
      rw [List.foldlM_cons] at h ⊢
      cases item with
      | simple ts =>
          cases hp : parseSimple ts with
          | none => simp [hp] at h
          | some tt =>
              simp only [hp, Option.map_some, Option.bind_eq_bind, Option.bind_some] at h
              simp only [readItem, hp, Option.map_some, Option.bind_eq_bind, Option.bind_some,
                Reading.add_add]
              exact ih h
      | openBlock ts => simp at h
      | closeBlock => simp at h
      | bad => simp at h

/-- Closed texts are read by evaluation. -/
theorem fragment_of_stmtsOf {text : Text} {ss : List Simple} (h : stmtsOf text = some ss) :
    Fragment text ss := by
  unfold stmtsOf at h
  cases hlex : transduce lexStep .none text with
  | mk ts p =>
      cases hsplit : transduce splitStep .start ts with
      | mk items s =>
          simp only [hlex, hsplit] at h
          split at h
          · next hend =>
              obtain ⟨rfl, rfl⟩ := hend
              exact ⟨items, ⟨ts, hlex, hsplit⟩, fun r => by
                simpa using foldlM_readItem_of_simple h r⟩
          · contradiction

theorem fragment_literal {l : List Char} {ss : List Simple} (h : stmtsOf l = some ss) :
    Fragment (String.ofList l).toList ss := by
  rw [String.toList_ofList]
  exact fragment_of_stmtsOf h

/-- **A kernel with one loop**, from its fragments. -/
theorem compile_kernel {sig decls head body close results finish : Text} {sts hts : List Tok}
    {n : Nat} {name : Text} {ps : List Param} {h : LoopHead} {ds bs rs : List Simple}
    (hsig : Reads sig [.openBlock sts]) (hparams : parseSignature sts = some (n, name, ps))
    (hdecls : Fragment decls ds) (hhead : Reads head [.openBlock hts]) (hfor : parseFor hts = some h)
    (hbody : Fragment body bs) (hclose : Reads close [.closeBlock])
    (hresults : Fragment results rs) (hfinish : Reads finish [.closeBlock]) :
    compile (sig ++ (decls ++ (head ++ (body ++ (close ++ (results ++ finish)))))) =
      some ⟨name, n, ps, ds.map .simple ++ .loop h bs :: rs.map .simple⟩ := by
  obtain ⟨is, hreadd, hd⟩ := hdecls
  obtain ⟨js, hreadb, hb⟩ := hbody
  obtain ⟨ks, hreadr, hr⟩ := hresults
  have hitems := (hsig.append (hreadd.append (hhead.append (hreadb.append
    (hclose.append (hreadr.append hfinish)))))).itemsOf
  have hassoc : [.openBlock sts] ++ (is ++ ([.openBlock hts] ++ (js ++ ([.closeBlock] ++
      (ks ++ [Item.closeBlock]))))) =
      Item.openBlock sts :: ((is ++ .openBlock hts :: (js ++ .closeBlock :: ks)) ++ [.closeBlock]) := by
    simp
  have hfold : (is ++ .openBlock hts :: (js ++ .closeBlock :: ks)).foldlM readItem ⟨[], none⟩ =
      some ⟨ds.map .simple ++ .loop h bs :: rs.map .simple, none⟩ := by
    simp only [List.foldlM_append, List.foldlM_cons, hd, hb, hr, readItem, Reading.add, hfor,
      Option.map_some, Option.bind_eq_bind, Option.bind_some, List.nil_append, List.append_assoc,
      List.singleton_append]
  rw [compile, hitems, hassoc]
  simp only [parseKernel, hparams, List.getLast?_concat, List.dropLast_concat, if_true, hfold,
    Option.bind_eq_bind, Option.bind_some]

example : stmtsOf "tmp = a * b + (float4)0.1; a = b; b = tmp;".toList =
    some [.assign "tmp".toList (.bin .add (.bin .mul (.var ['a']) (.var ['b']))
        (.conv ⟨.float, 4⟩ (.real "0.1".toList))),
      .assign ['a'] (.var ['b']), .assign ['b'] (.var "tmp".toList)] := by decide +kernel

end UclBench.OpenCL
