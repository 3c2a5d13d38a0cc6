import UclBench.KernelOverheads.BufferBounds
import UclBench.OpenCL.Guarded

/-!
# UclBench.KernelOverheads.KernelSyntax

What the text printed by `gen_kernel` says: `compile_kernelText` reads every
kernel as `kernelTree`, and `kernelTree_wellFormed` says that it is one.

A condition is printed at the end of a pass and the statement it belongs to at
the beginning of the next.  The induction over the passes therefore carries the
condition that is pending (`fragment_bodyText`), and there is none after the
last pass (`guard_of_getLast`).
-/

namespace UclBench.KernelOverheads

open OpenCL

/-! ## the syntax tree -/

def argName (n : Nat) : Text := "arg_".toList ++ decimal n

def tmpName (n : Nat) : Text := "tmp_".toList ++ decimal n

/-- `arg_n[0]` -/
def argAt (n : Nat) : Expr := .index (argName n) (.int 0)

/-- `tmp_tmp > arg_arg[0]` -/
def condition (g : Nat × Nat) : Expr × Expr := (.var (tmpName g.1), argAt g.2)

/-- The assignments of a draw, the first under the pending condition. -/
def Draw.stmts (pending : Option (Nat × Nat)) (d : Draw) : List Guarded :=
  [⟨pending.map condition, .store (argName d.dst) (.int 0) (.bin .mul (argAt d.src) (.int d.factor))⟩,
    ⟨none, .assign (tmpName d.tmp) (.bin .mul (argAt d.fromArg) (.int d.scale))⟩]

def bodyStmts : Option (Nat × Nat) → List Draw → List Guarded
  | _, [] => []
  | pending, d :: ds => d.stmts pending ++ bodyStmts d.guard ds

/-- `float tmp_0, tmp_1, tmp_2;` -/
def tmpDecls : List Guarded :=
  (List.range 3).map fun n => ⟨none, .decl ⟨.float, 1⟩ (tmpName n) none⟩

def params (nArgs : Nat) : List Param := (List.range nArgs).map fun n => .buffer .float (argName n)

/-- **The syntax tree** of a kernel. -/
def kernelTree (nArgs nLines : Nat) (r : Rand) : GuardedKernel where
  name := "main_func".toList
  params := params nArgs
  body := tmpDecls ++ bodyStmts none (draws nArgs nLines r 0 (strided 0 nLines 2))

/-! ## the parameters -/

def paramToks (n : Nat) : List Tok :=
  [.word "__global".toList, .word "float".toList, .op ['*'], .word (argName n), .punct ',']

def lastParamToks (n : Nat) : List Tok :=
  [.word "__global".toList, .word "float".toList, .op ['*'], .word (argName n), .punct ')']

/-- The tokens before the opening brace. -/
def signatureToks (nArgs : Nat) : List Tok :=
  [.word "__kernel".toList, .word "void".toList, .word "main_func".toList, .punct '('] ++
    ((List.range (nArgs - 1)).flatMap paramToks ++ lastParamToks (nArgs - 1))

theorem parseParams_eq (ns : List Nat) (m : Nat) :
    parseParams (ns.flatMap paramToks ++ lastParamToks m) =
      some (ns.map (fun n => .buffer .float (argName n)) ++ [.buffer .float (argName m)]) := by
  induction ns with
  | nil => rfl
  | cons n ns ih =>
      have hcons : (n :: ns).flatMap paramToks ++ lastParamToks m = .word "__global".toList ::
          .word "float".toList :: .op ['*'] :: .word (argName n) :: .punct ',' ::
            (ns.flatMap paramToks ++ lastParamToks m) := rfl
      have hfloat : wordIn scalarWords "float".toList = some .float := rfl
      rw [hcons, parseParams]
      simp only [if_true, hfloat, ih, Option.bind_eq_bind, Option.bind_some]
      rfl

theorem parsePlainSignature_signatureToks {nArgs : Nat} (h : 1 ≤ nArgs) :
    parsePlainSignature (signatureToks nArgs) = some ("main_func".toList, params nArgs) := by
  have hparams := parseParams_eq (List.range (nArgs - 1)) (nArgs - 1)
  have hall : (List.range (nArgs - 1)).map (fun n => Param.buffer .float (argName n)) ++
      [.buffer .float (argName (nArgs - 1))] = params nArgs := by
    obtain ⟨n, rfl⟩ : ∃ n, nArgs = n + 1 := ⟨nArgs - 1, by omega⟩
    simp [params, List.range_succ]
  rw [hall] at hparams
  have hcons : signatureToks nArgs = .word "__kernel".toList :: .word "void".toList ::
      .word "main_func".toList :: .punct '(' ::
        ((List.range (nArgs - 1)).flatMap paramToks ++ lastParamToks (nArgs - 1)) := rfl
  rw [hcons, parsePlainSignature, if_pos ⟨rfl, rfl⟩, hparams]
  rfl

theorem lexes_global : Lexes .none "__global float* arg_".toList
    [.word "__global".toList, .word "float".toList, .op ['*']] (.word "arg_".toList) :=
  lexes_literal rfl

theorem lexes_paramText (n : Nat) : Lexes .none (paramText n) (paramToks n) .none := by
  have htext : paramText n = "__global float* arg_".toList ++ (decimal n ++ ", ".toList) := rfl
  have hend : Lexes (.word (argName n)) ", ".toList [.word (argName n), .punct ','] .none :=
    lexes_literal_after rfl rfl
  rw [htext]
  exact lexes_global.append ((lexes_word_decimal _ n).append hend)

/-- The text up to the opening brace. -/
def signatureText (nArgs : Nat) : Text :=
  "__kernel void main_func(\n\t".toList ++ ((List.range (nArgs - 1)).flatMap paramText ++
    ("__global float* arg_".toList ++ (decimal (nArgs - 1) ++ ("\n)\n".toList ++ "\x7b\n".toList))))

theorem lexes_signatureText (nArgs : Nat) : Lexes .none (signatureText nArgs)
    (signatureToks nArgs ++ [.punct '\x7b']) .none := by
  have hhead : Lexes .none "__kernel void main_func(\n\t".toList
      [.word "__kernel".toList, .word "void".toList, .word "main_func".toList, .punct '('] .none :=
    lexes_literal rfl
  have hparams := lexes_flatMap (List.range (nArgs - 1)) fun n _ => lexes_paramText n
  have hclose : Lexes (.word (argName (nArgs - 1))) "\n)\n".toList
      [.word (argName (nArgs - 1)), .punct ')'] .none :=
    lexes_literal_after rfl rfl
  have hopen : Lexes .none "\x7b\n".toList [.punct '\x7b'] .none := lexes_literal rfl
  have hlex := hhead.append (hparams.append (lexes_global.append ((lexes_word_decimal _ (nArgs - 1)).append
    (hclose.append hopen))))
  simp only [signatureToks, lastParamToks, List.append_assoc, List.cons_append, List.nil_append] at hlex ⊢
  exact hlex

theorem reads_signatureText (nArgs : Nat) :
    Reads (signatureText nArgs) [.openBlock (signatureToks nArgs)] := by
  have hinert : ∀ t ∈ (List.range (nArgs - 1)).flatMap paramToks, t.inert := by
    intro t ht
    obtain ⟨n, -, hn⟩ := List.mem_flatMap.mp ht
    have hall : ∀ t ∈ paramToks n, t.inert := by simp [paramToks, Tok.inert]
    exact hall t hn
  refine ⟨_, lexes_signatureText nArgs, ?_⟩
  simp only [signatureToks, List.append_assoc, transduce_append, split_inert hinert]
  simp [lastParamToks, transduce, splitStep, Partial.start]

/-! ## the statements -/

/-- `arg_n[0]` -/
def argToks (n : Nat) : List Tok := [.word (argName n), .punct '[', .int 0, .punct ']']

def ifToks : Option (Nat × Nat) → List Tok
  | some g => [.word "if".toList, .punct '(', .word (tmpName g.1), .punct '>'] ++ argToks g.2 ++ [.punct ')']
  | none => []

/-- The condition that is pending, if there is one. -/
def pendingText : Option (Nat × Nat) → Text
  | some g => ifText g.1 g.2
  | none => []

theorem lexes_pendingText (pending : Option (Nat × Nat)) :
    Lexes .none (pendingText pending) (ifToks pending) .none := by
  cases pending with
  | none => rfl
  | some g =>
      have hif : Lexes .none "\tif(tmp_".toList [.word "if".toList, .punct '('] (.word "tmp_".toList) :=
        lexes_literal rfl
      have hgreater : Lexes (.word (tmpName g.1)) " > arg_".toList [.word (tmpName g.1), .punct '>']
          (.word "arg_".toList) := lexes_literal_after rfl rfl
      have hend : Lexes (.word (argName g.2)) "[0])\n\t".toList (argToks g.2 ++ [.punct ')']) .none :=
        lexes_literal_after rfl rfl
      exact hif.append ((lexes_word_decimal _ g.1).append (hgreater.append
        ((lexes_word_decimal _ g.2).append hend)))

/-- `arg_src[0] * factor;`, from the subscript on -/
theorem lexes_factor (src factor : Nat) :
    Lexes (.word (argName src)) ("[0] * ".toList ++ (decimal factor ++ ";\n".toList))
      (argToks src ++ [.op ['*'], .int factor, .punct ';']) .none := by
  have htimes : Lexes (.word (argName src)) "[0] * ".toList (argToks src ++ [.op ['*']]) .none :=
    lexes_literal_after rfl rfl
  have hend : Lexes (.int (decimal factor)) ";\n".toList [.int (numeral (decimal factor)), .punct ';'] .none :=
    lexes_literal_after rfl rfl
  rw [numeral_decimal] at hend
  exact htimes.append ((lexes_decimal factor).append hend)

theorem lexes_storeText (dst src factor : Nat) : Lexes .none (storeText dst src factor)
    (argToks dst ++ [.op ['=']] ++ argToks src ++ [.op ['*'], .int factor, .punct ';']) .none := by
  have harg : Lexes .none "\targ_".toList [] (.word "arg_".toList) := lexes_literal rfl
  have hset : Lexes (.word (argName dst)) "[0] = arg_".toList (argToks dst ++ [.op ['=']])
      (.word "arg_".toList) := lexes_literal_after rfl rfl
  exact harg.append ((lexes_word_decimal _ dst).append (hset.append ((lexes_word_decimal _ src).append
    (lexes_factor src factor))))

theorem lexes_assignText (tmp src factor : Nat) : Lexes .none (assignText tmp src factor)
    ([.word (tmpName tmp), .op ['=']] ++ argToks src ++ [.op ['*'], .int factor, .punct ';']) .none := by
  have htmp : Lexes .none "\ttmp_".toList [] (.word "tmp_".toList) := lexes_literal rfl
  have hset : Lexes (.word (tmpName tmp)) " = arg_".toList [.word (tmpName tmp), .op ['=']]
      (.word "arg_".toList) := lexes_literal_after rfl rfl
  exact htmp.append ((lexes_word_decimal _ tmp).append (hset.append ((lexes_word_decimal _ src).append
    (lexes_factor src factor))))

/-- `arg_dst[0] = arg_src[0] * factor` -/
def storeToks (dst src factor : Nat) : List Tok :=
  argToks dst ++ [.op ['=']] ++ argToks src ++ [.op ['*'], .int factor]

theorem split_storeToks (pending : Option (Nat × Nat)) (dst src factor : Nat) :
    transduce splitStep .start (ifToks pending ++ storeToks dst src factor ++ [.punct ';']) =
      ([.simple (ifToks pending ++ storeToks dst src factor)], .start) := by
  cases pending <;> simp [ifToks, storeToks, argToks, transduce, splitStep, Partial.start]

theorem parse_storeToks (pending : Option (Nat × Nat)) (dst src factor : Nat) :
    parseGuarded (ifToks pending ++ storeToks dst src factor) =
      some [⟨pending.map condition, .store (argName dst) (.int 0) (.bin .mul (argAt src) (.int factor))⟩] := by
  have hsimple : parseSimple (storeToks dst src factor) =
      some [.store (argName dst) (.int 0) (.bin .mul (argAt src) (.int factor))] := rfl
  cases pending with
  | none =>
      have hguard : parseGuard (storeToks dst src factor) = none := rfl
      simp only [ifToks, List.nil_append, parseGuarded, hguard, hsimple]
      rfl
  | some g =>
      have hguard : parseGuard (ifToks (some g) ++ storeToks dst src factor) =
          some (condition g, storeToks dst src factor) := rfl
      simp only [parseGuarded, hguard, hsimple]
      rfl

theorem fragment_store (pending : Option (Nat × Nat)) (dst src factor : Nat) :
    GuardedFragment (pendingText pending ++ storeText dst src factor)
      [⟨pending.map condition, .store (argName dst) (.int 0) (.bin .mul (argAt src) (.int factor))⟩] := by
  have hlex := (lexes_pendingText pending).append (lexes_storeText dst src factor)
  have htoks : ifToks pending ++ (argToks dst ++ [.op ['=']] ++ argToks src ++
      [.op ['*'], .int factor, .punct ';']) = ifToks pending ++ storeToks dst src factor ++ [.punct ';'] := by
    simp [storeToks]
  rw [htoks] at hlex
  exact guardedFragment_of_lexes _ hlex (split_storeToks pending dst src factor)
    (parse_storeToks pending dst src factor)

theorem fragment_assign (tmp src factor : Nat) :
    GuardedFragment (assignText tmp src factor)
      [⟨none, .assign (tmpName tmp) (.bin .mul (argAt src) (.int factor))⟩] :=
  guardedFragment_of_lexes ([.word (tmpName tmp), .op ['=']] ++ argToks src ++ [.op ['*'], .int factor])
    (lexes_assignText tmp src factor) rfl rfl

theorem fragment_draw (pending : Option (Nat × Nat)) (d : Draw) :
    GuardedFragment (pendingText pending ++ (storeText d.dst d.src d.factor ++
      assignText d.tmp d.fromArg d.scale)) (d.stmts pending) := by
  have hdraw := (fragment_store pending d.dst d.src d.factor).append
    (fragment_assign d.tmp d.fromArg d.scale)
  rwa [List.append_assoc] at hdraw

theorem flatten_pieces (d : Draw) : d.pieces.flatten =
    storeText d.dst d.src d.factor ++ (assignText d.tmp d.fromArg d.scale ++ pendingText d.guard) := by
  cases hguard : d.guard <;> simp [Draw.pieces, hguard, pendingText]

/-- The passes, from a pending condition on. -/
theorem fragment_bodyText (pending : Option (Nat × Nat)) (ds : List Draw)
    (hpending : ds = [] → pending = none) (hlast : ∀ d ∈ ds.getLast?, d.guard = none) :
    GuardedFragment (pendingText pending ++ (ds.flatMap Draw.pieces).flatten) (bodyStmts pending ds) := by
  induction ds generalizing pending with
  | nil =>
      rw [hpending rfl]
      exact guardedFragment_nil
  | cons d ds ih =>
      have hrest := ih d.guard
        (fun hnil => hlast d (by simp [hnil]))
        (fun e he => hlast e (by cases ds <;> simp_all))
      have hall := (fragment_draw pending d).append hrest
      rw [List.flatMap_cons, List.flatten_append, flatten_pieces, bodyStmts]
      simpa only [List.append_assoc] using hall

/-! ## the last pass -/

/-- The draw of the last pass. -/
theorem getLast?_draws {nArgs nLines i : Nat} {r : Rand} {ns : List Nat} {d : Draw}
    (h : d ∈ (draws nArgs nLines r i ns).getLast?) :
    ∃ j, ∃ n ∈ ns.getLast?, d = draw nArgs nLines r j n := by
  induction ns generalizing i with
  | nil => simp [draws] at h
  | cons n ns ih =>
      cases ns with
      | nil =>
          obtain rfl : draw nArgs nLines r i n = d := by simpa [draws] using h
          exact ⟨i, n, by simp, rfl⟩
      | cons m ms =>
          rw [draws, draws, List.getLast?_cons_cons, ← draws] at h
          obtain ⟨j, k, hk, hd⟩ := ih h
          exact ⟨j, k, by rwa [List.getLast?_cons_cons], hd⟩

/-- The counter of the last pass. -/
theorem getLast?_strided_two {nLines n : Nat} (h : n ∈ (strided 0 nLines 2).getLast?) : nLines ≤ n + 2 := by
  have hlast := List.getLast?_eq_getElem? (l := strided 0 nLines 2)
  rw [length_strided_two] at hlast
  rw [hlast, strided] at h
  obtain ⟨hlt, heq⟩ := List.getElem?_eq_some_iff.mp h
  rw [List.getElem_range'] at heq
  omega

/-- **The last pass prints no condition.** -/
theorem guard_of_getLast {nArgs nLines : Nat} {r : Rand} {d : Draw}
    (h : d ∈ (draws nArgs nLines r 0 (strided 0 nLines 2)).getLast?) : d.guard = none := by
  obtain ⟨j, n, hn, rfl⟩ := getLast?_draws h
  have hend := getLast?_strided_two hn
  rw [draw, if_neg (by omega)]

/-! ## the kernel -/

theorem fragment_tmpDecls : GuardedFragment "\tfloat tmp_0, tmp_1, tmp_2;\n\n".toList tmpDecls :=
  guardedFragment_of_lexes [.word "float".toList, .word (tmpName 0), .punct ',', .word (tmpName 1),
    .punct ',', .word (tmpName 2)] (lexes_literal rfl) rfl rfl

theorem kernelText_eq (nArgs nLines : Nat) (r : Rand) : kernelText nArgs nLines r =
    signatureText nArgs ++ ("\tfloat tmp_0, tmp_1, tmp_2;\n\n".toList ++
      (pendingText none ++ ((draws nArgs nLines r 0 (strided 0 nLines 2)).flatMap Draw.pieces).flatten) ++
        closeText) := by
  have hparams : (List.range (nArgs - 1)).flatMap paramText =
    ((List.range (nArgs - 1)).map paramText).flatten := List.flatMap_def
  unfold kernelText pieces signatureText
  rw [hparams]
  simp only [List.flatten_cons, List.flatten_append, List.append_assoc, pendingText, List.nil_append]

/-- **The source text is a kernel.** -/
theorem compile_kernelText {nArgs : Nat} (h : 1 ≤ nArgs) (nLines : Nat) (r : Rand) :
    compileGuarded (kernelText nArgs nLines r) = some (kernelTree nArgs nLines r) := by
  have hbody := fragment_bodyText none (draws nArgs nLines r 0 (strided 0 nLines 2)) (fun _ => rfl)
    fun d hd => guard_of_getLast hd
  have hfinish : Reads closeText [.closeBlock] := ⟨[.punct '\x7d'], lexes_literal rfl, rfl⟩
  rw [kernelText_eq]
  exact compileGuarded_kernel (reads_signatureText nArgs) (parsePlainSignature_signatureToks h)
    (fragment_tmpDecls.append hbody) hfinish

/-! ## the kernel is well formed -/

/-- One kernel `main_func` with its arguments in order, `tmp_0` to `tmp_2` and two
assignments for every two lines; these name nothing that is not declared. -/
structure WellFormed (nArgs nLines : Nat) (k : GuardedKernel) : Prop where
  name : k.name = "main_func".toList
  params : k.params = (List.range nArgs).map fun n => .buffer .float (argName n)
  nodup : k.params.Nodup
  body : ∃ ss, k.body = tmpDecls ++ ss ∧ ss.length = 2 * ((nLines + 1) / 2) ∧
    ∀ g ∈ ss, g.stmt.isDecl = false ∧
      ∀ x ∈ g.names, (∃ n < nArgs, x = argName n) ∨ ∃ n < 3, x = tmpName n

theorem argName_injective {m n : Nat} (h : argName m = argName n) : m = n := by
  have hdecimal := List.append_cancel_left h
  rw [← numeral_decimal m, hdecimal, numeral_decimal]

/-- The numbers of arguments and variables a condition uses. -/
def GuardInRange (nArgs : Nat) (pending : Option (Nat × Nat)) : Prop :=
  ∀ g ∈ pending, g.1 < 2 ∧ g.2 < nArgs

structure Draw.InRange (nArgs : Nat) (d : Draw) : Prop where
  dst : d.dst < nArgs
  src : d.src < nArgs
  tmp : d.tmp < 2
  fromArg : d.fromArg < nArgs
  guard : GuardInRange nArgs d.guard

theorem draw_inRange {nArgs : Nat} (h : 1 ≤ nArgs) (nLines : Nat) (r : Rand) (i n : Nat) :
    (draw nArgs nLines r i n).InRange nArgs where
  dst := r.arg_lt h _ _ _
  src := r.arg_lt h _ _ _
  tmp := r.arg_lt (by decide) _ _ _
  fromArg := r.arg_lt h _ _ _
  guard := by
    intro g hg
    simp only [draw] at hg
    split at hg
    · obtain rfl := Option.some.inj hg
      exact ⟨r.arg_lt (by decide) _ _ _, r.arg_lt h _ _ _⟩
    · contradiction

theorem length_bodyStmts (pending : Option (Nat × Nat)) (ds : List Draw) :
    (bodyStmts pending ds).length = 2 * ds.length := by
  induction ds generalizing pending with
  | nil => rfl
  | cons d ds ih =>
      rw [bodyStmts, List.length_append, ih, List.length_cons, Draw.stmts]
      simp
      omega

/-- The statements of a draw assign, and name what is declared. -/
theorem mem_stmts {nArgs : Nat} {pending : Option (Nat × Nat)} {d : Draw} (hp : GuardInRange nArgs pending)
    (hd : d.InRange nArgs) {g : Guarded} (hg : g ∈ d.stmts pending) : g.stmt.isDecl = false ∧
      ∀ x ∈ g.names, (∃ n < nArgs, x = argName n) ∨ ∃ n < 3, x = tmpName n := by
  have harg {n : Nat} (hn : n < nArgs) : (∃ m < nArgs, argName n = argName m) ∨ ∃ m < 3, argName n = tmpName m :=
    .inl ⟨n, hn, rfl⟩
  have htmp {n : Nat} (hn : n < 2) : (∃ m < nArgs, tmpName n = argName m) ∨ ∃ m < 3, tmpName n = tmpName m :=
    .inr ⟨n, by omega, rfl⟩
  have hdst := harg hd.dst
  have hsrc := harg hd.src
  have hset := htmp hd.tmp
  have hfrom := harg hd.fromArg
  rw [Draw.stmts, List.mem_cons, List.mem_singleton] at hg
  obtain rfl | rfl := hg
  · refine ⟨rfl, ?_⟩
    cases pending with
    | none => simp [Guarded.names, Simple.names, Expr.names, argAt, hdst, hsrc]
    | some c =>
        obtain ⟨hcond, hcmp⟩ := hp c rfl
        have hcond' := htmp hcond
        have hcmp' := harg hcmp
        simp [Guarded.names, Simple.names, Expr.names, argAt, condition, hdst, hsrc, hcond', hcmp']
  · refine ⟨rfl, ?_⟩
    simp [Guarded.names, Simple.names, Expr.names, argAt, hset, hfrom]

theorem mem_bodyStmts {nArgs : Nat} {pending : Option (Nat × Nat)} {ds : List Draw}
    (hp : GuardInRange nArgs pending) (hds : ∀ d ∈ ds, d.InRange nArgs) :
    ∀ g ∈ bodyStmts pending ds, g.stmt.isDecl = false ∧
      ∀ x ∈ g.names, (∃ n < nArgs, x = argName n) ∨ ∃ n < 3, x = tmpName n := by
  induction ds generalizing pending with
  | nil => simp [bodyStmts]
  | cons d ds ih =>
      intro g hg
      rw [bodyStmts, List.mem_append] at hg
      have hd := hds d (by simp)
      obtain hg | hg := hg
      · exact mem_stmts hp hd hg
      · exact ih hd.guard (fun e he => hds e (by simp [he])) g hg

theorem kernelTree_wellFormed {nArgs : Nat} (h : 1 ≤ nArgs) (nLines : Nat) (r : Rand) :
    WellFormed nArgs nLines (kernelTree nArgs nLines r) where
  name := rfl
  params := rfl
  nodup := List.nodup_range.map fun m n heq => argName_injective (by simpa using heq)
  body := by
    refine ⟨_, rfl, ?_, ?_⟩
    · rw [length_bodyStmts, length_draws, length_strided_two]
    · refine mem_bodyStmts (by simp [GuardInRange]) fun d hd => ?_
      obtain ⟨i, n, rfl⟩ := mem_draws hd
      exact draw_inRange h nLines r i n

/-! ## the string -/

theorem nulFree_pieces_draw (d : Draw) : ∀ t ∈ d.pieces, NulFree t := by
  have hstore : NulFree (storeText d.dst d.src d.factor) := by
    simp only [storeText, nulFree_append, nulFree_decimal, true_and]
    decide
  have hassign : NulFree (assignText d.tmp d.fromArg d.scale) := by
    simp only [assignText, nulFree_append, nulFree_decimal, true_and]
    decide
  have hif (g : Nat × Nat) : NulFree (ifText g.1 g.2) := by
    unfold ifText
    simp only [nulFree_append, nulFree_decimal, true_and]
    decide
  cases hguard : d.guard with
  | none => simp [Draw.pieces, hguard, hstore, hassign]
  | some g => simp [Draw.pieces, hguard, hstore, hassign, hif g]

theorem nulFree_flatten {ts : List Text} (h : ∀ t ∈ ts, NulFree t) : NulFree ts.flatten := by
  intro hmem
  obtain ⟨t, ht, hnul⟩ := List.mem_flatten.mp hmem
  exact h t ht hnul

theorem nulFree_kernelText (nArgs nLines : Nat) (r : Rand) : NulFree (kernelText nArgs nLines r) := by
  have hparam (n : Nat) : NulFree (paramText n) := nulFree_format _ _ (by decide) (by simp [Arg.NulFree])
  have hlast : NulFree ("__global float* arg_".toList ++ (decimal (nArgs - 1) ++ "\n)\n".toList)) := by
    simp only [nulFree_append, nulFree_decimal, true_and]
    decide
  refine nulFree_append.mpr ⟨nulFree_flatten ?_, by decide⟩
  simp only [pieces, List.mem_cons, List.mem_append, List.mem_map, List.mem_flatMap]
  rintro t (rfl | ⟨n, -, rfl⟩ | rfl | rfl | rfl | ⟨d, -, ht⟩)
  · decide
  · exact hparam n
  · exact hlast
  · decide
  · decide
  · exact nulFree_pieces_draw d t ht

/-- **The generated source**, as the OpenCL compiler reads it, is one well-formed
kernel. -/
theorem genKernel_wellFormed {nArgs nLines : Nat} (hargs : 1 ≤ nArgs) (hlines : 1 ≤ nLines) (r : Rand)
    (hfits : (kernelText nArgs nLines r).length < maxKernelSize) :
    ∃ s text k, genKernel nArgs nLines r = .ok (some s) ∧
      readString maxKernelSize s.kernelSrc = .ok text ∧ compileGuarded text = some k ∧
      WellFormed nArgs nLines k := by
  obtain ⟨s, hrun, hstarts⟩ := genKernel_starts hargs hlines hfits
  have hstring : s.kernelSrc.IsString (kernelText nArgs nLines r) :=
    ⟨hstarts, nulFree_kernelText nArgs nLines r⟩
  exact ⟨s, _, _, hrun, hstring.readString_eq hfits, compile_kernelText hargs nLines r,
    kernelTree_wellFormed hargs nLines r⟩

/-- The first test of the benchmark. -/
theorem genKernel_wellFormed_four : 1 ≤ 4 ∧ 1 ≤ 20 ∧ (kernelText 4 20 Rand.zero).length < maxKernelSize ∧
    ∃ s text k, genKernel 4 20 Rand.zero = .ok (some s) ∧ readString maxKernelSize s.kernelSrc = .ok text ∧
      compileGuarded text = some k ∧ WellFormed 4 20 k := by
  have hfits : (kernelText 4 20 Rand.zero).length < maxKernelSize := by
    have hwidth := textWidth_le (k := 1) (by decide) (by decide : 1 ≤ 4) (by decide) 20 Rand.zero
    rw [length_kernelText, maxKernelSize]
    omega
  exact ⟨by decide, by decide, hfits, genKernel_wellFormed (by decide) (by decide) Rand.zero hfits⟩

end UclBench.KernelOverheads
