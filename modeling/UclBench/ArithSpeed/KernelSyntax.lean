import UclBench.ArithSpeed.KernelText
import UclBench.OpenCL.Parser

/-!
# UclBench.ArithSpeed.KernelSyntax

What the generated text says: `compile_kernelText` reads every kernel the
generator prints as `kernelTree`.

Each fragment is read once, with the type name, the lane numbers and the vector
width left symbolic.
-/

namespace UclBench.ArithSpeed

open OpenCL

/-! ## the syntax tree -/

def ElemType.scalar : ElemType → Scalar
  | .int => .int
  | .float => .float
  | .double => .double

/-- A private variable of one lane: `a0`, `b12`, … -/
def laneVar (c : Char) (i : Nat) : Text := c :: decimal i

def inputName : Text := "input".toList
def outputName : Text := "output".toList
def gidName : Text := "gid".toList
def iterationsName : Text := "iterations".toList
def tmpName : Text := "tmp".toList
def tmp2Name : Text := "tmp2".toList

/-- `input[i]` -/
def inputAt (i : Nat) : Expr := .index inputName (.int i)

/-- `input[i], input[j], …` -/
def joinInputs (i : Nat) : List Nat → Expr
  | [] => inputAt i
  | j :: js => .join (inputAt i) (joinInputs j js)

/-- `ty x = (ty)(input[i], …);` -/
def loadStmt (ty : Ty) (x : Text) (i : Nat) (is : List Nat) : Simple :=
  .decl ty x (some (.conv ty (joinInputs i is)))

def privateStmts (ty : Ty) (binaryOp : Bool) (ntemps vec : Nat) : List Simple :=
  let first := List.range' 1 (vec - 1)
  let second := first.map (· + vec)
  loadStmt ty ['a'] 0 first ::
    (if binaryOp then
      [loadStmt ty ['b'] vec second, .decl ty tmpName none] ++
        (if ntemps > 1 then
          [loadStmt ty ['c'] vec second, loadStmt ty ['d'] 0 first, .decl ty tmp2Name none]
        else [])
    else [])

def lanesStmts (ty : Ty) (vec : Nat) : List Simple :=
  (List.range vec).flatMap fun i =>
    [.decl ty (laneVar 'a' i) (some (inputAt i)), .decl ty (laneVar 'b' i) (some (inputAt (i + vec)))]

/-- The operator of `_VLIW` after `cnt` others. -/
def vliwOp (cnt : Nat) : Op := [Op.add, .mul, .sub].getD (cnt % 3) .add

/-- `tmp = e; a = b; b = tmp;` -/
def shiftStmts (e : Expr) : List Simple :=
  [.assign tmpName e, .assign ['a'] (.var ['b']), .assign ['b'] (.var tmpName)]

def varA : Expr := .var ['a']
def varB : Expr := .var ['b']
def varC : Expr := .var ['c']
def varD : Expr := .var ['d']

/-- `a * b + (ty)0.1` -/
def madExpr (ty : Ty) : Expr := .bin .add (.bin .mul varA varB) (.conv ty (.real "0.1".toList))

/-- The built-in function of a transcendental function. -/
def Function.builtin (ftype : FunctionType) : Function → Text
  | .exp => prefixed "exp".toList
  | .log => prefixed "log".toList
  | .sqr => prefixed "powr".toList
  | .sqrt => prefixed "sqrt".toList
  | .cos => prefixed "cos".toList
  | .sin => prefixed "sin".toList
  | .tan => prefixed "tan".toList
  | _ => []
where
  prefixed (name : Text) : Text :=
    match ftype with
    | .default => name
    | .native => "native_".toList ++ name

/-- One line of operations; `cnt` operations precede it. -/
def lineStmts (fct : Function) (ftype : FunctionType) (ty : Ty) (vec cnt : Nat) : List Simple :=
  match fct with
  | .add => shiftStmts (.bin .add varA varB)
  | .sub => shiftStmts (.bin .sub varA varB)
  | .mul => shiftStmts (.bin .mul varA varB)
  | .div =>
      match ftype with
      | .default => shiftStmts (.bin .div varA varB)
      | .native => shiftStmts (.call "native_divide".toList (.join varA varB))
  | .mad => shiftStmts (madExpr ty)
  | .madMul =>
      [.assign tmpName (madExpr ty), .assign tmp2Name (.bin .mul varC varD), .assign ['a'] varB,
        .assign ['b'] (.var tmpName), .assign ['c'] varD, .assign ['d'] (.var tmp2Name)]
  | .vec => (List.range vec).flatMap fun i =>
      [.assign (laneVar 'a' i) (.bin .sub (.var (laneVar 'a' i)) (.var (laneVar 'b' i)))]
  | .vliw => (List.range vec).flatMap fun j =>
      [.assign (laneVar 'a' j)
        (.bin (vliwOp (cnt + j)) (.var (laneVar 'a' j)) (.var (laneVar 'b' j)))]
  | .sqr => [.assign ['a'] (.call (Function.builtin ftype .sqr)
      (.join varA (.conv ty (.real "2.0".toList))))]
  | fct => [.assign ['a'] (.call (fct.builtin ftype) varA)]

/-- `vec*gid+i` -/
def cellIndex (vec i : Nat) : Expr := .bin .add (.bin .mul (.int vec) (.var gidName)) (.int i)

def resultsStmts (fct : Function) (ntemps vec : Nat) : List Simple :=
  if fct.laned then
    (List.range vec).flatMap fun i => [.store outputName (cellIndex vec i) (.var (laneVar 'a' i))]
  else if vec = 1 then
    [.store outputName (.var gidName) (if ntemps < 2 then varA else .bin .add varA varC)]
  else
    (List.range vec).flatMap fun i =>
      [.store outputName (cellIndex vec i)
        (if ntemps < 2 then .lane varA i else .bin .add (.lane varA i) (.lane varC i))]

/-- `for(i = 0; i < iterations; ++i)` -/
def loopHead : LoopHead := ⟨['i'], .int 0, .var ['i'], .var iterationsName, ['i']⟩

/-- `unsigned int i; unsigned int gid = get_global_id(0);` -/
def startStmts : List Simple :=
  [.decl ⟨.uint, 1⟩ ['i'] none,
    .decl ⟨.uint, 1⟩ gidName (some (.call "get_global_id".toList (.int 0)))]

/-- The type of the private variables. -/
def laneTy (elem : ElemType) (fct : Function) (vec : Nat) : Ty :=
  ⟨elem.scalar, if fct.laned then 1 else vec⟩

def declStmts (elem : ElemType) (fct : Function) (ftype : FunctionType) (vec : Nat) : List Simple :=
  let c := functionToCode ftype fct
  let ty := laneTy elem fct vec
  startStmts ++ if fct.laned then lanesStmts ty vec else privateStmts ty c.binaryOp c.ntemps vec

def bodyStmts (elem : ElemType) (fct : Function) (ftype : FunctionType)
    (vec unrollFactor : Nat) : List Simple :=
  (List.range unrollFactor).flatMap fun i =>
    lineStmts fct ftype (laneTy elem fct vec) vec (i * vec)

def params (elem : ElemType) : List Param :=
  [.buffer elem.scalar inputName, .buffer elem.scalar outputName, .uint iterationsName]

/-- **The syntax tree** of a kernel. -/
def kernelTree (elem : ElemType) (fct : Function) (ftype : FunctionType)
    (vec localSize unrollFactor : Nat) : Kernel where
  name := "arith_speed".toList
  groupSize := localSize
  params := params elem
  body := (declStmts elem fct ftype vec).map .simple ++
    .loop loopHead (bodyStmts elem fct ftype vec unrollFactor) ::
      (resultsStmts fct (functionToCode ftype fct).ntemps vec).map .simple

/-! ## type names -/

/-- `type` is a word that names `ty`. -/
structure Names (type : Text) (ty : Ty) : Prop where
  lexes : Lexes .none type [] (.word type)
  typeOf : typeOf type = some ty
  ne_unsigned : type ≠ unsignedWord

theorem names_name (elem : ElemType) : Names elem.name ⟨elem.scalar, 1⟩ := by
  cases elem <;> exact ⟨rfl, rfl, by decide⟩

theorem names_vecTypeName {elem : ElemType} (h : elem.accepts vec) :
    Names (vecTypeName elem vec) ⟨elem.scalar, vec⟩ := by
  cases elem with
  | int =>
      obtain rfl : vec = 1 := by simpa [ElemType.accepts] using h
      exact names_name .int
  | float =>
      simp only [ElemType.accepts, Bool.or_eq_true, decide_eq_true_eq] at h
      obtain (((rfl | rfl) | rfl) | rfl) | rfl := h <;>
        exact ⟨rfl, rfl, by decide⟩
  | double =>
      simp only [ElemType.accepts, Bool.or_eq_true, decide_eq_true_eq] at h
      obtain (((rfl | rfl) | rfl) | rfl) | rfl := h <;>
        exact ⟨rfl, rfl, by decide⟩

/-! ## the private variables -/

/-- `, input[i]` for the given indices -/
def inputsToks (is : List Nat) : List Tok :=
  is.flatMap fun i => [.punct ',', .word inputName, .punct '[', .int i, .punct ']']

theorem inputsToks_cons_append (j : Nat) (js : List Nat) (ts : List Tok) :
    inputsToks (j :: js) ++ ts = .punct ',' :: .word inputName :: .punct '[' :: .int j ::
      .punct ']' :: (inputsToks js ++ ts) := by
  simp [inputsToks]

theorem lexes_inputsText (is : List Nat) : Lexes .none (inputsText is) (inputsToks is) .none := by
  refine lexes_flatMap is fun i _ => ?_
  have htext : format ", input[%d]".toList [.int i] =
    ", input[".toList ++ (decimal i ++ "]".toList) := rfl
  have hopen : Lexes .none ", input[".toList [.punct ',', .word inputName, .punct '['] .none :=
    lexes_literal rfl
  have hclose : Lexes (.int (decimal i)) "]".toList [.int (numeral (decimal i)), .punct ']'] .none :=
    lexes_literal_after rfl rfl
  rw [numeral_decimal] at hclose
  rw [htext]
  exact hopen.append ((lexes_decimal i).append hclose)

/-- The declaration of `x`, initialised from the given inputs. -/
def loadText (type x : Text) (i : Nat) (is : List Nat) : Text :=
  "  ".toList ++ (type ++ (" ".toList ++ (x ++ (" = (".toList ++ (type ++ (")(input[".toList ++
    (decimal i ++ ("]".toList ++ (inputsText is ++ ");\n".toList)))))))))

/-- The declaration of `x` without a value. -/
def declText (type x : Text) : Text :=
  "  ".toList ++ (type ++ (" ".toList ++ (x ++ ";\n".toList)))

/-- The private declarations, one statement after the other. -/
theorem privateText_eq (type : Text) (binaryOp : Bool) (ntemps vec : Nat) :
    privateText type binaryOp ntemps vec =
      loadText type ['a'] 0 (List.range' 1 (vec - 1)) ++
        (if binaryOp then
          loadText type ['b'] vec ((List.range' 1 (vec - 1)).map (· + vec)) ++
            (declText type tmpName ++
            (if ntemps > 1 then
              loadText type ['c'] vec ((List.range' 1 (vec - 1)).map (· + vec)) ++
                (loadText type ['d'] 0 (List.range' 1 (vec - 1)) ++ declText type tmp2Name)
            else []))
        else []) := by
  have hzero : decimal 0 = "0".toList := rfl
  have ha : format "  %s a = (%s)(input[0]".toList [.str type, .str type] =
    "  ".toList ++ (type ++ (" ".toList ++ (['a'] ++ (" = (".toList ++ (type ++ (")(input[".toList ++
      ("0".toList ++ "]".toList))))))) := rfl
  have hb : format "  %s b = (%s)(input[%d]".toList [.str type, .str type, .int vec] =
    "  ".toList ++ (type ++ (" ".toList ++ (['b'] ++ (" = (".toList ++ (type ++ (")(input[".toList ++
      (decimal vec ++ "]".toList))))))) := rfl
  have hc : format "  %s c = (%s)(input[%d]".toList [.str type, .str type, .int vec] =
    "  ".toList ++ (type ++ (" ".toList ++ (['c'] ++ (" = (".toList ++ (type ++ (")(input[".toList ++
      (decimal vec ++ "]".toList))))))) := rfl
  have htmp : format ");\n  %s tmp;\n".toList [.str type] =
    ");\n".toList ++ ("  ".toList ++ (type ++ (" ".toList ++ (tmpName ++ ";\n".toList)))) := rfl
  have hd : format ");\n  %s d = (%s)(input[0]".toList [.str type, .str type] =
    ");\n".toList ++ ("  ".toList ++ (type ++ (" ".toList ++ (['d'] ++ (" = (".toList ++ (type ++
      (")(input[".toList ++ ("0".toList ++ "]".toList)))))))) := rfl
  have htmp2 : format ");\n  %s tmp2;\n".toList [.str type] =
    ");\n".toList ++ ("  ".toList ++ (type ++ (" ".toList ++ (tmp2Name ++ ";\n".toList)))) := rfl
  unfold privateText loadText declText
  rw [ha, hb, hc, htmp, hd, htmp2, hzero]
  cases binaryOp with
  | false => simp only [Bool.false_eq_true, if_false, List.append_assoc, List.append_nil]
  | true => by_cases h : ntemps > 1 <;> simp only [h, if_true, if_false, List.append_assoc, List.append_nil]

/-- The arguments of a vector literal, up to its closing parenthesis. -/
theorem parseExpr_inputs (i : Nat) (is : List Nat) (ts : List Tok) {n : Nat} (hn : is.length + 8 ≤ n) :
    parseExpr n .list (.word inputName :: .punct '[' :: .int i :: .punct ']' ::
      (inputsToks is ++ .punct ')' :: ts)) = some (joinInputs i is, .punct ')' :: ts) := by
  induction is generalizing i n with
  | nil =>
      obtain ⟨m, rfl⟩ : ∃ m, n = m + 8 := ⟨n - 8, by simp at hn; omega⟩
      rfl
  | cons j js ih =>
      obtain ⟨m, rfl⟩ : ∃ m, n = m + 8 + 1 := ⟨n - 9, by simp at hn; omega⟩
      have hfirst (us : List Tok) : parseExpr (m + 8) .sum (.word inputName :: .punct '[' :: .int i ::
          .punct ']' :: .punct ',' :: us) = some (inputAt i, .punct ',' :: us) := rfl
      rw [inputsToks_cons_append]
      exact parseExpr_list_cons (hfirst _) (ih j (by simp at hn; omega))

/-- The tokens of `loadText`. -/
def loadToks (type x : Text) (i : Nat) (is : List Nat) : List Tok :=
  [.word type, .word x, .op ['='], .punct '(', .word type, .punct ')', .punct '(', .word inputName,
    .punct '[', .int i, .punct ']'] ++ (inputsToks is ++ [.punct ')'])

theorem split_loadToks (type x : Text) (i : Nat) (is : List Nat) :
    transduce splitStep .start (loadToks type x i is ++ [.punct ';']) =
      ([.simple (loadToks type x i is)], .start) := by
  have hinert : ∀ t ∈ inputsToks is, t.inert := by
    intro t ht
    obtain ⟨j, -, hj⟩ := List.mem_flatMap.mp ht
    have hall : ∀ t ∈ [Tok.punct ',', .word inputName, .punct '[', .int j, .punct ']'], t.inert := by
      simp [Tok.inert]
    exact hall t hj
  simp only [loadToks, List.append_assoc, transduce_append, split_inert hinert]
  simp [transduce, splitStep, Partial.start]

/-- The initialiser of `loadText`. -/
theorem parse_vector {type : Text} {ty : Ty} (htype : Names type ty) (i : Nat) (is : List Nat)
    {n : Nat} (hn : is.length + 12 ≤ n) :
    parseExpr n .sum ([.punct '(', .word type, .punct ')', .punct '(', .word inputName, .punct '[',
      .int i, .punct ']'] ++ (inputsToks is ++ [.punct ')'])) =
      some (.conv ty (joinInputs i is), []) := by
  obtain ⟨k, rfl⟩ : ∃ k, n = k + 4 := ⟨n - 4, by omega⟩
  have hlist := parseExpr_inputs i is [] (show is.length + 8 ≤ k by omega)
  have hpost : parseExpr k (.selection (joinInputs i is)) [] = some (joinInputs i is, []) := by
    obtain ⟨m, rfl⟩ : ∃ m, k = m + 1 := ⟨k - 1, by omega⟩
    rfl
  simp [parseExpr, htype.typeOf, hlist, hpost]

theorem parse_loadToks {type : Text} {ty : Ty} (htype : Names type ty) (x : Text) (i : Nat)
    (is : List Nat) : parseSimple (loadToks type x i is) = some [loadStmt ty x i is] := by
  have hlen : is.length ≤ (inputsToks is).length := by
    induction is with
    | nil => exact Nat.le_refl 0
    | cons j js ih => simp only [inputsToks, List.flatMap_cons, List.length_append, List.length_cons] at ih ⊢; omega
  have hvector := parse_vector htype i is (n := exprFuel ([.punct '(', .word type, .punct ')',
    .punct '(', .word inputName, .punct '[', .int i, .punct ']'] ++ (inputsToks is ++ [.punct ')'])))
    (by simp only [exprFuel, List.length_append, List.length_cons, List.length_nil]; omega)
  simp only [List.cons_append, List.nil_append] at hvector
  simp only [loadToks, List.cons_append, List.nil_append, parseSimple, if_neg htype.ne_unsigned,
    htype.typeOf, parseDeclarators, hvector, Option.bind_eq_bind, Option.bind_some]
  rfl

theorem lexes_loadText {type x : Text} {ty : Ty} (htype : Names type ty)
    (hx : Lexes .none x [] (.word x)) (i : Nat) (is : List Nat) :
    Lexes .none (loadText type x i is) (loadToks type x i is ++ [.punct ';']) .none := by
  have hspaces : Lexes .none "  ".toList [] .none := lexes_literal rfl
  have hspace : Lexes (.word type) " ".toList [.word type] .none :=
    lexes_literal_after rfl rfl
  have hopen : Lexes (.word x) " = (".toList [.word x, .op ['='], .punct '('] .none :=
    lexes_literal_after rfl rfl
  have hinput : Lexes (.word type) ")(input[".toList
      [.word type, .punct ')', .punct '(', .word inputName, .punct '['] .none :=
    lexes_literal_after rfl rfl
  have hclose : Lexes (.int (decimal i)) "]".toList [.int (numeral (decimal i)), .punct ']'] .none :=
    lexes_literal_after rfl rfl
  have hend : Lexes .none ");\n".toList [.punct ')', .punct ';'] .none :=
    lexes_literal rfl
  rw [numeral_decimal] at hclose
  have hlex := hspaces.append (htype.lexes.append (hspace.append (hx.append (hopen.append
    (htype.lexes.append (hinput.append ((lexes_decimal i).append (hclose.append
      ((lexes_inputsText is).append hend)))))))))
  simpa [loadText, loadToks] using hlex

theorem fragment_loadText {type x : Text} {ty : Ty} (htype : Names type ty)
    (hx : Lexes .none x [] (.word x)) (i : Nat) (is : List Nat) :
    Fragment (loadText type x i is) [loadStmt ty x i is] :=
  fragment_of_lexes (loadToks type x i is) (lexes_loadText htype hx i is)
    (split_loadToks type x i is) (parse_loadToks htype x i is)

theorem fragment_declText {type x : Text} {ty : Ty} (htype : Names type ty)
    (hx : Lexes .none x [] (.word x)) : Fragment (declText type x) [.decl ty x none] := by
  have hspaces : Lexes .none "  ".toList [] .none := lexes_literal rfl
  have hspace : Lexes (.word type) " ".toList [.word type] .none :=
    lexes_literal_after rfl rfl
  have hend : Lexes (.word x) ";\n".toList [.word x, .punct ';'] .none :=
    lexes_literal_after rfl rfl
  refine fragment_of_lexes [.word type, .word x]
    (hspaces.append (htype.lexes.append (hspace.append (hx.append hend)))) rfl ?_
  simp [parseSimple, htype.ne_unsigned, htype.typeOf, parseDeclarators]

theorem fragment_privateText {type : Text} {ty : Ty} (htype : Names type ty) (binaryOp : Bool)
    (ntemps vec : Nat) :
    Fragment (privateText type binaryOp ntemps vec) (privateStmts ty binaryOp ntemps vec) := by
  have hletter (c : Char) (hc : isWordStart c ∧ c.isWhitespace = false) :
      Lexes .none [c] [] (.word [c]) := by
    simp [Lexes, transduce, lexStep, Pending.extend, startToken, hc.1, hc.2, Pending.flush]
  have ha (i is) := fragment_loadText htype (hletter 'a' (by decide)) i is
  have hb (i is) := fragment_loadText htype (hletter 'b' (by decide)) i is
  have hc (i is) := fragment_loadText htype (hletter 'c' (by decide)) i is
  have hd (i is) := fragment_loadText htype (hletter 'd' (by decide)) i is
  have htmp : Fragment (declText type tmpName) [.decl ty tmpName none] :=
    fragment_declText htype rfl
  have htmp2 : Fragment (declText type tmp2Name) [.decl ty tmp2Name none] :=
    fragment_declText htype rfl
  rw [privateText_eq]
  refine (ha _ _).append ?_
  cases binaryOp with
  | false => exact fragment_nil
  | true =>
      refine (hb _ _).append (htmp.append ?_)
      by_cases h : ntemps > 1
      · simp only [h, if_true]
        exact (hc _ _).append ((hd _ _).append htmp2)
      · simp only [h, if_false]
        exact fragment_nil

theorem fragment_lanesText {type : Text} {ty : Ty} (htype : Names type ty) (vec : Nat) :
    Fragment (lanesText type vec) (lanesStmts ty vec) := by
  refine fragment_flatMap _ fun i _ => ?_
  have htext : format "  %s a%d = input[%d], b%d = input[%d];\n".toList
      [.str type, .int i, .int i, .int i, .int (i + vec)] =
    "  ".toList ++ (type ++ (" a".toList ++ (decimal i ++ (" = input[".toList ++ (decimal i ++
      ("], b".toList ++ (decimal i ++ (" = input[".toList ++ (decimal (i + vec) ++
        "];\n".toList))))))))) := rfl
  have hspaces : Lexes .none "  ".toList [] .none := lexes_literal rfl
  have ha : Lexes (.word type) " a".toList [.word type] (.word ['a']) :=
    lexes_literal_after rfl rfl
  have hinput (c : Char) : Lexes (.word (laneVar c i)) " = input[".toList
      [.word (laneVar c i), .op ['='], .word inputName, .punct '['] .none :=
    lexes_literal_after rfl rfl
  have hb : Lexes (.int (decimal i)) "], b".toList
      [.int (numeral (decimal i)), .punct ']', .punct ','] (.word ['b']) :=
    lexes_literal_after rfl rfl
  have hend : Lexes (.int (decimal (i + vec))) "];\n".toList
      [.int (numeral (decimal (i + vec))), .punct ']', .punct ';'] .none :=
    lexes_literal_after rfl rfl
  rw [numeral_decimal] at hb hend
  have hlex := hspaces.append (htype.lexes.append (ha.append ((lexes_word_decimal _ i).append
    ((hinput 'a').append ((lexes_decimal i).append (hb.append ((lexes_word_decimal _ i).append
      ((hinput 'b').append ((lexes_decimal (i + vec)).append hend)))))))))
  rw [htext]
  refine fragment_of_lexes [.word type, .word (laneVar 'a' i), .op ['='], .word inputName, .punct '[',
    .int i, .punct ']', .punct ',', .word (laneVar 'b' i), .op ['='], .word inputName, .punct '[',
    .int (i + vec), .punct ']'] hlex rfl ?_
  have hdecl : parseDeclarators ty 14 [.word (laneVar 'a' i), .op ['='], .word inputName, .punct '[',
      .int i, .punct ']', .punct ',', .word (laneVar 'b' i), .op ['='], .word inputName, .punct '[',
      .int (i + vec), .punct ']'] = some [.decl ty (laneVar 'a' i) (some (inputAt i)),
        .decl ty (laneVar 'b' i) (some (inputAt (i + vec)))] := rfl
  simp only [parseSimple, if_neg htype.ne_unsigned, htype.typeOf]
  exact hdecl

/-! ## the operations -/

theorem opOf_operation (cnt : Nat) : opOf (operation cnt) = some (vliwOp cnt) := by
  have hdec : ∀ r < 3, opOf (['+', '*', '-'].getD r '+') = some ([Op.add, .mul, .sub].getD r .add) := by
    decide
  exact hdec (cnt % 3) (Nat.mod_lt cnt (by decide))

/-- One `_VEC` or `_VLIW` operation: `a<i> <c>= b<i>;`. -/
theorem lexes_laneOp (c : Char) (hc : c = '+' ∨ c = '-' ∨ c = '*') (i : Nat) :
    Lexes .none ("a".toList ++ (decimal i ++ (" ".toList ++ ([c] ++ ("= b".toList ++
      (decimal i ++ ";".toList))))))
      [.word (laneVar 'a' i), .op [c, '='], .word (laneVar 'b' i), .punct ';'] .none := by
  have ha : Lexes .none "a".toList [] (.word ['a']) := lexes_literal rfl
  have hspace : Lexes (.word (laneVar 'a' i)) " ".toList [.word (laneVar 'a' i)] .none :=
    lexes_literal_after rfl rfl
  have hop : Lexes .none [c] [] (.op [c]) := by
    obtain rfl | rfl | rfl := hc <;> rfl
  have hb : Lexes (.op [c]) "= b".toList [.op [c, '=']] (.word ['b']) := by
    obtain rfl | rfl | rfl := hc <;> exact lexes_literal rfl
  have hend : Lexes (.word (laneVar 'b' i)) ";".toList [.word (laneVar 'b' i), .punct ';'] .none :=
    lexes_literal_after rfl rfl
  exact ha.append ((lexes_word_decimal _ i).append (hspace.append (hop.append (hb.append
    ((lexes_word_decimal _ i).append hend)))))

theorem operation_cases (cnt : Nat) :
    operation cnt = '+' ∨ operation cnt = '-' ∨ operation cnt = '*' := by
  have hdec : ∀ r < 3, ['+', '*', '-'].getD r '+' = '+' ∨ ['+', '*', '-'].getD r '+' = '-' ∨
      ['+', '*', '-'].getD r '+' = '*' := by decide
  exact hdec (cnt % 3) (Nat.mod_lt cnt (by decide))

theorem fragment_vliwOp (cnt j : Nat) :
    Fragment (format "a%d %c= b%d;".toList [.int j, .chr (operation cnt), .int j])
      [.assign (laneVar 'a' j) (.bin (vliwOp cnt) (.var (laneVar 'a' j)) (.var (laneVar 'b' j)))] := by
  have htext : format "a%d %c= b%d;".toList [.int j, .chr (operation cnt), .int j] =
    "a".toList ++ (decimal j ++ (" ".toList ++ ([operation cnt] ++ ("= b".toList ++
      (decimal j ++ ";".toList))))) := rfl
  rw [htext]
  refine fragment_of_lexes [.word (laneVar 'a' j), .op [operation cnt, '='], .word (laneVar 'b' j)]
    (lexes_laneOp _ (operation_cases cnt) j) rfl ?_
  have hrhs : wholeExpr [.word (laneVar 'b' j)] = some (.var (laneVar 'b' j)) := rfl
  simp [parseSimple, opOf_operation, hrhs]

theorem fragment_vecOp (i : Nat) :
    Fragment (format "a%d -= b%d;;".toList [.int i, .int i])
      [.assign (laneVar 'a' i) (.bin .sub (.var (laneVar 'a' i)) (.var (laneVar 'b' i)))] := by
  have htext : format "a%d -= b%d;;".toList [.int i, .int i] =
    ("a".toList ++ (decimal i ++ (" ".toList ++ (['-'] ++ ("= b".toList ++
      (decimal i ++ ";".toList)))))) ++ ";".toList := by simp [format]
  have hop : Fragment ("a".toList ++ (decimal i ++ (" ".toList ++ (['-'] ++ ("= b".toList ++
      (decimal i ++ ";".toList))))))
      [.assign (laneVar 'a' i) (.bin .sub (.var (laneVar 'a' i)) (.var (laneVar 'b' i)))] :=
    fragment_of_lexes [.word (laneVar 'a' i), .op ['-', '='], .word (laneVar 'b' i)]
      (lexes_laneOp '-' (by decide) i) rfl rfl
  have hempty : Fragment ";".toList [] := fragment_literal rfl
  rw [htext]
  exact hop.append hempty

/-- `    …` and a line break around a closed sequence of statements. -/
theorem fragment_line {s : Text} {ss : List Simple} (h : Fragment s ss) :
    Fragment (format "    %s\n".toList [.str s]) ss := by
  have hline : format "    %s\n".toList [.str s] = "    ".toList ++ (s ++ "\n".toList) := rfl
  have hspaces : Fragment "    ".toList [] := fragment_literal rfl
  have hnewline : Fragment "\n".toList [] := fragment_literal rfl
  rw [hline]
  simpa using hspaces.append (h.append hnewline)

/-- A statement with a cast literal in it: `… (type)d …`. -/
theorem lexes_cast {type head tail : Text} {ty : Ty} {ts us : List Tok} (htype : Names type ty)
    (hhead : Lexes .none head ts .none) (htail : Lexes (.word type) tail us .none) :
    Lexes .none (head ++ (type ++ tail)) (ts ++ us) .none := by
  simpa using hhead.append (htype.lexes.append htail)

theorem fragment_madStmt {type : Text} {ty : Ty} (htype : Names type ty) :
    Fragment ("tmp = a * b + (".toList ++ (type ++ ")0.1;".toList)) [.assign tmpName (madExpr ty)] := by
  have hhead : Lexes .none "tmp = a * b + (".toList
      [.word tmpName, .op ['='], .word ['a'], .op ['*'], .word ['b'], .op ['+'], .punct '('] .none :=
    lexes_literal rfl
  have htail : Lexes (.word type) ")0.1;".toList
      [.word type, .punct ')', .real "0.1".toList, .punct ';'] .none :=
    lexes_literal_after rfl rfl
  have hlex := lexes_cast htype hhead htail
  have hrhs : wholeExpr [.word ['a'], .op ['*'], .word ['b'], .op ['+'], .punct '(', .word type,
      .punct ')', .real "0.1".toList] = some (madExpr ty) := by
    simp [wholeExpr, exprFuel, parseExpr, htype.typeOf, madExpr, varA, varB]
  refine fragment_of_lexes [.word tmpName, .op ['='], .word ['a'], .op ['*'], .word ['b'], .op ['+'],
    .punct '(', .word type, .punct ')', .real "0.1".toList] hlex rfl ?_
  simp only [parseSimple, hrhs, Option.bind_eq_bind, Option.bind_some]

/-- `a = f(a, (type)2.0);` -/
theorem fragment_sqrStmt {type head f : Text} {ty : Ty} (htype : Names type ty)
    (hhead : Lexes .none head
      [.word ['a'], .op ['='], .word f, .punct '(', .word ['a'], .punct ',', .punct '('] .none) :
    Fragment (head ++ (type ++ ")2.0);".toList))
      [.assign ['a'] (.call f (.join varA (.conv ty (.real "2.0".toList))))] := by
  have htail : Lexes (.word type) ")2.0);".toList
      [.word type, .punct ')', .real "2.0".toList, .punct ')', .punct ';'] .none :=
    lexes_literal_after rfl rfl
  have hlex := lexes_cast htype hhead htail
  have hrhs : wholeExpr [.word f, .punct '(', .word ['a'], .punct ',', .punct '(', .word type,
      .punct ')', .real "2.0".toList, .punct ')'] =
        some (.call f (.join varA (.conv ty (.real "2.0".toList)))) := by
    have hcast : parseExpr 36 .list [.punct '(', .word type, .punct ')', .real "2.0".toList,
        .punct ')'] = some (.conv ty (.real "2.0".toList), [.punct ')']) :=
      parseExpr_list_factor (parseExpr_cast htype.typeOf _ _)
    exact wholeExpr_call rfl (parseExpr_list_cons rfl hcast)
  refine fragment_of_lexes [.word ['a'], .op ['='], .word f, .punct '(', .word ['a'], .punct ',',
    .punct '(', .word type, .punct ')', .real "2.0".toList, .punct ')'] hlex rfl ?_
  simp only [parseSimple, hrhs, Option.bind_eq_bind, Option.bind_some]

/-- One line of operations, for every function but `_VLIW`. -/
theorem fragment_functionText {fct : Function} (hfct : fct ≠ .vliw) (ftype : FunctionType)
    {type : Text} {ty : Ty} (htype : Names type ty) (vec cnt : Nat) :
    Fragment (functionText fct (functionToCode ftype fct).code type vec)
      (lineStmts fct ftype ty vec cnt) := by
  -- functions whose code neither depends on the type nor on the width
  have hplain (fct : Function)
      (htext : functionText fct (functionToCode ftype fct).code type vec =
        format (functionToCode ftype fct).code [])
      (hline : lineStmts fct ftype ty vec cnt = lineStmts fct ftype ⟨.uint, 1⟩ 0 0)
      (h : stmtsOf (format (functionToCode ftype fct).code []) =
        some (lineStmts fct ftype ⟨.uint, 1⟩ 0 0)) :
      Fragment (functionText fct (functionToCode ftype fct).code type vec)
        (lineStmts fct ftype ty vec cnt) := by
    rw [htext, hline]
    exact fragment_of_stmtsOf h
  cases fct with
  | add => exact hplain .add rfl rfl (by cases ftype <;> rfl)
  | sub => exact hplain .sub rfl rfl (by cases ftype <;> rfl)
  | mul => exact hplain .mul rfl rfl (by cases ftype <;> rfl)
  | div => exact hplain .div rfl rfl (by cases ftype <;> rfl)
  | mad =>
      have htext : functionText .mad (functionToCode ftype .mad).code type vec =
        "tmp = a * b + (".toList ++ (type ++ (")0.1;".toList ++ " a = b; b = tmp;".toList)) := rfl
      have hrest : Fragment " a = b; b = tmp;".toList
        [.assign ['a'] varB, .assign ['b'] (.var tmpName)] := fragment_literal rfl
      rw [htext, ← List.append_assoc type, ← List.append_assoc]
      exact (fragment_madStmt htype).append hrest
  | madMul =>
      have htext : functionText .madMul (functionToCode ftype .madMul).code type vec =
        "tmp = a * b + (".toList ++ (type ++ (")0.1;".toList ++
          " tmp2 = c * d; a = b; b = tmp; c = d; d = tmp2;".toList)) := rfl
      have hrest : Fragment " tmp2 = c * d; a = b; b = tmp; c = d; d = tmp2;".toList
        [.assign tmp2Name (.bin .mul varC varD), .assign ['a'] varB, .assign ['b'] (.var tmpName),
          .assign ['c'] varD, .assign ['d'] (.var tmp2Name)] := fragment_literal rfl
      rw [htext, ← List.append_assoc type, ← List.append_assoc]
      exact (fragment_madStmt htype).append hrest
  | vec => exact fragment_flatMap _ fun i _ => fragment_vecOp i
  | vliw => exact absurd rfl hfct
  | sqr =>
      cases ftype with
      | default =>
          have htext : functionText .sqr (functionToCode .default .sqr).code type vec =
            "a = powr(a, (".toList ++ (type ++ ")2.0);".toList) := rfl
          rw [htext]
          exact fragment_sqrStmt htype (lexes_literal rfl)
      | native =>
          have htext : functionText .sqr (functionToCode .native .sqr).code type vec =
            "a = native_powr(a, (".toList ++ (type ++ ")2.0);".toList) := rfl
          rw [htext]
          exact fragment_sqrStmt htype (lexes_literal rfl)
  | exp => exact hplain .exp rfl rfl (by cases ftype <;> rfl)
  | log => exact hplain .log rfl rfl (by cases ftype <;> rfl)
  | sqrt => exact hplain .sqrt rfl rfl (by cases ftype <;> rfl)
  | cos => exact hplain .cos rfl rfl (by cases ftype <;> rfl)
  | sin => exact hplain .sin rfl rfl (by cases ftype <;> rfl)
  | tan => exact hplain .tan rfl rfl (by cases ftype <;> rfl)

theorem fragment_vliwLineText (vec cnt : Nat) :
    Fragment (vliwLineText "a%d %c= b%d;".toList vec cnt) (lineStmts .vliw ftype ty vec cnt) := by
  have hspaces : Fragment "    ".toList [] := fragment_literal rfl
  have hnewline : Fragment "\n".toList [] := fragment_literal rfl
  have hops : Fragment ((List.range vec).flatMap fun j =>
      format "a%d %c= b%d;".toList [.int j, .chr (operation (cnt + j)), .int j])
      (lineStmts .vliw ftype ty vec cnt) :=
    fragment_flatMap _ fun j _ => fragment_vliwOp (cnt + j) j
  simpa [vliwLineText] using (hspaces.append hops).append hnewline

theorem fragment_operationsText (fct : Function) (ftype : FunctionType) {type : Text} {ty : Ty}
    (htype : Names type ty) (vec unrollFactor : Nat) :
    Fragment (operationsText fct (functionText fct (functionToCode ftype fct).code type vec) vec
        unrollFactor)
      ((List.range unrollFactor).flatMap fun i => lineStmts fct ftype ty vec (i * vec)) := by
  by_cases hfct : fct = .vliw
  · subst hfct
    exact fragment_flatMap _ fun i _ => fragment_vliwLineText vec (i * vec)
  · have hlines : operationsText fct (functionText fct (functionToCode ftype fct).code type vec) vec
        unrollFactor = (List.range unrollFactor).flatMap fun _ => format "    %s\n".toList
          [.str (functionText fct (functionToCode ftype fct).code type vec)] := by
      cases fct <;> first | rfl | exact absurd rfl hfct
    rw [hlines]
    exact fragment_flatMap _ fun i _ => fragment_line (fragment_functionText hfct ftype htype vec _)

/-! ## the results -/

/-- `  output[vec*gid+i] = …` -/
def cellText (vec i : Nat) (rest : Text) : Text :=
  "  output[".toList ++ (decimal vec ++ ("*gid+".toList ++ (decimal i ++ ("] = ".toList ++ rest))))

def cellToks (vec i : Nat) : List Tok :=
  [.word outputName, .punct '[', .int vec, .op ['*'], .word gidName, .op ['+'], .int i, .punct ']',
    .op ['=']]

theorem lexes_cellText {rest : Text} {ts : List Tok} (vec i : Nat) (h : Lexes .none rest ts .none) :
    Lexes .none (cellText vec i rest) (cellToks vec i ++ ts) .none := by
  have hopen : Lexes .none "  output[".toList [.word outputName, .punct '['] .none :=
    lexes_literal rfl
  have hgid : Lexes (.int (decimal vec)) "*gid+".toList
      [.int (numeral (decimal vec)), .op ['*'], .word gidName] (.op ['+']) :=
    lexes_literal_after rfl rfl
  have hclose : Lexes (.int (decimal i)) "] = ".toList
      [.int (numeral (decimal i)), .punct ']', .op ['=']] .none :=
    lexes_literal_after rfl rfl
  rw [numeral_decimal] at hgid hclose
  exact hopen.append ((lexes_decimal vec).append (hgid.append ((lexes_plus_decimal i).append
    (hclose.append h))))

/-- `  output[vec*gid+i] = e;` from the tokens of the value. -/
theorem fragment_cell {rest : Text} {ts : List Tok} {e : Expr} (vec i : Nat)
    (hrest : Lexes .none rest (ts ++ [.punct ';']) .none) (hinert : ∀ t ∈ ts, t.inert)
    (he : wholeExpr ts = some e) :
    Fragment (cellText vec i rest) [.store outputName (cellIndex vec i) e] := by
  have hlex : Lexes .none (cellText vec i rest) ((cellToks vec i ++ ts) ++ [.punct ';']) .none := by
    rw [List.append_assoc]
    exact lexes_cellText vec i hrest
  have hcell : ∀ t ∈ cellToks vec i, t.inert := by simp [cellToks, Tok.inert]
  refine fragment_of_lexes _ hlex ?_ ?_
  · simp only [transduce_append, split_inert hinert, split_inert hcell]
    rfl
  · have hindex (n : Nat) : parseExpr (n + 8) .sum (.int vec :: .op ['*'] :: .word gidName ::
        .op ['+'] :: .int i :: .punct ']' :: .op ['='] :: ts) =
        some (cellIndex vec i, .punct ']' :: .op ['='] :: ts) := rfl
    simp only [cellToks, List.cons_append, List.nil_append, parseSimple]
    rw [exprFuel, show 4 * ((.int vec :: .op ['*'] :: .word gidName :: .op ['+'] :: .int i ::
      .punct ']' :: .op ['='] :: ts : List Tok).length + 1) = 4 * ts.length + 24 + 8 by
        simp only [List.length_cons]; omega, hindex]
    simp only [he, Option.bind_eq_bind, Option.bind_some]

/-- A lane of a vector variable. -/
theorem laneOf_hexadecimal : ∀ i < 16, laneOf ('s' :: hexadecimal i) = some i := by decide

theorem lexes_word_hexadecimal (w : Text) {i : Nat} (hi : i < 16) :
    Lexes (.word w) (hexadecimal i) [] (.word (w ++ hexadecimal i)) := by
  have hdec : (List.range 16).all fun i => (hexadecimal i).all isWordRest := rfl
  rw [List.all_eq_true] at hdec
  exact lexes_word_rest (List.all_eq_true.mp (hdec i (List.mem_range.mpr hi))) w

theorem fragment_laneResult (vec i : Nat) :
    Fragment (format "  output[%d*gid+%d] = a%d;\n".toList [.int vec, .int i, .int i])
      [.store outputName (cellIndex vec i) (.var (laneVar 'a' i))] := by
  have htext : format "  output[%d*gid+%d] = a%d;\n".toList [.int vec, .int i, .int i] =
    cellText vec i ("a".toList ++ (decimal i ++ ";\n".toList)) := rfl
  have ha : Lexes .none "a".toList [] (.word ['a']) := lexes_literal rfl
  have hend : Lexes (.word (laneVar 'a' i)) ";\n".toList [.word (laneVar 'a' i), .punct ';'] .none :=
    lexes_literal_after rfl rfl
  have hlex : Lexes .none ("a".toList ++ (decimal i ++ ";\n".toList))
      ([.word (laneVar 'a' i)] ++ [.punct ';']) .none :=
    ha.append ((lexes_word_decimal _ i).append hend)
  have he : wholeExpr [.word (laneVar 'a' i)] = some (.var (laneVar 'a' i)) := rfl
  rw [htext]
  exact fragment_cell vec i hlex (by simp [Tok.inert]) he

theorem fragment_vectorResult (vec : Nat) {i : Nat} (hi : i < 16) :
    Fragment (format "  output[%d*gid+%d] = a.s%x;\n".toList [.int vec, .int i, .int i])
      [.store outputName (cellIndex vec i) (.lane varA i)] := by
  have htext : format "  output[%d*gid+%d] = a.s%x;\n".toList [.int vec, .int i, .int i] =
    cellText vec i ("a.s".toList ++ (hexadecimal i ++ ";\n".toList)) := rfl
  have ha : Lexes .none "a.s".toList [.word ['a'], .punct '.'] (.word ['s']) :=
    lexes_literal rfl
  have hend : Lexes (.word ('s' :: hexadecimal i)) ";\n".toList
      [.word ('s' :: hexadecimal i), .punct ';'] .none := lexes_literal_after rfl rfl
  have he : wholeExpr [.word ['a'], .punct '.', .word ('s' :: hexadecimal i)] = some (.lane varA i) := by
    simp [wholeExpr, exprFuel, parseExpr, laneOf_hexadecimal i hi, varA]
  have hlex : Lexes .none ("a.s".toList ++ (hexadecimal i ++ ";\n".toList))
      ([.word ['a'], .punct '.', .word ('s' :: hexadecimal i)] ++ [.punct ';']) .none :=
    ha.append ((lexes_word_hexadecimal _ hi).append hend)
  rw [htext]
  exact fragment_cell vec i hlex (by simp [Tok.inert]) he

theorem fragment_vectorSumResult (vec : Nat) {i : Nat} (hi : i < 16) :
    Fragment (format "  output[%d*gid+%d] = a.s%x + c.s%x;\n".toList [.int vec, .int i, .int i, .int i])
      [.store outputName (cellIndex vec i) (.bin .add (.lane varA i) (.lane varC i))] := by
  have htext : format "  output[%d*gid+%d] = a.s%x + c.s%x;\n".toList
      [.int vec, .int i, .int i, .int i] =
    cellText vec i ("a.s".toList ++ (hexadecimal i ++ (" + c.s".toList ++ (hexadecimal i ++
      ";\n".toList)))) := rfl
  have ha : Lexes .none "a.s".toList [.word ['a'], .punct '.'] (.word ['s']) :=
    lexes_literal rfl
  have hc : Lexes (.word ('s' :: hexadecimal i)) " + c.s".toList
      [.word ('s' :: hexadecimal i), .op ['+'], .word ['c'], .punct '.'] (.word ['s']) :=
    lexes_literal_after rfl rfl
  have hend : Lexes (.word ('s' :: hexadecimal i)) ";\n".toList
      [.word ('s' :: hexadecimal i), .punct ';'] .none := lexes_literal_after rfl rfl
  have he : wholeExpr [.word ['a'], .punct '.', .word ('s' :: hexadecimal i), .op ['+'], .word ['c'],
      .punct '.', .word ('s' :: hexadecimal i)] = some (.bin .add (.lane varA i) (.lane varC i)) := by
    simp [wholeExpr, exprFuel, parseExpr, laneOf_hexadecimal i hi, varA, varC]
  have hlex : Lexes .none ("a.s".toList ++ (hexadecimal i ++ (" + c.s".toList ++ (hexadecimal i ++
      ";\n".toList)))) ([.word ['a'], .punct '.', .word ('s' :: hexadecimal i), .op ['+'], .word ['c'],
        .punct '.', .word ('s' :: hexadecimal i)] ++ [.punct ';']) .none :=
    ha.append ((lexes_word_hexadecimal _ hi).append (hc.append
      ((lexes_word_hexadecimal _ hi).append hend)))
  rw [htext]
  exact fragment_cell vec i hlex (by simp [Tok.inert]) he

theorem fragment_resultsText (fct : Function) (ntemps : Nat) {vec : Nat}
    (hvec : fct.laned = true ∨ vec ≤ 16) :
    Fragment (resultsText fct ntemps vec) (resultsStmts fct ntemps vec) := by
  unfold resultsText resultsStmts
  cases hlaned : fct.laned with
  | true => exact fragment_flatMap _ fun i _ => fragment_laneResult vec i
  | false =>
      have hle : vec ≤ 16 := by simpa [hlaned] using hvec
      simp only [Bool.false_eq_true, if_false]
      split
      · split <;> exact fragment_literal rfl
      · refine fragment_flatMap _ fun i hi => ?_
        have hi16 : i < 16 := by rw [List.mem_range] at hi; omega
        split
        · exact fragment_vectorResult vec hi16
        · exact fragment_vectorSumResult vec hi16

/-! ## the kernel around them -/

/-- The tokens of the signature before and after the work-group size. -/
def signatureHead : List Tok :=
  [.word "__kernel".toList, .word "__attribute__".toList, .punct '(', .punct '(',
    .word "reqd_work_group_size".toList, .punct '(']

def signatureTail (elem : ElemType) : List Tok :=
  [.punct ',', .int 1, .punct ',', .int 1, .punct ')', .punct ')', .punct ')', .word "void".toList,
    .word "arith_speed".toList, .punct '(', .word "__global".toList, .word elem.name, .op ['*'],
    .word inputName, .punct ',', .word "__global".toList, .word elem.name, .op ['*'],
    .word outputName, .punct ',', .word "const".toList, .word unsignedWord, .word intWord,
    .word iterationsName, .punct ')']

/-- The part of `fun_start` between the work-group size and the body. -/
def signatureRest : Text :=
  ",1,1))) void arith_speed(\n ".toList ++
    "\t            __global %s* input, \n ".toList ++
    "\t            __global %s* output, \n ".toList ++
    "\t            const unsigned int iterations) \n ".toList ++
    "\x7b \n ".toList

/-- The declarations that end `fun_start`. -/
def startDecls : Text :=
  "  unsigned int i; \n ".toList ++ "  unsigned int gid = get_global_id(0);\n".toList

theorem format_funStart (elem : ElemType) (localSize : Nat) :
    format funStart [.int localSize, .str elem.name, .str elem.name] =
      ("__kernel __attribute__((reqd_work_group_size (".toList ++ (decimal localSize ++
        format signatureRest [.str elem.name, .str elem.name])) ++ startDecls := by
  have hsplit : funStart = "__kernel __attribute__((reqd_work_group_size (".toList ++
      ('%' :: 'd' :: (signatureRest ++ startDecls)) := rfl
  have hrest : format (signatureRest ++ startDecls) [.str elem.name, .str elem.name] =
      format signatureRest [.str elem.name, .str elem.name] ++ startDecls := by
    cases elem <;> decide +kernel
  rw [hsplit, format_append (by decide), List.append_assoc, List.append_assoc, ← hrest]
  rfl

theorem reads_signature (elem : ElemType) (localSize : Nat) :
    Reads ("__kernel __attribute__((reqd_work_group_size (".toList ++ (decimal localSize ++
        format signatureRest [.str elem.name, .str elem.name]))
      [.openBlock (signatureHead ++ .int localSize :: signatureTail elem)] := by
  have hhead : Lexes .none "__kernel __attribute__((reqd_work_group_size (".toList signatureHead .none :=
    lexes_literal rfl
  have hrest : Lexes (.int (decimal localSize)) (format signatureRest [.str elem.name, .str elem.name])
      (.int (numeral (decimal localSize)) :: (signatureTail elem ++ [.punct '\x7b'])) .none := by
    have hcomma : (format signatureRest [.str elem.name, .str elem.name]).head? = some ',' := by
      cases elem <;> rfl
    refine lexes_after hcomma rfl ?_
    cases elem <;> decide +kernel
  rw [numeral_decimal] at hrest
  refine ⟨_, hhead.append ((lexes_decimal localSize).append hrest), ?_⟩
  simp [transduce, splitStep, signatureHead, signatureTail, Partial.start]

theorem parseSignature_eq (elem : ElemType) (localSize : Nat) :
    parseSignature (signatureHead ++ .int localSize :: signatureTail elem) =
      some (localSize, "arith_speed".toList, params elem) := by
  cases elem <;> rfl

theorem fragment_startDecls : Fragment startDecls startStmts :=
  fragment_of_stmtsOf rfl

theorem reads_preamble : Reads preamble [] :=
  ⟨[], by unfold Lexes; decide +kernel, rfl⟩

/-- The tokens of the loop header. -/
def loopToks : List Tok :=
  [.word "for".toList, .punct '(', .word ['i'], .op ['='], .int 0, .punct ';', .word ['i'],
    .op ['<'], .word iterationsName, .punct ';', .op ['+', '+'], .word ['i'], .punct ')']

theorem reads_loopText : Reads loopText [.openBlock loopToks] := by
  have hlex : Lexes .none loopText (loopToks ++ [.punct '\x7b']) .none :=
    lexes_literal rfl
  exact ⟨_, hlex, rfl⟩

theorem accepts_le {elem : ElemType} {vec : Nat} (h : elem.accepts vec) : vec ≤ 16 := by
  cases elem <;> simp [ElemType.accepts] at h <;> omega

/-- **The generated text says `kernelTree`.** -/
theorem compile_kernelText {elem : ElemType} {fct : Function} {vec : Nat}
    (h : Supported elem fct vec) (ftype : FunctionType) (localSize unrollFactor : Nat) :
    compile (kernelText elem fct ftype vec localSize unrollFactor) =
      some (kernelTree elem fct ftype vec localSize unrollFactor) := by
  have hsig : Reads (startPreamble elem ++
      ("__kernel __attribute__((reqd_work_group_size (".toList ++ (decimal localSize ++
        format signatureRest [.str elem.name, .str elem.name])))
      [.openBlock (signatureHead ++ .int localSize :: signatureTail elem)] := by
    cases elem with
    | double => exact reads_preamble.append (reads_signature .double localSize)
    | int => exact reads_signature .int localSize
    | float => exact reads_signature .float localSize
  have hclose : Reads "  \x7d\n".toList [.closeBlock] :=
    ⟨[.punct '\x7d'], lexes_literal rfl, rfl⟩
  have hfinish : Reads "\x7d\n".toList [.closeBlock] :=
    ⟨[.punct '\x7d'], lexes_literal rfl, rfl⟩
  have hdecls : Fragment (startDecls ++
      (if fct.laned then lanesText elem.name vec
        else privateText (vecTypeName elem vec) (functionToCode ftype fct).binaryOp
          (functionToCode ftype fct).ntemps vec)) (declStmts elem fct ftype vec) := by
    refine fragment_startDecls.append ?_
    cases hlaned : fct.laned with
    | true =>
        simpa only [if_true, laneTy, hlaned] using fragment_lanesText (names_name elem) vec
    | false =>
        have hacc : elem.accepts vec := by simpa [Supported, hlaned] using h
        simpa only [Bool.false_eq_true, if_false, laneTy, hlaned] using
          fragment_privateText (names_vecTypeName hacc) _ _ vec
  have hnames : Names (if fct.laned then elem.name else vecTypeName elem vec) (laneTy elem fct vec) := by
    unfold laneTy
    cases hlaned : fct.laned with
    | true => exact names_name elem
    | false => exact names_vecTypeName (by simpa [Supported, hlaned] using h)
  have hbody := fragment_operationsText fct ftype hnames vec unrollFactor
  have hresults := fragment_resultsText fct (functionToCode ftype fct).ntemps
    (h.imp id accepts_le)
  have hall := compile_kernel hsig (parseSignature_eq elem localSize) hdecls reads_loopText
    (show parseFor loopToks = some loopHead from rfl) hbody hclose hresults hfinish
  have htext : kernelText elem fct ftype vec localSize unrollFactor =
      (startPreamble elem ++ ("__kernel __attribute__((reqd_work_group_size (".toList ++
        (decimal localSize ++ format signatureRest [.str elem.name, .str elem.name]))) ++
      ((startDecls ++ (if fct.laned then lanesText elem.name vec
        else privateText (vecTypeName elem vec) (functionToCode ftype fct).binaryOp
          (functionToCode ftype fct).ntemps vec)) ++
      (loopText ++ (operationsText fct (functionText fct (functionToCode ftype fct).code
        (if fct.laned then elem.name else vecTypeName elem vec) vec) vec unrollFactor ++
        ("  \x7d\n".toList ++ (resultsText fct (functionToCode ftype fct).ntemps vec ++
          "\x7d\n".toList))))) := by
    rw [kernelText, startText, format_funStart, List.append_assoc (startPreamble elem),
      List.append_assoc (startPreamble elem), List.append_assoc _ startDecls,
      List.append_assoc startDecls]
    cases fct.laned <;> rfl
  rw [htext]
  exact hall

end UclBench.ArithSpeed
