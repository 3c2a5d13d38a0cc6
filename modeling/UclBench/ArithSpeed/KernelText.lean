import UclBench.ArithSpeed.Prints

/-!
# UclBench.ArithSpeed.KernelText

The text the generator leaves in its buffer.

`kernelText` concatenates the fragments that `genKernel` prints, without
buffers and offsets.  `genKernel_text` is the refinement: the offsets the
program keeps, partly by hand-counted lengths, always point at the end of what
has been printed, so nothing is overwritten or cut off (`genKernel_append`).
-/

namespace UclBench.ArithSpeed

open Gen

/-! ## the fragments -/

/-- The preprocessor lines before the kernel. -/
def startPreamble : ElemType → Text
  | .double => preamble
  | _ => []

def startText (elem : ElemType) (localSize : Nat) : Text :=
  startPreamble elem ++ format funStart [.int localSize, .str elem.name, .str elem.name]

/-- The name `getTypeStr` writes for `vec` components. -/
def vecTypeName (elem : ElemType) (vec : Nat) : Text :=
  if vec = 1 then elem.name else elem.name ++ decimal vec

/-- `, input[i]` for the given indices -/
def inputsText (is : List Nat) : Text := is.flatMap fun i => format ", input[%d]".toList [.int i]

/-- The declarations of the private variables of scalar and vector functions. -/
def privateText (type : Text) (binaryOp : Bool) (ntemps vec : Nat) : Text :=
  let first := List.range' 1 (vec - 1)
  let second := first.map (· + vec)
  format "  %s a = (%s)(input[0]".toList [.str type, .str type] ++ (inputsText first ++
    (");\n".toList ++
    (if binaryOp then
      format "  %s b = (%s)(input[%d]".toList [.str type, .str type, .int vec] ++
        (inputsText second ++ (format ");\n  %s tmp;\n".toList [.str type] ++
        (if ntemps > 1 then
          format "  %s c = (%s)(input[%d]".toList [.str type, .str type, .int vec] ++
            (inputsText second ++ (format ");\n  %s d = (%s)(input[0]".toList [.str type, .str type] ++
            (inputsText first ++ format ");\n  %s tmp2;\n".toList [.str type])))
        else [])))
    else [])))

def lanesText (type : Text) (vec : Nat) : Text :=
  (List.range vec).flatMap fun i => format "  %s a%d = input[%d], b%d = input[%d];\n".toList
    [.str type, .int i, .int i, .int i, .int (i + vec)]

/-- The contents of `fctStr`. -/
def functionText (fct : Function) (code type : Text) (vec : Nat) : Text :=
  match fct with
  | .vec => (List.range vec).flatMap fun i => format code [.int i, .int i]
  | .vliw => code
  | .sqr | .mad | .madMul => format code [.str type]
  | _ => format code []

/-- One line of `_VLIW` operations; `cnt` operations precede it. -/
def vliwLineText (fctStr : Text) (vec cnt : Nat) : Text :=
  "    ".toList ++ ((List.range vec).flatMap fun j =>
    format fctStr [.int j, .chr (operation (cnt + j)), .int j]) ++ "\n".toList

def operationsText (fct : Function) (fctStr : Text) (vec unrollFactor : Nat) : Text :=
  match fct with
  | .vliw => (List.range unrollFactor).flatMap fun i => vliwLineText fctStr vec (i * vec)
  | _ => (List.range unrollFactor).flatMap fun _ => format "    %s\n".toList [.str fctStr]

def resultsText (fct : Function) (ntemps vec : Nat) : Text :=
  if fct.laned then
    (List.range vec).flatMap fun i =>
      format "  output[%d*gid+%d] = a%d;\n".toList [.int vec, .int i, .int i]
  else if vec = 1 then
    if ntemps < 2 then "  output[gid] = a;\n".toList else "  output[gid] = a + c;\n".toList
  else
    (List.range vec).flatMap fun i =>
      if ntemps < 2 then
        format "  output[%d*gid+%d] = a.s%x;\n".toList [.int vec, .int i, .int i]
      else
        format "  output[%d*gid+%d] = a.s%x + c.s%x;\n".toList [.int vec, .int i, .int i, .int i]

def loopText : Text := "  for(i = 0; i < iterations; ++i) \x7b\n".toList

/-- **The source text** of a kernel. -/
def kernelText (elem : ElemType) (fct : Function) (ftype : FunctionType)
    (vec localSize unrollFactor : Nat) : Text :=
  let c := functionToCode ftype fct
  let type := if fct.laned then elem.name else vecTypeName elem vec
  startText elem localSize ++
    ((if fct.laned then lanesText type vec else privateText type c.binaryOp c.ntemps vec) ++
      (loopText ++ (operationsText fct (functionText fct c.code type vec) vec unrollFactor ++
        ("  \x7d\n".toList ++ (resultsText fct c.ntemps vec ++ "\x7d\n".toList)))))

/-! ## no terminator inside -/

/-- The widths a generated kernel can have. -/
def Supported (elem : ElemType) (fct : Function) (vec : Nat) : Prop :=
  fct.laned = true ∨ elem.accepts vec = true

theorem nulFree_name (elem : ElemType) : NulFree elem.name := by
  cases elem <;> decide

theorem nulFree_vecTypeName (elem : ElemType) (vec : Nat) : NulFree (vecTypeName elem vec) := by
  unfold vecTypeName
  split
  · exact nulFree_name elem
  · exact nulFree_append.mpr ⟨nulFree_name elem, nulFree_decimal vec⟩

theorem nulFree_code (ftype : FunctionType) (fct : Function) :
    NulFree (functionToCode ftype fct).code := by
  cases fct <;> cases ftype <;> decide

theorem operation_ne_nul (cnt : Nat) : operation cnt ≠ nul := by
  have hdec : ∀ r < 3, ['+', '*', '-'].getD r '+' ≠ nul := by decide
  exact hdec (cnt % 3) (Nat.mod_lt cnt (by decide))

theorem nulFree_flatMap {f : α → Text} {l : List α} (h : ∀ a, NulFree (f a)) :
    NulFree (l.flatMap f) := by
  intro hmem
  obtain ⟨a, -, ha⟩ := List.mem_flatMap.mp hmem
  exact h a ha

theorem nulFree_functionText (fct : Function) (ftype : FunctionType) {type : Text}
    (htype : NulFree type) (vec : Nat) :
    NulFree (functionText fct (functionToCode ftype fct).code type vec) := by
  have hcode := nulFree_code ftype fct
  cases fct with
  | vec => exact nulFree_flatMap fun i => nulFree_format _ _ hcode (by simp [Arg.NulFree])
  | vliw => exact hcode
  | sqr | mad | madMul => exact nulFree_format _ _ hcode (by simpa [Arg.NulFree] using htype)
  | _ => exact nulFree_format _ _ hcode (by simp)

/-! ## the generator prints the fragments -/

theorem getTypeStr_str (elem : ElemType) : (getTypeStr elem).str = elem.name :=
  CharBuf.str_sprintf_zero _ (nulFree_name elem)

theorem getVecTypeStr_str {elem : ElemType} (h : elem.accepts vec) :
    ∃ type, getVecTypeStr elem vec = .ok type ∧ type.str = vecTypeName elem vec ∧
      type.extent = (vecTypeName elem vec).length + 1 := by
  have hname : (if vec = 1 then format elem.name [] else format (elem.name ++ "%d".toList) [.int vec]) =
      vecTypeName elem vec := by
    have hwidth : format "%d".toList [.int vec] = decimal vec := List.append_nil _
    have hfmt : format (elem.name ++ "%d".toList) [.int vec] = elem.name ++ decimal vec := by
      rw [← hwidth]
      cases elem <;> rfl
    rw [vecTypeName, hfmt]
    split
    · cases elem <;> rfl
    · rfl
  refine ⟨_, by rw [getVecTypeStr, if_pos h, hname], ?_, CharBuf.extent_sprintf_zero _⟩
  exact CharBuf.str_sprintf_zero _ (nulFree_vecTypeName elem vec)

/-- The preamble contains no conversion. -/
theorem format_preamble : format preamble [] = preamble := by decide +kernel

theorem formatFunction_str (fct : Function) (ftype : FunctionType) {type : Text}
    (htype : NulFree type) (vec : Nat) :
    (formatFunction fct (functionToCode ftype fct).code type vec).str =
      functionText fct (functionToCode ftype fct).code type vec := by
  have hfree := nulFree_functionText fct ftype htype vec
  have hcode := nulFree_code ftype fct
  cases fct with
  | vec =>
      -- the invariant of the loop over the lanes: `fctLen` is the length of `fctStr`
      have hloop : ∀ (is : List Nat) (p : CharBuf × Nat), p.2 = p.1.strlen →
          (is.foldl (fun (p : CharBuf × Nat) i =>
            let fctStr := p.1.sprintf p.2 (format (functionToCode ftype .vec).code [.int i, .int i])
            (fctStr, fctStr.strlen)) p).1.str =
          p.1.str ++ is.flatMap fun i =>
            format (functionToCode ftype .vec).code [.int i, .int i] := by
        intro is
        induction is with
        | nil => intro p _; simp
        | cons i is ih =>
            intro p hp
            rw [List.foldl_cons, ih _ rfl, List.flatMap_cons, hp]
            simp only
            rw [CharBuf.str_sprintf_append _ (nulFree_format _ _ hcode (by simp [Arg.NulFree])),
              List.append_assoc]
      exact hloop (List.range vec) (CharBuf.empty, 0) rfl
  | _ => exact CharBuf.str_sprintf_zero _ hfree

theorem startText_ne_nil (elem : ElemType) (localSize : Nat) : startText elem localSize ≠ [] := by
  cases elem <;> exact List.cons_ne_nil _ _

theorem writes_start (elem : ElemType) (localSize : Nat) :
    Writes (startPrints elem localSize) (startText elem localSize) := by
  have hstart : Writes
      [.measured (format funStart [.int localSize, .str elem.name, .str elem.name])]
      (format funStart [.int localSize, .str elem.name, .str elem.name]) :=
    .format (by decide) (by simpa [Arg.NulFree] using nulFree_name elem)
  cases elem with
  | int | float => exact hstart
  | double => exact (Writes.literal format_preamble (by decide) rfl).cons hstart

theorem writes_inputs (is : List Nat) : Writes (inputPrints is) (inputsText is) :=
  .map is fun i => .format (by decide) (by simp [Arg.NulFree])

theorem writes_private {type : Text} (htype : NulFree type) (binaryOp : Bool) (ntemps vec : Nat) :
    Writes (privatePrints type binaryOp ntemps vec) (privateText type binaryOp ntemps vec) := by
  have htypes : ∀ a ∈ [Arg.str type, Arg.str type], a.NulFree := by simpa [Arg.NulFree] using htype
  have hwidth : ∀ a ∈ [Arg.str type, Arg.str type, Arg.int vec], a.NulFree := by
    simpa [Arg.NulFree] using htype
  have htmp : ∀ a ∈ [Arg.str type], a.NulFree := by simpa [Arg.NulFree] using htype
  have hclose : Writes [.counted (format ");\n".toList []) 3] ");\n".toList :=
    .literal (by decide) (by decide) (by decide)
  refine (Writes.format (by decide) htypes).cons ((writes_inputs _).append (hclose.cons ?_))
  split
  · refine (Writes.format (by decide) hwidth).cons
      ((writes_inputs _).append ((Writes.format (by decide) htmp).cons ?_))
    split
    · exact (Writes.format (by decide) hwidth).cons
        ((writes_inputs _).append ((Writes.format (by decide) htypes).cons
          ((writes_inputs _).append (.format (by decide) htmp))))
    · exact .nil
  · exact .nil

theorem writes_lanes {type : Text} (htype : NulFree type) (vec : Nat) :
    Writes (lanePrints type vec) (lanesText type vec) :=
  .map _ fun i => .format (by decide) (by simpa [Arg.NulFree] using htype)

theorem writes_vliwLine {fctStr : Text} (hfct : NulFree fctStr) (vec cnt : Nat) :
    Writes (vliwLinePrints fctStr vec cnt) (vliwLineText fctStr vec cnt) := by
  have hindent : Writes [.counted (format "    ".toList []) 4] "    ".toList :=
    .literal (by decide) (by decide) (by decide)
  have hlanes : Writes ((List.range vec).map fun j =>
      .measured (format fctStr [.int j, .chr (operation (cnt + j)), .int j]))
      ((List.range vec).flatMap fun j =>
        format fctStr [.int j, .chr (operation (cnt + j)), .int j]) :=
    .map _ fun j => .format hfct (by simpa [Arg.NulFree] using operation_ne_nul _)
  exact (hindent.cons hlanes).append (.literal (by decide) (by decide) (by decide))

/-- The line of a function: four spaces, `fctLen` characters, a newline. -/
theorem writes_plainLine {fctStr : Text} (hfct : NulFree fctStr) :
    Writes [.counted (format "    %s\n".toList [.str fctStr]) (fctStr.length + 5)]
      (format "    %s\n".toList [.str fctStr]) := by
  have hline : format "    %s\n".toList [.str fctStr] =
    "    ".toList ++ (fctStr ++ "\n".toList) := rfl
  have hspaces : "    ".toList.length = 4 := by decide
  have hnewline : "\n".toList.length = 1 := by decide
  refine .counted (nulFree_format _ _ (by decide) (by simpa [Arg.NulFree] using hfct)) ?_
  rw [hline, List.length_append, List.length_append, hspaces, hnewline]
  omega

theorem writes_operations {fct : Function} {fctStr : Text} {fctLen : Nat} (hfct : NulFree fctStr)
    (hlen : fct ≠ .vliw → fctLen = fctStr.length) (vec unrollFactor : Nat) :
    Writes (operationPrints fct fctStr fctLen vec unrollFactor)
      (operationsText fct fctStr vec unrollFactor) := by
  cases fct with
  | vliw => exact .flatMap _ fun i => writes_vliwLine hfct vec (i * vec)
  | _ =>
      rw [hlen (by simp)]
      exact .map _ fun _ => writes_plainLine hfct

theorem writes_results (fct : Function) (ntemps vec : Nat) :
    Writes (resultPrints fct ntemps vec) (resultsText fct ntemps vec) := by
  unfold resultPrints resultsText
  split
  · exact .map _ fun i => .format (by decide) (by simp [Arg.NulFree])
  split
  · split <;> exact .format (by decide) (by simp)
  · refine .map _ fun i => ?_
    split <;> exact .format (by decide) (by simp [Arg.NulFree])

theorem writes_kernel (elem : ElemType) {fct : Function} {decls : List Print}
    {declsText fctStr : Text} {fctLen : Nat} (hdecls : Writes decls declsText)
    (hfct : NulFree fctStr) (hlen : fct ≠ .vliw → fctLen = fctStr.length)
    (ntemps vec localSize unrollFactor : Nat) :
    Writes (kernelPrints elem fct decls fctStr fctLen ntemps vec localSize unrollFactor)
      (startText elem localSize ++ (declsText ++ (loopText ++
        (operationsText fct fctStr vec unrollFactor ++
          ("  \x7d\n".toList ++ (resultsText fct ntemps vec ++ "\x7d\n".toList)))))) := by
  have hloop : Writes [.counted (format "  for(i = 0; i < iterations; ++i) \x7b\n".toList []) 36]
      loopText := .literal (by decide) (by decide) (by decide)
  have hclose : Writes [.counted (format "  \x7d\n".toList []) 4] "  \x7d\n".toList :=
    .literal (by decide) (by decide) (by decide)
  have hend : Writes [.counted (format "\x7d\n".toList []) 2] "\x7d\n".toList :=
    .literal (by decide) (by decide) (by decide)
  exact (writes_start elem localSize).append (hdecls.append (hloop.cons
    ((writes_operations hfct hlen vec unrollFactor).append (hclose.cons
      ((writes_results fct ntemps vec).append hend)))))

/-- The calls of the generator print `kernelText`, whenever it does not refuse
the width. -/
theorem genKernelPrints_writes {elem : ElemType} {fct : Function} {vec : Nat}
    (h : Supported elem fct vec) (ftype : FunctionType) (localSize unrollFactor : Nat) :
    ∃ prints, genKernelPrints elem fct ftype vec localSize unrollFactor = .ok prints ∧
      Writes prints (kernelText elem fct ftype vec localSize unrollFactor) := by
  have hlen (type : Text) (htype : NulFree type) (hfct : fct ≠ .vliw) :
      functionLength fct (functionToCode ftype fct).code type vec =
        (functionText fct (functionToCode ftype fct).code type vec).length := by
    rw [functionLength_eq _ _ _ _ hfct, CharBuf.strlen, formatFunction_str fct ftype htype]
  cases hlaned : fct.laned with
  | true =>
      have hname := nulFree_name elem
      have hwrites := writes_kernel elem (writes_lanes hname vec)
        (nulFree_functionText fct ftype hname vec) (hlen elem.name hname)
        (functionToCode ftype fct).ntemps vec localSize unrollFactor
      rw [← formatFunction_str fct ftype hname] at hwrites
      simp only [genKernelPrints, kernelText, hlaned, if_true, getTypeStr_str]
      rw [← formatFunction_str fct ftype hname]
      exact ⟨_, rfl, hwrites⟩
  | false =>
      have hacc : elem.accepts vec := by simpa [Supported, hlaned] using h
      obtain ⟨type, htype, hstr, -⟩ := getVecTypeStr_str hacc
      have hname := nulFree_vecTypeName elem vec
      have hwrites := writes_kernel elem (writes_private hname (functionToCode ftype fct).binaryOp
        (functionToCode ftype fct).ntemps vec) (nulFree_functionText fct ftype hname vec)
        (hlen _ hname) (functionToCode ftype fct).ntemps vec localSize unrollFactor
      simp only [genKernelPrints, kernelText, hlaned, Bool.false_eq_true, if_false, htype]
      rw [← formatFunction_str fct ftype hname] at hwrites ⊢
      simp only [← hstr] at hwrites ⊢
      exact ⟨_, rfl, hwrites⟩

/-- The buffer holds `kernelText` and nothing after it, whenever the generator
does not refuse the width. -/
theorem genKernelBuf_exact {elem : ElemType} {fct : Function} {vec : Nat}
    (h : Supported elem fct vec) (ftype : FunctionType) (localSize unrollFactor : Nat) :
    ∃ g, genKernelBuf elem fct ftype vec localSize unrollFactor = .ok g ∧
      g.kernelCode.str = kernelText elem fct ftype vec localSize unrollFactor ∧
      g.kernelCode.extent = (kernelText elem fct ftype vec localSize unrollFactor).length + 1 := by
  obtain ⟨prints, hprints, htext, hright⟩ := genKernelPrints_writes h ftype localSize unrollFactor
  have hne : prints ≠ [] := by
    rintro rfl
    exact startText_ne_nil elem localSize (List.append_eq_nil_iff.mp htext.symm).1
  have hexact := exact_printAll hright hne
  rw [htext] at hexact
  exact ⟨_, by rw [genKernelBuf_eq, hprints]; rfl, hexact.1.1, hexact.2⟩

/-- **The generator prints `kernelText`**, whenever it does not refuse the
width. -/
theorem genKernel_text {elem : ElemType} {fct : Function} {vec : Nat}
    (h : Supported elem fct vec) (ftype : FunctionType) (localSize unrollFactor : Nat) :
    genKernel elem fct ftype vec localSize unrollFactor =
      .ok (kernelText elem fct ftype vec localSize unrollFactor) := by
  obtain ⟨g, hg, htext, -⟩ := genKernelBuf_exact h ftype localSize unrollFactor
  rw [genKernel, hg, ← htext]
  rfl

/-- **The append invariant**: the generator makes a sequence of `sprintf`
calls, `pos` is the length of the text printed so far before each of them, and
the source it passes on is the concatenation of all their texts in order. -/
theorem genKernel_append {elem : ElemType} {fct : Function} {vec : Nat}
    (h : Supported elem fct vec) (ftype : FunctionType) (localSize unrollFactor : Nat) :
    ∃ prints, genKernelPrints elem fct ftype vec localSize unrollFactor = .ok prints ∧
      genKernelBuf elem fct ftype vec localSize unrollFactor = .ok (Gen.start.printAll prints) ∧
      (∀ done p later, prints = done ++ p :: later →
        (Gen.start.printAll done).kernelCode.str = textOf done ∧
          (Gen.start.printAll done).pos = (textOf done).length) ∧
      (∀ p ∈ prints, NulFree p.text) ∧
      genKernel elem fct ftype vec localSize unrollFactor = .ok (textOf prints) := by
  obtain ⟨prints, hprints, htext, hright⟩ := genKernelPrints_writes h ftype localSize unrollFactor
  refine ⟨prints, hprints, by rw [genKernelBuf_eq, hprints]; rfl, ?_,
    fun p hp => (hright p hp).nulFree, by rw [genKernel_text h, htext]⟩
  rintro done p later rfl
  exact holds_printAll fun q hq => hright q (List.mem_append_left _ hq)

/-- Four components, two temporaries, the preamble of `double`. -/
theorem genKernel_append_double4 :
    Supported .double .madMul 4 ∧
      ∃ prints, genKernelPrints .double .madMul .default 4 64 8 = .ok prints ∧
        genKernelBuf .double .madMul .default 4 64 8 = .ok (Gen.start.printAll prints) ∧
        (∀ done p later, prints = done ++ p :: later →
          (Gen.start.printAll done).kernelCode.str = textOf done ∧
            (Gen.start.printAll done).pos = (textOf done).length) ∧
        (∀ p ∈ prints, NulFree p.text) ∧
        genKernel .double .madMul .default 4 64 8 = .ok (textOf prints) :=
  ⟨.inr rfl, genKernel_append (.inr rfl) .default 64 8⟩

end UclBench.ArithSpeed
