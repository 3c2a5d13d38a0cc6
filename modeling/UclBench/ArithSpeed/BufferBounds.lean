import UclBench.ArithSpeed.KernelText

/-!
# UclBench.ArithSpeed.BufferBounds

The three buffers of `genKernel`: `type[8]`, `fctStr[512]` and the 131072 bytes
of `kernelCode`.

Nothing in the generator looks at their sizes.  `inBuffers_iff` says which
kernels fit: the type name is one byte too long for sixteen doubles, `fctStr`
holds 32 lanes of `_VEC`, and `kernelCode` holds 6400 operations of `_VLIW`.
-/

namespace UclBench.ArithSpeed

/-- `type`, or the error with which `genKernel` returns early. -/
def typeBuf (elem : ElemType) (fct : Function) (vec : Nat) : Except Int CharBuf :=
  if fct.laned then .ok (getTypeStr elem) else getVecTypeStr elem vec

/-- Everything written falls inside the buffers. -/
def InBuffers (elem : ElemType) (fct : Function) (ftype : FunctionType)
    (vec localSize unrollFactor : Nat) : Prop :=
  ∃ type g, typeBuf elem fct vec = .ok type ∧
    genKernelBuf elem fct ftype vec localSize unrollFactor = .ok g ∧
    type.extent ≤ 8 ∧
    (formatFunction fct (functionToCode ftype fct).code type.str vec).extent ≤ 512 ∧
    g.kernelCode.extent ≤ 131072

/-- The kernels that fit. -/
def Fits (elem : ElemType) (fct : Function) (vec unrollFactor : Nat) : Prop :=
  match fct with
  | .vec => vec ≤ 32
  | .vliw => vec * unrollFactor ≤ 6400
  | _ => elem = .double → vec ≠ 16

/-! ## what fits -/

section
variable {elem : ElemType} {fct : Function} {ftype : FunctionType} {type fctStr : Text}
  {vec localSize unrollFactor : Nat}

theorem length_name_le (elem : ElemType) : elem.name.length ≤ 6 := by
  cases elem <;> decide

theorem length_startText_le (elem : ElemType) (hlocal : localSize < 2 ^ 31) :
    (startText elem localSize).length ≤ 600 := by
  have hpreamble : (startPreamble elem).length ≤ 145 := by
    cases elem <;> decide +kernel
  have hformat := length_format_le funStart [.int localSize, .str elem.name, .str elem.name]
  have hfun : funStart.length = 255 := by decide +kernel
  have hname := length_name_le elem
  have hdigits : (decimal localSize).length ≤ 10 := length_decimal_le (by decide) (by omega)
  simp only [List.map_cons, List.map_nil, List.sum_cons, List.sum_nil, Arg.width] at hformat
  rw [startText, List.length_append]
  omega

theorem length_inputsText_le {is : List Nat} (h : ∀ i ∈ is, i < 100) :
    (inputsText is).length ≤ is.length * 13 := by
  refine length_flatMap_le fun i hi => ?_
  have hformat := length_format_le ", input[%d]".toList [.int i]
  have hdigits : (decimal i).length ≤ 2 := length_decimal_le (by decide) (h i hi)
  have hlen : ", input[%d]".toList.length = 11 := by decide
  simp only [List.map_cons, List.map_nil, List.sum_cons, List.sum_nil, Arg.width] at hformat
  omega

theorem laneText (type : Text) (i k : Nat) :
    format "  %s a%d = input[%d], b%d = input[%d];\n".toList
      [.str type, .int i, .int i, .int i, .int k] =
    "  ".toList ++ (type ++ (" a".toList ++ (decimal i ++ (" = input[".toList ++ (decimal i ++
      ("], b".toList ++ (decimal i ++ (" = input[".toList ++ (decimal k ++
        "];\n".toList))))))))) := rfl

theorem length_lanesText_le (htype : type.length ≤ 6) (hvec : vec ≤ 512) :
    (lanesText type vec).length ≤ vec * 48 := by
  have hlane : ∀ i ∈ List.range vec, (format "  %s a%d = input[%d], b%d = input[%d];\n".toList
      [.str type, .int i, .int i, .int i, .int (i + vec)]).length ≤ 48 := by
    intro i hi
    rw [List.mem_range] at hi
    have hdigits : (decimal i).length ≤ 3 := length_decimal_le (by decide) (by omega)
    have hdigits' : (decimal (i + vec)).length ≤ 4 := length_decimal_le (by decide) (by omega)
    rw [laneText]
    simp
    omega
  simpa [lanesText] using length_flatMap_le hlane

/-- Whatever the lanes are called, a declaration has thirty characters. -/
theorem le_length_lanesText (vec : Nat) (htype : 1 ≤ type.length) : vec * 30 ≤ (lanesText type vec).length := by
  have hlane : ∀ i ∈ List.range vec, 30 ≤ (format "  %s a%d = input[%d], b%d = input[%d];\n".toList
      [.str type, .int i, .int i, .int i, .int (i + vec)]).length := by
    intro i _
    rw [laneText]
    simp
    omega
  simpa [lanesText] using le_length_flatMap hlane

theorem length_privateText_le (binaryOp : Bool) (ntemps : Nat) (htype : type.length ≤ 8)
    (hvec : vec ≤ 16) : (privateText type binaryOp ntemps vec).length ≤ 2000 := by
  have hfirst : (inputsText (List.range' 1 (vec - 1))).length ≤ 195 := by
    refine (length_inputsText_le fun i hi => ?_).trans (by rw [List.length_range']; omega)
    rw [List.mem_range'_1] at hi
    omega
  have hsecond : (inputsText ((List.range' 1 (vec - 1)).map (· + vec))).length ≤ 195 := by
    refine (length_inputsText_le fun i hi => ?_).trans
      (by rw [List.length_map, List.length_range']; omega)
    simp only [List.mem_map, List.mem_range'_1] at hi
    omega
  have hwidths : ∀ a ∈ [Arg.str type, .str type, .int vec], a.width ≤ 8 := by
    have hdigits : (decimal vec).length ≤ 2 := length_decimal_le (by decide) (by omega)
    simp [Arg.width]
    omega
  have hline (f : Text) (as : List Arg) (hf : f.length ≤ 30)
      (has : as ⊆ [Arg.str type, .str type, .int vec]) : (format f as).length ≤ 30 + as.length * 8 :=
    length_format_le_of hf fun a ha => hwidths a (has ha)
  have ha := hline "  %s a = (%s)(input[0]".toList [.str type, .str type] (by decide) (by simp)
  have hb := hline "  %s b = (%s)(input[%d]".toList [.str type, .str type, .int vec] (by decide) (by simp)
  have htmp := hline ");\n  %s tmp;\n".toList [.str type] (by decide) (by simp)
  have hc := hline "  %s c = (%s)(input[%d]".toList [.str type, .str type, .int vec] (by decide) (by simp)
  have hd := hline ");\n  %s d = (%s)(input[0]".toList [.str type, .str type] (by decide) (by simp)
  have htmp2 := hline ");\n  %s tmp2;\n".toList [.str type] (by decide) (by simp)
  have hend : ");\n".toList.length = 3 := by decide
  simp only [List.length_cons, List.length_nil] at ha hb htmp hc hd htmp2
  unfold privateText
  split
  · split
    · simp only [List.length_append]
      omega
    · simp only [List.length_append, List.length_nil]
      omega
  · simp only [List.length_append, List.length_nil]
    omega

theorem length_code_le (ftype : FunctionType) (fct : Function) :
    (functionToCode ftype fct).code.length ≤ 75 := by
  cases fct <;> cases ftype <;> decide

theorem length_functionText_le (ftype : FunctionType) (vec : Nat) (hfct : fct ≠ .vec)
    (htype : type.length ≤ 8) :
    (functionText fct (functionToCode ftype fct).code type vec).length ≤ 83 := by
  have hcode := length_code_le ftype fct
  have hformat (as : List Arg) (has : as ⊆ [Arg.str type]) :=
    length_format_le_of (w := 8) hcode fun (a : Arg) (ha : a ∈ as) => by
      obtain rfl := List.mem_singleton.mp (has ha)
      exact htype
  cases fct with
  | vec => contradiction
  | vliw => exact hcode.trans (by decide)
  | sqr | mad | madMul => exact hformat [.str type] (by simp)
  | _ => exact (hformat [] (by simp)).trans (by decide)

theorem vecLaneText (i : Nat) :
    format "a%d -= b%d;;".toList [.int i, .int i] =
      "a".toList ++ (decimal i ++ (" -= b".toList ++ (decimal i ++ ";;".toList))) := rfl

theorem length_functionText_vec_le (ftype : FunctionType) (type : Text) (hvec : vec ≤ 32) :
    (functionText .vec (functionToCode ftype .vec).code type vec).length ≤ vec * 12 := by
  have hlane : ∀ i ∈ List.range vec, (format "a%d -= b%d;;".toList [.int i, .int i]).length ≤ 12 := by
    intro i hi
    rw [List.mem_range] at hi
    have hdigits : (decimal i).length ≤ 2 := length_decimal_le (by decide) (by omega)
    rw [vecLaneText]
    simp
    omega
  have hlanes := length_flatMap_le hlane
  rwa [List.length_range] at hlanes

theorem le_length_functionText_vec (ftype : FunctionType) (type : Text) (vec : Nat) :
    vec * 10 ≤ (functionText .vec (functionToCode ftype .vec).code type vec).length := by
  have hlane : ∀ i ∈ List.range vec, 10 ≤ (format "a%d -= b%d;;".toList [.int i, .int i]).length := by
    intro i _
    have hpos := length_decimal_pos i
    rw [vecLaneText]
    simp
    omega
  have hlanes := le_length_flatMap hlane
  rwa [List.length_range] at hlanes

/-- One operation of `_VLIW`. -/
theorem length_vliwLaneText (j : Nat) (c : Char) :
    (format "a%d %c= b%d;".toList [.int j, .chr c, .int j]).length = 7 + 2 * (decimal j).length := by
  have htext : format "a%d %c= b%d;".toList [.int j, .chr c, .int j] =
    "a".toList ++ (decimal j ++ (" ".toList ++ ([c] ++ ("= b".toList ++ (decimal j ++ ";".toList))))) :=
    rfl
  rw [htext]
  simp
  omega

theorem length_vliwLineText (cnt : Nat) :
    (vliwLineText (functionToCode ftype .vliw).code vec cnt).length =
      ((List.range vec).flatMap fun j => format "a%d %c= b%d;".toList
        [.int j, .chr (operation (cnt + j)), .int j]).length + 5 := by
  have hspaces : "    ".toList.length = 4 := by decide
  have hnewline : "\n".toList.length = 1 := by decide
  rw [vliwLineText, List.length_append, List.length_append, hspaces, hnewline, Nat.add_right_comm,
    Nat.add_comm]
  rfl

theorem length_vliwLineText_le (ftype : FunctionType) {d : Nat} (hd : 0 < d)
    (hvec : vec ≤ 10 ^ d) (cnt : Nat) :
    (vliwLineText (functionToCode ftype .vliw).code vec cnt).length ≤ vec * (7 + 2 * d) + 5 := by
  have hlane : ∀ j ∈ List.range vec, (format "a%d %c= b%d;".toList
      [.int j, .chr (operation (cnt + j)), .int j]).length ≤ 7 + 2 * d := by
    intro j hj
    rw [List.mem_range] at hj
    have hdigits : (decimal j).length ≤ d := length_decimal_le hd (by omega)
    rw [length_vliwLaneText]
    omega
  have hlanes := length_flatMap_le hlane
  rw [List.length_range] at hlanes
  rw [length_vliwLineText]
  omega

/-- All but the first ten lanes have two digits at least. -/
theorem le_length_vliwLineText (ftype : FunctionType) (vec cnt : Nat) :
    vec * 11 ≤ (vliwLineText (functionToCode ftype .vliw).code vec cnt).length + 15 := by
  have hlanes (n : Nat) :
      n * 9 ≤ ((List.range n).flatMap fun j => format "a%d %c= b%d;".toList
        [.int j, .chr (operation (cnt + j)), .int j]).length ∧
      n * 11 ≤ ((List.range n).flatMap fun j => format "a%d %c= b%d;".toList
        [.int j, .chr (operation (cnt + j)), .int j]).length + 20 := by
    induction n with
    | zero => simp
    | succ n ih =>
        have hpos := length_decimal_pos n
        rw [List.range_succ, List.flatMap_append, List.length_append, List.flatMap_singleton,
          length_vliwLaneText]
        by_cases hn : n < 10
        · omega
        · have htwo := le_length_decimal (k := 1) (by decide) (by omega : 10 ^ 1 ≤ n)
          omega
  have hvec := (hlanes vec).2
  rw [length_vliwLineText]
  omega

theorem length_resultsText_le (fct : Function) (ntemps : Nat) (hvec : vec ≤ 512) :
    (resultsText fct ntemps vec).length ≤ vec * 52 := by
  have hformat (f : Text) (hf : f.length ≤ 40) (as : List Arg) (hn : as.length ≤ 4)
      (has : ∀ a ∈ as, a.width ≤ 3) : (format f as).length ≤ 52 :=
    (length_format_le_of hf has).trans (by omega)
  have hwidth {n : Nat} (hn : n ≤ 512) : (Arg.int n).width ≤ 3 :=
    length_decimal_le (by decide) (by omega)
  have heach (s : Nat → Text) (hs : ∀ i < vec, (s i).length ≤ 52) :
      ((List.range vec).flatMap s).length ≤ vec * 52 := by
    simpa using length_flatMap_le (l := List.range vec) fun i hi => hs i (List.mem_range.mp hi)
  unfold resultsText
  split
  · refine heach _ fun i hi => hformat _ (by decide) _ (by simp) ?_
    simp [hwidth hvec, hwidth (Nat.le_of_lt (hi.trans_le hvec))]
  split
  · have hone : "  output[gid] = a;\n".toList.length = 19 := by decide
    have htwo : "  output[gid] = a + c;\n".toList.length = 23 := by decide
    split <;> omega
  · refine heach _ fun i hi => ?_
    split
    · refine hformat _ (by decide) _ (by simp) ?_
      simp [hwidth hvec, hwidth (Nat.le_of_lt (hi.trans_le hvec))]
    · refine hformat _ (by decide) _ (by simp) ?_
      simp [hwidth hvec, hwidth (Nat.le_of_lt (hi.trans_le hvec))]

theorem length_operationsText_le (fctStr : Text) (vec unrollFactor : Nat) (hfct : fct ≠ .vliw) :
    (operationsText fct fctStr vec unrollFactor).length ≤ unrollFactor * (fctStr.length + 7) := by
  have hline : ∀ i ∈ List.range unrollFactor,
      (format "    %s\n".toList [.str fctStr]).length ≤ fctStr.length + 7 := by
    intro _ _
    have hformat := length_format_le "    %s\n".toList [.str fctStr]
    have hlen : "    %s\n".toList.length = 7 := by decide
    simp only [List.map_cons, List.map_nil, List.sum_cons, List.sum_nil, Arg.width] at hformat
    omega
  have hlines := length_flatMap_le hline
  rw [List.length_range] at hlines
  cases fct with
  | vliw => contradiction
  | _ => exact hlines

/-! ## the buffers -/

theorem extent_formatFunction_le (fct : Function) (ftype : FunctionType) (type : Text) (vec : Nat) :
    (formatFunction fct (functionToCode ftype fct).code type vec).extent ≤
      (functionText fct (functionToCode ftype fct).code type vec).length + 1 := by
  have hcode := nulFree_code ftype fct
  cases fct with
  | vec =>
      -- the invariant of the loop over the lanes: nothing follows the terminator
      have hloop : ∀ (is : List Nat) (p : CharBuf × Nat), p.2 = p.1.strlen →
          p.1.extent ≤ p.1.strlen + 1 →
          (is.foldl (fun (p : CharBuf × Nat) i =>
            let fctStr := p.1.sprintf p.2 (format (functionToCode ftype .vec).code [.int i, .int i])
            (fctStr, fctStr.strlen)) p).1.extent ≤
          (p.1.str ++ is.flatMap fun i =>
            format (functionToCode ftype .vec).code [.int i, .int i]).length + 1 := by
        intro is
        induction is with
        | nil =>
            intro p _ h
            simpa [CharBuf.strlen] using h
        | cons i is ih =>
            intro p hp h
            have hfree := nulFree_format (functionToCode ftype .vec).code [.int i, .int i] hcode
              (by simp [Arg.NulFree])
            have hstr := CharBuf.str_sprintf_append p.1 hfree
            rw [List.foldl_cons, List.flatMap_cons, ← List.append_assoc, ← hstr, ← hp]
            refine ih _ rfl ?_
            rw [CharBuf.extent_sprintf, CharBuf.strlen, hp, hstr, List.length_append, ← CharBuf.strlen]
            omega
      exact hloop (List.range vec) (CharBuf.empty, 0) rfl (by decide)
  | _ => exact (CharBuf.extent_sprintf_zero _).le

/-- The name `genKernel` calls the element type by. -/
def typeName (elem : ElemType) (fct : Function) (vec : Nat) : Text :=
  if fct.laned then elem.name else vecTypeName elem vec

theorem typeBuf_exact (h : Supported elem fct vec) :
    ∃ type, typeBuf elem fct vec = .ok type ∧ type.str = typeName elem fct vec ∧
      type.extent = (typeName elem fct vec).length + 1 := by
  unfold typeBuf typeName
  cases hlaned : fct.laned with
  | true => exact ⟨_, rfl, getTypeStr_str elem, CharBuf.extent_sprintf_zero _⟩
  | false => exact getVecTypeStr_str (by simpa [Supported, hlaned] using h)

theorem inBuffers_iff_extents (ftype : FunctionType) (localSize unrollFactor : Nat)
    (h : Supported elem fct vec) :
    InBuffers elem fct ftype vec localSize unrollFactor ↔
      (typeName elem fct vec).length < 8 ∧
      (formatFunction fct (functionToCode ftype fct).code (typeName elem fct vec) vec).extent ≤ 512 ∧
      (kernelText elem fct ftype vec localSize unrollFactor).length < 131072 := by
  obtain ⟨type, htype, hstr, hextent⟩ := typeBuf_exact h
  obtain ⟨g, hg, -, hcode⟩ := genKernelBuf_exact h ftype localSize unrollFactor
  constructor
  · rintro ⟨type', g', htype', hg', hall⟩
    obtain rfl := Except.ok.inj (htype.symm.trans htype')
    obtain rfl := Except.ok.inj (hg.symm.trans hg')
    rw [hstr, hextent, hcode] at hall
    simpa only [Nat.lt_iff_add_one_le] using hall
  · intro hall
    refine ⟨type, g, htype, hg, ?_⟩
    rw [hstr, hextent, hcode]
    simpa only [Nat.lt_iff_add_one_le] using hall

theorem length_kernelText (elem : ElemType) (fct : Function) (ftype : FunctionType)
    (vec localSize unrollFactor : Nat) :
    (kernelText elem fct ftype vec localSize unrollFactor).length =
      (startText elem localSize).length +
      (if fct.laned then lanesText (typeName elem fct vec) vec
        else privateText (typeName elem fct vec) (functionToCode ftype fct).binaryOp
          (functionToCode ftype fct).ntemps vec).length +
      (operationsText fct (functionText fct (functionToCode ftype fct).code (typeName elem fct vec) vec)
        vec unrollFactor).length +
      (resultsText fct (functionToCode ftype fct).ntemps vec).length + 42 := by
  have hloop : loopText.length = 36 := by decide
  have hclose : "  \x7d\n".toList.length = 4 := by decide
  have hend : "\x7d\n".toList.length = 2 := by decide
  simp only [kernelText, typeName, List.length_append, hloop, hclose, hend]
  omega

/-! ## which kernels fit -/

theorem fits_vecTypeName (h : elem.accepts vec = true) :
    (vecTypeName elem vec).length < 8 ↔ (elem = .double → vec ≠ 16) := by
  cases elem with
  | int =>
      obtain rfl : vec = 1 := by simpa [ElemType.accepts] using h
      decide
  | float | double =>
      have hvec : vec = 1 ∨ vec = 2 ∨ vec = 4 ∨ vec = 8 ∨ vec = 16 := by
        simpa [ElemType.accepts, or_assoc] using h
      obtain rfl | rfl | rfl | rfl | rfl := hvec <;> decide

theorem length_vecTypeName_le (h : elem.accepts vec = true) : (vecTypeName elem vec).length ≤ 8 := by
  have hvec : vec ≤ 16 := by
    cases elem <;> simp [ElemType.accepts] at h <;> omega
  have hdigits : (decimal vec).length ≤ 2 := length_decimal_le (by decide) (by omega)
  have hname := length_name_le elem
  unfold vecTypeName
  split
  · omega
  · rw [List.length_append]
    omega

/-- The functions without lanes never fill `fctStr` or `kernelCode`. -/
theorem inBuffers_iff_type (hlaned : fct.laned = false) (h : Supported elem fct vec)
    (hlocal : localSize < 2 ^ 31) (hunroll : unrollFactor ≤ 100) :
    InBuffers elem fct ftype vec localSize unrollFactor ↔ (elem = .double → vec ≠ 16) := by
  have hacc : elem.accepts vec = true := by simpa [Supported, hlaned] using h
  have htype : typeName elem fct vec = vecTypeName elem vec := by simp [typeName, hlaned]
  have hvec : vec ≤ 16 := by
    cases elem <;> simp [ElemType.accepts] at hacc <;> omega
  have hname := length_vecTypeName_le hacc
  have hnotvec : fct ≠ .vec := by rintro rfl; contradiction
  have hnotvliw : fct ≠ .vliw := by rintro rfl; contradiction
  have hfct := length_functionText_le ftype vec hnotvec hname
  have hextent := extent_formatFunction_le fct ftype (vecTypeName elem vec) vec
  have hstart := length_startText_le elem hlocal
  have hprivate := length_privateText_le (functionToCode ftype fct).binaryOp
    (functionToCode ftype fct).ntemps hname hvec
  have hops := length_operationsText_le
    (functionText fct (functionToCode ftype fct).code (vecTypeName elem vec) vec) vec unrollFactor
    hnotvliw
  have hunrolled := Nat.mul_le_mul hunroll (Nat.add_le_add_right hfct 7)
  have hresults := length_resultsText_le fct (functionToCode ftype fct).ntemps
    (hvec.trans (by decide : 16 ≤ 512))
  have hcode := length_kernelText elem fct ftype vec localSize unrollFactor
  simp only [hlaned, htype, Bool.false_eq_true, if_false] at hcode
  rw [inBuffers_iff_extents ftype localSize unrollFactor h, htype, ← fits_vecTypeName hacc]
  constructor
  · exact fun hall => hall.1
  · exact fun hall => ⟨hall, by omega, by omega⟩

/-- `fctStr` holds 32 lanes, and then `kernelCode` has room enough. -/
theorem inBuffers_iff_vec (hlocal : localSize < 2 ^ 31) (hunroll : unrollFactor ≤ 100)
    (hvec : vec ≤ 32 ∨ 64 ≤ vec) :
    InBuffers elem .vec ftype vec localSize unrollFactor ↔ vec ≤ 32 := by
  have hname := length_name_le elem
  rw [inBuffers_iff_extents ftype localSize unrollFactor (.inl rfl : Supported elem .vec vec)]
  have htype : typeName elem .vec vec = elem.name := rfl
  have hcode := length_kernelText elem .vec ftype vec localSize unrollFactor
  rw [htype] at hcode ⊢
  constructor
  · rintro ⟨-, hfct, -⟩
    have hstr := (formatFunction .vec (functionToCode ftype .vec).code elem.name vec).strlen_le_extent
    rw [CharBuf.strlen, formatFunction_str _ _ (nulFree_name elem)] at hstr
    have hlong := le_length_functionText_vec ftype elem.name vec
    omega
  · intro hsmall
    have hfct := length_functionText_vec_le ftype elem.name hsmall
    have hextent := extent_formatFunction_le .vec ftype elem.name vec
    have hstart := length_startText_le elem hlocal
    have hlanes := length_lanesText_le hname (hsmall.trans (by decide : 32 ≤ 512))
    have hops := length_operationsText_le (functionText .vec (functionToCode ftype .vec).code elem.name vec)
      vec unrollFactor (by decide : Function.vec ≠ .vliw)
    have hline : (functionText .vec (functionToCode ftype .vec).code elem.name vec).length + 7 ≤ 391 := by
      omega
    have hunrolled := Nat.mul_le_mul hunroll hline
    have hresults := length_resultsText_le .vec (functionToCode ftype .vec).ntemps
      (hsmall.trans (by decide : 32 ≤ 512))
    simp only [Function.laned, if_true] at hcode
    exact ⟨by omega, by omega, by omega⟩

theorem length_operationsText_vliw_le (ftype : FunctionType) (type : Text) (unrollFactor : Nat)
    {d : Nat} (hd : 0 < d) (hvec : vec ≤ 10 ^ d) :
    (operationsText .vliw (functionText .vliw (functionToCode ftype .vliw).code type vec) vec
      unrollFactor).length ≤ unrollFactor * (vec * (7 + 2 * d) + 5) := by
  have hlines := length_flatMap_le (l := List.range unrollFactor) fun i _ =>
    length_vliwLineText_le ftype hd hvec (i * vec)
  rwa [List.length_range] at hlines

theorem le_length_operationsText_vliw (ftype : FunctionType) (type : Text) (vec unrollFactor : Nat) :
    unrollFactor * (vec * 11 - 15) ≤ (operationsText .vliw
      (functionText .vliw (functionToCode ftype .vliw).code type vec) vec unrollFactor).length := by
  have hlines := le_length_flatMap (l := List.range unrollFactor) (c := vec * 11 - 15)
    (f := fun i => vliwLineText (functionToCode ftype .vliw).code vec (i * vec)) fun i _ => by
      have hline := le_length_vliwLineText ftype vec (i * vec)
      omega
  rwa [List.length_range] at hlines

/-- `kernelCode` holds 6400 operations of `_VLIW`, not 10240. -/
theorem inBuffers_iff_vliw (hlocal : localSize < 2 ^ 31)
    (hunroll : unrollFactor = 100 ∧ (vec ≤ 64 ∨ 128 ≤ vec) ∨
      unrollFactor = 10 ∧ (vec ≤ 512 ∨ 1024 ≤ vec)) :
    InBuffers elem .vliw ftype vec localSize unrollFactor ↔ vec * unrollFactor ≤ 6400 := by
  have hname := length_name_le elem
  have hpos : 1 ≤ elem.name.length := by cases elem <;> decide
  rw [inBuffers_iff_extents ftype localSize unrollFactor (.inl rfl : Supported elem .vliw vec)]
  have htype : typeName elem .vliw vec = elem.name := rfl
  have hcode := length_kernelText elem .vliw ftype vec localSize unrollFactor
  rw [htype] at hcode ⊢
  simp only [Function.laned, if_true] at hcode
  constructor
  · rintro ⟨-, -, hfits⟩
    have hlanes := le_length_lanesText vec hpos
    have hops := le_length_operationsText_vliw ftype elem.name vec unrollFactor
    obtain ⟨rfl, hvec⟩ | ⟨rfl, hvec⟩ := hunroll
    · omega
    · omega
  · intro hsmall
    have hvec : vec ≤ 512 := by
      obtain ⟨rfl, h⟩ | ⟨rfl, h⟩ := hunroll <;> omega
    have hfct := extent_formatFunction_le .vliw ftype elem.name vec
    have hformat := length_functionText_le ftype vec (by decide : Function.vliw ≠ .vec)
      (hname.trans (by decide : 6 ≤ 8))
    have hstart := length_startText_le elem hlocal
    have hlanes := length_lanesText_le hname hvec
    have hresults := length_resultsText_le .vliw (functionToCode ftype .vliw).ntemps hvec
    obtain ⟨rfl, hvec⟩ | ⟨rfl, hvec⟩ := hunroll
    · have htwo := length_operationsText_vliw_le ftype elem.name 100 (d := 2) (by decide)
        (by omega : vec ≤ 10 ^ 2)
      exact ⟨by omega, by omega, by omega⟩
    · have hthree := length_operationsText_vliw_le ftype elem.name 10 (d := 3) (by decide)
        (by omega : vec ≤ 10 ^ 3)
      exact ⟨by omega, by omega, by omega⟩

end

theorem two_pow_le_or (i k : Nat) : 2 ^ i ≤ 2 ^ k ∨ 2 ^ (k + 1) ≤ 2 ^ i := by
  obtain h | h := Nat.lt_or_ge k i
  · exact .inr (Nat.pow_le_pow_right (by decide) h)
  · exact .inl (Nat.pow_le_pow_right (by decide) h)

/-- **The buffers of the generator**: for every kernel of the sweep that
`genKernel` does not refuse. -/
theorem inBuffers_iff (elem : ElemType) (fct : Function) (ftype : FunctionType) (i localSize : Nat)
    {unrollFactor : Nat} (h : Supported elem fct (2 ^ i)) (hlocal : localSize < 2 ^ 31)
    (hunroll : unrollFactor = 100 ∨ unrollFactor = 10) :
    InBuffers elem fct ftype (2 ^ i) localSize unrollFactor ↔ Fits elem fct (2 ^ i) unrollFactor := by
  have hle : unrollFactor ≤ 100 := by omega
  cases fct with
  | vec => exact inBuffers_iff_vec hlocal hle (two_pow_le_or i 5)
  | vliw =>
      exact inBuffers_iff_vliw hlocal
        (hunroll.imp (⟨·, two_pow_le_or i 6⟩) (⟨·, two_pow_le_or i 9⟩))
  | _ => exact inBuffers_iff_type rfl h hlocal hle

/-- The widest kernel of the default sweep, in single precision. -/
theorem inBuffers_iff_sixteen : Supported .float .vliw (2 ^ 4) ∧ 1024 < 2 ^ 31 ∧
    InBuffers .float .vliw .default (2 ^ 4) 1024 100 := by
  refine ⟨.inl rfl, by decide, ?_⟩
  have hfits : Fits .float .vliw (2 ^ 4) 100 := by simp [Fits]
  exact (inBuffers_iff .float .vliw .default 4 1024 (.inl rfl) (by decide) (.inl rfl)).mpr hfits

/-- The same with doubles: the type name needs nine bytes. -/
theorem double_fails_sixteen : ¬ InBuffers .double .add .default (2 ^ 4) 1024 100 := by
  rintro ⟨type, g, htype, -, hle, -⟩
  obtain rfl := Except.ok.inj htype
  exact absurd hle (by decide)

end UclBench.ArithSpeed
