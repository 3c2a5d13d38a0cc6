import UclBench.CString

/-!
# UclBench.ArithSpeed.GenKernel

The kernel generator of the arithmetic benchmark (`arith_speed.cpp`,
`genKernel` and the functions it calls), statement by statement.

The source text is assembled in a character buffer at an offset `pos` that the
program keeps itself: after some fragments it measures the buffer with
`strlen`, after others it adds a length counted by hand.  `Gen` carries both,
and `genKernel_text` shows that the two agree: what the buffer holds in the
end is `kernelText`, the concatenation of the fragments.
-/

namespace UclBench.ArithSpeed

/-! ## functions -/

/-- `_FUNCTION_TYPE` -/
inductive FunctionType where
  | default
  | native
  deriving DecidableEq, Repr

/-- `_FUNCTION` -/
inductive Function where
  | add | mul
  | sub | div
  | mad | madMul
  | vec | vliw
  | exp | log
  | sqr | sqrt
  | cos | sin | tan
  deriving DecidableEq, Repr

/-- What `function_to_code` returns: the code, and through its reference
parameters whether the function is binary and how many temporaries it
needs. -/
structure Code where
  code : Text
  binaryOp : Bool
  ntemps : Nat

/-- `function_to_code` -/
def functionToCode (ftype : FunctionType) : Function → Code
  | .add => ⟨"tmp = a + b; a = b; b = tmp;".toList, true, 1⟩
  | .sub => ⟨"tmp = a - b; a = b; b = tmp;".toList, true, 1⟩
  | .mul => ⟨"tmp = a * b; a = b; b = tmp;".toList, true, 1⟩
  | .div =>
      match ftype with
      | .default => ⟨"tmp = a / b; a = b; b = tmp;".toList, true, 1⟩
      | .native => ⟨"tmp = native_divide(a,b); a = b; b = tmp;".toList, true, 1⟩
  | .mad => ⟨"tmp = a * b + (%s)0.1; a = b; b = tmp;".toList, true, 1⟩
  | .madMul =>
      ⟨"tmp = a * b + (%s)0.1; tmp2 = c * d; a = b; b = tmp; c = d; d = tmp2;".toList, true, 2⟩
  | .vec => ⟨"a%d -= b%d;;".toList, true, 0⟩
  | .vliw => ⟨"a%d %c= b%d;".toList, true, 0⟩
  | .exp => transcendental "a = exp(a);" "a = native_exp(a);"
  | .log => transcendental "a = log(a);" "a = native_log(a);"
  | .sqr => transcendental "a = powr(a, (%s)2.0);" "a = native_powr(a, (%s)2.0);"
  | .sqrt => transcendental "a = sqrt(a);" "a = native_sqrt(a);"
  | .cos => transcendental "a = cos(a);" "a = native_cos(a);"
  | .sin => transcendental "a = sin(a);" "a = native_sin(a);"
  | .tan => transcendental "a = tan(a);" "a = native_tan(a);"
where
  transcendental (dflt native : String) : Code :=
    ⟨match ftype with
      | .default => dflt.toList
      | .native => native.toList, false, 0⟩

/-! ## element types -/

/-- The element types the templates are instantiated at. -/
inductive ElemType where
  | int
  | float
  | double
  deriving DecidableEq, Repr

def ElemType.name : ElemType → Text
  | .int => "int".toList
  | .float => "float".toList
  | .double => "double".toList

/-- `getTypeStr<T>(type)` -/
def getTypeStr (elem : ElemType) : CharBuf := CharBuf.empty.sprintf 0 elem.name

/-- The widths `getTypeStr<T>(type, vec, err)` does not refuse. -/
def ElemType.accepts (elem : ElemType) (vec : Nat) : Bool :=
  match elem with
  | .int => vec = 1
  | .float | .double => vec = 1 || vec = 2 || vec = 4 || vec = 8 || vec = 16

/-- `getTypeStr<T>(type, vec, err)`: the type name, or the error stored in
`*err`. -/
def getVecTypeStr (elem : ElemType) (vec : Nat) : Except Int CharBuf :=
  if elem.accepts vec then
    .ok (CharBuf.empty.sprintf 0
      (if vec = 1 then format elem.name [] else format (elem.name ++ "%d".toList) [.int vec]))
  else .error (-1000)

/-! ## the buffer and its offset -/

/-- `kernelCode` and `pos` -/
structure Gen where
  kernelCode : CharBuf
  pos : Nat

namespace Gen

/-- `sprintf(kernelCode+pos, …)` -/
def put (g : Gen) (s : Text) : Gen := { g with kernelCode := g.kernelCode.sprintf g.pos s }

/-- `pos = strlen(kernelCode)` -/
def measure (g : Gen) : Gen := { g with pos := g.kernelCode.strlen }

/-- `pos += n` -/
def advance (g : Gen) (n : Nat) : Gen := { g with pos := g.pos + n }

/-- `for (int i = lo; i < hi; ++i) { sprintf(kernelCode+pos, …); pos = strlen(kernelCode); }` -/
def putEach (g : Gen) (lo hi : Nat) (s : Nat → Text) : Gen :=
  (List.range' lo (hi - lo)).foldl (fun g i => (g.put (s i)).measure) g

/-- `kernelCode` holds exactly `text`, and `pos` is its end. -/
def Holds (g : Gen) (text : Text) : Prop := g.kernelCode.str = text ∧ g.pos = text.length

/-- Nothing has been written after the terminator of `text` either. -/
def Exact (g : Gen) (text : Text) : Prop :=
  g.Holds text ∧ g.kernelCode.extent = text.length + 1

theorem Holds.put {g : Gen} {text s : Text} (h : g.Holds text) (hs : NulFree s) :
    (g.put s).kernelCode.str = text ++ s := by
  obtain ⟨hstr, hpos⟩ := h
  have hend : g.pos = g.kernelCode.strlen := by rw [hpos, CharBuf.strlen, hstr]
  rw [Gen.put, hend, CharBuf.str_sprintf_append _ hs, hstr]

theorem Exact.extent_put {g : Gen} {text : Text} (h : g.Exact text) (s : Text) :
    (g.put s).kernelCode.extent = (text ++ s).length + 1 := by
  obtain ⟨⟨-, hpos⟩, hextent⟩ := h
  simp only [Gen.put, CharBuf.extent_sprintf, hpos, hextent, List.length_append]
  omega

theorem Exact.put_measure {g : Gen} {text s : Text} (h : g.Exact text) (hs : NulFree s) :
    (g.put s).measure.Exact (text ++ s) :=
  ⟨⟨h.1.put hs, by rw [Gen.measure, CharBuf.strlen, h.1.put hs]⟩, h.extent_put s⟩

theorem Exact.put_advance {g : Gen} {text s : Text} {n : Nat} (h : g.Exact text) (hs : NulFree s)
    (hn : s.length = n) : ((g.put s).advance n).Exact (text ++ s) := by
  refine ⟨⟨h.1.put hs, ?_⟩, h.extent_put s⟩
  rw [List.length_append, hn, ← h.1.2]
  rfl

end Gen

/-! ## the generator -/

/-- `fun_start` -/
def funStart : Text :=
  "__kernel __attribute__((reqd_work_group_size (".toList ++
    ("%d,1,1))) void arith_speed(\n ".toList ++
    "\t            __global %s* input, \n ".toList ++
    "\t            __global %s* output, \n ".toList ++
    "\t            const unsigned int iterations) \n ".toList ++
    "\x7b \n ".toList ++
    "  unsigned int i; \n ".toList ++
    "  unsigned int gid = get_global_id(0);\n".toList)

/-- `preamble` -/
def preamble : Text :=
  "#ifdef cl_khr_fp64\n".toList ++
    "#pragma OPENCL EXTENSION cl_khr_fp64 : enable\n#endif\n".toList ++
    "#ifdef cl_amd_fp64\n".toList ++
    "#pragma OPENCL EXTENSION cl_amd_fp64 : enable\n#endif\n\n".toList

/-- `writeStart<T>` on a fresh buffer -/
def writeStart (elem : ElemType) (localSize : Nat) : CharBuf :=
  let start := format funStart [.int localSize, .str elem.name, .str elem.name]
  match elem with
  | .double => (CharBuf.empty.sprintf 0 (format preamble [])).sprintf preamble.length start
  | _ => CharBuf.empty.sprintf 0 start

/-- `function == _VEC || function == _VLIW`: lanes are separate variables. -/
def Function.laned : Function → Bool
  | .vec | .vliw => true
  | _ => false

/-- `fctStr`, formatted once per lane for `_VEC`, copied as a format for
`_VLIW`, given the type name where its code asks for one. -/
def formatFunction (fct : Function) (code : Text) (type : Text) (vec : Nat) : CharBuf :=
  match fct with
  | .vec =>
      ((List.range vec).foldl (fun (p : CharBuf × Nat) i =>
        let fctStr := p.1.sprintf p.2 (format code [.int i, .int i])
        (fctStr, fctStr.strlen)) (CharBuf.empty, 0)).1
  | .vliw => CharBuf.empty.strcpy code
  | .sqr | .mad | .madMul => CharBuf.empty.sprintf 0 (format code [.str type])
  | _ => CharBuf.empty.sprintf 0 (format code [])

/-- The private variables of the scalar and vector functions. -/
def putPrivate (g : Gen) (type : Text) (binaryOp : Bool) (ntemps vec : Nat) : Gen :=
  let g := (g.put (format "  %s a = (%s)(input[0]".toList [.str type, .str type])).measure
  let g := g.putEach 1 vec fun i => format ", input[%d]".toList [.int i]
  let g := (g.put (format ");\n".toList [])).advance 3
  if binaryOp then
    let g := (g.put (format "  %s b = (%s)(input[%d]".toList
      [.str type, .str type, .int vec])).measure
    let g := g.putEach 1 vec fun i => format ", input[%d]".toList [.int (i + vec)]
    let g := (g.put (format ");\n  %s tmp;\n".toList [.str type])).measure
    if ntemps > 1 then
      let g := (g.put (format "  %s c = (%s)(input[%d]".toList
        [.str type, .str type, .int vec])).measure
      let g := g.putEach 1 vec fun i => format ", input[%d]".toList [.int (i + vec)]
      let g := (g.put (format ");\n  %s d = (%s)(input[0]".toList [.str type, .str type])).measure
      let g := g.putEach 1 vec fun i => format ", input[%d]".toList [.int i]
      (g.put (format ");\n  %s tmp2;\n".toList [.str type])).measure
    else g
  else g

/-- The private variables of `_VEC` and `_VLIW`. -/
def putLanes (g : Gen) (type : Text) (vec : Nat) : Gen :=
  g.putEach 0 vec fun i => format "  %s a%d = input[%d], b%d = input[%d];\n".toList
    [.str type, .int i, .int i, .int i, .int (i + vec)]

/-- `operation[cnt%3]` -/
def operation (cnt : Nat) : Char := ['+', '*', '-'].getD (cnt % 3) '+'

/-- One line of `_VLIW` operations; `cnt` runs on from line to line. -/
def putVliwLine (fctStr : Text) (vec : Nat) (p : Gen × Nat) : Gen × Nat :=
  let g := (p.1.put (format "    ".toList [])).advance 4
  let q := (List.range vec).foldl (fun (q : Gen × Nat) j =>
    ((q.1.put (format fctStr [.int j, .chr (operation q.2), .int j])).measure, q.2 + 1)) (g, p.2)
  ((q.1.put (format "\n".toList [])).advance 1, q.2)

/-- The unrolled operations. -/
def putOperations (g : Gen) (fct : Function) (fctStr : CharBuf) (vec unrollFactor : Nat) : Gen :=
  match fct with
  | .vliw => ((List.range unrollFactor).foldl (fun p _ => putVliwLine fctStr.str vec p) (g, 0)).1
  | _ => (List.range unrollFactor).foldl (fun g _ =>
      (g.put (format "    %s\n".toList [.str fctStr.str])).advance (fctStr.strlen + 5)) g

/-- The results, copied to global memory. -/
def putResults (g : Gen) (fct : Function) (ntemps vec : Nat) : Gen :=
  if fct.laned then
    g.putEach 0 vec fun i => format "  output[%d*gid+%d] = a%d;\n".toList [.int vec, .int i, .int i]
  else if vec = 1 then
    (g.put (if ntemps < 2 then format "  output[gid] = a;\n".toList []
      else format "  output[gid] = a + c;\n".toList [])).measure
  else
    g.putEach 0 vec fun i =>
      if ntemps < 2 then
        format "  output[%d*gid+%d] = a.s%x;\n".toList [.int vec, .int i, .int i]
      else
        format "  output[%d*gid+%d] = a.s%x + c.s%x;\n".toList [.int vec, .int i, .int i, .int i]

/-- `kernelCode` when `genKernel` hands it to `clCreateProgramWithSource`, or
the error with which it returns early. -/
def genKernelBuf (elem : ElemType) (fct : Function) (ftype : FunctionType)
    (vec localSize unrollFactor : Nat) : Except Int Gen := do
  let ⟨code, binaryOp, ntemps⟩ := functionToCode ftype fct
  -- function header
  let g : Gen := (⟨writeStart elem localSize, 0⟩ : Gen).measure
  let (g, fctStr) ←
    if fct.laned then
      let type := (getTypeStr elem).str
      pure (putLanes g type vec, formatFunction fct code type vec)
    else do
      let type ← getVecTypeStr elem vec
      pure (putPrivate g type.str binaryOp ntemps vec, formatFunction fct code type.str vec)
  -- insert loop
  let g := (g.put (format "  for(i = 0; i < iterations; ++i) \x7b\n".toList [])).advance 36
  -- insert operations
  let g := putOperations g fct fctStr vec unrollFactor
  let g := (g.put (format "  \x7d\n".toList [])).advance 4
  -- copy values back to global memory
  let g := putResults g fct ntemps vec
  pure ((g.put (format "\x7d\n".toList [])).advance 2)

/-- The source text of the program. -/
def genKernel (elem : ElemType) (fct : Function) (ftype : FunctionType)
    (vec localSize unrollFactor : Nat) : Except Int Text :=
  (genKernelBuf elem fct ftype vec localSize unrollFactor).map fun g => g.kernelCode.str

end UclBench.ArithSpeed
