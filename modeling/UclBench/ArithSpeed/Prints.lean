import UclBench.ArithSpeed.GenKernel

/-!
# UclBench.ArithSpeed.Prints

The calls of `sprintf` that fill the buffer of `genKernel`, one after another.

Each prints a text at `pos` and is followed by an update of `pos`: `strlen` of
the whole buffer, or a length counted by hand.

* `genKernelBuf_eq` — the generator makes exactly the calls of
  `genKernelPrints`, in this order;
* `Gen.holds_printAll` — as long as no text has a terminator inside and no
  length is miscounted, every call prints at the end of what is there;
* `Writes` — what a list of such calls prints, put together from its parts.
-/

namespace UclBench.ArithSpeed

/-! ## calls of `sprintf` -/

/-- `sprintf(kernelCode+pos, …)` producing `text`, and the update of `pos`
after it: `pos += n`, or `pos = strlen(kernelCode)`. -/
structure Print where
  text : Text
  count : Option Nat

namespace Print

def measured (text : Text) : Print := ⟨text, none⟩

def counted (text : Text) (n : Nat) : Print := ⟨text, some n⟩

/-- No terminator inside, and a count by hand is the length of the text. -/
structure Right (p : Print) : Prop where
  nulFree : NulFree p.text
  count : ∀ n, p.count = some n → p.text.length = n

end Print

/-- The texts of a list of calls, put together. -/
def textOf (ps : List Print) : Text := ps.flatMap Print.text

@[simp] theorem textOf_append (ps qs : List Print) : textOf (ps ++ qs) = textOf ps ++ textOf qs :=
  List.flatMap_append

@[simp] theorem textOf_cons (p : Print) (ps : List Print) :
    textOf (p :: ps) = p.text ++ textOf ps := rfl

@[simp] theorem textOf_nil : textOf [] = [] := rfl

/-- Right calls that put `text` together. -/
structure Writes (ps : List Print) (text : Text) : Prop where
  text : textOf ps = text
  right : ∀ p ∈ ps, p.Right

namespace Writes

theorem nil : Writes [] [] := ⟨rfl, by simp⟩

theorem append {ps qs : List Print} {s t : Text} (hs : Writes ps s) (ht : Writes qs t) :
    Writes (ps ++ qs) (s ++ t) where
  text := by rw [textOf_append, hs.text, ht.text]
  right p hp := (List.mem_append.mp hp).elim (hs.right p) (ht.right p)

theorem cons {p : Print} {ps : List Print} {s t : Text} (hs : Writes [p] s) (ht : Writes ps t) :
    Writes (p :: ps) (s ++ t) := hs.append ht

theorem measured {s : Text} (hs : NulFree s) : Writes [.measured s] s where
  text := List.append_nil s
  right p hp := by
    rw [List.mem_singleton.mp hp]
    exact ⟨hs, fun n hn => by simp [Print.measured] at hn⟩

theorem counted {s : Text} {n : Nat} (hs : NulFree s) (hn : s.length = n) :
    Writes [.counted s n] s where
  text := List.append_nil s
  right p hp := by
    rw [List.mem_singleton.mp hp]
    refine ⟨hs, fun m hm => ?_⟩
    rw [← Option.some.inj hm]
    exact hn

/-- A format, measured. -/
theorem format {f : Text} {as : List Arg} (hf : NulFree f) (has : ∀ a ∈ as, a.NulFree) :
    Writes [.measured (format f as)] (format f as) := measured (nulFree_format f as hf has)

/-- A text without conversions, counted. -/
theorem literal {f : Text} {n : Nat} (hf : UclBench.format f [] = f) (hfree : NulFree f)
    (hn : f.length = n) : Writes [.counted (UclBench.format f []) n] f := by
  rw [hf]
  exact counted hfree hn

theorem flatMap {f : α → List Print} {s : α → Text} (l : List α) (h : ∀ a, Writes (f a) (s a)) :
    Writes (l.flatMap f) (l.flatMap s) := by
  induction l with
  | nil => exact nil
  | cons a l ih => exact (h a).append ih

theorem map {f : α → Print} {s : α → Text} (l : List α) (h : ∀ a, Writes [f a] (s a)) :
    Writes (l.map f) (l.flatMap s) := by
  rw [List.map_eq_flatMap]
  exact flatMap l h

end Writes

namespace Gen

/-- `kernelCode` fresh from `malloc`, `pos = 0` -/
def start : Gen := ⟨CharBuf.empty, 0⟩

def print (g : Gen) (p : Print) : Gen :=
  match p.count with
  | none => (g.put p.text).measure
  | some n => (g.put p.text).advance n

def printAll (g : Gen) (ps : List Print) : Gen := ps.foldl print g

theorem printAll_append (g : Gen) (ps qs : List Print) :
    g.printAll (ps ++ qs) = (g.printAll ps).printAll qs := List.foldl_append

theorem printAll_cons (g : Gen) (p : Print) (ps : List Print) :
    g.printAll (p :: ps) = (g.print p).printAll ps := rfl

theorem printAll_nil (g : Gen) : g.printAll [] = g := rfl

theorem print_measured (g : Gen) (s : Text) : g.print (.measured s) = (g.put s).measure := rfl

theorem print_counted (g : Gen) (s : Text) (n : Nat) :
    g.print (.counted s n) = (g.put s).advance n := rfl

theorem putEach_eq (g : Gen) (lo hi : Nat) (s : Nat → Text) :
    g.putEach lo hi s = g.printAll ((List.range' lo (hi - lo)).map fun i => .measured (s i)) := by
  rw [printAll, List.foldl_map]
  rfl

/-- The step: a right call appends its text. -/
theorem Exact.print {g : Gen} {text : Text} {p : Print} (h : g.Exact text) (hp : p.Right) :
    (g.print p).Exact (text ++ p.text) := by
  obtain ⟨s, count⟩ := p
  cases count with
  | none => exact h.put_measure hp.nulFree
  | some n => exact h.put_advance hp.nulFree (hp.count n rfl)

/-- The first call prints to the start of the buffer. -/
theorem exact_start {p : Print} (hp : p.Right) : (start.print p).Exact p.text := by
  obtain ⟨s, count⟩ := p
  have hstr : (start.put s).kernelCode.str = s := CharBuf.str_sprintf_zero _ hp.nulFree
  have hextent : (start.put s).kernelCode.extent = s.length + 1 := CharBuf.extent_sprintf_zero s
  cases count with
  | none => exact ⟨⟨hstr, congrArg List.length hstr⟩, hextent⟩
  | some n => exact ⟨⟨hstr, by rw [hp.count n rfl]; exact Nat.zero_add n⟩, hextent⟩

/-- The run: right calls append their texts. -/
theorem Exact.printAll {g : Gen} {text : Text} {ps : List Print} (h : g.Exact text)
    (hps : ∀ p ∈ ps, p.Right) : (g.printAll ps).Exact (text ++ textOf ps) := by
  induction ps generalizing g text with
  | nil => simpa [Gen.printAll] using h
  | cons p ps ih =>
      rw [textOf_cons, ← List.append_assoc]
      exact ih (h.print (hps p (by simp))) fun q hq => hps q (by simp [hq])

theorem exact_printAll {ps : List Print} (hps : ∀ p ∈ ps, p.Right) (hne : ps ≠ []) :
    (start.printAll ps).Exact (textOf ps) := by
  cases ps with
  | nil => exact absurd rfl hne
  | cons p ps =>
      exact (exact_start (hps p (by simp))).printAll fun q hq => hps q (by simp [hq])

/-- Between two calls `pos` is at the end of the text. -/
theorem holds_printAll {ps : List Print} (hps : ∀ p ∈ ps, p.Right) :
    (start.printAll ps).Holds (textOf ps) := by
  by_cases hne : ps = []
  · subst hne
    exact ⟨rfl, rfl⟩
  · exact (exact_printAll hps hne).1

end Gen

/-! ## the calls of the generator -/

/-- `writeStart<T>`, and the `strlen` after it -/
def startPrints (elem : ElemType) (localSize : Nat) : List Print :=
  let start := format funStart [.int localSize, .str elem.name, .str elem.name]
  match elem with
  | .double => [.counted (format preamble []) preamble.length, .measured start]
  | _ => [.measured start]

/-- `, input[i]` for the given indices -/
def inputPrints (is : List Nat) : List Print :=
  is.map fun i => .measured (format ", input[%d]".toList [.int i])

def privatePrints (type : Text) (binaryOp : Bool) (ntemps vec : Nat) : List Print :=
  let first := List.range' 1 (vec - 1)
  let second := first.map (· + vec)
  .measured (format "  %s a = (%s)(input[0]".toList [.str type, .str type]) :: (inputPrints first ++
    (.counted (format ");\n".toList []) 3 ::
    (if binaryOp then
      .measured (format "  %s b = (%s)(input[%d]".toList [.str type, .str type, .int vec]) ::
        (inputPrints second ++ (.measured (format ");\n  %s tmp;\n".toList [.str type]) ::
        (if ntemps > 1 then
          .measured (format "  %s c = (%s)(input[%d]".toList [.str type, .str type, .int vec]) ::
            (inputPrints second ++
            (.measured (format ");\n  %s d = (%s)(input[0]".toList [.str type, .str type]) ::
            (inputPrints first ++ [.measured (format ");\n  %s tmp2;\n".toList [.str type])])))
        else [])))
    else [])))

def lanePrints (type : Text) (vec : Nat) : List Print :=
  (List.range vec).map fun i => .measured (format "  %s a%d = input[%d], b%d = input[%d];\n".toList
    [.str type, .int i, .int i, .int i, .int (i + vec)])

/-- One line of `_VLIW` operations; `cnt` operations precede it. -/
def vliwLinePrints (fctStr : Text) (vec cnt : Nat) : List Print :=
  .counted (format "    ".toList []) 4 :: ((List.range vec).map fun j =>
    .measured (format fctStr [.int j, .chr (operation (cnt + j)), .int j])) ++
    [.counted (format "\n".toList []) 1]

/-- `fctLen`: measured after every lane of `_VEC`, never set for `_VLIW`,
measured once for the other functions. -/
def functionLength (fct : Function) (code : Text) (type : Text) (vec : Nat) : Nat :=
  match fct with
  | .vec =>
      ((List.range vec).foldl (fun (p : CharBuf × Nat) i =>
        let fctStr := p.1.sprintf p.2 (format code [.int i, .int i])
        (fctStr, fctStr.strlen)) (CharBuf.empty, 0)).2
  | .vliw => 0
  | _ => (formatFunction fct code type vec).strlen

def operationPrints (fct : Function) (fctStr : Text) (fctLen vec unrollFactor : Nat) : List Print :=
  match fct with
  | .vliw => (List.range unrollFactor).flatMap fun i => vliwLinePrints fctStr vec (i * vec)
  | _ => (List.range unrollFactor).map fun _ =>
      .counted (format "    %s\n".toList [.str fctStr]) (fctLen + 5)

def resultPrints (fct : Function) (ntemps vec : Nat) : List Print :=
  if fct.laned then
    (List.range vec).map fun i =>
      .measured (format "  output[%d*gid+%d] = a%d;\n".toList [.int vec, .int i, .int i])
  else if vec = 1 then
    [.measured (if ntemps < 2 then format "  output[gid] = a;\n".toList []
      else format "  output[gid] = a + c;\n".toList [])]
  else
    (List.range vec).map fun i => .measured
      (if ntemps < 2 then
        format "  output[%d*gid+%d] = a.s%x;\n".toList [.int vec, .int i, .int i]
      else
        format "  output[%d*gid+%d] = a.s%x + c.s%x;\n".toList [.int vec, .int i, .int i, .int i])

/-- The calls, given the declarations and the function string. -/
def kernelPrints (elem : ElemType) (fct : Function) (decls : List Print) (fctStr : Text)
    (fctLen ntemps vec localSize unrollFactor : Nat) : List Print :=
  startPrints elem localSize ++ (decls ++
    (.counted (format "  for(i = 0; i < iterations; ++i) \x7b\n".toList []) 36 ::
    (operationPrints fct fctStr fctLen vec unrollFactor ++
    (.counted (format "  \x7d\n".toList []) 4 :: (resultPrints fct ntemps vec ++
    [.counted (format "\x7d\n".toList []) 2])))))

/-- The calls of `genKernel`, or the error with which it returns early. -/
def genKernelPrints (elem : ElemType) (fct : Function) (ftype : FunctionType)
    (vec localSize unrollFactor : Nat) : Except Int (List Print) := do
  let ⟨code, binaryOp, ntemps⟩ := functionToCode ftype fct
  let (decls, type) ←
    if fct.laned then
      let type := (getTypeStr elem).str
      pure (lanePrints type vec, type)
    else do
      let type ← getVecTypeStr elem vec
      pure (privatePrints type.str binaryOp ntemps vec, type.str)
  pure (kernelPrints elem fct decls (formatFunction fct code type vec).str
    (functionLength fct code type vec) ntemps vec localSize unrollFactor)

/-! ## the generator makes these calls -/

section
variable (g : Gen)

theorem writeStart_eq (elem : ElemType) (localSize : Nat) :
    (⟨writeStart elem localSize, 0⟩ : Gen).measure =
      Gen.start.printAll (startPrints elem localSize) := by
  cases elem with
  | int | float => rfl
  | double =>
      simp only [startPrints, Gen.printAll_cons, Gen.printAll_nil, Gen.print_measured,
        Gen.print_counted, Gen.put, Gen.advance, Gen.measure, Gen.start, writeStart, Nat.zero_add]

theorem putInputs_eq (vec : Nat) (s : Nat → Nat) :
    g.putEach 1 vec (fun i => format ", input[%d]".toList [.int (s i)]) =
      g.printAll (inputPrints ((List.range' 1 (vec - 1)).map s)) := by
  rw [Gen.putEach_eq, inputPrints, List.map_map]
  rfl

theorem putPrivate_eq (type : Text) (binaryOp : Bool) (ntemps vec : Nat) :
    putPrivate g type binaryOp ntemps vec =
      g.printAll (privatePrints type binaryOp ntemps vec) := by
  have hfirst (g : Gen) := putInputs_eq g vec id
  have hsecond (g : Gen) := putInputs_eq g vec (· + vec)
  simp only [id, List.map_id] at hfirst
  unfold putPrivate privatePrints
  simp only [hfirst, hsecond, ← Gen.print_measured, ← Gen.print_counted]
  cases binaryOp with
  | false => simp [Gen.printAll_cons, Gen.printAll_append, Gen.printAll_nil]
  | true =>
      by_cases htemps : ntemps > 1 <;>
        simp [htemps, Gen.printAll_cons, Gen.printAll_append, Gen.printAll_nil]

theorem putLanes_eq (type : Text) (vec : Nat) :
    putLanes g type vec = g.printAll (lanePrints type vec) := by
  rw [putLanes, Gen.putEach_eq, Nat.sub_zero, ← List.range_eq_range', lanePrints]

/-- `cnt` counts the operations. -/
theorem putVliwLine_eq (fctStr : Text) (vec cnt : Nat) :
    putVliwLine fctStr vec (g, cnt) = (g.printAll (vliwLinePrints fctStr vec cnt), cnt + vec) := by
  have hloop (n : Nat) : ∀ g : Gen,
      (List.range n).foldl (fun (q : Gen × Nat) j => ((q.1.put (format fctStr
        [.int j, .chr (operation q.2), .int j])).measure, q.2 + 1)) (g, cnt) =
      (g.printAll ((List.range n).map fun j =>
        .measured (format fctStr [.int j, .chr (operation (cnt + j)), .int j])), cnt + n) := by
    induction n with
    | zero => intro g; rfl
    | succ n ih =>
        intro g
        rw [List.range_succ, List.foldl_append, ih, List.map_append, Gen.printAll_append]
        rfl
  simp only [putVliwLine, hloop, vliwLinePrints, List.cons_append, Gen.printAll_cons,
    Gen.printAll_append, Gen.print_counted]
  rfl

theorem putVliwLines_eq (fctStr : Text) (vec n : Nat) :
    (List.range n).foldl (fun p _ => putVliwLine fctStr vec p) (g, 0) =
      (g.printAll ((List.range n).flatMap fun i => vliwLinePrints fctStr vec (i * vec)),
        n * vec) := by
  induction n with
  | zero => simp [Gen.printAll_nil]
  | succ n ih =>
      rw [List.range_succ, List.foldl_append, ih, List.flatMap_append, Gen.printAll_append,
        Nat.succ_mul]
      simp only [List.foldl_cons, List.foldl_nil, List.flatMap_singleton, putVliwLine_eq]

theorem putOperations_eq {fct : Function} {fctStr : CharBuf} {fctLen : Nat}
    (hlen : fct ≠ .vliw → fctLen = fctStr.strlen) (vec unrollFactor : Nat) :
    putOperations g fct fctStr vec unrollFactor =
      g.printAll (operationPrints fct fctStr.str fctLen vec unrollFactor) := by
  cases fct with
  | vliw => exact congrArg Prod.fst (putVliwLines_eq g fctStr.str vec unrollFactor)
  | _ =>
      rw [hlen (by simp)]
      simp only [putOperations, operationPrints, Gen.printAll, List.foldl_map]
      rfl

theorem putResults_eq (fct : Function) (ntemps vec : Nat) :
    putResults g fct ntemps vec = g.printAll (resultPrints fct ntemps vec) := by
  unfold putResults resultPrints
  split
  · rw [Gen.putEach_eq, Nat.sub_zero, ← List.range_eq_range']
  split
  · rfl
  · rw [Gen.putEach_eq, Nat.sub_zero, ← List.range_eq_range']

end

/-- Whatever way `fctLen` is maintained, where it is used it is the length of
`fctStr`. -/
theorem functionLength_eq (fct : Function) (code type : Text) (vec : Nat) (h : fct ≠ .vliw) :
    functionLength fct code type vec = (formatFunction fct code type vec).strlen := by
  cases fct with
  | vec =>
      simp only [functionLength, formatFunction]
      cases vec with
      | zero => rfl
      | succ n =>
          rw [List.range_succ, List.foldl_append]
          rfl
  | vliw => exact absurd rfl h
  | _ => rfl

/-- From the declarations on, all functions print alike. -/
theorem printAll_kernelPrints (elem : ElemType) {fct : Function} (decls : List Print)
    {fctStr : CharBuf} {fctLen : Nat} (hlen : fct ≠ .vliw → fctLen = fctStr.strlen)
    (ntemps vec localSize unrollFactor : Nat) :
    Gen.start.printAll
        (kernelPrints elem fct decls fctStr.str fctLen ntemps vec localSize unrollFactor) =
      let g := ((⟨writeStart elem localSize, 0⟩ : Gen).measure).printAll decls
      let g := (g.put (format "  for(i = 0; i < iterations; ++i) \x7b\n".toList [])).advance 36
      let g := putOperations g fct fctStr vec unrollFactor
      let g := (g.put (format "  \x7d\n".toList [])).advance 4
      let g := putResults g fct ntemps vec
      (g.put (format "\x7d\n".toList [])).advance 2 := by
  simp only [kernelPrints, Gen.printAll_append, Gen.printAll_cons, Gen.printAll_nil,
    Gen.print_counted, ← writeStart_eq, ← putOperations_eq _ hlen, ← putResults_eq]

/-- **The generator makes these calls**, and returns early with the same
error. -/
theorem genKernelBuf_eq (elem : ElemType) (fct : Function) (ftype : FunctionType)
    (vec localSize unrollFactor : Nat) :
    genKernelBuf elem fct ftype vec localSize unrollFactor =
      (genKernelPrints elem fct ftype vec localSize unrollFactor).map Gen.start.printAll := by
  cases hlaned : fct.laned with
  | true =>
      simp only [genKernelBuf, genKernelPrints, hlaned, if_true, putLanes_eq]
      refine congrArg Except.ok (printAll_kernelPrints elem _ ?_ _ vec localSize unrollFactor).symm
      exact functionLength_eq fct _ _ vec
  | false =>
      simp only [genKernelBuf, genKernelPrints, hlaned, Bool.false_eq_true, if_false,
        putPrivate_eq]
      cases getVecTypeStr elem vec with
      | error e => rfl
      | ok type =>
          refine congrArg Except.ok
            (printAll_kernelPrints elem _ ?_ _ vec localSize unrollFactor).symm
          exact functionLength_eq fct _ _ vec

end UclBench.ArithSpeed
