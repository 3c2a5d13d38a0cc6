import UclBench.CStorage
import UclBench.Strided
import Mathlib.Logic.Equiv.Defs

/-!
# UclBench.KernelOverheads.GenKernel

The kernel generator of `kernel_overheads` (`gen_kernel`): a kernel of random
assignments, printed piece by piece into 16 MiB.

`Source` keeps the buffer and the offset, and records what each call of
`snprintf` is given.  The random numbers are arguments of `snprintf`, and the
order in which a call evaluates its arguments is left open: it is part of `Rand`.
`genKernel_eq` says what is printed: the pieces of `kernelText`, one after the
other.
-/

namespace UclBench.KernelOverheads

/-- `MAX_KERNEL_SIZE` -/
def maxKernelSize : Nat := 16 * 1024 * 1024

/-! ## random numbers -/

/-- What the calls of `rand()` return, one after the other, and which of them
become which argument. -/
structure Rand where
  /-- `RAND_MAX` -/
  max : Nat
  result : Nat → Nat
  result_le : ∀ i, result i ≤ max
  /-- Which of the `n` calls of `rand()` inside one `snprintf`, after `i` others,
  becomes which argument; C++ leaves it open. -/
  order (i n : Nat) : Equiv.Perm (Fin n)

/-- `(int) (k * (rand()/(RAND_MAX + 1.0)))`, for the `i`-th call -/
def Rand.scaled (r : Rand) (k i : Nat) : Nat := k * r.result i / (r.max + 1)

theorem Rand.scaled_lt (r : Rand) {k : Nat} (hk : 0 < k) (i : Nat) : r.scaled k i < k := by
  rw [scaled, Nat.div_lt_iff_lt_mul (Nat.succ_pos _)]
  exact Nat.mul_lt_mul_of_pos_left (Nat.lt_succ_of_le (r.result_le i)) hk

/-- The random argument `j` of the `n` of one `snprintf`, after `i` calls. -/
def Rand.arg (r : Rand) (k i n : Nat) (j : Fin n) : Nat := r.scaled k (i + r.order i n j)

theorem Rand.arg_lt (r : Rand) {k : Nat} (hk : 0 < k) (i n : Nat) (j : Fin n) : r.arg k i n j < k :=
  r.scaled_lt hk _

/-! ## printing -/

/-- `%i` prints what `%d` prints. -/
def asD : Text → Text
  | '%' :: 'i' :: f => '%' :: 'd' :: asD f
  | c :: f => c :: asD f
  | [] => []

/-- The text of a format with `%i` and `%s`. -/
def formatI (f : Text) (as : List Arg) : Text := format (asD f) as

/-- An `int` as a `size_t`. -/
def toSize (v : Int) : Nat := (v % 2 ^ 64).toNat

/-- `kernel_src`, `pos`, and the offset and the size each call of `snprintf` was
given. -/
structure Source where
  kernelSrc : Buffer Char
  pos : Nat
  calls : List (Nat × Nat)

/-- `kernel_src` after `malloc`. -/
def Source.start : Source := ⟨.alloc Char maxKernelSize, 0, []⟩

/-- `pos += snprintf(kernel_src + pos, MAX_KERNEL_SIZE - pos, …)` -/
def Source.put (s : Source) (text : Text) : Except Fault Source := do
  let size := toSize ((maxKernelSize : Int) - s.pos)
  let kernelSrc ← snprintf s.kernelSrc s.pos size text
  pure ⟨kernelSrc, s.pos + text.length, s.calls ++ [(s.pos, size)]⟩

/-! ## the generator -/

def paramText (n : Nat) : Text := formatI "__global float* arg_%i, ".toList [.int n]

/-- One pass of the second loop: the source, and the number of calls of `rand()`
before. -/
def genPass (nArgs nLines : Nat) (r : Rand) (p : Source × Nat) (n : Nat) : Except Fault (Source × Nat) := do
  let (s, i) := p
  let s ← s.put (formatI "\targ_%i[0] = arg_%i[0] * %i;\n".toList
    [.int (r.arg nArgs i 3 0), .int (r.arg nArgs i 3 1), .int (r.arg 100000 i 3 2)])
  let s ← s.put (formatI "\ttmp_%i = arg_%i[0] * %i;\n".toList
    [.int (r.arg 2 (i + 3) 3 0), .int (r.arg nArgs (i + 3) 3 1), .int (r.arg 100000 (i + 3) 3 2)])
  if n % 3 = 0 ∧ (n : Int) < (nLines : Int) - 2 then do
    let s ← s.put (formatI "\tif(tmp_%i > arg_%i[0])\n\t".toList
      [.int (r.arg 2 (i + 6) 2 0), .int (r.arg nArgs (i + 6) 2 1)])
    pure (s, i + 8)
  else pure (s, i + 6)

/-- `gen_kernel`: what is handed to `clCreateProgramWithSource`; nothing when the
arguments are refused. -/
def genKernel (nArgs nLines : Nat) (r : Rand) : Except Fault (Option Source) := do
  if nArgs < 1 ∨ nLines < 1 then pure none
  else do
    let s ← Source.start.put (formatI "%s".toList [.str "__kernel void main_func(\n\t".toList])
    let s ← (List.range (nArgs - 1)).foldlM (fun s n => Source.put s (paramText n)) s
    let s ← s.put (formatI "__global float* arg_%i\n)\n".toList [.int (nArgs - 1)])
    let s ← s.put (formatI "%s".toList [.str "\x7b\n".toList])
    let s ← s.put (formatI "\t%s".toList [.str "float tmp_0, tmp_1, tmp_2;\n\n".toList])
    let (s, _) ← (strided 0 nLines 2).foldlM (genPass nArgs nLines r) (s, 0)
    let s ← s.put (formatI "%s".toList [.str "\x7d\n".toList])
    pure (some s)

/-! ## what is drawn -/

/-- The numbers of one pass: `arg_dst[0] = arg_src[0] * factor`,
`tmp_tmp = arg_from[0] * scale`, and the condition `tmp_t > arg_a[0]` behind
them. -/
structure Draw where
  dst : Nat
  src : Nat
  factor : Nat
  tmp : Nat
  fromArg : Nat
  scale : Nat
  guard : Option (Nat × Nat)

/-- The draw of the pass `n`, after `i` calls of `rand()`. -/
def draw (nArgs nLines : Nat) (r : Rand) (i n : Nat) : Draw where
  dst := r.arg nArgs i 3 0
  src := r.arg nArgs i 3 1
  factor := r.arg 100000 i 3 2
  tmp := r.arg 2 (i + 3) 3 0
  fromArg := r.arg nArgs (i + 3) 3 1
  scale := r.arg 100000 (i + 3) 3 2
  guard :=
    if n % 3 = 0 ∧ (n : Int) < (nLines : Int) - 2 then
      some (r.arg 2 (i + 6) 2 0, r.arg nArgs (i + 6) 2 1)
    else none

/-- The calls of `rand()` a draw takes. -/
def Draw.calls (d : Draw) : Nat := if d.guard.isSome then 8 else 6

/-- The draws of the passes `ns`. -/
def draws (nArgs nLines : Nat) (r : Rand) : Nat → List Nat → List Draw
  | _, [] => []
  | i, n :: ns =>
      let d := draw nArgs nLines r i n
      d :: draws nArgs nLines r (i + d.calls) ns

def storeText (dst src factor : Nat) : Text :=
  "\targ_".toList ++ (decimal dst ++ ("[0] = arg_".toList ++ (decimal src ++ ("[0] * ".toList ++
    (decimal factor ++ ";\n".toList)))))

def assignText (tmp src factor : Nat) : Text :=
  "\ttmp_".toList ++ (decimal tmp ++ (" = arg_".toList ++ (decimal src ++ ("[0] * ".toList ++
    (decimal factor ++ ";\n".toList)))))

def ifText (tmp arg : Nat) : Text :=
  "\tif(tmp_".toList ++ (decimal tmp ++ (" > arg_".toList ++ (decimal arg ++ "[0])\n\t".toList)))

/-- The pieces printed for a draw. -/
def Draw.pieces (d : Draw) : List Text :=
  storeText d.dst d.src d.factor :: assignText d.tmp d.fromArg d.scale ::
    (d.guard.map fun g => ifText g.1 g.2).toList

/-- What is printed before the closing brace. -/
def pieces (nArgs nLines : Nat) (r : Rand) : List Text :=
  "__kernel void main_func(\n\t".toList :: ((List.range (nArgs - 1)).map paramText ++
    (("__global float* arg_".toList ++ (decimal (nArgs - 1) ++ "\n)\n".toList)) :: "\x7b\n".toList ::
      "\tfloat tmp_0, tmp_1, tmp_2;\n\n".toList ::
      (draws nArgs nLines r 0 (strided 0 nLines 2)).flatMap Draw.pieces))

def closeText : Text := "\x7d\n".toList

/-- **The source text**, if there is room for it. -/
def kernelText (nArgs nLines : Nat) (r : Rand) : Text := (pieces nArgs nLines r).flatten ++ closeText

/-! ## the generator prints the pieces -/

/-- One piece after the other. -/
def Source.putAll (s : Source) (ts : List Text) : Except Fault Source := ts.foldlM Source.put s

section
variable {nArgs nLines : Nat} {r : Rand} {s s' : Source} {text t : Text} {ts us : List Text}

@[simp] theorem putAll_nil (s : Source) : s.putAll [] = pure s := rfl

@[simp] theorem putAll_cons (s : Source) (t : Text) (ts : List Text) :
    s.putAll (t :: ts) = s.put t >>= fun s => s.putAll ts := List.foldlM_cons

@[simp] theorem putAll_append (s : Source) (ts us : List Text) :
    s.putAll (ts ++ us) = s.putAll ts >>= fun s => s.putAll us := List.foldlM_append

theorem formatI_store (dst src factor : Nat) :
    formatI "\targ_%i[0] = arg_%i[0] * %i;\n".toList [.int dst, .int src, .int factor] =
      storeText dst src factor := rfl

theorem formatI_assign (tmp src factor : Nat) :
    formatI "\ttmp_%i = arg_%i[0] * %i;\n".toList [.int tmp, .int src, .int factor] =
      assignText tmp src factor := rfl

theorem formatI_if (tmp arg : Nat) :
    formatI "\tif(tmp_%i > arg_%i[0])\n\t".toList [.int tmp, .int arg] = ifText tmp arg := rfl

theorem genPass_eq (s : Source) (i n : Nat) :
    genPass nArgs nLines r (s, i) n = (s.putAll (draw nArgs nLines r i n).pieces) >>= fun s =>
      pure (s, i + (draw nArgs nLines r i n).calls) := by
  simp only [genPass, formatI_store, formatI_assign, formatI_if, Draw.pieces, Draw.calls, draw]
  split <;> simp

/-- The second loop prints the pieces of its draws. -/
theorem foldlM_genPass (ns : List Nat) (s : Source) (i : Nat) :
    ns.foldlM (genPass nArgs nLines r) (s, i) =
      (s.putAll ((draws nArgs nLines r i ns).flatMap Draw.pieces)) >>= fun s =>
        pure (s, i + ((draws nArgs nLines r i ns).map Draw.calls).sum) := by
  induction ns generalizing s i with
  | nil => rfl
  | cons n ns ih =>
      rw [List.foldlM_cons, genPass_eq, draws, List.flatMap_cons, putAll_append, bind_assoc, bind_assoc]
      congr 1
      funext s
      rw [pure_bind, ih, List.map_cons, List.sum_cons, Nat.add_assoc]

/-- **The generator prints the pieces**, one after the other. -/
theorem genKernel_eq (hargs : 1 ≤ nArgs) (hlines : 1 ≤ nLines) :
    genKernel nArgs nLines r = (Source.start.putAll (pieces nArgs nLines r ++ [closeText])) >>= fun s =>
      pure (some s) := by
  have hparams (s : Source) : (List.range (nArgs - 1)).foldlM (fun s n => Source.put s (paramText n)) s =
      s.putAll ((List.range (nArgs - 1)).map paramText) := List.foldlM_map.symm
  have hhead : formatI "%s".toList [.str "__kernel void main_func(\n\t".toList] =
    "__kernel void main_func(\n\t".toList := rfl
  have hlast : formatI "__global float* arg_%i\n)\n".toList [.int (nArgs - 1)] =
    "__global float* arg_".toList ++ (decimal (nArgs - 1) ++ "\n)\n".toList) := rfl
  have hopen : formatI "%s".toList [.str "\x7b\n".toList] = "\x7b\n".toList := rfl
  have htmp : formatI "\t%s".toList [.str "float tmp_0, tmp_1, tmp_2;\n\n".toList] =
    "\tfloat tmp_0, tmp_1, tmp_2;\n\n".toList := rfl
  have hclose : formatI "%s".toList [.str "\x7d\n".toList] = closeText := rfl
  have hok : ¬ (nArgs < 1 ∨ nLines < 1) := by omega
  rw [genKernel, if_neg hok, hhead, hlast, hopen, htmp, hclose]
  simp only [hparams, foldlM_genPass, pieces, putAll_nil, putAll_cons, putAll_append,
    List.cons_append, List.append_assoc, bind_assoc, pure_bind, bind_pure]

end

end UclBench.KernelOverheads
