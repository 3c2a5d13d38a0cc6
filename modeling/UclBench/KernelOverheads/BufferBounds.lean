import UclBench.KernelOverheads.GenKernel

/-!
# UclBench.KernelOverheads.BufferBounds

The 16 MiB of `gen_kernel`.

`snprintf` is told how much room is left, but returns how much it would have
liked to print, and `pos` advances by that.  Once `pos` has passed the end, the
room left is a negative `int` and as a `size_t` it is huge.
`insideBuffer_iff` says which kernels do not get there; the others write behind
the buffer (`genKernel_of_gt`).
-/

namespace UclBench.KernelOverheads

section
variable {nArgs nLines : Nat} {r : Rand} {s s' : Source} {text t : Text} {ts us : List Text}

/-! ## the room left -/

/-- `text` has been printed, each piece with the true size, and as long as there is
room it is what the buffer holds. -/
structure Printed (s : Source) (text : Text) : Prop where
  pos : s.pos = text.length
  size : s.kernelSrc.size = maxKernelSize
  calls : ∀ c ∈ s.calls, c.1 ≤ maxKernelSize ∧ c.2 = maxKernelSize - c.1
  starts : text.length < maxKernelSize → s.kernelSrc.StartsWith text

theorem printed_start : Printed .start [] :=
  ⟨rfl, rfl, by simp [Source.start], by simp [Buffer.StartsWith]⟩

theorem toSize_of_le {pos : Nat} (h : pos ≤ maxKernelSize) :
    toSize ((maxKernelSize : Int) - pos) = maxKernelSize - pos := by
  simp only [toSize, maxKernelSize] at *
  omega

/-- Behind the end, the size has wrapped around. -/
theorem toSize_of_gt {pos : Nat} (h : maxKernelSize < pos) (hpos : pos < 2 ^ 64) :
    toSize ((maxKernelSize : Int) - pos) ≠ 0 := by
  simp only [toSize, maxKernelSize] at *
  omega

/-- Up to the end of the buffer, a call is given the room left. -/
theorem Printed.put (hs : Printed s text) (h : text.length ≤ maxKernelSize) (t : Text) :
    ∃ s', s.put t = .ok s' ∧ Printed s' (text ++ t) ∧
      ((text ++ t).length < maxKernelSize → s'.kernelSrc.StartsWith (text ++ t ++ [nul])) := by
  have hsize := toSize_of_le h
  have hroom : text.length + (maxKernelSize - text.length) ≤ s.kernelSrc.size := by
    rw [hs.size]
    omega
  obtain ⟨b, hprint, hb⟩ := snprintf_of_le hroom t
  have hput : s.put t = .ok ⟨b, text.length + t.length,
      s.calls ++ [(text.length, maxKernelSize - text.length)]⟩ := by
    rw [Source.put, hs.pos, hsize, hprint]
    rfl
  have hstarts (hlt : (text ++ t).length < maxKernelSize) : b.StartsWith (text ++ t ++ [nul]) := by
    rw [List.length_append] at hlt
    obtain ⟨b', hprint', hb'⟩ := snprintf_of_lt (hs.starts (by omega)) hroom
      (by omega : t.length < maxKernelSize - text.length)
    rw [hprint] at hprint'
    rwa [Except.ok.inj hprint']
  refine ⟨_, hput, ⟨by simp, hb.trans hs.size, ?_, fun hlt => (hstarts hlt).of_append⟩, hstarts⟩
  simp only [List.mem_append, List.mem_singleton]
  rintro c (hc | rfl)
  · exact hs.calls c hc
  · exact ⟨h, rfl⟩

/-- Behind the end, a call writes outside. -/
theorem Printed.put_of_gt (hs : Printed s text) (h : maxKernelSize < text.length)
    (hlen : text.length < 2 ^ 64) (t : Text) : s.put t = .error .outOfBounds := by
  have hpos : s.kernelSrc.size < text.length := hs.size ▸ h
  rw [Source.put, hs.pos, snprintf_of_gt hpos (toSize_of_gt h hlen)]
  rfl

/-- While every piece begins inside the buffer, all of them are printed. -/
theorem Printed.putAll (hs : Printed s text) (h : (text ++ ts.flatten).length ≤ maxKernelSize) (t : Text) :
    ∃ s', s.putAll (ts ++ [t]) = .ok s' ∧ Printed s' (text ++ (ts.flatten ++ t)) ∧
      ((text ++ (ts.flatten ++ t)).length < maxKernelSize →
        s'.kernelSrc.StartsWith (text ++ (ts.flatten ++ t) ++ [nul])) := by
  induction ts generalizing s text with
  | nil =>
      rw [List.flatten_nil, List.append_nil] at h
      obtain ⟨s', hput, hrest⟩ := hs.put h t
      refine ⟨s', ?_, hrest⟩
      rw [List.nil_append, putAll_cons, hput]
      rfl
  | cons u us ih =>
      rw [List.flatten_cons, ← List.append_assoc] at h
      have hbegin : text.length ≤ maxKernelSize := by
        simp only [List.length_append] at h
        omega
      obtain ⟨s₁, hput, hs₁, -⟩ := hs.put hbegin u
      obtain ⟨s', hputs, hrest⟩ := ih hs₁ h
      refine ⟨s', ?_, by simpa only [List.flatten_cons, List.append_assoc] using hrest⟩
      rw [List.cons_append, putAll_cons, hput]
      exact hputs

/-- Otherwise one of the calls writes outside. -/
theorem Printed.putAll_of_gt (hs : Printed s text) (hlen : text.length < 2 ^ 64)
    (hts : ∀ u ∈ ts, u.length < 2 ^ 63) (h : maxKernelSize < (text ++ ts.flatten).length) (t : Text) :
    s.putAll (ts ++ [t]) = .error .outOfBounds := by
  induction ts generalizing s text with
  | nil =>
      rw [List.flatten_nil, List.append_nil] at h
      rw [List.nil_append, putAll_cons, hs.put_of_gt h hlen]
      rfl
  | cons u us ih =>
      rw [List.cons_append, putAll_cons]
      by_cases hbegin : text.length ≤ maxKernelSize
      · obtain ⟨s₁, hput, hs₁, -⟩ := hs.put hbegin u
        have hu := hts u (by simp)
        rw [hput]
        refine ih hs₁ ?_ (fun v hv => hts v (by simp [hv])) ?_
        · rw [List.length_append]
          rw [maxKernelSize] at hbegin
          omega
        · rwa [List.append_assoc, ← List.flatten_cons]
      · rw [hs.put_of_gt (by omega) hlen]
        rfl

theorem calls_of_putAll (h : s.putAll ts = .ok s') : ∀ c ∈ s.calls, c ∈ s'.calls := by
  induction ts generalizing s with
  | nil =>
      obtain rfl := Except.ok.inj h
      exact fun c hc => hc
  | cons t ts ih =>
      rw [putAll_cons] at h
      cases hprint : snprintf s.kernelSrc s.pos (toSize ((maxKernelSize : Int) - s.pos)) t with
      | error e => simp [Source.put, hprint, bind, Except.bind] at h
      | ok b =>
          simp only [Source.put, hprint, bind, Except.bind, pure, Except.pure] at h
          exact fun c hc => ih h c (by simp [hc])

/-- A call is recorded with its offset. -/
theorem pos_mem_calls (h : s.putAll (t :: ts) = .ok s') : ∃ size, (s.pos, size) ∈ s'.calls := by
  rw [putAll_cons] at h
  cases hprint : snprintf s.kernelSrc s.pos (toSize ((maxKernelSize : Int) - s.pos)) t with
  | error e => simp [Source.put, hprint, bind, Except.bind] at h
  | ok b =>
      simp only [Source.put, hprint, bind, Except.bind, pure, Except.pure] at h
      exact ⟨_, calls_of_putAll h (s.pos, toSize ((maxKernelSize : Int) - s.pos)) (by simp)⟩

/-- When all calls begin inside the buffer, so does the last. -/
theorem Printed.length_le (hs : Printed s text) (h : s.putAll (ts ++ [t]) = .ok s')
    (hcalls : ∀ c ∈ s'.calls, c.1 ≤ maxKernelSize) : (text ++ ts.flatten).length ≤ maxKernelSize := by
  induction ts generalizing s text with
  | nil =>
      obtain ⟨size, hmem⟩ := pos_mem_calls h
      have hpos := hcalls _ hmem
      rw [hs.pos] at hpos
      simpa using hpos
  | cons u us ih =>
      obtain ⟨size, hmem⟩ := pos_mem_calls h
      have hpos := hcalls _ hmem
      rw [hs.pos] at hpos
      obtain ⟨s₁, hput, hs₁, -⟩ := hs.put hpos u
      rw [List.cons_append, putAll_cons, hput] at h
      rw [List.flatten_cons, ← List.append_assoc]
      exact ih hs₁ h

/-- Every call begins inside the buffer and is given the room left; no character is
written outside. -/
def InsideBuffer (nArgs nLines : Nat) (r : Rand) : Prop :=
  ∃ s, genKernel nArgs nLines r = .ok (some s) ∧
    ∀ c ∈ s.calls, c.1 ≤ maxKernelSize ∧ c.2 = maxKernelSize - c.1

theorem insideBuffer_iff_length (hargs : 1 ≤ nArgs) (hlines : 1 ≤ nLines) :
    InsideBuffer nArgs nLines r ↔ (pieces nArgs nLines r).flatten.length ≤ maxKernelSize := by
  rw [InsideBuffer, genKernel_eq hargs hlines]
  constructor
  · rintro ⟨s, hrun, hcalls⟩
    cases hputs : Source.start.putAll (pieces nArgs nLines r ++ [closeText]) with
    | error e => simp [hputs, bind, Except.bind] at hrun
    | ok s' =>
        simp only [hputs, bind, Except.bind, pure, Except.pure, Except.ok.injEq, Option.some.injEq] at hrun
        obtain rfl := hrun
        exact printed_start.length_le hputs fun c hc => (hcalls c hc).1
  · intro h
    have hbegin : ([] ++ (pieces nArgs nLines r).flatten).length ≤ maxKernelSize := h
    obtain ⟨s, hputs, hs, -⟩ := printed_start.putAll hbegin closeText
    exact ⟨s, by rw [hputs]; rfl, hs.calls⟩

/-- A text that fits is what `clCreateProgramWithSource` is given. -/
theorem genKernel_starts (hargs : 1 ≤ nArgs) (hlines : 1 ≤ nLines)
    (h : (kernelText nArgs nLines r).length < maxKernelSize) :
    ∃ s, genKernel nArgs nLines r = .ok (some s) ∧
      s.kernelSrc.StartsWith (kernelText nArgs nLines r ++ [nul]) := by
  have hle : ([] ++ (pieces nArgs nLines r).flatten).length ≤ maxKernelSize := by
    rw [kernelText, List.length_append] at h
    rw [List.nil_append]
    omega
  obtain ⟨s, hputs, -, hstarts⟩ := printed_start.putAll hle closeText
  rw [genKernel_eq hargs hlines]
  exact ⟨s, by rw [hputs]; rfl, hstarts h⟩

end

/-! ## the length of the text -/

/-- The characters `%i` prints. -/
def digits (n : Nat) : Nat := (decimal n).length

/-- The characters printed for a draw. -/
def Draw.width (d : Draw) : Nat :=
  43 + digits d.dst + digits d.src + digits d.factor + digits d.tmp + digits d.fromArg + digits d.scale +
    match d.guard with
    | some (tmp, arg) => 21 + digits tmp + digits arg
    | none => 0

/-- The characters printed before the closing brace. -/
def textWidth (nArgs nLines : Nat) (r : Rand) : Nat :=
  80 + ((List.range (nArgs - 1)).map fun n => 22 + digits n).sum + digits (nArgs - 1) +
    ((draws nArgs nLines r 0 (strided 0 nLines 2)).map Draw.width).sum

theorem length_storeText (dst src factor : Nat) :
    (storeText dst src factor).length = 23 + digits dst + digits src + digits factor := by
  have hdst : "\targ_".toList.length = 5 := by decide
  have hsrc : "[0] = arg_".toList.length = 10 := by decide
  have htimes : "[0] * ".toList.length = 6 := by decide
  have hend : ";\n".toList.length = 2 := by decide
  simp only [storeText, List.length_append, hdst, hsrc, htimes, hend, digits]
  omega

theorem length_assignText (tmp src factor : Nat) :
    (assignText tmp src factor).length = 20 + digits tmp + digits src + digits factor := by
  have htmp : "\ttmp_".toList.length = 5 := by decide
  have hsrc : " = arg_".toList.length = 7 := by decide
  have htimes : "[0] * ".toList.length = 6 := by decide
  have hend : ";\n".toList.length = 2 := by decide
  simp only [assignText, List.length_append, htmp, hsrc, htimes, hend, digits]
  omega

theorem length_ifText (tmp arg : Nat) :
    (ifText tmp arg).length = 21 + digits tmp + digits arg := by
  have hif : "\tif(tmp_".toList.length = 8 := by decide
  have hgreater : " > arg_".toList.length = 7 := by decide
  have hend : "[0])\n\t".toList.length = 6 := by decide
  unfold ifText
  simp only [List.length_append, hif, hgreater, hend, digits]
  omega

theorem length_pieces_draw (d : Draw) : d.pieces.flatten.length = d.width := by
  obtain ⟨dst, src, factor, tmp, fromArg, scale, guard⟩ := d
  simp only [Draw.pieces, Draw.width, List.flatten_cons, List.length_append, length_storeText,
    length_assignText]
  cases guard with
  | none =>
      simp only [Option.map_none, Option.toList_none, List.flatten_nil, List.length_nil]
      omega
  | some g =>
      simp only [Option.map_some, Option.toList_some, List.flatten_singleton, length_ifText]
      omega

theorem length_pieces_draws (ds : List Draw) :
    (ds.flatMap Draw.pieces).flatten.length = (ds.map Draw.width).sum := by
  induction ds with
  | nil => rfl
  | cons d ds ih =>
      rw [List.flatMap_cons, List.flatten_append, List.length_append, length_pieces_draw, ih,
        List.map_cons, List.sum_cons]

theorem length_paramText (n : Nat) : (paramText n).length = 22 + digits n := by
  have htext : paramText n = "__global float* arg_".toList ++ (decimal n ++ ", ".toList) := rfl
  have hglobal : "__global float* arg_".toList.length = 20 := by decide
  have hend : ", ".toList.length = 2 := by decide
  simp only [htext, List.length_append, hglobal, hend, digits]
  omega

theorem length_params (ns : List Nat) :
    (ns.map paramText).flatten.length = (ns.map fun n => 22 + digits n).sum := by
  induction ns with
  | nil => rfl
  | cons n ns ih =>
      rw [List.map_cons, List.flatten_cons, List.length_append, ih, List.map_cons, List.sum_cons,
        length_paramText]

theorem length_pieces (nArgs nLines : Nat) (r : Rand) :
    (pieces nArgs nLines r).flatten.length = textWidth nArgs nLines r := by
  have hhead : "__kernel void main_func(\n\t".toList.length = 26 := by decide
  have hglobal : "__global float* arg_".toList.length = 20 := by decide
  have hlast : "\n)\n".toList.length = 3 := by decide
  have hopen : "\x7b\n".toList.length = 2 := by decide
  have htmp : "\tfloat tmp_0, tmp_1, tmp_2;\n\n".toList.length = 29 := by decide
  simp only [pieces, List.flatten_cons, List.flatten_append, List.length_append, length_params,
    length_pieces_draws, hhead, hglobal, hlast, hopen, htmp, textWidth, digits]
  omega

theorem length_kernelText (nArgs nLines : Nat) (r : Rand) :
    (kernelText nArgs nLines r).length = textWidth nArgs nLines r + 2 := by
  have hclose : closeText.length = 2 := by decide
  rw [kernelText, List.length_append, length_pieces, hclose]

/-- **The buffer of the generator**: there is room for all that precedes the
closing brace. -/
theorem insideBuffer_iff {nArgs nLines : Nat} (hargs : 1 ≤ nArgs) (hlines : 1 ≤ nLines) (r : Rand) :
    InsideBuffer nArgs nLines r ↔ textWidth nArgs nLines r ≤ maxKernelSize := by
  rw [insideBuffer_iff_length hargs hlines, length_pieces]

/-! ## how long it can be -/

theorem length_draws (nArgs nLines : Nat) (r : Rand) (i : Nat) (ns : List Nat) :
    (draws nArgs nLines r i ns).length = ns.length := by
  induction ns generalizing i with
  | nil => rfl
  | cons n ns ih => rw [draws, List.length_cons, ih, List.length_cons]

theorem mem_draws {nArgs nLines i : Nat} {r : Rand} {ns : List Nat} {d : Draw}
    (h : d ∈ draws nArgs nLines r i ns) : ∃ j n, d = draw nArgs nLines r j n := by
  induction ns generalizing i with
  | nil => simp [draws] at h
  | cons n ns ih =>
      rw [draws, List.mem_cons] at h
      obtain rfl | h := h
      · exact ⟨i, n, rfl⟩
      · exact ih h

theorem length_strided_two (n : Nat) : (strided 0 n 2).length = (n + 1) / 2 := by
  simp [strided]

theorem digits_le {n k : Nat} (hk : 0 < k) (h : n < 10 ^ k) : digits n ≤ k := length_decimal_le hk h

/-- A pass prints 49 characters at least. -/
theorem le_width (d : Draw) : 49 ≤ d.width := by
  have hdst : 1 ≤ digits d.dst := length_decimal_pos _
  have hsrc : 1 ≤ digits d.src := length_decimal_pos _
  have hfactor : 1 ≤ digits d.factor := length_decimal_pos _
  have htmp : 1 ≤ digits d.tmp := length_decimal_pos _
  have hfrom : 1 ≤ digits d.fromArg := length_decimal_pos _
  have hscale : 1 ≤ digits d.scale := length_decimal_pos _
  unfold Draw.width
  omega

/-- With `k` digits for an argument, a pass prints 76 + 4k characters at most. -/
theorem width_draw_le {nArgs k : Nat} (hk : 0 < k) (hargs : 1 ≤ nArgs) (h : nArgs ≤ 10 ^ k)
    (nLines : Nat) (r : Rand) (i n : Nat) : (draw nArgs nLines r i n).width ≤ 76 + 4 * k := by
  have harg (i c : Nat) (j : Fin c) : digits (r.arg nArgs i c j) ≤ k :=
    digits_le hk ((r.arg_lt hargs i c j).trans_le h)
  have hfactor (i : Nat) : digits (r.arg 100000 i 3 2) ≤ 5 :=
    digits_le (by decide) (r.arg_lt (by decide) i 3 2)
  have htmp (i c : Nat) (j : Fin c) : digits (r.arg 2 i c j) ≤ 1 :=
    digits_le (by decide) ((r.arg_lt (by decide) i c j).trans (by decide))
  have hdst := harg i 3 0
  have hsrc := harg i 3 1
  have hfac := hfactor i
  have htmp' := htmp (i + 3) 3 0
  have hfrom := harg (i + 3) 3 1
  have hscale := hfactor (i + 3)
  have hguard := htmp (i + 6) 2 0
  have hcond := harg (i + 6) 2 1
  simp only [draw, Draw.width]
  split
  · next heq =>
      split at heq
      · obtain ⟨rfl, rfl⟩ := Prod.mk.inj (Option.some.inj heq)
        omega
      · contradiction
  · omega

theorem le_textWidth (nArgs nLines : Nat) (r : Rand) : (nLines + 1) / 2 * 49 ≤ textWidth nArgs nLines r := by
  have hsum := List.card_nsmul_le_sum ((draws nArgs nLines r 0 (strided 0 nLines 2)).map Draw.width) 49
    (by simpa using fun d _ => le_width d)
  rw [List.length_map, length_draws, length_strided_two, Nat.nsmul_eq_mul] at hsum
  unfold textWidth
  omega

theorem textWidth_le {nArgs k : Nat} (hk : 0 < k) (hargs : 1 ≤ nArgs) (h : nArgs ≤ 10 ^ k) (nLines : Nat)
    (r : Rand) : textWidth nArgs nLines r ≤ 80 + nArgs * (22 + k) + (nLines + 1) / 2 * (76 + 4 * k) := by
  have hparams := List.sum_le_card_nsmul ((List.range (nArgs - 1)).map fun n => 22 + digits n) (22 + k) (by
    simp only [List.mem_map, List.mem_range]
    rintro _ ⟨n, hn, rfl⟩
    have hdigits : digits n ≤ k := digits_le hk (by omega)
    omega)
  have hlast : digits (nArgs - 1) ≤ k := digits_le hk (by omega)
  have hsum := List.sum_le_card_nsmul ((draws nArgs nLines r 0 (strided 0 nLines 2)).map Draw.width)
    (76 + 4 * k) (by
      simp only [List.mem_map]
      rintro _ ⟨d, hd, rfl⟩
      obtain ⟨i, n, rfl⟩ := mem_draws hd
      exact width_draw_le hk hargs h nLines r i n)
  rw [List.length_map, length_draws, length_strided_two, Nat.nsmul_eq_mul] at hsum
  rw [List.length_map, List.length_range, Nat.nsmul_eq_mul] at hparams
  have hargs' : (nArgs - 1) * (22 + k) + (22 + k) = nArgs * (22 + k) := by
    rw [← Nat.succ_mul, Nat.succ_eq_add_one, Nat.sub_add_cancel hargs]
  unfold textWidth
  omega

theorem length_piece_lt {nArgs : Nat} (hargs : 1 ≤ nArgs) (h : nArgs ≤ 2 ^ 31) {nLines : Nat} {r : Rand}
    {u : Text} (hu : u ∈ pieces nArgs nLines r) : u.length < 2 ^ 63 := by
  have hint (n : Nat) (hn : n < nArgs) : digits n ≤ 10 := digits_le (by decide) (by omega)
  simp only [pieces, List.mem_cons, List.mem_append, List.mem_map, List.mem_range, List.mem_flatMap] at hu
  obtain rfl | ⟨n, hn, rfl⟩ | rfl | rfl | rfl | ⟨d, hd, hu⟩ := hu
  · decide
  · have hdigits := hint n (by omega)
    rw [length_paramText]
    omega
  · have hdigits := hint (nArgs - 1) (by omega)
    have hglobal : "__global float* arg_".toList.length = 20 := by decide
    have hlast : "\n)\n".toList.length = 3 := by decide
    rw [List.length_append, List.length_append, hglobal, hlast, ← digits]
    omega
  · decide
  · decide
  · obtain ⟨i, n, rfl⟩ := mem_draws hd
    have hwidth := width_draw_le (k := 10) (by decide) hargs (by omega) nLines r i n
    have hle := (List.sublist_flatten_of_mem hu).length_le
    rw [length_pieces_draw] at hle
    omega

/-- **Without room** characters are written behind the buffer. -/
theorem genKernel_of_gt {nArgs nLines : Nat} (hargs : 1 ≤ nArgs) (hint : nArgs ≤ 2 ^ 31)
    (hlines : 1 ≤ nLines) {r : Rand} (h : maxKernelSize < textWidth nArgs nLines r) :
    genKernel nArgs nLines r = .error .outOfBounds := by
  rw [← length_pieces] at h
  rw [genKernel_eq hargs hlines, printed_start.putAll_of_gt (by decide)
    (fun u hu => length_piece_lt hargs hint hu) h closeText]
  rfl

/-- The tests of the benchmark have at most 32 arguments and 2570 lines. -/
theorem insideBuffer_of_test {nArgs nLines : Nat} (hargs : 1 ≤ nArgs) (hargs' : nArgs ≤ 32)
    (hlines : 1 ≤ nLines) (hlines' : nLines ≤ 2570) (r : Rand) : InsideBuffer nArgs nLines r := by
  have hwidth := textWidth_le (k := 2) (by decide) hargs (by omega) nLines r
  rw [insideBuffer_iff_length hargs hlines, length_pieces, maxKernelSize]
  omega

/-- A generator that returns zero, its calls made from left to right. -/
def Rand.zero : Rand := ⟨2147483647, fun _ => 0, fun _ => Nat.zero_le _, fun _ n => Equiv.refl (Fin n)⟩

/-- The first test of the benchmark. -/
theorem insideBuffer_iff_four : 1 ≤ 4 ∧ 1 ≤ 20 ∧ InsideBuffer 4 20 Rand.zero := by
  have hwidth := textWidth_le (k := 1) (by decide) (by decide : 1 ≤ 4) (by decide) 20 Rand.zero
  have hroom : textWidth 4 20 Rand.zero ≤ maxKernelSize := by
    rw [maxKernelSize]
    omega
  exact ⟨by decide, by decide, (insideBuffer_iff (by decide) (by decide) Rand.zero).mpr hroom⟩

/-- A million lines do not fit. -/
theorem insideBuffer_fails_million : ¬ InsideBuffer 1 1000000 Rand.zero := by
  have hwidth := le_textWidth 1 1000000 Rand.zero
  rw [insideBuffer_iff (by decide) (by decide), maxKernelSize]
  omega

end UclBench.KernelOverheads
