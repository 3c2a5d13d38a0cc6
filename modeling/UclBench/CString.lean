import Mathlib.Algebra.Order.BigOperators.Group.List
import Mathlib.Algebra.Order.Ring.Nat
import Mathlib.Data.List.TakeWhile

/-!
# UclBench.CString

C strings as the benchmarks use them: `printf` formatting, and character
buffers that are written at explicit offsets.

A buffer keeps everything written from its offset 0 up to the highest
character written so far; the string in it is what precedes the first NUL.
Capacities are not built in: `CharBuf.extent` is the number of bytes a buffer
needs, to be compared with the bytes it has.

The workhorse is `CharBuf.str_sprintf_append`: printing at the offset of the
terminating NUL appends to the string.
-/

namespace UclBench

/-- Text without its terminating NUL. -/
abbrev Text := List Char

/-- The terminating character. -/
def nul : Char := Char.ofNat 0

/-- No embedded terminator. -/
def NulFree (s : Text) : Prop := nul ∉ s

instance (s : Text) : Decidable (NulFree s) := inferInstanceAs (Decidable (nul ∉ s))

/-! ## formatting -/

/-- `%d` of a non-negative integer. -/
def decimal (n : Nat) : Text := Nat.toDigits 10 n

/-- `%x` of a non-negative integer. -/
def hexadecimal (n : Nat) : Text := Nat.toDigits 16 n

/-- An argument after the format string. -/
inductive Arg where
  | int (n : Nat)
  | str (s : Text)
  | chr (c : Char)

/-- The text `printf` produces, for the conversions `%d`, `%x`, `%s` and
`%c`. -/
def format : Text → List Arg → Text
  | '%' :: 'd' :: f, .int n :: as => decimal n ++ format f as
  | '%' :: 'x' :: f, .int n :: as => hexadecimal n ++ format f as
  | '%' :: 's' :: f, .str s :: as => s ++ format f as
  | '%' :: 'c' :: f, .chr c :: as => c :: format f as
  | c :: f, as => c :: format f as
  | [], _ => []

/-- Text without conversions is printed as it is. -/
theorem format_append {f : Text} (hf : '%' ∉ f) (f' : Text) (as : List Arg) :
    format (f ++ f') as = f ++ format f' as := by
  induction f with
  | nil => rfl
  | cons c f ih =>
      rw [List.mem_cons, not_or] at hf
      rw [List.cons_append, format, ih hf.2, List.cons_append]
      all_goals exact fun _ _ _ _ hc => absurd hc.symm hf.1

theorem nulFree_append {s t : Text} : NulFree (s ++ t) ↔ NulFree s ∧ NulFree t := by
  simp [NulFree, not_or]

theorem nulFree_cons {c : Char} {s : Text} : NulFree (c :: s) ↔ c ≠ nul ∧ NulFree s := by
  simp [NulFree, not_or, eq_comm]

theorem nulFree_nil : NulFree [] := by simp [NulFree]

theorem digitChar_ne_nul : ∀ d < 16, Nat.digitChar d ≠ nul := by decide

/-- Digits never contain the terminator. -/
theorem nulFree_toDigits (hb : 1 < b) (hb16 : b ≤ 16) (n : Nat) : NulFree (Nat.toDigits b n) := by
  have hdigit (d : Nat) (hd : d < b) : NulFree [Nat.digitChar d] :=
    nulFree_cons.mpr ⟨digitChar_ne_nul d (by omega), nulFree_nil⟩
  induction n using Nat.strongRecOn with
  | ind n ih =>
      rw [Nat.toDigits_eq_if hb]
      split
      · exact hdigit n ‹_›
      · have hlt : n / b < n := Nat.div_lt_self (by omega) hb
        exact nulFree_append.mpr ⟨ih (n / b) hlt, hdigit (n % b) (Nat.mod_lt n (by omega))⟩

theorem nulFree_decimal (n : Nat) : NulFree (decimal n) := nulFree_toDigits (by decide) (by decide) n

theorem nulFree_hexadecimal (n : Nat) : NulFree (hexadecimal n) := nulFree_toDigits (by decide) (by decide) n

/-- Arguments that print without a terminator. -/
def Arg.NulFree : Arg → Prop
  | .int _ => True
  | .str s => UclBench.NulFree s
  | .chr c => c ≠ nul

/-- Formatting introduces no terminator of its own. -/
theorem nulFree_format (f : Text) (as : List Arg) (hf : NulFree f) (has : ∀ a ∈ as, a.NulFree) :
    NulFree (format f as) := by
  induction f, as using format.induct with
  | case1 f n as ih =>
      simp only [nulFree_cons, List.forall_mem_cons] at hf has
      exact nulFree_append.mpr ⟨nulFree_decimal n, ih hf.2.2 has.2⟩
  | case2 f n as ih =>
      simp only [nulFree_cons, List.forall_mem_cons] at hf has
      exact nulFree_append.mpr ⟨nulFree_hexadecimal n, ih hf.2.2 has.2⟩
  | case3 f s as ih =>
      simp only [nulFree_cons, List.forall_mem_cons] at hf has
      exact nulFree_append.mpr ⟨has.1, ih hf.2.2 has.2⟩
  | case4 f c as ih =>
      simp only [nulFree_cons, List.forall_mem_cons] at hf has
      exact nulFree_cons.mpr ⟨has.1, ih hf.2.2 has.2⟩
  | case5 as c f h1 h2 h3 h4 ih =>
      rw [nulFree_cons] at hf
      rw [format]
      · exact nulFree_cons.mpr ⟨hf.1, ih hf.2 has⟩
      all_goals assumption
  | case6 as => exact nulFree_nil

/-! ## lengths -/

theorem length_decimal_le {n k : Nat} (hk : 0 < k) (hn : n < 10 ^ k) : (decimal n).length ≤ k :=
  (Nat.length_toDigits_le_iff (by decide) hk).mpr hn

theorem le_length_decimal {n k : Nat} (hk : 0 < k) (hn : 10 ^ k ≤ n) : k + 1 ≤ (decimal n).length := by
  by_contra hlt
  have := (Nat.length_toDigits_le_iff (b := 10) (by decide) hk).mp (by omega : (decimal n).length ≤ k)
  omega

theorem length_decimal_pos (n : Nat) : 1 ≤ (decimal n).length := Nat.length_toDigits_pos

theorem length_hexadecimal_le (n : Nat) : (hexadecimal n).length ≤ (decimal n).length := by
  have hpos := length_decimal_pos n
  have hlt := (Nat.length_toDigits_le_iff (b := 10) (by decide) hpos).mp (Nat.le_refl (decimal n).length)
  exact (Nat.length_toDigits_le_iff (by decide) hpos).mpr
    (hlt.trans_le (Nat.pow_le_pow_left (by decide) _))

/-- The characters an argument prints, at most. -/
def Arg.width : Arg → Nat
  | .int n => (decimal n).length
  | .str s => s.length
  | .chr _ => 1

/-- A conversion prints its argument, every other character itself. -/
theorem length_format_le (f : Text) (as : List Arg) :
    (format f as).length ≤ f.length + (as.map Arg.width).sum := by
  induction f, as using format.induct with
  | case1 f n as ih =>
      simp only [format, Arg.width, List.length_append, List.length_cons, List.map_cons, List.sum_cons]
      omega
  | case2 f n as ih =>
      have := length_hexadecimal_le n
      simp only [format, Arg.width, List.length_append, List.length_cons, List.map_cons, List.sum_cons]
      omega
  | case3 f s as ih =>
      simp only [format, Arg.width, List.length_append, List.length_cons, List.map_cons, List.sum_cons]
      omega
  | case4 f c as ih =>
      simp only [format, Arg.width, List.length_cons, List.map_cons, List.sum_cons]
      omega
  | case5 as c f h1 h2 h3 h4 ih =>
      rw [format]
      · simp only [List.length_cons]
        omega
      all_goals assumption
  | case6 as => simp [format]

theorem length_format_le_of {f : Text} {as : List Arg} {n w : Nat} (hf : f.length ≤ n)
    (has : ∀ a ∈ as, a.width ≤ w) : (format f as).length ≤ n + as.length * w := by
  have hsum : (as.map Arg.width).sum ≤ as.length * w := by
    simpa using List.sum_le_card_nsmul (as.map Arg.width) w (by simpa using has)
  have hformat := length_format_le f as
  omega

section
variable {f : α → Text} {l : List α} {c : Nat}

theorem length_flatMap_le (h : ∀ a ∈ l, (f a).length ≤ c) : (l.flatMap f).length ≤ l.length * c := by
  induction l with
  | nil => simp
  | cons a l ih =>
      have ha := h a (by simp)
      have hl := ih fun b hb => h b (by simp [hb])
      rw [List.flatMap_cons, List.length_append, List.length_cons, Nat.succ_mul]
      omega

theorem le_length_flatMap (h : ∀ a ∈ l, c ≤ (f a).length) : l.length * c ≤ (l.flatMap f).length := by
  induction l with
  | nil => simp
  | cons a l ih =>
      have ha := h a (by simp)
      have hl := ih fun b hb => h b (by simp [hb])
      rw [List.flatMap_cons, List.length_append, List.length_cons, Nat.succ_mul]
      omega

end

/-! ## character buffers -/

/-- A character buffer: the bytes written so far, from offset 0 to the highest
offset ever written. -/
structure CharBuf where
  written : Text
  deriving DecidableEq, Repr

namespace CharBuf

/-- A buffer nobody has written to. -/
def empty : CharBuf := ⟨[]⟩

/-- The string in the buffer: everything before the first terminator. -/
def str (b : CharBuf) : Text := b.written.takeWhile (· != nul)

/-- `strlen` -/
def strlen (b : CharBuf) : Nat := b.str.length

/-- The number of bytes the writes so far need. -/
def extent (b : CharBuf) : Nat := b.written.length

/-- `sprintf(b + pos, …)` producing the text `s`: the characters of `s` and a
terminator are written from `pos` on.  Bytes skipped over are left as the
allocation had them, and read here as terminators. -/
def sprintf (b : CharBuf) (pos : Nat) (s : Text) : CharBuf :=
  ⟨b.written.take pos ++ List.replicate (pos - b.written.length) nul ++ s ++
    nul :: b.written.drop (pos + s.length + 1)⟩

/-- `strcpy(b, s)` -/
def strcpy (b : CharBuf) (s : Text) : CharBuf := b.sprintf 0 s

/-- A write needs the bytes up to its terminator. -/
theorem extent_sprintf (b : CharBuf) (pos : Nat) (s : Text) :
    (b.sprintf pos s).extent = max b.extent (pos + s.length + 1) := by
  simp only [extent, sprintf, List.length_append, List.length_take, List.length_replicate,
    List.length_cons, List.length_drop]
  omega

theorem extent_sprintf_zero (s : Text) : (empty.sprintf 0 s).extent = s.length + 1 := by
  rw [extent_sprintf, extent, empty, List.length_nil]
  omega

theorem takeWhile_append_nul {s t : Text} (hs : NulFree s) :
    (s ++ nul :: t).takeWhile (· != nul) = s := by
  rw [List.takeWhile_append_of_pos]
  · simp
  · intro c hc
    simpa using fun h : c = nul => hs (h ▸ hc)

theorem nulFree_str (b : CharBuf) : NulFree b.str := fun h => by
  have := List.mem_takeWhile_imp h
  simp at this

theorem strlen_le_extent (b : CharBuf) : b.strlen ≤ b.extent := (List.takeWhile_prefix _).length_le

/-- **Appending**: printing at the terminator of the string in a buffer
appends to that string. -/
theorem str_sprintf_append (b : CharBuf) {s : Text} (hs : NulFree s) :
    (b.sprintf b.strlen s).str = b.str ++ s := by
  have hprefix : b.written.take b.strlen = b.str := by
    rw [strlen, str]
    exact List.prefix_iff_eq_take.mp (List.takeWhile_prefix _) |>.symm
  have hlen : b.strlen ≤ b.written.length := b.strlen_le_extent
  have hgap : b.strlen - b.written.length = 0 := by omega
  simp only [sprintf, hgap, hprefix, List.replicate_zero, List.append_nil]
  rw [str, takeWhile_append_nul (nulFree_append.mpr ⟨b.nulFree_str, hs⟩)]

/-- Printing to the start of a buffer replaces its string. -/
theorem str_sprintf_zero (b : CharBuf) {s : Text} (hs : NulFree s) : (b.sprintf 0 s).str = s := by
  simp only [sprintf, List.take_zero, Nat.zero_sub, List.replicate_zero, List.nil_append]
  rw [str, takeWhile_append_nul hs]

end CharBuf

end UclBench
