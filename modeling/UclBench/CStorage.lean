import UclBench.Buffer
import UclBench.CString

/-!
# UclBench.CStorage

C strings in checked storage: the functions that look for a terminator.

`strlen`, copying with `%s` and reading a string argument all walk through
memory until they meet a NUL, and fault where the storage ends first.  On a
`Buffer` that `IsString s` each of them does what it is meant to.
-/

namespace UclBench

/-! ## walking to the terminator -/

def strlenPass (b : Buffer Char) (i : Nat) : Except Fault (Pass Nat Nat) := do
  let c ← b.read i
  pure (if c = nul then .leave i else .again (i + 1))

/-- `strlen(b)` -/
def strlen (fuel : Nat) (b : Buffer Char) : Except Fault Nat := runLoop (strlenPass b) fuel 0

def copyPass (src : Buffer Char) (pos : Nat) (p : Nat × Buffer Char) :
    Except Fault (Pass (Nat × Buffer Char) (Buffer Char × Nat)) := do
  let c ← src.read p.1
  if c = nul then pure (.leave (p.2, pos + p.1))
  else do
    let dst ← p.2.write (pos + p.1) c
    pure (.again (p.1 + 1, dst))

/-- The characters `%s` copies from `src` to `dst + pos`, without the terminator,
and the position after them. -/
def copyString (fuel : Nat) (src dst : Buffer Char) (pos : Nat) : Except Fault (Buffer Char × Nat) :=
  runLoop (copyPass src pos) fuel (0, dst)

def readPass (b : Buffer Char) (p : Nat × Text) : Except Fault (Pass (Nat × Text) Text) := do
  let c ← b.read p.1
  pure (if c = nul then .leave p.2 else .again (p.1 + 1, p.2 ++ [c]))

/-- What the receiver of a string argument reads. -/
def readString (fuel : Nat) (b : Buffer Char) : Except Fault Text := runLoop (readPass b) fuel (0, [])

/-! ## strings -/

/-- `s` followed by its terminator. -/
structure Buffer.IsString (b : Buffer Char) (s : Text) : Prop where
  starts : b.StartsWith (s ++ [nul])
  nulFree : NulFree s

namespace Buffer.IsString
variable {b dst : Buffer Char} {s : Text} {fuel : Nat}

/-- Storage that holds `s` and is zero from there on. -/
theorem of_ofFn {n : Nat} (hs : NulFree s) (h : s.length < n) :
    (Buffer.ofFn n (s.getD · nul)).IsString s := by
  refine ⟨fun k hk => ?_, hs⟩
  rw [List.length_append, List.length_singleton] at hk
  rw [cell_ofFn (by omega)]
  by_cases hlt : k < s.length
  · simp [List.getElem?_append_left, hlt]
  · obtain rfl : k = s.length := by omega
    simp

/-- A terminator written after `s`. -/
theorem of_set (hb : b.StartsWith s) (hs : NulFree s) (hroom : s.length < b.size) :
    (b.set s.length nul).IsString s :=
  ⟨hb.set nul hroom, hs⟩

theorem read_of_lt (h : b.IsString s) {k : Nat} (hk : k < s.length) : b.read k = .ok s[k] := by
  apply read_of_cell
  rw [h.starts k (by simp; omega), List.getElem?_append_left hk, List.getElem?_eq_getElem hk]

theorem read_length (h : b.IsString s) : b.read s.length = .ok nul := by
  apply read_of_cell
  rw [h.starts s.length (by simp), List.getElem?_concat_length]

theorem getElem_ne_nul (h : b.IsString s) {k : Nat} (hk : k < s.length) : s[k] ≠ nul :=
  fun heq => h.nulFree (heq ▸ List.getElem_mem hk)

theorem strlen_eq (h : b.IsString s) (hfuel : s.length < fuel) : strlen fuel b = .ok s.length := by
  refine runLoop_of_passes (strlenPass b) fuel id s.length (fun k hk => ?_) ?_ hfuel
  · rw [id, strlenPass, h.read_of_lt hk]
    simp [h.getElem_ne_nul hk, bind, Except.bind, pure, Except.pure]
  · rw [id, strlenPass, h.read_length]
    rfl

theorem readString_eq (h : b.IsString s) (hfuel : s.length < fuel) : readString fuel b = .ok s := by
  have hloop := runLoop_of_passes (readPass b) fuel (fun k => (k, s.take k)) s.length (r := s)
    (fun k hk => ?_) ?_ hfuel
  · rwa [List.take_zero] at hloop
  · rw [readPass, h.read_of_lt hk]
    simp [h.getElem_ne_nul hk, bind, Except.bind, pure, Except.pure]
  · rw [readPass, h.read_length]
    simp [bind, Except.bind, pure, Except.pure]

theorem copyPass_again (h : b.IsString s) {pos k : Nat} (hk : k < s.length) (hroom : pos + k < dst.size) :
    copyPass b pos (k, dst) = .ok (.again (k + 1, dst.set (pos + k) s[k])) := by
  rw [copyPass, h.read_of_lt hk]
  simp [h.getElem_ne_nul hk, write_of_lt s[k] hroom, bind, Except.bind, pure, Except.pure]

theorem copyPass_leave (h : b.IsString s) (pos : Nat) :
    copyPass b pos (s.length, dst) = .ok (.leave (dst, pos + s.length)) := by
  rw [copyPass, h.read_length]
  rfl

/-- Copying appends to what `dst` starts with. -/
theorem copyString_eq (h : b.IsString s) {pre : Text} (hdst : dst.StartsWith pre)
    (hroom : (pre ++ s).length ≤ dst.size) (hfuel : s.length < fuel) :
    ∃ dst', copyString fuel b dst pre.length = .ok (dst', (pre ++ s).length) ∧
      dst'.size = dst.size ∧ dst'.StartsWith (pre ++ s) := by
  -- the invariant: `k` characters have been copied, `m` are left
  have hloop (m : Nat) : ∀ (k fuel : Nat) (dst : Buffer Char), k + m = s.length → m < fuel →
      (pre ++ s).length ≤ dst.size → dst.StartsWith (pre ++ s.take k) →
      ∃ dst', runLoop (copyPass b pre.length) fuel (k, dst) = .ok (dst', (pre ++ s).length) ∧
        dst'.size = dst.size ∧ dst'.StartsWith (pre ++ s) := by
    induction m with
    | zero =>
        intro k fuel dst hk hfuel hroom hdst
        obtain ⟨fuel, rfl⟩ : ∃ f, fuel = f + 1 := ⟨fuel - 1, by omega⟩
        obtain rfl : k = s.length := hk
        refine ⟨dst, ?_, rfl, by rwa [List.take_length] at hdst⟩
        rw [runLoop_leave (h.copyPass_leave pre.length), List.length_append]
    | succ m ih =>
        intro k fuel dst hk hfuel hroom hdst
        obtain ⟨fuel, rfl⟩ : ∃ f, fuel = f + 1 := ⟨fuel - 1, by omega⟩
        have hlt : k < s.length := by omega
        have hlen : (pre ++ s.take k).length = pre.length + k := by
          simp
          omega
        have hpos : pre.length + k < dst.size := by
          rw [List.length_append] at hroom
          omega
        have hset := hdst.set s[k] (by omega)
        rw [hlen, List.append_assoc, List.take_concat_get' s k hlt] at hset
        rw [runLoop_again (h.copyPass_again hlt hpos)]
        exact ih (k + 1) fuel _ (by omega) (by omega) hroom hset
  exact hloop s.length 0 fuel dst (by omega) hfuel hroom (by simpa using hdst)

end Buffer.IsString

/-- A string literal. -/
def literal (s : Text) : Buffer Char := .ofFn (s.length + 1) (s.getD · nul)

theorem isString_literal {s : Text} (hs : NulFree s) : (literal s).IsString s :=
  .of_ofFn hs (Nat.lt_succ_self _)

/-- Where `strlen` stops there is a terminator. -/
theorem cell_of_strlen {fuel n : Nat} {b : Buffer Char} (h : strlen fuel b = .ok n) :
    b.cell n = some nul := by
  have hloop : ∀ (fuel i : Nat), runLoop (strlenPass b) fuel i = .ok n → b.cell n = some nul := by
    intro fuel
    induction fuel with
    | zero => nofun
    | succ fuel ih =>
        intro i hi
        rw [runLoop, strlenPass] at hi
        cases hread : b.read i with
        | error e => simp [hread, bind, Except.bind] at hi
        | ok c =>
            by_cases hc : c = nul
            · simp [hread, hc, bind, Except.bind, pure, Except.pure] at hi
              rw [← hi, ← hc, Buffer.read_eq_ok.mp hread]
            · simp [hread, hc, bind, Except.bind, pure, Except.pure] at hi
              exact ih (i + 1) hi
  exact hloop fuel 0 h

/-! ## printing -/

/-- `snprintf(b + pos, size, …)` producing the text `s`: as much of it as fits, and
a terminator. -/
def snprintf (b : Buffer Char) (pos size : Nat) (s : Text) : Except Fault (Buffer Char) :=
  if size = 0 then .ok b else b.writeAll pos (s.take (size - 1) ++ [nul])

section
variable {b : Buffer Char} {pre s : Text} {pos size : Nat}

/-- With a true size nothing is written outside. -/
theorem snprintf_of_le (h : pos + size ≤ b.size) (s : Text) :
    ∃ b', snprintf b pos size s = .ok b' ∧ b'.size = b.size := by
  by_cases hsize : size = 0
  · exact ⟨b, if_pos hsize, rfl⟩
  · have hroom : pos + (s.take (size - 1) ++ [nul]).length ≤ b.size := by
      simp
      omega
    obtain ⟨b', hwrite, hsize', -⟩ := Buffer.writeAll_of_le hroom
    exact ⟨b', by rw [snprintf, if_neg hsize, hwrite], hsize'⟩

/-- A text that fits is appended. -/
theorem snprintf_of_lt (hb : b.StartsWith pre) (h : pre.length + size ≤ b.size) (hs : s.length < size) :
    ∃ b', snprintf b pre.length size s = .ok b' ∧ b'.StartsWith (pre ++ s ++ [nul]) := by
  have hsize : size ≠ 0 := by omega
  have hroom : (pre ++ (s ++ [nul])).length ≤ b.size := by
    simp
    omega
  obtain ⟨b', hwrite, -, hstarts⟩ := hb.writeAll hroom
  rw [← List.append_assoc] at hstarts
  exact ⟨b', by rw [snprintf, if_neg hsize, List.take_of_length_le (by omega), hwrite], hstarts⟩

/-- Behind the storage there is no room for the terminator. -/
theorem snprintf_of_gt (h : b.size < pos) (hsize : size ≠ 0) (s : Text) :
    snprintf b pos size s = .error .outOfBounds := by
  rw [snprintf, if_neg hsize]
  cases hs : s.take (size - 1) ++ [nul] with
  | nil => simp at hs
  | cons c cs => rw [Buffer.writeAll, Buffer.write_of_ge c (Nat.le_of_lt h)]

end

end UclBench
