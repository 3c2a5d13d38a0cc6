import UclBench.Buffer
import UclBench.CString

/-!
# UclBench.SizeList

The `--sizes` option of `arith_speed`, `buffer_bandwidth` and `mem_streaming`.

All three read a comma-separated list into an array with one row of `MAX_SIZES`
entries per device, and none compares the number of entries with the width of
a row.  `sizesRight_iff` is the law of the three of them.  Indices are
`unsigned int`.
-/

namespace UclBench.SizeList

/-- The programs that take a list of sizes. -/
inductive Benchmark where
  | arithSpeed
  | bufferBandwidth
  | memStreaming
  deriving DecidableEq, Repr

/-- `MAX_SIZES` -/
def Benchmark.maxSizes : Benchmark → Nat
  | .arithSpeed => 50
  | .bufferBandwidth => 64
  | .memStreaming => 50

/-- The only size when none is given. -/
def Benchmark.defaultSize : Benchmark → Nat
  | .arithSpeed => 100000
  | .bufferBandwidth => 128 * 1024 * 1024
  | .memStreaming => 10 * 1024 * 1024

/-! ## reading a token -/

/-- `isspace` -/
def isSpace (c : Char) : Bool := c ∈ [' ', '\t', '\n', '\x0b', '\x0c', '\r']

/-- An optional sign, and whether it is a minus. -/
def scanSign : Text → Bool × Text
  | '-' :: s => (true, s)
  | '+' :: s => (false, s)
  | s => (false, s)

/-- The conversion `%lu`: the number, and what follows it.  Too large a number
is `ULONG_MAX`, a negated one is taken modulo 2^64. -/
def scanLu (s : Text) : Option (Nat × Text) :=
  let (negative, s) := scanSign (s.dropWhile isSpace)
  let digits := s.takeWhile (·.isDigit)
  let n := Nat.ofDigitChars 10 digits 0
  if digits = [] then none
  else if 2 ^ 64 ≤ n then some (2 ^ 64 - 1, s.dropWhile (·.isDigit))
  else some (if negative then (2 ^ 64 - n) % 2 ^ 64 else n, s.dropWhile (·.isDigit))

/-- The size a token stands for; nothing when it is invalid. -/
def parseSize (ptr : Text) : Option Nat :=
  match scanLu ptr with
  | none => none
  -- sscanf(ptr, "%lu%c", &_s, &_m) == 2
  | some (s, m :: _) =>
      if m = 'K' ∨ m = 'k' then some (s * 1024 % 2 ^ 64)
      else if m = 'M' ∨ m = 'm' then some (s * 1024 * 1024 % 2 ^ 64)
      else none
  | some (s, []) => some s

/-- The tokens `strtok(…, ",")` delivers one after the other. -/
def strtok (s : Text) : List Text := (s.splitOn ',').filter (· ≠ [])

/-! ## filling the array -/

/-- `num_sizes + i * MAX_SIZES` -/
def position (bm : Benchmark) (n i : Nat) : Nat := (n + i * bm.maxSizes) % 2 ^ 32

/-- The loop over the tokens; nothing when the program exits with an error. -/
def storeSizes (bm : Benchmark) (usedNumDevices : Nat) :
    List Text → Buffer Nat → Nat → Except Fault (Option (Buffer Nat × Nat))
  | [], sizes, numSizes => .ok (some (sizes, numSizes))
  | ptr :: ptrs, sizes, numSizes => match parseSize ptr with
    | none => .ok none
    | some size => do
      let sizes ← sizes.writeEach (position bm numSizes) size (List.range usedNumDevices)
      storeSizes bm usedNumDevices ptrs sizes ((numSizes + 1) % 2 ^ 32)

/-- `sizes` and `num_sizes` -/
def readSizes (bm : Benchmark) (usedNumDevices : Nat) (sizesStr : Option Text) :
    Except Fault (Option (Buffer Nat × Nat)) := do
  let sizes := Buffer.alloc Nat (bm.maxSizes * usedNumDevices)
  let sizes ← sizes.writeEach id 0 (List.range (bm.maxSizes * usedNumDevices % 2 ^ 32))
  match sizesStr with
  | none => do
    let sizes ← sizes.writeEach (position bm 0) bm.defaultSize (List.range usedNumDevices)
    pure (some (sizes, 1))
  | some str => storeSizes bm usedNumDevices (strtok str) sizes 0

/-! ## lists of sizes -/

inductive Suffix where
  | K | k
  | M | m

def Suffix.char : Suffix → Char
  | .K => 'K'
  | .k => 'k'
  | .M => 'M'
  | .m => 'm'

def Suffix.factor : Option Suffix → Nat
  | none => 1
  | some .K | some .k => 1024
  | some .M | some .m => 1048576

/-- A decimal numeral with its suffix, for a size of 64 bits. -/
structure SizeArg where
  digits : Text
  suffix : Option Suffix
  digits_ne : digits ≠ []
  isDigit : ∀ c ∈ digits, c.isDigit = true
  small : Nat.ofDigitChars 10 digits 0 * Suffix.factor suffix < 2 ^ 64

namespace SizeArg

def text (a : SizeArg) : Text := a.digits ++ (a.suffix.map Suffix.char).toList

def value (a : SizeArg) : Nat := Nat.ofDigitChars 10 a.digits 0 * Suffix.factor a.suffix

end SizeArg

/-- The list as it is given on the command line. -/
def listText (args : List SizeArg) : Text := [','].intercalate (args.map SizeArg.text)

/-- Every store is inside the array, and every row holds the list. -/
def SizesRight (bm : Benchmark) (usedNumDevices : Nat) (args : List SizeArg) : Prop :=
  ∃ sizes, readSizes bm usedNumDevices (some (listText args)) = .ok (some (sizes, args.length)) ∧
    ∀ i < usedNumDevices, ∀ j < args.length,
      sizes.cell (position bm j i) = (args.map SizeArg.value)[j]?

/-! ## the tokens are the sizes -/

/-- A digit is no white space, no sign and no comma. -/
theorem ne_of_isDigit {c d : Char} (h : c.isDigit = true) (hd : d.isDigit = false) : c ≠ d :=
  fun heq => by simp [heq, hd] at h

theorem isSpace_of_isDigit {c : Char} (h : c.isDigit = true) : isSpace c = false := by
  simp [isSpace, ne_of_isDigit h]

theorem scanSign_of_isDigit {c : Char} {s : Text} (h : c.isDigit = true) :
    scanSign (c :: s) = (false, c :: s) := by
  rw [scanSign]
  · exact fun _ hc => ne_of_isDigit h (d := '-') (by decide) (List.cons.inj hc).1
  · exact fun _ hc => ne_of_isDigit h (d := '+') (by decide) (List.cons.inj hc).1

theorem span_digits {digits r : Text} (hdigit : ∀ c ∈ digits, c.isDigit = true)
    (hr : ∀ c ∈ r.head?, c.isDigit = false) :
    (digits ++ r).takeWhile (·.isDigit) = digits ∧ (digits ++ r).dropWhile (·.isDigit) = r := by
  rw [List.takeWhile_append_of_pos hdigit, List.dropWhile_append_of_pos hdigit]
  cases r with
  | nil => simp
  | cons c r => simp [hr c (by simp)]

theorem scanLu_digits {digits r : Text} (hne : digits ≠ []) (hdigit : ∀ c ∈ digits, c.isDigit = true)
    (hr : ∀ c ∈ r.head?, c.isDigit = false) (hsmall : Nat.ofDigitChars 10 digits 0 < 2 ^ 64) :
    scanLu (digits ++ r) = some (Nat.ofDigitChars 10 digits 0, r) := by
  obtain ⟨htake, hdrop⟩ := span_digits hdigit hr
  cases digits with
  | nil => contradiction
  | cons c digits =>
      have hc : c.isDigit = true := hdigit c (by simp)
      have hspace : (c :: digits ++ r).dropWhile isSpace = c :: (digits ++ r) := by
        simp [isSpace_of_isDigit hc]
      rw [List.cons_append] at htake hdrop
      simp only [scanLu, hspace, scanSign_of_isDigit hc, htake, hdrop, if_neg hne,
        if_neg (Nat.not_le.mpr hsmall), Bool.false_eq_true, if_false]

theorem one_le_factor (suffix : Option Suffix) : 1 ≤ Suffix.factor suffix := by
  rcases suffix with _ | _ | _ | _ | _ <;> decide

theorem SizeArg.ofDigitChars_lt (a : SizeArg) : Nat.ofDigitChars 10 a.digits 0 < 2 ^ 64 :=
  (Nat.le_mul_of_pos_right _ (one_le_factor a.suffix)).trans_lt a.small

theorem parseSize_text (a : SizeArg) : parseSize a.text = some a.value := by
  have hlt := a.ofDigitChars_lt
  have hsmall := a.small
  obtain ⟨digits, suffix, hne, hdigit, _⟩ := a
  have hscan (r : Text) (hr : ∀ c ∈ r.head?, c.isDigit = false) :=
    scanLu_digits (r := r) hne hdigit hr hlt
  cases suffix with
  | none =>
      have hnumeral := hscan [] (by simp)
      rw [List.append_nil] at hnumeral
      simp [SizeArg.text, SizeArg.value, Suffix.factor, parseSize, hnumeral]
  | some suffix =>
      have hr : ∀ c ∈ [suffix.char].head?, c.isDigit = false := by
        cases suffix <;> simp [Suffix.char]
      have htext : SizeArg.text ⟨digits, some suffix, hne, hdigit, hsmall⟩ = digits ++ [suffix.char] := rfl
      rw [htext, parseSize, hscan _ hr]
      cases suffix <;> simp [Suffix.char, SizeArg.value, Suffix.factor] at hsmall ⊢ <;> omega

theorem SizeArg.text_ne (a : SizeArg) : a.text ≠ [] := by
  simp [SizeArg.text, a.digits_ne]

theorem SizeArg.comma_not_mem (a : SizeArg) : ',' ∉ a.text := by
  rw [SizeArg.text, List.mem_append, not_or]
  refine ⟨fun h => ?_, ?_⟩
  · exact ne_of_isDigit (a.isDigit _ h) (d := ',') (by decide) rfl
  · rcases a.suffix with _ | _ | _ | _ | _ <;> decide

/-- The commas between tokens are found again. -/
theorem strtok_intercalate {ts : List Text} (hne : ∀ t ∈ ts, t ≠ []) (hcomma : ∀ t ∈ ts, ',' ∉ t) :
    strtok ([','].intercalate ts) = ts := by
  have hfilter : ts.filter (· ≠ []) = ts := by
    rw [List.filter_eq_self]
    simpa using hne
  rw [strtok]
  cases hts : ts with
  | nil => rfl
  | cons t rest =>
      rw [List.splitOn_intercalate, ← hts, hfilter]
      · rwa [← hts]
      · simp

theorem strtok_listText (args : List SizeArg) : strtok (listText args) = args.map SizeArg.text :=
  strtok_intercalate (by simp [SizeArg.text_ne]) (by simp [SizeArg.comma_not_mem])

/-! ## the array -/

section
variable {bm : Benchmark} {usedNumDevices : Nat} {args : List SizeArg} {vs : List Nat}

/-- No position is outside the array, and positions that coincide are to hold the
same size. -/
structure NoClash (bm : Benchmark) (usedNumDevices : Nat) (vs : List Nat) : Prop where
  inside : ∀ n < vs.length, ∀ i < usedNumDevices, position bm n i < bm.maxSizes * usedNumDevices
  agree : ∀ n < vs.length, ∀ j < vs.length, ∀ i < usedNumDevices, ∀ i' < usedNumDevices,
    position bm n i = position bm j i' → vs[n]? = vs[j]?

@[simp] theorem position_mod (bm : Benchmark) (n i : Nat) :
    position bm (n % 2 ^ 32) i = position bm n i := Nat.mod_add_mod _ _ _

/-- The state after the sizes `done`: they are in every row. -/
structure Stored (bm : Benchmark) (usedNumDevices : Nat) (done : List Nat) (sizes : Buffer Nat)
    (numSizes : Nat) : Prop where
  size : sizes.size = bm.maxSizes * usedNumDevices
  num : numSizes = done.length % 2 ^ 32
  rows : ∀ n < done.length, ∀ i < usedNumDevices, sizes.cell (position bm n i) = done[n]?

/-- One pass adds a size to every row. -/
theorem Stored.next {done rest : List Nat} {size : Nat} {sizes : Buffer Nat} {numSizes : Nat}
    (hs : Stored bm usedNumDevices done sizes numSizes)
    (h : NoClash bm usedNumDevices ((done ++ [size]) ++ rest)) :
    ∃ sizes', sizes.writeEach (position bm numSizes) size (List.range usedNumDevices) = .ok sizes' ∧
      Stored bm usedNumDevices (done ++ [size]) sizes' ((numSizes + 1) % 2 ^ 32) := by
  have hlen : done.length < ((done ++ [size]) ++ rest).length := by simp
  have hlast {k : Nat} (hk : k ≤ done.length) : ((done ++ [size]) ++ rest)[k]? = (done ++ [size])[k]? :=
    List.getElem?_append_left (by simp; omega)
  obtain ⟨sizes', hwrite, hsize, hcell, hframe⟩ := Buffer.writeEach_of_lt (b := sizes)
    (position bm numSizes) size (List.range usedNumDevices) fun i hi => by
      rw [hs.size, hs.num, position_mod]
      exact h.inside _ hlen i (List.mem_range.mp hi)
  refine ⟨sizes', hwrite, hsize.trans hs.size, by simp [hs.num], fun n hn i hi => ?_⟩
  rw [List.length_append, List.length_singleton] at hn
  by_cases hnew : ∃ i' ∈ List.range usedNumDevices, position bm numSizes i' = position bm n i
  · -- written in this pass: an older size there is the same
    obtain ⟨i', hi', hpos⟩ := hnew
    rw [← hpos, hcell i' hi']
    rw [hs.num, position_mod] at hpos
    have hagree := h.agree done.length hlen n (hlen.trans_le' (by omega)) i' (List.mem_range.mp hi') i hi hpos
    rw [hlast (Nat.le_refl _), hlast (by omega), List.getElem?_concat_length] at hagree
    exact hagree
  · have hold : n < done.length := by
      by_contra hge
      obtain rfl : n = done.length := by omega
      exact hnew ⟨i, List.mem_range.mpr hi, by rw [hs.num, position_mod]⟩
    rw [hframe _ fun i' hi' hpos => hnew ⟨i', hi', hpos⟩, hs.rows n hold i hi,
      List.getElem?_append_left hold]

/-- The loop stores one size after the other. -/
theorem storeSizes_of_noClash {done : List Nat} {sizes : Buffer Nat} {numSizes : Nat}
    (h : NoClash bm usedNumDevices (done ++ args.map SizeArg.value))
    (hs : Stored bm usedNumDevices done sizes numSizes) :
    ∃ sizes' numSizes', storeSizes bm usedNumDevices (args.map SizeArg.text) sizes numSizes =
        .ok (some (sizes', numSizes')) ∧
      Stored bm usedNumDevices (done ++ args.map SizeArg.value) sizes' numSizes' := by
  induction args generalizing done sizes numSizes with
  | nil => exact ⟨sizes, numSizes, rfl, by simpa using hs⟩
  | cons a args ih =>
      have happend : done ++ (a :: args).map SizeArg.value =
          (done ++ [a.value]) ++ args.map SizeArg.value := by simp
      rw [happend] at h ⊢
      obtain ⟨sizes', hwrite, hnext⟩ := hs.next h
      obtain ⟨sizes'', numSizes'', hrun, hend⟩ := ih h hnext
      refine ⟨sizes'', numSizes'', ?_, hend⟩
      rw [List.map_cons, storeSizes, parseSize_text]
      simp only [hwrite, bind, Except.bind]
      exact hrun

/-- Whatever the loop leaves behind, it has counted the tokens. -/
theorem storeSizes_counts {ptrs : List Text} {sizes sizes' : Buffer Nat} {numSizes numSizes' : Nat}
    (h : storeSizes bm usedNumDevices ptrs sizes numSizes = .ok (some (sizes', numSizes')))
    (hnum : numSizes < 2 ^ 32) :
    sizes'.size = sizes.size ∧ numSizes' = (numSizes + ptrs.length) % 2 ^ 32 := by
  induction ptrs generalizing sizes numSizes with
  | nil =>
      rw [storeSizes, Except.ok.injEq, Option.some.injEq, Prod.mk.injEq] at h
      obtain ⟨rfl, rfl⟩ := h
      exact ⟨rfl, (Nat.mod_eq_of_lt hnum).symm⟩
  | cons ptr ptrs ih =>
      rw [storeSizes] at h
      cases hsize : parseSize ptr with
      | none => simp [hsize] at h
      | some size =>
          simp only [hsize] at h
          cases hwrite : sizes.writeEach (position bm numSizes) size (List.range usedNumDevices) with
          | error e =>
              simp only [hwrite, bind, Except.bind] at h
              contradiction
          | ok b =>
              simp only [hwrite, bind, Except.bind] at h
              obtain ⟨hb, hcount⟩ := ih h (Nat.mod_lt _ (by decide))
              rw [Buffer.size_of_writeEach hwrite] at hb
              refine ⟨hb, ?_⟩
              rw [hcount, List.length_cons, Nat.mod_add_mod]
              congr 1
              omega

/-- The array before the first token. -/
theorem exists_zeroed (bm : Benchmark) (usedNumDevices : Nat) :
    ∃ sizes, (Buffer.alloc Nat (bm.maxSizes * usedNumDevices)).writeEach id 0
        (List.range (bm.maxSizes * usedNumDevices % 2 ^ 32)) = .ok sizes ∧
      sizes.size = bm.maxSizes * usedNumDevices := by
  obtain ⟨sizes, hwrite, hsize, -⟩ := Buffer.writeEach_of_lt
    (b := Buffer.alloc Nat (bm.maxSizes * usedNumDevices)) id 0
    (List.range (bm.maxSizes * usedNumDevices % 2 ^ 32)) fun i hi =>
      (List.mem_range.mp hi).trans_le (Nat.mod_le _ _)
  exact ⟨sizes, hwrite, hsize⟩

theorem sizesRight_iff_noClash :
    SizesRight bm usedNumDevices args ↔
      args.length < 2 ^ 32 ∧ NoClash bm usedNumDevices (args.map SizeArg.value) := by
  obtain ⟨sizes₀, hzero, hsize₀⟩ := exists_zeroed bm usedNumDevices
  have hread : readSizes bm usedNumDevices (some (listText args)) =
      storeSizes bm usedNumDevices (args.map SizeArg.text) sizes₀ 0 := by
    simp only [readSizes, hzero, strtok_listText, bind, Except.bind]
  constructor
  · rintro ⟨sizes, hrun, hrows⟩
    rw [hread] at hrun
    obtain ⟨hsize, hcount⟩ := storeSizes_counts hrun (by decide)
    rw [Nat.zero_add, List.length_map] at hcount
    refine ⟨hcount ▸ Nat.mod_lt _ (by decide), ?_, ?_⟩
    · intro n hn i hi
      rw [List.length_map] at hn
      have hcell := hrows i hi n hn
      rw [List.getElem?_eq_getElem (by simpa using hn)] at hcell
      exact hsize₀ ▸ hsize ▸ Buffer.lt_of_cell hcell
    · intro n hn j hj i hi i' hi' hpos
      rw [List.length_map] at hn hj
      rw [← hrows i hi n hn, ← hrows i' hi' j hj, hpos]
  · rintro ⟨hlt, hclash⟩
    have hstart : Stored bm usedNumDevices [] sizes₀ 0 := ⟨hsize₀, rfl, by simp⟩
    obtain ⟨sizes, numSizes, hrun, hend⟩ := storeSizes_of_noClash (by rwa [List.nil_append]) hstart
    rw [List.nil_append] at hend
    have hnum := hend.num
    rw [List.length_map, Nat.mod_eq_of_lt hlt] at hnum
    refine ⟨sizes, by rw [hread, hrun, hnum], fun i hi j hj => ?_⟩
    exact hend.rows j (by rwa [List.length_map]) i hi

/-- As long as the index does not wrap, rows are disjoint and a row must hold the
list. -/
theorem noClash_iff (hD : 1 ≤ usedNumDevices) (hwrap : bm.maxSizes * usedNumDevices < 2 ^ 32) :
    NoClash bm usedNumDevices vs ↔ vs.length ≤ bm.maxSizes := by
  constructor
  · intro h
    by_contra hlong
    have hlast := h.inside bm.maxSizes (by omega) (usedNumDevices - 1) (by omega)
    have hend : bm.maxSizes + (usedNumDevices - 1) * bm.maxSizes = bm.maxSizes * usedNumDevices := by
      obtain ⟨D, rfl⟩ : ∃ D, usedNumDevices = D + 1 := ⟨usedNumDevices - 1, by omega⟩
      rw [Nat.add_sub_cancel, Nat.mul_succ, Nat.mul_comm, Nat.add_comm]
    rw [position, hend, Nat.mod_eq_of_lt hwrap] at hlast
    omega
  · intro hle
    have hrow {n i : Nat} (hn : n < vs.length) (hi : i < usedNumDevices) :
        n + i * bm.maxSizes < bm.maxSizes * usedNumDevices := by
      have hi' : (i + 1) * bm.maxSizes ≤ usedNumDevices * bm.maxSizes := Nat.mul_le_mul_right _ hi
      rw [Nat.succ_mul] at hi'
      rw [Nat.mul_comm bm.maxSizes]
      omega
    have hpos {n i : Nat} (hn : n < vs.length) (hi : i < usedNumDevices) :
        position bm n i = n + i * bm.maxSizes :=
      Nat.mod_eq_of_lt ((hrow hn hi).trans hwrap)
    refine ⟨fun n hn i hi => by rw [hpos hn hi]; exact hrow hn hi, ?_⟩
    intro n hn j hj i hi i' hi' heq
    rw [hpos hn hi, hpos hj hi'] at heq
    have hmod := congrArg (· % bm.maxSizes) heq
    simp only [Nat.add_mul_mod_self_right, Nat.mod_eq_of_lt (hn.trans_le hle),
      Nat.mod_eq_of_lt (hj.trans_le hle)] at hmod
    rw [hmod]

end

/-- The lists the array has room for: those that fit a row.  With so many devices
that the index wraps around, those that do not get in their own way. -/
def Fits (bm : Benchmark) (usedNumDevices : Nat) (args : List SizeArg) : Prop :=
  if bm.maxSizes * usedNumDevices < 2 ^ 32 then args.length ≤ bm.maxSizes
  else args.length < 2 ^ 32 ∧ NoClash bm usedNumDevices (args.map SizeArg.value)

/-- **The list of sizes**, in the three programs. -/
theorem sizesRight_iff (bm : Benchmark) {usedNumDevices : Nat} (hD : 1 ≤ usedNumDevices)
    (args : List SizeArg) : SizesRight bm usedNumDevices args ↔ Fits bm usedNumDevices args := by
  rw [sizesRight_iff_noClash, Fits]
  split
  next hwrap =>
    rw [noClash_iff hD hwrap, List.length_map]
    have hmax : bm.maxSizes < 2 ^ 32 := by cases bm <;> decide
    omega
  next => rfl

/-- `64K` -/
def sixtyFourK : SizeArg := ⟨"64".toList, some .K, by simp, by simp, by decide⟩

/-- `1M` -/
def oneM : SizeArg := ⟨"1".toList, some .M, by simp, by simp, by decide⟩

/-- Two devices and three sizes, one of them twice. -/
theorem sizesRight_iff_two : 1 ≤ 2 ∧ SizesRight .bufferBandwidth 2 [sixtyFourK, oneM, sixtyFourK] := by
  have hfits : Fits .bufferBandwidth 2 [sixtyFourK, oneM, sixtyFourK] := by simp [Fits, Benchmark.maxSizes]
  exact ⟨by decide, (sizesRight_iff .bufferBandwidth (by decide) [sixtyFourK, oneM, sixtyFourK]).mpr hfits⟩

/-- Sixty-five sizes for one device: the last is stored behind the array. -/
theorem sizes_fail_long : ¬ SizesRight .bufferBandwidth 1 (List.replicate 65 sixtyFourK) := by
  rw [sizesRight_iff_noClash]
  rintro ⟨-, hclash⟩
  exact absurd (hclash.inside 64 (by simp) 0 (by decide)) (by simp [position, Benchmark.maxSizes])

end UclBench.SizeList
