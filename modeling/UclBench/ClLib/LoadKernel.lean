import UclBench.CStorage

/-!
# UclBench.ClLib.LoadKernel

Loading a kernel source behind a preamble (`load_kernel` of `clcommon.cpp`, in
both its branches, and `oclLoadProgSource` of `oclutils.h`).

Two of the three ask the file for its length.  The UNIX branch of `load_kernel`
maps the file and looks for a terminator instead, which is there only because
the rest of the last page reads as zero: `loadersAgree_iff`.
-/

namespace UclBench.ClLib

/-! ## the loaders -/

/-- `mmap` of a whole file: its bytes, then zeros up to the page boundary. -/
def mapFile (page : Nat) (file : Text) : Buffer Char :=
  .ofFn ((file.length + page - 1) / page * page) (file.getD · nul)

/-- `load_kernel` under UNIX: what `clCreateProgramWithSource` receives. -/
def loadKernelMmap (fuel page : Nat) (preamble : Buffer Char) (file : Text) : Except Fault Text := do
  let szPreambleLength ← strlen fuel preamble
  let mm := mapFile page file
  let szSourceLength ← strlen fuel mm
  let fbuf := Buffer.alloc Char (szPreambleLength + szSourceLength + 1)
  -- sprintf(fbuf, "%s%s", preamble, mm)
  let (fbuf, pos) ← copyString fuel preamble fbuf 0
  let (fbuf, pos) ← copyString fuel mm fbuf pos
  let fbuf ← fbuf.write pos nul
  readString fuel fbuf

/-- The buffer both other loaders build, and the length of the text in it;
nothing when `fread` does not deliver. -/
def freadSource (fuel : Nat) (preamble : Buffer Char) (file : Text) :
    Except Fault (Option (Buffer Char × Nat)) := do
  let szPreambleLength ← strlen fuel preamble
  let szSourceLength := file.length
  let fbuf := Buffer.alloc Char (szSourceLength + szPreambleLength + 1)
  let bytes ← (List.range szPreambleLength).mapM preamble.read
  let fbuf ← fbuf.writeAll 0 bytes
  -- fread returns the number of items, and 0 when items are empty
  if szSourceLength = 0 then pure none
  else do
    let fbuf ← fbuf.writeAll szPreambleLength file
    let fbuf ← fbuf.write (szSourceLength + szPreambleLength) nul
    pure (some (fbuf, szSourceLength + szPreambleLength))

/-- `oclLoadProgSource`: the string, and `*szFinalLength` -/
def oclLoadProgSource (fuel : Nat) (preamble : Buffer Char) (file : Text) :
    Except Fault (Option (Buffer Char × Nat)) :=
  freadSource fuel preamble file

/-- `load_kernel` elsewhere. -/
def loadKernelFread (fuel : Nat) (preamble : Buffer Char) (file : Text) :
    Except Fault (Option Text) := do
  match ← freadSource fuel preamble file with
  | none => pure none
  | some (fbuf, _) => return some (← readString fuel fbuf)

/-- All three end with the preamble followed by the file. -/
def LoadersAgree (page : Nat) (preamble : Buffer Char) (pre file : Text) : Prop :=
  ∃ bound, ∀ fuel, bound ≤ fuel →
    loadKernelMmap fuel page preamble file = .ok (pre ++ file) ∧
    loadKernelFread fuel preamble file = .ok (some (pre ++ file)) ∧
    ∃ b, oclLoadProgSource fuel preamble file = .ok (some (b, (pre ++ file).length)) ∧
      b.IsString (pre ++ file)

/-! ## the mapping -/

section
variable {page fuel : Nat} {preamble : Buffer Char} {pre file : Text}

theorem size_mapFile_of_dvd (hpage : 0 < page) (h : page ∣ file.length) :
    (mapFile page file).size = file.length := by
  obtain ⟨k, hk⟩ := h
  have hdiv : (file.length + page - 1) / page = k := by
    rw [hk, Nat.add_sub_assoc hpage, Nat.mul_add_div hpage, Nat.div_eq_of_lt (by omega), Nat.add_zero]
  rw [mapFile, Buffer.size_ofFn, hdiv, hk, Nat.mul_comm]

theorem lt_size_mapFile (hpage : 0 < page) (h : ¬ page ∣ file.length) :
    file.length < (mapFile page file).size := by
  have hmod : 0 < file.length % page := Nat.pos_of_ne_zero fun h0 => h (Nat.dvd_of_mod_eq_zero h0)
  have hlt := Nat.mod_lt file.length hpage
  have hsplit := Nat.div_add_mod' file.length page
  have hdiv : (file.length + page - 1) / page = file.length / page + 1 := by
    apply Nat.div_eq_of_lt_le
    · rw [Nat.succ_mul]
      omega
    · rw [Nat.succ_mul, Nat.succ_mul]
      omega
  rw [mapFile, Buffer.size_ofFn, hdiv, Nat.succ_mul]
  omega

/-- In a mapping that ends with the file there is no terminator to find. -/
theorem strlen_mapFile_ne_ok {n : Nat} (hfile : NulFree file)
    (h : (mapFile page file).size = file.length) : strlen fuel (mapFile page file) ≠ .ok n := by
  intro hrun
  have hcell := cell_of_strlen hrun
  have hlt := Buffer.lt_of_cell hcell
  have hn : n < file.length := by rwa [h] at hlt
  rw [mapFile, Buffer.size_ofFn] at hlt
  rw [mapFile, Buffer.cell_ofFn hlt, List.getD_eq_getElem?_getD, List.getElem?_eq_getElem hn] at hcell
  exact hfile (Option.some.inj hcell ▸ List.getElem_mem hn)

/-! ## the strings -/

/-- The UNIX branch, where the mapping goes past the file. -/
theorem loadKernelMmap_eq (hpre : preamble.IsString pre) (hfile : NulFree file)
    (hsize : file.length < (mapFile page file).size) (hfuel : (pre ++ file).length < fuel) :
    loadKernelMmap fuel page preamble file = .ok (pre ++ file) := by
  have hlen : (pre ++ file).length = pre.length + file.length := List.length_append
  have hmm : (mapFile page file).IsString file := .of_ofFn hfile hsize
  have hfree : NulFree (pre ++ file) := nulFree_append.mpr ⟨hpre.nulFree, hfile⟩
  have hempty : (Buffer.alloc Char (pre.length + file.length + 1)).StartsWith [] := by
    simp [Buffer.StartsWith]
  obtain ⟨b, hcopy, hb, hstart⟩ := hpre.copyString_eq hempty (by simp; omega)
    (by omega : pre.length < fuel)
  rw [List.length_nil, List.nil_append] at hcopy
  rw [List.nil_append] at hstart
  obtain ⟨b', hcopy', hb', hstart'⟩ := hmm.copyString_eq hstart
    (by rw [hb, hlen, Buffer.size_alloc]; omega) (by omega : file.length < fuel)
  have hroom : (pre ++ file).length < b'.size := by
    rw [hb', hb, hlen, Buffer.size_alloc]
    omega
  have hread := (Buffer.IsString.of_set hstart' hfree hroom).readString_eq hfuel
  simp only [loadKernelMmap, hpre.strlen_eq (by omega : pre.length < fuel),
    hmm.strlen_eq (by omega : file.length < fuel), hcopy, hcopy', Buffer.write_of_lt nul hroom, bind,
    Except.bind]
  exact hread

/-- Where the mapping ends with the file, nothing is handed over. -/
theorem loadKernelMmap_ne_ok {text : Text} (hpre : preamble.IsString pre) (hfile : NulFree file)
    (hsize : (mapFile page file).size = file.length) (hfuel : pre.length < fuel) :
    loadKernelMmap fuel page preamble file ≠ .ok text := by
  intro hrun
  simp only [loadKernelMmap, hpre.strlen_eq hfuel, bind, Except.bind] at hrun
  cases hlen : strlen fuel (mapFile page file) with
  | error e => simp [hlen] at hrun
  | ok n => exact strlen_mapFile_ne_ok hfile hsize hlen

theorem mapM_read_eq (h : preamble.IsString pre) :
    (List.range pre.length).mapM preamble.read = .ok pre := by
  have htake : ∀ n ≤ pre.length, (List.range n).mapM preamble.read = .ok (pre.take n) := by
    intro n hn
    induction n with
    | zero => rfl
    | succ n ih =>
        rw [List.range_succ, List.mapM_append, ih (by omega), List.mapM_cons, h.read_of_lt (by omega),
          ← List.take_concat_get' pre n (by omega)]
        rfl
  simpa using htake pre.length (Nat.le_refl _)

/-- The buffer of the two loaders that ask for the length. -/
theorem freadSource_eq (hpre : preamble.IsString pre) (hfile : NulFree file) (hne : file ≠ [])
    (hfuel : pre.length < fuel) :
    ∃ b, freadSource fuel preamble file = .ok (some (b, (pre ++ file).length)) ∧
      b.IsString (pre ++ file) := by
  have hlen : (pre ++ file).length = file.length + pre.length := by
    rw [List.length_append, Nat.add_comm]
  have hfree : NulFree (pre ++ file) := nulFree_append.mpr ⟨hpre.nulFree, hfile⟩
  have hpos : file.length ≠ 0 := fun h => hne (List.length_eq_zero_iff.mp h)
  have hempty : (Buffer.alloc Char ((pre ++ file).length + 1)).StartsWith [] := by
    simp [Buffer.StartsWith]
  obtain ⟨b, hwrite, hb, hstart⟩ := hempty.writeAll
    (by simp; omega : ([] ++ pre).length ≤ (Buffer.alloc Char ((pre ++ file).length + 1)).size)
  rw [List.length_nil] at hwrite
  rw [List.nil_append] at hstart
  obtain ⟨b', hwrite', hb', hstart'⟩ := hstart.writeAll
    (by rw [hb, Buffer.size_alloc]; omega : (pre ++ file).length ≤ b.size)
  have hroom : (pre ++ file).length < b'.size := by
    rw [hb', hb, Buffer.size_alloc]
    omega
  refine ⟨b'.set (pre ++ file).length nul, ?_, .of_set hstart' hfree hroom⟩
  simp only [freadSource, hpre.strlen_eq hfuel, mapM_read_eq hpre, hwrite, hwrite', if_neg hpos,
    ← hlen, Buffer.write_of_lt nul hroom, bind, Except.bind]
  rfl

theorem loadKernelFread_eq (hpre : preamble.IsString pre) (hfile : NulFree file) (hne : file ≠ [])
    (hfuel : (pre ++ file).length < fuel) :
    loadKernelFread fuel preamble file = .ok (some (pre ++ file)) := by
  obtain ⟨b, hsource, hstring⟩ := freadSource_eq hpre hfile hne
    (by rw [List.length_append] at hfuel; omega : pre.length < fuel)
  rw [loadKernelFread, hsource]
  simp only [bind, Except.bind, hstring.readString_eq hfuel]
  rfl

/-- **Loading a kernel**: the three loaders build the same string exactly for the
files that do not fill their last page. -/
theorem loadersAgree_iff (hpage : 0 < page) (hpre : preamble.IsString pre) (hfile : NulFree file)
    (hne : file ≠ []) : LoadersAgree page preamble pre file ↔ ¬ page ∣ file.length := by
  constructor
  · rintro ⟨bound, hrun⟩ hdvd
    obtain ⟨hmmap, -⟩ := hrun (max bound (pre.length + 1)) (Nat.le_max_left _ _)
    exact absurd hmmap (loadKernelMmap_ne_ok hpre hfile (size_mapFile_of_dvd hpage hdvd)
      (by omega))
  · intro hdvd
    have hsize := lt_size_mapFile hpage hdvd
    refine ⟨(pre ++ file).length + 1, fun fuel hfuel => ⟨?_, ?_, ?_⟩⟩
    · exact loadKernelMmap_eq hpre hfile hsize hfuel
    · exact loadKernelFread_eq hpre hfile hne hfuel
    · exact freadSource_eq hpre hfile hne (by rw [List.length_append] at hfuel; omega)

end

/-- A short kernel behind a one-line preamble. -/
theorem loadersAgree_iff_short : 0 < 4096 ∧ LoadersAgree 4096 (literal "#define N 4\n".toList)
    "#define N 4\n".toList "void f();".toList :=
  ⟨by decide, (loadersAgree_iff (by decide) (isString_literal (by decide)) (by decide)
    (by decide)).mpr (by decide)⟩

/-- A file of exactly one page cannot be loaded. -/
theorem load_fails_page : ¬ LoadersAgree 4096 (literal []) [] (List.replicate 4096 'x') := by
  rintro ⟨bound, hrun⟩
  have hfile : NulFree (List.replicate 4096 'x') := by
    rw [NulFree, List.mem_replicate]
    decide
  have hsize : (mapFile 4096 (List.replicate 4096 'x')).size = (List.replicate 4096 'x').length :=
    size_mapFile_of_dvd (by decide) (by rw [List.length_replicate])
  obtain ⟨hmmap, -⟩ := hrun (bound + 1) (by omega)
  exact loadKernelMmap_ne_ok (isString_literal nulFree_nil) hfile hsize (by simp) hmmap

end UclBench.ClLib
