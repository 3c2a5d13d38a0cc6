import UclBench.MemStreaming.LocalMem

/-!
# UclBench.MemStreaming.Host

How the host configures the streaming kernels (`mem_streaming.cpp`), and
whether their accesses stay inside the storage it provides.

The preamble fixes the element type, `VEC`, `ELEMENTS` and the local size; the
sizes of the arrays are written down a second time, for each type of memory and
each vector width.  `inStorage_iff`: they agree except for `float16` arrays
passed as local arguments.
-/

namespace UclBench.MemStreaming

/-! ## the launch -/

/-- `while(local > elements) local /= 2;` -/
def halve (elements localSize : Nat) : Nat :=
  if elements < localSize then halve elements (localSize / 2) else localSize
termination_by localSize
decreasing_by omega

/-- `local` for `ws`: one work item, then as many as the device allows. -/
def chooseLocal (ws maxWorkItemSize elements : Nat) : Nat :=
  if ws = 0 then 1 else halve elements maxWorkItemSize

/-- `elementsToAlloc`, the value of `ELEMENTS`. -/
def elementsToAlloc (type elements localSize : Nat) : Nat :=
  if type = 1 then (elements + localSize - 1) / localSize else elements

/-- The kernel created for `type`, as work item `id` of a group runs it. -/
def kernel (type f4 elements localSize id : Nat) : Program :=
  match type with
  | 1 => privateMem f4 (elementsToAlloc type elements localSize)
  | 2 => globalMem f4 (elementsToAlloc type elements localSize) localSize id
  | _ => localMem f4 (elementsToAlloc type elements localSize) localSize id

theorem kernel_of_ne (hone : type ≠ 1) (htwo : type ≠ 2) (f4 elements localSize id : Nat) :
    kernel type f4 elements localSize id = localMem f4 elements localSize id := by
  simp only [kernel, elementsToAlloc, if_neg hone]

theorem halve_pos {localSize : Nat} (helements : 0 < elements) (hlocal : 0 < localSize) :
    0 < halve elements localSize := by
  fun_induction halve elements localSize with
  | case1 localSize h ih => exact ih (by omega)
  | case2 localSize h => exact hlocal

theorem chooseLocal_pos (helements : 0 < elements) (hmax : 0 < maxWorkItemSize) :
    0 < chooseLocal ws maxWorkItemSize elements := by
  rw [chooseLocal]
  split
  · decide
  · exact halve_pos helements hmax

/-! ## storage -/

/-- `sizeof(cl_float<n>)` -/
def sizeofFloat (n : Nat) : Nat := 4 * n

/-- The number of components of `dtype`, `float` or `float<2^f4>`. -/
def dtypeWidth (f4 : Nat) : Nat := if f4 = 0 then 1 else 2 ^ f4

def sizeofDtype (f4 : Nat) : Nat := sizeofFloat (dtypeWidth f4)

/-- The size passed to `clCreateBuffer` for `g1` and `g2`. -/
def createBufferSize (f4 elements : Nat) (a : Arr) : Nat :=
  let size (n : Nat) : Nat :=
    match a with
    | .fst => sizeofFloat n * elements
    | .snd => sizeofFloat n * elements * 2
  match f4 with
  | 1 => size 2
  | 2 => size 4
  | 3 => size 8
  | 4 => size 16
  | _ => size 1

/-- The size passed to `clSetKernelArg` for `s1` and `s2`. -/
def setKernelArgSize (f4 elements : Nat) (a : Arr) : Nat :=
  let size (n : Nat) : Nat :=
    match a with
    | .fst => sizeofFloat n * elements
    | .snd => sizeofFloat n * elements * 2
  match f4 with
  | 1 => size 2
  | 2 => size 4
  | 3 => size 8
  -- `cl_float8` once more, where the element type is `float16`
  | 4 => size 8
  | _ => size 1

/-- The size of an array declared in the kernel. -/
def declaredSize (f4 elements : Nat) (a : Arr) : Nat := extent elements a * sizeofDtype f4

/-- The bytes behind an array of the kernel. -/
def storage (type f4 : Nat) (larg : Bool) (elements localSize : Nat) (a : Arr) : Nat :=
  match type with
  | 1 => declaredSize f4 (elementsToAlloc type elements localSize) a
  | 2 => createBufferSize f4 elements a
  | _ =>
      if larg then setKernelArgSize f4 elements a
      else declaredSize f4 (elementsToAlloc type elements localSize) a

/-- An access lies inside the storage, at its full width. -/
def Inside (type f4 : Nat) (larg : Bool) (elements localSize : Nat) (x : Access) : Prop :=
  (x.target.2 + 1) * sizeofDtype f4 ≤ storage type f4 larg elements localSize x.target.1

instance : Decidable (Inside type f4 larg elements localSize x) := inferInstanceAs (Decidable (_ ≤ _))

/-- Every access of every work item lies inside the storage. -/
def InStorage (type f4 : Nat) (larg : Bool) (elements localSize : Nat) : Prop :=
  ∀ id < localSize, ∀ x, x ∈ (kernel type f4 elements localSize id).before ∨
    x ∈ (kernel type f4 elements localSize id).after → Inside type f4 larg elements localSize x

/-! ## agreement -/

/-- The accesses of the body stay inside arrays of `elements` and
`2 * elements` elements. -/
theorem target_lt {first stride : Nat} {x : Access} (hstride : 0 < stride)
    (hx : x ∈ (body vec elements first stride).before ∨ x ∈ (body vec elements first stride).after) :
    x.target.2 < extent elements x.target.1 := by
  have hlt {k : Nat} (hk : k ∈ strided first elements stride) : k < elements :=
    ((mem_strided hstride).mp hk).2.1
  have hlt' {k : Nat} (hk : k ∈ strided (first + elements) (elements * 2) stride) :
      k < elements * 2 := ((mem_strided hstride).mp hk).2.1
  simp only [body, List.mem_append, List.mem_flatMap, List.mem_map, mem_putAll, mem_repeated, stream,
    List.mem_cons, List.not_mem_nil, or_false] at hx
  rcases hx with (⟨k, hk, ⟨c, -, rfl⟩ | ⟨c, -, rfl⟩⟩ | ⟨k, hk, c, -, rfl⟩) |
    (⟨k, hk, -, -, rfl | rfl | rfl | rfl⟩ | ⟨k, hk, rfl⟩) <;>
    grind [Access.target, extent_fst, extent_snd]

/-- The last work item's accesses reach the end of the first array. -/
theorem exists_target_last (vec : Nat) (helements : 0 < elements) (hlocal : 0 < localSize) :
    ∃ id < localSize, ∃ x ∈ (body vec elements id localSize).after,
      x.target = (.fst, elements - 1) := by
  have hid := Nat.mod_lt (elements - 1) hlocal
  have hk : elements - 1 ∈ strided ((elements - 1) % localSize) elements localSize :=
    (mem_strided_id hid).mpr ⟨by omega, rfl⟩
  refine ⟨(elements - 1) % localSize, hid, .emit .fst (elements - 1) (components vec), ?_, rfl⟩
  simp only [body, List.mem_append, List.mem_map]
  exact .inr ⟨elements - 1, hk, rfl⟩

/-- The sizes given to `clCreateBuffer` are those of the arrays the kernel
uses. -/
theorem createBufferSize_eq (hf4 : f4 ≤ 4) (elements : Nat) (a : Arr) :
    createBufferSize f4 elements a = extent elements a * sizeofDtype f4 := by
  have hcases : f4 = 0 ∨ f4 = 1 ∨ f4 = 2 ∨ f4 = 3 ∨ f4 = 4 := by omega
  rcases hcases with rfl | rfl | rfl | rfl | rfl <;> cases a <;>
    simp [createBufferSize, sizeofFloat, sizeofDtype, dtypeWidth] <;> omega

/-- So are those given to `clSetKernelArg`, but for `float16`. -/
theorem setKernelArgSize_eq (hf4 : f4 < 4) (elements : Nat) (a : Arr) :
    setKernelArgSize f4 elements a = extent elements a * sizeofDtype f4 := by
  have hcases : f4 = 0 ∨ f4 = 1 ∨ f4 = 2 ∨ f4 = 3 := by omega
  rcases hcases with rfl | rfl | rfl | rfl <;> cases a <;>
    simp [setKernelArgSize, sizeofFloat, sizeofDtype, dtypeWidth] <;> omega

theorem inStorage_of_storage_eq
    (h : ∀ a, storage type f4 larg elements localSize a =
      extent (elementsToAlloc type elements localSize) a * sizeofDtype f4)
    (hlocal : 0 < localSize) : InStorage type f4 larg elements localSize := by
  intro id hid x hx
  have hlt : x.target.2 < extent (elementsToAlloc type elements localSize) x.target.1 := by
    rcases htype : type with _ | _ | _ | type <;> subst htype
    · exact target_lt hlocal hx
    · exact target_lt Nat.one_pos hx
    · exact target_lt hlocal hx
    · exact target_lt hlocal hx
  rw [Inside, h]
  exact Nat.mul_le_mul_right _ hlt

/-- `float16` arrays passed as arguments are half as long as they should be, so
the last element lies outside. -/
theorem not_inside_last {x : Access} (hone : type ≠ 1) (htwo : type ≠ 2) (helements : 0 < elements)
    (htarget : x.target = (.fst, elements - 1)) : ¬ Inside type 4 true elements localSize x := by
  have hstorage : storage type 4 true elements localSize .fst = 32 * elements := by
    simp [storage, setKernelArgSize, sizeofFloat]
  have hsize : sizeofDtype 4 = 64 := rfl
  rw [Inside, htarget, hstorage, hsize]
  omega

theorem not_inStorage (hone : type ≠ 1) (htwo : type ≠ 2) (helements : 0 < elements)
    (hlocal : 0 < localSize) : ¬ InStorage type 4 true elements localSize := by
  intro h
  obtain ⟨id, hid, x, hx, htarget⟩ := exists_target_last 4 helements hlocal
  have hmem : x ∈ (kernel type 4 elements localSize id).after := by
    rw [kernel_of_ne hone htwo]
    exact hx
  exact not_inside_last hone htwo helements htarget (h id hid x (.inr hmem))

/-- Everything else is as long as the kernel takes it to be. -/
theorem inStorage_of_not (hf4 : f4 ≤ 4) (hlocal : 0 < localSize)
    (h : ¬ (type ≠ 1 ∧ type ≠ 2 ∧ larg = true ∧ f4 = 4)) :
    InStorage type f4 larg elements localSize := by
  refine inStorage_of_storage_eq (fun a => ?_) hlocal
  by_cases hone : type = 1
  · subst hone
    rfl
  · by_cases htwo : type = 2
    · subst htwo
      exact createBufferSize_eq hf4 elements a
    · have helems : elementsToAlloc type elements localSize = elements := if_neg hone
      cases larg with
      | false => simp [storage, declaredSize]
      | true =>
          have hlt : f4 < 4 := by grind
          simp [storage, helems, setKernelArgSize_eq hlt]

/-- **Storage**: for every type of memory, vector width, number of elements and
local size, the accesses lie inside the storage exactly when the arrays are
not `float16` arrays passed as local arguments. -/
theorem inStorage_iff (type f4 : Nat) (larg : Bool) (elements localSize : Nat) (hf4 : f4 ≤ 4)
    (helements : 0 < elements) (hlocal : 0 < localSize) :
    InStorage type f4 larg elements localSize ↔
      ¬ (type ≠ 1 ∧ type ≠ 2 ∧ larg = true ∧ f4 = 4) := by
  constructor
  · rintro h ⟨hone, htwo, rfl, rfl⟩
    exact not_inStorage hone htwo helements hlocal h
  · exact inStorage_of_not hf4 hlocal

theorem inStorage_iff_float8 : 3 ≤ 4 ∧ 0 < 128 ∧ 0 < 16 ∧ InStorage 0 3 true 128 16 :=
  ⟨by decide, by decide, by decide,
    (inStorage_iff 0 3 true 128 16 (by decide) (by decide) (by decide)).mpr (by decide)⟩

/-- Local memory, `--vector=4`, arrays passed as arguments, one work item. -/
theorem inStorage_fails_float16 : ¬ InStorage 0 4 true 64 1 :=
  not_inStorage (by decide) (by decide) (by decide) (by decide)

end UclBench.MemStreaming
