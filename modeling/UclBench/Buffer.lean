import UclBench.Loop
import Mathlib.Logic.Function.Basic

/-!
# UclBench.Buffer

Bounds-checked storage with uninitialised cells: what `malloc`, a device
buffer or a local array provide.  A read or write outside the storage and a
read of a cell nobody assigned are faults, so a run that ends in `.ok` never
touched a cell it should not have.
-/

namespace UclBench

/-- Storage of `size` cells.  Cells are uninitialised until written, and there
is nothing outside `[0, size)`. -/
structure Buffer (α : Type _) where
  size : Nat
  cell : Nat → Option α
  outside : ∀ i, size ≤ i → cell i = none

namespace Buffer

/-- Fresh storage: nothing is initialised. -/
def alloc (α : Type _) (size : Nat) : Buffer α := ⟨size, fun _ => none, fun _ _ => rfl⟩

/-- Storage filled from a function. -/
def ofFn (size : Nat) (f : Nat → α) : Buffer α where
  size := size
  cell i := if i < size then some (f i) else none
  outside _ hi := if_neg (Nat.not_lt.mpr hi)

/-- Checked read. -/
def read (b : Buffer α) (i : Nat) : Except Fault α :=
  if i < b.size then
    match b.cell i with
    | some v => .ok v
    | none => .error .uninitialised
  else .error .outOfBounds

/-- The storage after `cell i = v`; outside the storage nothing happens. -/
def set (b : Buffer α) (i : Nat) (v : α) : Buffer α where
  size := b.size
  cell := if i < b.size then Function.update b.cell i (some v) else b.cell
  outside j hj := by
    split
    · rw [Function.update_of_ne (by omega), b.outside j hj]
    · exact b.outside j hj

/-- Checked write. -/
def write (b : Buffer α) (i : Nat) (v : α) : Except Fault (Buffer α) :=
  if i < b.size then .ok (b.set i v) else .error .outOfBounds

/-- Checked write of consecutive cells. -/
def writeAll (b : Buffer α) (pos : Nat) : List α → Except Fault (Buffer α)
  | [] => .ok b
  | v :: vs => match b.write pos v with
    | .error e => .error e
    | .ok b' => b'.writeAll (pos + 1) vs

/-- One value written to many cells. -/
def writeEach (b : Buffer α) (pos : ι → Nat) (v : α) (is : List ι) : Except Fault (Buffer α) :=
  is.foldlM (fun b i => b.write (pos i) v) b

/-- Every cell has been assigned. -/
def Assigned (b : Buffer α) : Prop := ∀ i < b.size, ∃ v, b.cell i = some v

/-- Storage is determined by its size and its cells in range. -/
theorem ext_cells {b c : Buffer α} (hsize : b.size = c.size)
    (hcell : ∀ i < b.size, b.cell i = c.cell i) : b = c := by
  obtain ⟨n, cell, hout⟩ := b
  obtain ⟨n', cell', hout'⟩ := c
  obtain rfl : n = n' := hsize
  obtain rfl : cell = cell' := by
    funext i
    by_cases hi : i < n
    · exact hcell i hi
    · rw [hout i (by omega), hout' i (by omega)]
  rfl

@[simp] theorem size_alloc (n : Nat) : (alloc α n).size = n := rfl

@[simp] theorem size_ofFn (n : Nat) (f : Nat → α) : (ofFn n f).size = n := rfl

theorem cell_ofFn {f : Nat → α} (h : i < n) : (ofFn n f).cell i = some (f i) := if_pos h

/-- An assigned cell is in range. -/
theorem lt_of_cell {b : Buffer α} (h : b.cell i = some v) : i < b.size := by
  by_contra hi
  rw [b.outside i (by omega)] at h
  contradiction

theorem read_of_cell {b : Buffer α} (h : b.cell i = some v) : b.read i = .ok v := by
  rw [read, if_pos (lt_of_cell h), h]

/-- A successful read is a read in range of an assigned cell. -/
theorem read_eq_ok {b : Buffer α} : b.read i = .ok v ↔ b.cell i = some v := by
  refine ⟨fun h => ?_, read_of_cell⟩
  unfold read at h
  split at h
  · cases hc : b.cell i with
    | none => simp only [hc] at h; contradiction
    | some w => simp only [hc] at h; rw [Except.ok.inj h]
  · contradiction

@[simp] theorem size_set (b : Buffer α) (i : Nat) (v : α) : (b.set i v).size = b.size := rfl

theorem cell_set_self {b : Buffer α} (v : α) (h : i < b.size) : (b.set i v).cell i = some v := by
  simp [set, h]

theorem cell_set_of_ne {b : Buffer α} (v : α) (h : j ≠ i) : (b.set i v).cell j = b.cell j := by
  unfold set
  split <;> simp [h]

/-- Of two writes to one cell only the second is visible. -/
theorem set_set (b : Buffer α) (i : Nat) (v w : α) : (b.set i v).set i w = b.set i w := by
  refine ext_cells rfl fun j hj => ?_
  by_cases hji : j = i
  · subst hji
    rw [cell_set_self (b := b.set j v) w hj, cell_set_self (b := b) w hj]
  · rw [cell_set_of_ne _ hji, cell_set_of_ne _ hji, cell_set_of_ne _ hji]

/-- Writes to different cells commute. -/
theorem set_comm (b : Buffer α) {i j : Nat} (h : j ≠ i) (v w : α) :
    (b.set i v).set j w = (b.set j w).set i v := by
  refine ext_cells rfl fun k hk => ?_
  have hb : k < b.size := hk
  by_cases hki : k = i
  · subst hki
    have hj : k < (b.set j w).size := hk
    rw [cell_set_of_ne w h.symm, cell_set_self v hb, cell_set_self v hj]
  · rw [cell_set_of_ne v hki]
    by_cases hkj : k = j
    · subst hkj
      have hi : k < (b.set i v).size := hk
      rw [cell_set_self w hi, cell_set_self w hb]
    · rw [cell_set_of_ne w hkj, cell_set_of_ne v hki, cell_set_of_ne w hkj]

theorem write_of_lt {b : Buffer α} (v : α) (h : i < b.size) : b.write i v = .ok (b.set i v) :=
  if_pos h

theorem write_of_ge {b : Buffer α} (v : α) (h : b.size ≤ i) : b.write i v = .error .outOfBounds :=
  if_neg (Nat.not_lt.mpr h)

/-- Consecutive cells in range: each holds its value, those before what they held. -/
theorem writeAll_of_le {b : Buffer α} {vs : List α} (h : pos + vs.length ≤ b.size) :
    ∃ b', b.writeAll pos vs = .ok b' ∧ b'.size = b.size ∧
      (∀ k < vs.length, b'.cell (pos + k) = vs[k]?) ∧ ∀ k < pos, b'.cell k = b.cell k := by
  induction vs generalizing b pos with
  | nil => exact ⟨b, rfl, rfl, by simp, by simp⟩
  | cons v vs ih =>
      rw [List.length_cons] at h
      have hlt : pos < b.size := by omega
      obtain ⟨b', hwrite, hsize, hcell, hframe⟩ := ih (b := b.set pos v)
        (by rw [size_set]; omega : pos + 1 + vs.length ≤ (b.set pos v).size)
      refine ⟨b', by rw [writeAll, write_of_lt v hlt]; exact hwrite, hsize, fun k hk => ?_, fun k hk => ?_⟩
      · cases k with
        | zero => rw [Nat.add_zero, hframe pos (by omega), cell_set_self v hlt]; rfl
        | succ k =>
            have hnext := hcell k (by simpa using hk)
            rwa [Nat.add_right_comm] at hnext
      · rw [hframe k (by omega), cell_set_of_ne v (by omega)]

/-- Consecutive cells that run past the end. -/
theorem writeAll_of_gt {b : Buffer α} {vs : List α} (hpos : pos ≤ b.size)
    (h : b.size < pos + vs.length) : b.writeAll pos vs = .error .outOfBounds := by
  induction vs generalizing b pos with
  | nil => simp at h; omega
  | cons v vs ih =>
      rw [List.length_cons] at h
      rw [writeAll]
      by_cases hlt : pos < b.size
      · rw [write_of_lt v hlt]
        exact ih (b := b.set pos v) hlt (by rw [size_set]; omega)
      · rw [write_of_ge v (by omega)]

theorem writeEach_of_lt {b : Buffer α} (pos : ι → Nat) (v : α) (is : List ι)
    (h : ∀ i ∈ is, pos i < b.size) :
    ∃ b', b.writeEach pos v is = .ok b' ∧ b'.size = b.size ∧
      (∀ i ∈ is, b'.cell (pos i) = some v) ∧ ∀ c, (∀ i ∈ is, pos i ≠ c) → b'.cell c = b.cell c := by
  induction is generalizing b with
  | nil => exact ⟨b, rfl, rfl, by simp, by simp⟩
  | cons i is ih =>
      have hlt : pos i < b.size := h i (by simp)
      obtain ⟨b', hwrite, hsize, hcell, hframe⟩ := ih (b := b.set (pos i) v)
        fun j hj => h j (by simp [hj])
      refine ⟨b', ?_, hsize, fun j hj => ?_, fun c hc => ?_⟩
      · rw [writeEach, List.foldlM_cons, write_of_lt v hlt]
        exact hwrite
      · by_cases hlater : ∃ k ∈ is, pos k = pos j
        · obtain ⟨k, hk, hpos⟩ := hlater
          rw [← hpos, hcell k hk]
        · -- the last write to this cell is the first of all
          obtain rfl : j = i := by
            rcases List.mem_cons.mp hj with rfl | hj
            · rfl
            · exact absurd ⟨j, hj, rfl⟩ hlater
          rw [hframe _ fun k hk heq => hlater ⟨k, hk, heq⟩, cell_set_self v hlt]
      · rw [hframe c fun k hk => hc k (by simp [hk]), cell_set_of_ne v (hc i (by simp)).symm]

theorem size_of_writeEach {b b' : Buffer α} {pos : ι → Nat} {v : α} {is : List ι}
    (h : b.writeEach pos v is = .ok b') : b'.size = b.size := by
  induction is generalizing b with
  | nil =>
      obtain rfl := Except.ok.inj h
      rfl
  | cons i is ih =>
      rw [writeEach, List.foldlM_cons] at h
      by_cases hlt : pos i < b.size
      · rw [write_of_lt v hlt] at h
        exact ih (b := b.set (pos i) v) h
      · rw [write_of_ge v (by omega)] at h
        contradiction

/-- The first cells hold `l`. -/
def StartsWith (b : Buffer α) (l : List α) : Prop := ∀ k < l.length, b.cell k = l[k]?

theorem StartsWith.set {b : Buffer α} {l : List α} (h : b.StartsWith l) (v : α)
    (hroom : l.length < b.size) : (b.set l.length v).StartsWith (l ++ [v]) := by
  intro k hk
  by_cases heq : k = l.length
  · rw [heq, cell_set_self v hroom, List.getElem?_concat_length]
  · rw [List.length_append, List.length_singleton] at hk
    rw [cell_set_of_ne v heq, h k (by omega), List.getElem?_append_left (by omega)]

theorem StartsWith.of_append {b : Buffer α} {l l' : List α} (h : b.StartsWith (l ++ l')) :
    b.StartsWith l := fun k hk => by
  rw [h k (by simp; omega), List.getElem?_append_left hk]

theorem StartsWith.writeAll {b : Buffer α} {l vs : List α} (h : b.StartsWith l)
    (hroom : (l ++ vs).length ≤ b.size) :
    ∃ b', b.writeAll l.length vs = .ok b' ∧ b'.size = b.size ∧ b'.StartsWith (l ++ vs) := by
  rw [List.length_append] at hroom
  obtain ⟨b', hwrite, hsize, hcell, hframe⟩ := writeAll_of_le hroom
  refine ⟨b', hwrite, hsize, fun k hk => ?_⟩
  rw [List.length_append] at hk
  by_cases hlt : k < l.length
  · rw [hframe k hlt, h k hlt, List.getElem?_append_left hlt]
  · have hback := hcell (k - l.length) (by omega)
    rw [Nat.add_sub_cancel' (by omega : l.length ≤ k)] at hback
    rw [hback, List.getElem?_append_right (by omega)]

end Buffer

end UclBench
