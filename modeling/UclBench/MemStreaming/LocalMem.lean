import UclBench.MemStreaming.Kernel
import Mathlib.Tactic.Ring

/-!
# UclBench.MemStreaming.LocalMem

What one work item does to the memory it can reach, in exact arithmetic.

* `step_frame` — an access changes no more than the element it writes;
* `run_streaming` — the streaming loops add 10000 to every element they visit;
* `run_after` — behind the barrier a work item adds its share to its cell of
  `output`, provided the arrays hold their initial values.
-/

namespace UclBench.MemStreaming

open Function

/-! ## the memory a work item reaches -/

/-- The arrays of the group, the private register in which sums are evaluated,
and `output[gid]`. -/
structure Item where
  cells : Arr → Nat → Nat → Option ℚ
  acc : Option (Nat → ℚ)
  out : ℚ

/-- `s1[ELEMENTS]` and `s2[2*ELEMENTS]` -/
def extent (elements : Nat) : Arr → Nat
  | .fst => elements
  | .snd => 2 * elements

@[simp] theorem extent_fst : extent elements .fst = elements := rfl

@[simp] theorem extent_snd : extent elements .snd = 2 * elements := rfl

/-- An element of an array, once all its components are set. -/
def Item.read (v : Item) (width elements : Nat) (a : Arr) (idx : Nat) : Except Fault (Nat → ℚ) :=
  if idx < extent elements a then
    if ∀ c < width, (v.cells a idx c).isSome then .ok fun c => (v.cells a idx c).getD 0
    else .error .uninitialised
  else .error .outOfBounds

def Item.setElement (v : Item) (a : Arr) (idx : Nat) (x : Nat → Option ℚ) : Item :=
  { v with cells := update v.cells a (update (v.cells a) idx x) }

/-- One access. -/
def step (width elements : Nat) (v : Item) : Access → Except Fault Item
  | .put a idx c q =>
      if idx < extent elements a ∧ c < width then
        .ok (v.setElement a idx (update (v.cells a idx) c (some q)))
      else .error .outOfBounds
  | .load a idx =>
      match v.read width elements a idx with
      | .ok x => .ok { v with acc := some x }
      | .error f => .error f
  | .add a idx =>
      match v.acc, v.read width elements a idx with
      | some y, .ok x => .ok { v with acc := some fun c => y c + x c }
      | none, .ok _ => .error .uninitialised
      | _, .error f => .error f
  | .store a idx =>
      match v.acc with
      | some y =>
          if idx < extent elements a then .ok (v.setElement a idx fun c => some (y c))
          else .error .outOfBounds
      | none => .error .uninitialised
  | .emit a idx cs =>
      match v.read width elements a idx with
      | .ok x => .ok { v with out := v.out + (cs.map x).sum }
      | .error f => .error f

/-- The element an access changes. -/
def Access.written : Access → Option (Arr × Nat)
  | .put a idx _ _ | .store a idx => some (a, idx)
  | .load .. | .add .. | .emit .. => none

section
variable {width elements idx k : Nat} {v v' : Item} {a b : Arr} {x : Nat → Option ℚ}

@[simp] theorem setElement_cells_self : (v.setElement a idx x).cells a idx = x := by
  simp [Item.setElement]

theorem setElement_cells_of_ne (h : b = a → k ≠ idx) :
    (v.setElement a idx x).cells b k = v.cells b k := by
  by_cases hb : b = a
  · subst hb
    simp [Item.setElement, update_of_ne (h rfl)]
  · simp [Item.setElement, update_of_ne hb]

@[simp] theorem setElement_acc : (v.setElement a idx x).acc = v.acc := rfl

@[simp] theorem setElement_out : (v.setElement a idx x).out = v.out := rfl

theorem read_of_cells {q : ℚ} (hidx : idx < extent elements a)
    (hq : ∀ c < width, v.cells a idx c = some q) :
    ∃ x, v.read width elements a idx = .ok x ∧ ∀ c < width, x c = q := by
  have hall : ∀ c < width, (v.cells a idx c).isSome := fun c hc => by simp [hq c hc]
  have hread : v.read width elements a idx = .ok fun c => (v.cells a idx c).getD 0 := by
    simp only [Item.read, if_pos hidx, if_pos hall]
  exact ⟨_, hread, fun c hc => by simp [hq c hc]⟩

/-- A successful access changes the array element it writes and nothing else
in the arrays. -/
theorem step_frame {y : Access} (h : step width elements v y = .ok v')
    (hy : y.written ≠ some (a, k)) : v'.cells a k = v.cells a k := by
  have hne {b : Arr} {idx : Nat} (hw : some (b, idx) ≠ some (a, k)) : a = b → k ≠ idx := by
    rintro rfl rfl
    exact hw rfl
  cases y with
  | put b idx c q =>
      simp only [step] at h
      split at h
      · rw [← Except.ok.inj h, setElement_cells_of_ne (hne hy)]
      · contradiction
  | load b idx =>
      simp only [step] at h
      split at h
      · rw [← Except.ok.inj h]
      · contradiction
  | add b idx =>
      simp only [step] at h
      split at h
      · rw [← Except.ok.inj h]
      all_goals contradiction
  | store b idx =>
      simp only [step] at h
      split at h
      · split at h
        · rw [← Except.ok.inj h, setElement_cells_of_ne (hne hy)]
        · contradiction
      · contradiction
  | emit b idx cs =>
      simp only [step] at h
      split at h
      · rw [← Except.ok.inj h]
      · contradiction

end

/-! ## streaming -/

section
variable {width elements idx n : Nat} {v₀ v : Item}

/-- What the streaming loops rely on: the second array holds its initial
values. -/
def SndInitial (width elements : Nat) (v : Item) : Prop :=
  ∀ k < 2 * elements, ∀ c < width, v.cells .snd k c = some (initial .snd)

/-- Since `v₀`, element `idx` of the first array has been set to `n`, and
nothing else has happened. -/
structure Streamed (width idx : Nat) (v₀ : Item) (n : Nat) (v : Item) : Prop where
  value : ∀ c < width, v.cells .fst idx c = some (n : ℚ)
  frame : ∀ b k, (b = .fst → k ≠ idx) → v.cells b k = v₀.cells b k
  out : v.out = v₀.out

/-- One streaming statement adds `0.5 + 0.5` to every component. -/
theorem run_stream (hidx : idx < elements) (hsnd : SndInitial width elements v₀)
    (hv : Streamed width idx v₀ n v) :
    ∃ v', run (step width elements) (stream idx) v = .ok v' ∧
      Streamed width idx v₀ (n + 1) v' := by
  have hsnd' (k : Nat) (hk : k < 2 * elements) :
      ∃ x, v.read width elements .snd k = .ok x ∧ ∀ c < width, x c = initial .snd := by
    refine read_of_cells hk fun c hc => ?_
    rw [hv.frame .snd k (by simp), hsnd k hk c hc]
  obtain ⟨x₁, hread₁, hx₁⟩ := read_of_cells (a := .fst) hidx hv.value
  obtain ⟨x₂, hread₂, hx₂⟩ := hsnd' idx (by omega)
  obtain ⟨x₃, hread₃, hx₃⟩ := hsnd' (2 * idx) (by omega)
  -- the register after each operand
  let acc (y : Nat → ℚ) : Item := { v with acc := some y }
  have hload : step width elements v (.load .fst idx) = .ok (acc x₁) := by
    simp only [step, hread₁, acc]
  have hadd (y z : Nat → ℚ) (k : Nat) (hz : v.read width elements .snd k = .ok z) :
      step width elements (acc y) (.add .snd k) = .ok (acc fun c => y c + z c) := by
    have hread : (acc y).read width elements .snd k = .ok z := hz
    simp only [step, hread, acc]
  let total (c : Nat) : ℚ := x₁ c + x₂ c + x₃ c
  have hstore : step width elements (acc total) (.store .fst idx) =
      .ok ((acc total).setElement .fst idx fun c => some (total c)) := by
    simp [step, acc, hidx]
  have hrun : run (step width elements) (stream idx) v =
      .ok ((acc total).setElement .fst idx fun c => some (total c)) := by
    rw [stream, run_cons hload, run_cons (hadd _ _ _ hread₂), run_cons (hadd _ _ _ hread₃),
      run_cons hstore, run_nil]
  refine ⟨_, hrun, fun c hc => ?_, fun b k hbk => ?_, hv.out⟩
  · have htotal : total c = n + 1 / 2 + 1 / 2 := by
      simp only [total, hx₁ c hc, hx₂ c hc, hx₃ c hc, initial]
    rw [setElement_cells_self, htotal, add_assoc]
    norm_num
  · rw [setElement_cells_of_ne hbk]
    exact hv.frame b k hbk

/-- The body of the streaming loop: 100 passes of 100 statements. -/
theorem run_stream_block (hidx : idx < elements) (hsnd : SndInitial width elements v₀)
    (hv : Streamed width idx v₀ 0 v) :
    ∃ v', run (step width elements) (repeated 100 (repeated 100 (stream idx))) v = .ok v' ∧
      Streamed width idx v₀ 10000 v' := by
  have hpass (i : Nat) (w : Item) (hw : Streamed width idx v₀ (100 * i) w) :
      ∃ v', run (step width elements) (repeated 100 (stream idx)) w = .ok v' ∧
        Streamed width idx v₀ (100 * (i + 1)) v' :=
    run_repeated (Streamed width idx v₀) (fun _ _ => run_stream hidx hsnd) 100 hw
  exact run_repeated (k := 0) (fun i => Streamed width idx v₀ (100 * i)) hpass 100 hv

/-- The streaming loops over distinct elements: those visited hold 10000, the
others are as before. -/
structure Visited (width : Nat) (v₀ : Item) (done : List Nat) (v : Item) : Prop where
  value : ∀ k ∈ done, ∀ c < width, v.cells .fst k c = some 10000
  frame : ∀ b k, (b = .fst → k ∉ done) → v.cells b k = v₀.cells b k
  out : v.out = v₀.out

theorem run_streaming {l : List Nat} (hnodup : l.Nodup) (hlt : ∀ k ∈ l, k < elements)
    (hsnd : SndInitial width elements v)
    (hfst : ∀ k ∈ l, ∀ c < width, v.cells .fst k c = some (initial .fst)) :
    ∃ v', run (step width elements)
        (l.flatMap fun idx => repeated 100 (repeated 100 (stream idx))) v = .ok v' ∧
      Visited width v l v' := by
  refine run_flatMap l (Visited width v) ?_ ⟨by simp, fun _ _ _ => rfl, rfl⟩
  intro done idx hpre w hw
  have hmem : idx ∈ l := hpre.subset (by simp)
  have hnew : idx ∉ done := by
    have hdone := hnodup.sublist hpre.sublist
    grind [List.nodup_append]
  have hsnd' : SndInitial width elements w := fun k hk c hc => by
    rw [hw.frame .snd k (by simp), hsnd k hk c hc]
  have hstart : Streamed width idx w 0 w :=
    ⟨fun c hc => by rw [hw.frame .fst idx fun _ => hnew, hfst idx hmem c hc]; rfl,
      fun _ _ _ => rfl, rfl⟩
  obtain ⟨w', hrun, hw'⟩ := run_stream_block (hlt idx hmem) hsnd' hstart
  refine ⟨w', hrun, fun k hk c hc => ?_, fun b k hbk => ?_, hw'.out.trans hw.out⟩
  · by_cases hidx : k = idx
    · subst hidx
      exact hw'.value c hc
    · rw [hw'.frame .fst k fun _ => hidx]
      exact hw.value k (by simpa [hidx] using hk) c hc
  · rw [hw'.frame b k (by grind), hw.frame b k (by grind)]

end

/-! ## the sums -/

/-- The final loop adds the components of every element. -/
theorem run_emits {l cs : List Nat} {q : ℚ} (hlt : ∀ k ∈ l, k < elements)
    (hcs : ∀ c ∈ cs, c < width) (hq : ∀ k ∈ l, ∀ c < width, v.cells .fst k c = some q) :
    ∃ v', run (step width elements) (l.map fun idx => .emit .fst idx cs) v = .ok v' ∧
      v'.out = v.out + l.length * (cs.length * q) := by
  let Inv (done : List Nat) (w : Item) : Prop :=
    w.cells = v.cells ∧ w.out = v.out + done.length * (cs.length * q)
  have hblock (done : List Nat) (idx : Nat) (hpre : done ++ [idx] <+: l) (w : Item)
      (hw : Inv done w) : ∃ v', run (step width elements) [.emit .fst idx cs] w = .ok v' ∧
        Inv (done ++ [idx]) v' := by
    have hmem : idx ∈ l := hpre.subset (by simp)
    obtain ⟨x, hread, hx⟩ := read_of_cells (v := w) (a := .fst) (hlt idx hmem) fun c hc => by
      rw [hw.1, hq idx hmem c hc]
    have hsum : (cs.map x).sum = cs.length * q := by
      rw [List.map_congr_left fun c hc => hx c (hcs c hc)]
      simp
    have hemit : step width elements w (.emit .fst idx cs) =
        .ok { w with out := w.out + (cs.map x).sum } := by
      simp only [step, hread]
    have hrun : run (step width elements) [.emit .fst idx cs] w =
        .ok { w with out := w.out + (cs.map x).sum } := by
      rw [run_cons hemit, run_nil]
    refine ⟨_, hrun, hw.1, ?_⟩
    simp only [hw.2, hsum, List.length_append, List.length_singleton]
    push_cast
    ring
  obtain ⟨v', hrun, -, hout⟩ := run_flatMap l Inv hblock ⟨rfl, by simp⟩
  exact ⟨v', by rw [List.map_eq_flatMap, hrun], hout⟩

/-- A work item behind the barrier: every element it visits contributes 10000
for each of its components. -/
theorem run_after {first : Nat} (hvec : vec ≤ 4) (hstep : 0 < stride)
    (hsnd : SndInitial (2 ^ vec) elements v)
    (hfst : ∀ k ∈ strided first elements stride, ∀ c < 2 ^ vec,
      v.cells .fst k c = some (initial .fst)) :
    ∃ v', run (step (2 ^ vec) elements) (body vec elements first stride).after v = .ok v' ∧
      v'.out = v.out + (strided first elements stride).length * (10000 * 2 ^ vec) := by
  have hlt : ∀ k ∈ strided first elements stride, k < elements := fun k hk =>
    ((mem_strided hstep).mp hk).2.1
  obtain ⟨w, hrun, hw⟩ := run_streaming (nodup_strided hstep first elements) hlt hsnd hfst
  have hcs : ∀ c ∈ components vec, c < 2 ^ vec := fun c => (mem_components hvec).mp
  obtain ⟨v', hemits, hout⟩ := run_emits hlt hcs hw.value
  refine ⟨v', by rw [body, run_append hrun, hemits], ?_⟩
  rw [hout, hw.out, length_components hvec]
  push_cast
  ring

end UclBench.MemStreaming
