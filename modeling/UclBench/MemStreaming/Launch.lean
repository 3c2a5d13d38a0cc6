import UclBench.MemStreaming.LocalMem
import Mathlib.Algebra.BigOperators.Fin

/-!
# UclBench.MemStreaming.Launch

What a launch of `local_mem` computes.

Every work-group has its own `s1` and `s2`, and every work item its cell of
`output`.  The work items of a group run in any order up to the barrier, and
again in any order behind it; the groups run in any order.

* `run_before` — whatever the order, the initialisation sets every component;
* `run_behind` — behind the barrier the work items do not disturb each other,
  so each adds its own share;
* `localMem_launch` — the launch.
-/

namespace UclBench.MemStreaming

open Function

/-! ## work-groups and launches -/

/-- A work-group of `L` items: local memory, and what the items own, by local
id. -/
structure Group (L : Nat) where
  cells : Arr → Nat → Nat → Option ℚ
  acc : Fin L → Option (Nat → ℚ)
  out : Fin L → ℚ

/-- What work item `id` reaches. -/
def Group.item (m : Group L) (id : Fin L) : Item := ⟨m.cells, m.acc id, m.out id⟩

/-- One access by a work item of the group. -/
def groupStep (width elements : Nat) (m : Group L) : Fin L × Access → Except Fault (Group L)
  | (id, x) => match step width elements (m.item id) x with
    | .ok v => .ok ⟨v.cells, update m.acc id v.acc, update m.out id v.out⟩
    | .error f => .error f

/-- A launch of `G` work-groups. -/
structure Launch (G L : Nat) where
  cells : Fin G → Arr → Nat → Nat → Option ℚ
  acc : Fin G → Fin L → Option (Nat → ℚ)
  output : Nat → ℚ

/-- `get_global_id(0)` -/
def globalId (g : Fin G) (id : Fin L) : Nat := g * L + id

/-- What group `g` reaches. -/
def Launch.group (s : Launch G L) (g : Fin G) : Group L :=
  ⟨s.cells g, s.acc g, fun id => s.output (globalId g id)⟩

/-- One access by a work item of some group. -/
def launchStep (width elements : Nat) (s : Launch G L) :
    Fin G × Fin L × Access → Except Fault (Launch G L)
  | (g, id, x) => match groupStep width elements (s.group g) (id, x) with
    | .ok m => .ok ⟨update s.cells g m.cells, update s.acc g m.acc,
        update s.output (globalId g id) (m.out id)⟩
    | .error f => .error f

/-- The work items of a group meet at the barrier: all accesses before it
precede all accesses behind it, and that is the only order between items. -/
def GroupTrace (programs : Fin L → Program) (τ : List (Fin L × Access)) : Prop :=
  ∃ τ₁ τ₂, τ = τ₁ ++ τ₂ ∧ Interleaves (fun id => (programs id).before) τ₁ ∧
    Interleaves (fun id => (programs id).after) τ₂

section
variable {G L width elements : Nat} {m m' : Group L} {id : Fin L} {x : Access}

theorem groupStep_of_step {v : Item} (h : step width elements (m.item id) x = .ok v) :
    groupStep width elements m (id, x) =
      .ok ⟨v.cells, update m.acc id v.acc, update m.out id v.out⟩ := by
  simp only [groupStep, h]

/-- An access by one work item leaves the cells of the others alone. -/
theorem groupStep_out_of_ne {j : Fin L} (h : groupStep width elements m (id, x) = .ok m')
    (hj : j ≠ id) : m'.out j = m.out j := by
  simp only [groupStep] at h
  split at h
  · rw [← Except.ok.inj h]
    simp [hj]
  · contradiction

theorem globalId_inj {g g' : Fin G} {id id' : Fin L} :
    globalId g id = globalId g' id' ↔ g = g' ∧ id = id' := by
  constructor
  · intro h
    have hdiv := congrArg (· / L) h
    have hmod := congrArg (· % L) h
    have hL : 0 < L := id.pos
    simp only [globalId, Nat.mul_comm _ L, Nat.mul_add_div hL, Nat.mul_add_mod,
      Nat.div_eq_of_lt id.isLt, Nat.div_eq_of_lt id'.isLt, Nat.mod_eq_of_lt id.isLt,
      Nat.mod_eq_of_lt id'.isLt] at hdiv hmod
    exact ⟨Fin.ext (by simpa using hdiv), Fin.ext hmod⟩
  · rintro ⟨rfl, rfl⟩
    rfl

/-- An access that succeeds in its group succeeds in the launch, and leaves
the other groups alone. -/
theorem launchStep_of_groupStep {s : Launch G L} {g : Fin G}
    (h : groupStep width elements (s.group g) (id, x) = .ok m') :
    ∃ s', launchStep width elements s (g, id, x) = .ok s' ∧ s'.group g = m' ∧
      ∀ g', g' ≠ g → s'.group g' = s.group g' := by
  have hlaunch : launchStep width elements s (g, id, x) =
      .ok ⟨update s.cells g m'.cells, update s.acc g m'.acc,
        update s.output (globalId g id) (m'.out id)⟩ := by
    simp only [launchStep, h]
  refine ⟨_, hlaunch, ?_, fun g' hg' => ?_⟩
  · obtain ⟨cells, acc, out⟩ := m'
    simp only [Launch.group, update_self, Group.mk.injEq, true_and]
    funext j
    by_cases hj : j = id
    · rw [hj, update_self]
    · rw [update_of_ne (by simp [globalId_inj, hj])]
      exact (groupStep_out_of_ne h hj).symm
  · simp only [Launch.group, update_of_ne hg', Group.mk.injEq, true_and]
    funext j
    rw [update_of_ne (by simp [globalId_inj, hg'])]

end

/-! ## there are orders -/

theorem exists_groupTrace (programs : Fin L → Program) : ∃ τ, GroupTrace programs τ := by
  obtain ⟨τ₁, hτ₁⟩ := exists_interleaves fun id => (programs id).before
  obtain ⟨τ₂, hτ₂⟩ := exists_interleaves fun id => (programs id).after
  exact ⟨τ₁ ++ τ₂, τ₁, τ₂, rfl, hτ₁, hτ₂⟩

theorem exists_launchTrace (G : Nat) (programs : Fin L → Program) :
    ∃ τ : List (Fin G × Fin L × Access), ∀ g, GroupTrace programs (proj g τ) := by
  obtain ⟨log, hlog⟩ := exists_groupTrace programs
  obtain ⟨τ, hτ⟩ := exists_interleaves fun _ : Fin G => log
  exact ⟨τ, fun g => hτ g ▸ hlog⟩

/-! ## up to the barrier -/

/-- Work item `id` initialises element `k` of the array. -/
def Initialises (elements L id : Nat) (a : Arr) (k : Nat) : Prop :=
  k ∈ strided id elements L ∨ a = .snd ∧ k ∈ strided (id + elements) (elements * 2) L

theorem mem_before {id : Nat} {x : Access} : x ∈ (localMem vec elements L id).before ↔
    ∃ a k, Initialises elements L id a k ∧ ∃ c ∈ components vec, x = .put a k c (initial a) := by
  simp only [localMem, body, Initialises, List.mem_append, List.mem_flatMap, mem_putAll]
  constructor
  · rintro (⟨k, hk, hx | hx⟩ | ⟨k, hk, hx⟩)
    · exact ⟨.snd, k, .inl hk, hx⟩
    · exact ⟨.fst, k, .inl hk, hx⟩
    · exact ⟨.snd, k, .inr ⟨rfl, hk⟩, hx⟩
  · rintro ⟨a, k, hk | ⟨rfl, hk⟩, hx⟩
    · cases a with
      | fst => exact .inl ⟨k, hk, .inr hx⟩
      | snd => exact .inl ⟨k, hk, .inl hx⟩
    · exact .inr ⟨k, hk, hx⟩

theorem Initialises.lt {id : Nat} (h : Initialises elements L id a k) (hL : 0 < L) :
    k < extent elements a := by
  rcases h with h | ⟨rfl, h⟩
  · have hlt := ((mem_strided hL).mp h).2.1
    cases a with
    | fst => exact hlt
    | snd => rw [extent_snd]; omega
  · have hlt := ((mem_strided hL).mp h).2.1
    rw [extent_snd]
    omega

/-- The two loops together reach every element, each through one work item. -/
theorem existsUnique_initialises (hL : 0 < L) (hk : k < extent elements a) :
    ∃! id, id < L ∧ Initialises elements L id a k := by
  by_cases hlow : k < elements
  · have hfirst (id : Nat) : Initialises elements L id a k ↔ k ∈ strided (id + 0) elements L := by
      simp only [Initialises, mem_strided hL]
      grind
    simp only [hfirst]
    exact existsUnique_strided hL (Nat.zero_le k) hlow
  · have ha : a = .snd := by
      cases a with
      | fst => exact absurd hk hlow
      | snd => rfl
    subst ha
    have hsecond (id : Nat) :
        Initialises elements L id .snd k ↔ k ∈ strided (id + elements) (elements * 2) L := by
      simp only [Initialises, mem_strided hL]
      grind
    simp only [hsecond]
    rw [extent_snd] at hk
    exact existsUnique_strided hL (by omega) (by omega)

/-- Initial values, assigned in bounds. -/
def InitialPut (width elements : Nat) (x : Access) : Prop :=
  ∃ a k c, x = .put a k c (initial a) ∧ k < extent elements a ∧ c < width

theorem step_initialPut {a : Arr} {k c : Nat} (hk : k < extent elements a) (hc : c < width) (v : Item) :
    step width elements v (.put a k c (initial a)) =
      .ok (v.setElement a k (update (v.cells a k) c (some (initial a)))) := by
  simp only [step, if_pos (And.intro hk hc)]

theorem launchStep_of_initialPut {e : Fin G × Fin L × Access} (h : InitialPut width elements e.2.2)
    (s : Launch G L) : ∃ s', launchStep width elements s e = .ok s' := by
  obtain ⟨g, id, x⟩ := e
  obtain ⟨a, k, c, rfl, hk, hc⟩ := h
  obtain ⟨s', hs, -⟩ := launchStep_of_groupStep (groupStep_of_step (step_initialPut hk hc _))
  exact ⟨s', hs⟩

/-- Such assignments set the components they name and keep those that are
set. -/
theorem run_puts {τ : List (Fin L × Access)} (hτ : ∀ e ∈ τ, InitialPut width elements e.2)
    (m : Group L) : ∃ m', run (groupStep width elements) τ m = .ok m' ∧ m'.out = m.out ∧
      ∀ a k c, (m.cells a k c = some (initial a) ∨
        ∃ id, (id, Access.put a k c (initial a)) ∈ τ) → m'.cells a k c = some (initial a) := by
  induction τ generalizing m with
  | nil => exact ⟨m, rfl, rfl, by simp⟩
  | cons e τ ih =>
      obtain ⟨id, x⟩ := e
      obtain ⟨a, k, c, rfl, hk, hc⟩ := hτ _ List.mem_cons_self
      let w : Item := (m.item id).setElement a k (update (m.cells a k) c (some (initial a)))
      have hput : step width elements (m.item id) (.put a k c (initial a)) = .ok w :=
        step_initialPut hk hc _
      obtain ⟨m', hrun, hout, hcells⟩ := ih (fun e he => hτ e (List.mem_cons_of_mem _ he))
        ⟨w.cells, update m.acc id w.acc, update m.out id w.out⟩
      refine ⟨m', by rw [run_cons (groupStep_of_step hput), hrun], ?_, fun b j d h => ?_⟩
      · rw [hout]
        exact update_eq_self id m.out
      · refine hcells b j d ?_
        by_cases hsame : b = a ∧ j = k ∧ d = c
        · obtain ⟨rfl, rfl, rfl⟩ := hsame
          simp [w]
        · -- the assignment leaves the other components alone
          have hcell : w.cells b j d = m.cells b j d := by
            by_cases hbj : b = a ∧ j = k
            · obtain ⟨rfl, rfl⟩ := hbj
              have hd : d ≠ c := by grind
              simp [w, update_of_ne hd]
            · rw [setElement_cells_of_ne (by grind)]
              rfl
          grind

/-- Before the barrier there are no other accesses, -/
theorem initialPut_of_interleaves {τ : List (Fin L × Access)} (hvec : vec ≤ 4) (hL : 0 < L)
    (hτ : Interleaves (fun id : Fin L => (localMem vec elements L id).before) τ) :
    ∀ e ∈ τ, InitialPut (2 ^ vec) elements e.2 := by
  intro e he
  obtain ⟨a, k, hinit, c, hc, hx⟩ := mem_before.mp (hτ.mem (i := e.1) he)
  exact ⟨a, k, c, hx, hinit.lt hL, (mem_components hvec).mp hc⟩

/-- and every component is assigned. -/
theorem exists_put_of_interleaves {τ : List (Fin L × Access)} (hL : 0 < L)
    (hτ : Interleaves (fun id : Fin L => (localMem vec elements L id).before) τ)
    (hk : k < extent elements a) (hc : c ∈ components vec) :
    ∃ id, (id, Access.put a k c (initial a)) ∈ τ := by
  obtain ⟨id, ⟨hid, hinit⟩, -⟩ := existsUnique_initialises hL hk
  have hput : Access.put a k c (initial a) ∈ (localMem vec elements L id).before :=
    mem_before.mpr ⟨a, k, hinit, c, hc, rfl⟩
  exact ⟨⟨id, hid⟩, mem_proj.mp ((hτ ⟨id, hid⟩).symm ▸ hput)⟩

/-- **Initialisation**: in whatever order, the accesses before the barrier set
every component of both arrays. -/
theorem run_before {τ : List (Fin L × Access)} (hvec : vec ≤ 4) (hL : 0 < L)
    (hτ : Interleaves (fun id : Fin L => (localMem vec elements L id).before) τ) (m : Group L) :
    ∃ m', run (groupStep (2 ^ vec) elements) τ m = .ok m' ∧ m'.out = m.out ∧
      ∀ a, ∀ k < extent elements a, ∀ c < 2 ^ vec, m'.cells a k c = some (initial a) := by
  obtain ⟨m', hrun, hout, hcells⟩ := run_puts (initialPut_of_interleaves hvec hL hτ) m
  refine ⟨m', hrun, hout, fun a k hk c hc => hcells a k c (.inr ?_)⟩
  exact exists_put_of_interleaves hL hτ hk ((mem_components hvec).mpr hc)

/-! ## behind the barrier -/

/-- Work item `id` keeps to its own elements of the first array, and only
reads the second. -/
structure Apart (elements L id : Nat) (x : Access) : Prop where
  fst : ∀ k, x.target = (.fst, k) → k % L = id
  snd : ∀ k, x.target = (.snd, k) → k < 2 * elements
  written : ∀ a k, x.written = some (a, k) → a = .fst ∧ k % L = id

theorem apart_of_mem_after {id : Nat} {x : Access} (hid : id < L)
    (hx : x ∈ (localMem vec elements L id).after) : Apart elements L id x := by
  have hcases : ∃ k ∈ strided id elements L, x ∈ stream k ∨ x = .emit .fst k (components vec) := by
    simp only [localMem, body, List.mem_append, List.mem_flatMap, mem_repeated, List.mem_map] at hx
    grind
  obtain ⟨k, hk, hx⟩ := hcases
  obtain ⟨hlt, hmod⟩ := (mem_strided_id hid).mp hk
  simp only [stream, List.mem_cons, List.not_mem_nil, or_false] at hx
  constructor <;> rcases hx with (rfl | rfl | rfl | rfl) | rfl <;>
    grind [Access.target, Access.written]

/-- What work item `id` sees behind the barrier: its elements of the first
array, all of the second. -/
def Item.mask (L id : Nat) (v : Item) : Item :=
  { v with cells := fun a k => if a = .fst ∧ k % L ≠ id then fun _ => none else v.cells a k }

section
variable {width elements L id : Nat} {x : Access} {v v' : Item}

theorem mask_cells (h : a = .fst → k % L = id) : (v.mask L id).cells a k = v.cells a k :=
  if_neg (by grind)

theorem read_mask (h : a = .fst → k % L = id) :
    (v.mask L id).read width elements a k = v.read width elements a k := by
  simp only [Item.read, mask_cells h]

theorem mask_setElement {y : Nat → Option ℚ} (h : a = .fst → k % L = id) :
    (v.mask L id).setElement a k y = (v.setElement a k y).mask L id := by
  simp only [Item.setElement, Item.mask, Item.mk.injEq, and_true]
  funext b j
  by_cases hbj : b = a ∧ j = k
  · obtain ⟨rfl, rfl⟩ := hbj
    have hown : ¬ (b = .fst ∧ j % L ≠ id) := by grind
    simp [hown]
  · by_cases hb : b = a
    · subst hb
      have hj : j ≠ k := by grind
      simp [hj]
    · simp [hb]

/-- What an access to an own element does is the same on what the item sees. -/
theorem step_mask (hx : Apart elements L id x) :
    step width elements (v.mask L id) x = (step width elements v x).map (Item.mask L id) := by
  have hown (a : Arr) (k : Nat) (ht : x.target = (a, k)) (ha : a = .fst) : k % L = id :=
    hx.fst k (ha ▸ ht)
  cases x with
  | put a k c q =>
      simp only [step, mask_cells (hown a k rfl), mask_setElement (hown a k rfl)]
      by_cases hk : k < extent elements a ∧ c < width <;> simp [hk, Except.map]
  | load a k =>
      simp only [step, read_mask (hown a k rfl)]
      cases v.read width elements a k <;> rfl
  | add a k =>
      simp only [step, read_mask (hown a k rfl)]
      have hacc : (v.mask L id).acc = v.acc := rfl
      rw [hacc]
      cases v.read width elements a k <;> cases v.acc <;> rfl
  | store a k =>
      have hacc : (v.mask L id).acc = v.acc := rfl
      simp only [step, hacc, mask_setElement (hown a k rfl)]
      cases v.acc with
      | none => rfl
      | some y => by_cases hk : k < extent elements a <;> simp [hk, Except.map]
  | emit a k cs =>
      simp only [step, read_mask (hown a k rfl)]
      cases v.read width elements a k <;> rfl

/-- The others do not see it. -/
theorem mask_of_step {j : Nat} (hx : Apart elements L id x)
    (h : step width elements v x = .ok v') (hj : j ≠ id) (acc : Option (Nat → ℚ)) (out : ℚ) :
    (Item.mk v'.cells acc out).mask L j = (Item.mk v.cells acc out).mask L j := by
  simp only [Item.mask, Item.mk.injEq, and_true]
  funext a k
  by_cases hown : a = .fst ∧ k % L ≠ j
  · rw [if_pos hown, if_pos hown]
  · rw [if_neg hown, if_neg hown]
    refine step_frame h fun hw => ?_
    obtain ⟨ha, hk⟩ := hx.written a k hw
    exact hown ⟨ha, by omega⟩

end

/-- An access that succeeds on what its work item sees succeeds in the group,
and the other work items see no change. -/
theorem groupStep_of_mask {m : Group L} {id : Fin L} {x : Access} {w : Item}
    (hx : Apart elements L id x) (h : step width elements ((m.item id).mask L id) x = .ok w) :
    ∃ m', groupStep width elements m (id, x) = .ok m' ∧ (m'.item id).mask L id = w ∧
      ∀ j, j ≠ id → (m'.item j).mask L j = (m.item j).mask L j := by
  rw [step_mask hx] at h
  cases hv : step width elements (m.item id) x with
  | error f => simp only [hv, Except.map] at h; contradiction
  | ok v =>
      simp only [hv, Except.map, Except.ok.injEq] at h
      refine ⟨_, groupStep_of_step hv, ?_, fun j hj => ?_⟩
      · simpa [Group.item] using h
      · have hne : (j : Nat) ≠ id := fun heq => hj (Fin.ext heq)
        simpa [Group.item, hj] using mask_of_step hx hv hne (m.acc j) (m.out j)

/-- **Streaming**: in whatever order, the accesses behind the barrier add
10000 to `output[gid]` for each component of each element of the work item. -/
theorem run_behind {τ : List (Fin L × Access)} (hvec : vec ≤ 4)
    (hτ : Interleaves (fun id : Fin L => (localMem vec elements L id).after) τ) {m : Group L}
    (hm : ∀ a, ∀ k < extent elements a, ∀ c < 2 ^ vec, m.cells a k c = some (initial a)) :
    ∃ m', run (groupStep (2 ^ vec) elements) τ m = .ok m' ∧
      ∀ id, m'.out id = m.out id + Nat.count (· % L = id) elements * (10000 * 2 ^ vec) := by
  have halone (id : Fin L) : ∃ v, run (step (2 ^ vec) elements) (proj id τ)
      ((m.item id).mask L id) = .ok v ∧
      v.out = m.out id + Nat.count (· % L = id) elements * (10000 * 2 ^ vec) := by
    have hsnd : SndInitial (2 ^ vec) elements ((m.item id).mask L id) := fun k hk c hc => by
      rw [mask_cells (by simp)]
      exact hm .snd k hk c hc
    have hfst : ∀ k ∈ strided id elements L, ∀ c < 2 ^ vec,
        ((m.item id).mask L id).cells .fst k c = some (initial .fst) := fun k hk c hc => by
      obtain ⟨hlt, hmod⟩ := (mem_strided_id id.isLt).mp hk
      rw [mask_cells fun _ => hmod]
      exact hm .fst k hlt c hc
    obtain ⟨v, hrun, hout⟩ := run_after hvec id.pos hsnd hfst
    rw [length_strided_id id.isLt] at hout
    exact ⟨v, by rw [hτ id]; exact hrun, hout⟩
  choose b hrun hout using halone
  have hstep (id : Fin L) (x : Access) (hmem : (id, x) ∈ τ) (m : Group L) (v : Item)
      (h : step (2 ^ vec) elements ((m.item id).mask L id) x = .ok v) :=
    groupStep_of_mask (apart_of_mem_after id.isLt (hτ.mem hmem)) h
  obtain ⟨m', hτrun, hview⟩ := run_compose (fun id (m : Group L) => (m.item id).mask L id)
    (fun _ => step (2 ^ vec) elements) hstep hrun
  exact ⟨m', hτrun, fun id => (congrArg Item.out (hview id)).trans (hout id)⟩

/-! ## the launch -/

/-- A whole group, from any memory. -/
theorem run_group {τ : List (Fin L × Access)} (hvec : vec ≤ 4) (hL : 0 < L)
    (hτ : GroupTrace (fun id : Fin L => localMem vec elements L id) τ) (m : Group L) :
    ∃ m', run (groupStep (2 ^ vec) elements) τ m = .ok m' ∧
      ∀ id, m'.out id = m.out id + Nat.count (· % L = id) elements * (10000 * 2 ^ vec) := by
  obtain ⟨τ₁, τ₂, rfl, hbefore, hafter⟩ := hτ
  obtain ⟨m₁, hrun₁, hout₁, hcells⟩ := run_before hvec hL hbefore m
  obtain ⟨m₂, hrun₂, hout₂⟩ := run_behind hvec hafter hcells
  exact ⟨m₂, by rw [run_append hrun₁, hrun₂], fun id => by rw [hout₂, hout₁]⟩

/-- A whole launch: the groups follow their own traces, in any order. -/
theorem run_launch {τ : List (Fin G × Fin L × Access)} (hvec : vec ≤ 4) (hL : 0 < L)
    (hτ : ∀ g, GroupTrace (fun id : Fin L => localMem vec elements L id) (proj g τ))
    (s : Launch G L) :
    ∃ s', run (launchStep (2 ^ vec) elements) τ s = .ok s' ∧
      ∀ (g : Fin G) (id : Fin L), s'.output (globalId g id) =
        s.output (globalId g id) + Nat.count (· % L = id) elements * (10000 * 2 ^ vec) := by
  choose b hrun hout using fun g => run_group hvec hL (hτ g) (s.group g)
  obtain ⟨s', hτrun, hview⟩ := run_compose (fun g (s : Launch G L) => s.group g)
    (fun _ => groupStep (2 ^ vec) elements)
    (fun _ _ _ _ _ h => launchStep_of_groupStep h) hrun
  exact ⟨s', hτrun, fun g id => (congrArg (Group.out · id) (hview g)).trans (hout g id)⟩

/-- **`local_mem`**, for every vector width, number of elements, local size and
number of groups.  Before the barrier each element of both arrays is set, all
components of it, by one work item; behind it the work items write different
elements and read inside the arrays.  In every order of the work items the
initialisation leaves the initial values, and a launch adds to `output[gid]`
10000 for every component of every element the work item visits. -/
theorem localMem_launch (vec elements L G : Nat) (hvec : vec ≤ 4) (hL : 0 < L) :
    (∀ a, ∀ k < extent elements a, ∃ id : Fin L,
      (∀ c < 2 ^ vec, .put a k c (initial a) ∈ (localMem vec elements L id).before) ∧
      ∀ (id' : Fin L) (c : Nat) (q : ℚ),
        .put a k c q ∈ (localMem vec elements L id').before → id' = id) ∧
    (∀ (τ : List (Fin L × Access)) (m : Group L),
      Interleaves (fun id : Fin L => (localMem vec elements L id).before) τ →
      ∃ m', run (groupStep (2 ^ vec) elements) τ m = .ok m' ∧
        (∀ k < 2 * elements, ∀ c < 2 ^ vec, m'.cells .snd k c = some (1 / 2)) ∧
        ∀ k < elements, ∀ c < 2 ^ vec, m'.cells .fst k c = some 0) ∧
    (∀ (id id' : Fin L) (x x' : Access) (t : Arr × Nat),
      x ∈ (localMem vec elements L id).after → x' ∈ (localMem vec elements L id').after →
      x.written = some t → x'.written = some t → id = id') ∧
    (∀ (id : Fin L) (x : Access) (k : Nat), x ∈ (localMem vec elements L id).after →
      x.target = (.snd, k) → k < 2 * elements) ∧
    ∀ (τ : List (Fin G × Fin L × Access)) (s : Launch G L),
      (∀ g, GroupTrace (fun id : Fin L => localMem vec elements L id) (proj g τ)) →
      ∃ s', run (launchStep (2 ^ vec) elements) τ s = .ok s' ∧
        (∀ (g : Fin G) (id : Fin L), s'.output (globalId g id) - s.output (globalId g id) =
          10000 * 2 ^ vec * Nat.count (· % L = id) elements) ∧
        ∀ g : Fin G, ∑ id : Fin L, (s'.output (globalId g id) - s.output (globalId g id)) =
          10000 * 2 ^ vec * elements := by
  refine ⟨fun a k hk => ?_, fun τ m hτ => ?_, fun id id' x x' t hx hx' ht ht' => ?_,
    fun id x k hx => (apart_of_mem_after id.isLt hx).snd k, fun τ s hτ => ?_⟩
  · obtain ⟨id, ⟨hid, hinit⟩, huniq⟩ := existsUnique_initialises hL hk
    refine ⟨⟨id, hid⟩, fun c hc => ?_, fun id' c q hput => ?_⟩
    · exact mem_before.mpr ⟨a, k, hinit, c, (mem_components hvec).mpr hc, rfl⟩
    · obtain ⟨b, j, hinit', d, -, heq⟩ := mem_before.mp hput
      obtain ⟨rfl, rfl, -, -⟩ := Access.put.inj heq
      exact Fin.ext (huniq id' ⟨id'.isLt, hinit'⟩)
  · obtain ⟨m', hrun, -, hcells⟩ := run_before hvec hL hτ m
    exact ⟨m', hrun, hcells .snd, hcells .fst⟩
  · have h := ((apart_of_mem_after id.isLt hx).written t.1 t.2 ht).2
    have h' := ((apart_of_mem_after id'.isLt hx').written t.1 t.2 ht').2
    exact Fin.ext (h.symm.trans h')
  · obtain ⟨s', hrun, hout⟩ := run_launch hvec hL hτ s
    have hshare (g : Fin G) (id : Fin L) : s'.output (globalId g id) - s.output (globalId g id) =
        10000 * 2 ^ vec * Nat.count (· % L = id) elements := by
      rw [hout]
      ring
    refine ⟨s', hrun, hshare, fun g => ?_⟩
    simp only [hshare, ← Finset.mul_sum, ← Nat.cast_sum]
    rw [Fin.sum_univ_eq_sum_range fun id => Nat.count (· % L = id) elements,
      sum_count_mod hL]

/-- Three work items over five elements, in two groups. -/
theorem localMem_launch_five : 4 ≤ 4 ∧ 0 < 3 ∧
    (∀ k < extent 5 .snd, ∃ id : Fin 3,
      ∀ c < 2 ^ 4, .put .snd k c (initial .snd) ∈ (localMem 4 5 3 id).before) ∧
    ∃ τ : List (Fin 2 × Fin 3 × Access),
      (∀ g, GroupTrace (fun id : Fin 3 => localMem 4 5 3 id) (proj g τ)) ∧
      ∃ s', run (launchStep (2 ^ 4) 5) τ ⟨fun _ _ _ _ => none, fun _ _ => none, fun _ => 0⟩ = .ok s' ∧
        ∀ g : Fin 2, ∑ id : Fin 3, s'.output (globalId g id) = 10000 * 2 ^ 4 * 5 := by
  have h := localMem_launch 4 5 3 2 (by decide) (by decide)
  obtain ⟨τ, hτ⟩ := exists_launchTrace 2 fun id : Fin 3 => localMem 4 5 3 id
  obtain ⟨s', hrun, -, hsum⟩ := h.2.2.2.2 τ ⟨fun _ _ _ _ => none, fun _ _ => none, fun _ => 0⟩ hτ
  refine ⟨by decide, by decide, fun k hk => (h.1 .snd k hk).imp fun _ h => h.1, τ, hτ, s', hrun, fun g => ?_⟩
  simpa using hsum g

end UclBench.MemStreaming
