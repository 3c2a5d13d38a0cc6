import UclBench.MemStreaming.Host
import UclBench.MemStreaming.Launch

/-!
# UclBench.MemStreaming.GlobalMem

What a launch of `global_mem` computes.

The kernel divides the elements of `g1` and `g2` among the work items of a
group by local id, as `local_mem` does, but the arrays are those of the whole
launch.  Its `barrier(CLK_LOCAL_MEM_FENCE)` is taken as a full one: what a group
has written to `g1` and `g2` before it, the group reads behind it.

`ownership_iff`: the work items keep to their own elements, and the outcome does
not depend on their order, exactly when there is one group.
-/

namespace UclBench.MemStreaming

open Function

/-- A launch of `G` work-groups over arrays they share. -/
structure SharedLaunch (G L : Nat) where
  cells : Arr → Nat → Nat → Option ℚ
  acc : Fin G → Fin L → Option (Nat → ℚ)
  output : Nat → ℚ

/-- What group `g` reaches. -/
def SharedLaunch.group (s : SharedLaunch G L) (g : Fin G) : Group L :=
  ⟨s.cells, s.acc g, fun id => s.output (globalId g id)⟩

/-- One access by a work item of some group. -/
def sharedStep (width elements : Nat) (s : SharedLaunch G L) :
    Fin G × Fin L × Access → Except Fault (SharedLaunch G L)
  | (g, id, x) => match groupStep width elements (s.group g) (id, x) with
    | .ok m => .ok ⟨m.cells, update s.acc g m.acc, update s.output (globalId g id) (m.out id)⟩
    | .error f => .error f

/-- The elements of `g1` and `g2` that work item `id` of a group writes. -/
def WritesElement (vec elements L id : Nat) (t : Arr × Nat) : Prop :=
  ∃ x, (x ∈ (globalMem vec elements L id).before ∨ x ∈ (globalMem vec elements L id).after) ∧
    x.written = some t

/-- Different work items of the launch write different elements. -/
def Exclusive (vec elements L G : Nat) : Prop :=
  ∀ w w' : Fin G × Fin L, w ≠ w' → ∀ t,
    ¬ (WritesElement vec elements L w.2 t ∧ WritesElement vec elements L w'.2 t)

/-- A run of a launch: each group follows a trace of its own. -/
def SharedRun (vec elements : Nat) (s : SharedLaunch G L) (s' : SharedLaunch G L) : Prop :=
  ∃ τ : List (Fin G × Fin L × Access),
    (∀ g, GroupTrace (fun id : Fin L => globalMem vec elements L id) (proj g τ)) ∧
    run (sharedStep (2 ^ vec) elements) τ s = .ok s'

/-- Whatever the order, a launch leaves the same values in `output[gid]`. -/
def OrderIndependent (vec elements L G : Nat) : Prop :=
  ∀ s s₁ s₂ : SharedLaunch G L, SharedRun vec elements s s₁ → SharedRun vec elements s s₂ →
    ∀ (g : Fin G) (id : Fin L), s₁.output (globalId g id) = s₂.output (globalId g id)

/-! ## one group -/

/-- Alone, a group does what it does over local memory. -/
theorem run_shared [Subsingleton (Fin G)] {τ : List (Fin G × Fin L × Access)} (hvec : vec ≤ 4)
    (hL : 0 < L)
    (hτ : ∀ g, GroupTrace (fun id : Fin L => globalMem vec elements L id) (proj g τ))
    (s : SharedLaunch G L) :
    ∃ s', run (sharedStep (2 ^ vec) elements) τ s = .ok s' ∧
      ∀ (g : Fin G) (id : Fin L), s'.output (globalId g id) =
        s.output (globalId g id) + Nat.count (· % L = id) elements * (10000 * 2 ^ vec) := by
  have hstep (g : Fin G) (e : Fin L × Access) (_ : (g, e) ∈ τ) (s : SharedLaunch G L) (m : Group L)
      (h : groupStep (2 ^ vec) elements (s.group g) e = .ok m) :
      ∃ s', sharedStep (2 ^ vec) elements s (g, e) = .ok s' ∧ s'.group g = m ∧
        ∀ g', g' ≠ g → s'.group g' = s.group g' := by
    obtain ⟨id, x⟩ := e
    have hshared : sharedStep (2 ^ vec) elements s (g, id, x) =
        .ok ⟨m.cells, update s.acc g m.acc, update s.output (globalId g id) (m.out id)⟩ := by
      simp only [sharedStep, h]
    refine ⟨_, hshared, ?_, fun g' hg' => absurd (Subsingleton.elim g' g) hg'⟩
    obtain ⟨cells, acc, out⟩ := m
    simp only [SharedLaunch.group, update_self, Group.mk.injEq, true_and]
    funext j
    by_cases hj : j = id
    · rw [hj, update_self]
    · rw [update_of_ne (by simp [globalId_inj, hj])]
      exact (groupStep_out_of_ne h hj).symm
  choose b hrun hout using fun g => run_group hvec hL (hτ g) (s.group g)
  obtain ⟨s', hτrun, hview⟩ := run_compose (fun g (s : SharedLaunch G L) => s.group g)
    (fun _ => groupStep (2 ^ vec) elements) hstep hrun
  exact ⟨s', hτrun, fun g id => (congrArg (Group.out · id) (hview g)).trans (hout g id)⟩

/-! ## ownership -/

theorem target_of_written {x : Access} (h : x.written = some t) : x.target = t := by
  cases x <;> simp_all [Access.written, Access.target]

/-- A work item writes the elements its local id selects. -/
theorem WritesElement.initialises {id : Nat} (hid : id < L) (h : WritesElement vec elements L id t) :
    Initialises elements L id t.1 t.2 := by
  obtain ⟨x, hx | hx, hw⟩ := h
  · obtain ⟨a, k, hinit, c, -, rfl⟩ := mem_before.mp hx
    rw [← Option.some.inj hw]
    exact hinit
  · obtain ⟨hfst, hmod⟩ := (apart_of_mem_after hid hx).written t.1 t.2 hw
    have hlt : t.2 < extent elements t.1 := by
      have hin := target_lt (Nat.zero_lt_of_lt hid) (.inr hx)
      rwa [target_of_written hw] at hin
    rw [hfst, extent_fst] at hlt
    exact .inl ((mem_strided_id hid).mpr ⟨hlt, hmod⟩)

/-- Within a group the elements have one owner each. -/
theorem exclusive_of_subsingleton [Subsingleton (Fin G)] (hL : 0 < L) (vec elements : Nat) :
    Exclusive vec elements L G := by
  rintro ⟨g, id⟩ ⟨g', id'⟩ hne t ⟨hw, hw'⟩
  have hinit := hw.initialises id.isLt
  obtain ⟨_, _, huniq⟩ := existsUnique_initialises hL (hinit.lt hL)
  have hid : id = id' := Fin.ext ((huniq id ⟨id.isLt, hinit⟩).trans
    (huniq id' ⟨id'.isLt, hw'.initialises id'.isLt⟩).symm)
  exact hne (Prod.ext (Subsingleton.elim g g') hid)

/-- The first work items of two groups both write element 0. -/
theorem not_exclusive (hL : 0 < L) (helements : 0 < elements) (hG : 1 < G) (vec : Nat) :
    ¬ Exclusive vec elements L G := by
  intro h
  have hwrites : WritesElement vec elements L 0 (.fst, 0) := by
    refine ⟨.put .fst 0 0 (initial .fst), .inl (mem_before.mpr ?_), rfl⟩
    have hzero : 0 ∈ components vec := by
      unfold components
      split <;> simp
    exact ⟨.fst, 0, .inl ((mem_strided_id hL).mpr ⟨helements, Nat.zero_mod L⟩), 0, hzero, rfl⟩
  have hne : ((⟨0, by omega⟩, ⟨0, hL⟩) : Fin G × Fin L) ≠ (⟨1, hG⟩, ⟨0, hL⟩) := by simp
  exact h _ _ hne (.fst, 0) ⟨hwrites, hwrites⟩

/-- **`global_mem`**: the work items of a launch write different elements, and
what they add to `output[gid]` does not depend on their order, exactly when the
launch has no more than one work-group. -/
theorem ownership_iff (vec elements L G : Nat) (hvec : vec ≤ 4) (helements : 0 < elements)
    (hL : 0 < L) :
    Exclusive vec elements L G ∧ OrderIndependent vec elements L G ↔ G ≤ 1 := by
  constructor
  · rintro ⟨hexcl, -⟩
    by_contra hG
    exact not_exclusive hL helements (by omega) vec hexcl
  · intro hG
    have hsub : Subsingleton (Fin G) := Fin.subsingleton_iff_le_one.mpr hG
    refine ⟨exclusive_of_subsingleton hL vec elements, ?_⟩
    rintro s s₁ s₂ ⟨τ₁, hτ₁, hrun₁⟩ ⟨τ₂, hτ₂, hrun₂⟩ g id
    obtain ⟨r₁, hr₁, hout₁⟩ := run_shared hvec hL hτ₁ s
    obtain ⟨r₂, hr₂, hout₂⟩ := run_shared hvec hL hτ₂ s
    rw [← Except.ok.inj (hr₁.symm.trans hrun₁), ← Except.ok.inj (hr₂.symm.trans hrun₂), hout₁, hout₂]

theorem ownership_iff_one : 2 ≤ 4 ∧ 0 < 256 ∧ 0 < 64 ∧ Exclusive 2 256 64 1 :=
  ⟨by decide, by decide, by decide,
    ((ownership_iff 2 256 64 1 (by decide) (by decide) (by decide)).mpr (by decide)).1⟩

/-- Two compute units, with one work item each. -/
theorem ownership_fails_two : ¬ (Exclusive 0 1024 1 2 ∧ OrderIndependent 0 1024 1 2) :=
  fun h => not_exclusive (by decide) (by decide) (by decide) 0 h.1

end UclBench.MemStreaming
