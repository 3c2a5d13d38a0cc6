import UclBench.MemStreaming.GlobalMem
import UclBench.MemStreaming.Accounting

/-!
# UclBench.MemStreaming.Launches

What a measurement leaves in `output`: the warm-up launches and the timed ones,
of whichever kernel, in whatever order the device performs each of them.  The
sums are exact, and the barrier of `global_mem` is a full one.

A work item of `private_mem` is a work-group of one (`run_private`), so its
launch follows from that of `local_mem`.  The launches of a measurement follow
each other, as the command queue is in order, and each adds the same amount
(`enqueue_adds`), if its arrays are long enough: `float16` arrays passed as
arguments are not, and no launch gets to the end (`enqueue_stops`).
-/

namespace UclBench.MemStreaming

open Function

/-! ## `private_mem` -/

/-- A launch of `private_mem`: every work item has arrays of its own. -/
structure PrivateLaunch (G L : Nat) where
  cells : Fin G → Fin L → Arr → Nat → Nat → Option ℚ
  acc : Fin G → Fin L → Option (Nat → ℚ)
  output : Nat → ℚ

/-- What the work items of group `g` reach. -/
def PrivateLaunch.group (s : PrivateLaunch G L) (g : Fin G) (id : Fin L) : Item :=
  ⟨s.cells g id, s.acc g id, s.output (globalId g id)⟩

/-- One access by a work item of some group. -/
def privateStep (width elements : Nat) (s : PrivateLaunch G L) :
    Fin G × Fin L × Access → Except Fault (PrivateLaunch G L)
  | (g, id, x) => match step width elements (s.group g id) x with
    | .ok v => .ok ⟨update s.cells g (update (s.cells g) id v.cells),
        update s.acc g (update (s.acc g) id v.acc), update s.output (globalId g id) v.out⟩
    | .error f => .error f

/-- One access by a work item of a group whose items share nothing. -/
def privateGroupStep (width elements : Nat) (m : Fin L → Item) :
    Fin L × Access → Except Fault (Fin L → Item)
  | (id, x) => match step width elements (m id) x with
    | .ok v => .ok (update m id v)
    | .error f => .error f

section
variable {G L width elements vec : Nat}

/-- A group of one does what its work item does. -/
theorem run_item_of_group {xs : List Access} {m m' : Group 1}
    (h : run (groupStep width elements) (xs.map fun x => (0, x)) m = .ok m') :
    run (step width elements) xs (m.item 0) = .ok (m'.item 0) := by
  induction xs generalizing m with
  | nil => rw [Except.ok.inj h]; rfl
  | cons x xs ih =>
      rw [List.map_cons, run, groupStep] at h
      cases hv : step width elements (m.item 0) x with
      | error f => simp only [hv] at h; contradiction
      | ok v =>
          simp only [hv] at h
          rw [run_cons hv, ← ih h]
          simp [Group.item]

theorem interleaves_one (xs : List Access) :
    Interleaves (fun _ : Fin 1 => xs) (xs.map fun x => (0, x)) := by
  intro id
  obtain rfl := Fin.eq_zero id
  induction xs with
  | nil => rfl
  | cons x xs ih => rw [List.map_cons, proj_cons_self, ih]

/-- A work item over arrays of its own visits every element. -/
theorem run_private (hvec : vec ≤ 4) (elements : Nat) (v : Item) :
    ∃ v', run (step (2 ^ vec) elements)
        ((privateMem vec elements).before ++ (privateMem vec elements).after) v = .ok v' ∧
      v'.out = v.out + elements * (10000 * 2 ^ vec) := by
  have htrace : GroupTrace (fun id : Fin 1 => localMem vec elements 1 id)
      (((privateMem vec elements).before ++ (privateMem vec elements).after).map fun x => (0, x)) := by
    refine ⟨_, _, List.map_append, ?_, ?_⟩ <;>
    · intro id
      obtain rfl := Fin.eq_zero id
      exact interleaves_one _ 0
  obtain ⟨m', hrun, hout⟩ :=
    run_group hvec Nat.one_pos htrace ⟨v.cells, fun _ => v.acc, fun _ => v.out⟩
  have hcount : Nat.count (· % 1 = (0 : Fin 1).val) elements = elements := by
    simp [Nat.count_eq_card_filter_range, Nat.mod_one]
  refine ⟨m'.item 0, run_item_of_group hrun, ?_⟩
  have hitem : (m'.item 0).out = m'.out 0 := rfl
  rw [hitem, hout, hcount]

theorem privateGroupStep_of_step {m : Fin L → Item} {id : Fin L} {x : Access} {v : Item}
    (h : step width elements (m id) x = .ok v) :
    privateGroupStep width elements m (id, x) = .ok (update m id v) := by
  simp only [privateGroupStep, h]

theorem privateStep_of_group {s : PrivateLaunch G L} {g : Fin G} {e : Fin L × Access}
    {m : Fin L → Item} (h : privateGroupStep width elements (s.group g) e = .ok m) :
    ∃ s', privateStep width elements s (g, e) = .ok s' ∧ s'.group g = m ∧
      ∀ g', g' ≠ g → s'.group g' = s.group g' := by
  obtain ⟨id, x⟩ := e
  rw [privateGroupStep] at h
  cases hv : step width elements (s.group g id) x with
  | error f => simp only [hv] at h; contradiction
  | ok v =>
      simp only [hv, Except.ok.injEq] at h
      have hstep : privateStep width elements s (g, id, x) =
          .ok ⟨update s.cells g (update (s.cells g) id v.cells),
            update s.acc g (update (s.acc g) id v.acc), update s.output (globalId g id) v.out⟩ := by
        simp only [privateStep, hv]
      refine ⟨_, hstep, ?_, fun g' hg' => ?_⟩
      · rw [← h]
        funext j
        by_cases hj : j = id
        · subst hj
          simp [PrivateLaunch.group]
        · simp [PrivateLaunch.group, hj, globalId_inj]
      · funext j
        simp [PrivateLaunch.group, hg', globalId_inj]

/-- A whole launch of `private_mem`: no work item disturbs another. -/
theorem run_privateLaunch {τ : List (Fin G × Fin L × Access)} (hvec : vec ≤ 4)
    (hτ : ∀ g, GroupTrace (fun _ : Fin L => privateMem vec elements) (proj g τ))
    (s : PrivateLaunch G L) :
    ∃ s', run (privateStep (2 ^ vec) elements) τ s = .ok s' ∧
      ∀ (g : Fin G) (id : Fin L), s'.output (globalId g id) =
        s.output (globalId g id) + elements * (10000 * 2 ^ vec) := by
  have hgroup (g : Fin G) : ∃ m, run (privateGroupStep (2 ^ vec) elements) (proj g τ) (s.group g) =
      .ok m ∧ ∀ id, (m id).out = s.output (globalId g id) + elements * (10000 * 2 ^ vec) := by
    obtain ⟨τ₁, τ₂, hsplit, hbefore, hafter⟩ := hτ g
    choose b hrun hout using fun id => run_private hvec elements (s.group g id)
    obtain ⟨m, hm, hview⟩ := run_compose (τ := proj g τ) (fun id (m : Fin L → Item) => m id)
      (fun _ => step (2 ^ vec) elements)
      (fun id x _ m v h => ⟨_, privateGroupStep_of_step h, update_self .., fun j hj =>
        update_of_ne hj ..⟩) (fun id => by
        have hlog : proj id (proj g τ) =
            (privateMem vec elements).before ++ (privateMem vec elements).after := by
          rw [hsplit, proj, List.filterMap_append]
          exact congrArg₂ (· ++ ·) (hbefore id) (hafter id)
        rw [hlog]
        exact hrun id)
    exact ⟨m, hm, fun id => (congrArg Item.out (hview id)).trans (hout id)⟩
  choose m hrun hout using hgroup
  obtain ⟨s', hτrun, hview⟩ := run_compose (fun g (s : PrivateLaunch G L) => s.group g)
    (fun _ => privateGroupStep (2 ^ vec) elements) (fun _ _ _ _ _ h => privateStep_of_group h) hrun
  exact ⟨s', hτrun, fun g id => (congrArg (fun m => (m id).out) (hview g)).trans (hout g id)⟩

end

/-! ## a measurement -/

/-- What survives a launch: `g1`, `g2` and `output`. -/
structure DeviceMemory where
  cells : Arr → Nat → Nat → Option ℚ
  output : Nat → ℚ

/-- The orders in which a device may perform a launch of `G` groups of `L` work items. -/
def Schedule (type f4 elements : Nat) (τ : List (Fin G × Fin L × Access)) : Prop :=
  ∀ g, GroupTrace (fun id : Fin L => kernel type f4 elements L id) (proj g τ)

theorem exists_schedule (type f4 elements G L : Nat) :
    ∃ τ : List (Fin G × Fin L × Access), Schedule type f4 elements τ :=
  exists_launchTrace G fun id : Fin L => kernel type f4 elements L id

theorem exists_schedules (type f4 elements G L n : Nat) :
    ∃ τs : List (List (Fin G × Fin L × Access)), τs.length = n ∧ ∀ τ ∈ τs, Schedule type f4 elements τ := by
  obtain ⟨τ, hτ⟩ := exists_schedule type f4 elements G L
  exact ⟨List.replicate n τ, List.length_replicate, fun τ' hτ' => List.eq_of_mem_replicate hτ' ▸ hτ⟩

/-- The access of an event lies inside the storage of its array. -/
def EventInside (type f4 : Nat) (larg : Bool) (elements : Nat) (e : Fin G × Fin L × Access) : Prop :=
  Inside type f4 larg elements L e.2.2

instance {e : Fin G × Fin L × Access} : Decidable (EventInside type f4 larg elements e) :=
  inferInstanceAs (Decidable (Inside ..))

/-- `clEnqueueNDRangeKernel(commands, kernel, 1, NULL, &global, &local, 0, NULL, NULL)`: an
access outside the storage the host provides is a fault, wherever the kernel takes its arrays
to end. -/
def enqueue (type f4 : Nat) (larg : Bool) (elements : Nat) (m : DeviceMemory)
    (τ : List (Fin G × Fin L × Access)) : Except Fault DeviceMemory :=
  let n := elementsToAlloc type elements L
  let inside := EventInside type f4 larg elements
  match type with
  | 1 =>
      let s : PrivateLaunch G L := ⟨fun _ _ _ _ _ => none, fun _ _ => none, m.output⟩
      (run (checked inside (privateStep (2 ^ f4) n)) τ s).map fun s => { m with output := s.output }
  | 2 =>
      let s : SharedLaunch G L := ⟨m.cells, fun _ _ => none, m.output⟩
      (run (checked inside (sharedStep (2 ^ f4) n)) τ s).map fun s => ⟨s.cells, s.output⟩
  | _ =>
      let s : Launch G L := ⟨fun _ _ _ _ => none, fun _ _ => none, m.output⟩
      (run (checked inside (launchStep (2 ^ f4) n)) τ s).map fun s => { m with output := s.output }

/-- The elements work item `id` visits in a launch. -/
def itemVisits (type elements localSize id : Nat) : Nat :=
  if type = 1 then (elements + localSize - 1) / localSize
  else Nat.count (· % localSize = id) elements

theorem sum_itemVisits (hlocal : 0 < localSize) (type elements : Nat) :
    ∑ id : Fin localSize, itemVisits type elements localSize id = visits type elements localSize := by
  by_cases hone : type = 1
  · simp [itemVisits, visits, hone]
  · simp only [itemVisits, visits, if_neg hone]
    rw [Fin.sum_univ_eq_sum_range fun id => Nat.count (· % localSize = id) elements,
      sum_count_mod hlocal]

section
variable {type f4 elements G L : Nat} {larg : Bool} {τ : List (Fin G × Fin L × Access)}

/-- The accesses of a launch are those of its work items. -/
theorem Schedule.mem (hτ : Schedule type f4 elements τ) {e : Fin G × Fin L × Access} (he : e ∈ τ) :
    e.2.2 ∈ (kernel type f4 elements L e.2.1).before ∨
      e.2.2 ∈ (kernel type f4 elements L e.2.1).after := by
  obtain ⟨g, id, x⟩ := e
  obtain ⟨τ₁, τ₂, hsplit, hbefore, hafter⟩ := hτ g
  have hmem : (id, x) ∈ proj g τ := mem_proj.mpr he
  rw [hsplit, List.mem_append] at hmem
  exact hmem.imp hbefore.mem hafter.mem

theorem Schedule.inside (hτ : Schedule type f4 elements τ) (hin : InStorage type f4 larg elements L) :
    ∀ e ∈ τ, EventInside type f4 larg elements e :=
  fun e he => hin e.2.1 e.2.1.isLt e.2.2 (hτ.mem he)

/-- A launch of any kernel whose arrays are long enough, in any order. -/
theorem enqueue_adds (hf4 : f4 ≤ 4) (hL : 0 < L) (hG : type = 2 → G ≤ 1)
    (hin : InStorage type f4 larg elements L) (hτ : Schedule type f4 elements τ) (m : DeviceMemory) :
    ∃ m', enqueue type f4 larg elements m τ = .ok m' ∧
      ∀ (g : Fin G) (id : Fin L), m'.output (globalId g id) =
        m.output (globalId g id) + itemVisits type elements L id * (10000 * 2 ^ f4) := by
  have hinside := hτ.inside hin
  by_cases hone : type = 1
  · subst hone
    obtain ⟨s, hrun, hout⟩ := run_privateLaunch hf4 hτ ⟨fun _ _ _ _ _ => none, fun _ _ => none, m.output⟩
    exact ⟨_, by simp only [enqueue, run_checked hinside, hrun]; rfl, hout⟩
  · by_cases htwo : type = 2
    · subst htwo
      have hsub : Subsingleton (Fin G) := Fin.subsingleton_iff_le_one.mpr (hG rfl)
      obtain ⟨s, hrun, hout⟩ := run_shared hf4 hL hτ ⟨m.cells, fun _ _ => none, m.output⟩
      exact ⟨_, by simp only [enqueue, run_checked hinside, hrun]; rfl, hout⟩
    · have hlocal : ∀ g, GroupTrace (fun id : Fin L => localMem f4 elements L id) (proj g τ) := by
        simpa only [Schedule, kernel_of_ne hone htwo] using hτ
      let start : Launch G L := ⟨fun _ _ _ _ => none, fun _ _ => none, m.output⟩
      have henqueue : enqueue type f4 larg elements m τ =
          (run (launchStep (2 ^ f4) elements) τ start).map fun s => { m with output := s.output } := by
        simp only [enqueue, elementsToAlloc, if_neg hone, run_checked hinside]
        rfl
      obtain ⟨s, hrun, hout⟩ := run_launch hf4 hL hlocal start
      refine ⟨_, by rw [henqueue, hrun]; rfl, ?_⟩
      simpa only [itemVisits, if_neg hone] using hout

/-- The launches of a measurement add up. -/
theorem run_enqueue (hf4 : f4 ≤ 4) (hL : 0 < L) (hG : type = 2 → G ≤ 1)
    (hin : InStorage type f4 larg elements L) (τs : List (List (Fin G × Fin L × Access)))
    (hτs : ∀ τ ∈ τs, Schedule type f4 elements τ) (m : DeviceMemory) :
    ∃ m', run (enqueue type f4 larg elements) τs m = .ok m' ∧
      ∀ (g : Fin G) (id : Fin L), m'.output (globalId g id) = m.output (globalId g id) +
        τs.length * (itemVisits type elements L id * (10000 * 2 ^ f4)) := by
  induction τs generalizing m with
  | nil => exact ⟨m, rfl, by simp⟩
  | cons τ τs ih =>
      obtain ⟨m₁, hfirst, hout₁⟩ := enqueue_adds hf4 hL hG hin (hτs τ List.mem_cons_self) m
      obtain ⟨m', hrest, hout⟩ := ih (fun τ hτ => hτs τ (List.mem_cons_of_mem _ hτ)) m₁
      refine ⟨m', by rw [run_cons hfirst, hrest], fun g id => ?_⟩
      rw [hout, hout₁, List.length_cons]
      push_cast
      ring

/-- What a group finds in its part of `output` at the end. -/
theorem sum_run_enqueue (hf4 : f4 ≤ 4) (hL : 0 < L) (hG : type = 2 → G ≤ 1)
    (hin : InStorage type f4 larg elements L) (τs : List (List (Fin G × Fin L × Access)))
    (hτs : ∀ τ ∈ τs, Schedule type f4 elements τ) (cells : Arr → Nat → Nat → Option ℚ) :
    ∃ m, run (enqueue type f4 larg elements) τs ⟨cells, fun _ => 0⟩ = .ok m ∧
      ∀ g : Fin G, ∑ id : Fin L, m.output (globalId g id) =
        τs.length * visits type elements L * (10000 * 2 ^ f4) := by
  obtain ⟨m, hrun, hout⟩ := run_enqueue hf4 hL hG hin τs hτs ⟨cells, fun _ => 0⟩
  refine ⟨m, hrun, fun g => ?_⟩
  simp only [hout, zero_add, ← Finset.mul_sum, ← Finset.sum_mul, ← Nat.cast_sum, sum_itemVisits hL]
  ring

/-! ## arrays that are too short -/

/-- What a group does up to the last element of an argument that is too short. -/
theorem Schedule.stops (hτ : Schedule type 4 elements τ) (hone : type ≠ 1) (htwo : type ≠ 2)
    (helements : 0 < elements) (hL : 0 < L) (g : Fin G) :
    ∃ pre e post, proj g τ = pre ++ e :: post ∧ (∀ b ∈ pre, InitialPut (2 ^ 4) elements b.2) ∧
      ¬ EventInside type 4 true elements (g, e) := by
  obtain ⟨τ₁, τ₂, hsplit, hbefore, -⟩ := hτ g
  simp only [kernel_of_ne hone htwo] at hbefore
  have hlast : elements - 1 < extent elements .fst := Nat.sub_lt helements Nat.one_pos
  obtain ⟨id, hput⟩ := exists_put_of_interleaves hL hbefore hlast (by decide : 0 ∈ components 4)
  obtain ⟨pre, post, rfl⟩ := List.append_of_mem hput
  refine ⟨pre, _, post ++ τ₂, by rw [hsplit, List.append_assoc, List.cons_append], fun b hb => ?_,
    not_inside_last hone htwo helements rfl⟩
  exact initialPut_of_interleaves (Nat.le_refl 4) hL hbefore b (List.mem_append_left _ hb)

/-- Such a launch does not get to the barrier. -/
theorem enqueue_stops (hone : type ≠ 1) (htwo : type ≠ 2) (helements : 0 < elements) (hL : 0 < L)
    (hG : 0 < G) (hτ : Schedule type 4 elements τ) (m : DeviceMemory) :
    enqueue type 4 true elements m τ = .error .outOfBounds := by
  have : Nonempty (Fin G) := ⟨⟨0, hG⟩⟩
  have hsafe (e : Fin G × Fin L × Access) (h : InitialPut (2 ^ 4) elements e.2.2)
      (_ : EventInside type 4 true elements e) (s : Launch G L) :
      ∃ s', launchStep (2 ^ 4) elements s e = .ok s' := launchStep_of_initialPut h s
  have hrun := run_checked_stops hsafe (hτ.stops hone htwo helements hL)
  simp only [enqueue, elementsToAlloc, if_neg hone, hrun]
  rfl

theorem run_enqueue_stops (hone : type ≠ 1) (htwo : type ≠ 2) (helements : 0 < elements) (hL : 0 < L)
    (hG : 0 < G) {τs : List (List (Fin G × Fin L × Access))}
    (hτs : ∀ τ ∈ τs, Schedule type 4 elements τ) (hlength : 0 < τs.length) (m : DeviceMemory) :
    run (enqueue type 4 true elements) τs m = .error .outOfBounds := by
  cases τs with
  | nil => exact absurd hlength (Nat.lt_irrefl 0)
  | cons τ τs => rw [run, enqueue_stops hone htwo helements hL hG (hτs τ List.mem_cons_self)]

end

/-- `WARMUP_CYCLES` -/
def warmupCycles : Nat := 3

/-- `global / local` for `ws` -/
def groups (ws maxComputeUnits : Nat) : Nat := if ws = 0 then 1 else maxComputeUnits

/-- The host passes `local_mem` arrays of `float16`. -/
def Float16Arguments (type f4 : Nat) (larg : Bool) : Prop := type ≠ 1 ∧ type ≠ 2 ∧ larg = true ∧ f4 = 4

/-- **The measurement**, in exact arithmetic and with a full barrier in `global_mem`: whichever
the kernel, and in whatever orders its launches are performed, no access fails, and every
work-group adds to its part of `output`, in each launch, 10000 for every component of every
element it visits.  `global_mem` has to run as one work-group.  With `float16` arrays as
arguments an access falls outside them in the first launch. -/
theorem measureLocalMemory_output (type f4 ws maxWorkItemSize maxComputeUnits elements iterations : Nat)
    (larg : Bool) (hf4 : f4 ≤ 4) (helements : 0 < elements) (hmax : 0 < maxWorkItemSize)
    (hG : type = 2 → groups ws maxComputeUnits ≤ 1) (cells : Arr → Nat → Nat → Option ℚ)
    (τs : List (List (Fin (groups ws maxComputeUnits) ×
      Fin (chooseLocal ws maxWorkItemSize elements) × Access)))
    (hlength : τs.length = warmupCycles + iterations)
    (hτs : ∀ τ ∈ τs, Schedule type f4 elements τ) :
    (¬ Float16Arguments type f4 larg →
      ∃ m, run (enqueue type f4 larg elements) τs ⟨cells, fun _ => 0⟩ = .ok m ∧
        ∀ g : Fin (groups ws maxComputeUnits),
          ∑ id : Fin (chooseLocal ws maxWorkItemSize elements), m.output (globalId g id) =
            (3 + iterations) * visits type elements (chooseLocal ws maxWorkItemSize elements) *
              (10000 * 2 ^ f4)) ∧
    (Float16Arguments type f4 larg → 0 < groups ws maxComputeUnits →
      run (enqueue type f4 larg elements) τs ⟨cells, fun _ => 0⟩ = .error .outOfBounds) := by
  have hlocal : 0 < chooseLocal ws maxWorkItemSize elements := chooseLocal_pos helements hmax
  constructor
  · intro hfloat
    obtain ⟨m, hrun, hsum⟩ := sum_run_enqueue hf4 hlocal hG (inStorage_of_not hf4 hlocal hfloat) τs hτs cells
    refine ⟨m, hrun, fun g => ?_⟩
    rw [hsum, hlength, warmupCycles]
    push_cast
    rfl
  · rintro ⟨hone, htwo, rfl, rfl⟩ hgroups
    have hlaunched : 0 < τs.length := by
      rw [hlength, warmupCycles]
      omega
    exact run_enqueue_stops hone htwo helements hlocal hgroups hτs hlaunched _

/-- `private_mem` on two groups, and `local_mem` with `float16` arguments. -/
theorem measureLocalMemory_output_two :
    (∃ τs : List (List (Fin (groups 1 2) × Fin (chooseLocal 1 4 6) × Access)),
      τs.length = warmupCycles + 10 ∧ (∀ τ ∈ τs, Schedule 1 2 6 τ) ∧
        ∃ m, run (enqueue 1 2 false 6) τs ⟨fun _ _ _ => none, fun _ => 0⟩ = .ok m ∧
          ∀ g : Fin (groups 1 2), ∑ id : Fin (chooseLocal 1 4 6), m.output (globalId g id) =
            (3 + 10) * visits 1 6 (chooseLocal 1 4 6) * (10000 * 2 ^ 2)) ∧
    ∃ τs : List (List (Fin (groups 1 2) × Fin (chooseLocal 1 4 64) × Access)),
      τs.length = warmupCycles + 10 ∧ (∀ τ ∈ τs, Schedule 0 4 64 τ) ∧
        run (enqueue 0 4 true 64) τs ⟨fun _ _ _ => none, fun _ => 0⟩ = .error .outOfBounds := by
  constructor
  · obtain ⟨τs, hlength, hτs⟩ := exists_schedules 1 2 6 (groups 1 2) (chooseLocal 1 4 6) (warmupCycles + 10)
    refine ⟨τs, hlength, hτs, ?_⟩
    exact_mod_cast (measureLocalMemory_output 1 2 1 4 2 6 10 false (by decide) (by decide) (by decide)
      (by decide) (fun _ _ _ => none) τs hlength hτs).1 fun h => h.1 rfl
  · obtain ⟨τs, hlength, hτs⟩ := exists_schedules 0 4 64 (groups 1 2) (chooseLocal 1 4 64) (warmupCycles + 10)
    exact ⟨τs, hlength, hτs, (measureLocalMemory_output 0 4 1 4 2 64 10 true (by decide) (by decide)
      (by decide) (by decide) (fun _ _ _ => none) τs hlength hτs).2 ⟨by decide, by decide, rfl, rfl⟩
      (by decide)⟩

end UclBench.MemStreaming
