import UclBench.ClLib.StringOptions
import UclBench.MemStreaming.Launches

/-!
# UclBench.MemStreaming.CommandLine

`main` of `mem_streaming.cpp` from `argv` to the runs it makes.

`main_plan`: whatever is on the command line, a run that is made is of one of
the three kernels, with a vector type that exists and as many elements of it as
make up 1024 components.  `main_output` carries this to the kernels: a single
work item adds up the same components whatever the type, except that
`--vector=4` comes to a run of `local_mem` whose arguments are too short.

The options are read by the `getopt_long` of `clcommon.cpp`, which is there for
systems other than `UNIX`, and the OpenCL calls succeed.
-/

namespace UclBench.MemStreaming

open ClLib DeviceList SizeList

/-! ## the options -/

/-- `long_options`; the flags are `info_flag`, `usage_flag`, `csv_flag` and `type_flag`. -/
def longOptions : List LongOpt := [
  ⟨"info".toList, 0, some 0, 1⟩,
  ⟨"help".toList, 0, some 1, 1⟩,
  ⟨"csv".toList, 0, some 2, 1⟩,
  ⟨"private".toList, 0, some 3, 1⟩,
  ⟨"global".toList, 0, some 3, 2⟩,
  ⟨"local".toList, 0, some 3, 0⟩,
  ⟨"sizes".toList, 2, none, 'a'.toNat⟩,
  ⟨"device".toList, 2, none, 'b'.toNat⟩,
  ⟨"repeats".toList, 2, none, 'c'.toNat⟩,
  ⟨"iterations".toList, 2, none, 'd'.toNat⟩,
  ⟨"vector".toList, 2, none, 'e'.toNat⟩]

theorem plain_optstring : "a:".toList.head? ≠ some '-' ∧ "a:".toList.head? ≠ some ':' := by decide

theorem names_longOptions : (longOptions.map LongOpt.name).Nodup := by decide

theorem val_longOptions : ∀ o ∈ longOptions, o.val ≠ -1 := by decide

theorem letters_ne : ∀ c ∈ ['a', 'b', 'c', 'd', 'e'], c ≠ nul ∧ c ≠ '?' ∧ c ≠ ':' := by simp [nul]

theorem rows_longOptions : ∀ o ∈ longOptions, o.flag ≠ none ∨ ∃ c ∈ ['a', 'b', 'c', 'd', 'e'], o.val = c.toNat := by
  simp [longOptions]

theorem short_optstring : ∀ d ∈ "a:".toList, d ∈ ['a', 'b', 'c', 'd', 'e'] ∨ d = ':' := by simp

def options : StringOptions where
  optstring := "a:".toList
  longopts := longOptions
  plain := plain_optstring
  names := names_longOptions
  val_ne := val_longOptions
  letters := ['a', 'b', 'c', 'd', 'e']
  letters_ne := letters_ne
  rows := rows_longOptions
  short := short_optstring

def DEFAULT_REPEATS : Nat := 1

def DEFAULT_ITERATIONS : Nat := 10

/-! ## `main` -/

/-- `sscanf(vector_str, "%d", &f4) < 0 || f4 < 0 || f4 > 4`: what is no number leaves `f4` as it
is, and only an empty string ends the program. -/
def readVector : Option Text → Main Nat
  | none => pure 0
  | some str =>
      if str.dropWhile isSpace = [] then throw (.code 1)
      else
        let f4 := (scanD str).getD 0
        if f4 < 0 ∨ 4 < f4 then throw (.code 1) else pure f4.toNat

/-- `switch(f4)`: `vec`, `sizeoft` and `elements`. -/
def vectorCase (f4 : Nat) : Text × Nat × Nat :=
  let elements := 1024
  match f4 with
  | 1 => ("float2".toList, sizeofFloat 2, elements / 2)
  | 2 => ("float4".toList, sizeofFloat 4, elements / 4)
  | 3 => ("float8".toList, sizeofFloat 8, elements / 8)
  | 4 => ("float16".toList, sizeofFloat 16, elements / 16)
  | _ => ("float".toList, sizeofFloat 1, elements)

/-- What is to be benchmarked. -/
structure Plan (δ : Type) where
  csvFlag : Int
  typeFlag : Int
  usedDevices : Buffer δ
  usedNumDevices : Nat
  numSizes : Nat
  repeats : Nat
  iterations : Nat
  f4 : Nat
  vec : Text
  sizeoft : Nat
  elements : Nat

/-- How `main` goes on when it has read its options. -/
inductive Start (δ : Type) where
  | info
  | usage
  | bench (plan : Plan δ)

/-- What `run_benchmark` is called with. -/
structure RunArgs (δ : Type) where
  device : δ
  type : Int
  f4 : Nat
  elements : Nat
  iterations : Nat
  larg : Bool

section
variable {δ : Type}

/-- `main` up to the benchmarks; the sizes are read and counted only. -/
def main (fuel : Nat) (argv : List Text) (devices : Buffer δ) (numDevices : Nat) :
    Main (Start δ) := do
  let (str, v) ← options.mainOptions fuel argv
  if v.flags 0 ≠ 0 then pure .info
  else if v.flags 1 ≠ 0 then pure .usage
  else match ← readDevices devices numDevices (str 'b') with
    | none => throw (.code 1)
    | some (usedDevices, usedNumDevices) =>
        match ← readSizes .memStreaming usedNumDevices (str 'a') with
        | none => throw (.code 1)
        | some (_, numSizes) => do
            let repeats ← readCount DEFAULT_REPEATS (str 'c')
            let iterations ← readCount DEFAULT_ITERATIONS (str 'd')
            let f4 ← readVector (str 'e')
            let (vec, sizeoft, elements) := vectorCase f4
            pure (.bench ⟨v.flags 2, v.flags 3, usedDevices, usedNumDevices, numSizes, repeats,
              iterations, f4, vec, sizeoft, elements⟩)

/-- `l < (type_flag ? 1 : 2)`, for every size and repeat, as long as no run fails. -/
def Plan.deviceRuns (plan : Plan δ) (i : Nat) : Except Fault (List (RunArgs δ)) := do
  let device ← plan.usedDevices.read i
  pure ((List.range (if plan.typeFlag ≠ 0 then 1 else 2)).flatMap fun l =>
    (List.range plan.numSizes).flatMap fun _ =>
      List.replicate plan.repeats
        ⟨device, plan.typeFlag, plan.f4, plan.elements, plan.iterations, l ≠ 0⟩)

/-- The loop over the devices. -/
def Plan.runs (plan : Plan δ) : Except Fault (List (RunArgs δ)) := do
  let perDevice ← (List.range plan.usedNumDevices).mapM plan.deviceRuns
  pure perDevice.flatten

end

/-! ## the plan -/

/-- One of the three kernels, and 1024 components of a vector type that exists. -/
structure Plan.Sound {δ : Type} (plan : Plan δ) : Prop where
  type : plan.typeFlag = 0 ∨ plan.typeFlag = 1 ∨ plan.typeFlag = 2
  f4 : plan.f4 ≤ 4
  vec : plan.vec = "float".toList ++ (if plan.f4 = 0 then [] else decimal (2 ^ plan.f4))
  sizeoft : plan.sizeoft = sizeofDtype plan.f4
  elements : plan.elements * 2 ^ plan.f4 = 1024

theorem readVector_le {str : Option Text} {f4 : Nat} (h : readVector str = pure f4) : f4 ≤ 4 := by
  cases str with
  | none => exact (pure_inj h : 0 = f4) ▸ Nat.zero_le _
  | some str =>
      rw [readVector] at h
      split at h
      · exact absurd h throw_ne_pure
      dsimp only at h
      split at h
      · exact absurd h throw_ne_pure
      · next hrange =>
        have := pure_inj h
        omega

theorem vectorCase_eq {f4 : Nat} (h : f4 ≤ 4) :
    (vectorCase f4).1 = "float".toList ++ (if f4 = 0 then [] else decimal (2 ^ f4)) ∧
      (vectorCase f4).2.1 = sizeofDtype f4 ∧ (vectorCase f4).2.2 * 2 ^ f4 = 1024 := by
  interval_cases f4 <;> decide

/-- Only the options of the type set `type_flag`. -/
theorem type_of_mainOptions {argv : List Text} {fuel : Nat} {str : Strings} {v : Vars}
    (hargs : ∀ a ∈ argv, NulFree a)
    (hfuel : (Cursor.initial (fun _ => 0) argv).size + 2 ≤ fuel)
    (h : options.mainOptions fuel argv = pure (str, v)) :
    v.flags 3 = 0 ∨ v.flags 3 = 1 ∨ v.flags 3 = 2 := by
  rw [options.stringOptions_eq hargs hfuel] at h
  dsimp only at h
  split at h
  · exact absurd h throw_ne_pure
  · obtain ⟨-, rfl⟩ := Prod.mk.inj (pure_inj h)
    rcases Cursor.flags_run options.toOptions (.initial (fun _ => 0) argv) 3 with hv | ⟨o, ho, hflag, hv⟩
    · exact .inl hv
    · rw [hv]
      simp only [options, longOptions, List.mem_cons, List.not_mem_nil, or_false] at ho
      rcases ho with rfl | rfl | rfl | rfl | rfl | rfl | rfl | rfl | rfl | rfl | rfl <;> simp at hflag ⊢

section
variable {δ : Type} {devices : Buffer δ} {n : Nat} {argv : List Text} {fuel : Nat} {plan : Plan δ}

/-- **The plan**, on every command line. -/
theorem main_plan (hargs : ∀ a ∈ argv, NulFree a)
    (hfuel : (Cursor.initial (fun _ => 0) argv).size + 2 ≤ fuel)
    (h : main fuel argv devices n = pure (.bench plan)) : plan.Sound := by
  obtain ⟨⟨str, v⟩, hoptions, h⟩ := bind_eq_pure.mp h
  dsimp only at h
  split at h
  · exact nomatch pure_inj h
  split at h
  · exact nomatch pure_inj h
  obtain ⟨used, -, h⟩ := bind_eq_pure.mp h
  split at h
  · exact absurd h throw_ne_pure
  obtain ⟨sizes, -, h⟩ := bind_eq_pure.mp h
  split at h
  · exact absurd h throw_ne_pure
  obtain ⟨repeats, -, h⟩ := bind_eq_pure.mp h
  obtain ⟨iterations, -, h⟩ := bind_eq_pure.mp h
  obtain ⟨f4, hvector, h⟩ := bind_eq_pure.mp h
  obtain rfl := Start.bench.inj (pure_inj h)
  have hf4 := readVector_le hvector
  obtain ⟨hvec, hsizeoft, helements⟩ := vectorCase_eq hf4
  exact ⟨type_of_mainOptions hargs hfuel hoptions, hf4, hvec, hsizeoft, helements⟩

/-- A run has the settings of the plan. -/
theorem of_mem_deviceRuns {i : Nat} {l : List (RunArgs δ)} (h : plan.deviceRuns i = .ok l)
    {args : RunArgs δ} (hargs : args ∈ l) :
    args.type = plan.typeFlag ∧ args.f4 = plan.f4 ∧ args.elements = plan.elements := by
  rw [Plan.deviceRuns] at h
  cases hread : plan.usedDevices.read i with
  | error e =>
      rw [hread] at h
      contradiction
  | ok device =>
      rw [hread] at h
      obtain rfl := Except.ok.inj h
      obtain ⟨l, -, hargs⟩ := List.mem_flatMap.mp hargs
      obtain ⟨j, -, hargs⟩ := List.mem_flatMap.mp hargs
      obtain rfl := List.eq_of_mem_replicate hargs
      exact ⟨rfl, rfl, rfl⟩

theorem of_mem_runs {runs : List (RunArgs δ)} (h : plan.runs = .ok runs) {args : RunArgs δ}
    (hargs : args ∈ runs) :
    args.type = plan.typeFlag ∧ args.f4 = plan.f4 ∧ args.elements = plan.elements := by
  rw [Plan.runs] at h
  cases hall : (List.range plan.usedNumDevices).mapM plan.deviceRuns with
  | error e =>
      rw [hall] at h
      contradiction
  | ok perDevice =>
      rw [hall] at h
      obtain rfl := Except.ok.inj h
      obtain ⟨l, hl, hargs⟩ := List.mem_flatten.mp hargs
      obtain ⟨i, -, hi⟩ := exists_of_mem_mapM hall hl
      exact of_mem_deviceRuns hi hargs

/-- A single work item is a group of its own. -/
theorem groups_le_one {type : Nat} (hws : ws = 0 ∨ type = 0) (maxComputeUnits : Nat) (htwo : type = 2) :
    groups ws maxComputeUnits ≤ 1 := by
  rcases hws with rfl | rfl
  · exact Nat.le_refl 1
  · contradiction

/-- No work item of a group repeats what another one does. -/
theorem visits_chooseLocal {type : Nat} (hws : ws = 0 ∨ type = 0) (maxWorkItemSize elements : Nat) :
    visits type elements (chooseLocal ws maxWorkItemSize elements) = elements := by
  rcases hws with rfl | rfl
  · simp [visits, chooseLocal]
  · exact visits_of_ne (by decide) _ _

/-- **The sums**, in exact arithmetic: whatever the command line, in a run by a single work
item, and in one of `local_mem` by any number of them, no access fails and every work-group adds
up 1024 components of 10000 in each launch, whatever the type of the vectors and the order of the
accesses.  The one exception is the run of `--vector=4` over `float16` arguments, whose first
launch goes outside them. -/
theorem main_output (hargs : ∀ a ∈ argv, NulFree a)
    (hfuel : (Cursor.initial (fun _ => 0) argv).size + 2 ≤ fuel)
    (h : main fuel argv devices n = pure (.bench plan)) {runs : List (RunArgs δ)}
    (hruns : plan.runs = .ok runs) {args : RunArgs δ} (hmem : args ∈ runs)
    {ws maxWorkItemSize maxComputeUnits : Nat} (hmax : 0 < maxWorkItemSize)
    (hws : ws = 0 ∨ args.type = 0) (cells : Arr → Nat → Nat → Option ℚ)
    (τs : List (List (Fin (groups ws maxComputeUnits) ×
      Fin (chooseLocal ws maxWorkItemSize args.elements) × Access)))
    (hlength : τs.length = warmupCycles + args.iterations)
    (hτs : ∀ τ ∈ τs, Schedule args.type.toNat args.f4 args.elements τ) :
    (¬ (args.type = 0 ∧ args.larg = true ∧ args.f4 = 4) →
      ∃ m, run (enqueue args.type.toNat args.f4 args.larg args.elements) τs ⟨cells, fun _ => 0⟩ = .ok m ∧
        ∀ g : Fin (groups ws maxComputeUnits),
          ∑ id : Fin (chooseLocal ws maxWorkItemSize args.elements), m.output (globalId g id) =
            (3 + args.iterations) * (1024 * 10000)) ∧
    (args.type = 0 ∧ args.larg = true ∧ args.f4 = 4 → 0 < groups ws maxComputeUnits →
      run (enqueue args.type.toNat args.f4 args.larg args.elements) τs ⟨cells, fun _ => 0⟩ =
        .error .outOfBounds) := by
  have hsound := main_plan hargs hfuel h
  obtain ⟨htype, hf4, helements⟩ := of_mem_runs hruns hmem
  have hle : args.f4 ≤ 4 := hf4 ▸ hsound.f4
  have hcomponents : args.elements * 2 ^ args.f4 = 1024 := by rw [helements, hf4, hsound.elements]
  have hpos : 0 < args.elements := Nat.pos_of_ne_zero fun hzero => by simp [hzero] at hcomponents
  have hlocal : 0 < chooseLocal ws maxWorkItemSize args.elements := chooseLocal_pos hpos hmax
  have hsingle : ws = 0 ∨ args.type.toNat = 0 := hws.imp_right fun hzero => by rw [hzero]; rfl
  have hgroups := groups_le_one hsingle maxComputeUnits
  have hvisits := visits_chooseLocal hsingle maxWorkItemSize args.elements
  have hcast : (args.elements : ℚ) * 2 ^ args.f4 = 1024 := by exact_mod_cast hcomponents
  have htype' := hsound.type
  rw [← htype] at htype'
  constructor
  · intro hfloat
    have hin : InStorage args.type.toNat args.f4 args.larg args.elements
        (chooseLocal ws maxWorkItemSize args.elements) := inStorage_of_not hle hlocal (by grind)
    obtain ⟨m, hrun, hsum⟩ := sum_run_enqueue hle hlocal hgroups hin τs hτs cells
    refine ⟨m, hrun, fun g => ?_⟩
    rw [hsum, hlength, hvisits, warmupCycles, ← hcast]
    push_cast
    ring
  · rintro ⟨hzero, hlarg, hfour⟩ hpositive
    rw [hzero, hfour] at hτs
    rw [hzero, hlarg, hfour]
    have hlaunched : 0 < τs.length := by
      rw [hlength, warmupCycles]
      omega
    exact run_enqueue_stops (by decide) (by decide) hpos hlocal hpositive hτs hlaunched _

end

/-- `--vector=2` -/
def exampleArgs : List Text := ["mem_streaming".toList, "--vector=2".toList]

/-- One device and the default size, with the array declared in the kernel and as an argument. -/
def examplePlan : Plan Nat :=
  ⟨0, 0, (Buffer.alloc Nat 1).set 0 0, 1, 1, 1, 10, 2, "float4".toList, 16, 256⟩

/-- `--vector=4` -/
def float16Args : List Text := ["mem_streaming".toList, "--vector=4".toList]

def float16Plan : Plan Nat :=
  ⟨0, 0, (Buffer.alloc Nat 1).set 0 0, 1, 1, 1, 10, 4, "float16".toList, 64, 64⟩

theorem main_output_four :
    (main 40 exampleArgs (.ofFn 1 id) 1 = pure (.bench examplePlan) ∧
      examplePlan.runs = .ok [⟨0, 0, 2, 256, 10, false⟩, ⟨0, 0, 2, 256, 10, true⟩] ∧
      ∃ τs : List (List (Fin (groups 1 2) × Fin (chooseLocal 1 4 256) × Access)),
        τs.length = warmupCycles + 10 ∧ (∀ τ ∈ τs, Schedule 0 2 256 τ) ∧
          ∃ m, run (enqueue 0 2 false 256) τs ⟨fun _ _ _ => none, fun _ => 0⟩ = .ok m ∧
            ∀ g : Fin (groups 1 2), ∑ id : Fin (chooseLocal 1 4 256), m.output (globalId g id) =
              (3 + 10) * (1024 * 10000)) ∧
    main 40 float16Args (.ofFn 1 id) 1 = pure (.bench float16Plan) ∧
      float16Plan.runs = .ok [⟨0, 0, 4, 64, 10, false⟩, ⟨0, 0, 4, 64, 10, true⟩] ∧
      ∃ τs : List (List (Fin (groups 1 2) × Fin (chooseLocal 1 4 64) × Access)),
        τs.length = warmupCycles + 10 ∧ (∀ τ ∈ τs, Schedule 0 4 64 τ) ∧
          run (enqueue 0 4 true 64) τs ⟨fun _ _ _ => none, fun _ => 0⟩ = .error .outOfBounds := by
  constructor
  · have hplan : main 40 exampleArgs (.ofFn 1 id) 1 = pure (.bench examplePlan) := rfl
    have hruns : examplePlan.runs = .ok [⟨0, 0, 2, 256, 10, false⟩, ⟨0, 0, 2, 256, 10, true⟩] := rfl
    obtain ⟨τs, hlength, hτs⟩ := exists_schedules 0 2 256 (groups 1 2) (chooseLocal 1 4 256) (warmupCycles + 10)
    refine ⟨hplan, hruns, τs, hlength, hτs, ?_⟩
    exact_mod_cast (main_output (by decide) (by decide) hplan hruns List.mem_cons_self (by decide)
      (.inr rfl) (fun _ _ _ => none) τs hlength hτs).1 (by decide)
  · have hplan : main 40 float16Args (.ofFn 1 id) 1 = pure (.bench float16Plan) := rfl
    have hruns : float16Plan.runs = .ok [⟨0, 0, 4, 64, 10, false⟩, ⟨0, 0, 4, 64, 10, true⟩] := rfl
    obtain ⟨τs, hlength, hτs⟩ := exists_schedules 0 4 64 (groups 1 2) (chooseLocal 1 4 64) (warmupCycles + 10)
    exact ⟨hplan, hruns, τs, hlength, hτs, (main_output (by decide) (by decide) hplan hruns
      (List.mem_cons_of_mem _ List.mem_cons_self) (by decide) (.inr rfl) (fun _ _ _ => none) τs hlength hτs).2
      ⟨rfl, rfl, rfl⟩ (by decide)⟩

end UclBench.MemStreaming
