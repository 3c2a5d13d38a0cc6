import UclBench.ClLib.StringOptions
import UclBench.BufferBandwidth.Transfer

/-!
# UclBench.BufferBandwidth.CommandLine

`main` of `buffer_bandwidth.cpp` from `argv` to the runs it makes.

`main_runs` puts the option loop, the list of devices and the list of sizes
together: what is written on the command line is what is run, for every device
and every size in the order of the lists.  `--info` and `--help`, which run
nothing, are not among the options written.

The options are read by the `getopt_long` of `clcommon.cpp`, which is there for
systems other than `UNIX`, and the OpenCL calls succeed.
-/

namespace UclBench.BufferBandwidth

open ClLib DeviceList SizeList

/-! ## the options -/

/-- `long_options`; the flags are `info_flag`, `usage_flag`, `csv_flag`, `pinned_flag` and
`mapped_flag`. -/
def longOptions : List LongOpt := [
  ⟨"info".toList, 0, some 0, 1⟩,
  ⟨"help".toList, 0, some 1, 1⟩,
  ⟨"csv".toList, 0, some 2, 1⟩,
  ⟨"pinned".toList, 0, some 3, 1⟩,
  ⟨"pageable".toList, 0, some 3, 0⟩,
  ⟨"mapped".toList, 0, some 4, 1⟩,
  ⟨"direct".toList, 0, some 4, 0⟩,
  ⟨"sizes".toList, 2, none, 'a'.toNat⟩,
  ⟨"device".toList, 2, none, 'b'.toNat⟩,
  ⟨"repeats".toList, 2, none, 'c'.toNat⟩,
  ⟨"iterations".toList, 2, none, 'd'.toNat⟩]

theorem plain_optstring : "a:".toList.head? ≠ some '-' ∧ "a:".toList.head? ≠ some ':' := by decide

theorem names_longOptions : (longOptions.map LongOpt.name).Nodup := by decide

theorem val_longOptions : ∀ o ∈ longOptions, o.val ≠ -1 := by decide

theorem letters_ne : ∀ c ∈ ['a', 'b', 'c', 'd'], c ≠ nul ∧ c ≠ '?' ∧ c ≠ ':' := by simp [nul]

theorem rows_longOptions : ∀ o ∈ longOptions, o.flag ≠ none ∨ ∃ c ∈ ['a', 'b', 'c', 'd'], o.val = c.toNat := by
  simp [longOptions]

theorem short_optstring : ∀ d ∈ "a:".toList, d ∈ ['a', 'b', 'c', 'd'] ∨ d = ':' := by simp

def options : StringOptions where
  optstring := "a:".toList
  longopts := longOptions
  plain := plain_optstring
  names := names_longOptions
  val_ne := val_longOptions
  letters := ['a', 'b', 'c', 'd']
  letters_ne := letters_ne
  rows := rows_longOptions
  short := short_optstring

def DEFAULT_REPEATS : Nat := 1

def DEFAULT_ITERATIONS : Nat := 25

/-! ## `main` -/

/-- What is to be benchmarked. -/
structure Plan (δ : Type) where
  csvFlag : Int
  pinnedFlag : Int
  mappedFlag : Int
  usedDevices : Buffer δ
  usedNumDevices : Nat
  sizes : Buffer Nat
  numSizes : Nat
  repeats : Nat
  iterations : Nat

/-- How `main` goes on when it has read its options. -/
inductive Start (δ : Type) where
  | info
  | usage
  | bench (plan : Plan δ)

/-- What `run_benchmark` is called with. -/
structure RunArgs (δ : Type) where
  device : δ
  mm : MemMode
  am : AccessMode
  size : Nat
  iterations : Nat

section
variable {δ : Type}

/-- `main` up to the benchmarks. -/
def main (fuel : Nat) (argv : List Text) (devices : Buffer δ) (numDevices : Nat) :
    Main (Start δ) := do
  let (str, v) ← options.mainOptions fuel argv
  if v.flags 0 ≠ 0 then pure .info
  else if v.flags 1 ≠ 0 then pure .usage
  else match ← readDevices devices numDevices (str 'b') with
    | none => throw (.code 1)
    | some (usedDevices, usedNumDevices) =>
        match ← readSizes .bufferBandwidth usedNumDevices (str 'a') with
        | none => throw (.code 1)
        | some (sizes, numSizes) => do
            let repeats ← readCount DEFAULT_REPEATS (str 'c')
            let iterations ← readCount DEFAULT_ITERATIONS (str 'd')
            pure (.bench ⟨v.flags 2, v.flags 3, v.flags 4, usedDevices, usedNumDevices, sizes,
              numSizes, repeats, iterations⟩)

namespace Plan

variable (plan : Plan δ)

def memMode : MemMode := if plan.pinnedFlag ≠ 0 then .pinned else .pageable

def accessMode : AccessMode := if plan.mappedFlag ≠ 0 then .mapped else .direct

/-- The repeats of a data point, as long as none fails. -/
def dataPoint (device : δ) (i j : Nat) : Except Fault (List (RunArgs δ)) := do
  let size ← plan.sizes.read (position .bufferBandwidth j i)
  pure (List.replicate plan.repeats ⟨device, plan.memMode, plan.accessMode, size, plan.iterations⟩)

/-- The data points of a device. -/
def deviceRuns (i : Nat) : Except Fault (List (RunArgs δ)) := do
  let device ← plan.usedDevices.read i
  let points ← (List.range plan.numSizes).mapM (plan.dataPoint device i)
  pure points.flatten

/-- The loops over the devices, the sizes and the repeats. -/
def runs : Except Fault (List (RunArgs δ)) := do
  let perDevice ← (List.range plan.usedNumDevices).mapM plan.deviceRuns
  pure perDevice.flatten

end Plan

end

/-! ## what is written on the command line -/

/-- A number for `%d`. -/
abbrev Count := { n : Nat // n < 2 ^ 31 }

/-- The options that select runs. -/
inductive Opt where
  | csv
  | pinned
  | pageable
  | mapped
  | direct
  | sizes (args : List SizeArg)
  | devices (args : List IntArg)
  | allDevices
  | repeats (n : Count)
  | iterations (n : Count)

namespace Opt

def row : Opt → LongOpt
  | csv => ⟨"csv".toList, 0, some 2, 1⟩
  | pinned => ⟨"pinned".toList, 0, some 3, 1⟩
  | pageable => ⟨"pageable".toList, 0, some 3, 0⟩
  | mapped => ⟨"mapped".toList, 0, some 4, 1⟩
  | direct => ⟨"direct".toList, 0, some 4, 0⟩
  | sizes _ => ⟨"sizes".toList, 2, none, 'a'.toNat⟩
  | devices _ | allDevices => ⟨"device".toList, 2, none, 'b'.toNat⟩
  | repeats _ => ⟨"repeats".toList, 2, none, 'c'.toNat⟩
  | iterations _ => ⟨"iterations".toList, 2, none, 'd'.toNat⟩

def argument : Opt → Option Text
  | csv | pinned | pageable | mapped | direct => none
  | sizes args => some (SizeList.listText args)
  | devices args => some (DeviceList.listText args)
  | allDevices => some "all".toList
  | repeats n | iterations n => some (decimal n)

end Opt

/-- This is how the option can stand on the command line. -/
def Writes (o : Opt) (w : Written options.toOptions) : Prop :=
  w.opt = o.row ∧ w.value = o.argument

/-- What the options ask for; no list of devices is all of them. -/
structure Request where
  csv : Bool
  mm : MemMode
  am : AccessMode
  sizes : Option (List SizeArg)
  devices : Option (List IntArg)
  repeats : Nat
  iterations : Nat

namespace Request

def initial : Request := ⟨false, .pageable, .direct, none, none, DEFAULT_REPEATS, DEFAULT_ITERATIONS⟩

/-- The last option of a kind counts. -/
def option (r : Request) : Opt → Request
  | .csv => { r with csv := true }
  | .pinned => { r with mm := .pinned }
  | .pageable => { r with mm := .pageable }
  | .mapped => { r with am := .mapped }
  | .direct => { r with am := .direct }
  | .sizes args => { r with sizes := some args }
  | .devices args => { r with devices := some args }
  | .allDevices => { r with devices := none }
  | .repeats n => { r with repeats := n }
  | .iterations n => { r with iterations := n }

def ids (r : Request) (n : Nat) : List Nat :=
  match r.devices with
  | none => List.range n
  | some args => args.filterMap fun a => named n a.value

def sizeList (r : Request) : List Nat :=
  match r.sizes with
  | none => [Benchmark.bufferBandwidth.defaultSize]
  | some args => args.map SizeArg.value

/-- The lists are such that the arrays have room for them. -/
def Fits (r : Request) (n : Nat) : Prop :=
  (∀ args, r.devices = some args → ListFits n args) ∧
    ∀ args, r.sizes = some args → SizeList.Fits .bufferBandwidth (r.ids n).length args

/-- Every device with every size. -/
def runs {δ : Type} (r : Request) (devices : Nat → δ) (n : Nat) : List (RunArgs δ) :=
  (r.ids n).flatMap fun i => r.sizeList.flatMap fun size =>
    List.replicate r.repeats ⟨devices i, r.mm, r.am, size, r.iterations⟩

end Request

/-! ## the options are read -/

/-- The variables hold what is asked for. -/
structure Means (r : Request) (str : Strings) (flags : Nat → Int) : Prop where
  info : flags 0 = 0
  usage : flags 1 = 0
  csv : flags 2 = if r.csv then 1 else 0
  pinned : flags 3 = if r.mm = .pinned then 1 else 0
  mapped : flags 4 = if r.am = .mapped then 1 else 0
  sizes : str 'a' = r.sizes.map SizeList.listText
  devices : match r.devices with
    | none => str 'b' = none ∨ str 'b' = some "all".toList
    | some args => str 'b' = some (DeviceList.listText args)
  repeats : readCount DEFAULT_REPEATS (str 'c') = pure r.repeats
  iterations : readCount DEFAULT_ITERATIONS (str 'd') = pure r.iterations

theorem Means.initial : Means .initial (fun _ => none) fun _ => 0 :=
  ⟨rfl, rfl, rfl, rfl, rfl, rfl, .inl rfl, rfl, rfl⟩

section
variable {r : Request} {str : Strings} {v : Vars}

theorem event_of_writes {o : Opt} {w : Written options.toOptions} (h : Writes o w) (v : Vars) :
    w.event v = (((ClLib.finish o.row v).1, o.argument <|> v.optarg),
      { (ClLib.finish o.row v).2 with optarg := o.argument <|> v.optarg }) := by
  rw [Written.event, h.1, h.2]
  cases o <;> rfl

/-- One option. -/
theorem Means.step {o : Opt} {w : Written options.toOptions} (hm : Means r str v.flags)
    (hw : Writes o w) : ∃ str', storeCase options.letters str (w.event v).1 = pure str' ∧
      Means (r.option o) str' (w.event v).2.flags := by
  rw [event_of_writes hw]
  obtain ⟨hinfo, husage, hcsv, hpinned, hmapped, hsizes, hdevices, hrepeats, hiterations⟩ := hm
  cases o with
  | csv => exact ⟨str, rfl, hinfo, husage, rfl, hpinned, hmapped, hsizes, hdevices, hrepeats, hiterations⟩
  | pinned => exact ⟨str, rfl, hinfo, husage, hcsv, rfl, hmapped, hsizes, hdevices, hrepeats, hiterations⟩
  | pageable => exact ⟨str, rfl, hinfo, husage, hcsv, rfl, hmapped, hsizes, hdevices, hrepeats, hiterations⟩
  | mapped => exact ⟨str, rfl, hinfo, husage, hcsv, hpinned, rfl, hsizes, hdevices, hrepeats, hiterations⟩
  | direct => exact ⟨str, rfl, hinfo, husage, hcsv, hpinned, rfl, hsizes, hdevices, hrepeats, hiterations⟩
  | sizes args =>
      exact ⟨_, rfl, hinfo, husage, hcsv, hpinned, hmapped, rfl, hdevices, hrepeats, hiterations⟩
  | devices args =>
      exact ⟨_, rfl, hinfo, husage, hcsv, hpinned, hmapped, hsizes, rfl, hrepeats, hiterations⟩
  | allDevices =>
      exact ⟨_, rfl, hinfo, husage, hcsv, hpinned, hmapped, hsizes, .inr rfl, hrepeats, hiterations⟩
  | repeats n =>
      exact ⟨_, rfl, hinfo, husage, hcsv, hpinned, hmapped, hsizes, hdevices,
        readCount_decimal n.2 _, hiterations⟩
  | iterations n =>
      exact ⟨_, rfl, hinfo, husage, hcsv, hpinned, hmapped, hsizes, hdevices, hrepeats,
        readCount_decimal n.2 _⟩

/-- All options. -/
theorem Means.foldlM {os : List Opt} {ws : List (Written options.toOptions)}
    (h : List.Forall₂ Writes os ws) (hm : Means r str v.flags) :
    ∃ str', (Written.events ws v).1.foldlM (storeCase options.letters) str = pure str' ∧
      Means (os.foldl Request.option r) str' (Written.events ws v).2.flags := by
  induction h generalizing r str v with
  | nil => exact ⟨str, rfl, hm⟩
  | cons hw _ ih =>
      obtain ⟨str', hcase, hm'⟩ := hm.step hw
      simp only [Written.events, List.foldlM_cons, hcase, pure_bind, List.foldl_cons]
      exact ih hm'

theorem mainOptions_of_writes {os : List Opt} {ws : List (Written options.toOptions)} {prog : Text}
    {rest : List Text} {fuel : Nat} (hw : List.Forall₂ Writes os ws)
    (hrest : rest.head? = some ['-', '-'] ∨ ∀ a, rest.head? = some a → a.head? ≠ some '-')
    (hargs : ∀ a ∈ prog :: (ws.flatMap Written.text ++ rest), NulFree a)
    (hfuel : (Cursor.initial (fun _ => 0) (prog :: (ws.flatMap Written.text ++ rest))).size + 2 ≤ fuel) :
    ∃ str v, options.mainOptions fuel (prog :: (ws.flatMap Written.text ++ rest)) = pure (str, v) ∧
      Means (os.foldl Request.option .initial) str v.flags := by
  obtain ⟨str, hfold, hm⟩ := Means.initial.foldlM (v := ⟨none, fun _ => 0⟩) hw
  have hrun := Written.run_render ws ⟨none, fun _ => 0⟩ rest
  rw [Written.run_operands hrest, List.append_nil] at hrun
  refine ⟨str, (Written.events ws ⟨none, fun _ => 0⟩).2, ?_, hm⟩
  rw [StringOptions.mainOptions, optionLoop_eq options.toOptions _ _ _ hargs hfuel, Cursor.initial,
    List.tail_cons, hrun, hfold]
  rfl

end

/-! ## the lists are read -/

section
variable {δ : Type} {r : Request} {str : Strings} {flags : Nat → Int} {n : Nat}

/-- `used_devices` without a list. -/
theorem copyDevices_eq (devices : Nat → δ) (n : Nat) :
    ∃ used, copyDevices (.ofFn n devices) (List.range n) (Buffer.alloc δ n) = .ok used ∧
      used.StartsWith ((List.range n).map devices) := by
  have hstart : (Buffer.alloc δ n).size = n ∧
      (Buffer.alloc δ n).StartsWith ((List.range 0).map devices) :=
    ⟨rfl, fun k hk => absurd hk (Nat.not_lt_zero k)⟩
  have hstep : ∀ k < n, ∀ used : Buffer δ,
      used.size = n ∧ used.StartsWith ((List.range k).map devices) →
      ∃ used', (do
          let device ← (Buffer.ofFn n devices).read k
          used.write k device) = .ok used' ∧
        used'.size = n ∧ used'.StartsWith ((List.range (k + 1)).map devices) := by
    rintro k hk used ⟨hsize, hstarts⟩
    have hread : (Buffer.ofFn n devices).read k = .ok (devices k) :=
      Buffer.read_of_cell (Buffer.cell_ofFn hk)
    refine ⟨used.set k (devices k), ?_, hsize, ?_⟩
    · simp only [hread, bind, Except.bind]
      exact Buffer.write_of_lt _ (hsize ▸ hk)
    · have hnext := hstarts.set (devices k) (by simpa [hsize] using hk)
      rwa [List.length_map, List.length_range, ← List.map_singleton, ← List.map_append,
        ← List.range_succ] at hnext
  obtain ⟨used, hrun, -, hstarts⟩ := foldlM_range_of_invariant
    (fun k (used : Buffer δ) => used.size = n ∧ used.StartsWith ((List.range k).map devices))
    hstart hstep
  exact ⟨used, hrun, hstarts⟩

theorem Means.readDevices (hm : Means r str flags) (hn : n < 2 ^ 32) (devices : Nat → δ)
    (hfits : ∀ args, r.devices = some args → ListFits n args) :
    ∃ used, DeviceList.readDevices (.ofFn n devices) n (str 'b') =
        .ok (some (used, (r.ids n).length)) ∧ used.StartsWith ((r.ids n).map devices) := by
  have hm := hm.devices
  cases hdevices : r.devices with
  | none =>
      rw [hdevices] at hm
      obtain ⟨used, hrun, hstarts⟩ := copyDevices_eq devices n
      have hids : r.ids n = List.range n := by rw [Request.ids, hdevices]
      refine ⟨used, ?_, by rwa [hids]⟩
      rw [hids, List.length_range]
      rcases hm with hm | hm
      · rw [hm, DeviceList.readDevices, hrun]
        rfl
      · rw [hm, DeviceList.readDevices, if_pos rfl, hrun]
        rfl
  | some args =>
      rw [hdevices] at hm
      have hids : r.ids n = args.filterMap fun a => named n a.value := by rw [Request.ids, hdevices]
      rw [hids, show str 'b' = _ from hm]
      exact (selectionRight_iff_listFits hn devices args).mpr (hfits args hdevices)

/-- The lists that fit do not get in their own way. -/
theorem noClash_of_fits {D : Nat} {args : List SizeArg}
    (h : SizeList.Fits .bufferBandwidth D args) :
    args.length < 2 ^ 32 ∧ NoClash .bufferBandwidth D (args.map SizeArg.value) := by
  unfold SizeList.Fits at h
  split at h
  · next hwrap =>
    have hmax : Benchmark.bufferBandwidth.maxSizes < 2 ^ 32 := by decide
    rcases Nat.eq_zero_or_pos D with rfl | hD
    · exact ⟨h.trans_lt hmax, fun _ _ i hi => absurd hi (Nat.not_lt_zero i),
        fun _ _ _ _ i hi => absurd hi (Nat.not_lt_zero i)⟩
    · exact ⟨h.trans_lt hmax, (noClash_iff hD hwrap).mpr (by rwa [List.length_map])⟩
  · exact h

/-- The row of each device without a list of sizes. -/
theorem readSizes_default (D : Nat) : ∃ sizes, readSizes .bufferBandwidth D none =
      .ok (some (sizes, 1)) ∧
    ∀ i < D, sizes.cell (position .bufferBandwidth 0 i) = some Benchmark.bufferBandwidth.defaultSize := by
  obtain ⟨sizes₀, hzero, hsize⟩ := exists_zeroed .bufferBandwidth D
  obtain ⟨sizes, hwrite, -, hcell, -⟩ := Buffer.writeEach_of_lt (b := sizes₀)
    (position .bufferBandwidth 0) Benchmark.bufferBandwidth.defaultSize (List.range D) fun i hi => by
      rw [hsize, position, Nat.zero_add, Nat.mul_comm _ D]
      exact (Nat.mod_le _ _).trans_lt
        (Nat.mul_lt_mul_of_pos_right (List.mem_range.mp hi) (by decide))
  refine ⟨sizes, ?_, fun i hi => hcell i (List.mem_range.mpr hi)⟩
  simp only [readSizes, hzero, hwrite, bind, Except.bind]
  rfl

theorem Means.readSizes (hm : Means r str flags) (D : Nat)
    (hfits : ∀ args, r.sizes = some args → SizeList.Fits .bufferBandwidth D args) :
    ∃ sizes, SizeList.readSizes .bufferBandwidth D (str 'a') =
        .ok (some (sizes, r.sizeList.length)) ∧
      ∀ i < D, ∀ j < r.sizeList.length,
        sizes.cell (position .bufferBandwidth j i) = r.sizeList[j]? := by
  rw [hm.sizes]
  cases hsizes : r.sizes with
  | none =>
      have hlist : r.sizeList = [Benchmark.bufferBandwidth.defaultSize] := by
        rw [Request.sizeList, hsizes]
      obtain ⟨sizes, hrun, hrows⟩ := readSizes_default D
      rw [hlist]
      refine ⟨sizes, hrun, fun i hi j hj => ?_⟩
      obtain rfl : j = 0 := Nat.lt_one_iff.mp hj
      exact hrows i hi
  | some args =>
      have hlist : r.sizeList = args.map SizeArg.value := by rw [Request.sizeList, hsizes]
      obtain ⟨sizes, hrun, hrows⟩ := sizesRight_iff_noClash.mpr (noClash_of_fits (hfits args hsizes))
      rw [hlist, List.length_map]
      exact ⟨sizes, hrun, hrows⟩

end

/-! ## the runs -/

/-- What is read at the positions of a list is the list. -/
theorem map_range_getD {α : Type} (l : List α) (d : α) :
    (List.range l.length).map (fun k => l.getD k d) = l := by
  refine List.ext_getElem? fun k => ?_
  by_cases hk : k < l.length
  · simp [hk]
  · simp [hk]

section
variable {δ : Type} {plan : Plan δ} {r : Request} {devices : Nat → δ} {ids : List Nat}

/-- The plan is that of the request. -/
structure Plans (plan : Plan δ) (r : Request) (devices : Nat → δ) (ids : List Nat) : Prop where
  mm : plan.memMode = r.mm
  am : plan.accessMode = r.am
  repeats : plan.repeats = r.repeats
  iterations : plan.iterations = r.iterations
  numDevices : plan.usedNumDevices = ids.length
  numSizes : plan.numSizes = r.sizeList.length
  used : plan.usedDevices.StartsWith (ids.map devices)
  rows : ∀ i < ids.length, ∀ j < r.sizeList.length,
    plan.sizes.cell (position .bufferBandwidth j i) = r.sizeList[j]?

theorem Plans.deviceRuns (h : Plans plan r devices ids) {i : Nat} (hi : i < ids.length) :
    plan.deviceRuns i = .ok (r.sizeList.flatMap fun size =>
      List.replicate r.repeats ⟨devices (ids.getD i 0), r.mm, r.am, size, r.iterations⟩) := by
  have hdevice : plan.usedDevices.read i = .ok (devices (ids.getD i 0)) := by
    refine Buffer.read_of_cell ?_
    rw [h.used i (by rwa [List.length_map]), List.getElem?_map, List.getElem?_eq_getElem hi]
    simp [hi]
  have hpoints : (List.range plan.numSizes).mapM (plan.dataPoint (devices (ids.getD i 0)) i) =
      .ok ((List.range r.sizeList.length).map fun j => List.replicate r.repeats
        ⟨devices (ids.getD i 0), r.mm, r.am, r.sizeList.getD j 0, r.iterations⟩) := by
    rw [h.numSizes]
    refine mapM_eq_ok fun j hj => ?_
    have hj := List.mem_range.mp hj
    have hsize : plan.sizes.read (position .bufferBandwidth j i) = .ok (r.sizeList.getD j 0) := by
      refine Buffer.read_of_cell ?_
      rw [h.rows i hi j hj, List.getElem?_eq_getElem hj]
      simp [hj]
    rw [Plan.dataPoint, hsize, h.mm, h.am, h.repeats, h.iterations]
    rfl
  have hlist := map_range_getD r.sizeList 0
  rw [Plan.deviceRuns, hdevice]
  simp only [hpoints, bind, Except.bind, pure, Except.pure, Except.ok.injEq]
  rw [List.flatMap_def]
  conv_rhs => rw [← hlist]
  rw [List.map_map]
  rfl

theorem Plans.runs (h : Plans plan r devices ids) : plan.runs =
    .ok (ids.flatMap fun i => r.sizeList.flatMap fun size =>
      List.replicate r.repeats ⟨devices i, r.mm, r.am, size, r.iterations⟩) := by
  have hall : (List.range plan.usedNumDevices).mapM plan.deviceRuns =
      .ok ((List.range ids.length).map fun i => r.sizeList.flatMap fun size =>
        List.replicate r.repeats ⟨devices (ids.getD i 0), r.mm, r.am, size, r.iterations⟩) := by
    rw [h.numDevices]
    exact mapM_eq_ok fun i hi => h.deviceRuns (List.mem_range.mp hi)
  have hlist := map_range_getD ids 0
  rw [Plan.runs, hall]
  simp only [bind, Except.bind, pure, Except.pure, Except.ok.injEq]
  rw [List.flatMap_def]
  conv_rhs => rw [← hlist]
  rw [List.map_map]
  rfl

end

/-- **The runs**: whatever the order of the options, and in whatever form they are
written, the last of each kind counts, and every device of the list is run with
every size as often as asked for.  No access is outside an array. -/
theorem main_runs {δ : Type} (devices : Nat → δ) {n : Nat} (hn : n < 2 ^ 32) {os : List Opt}
    {ws : List (Written options.toOptions)} {prog : Text} {rest : List Text} {fuel : Nat}
    (hw : List.Forall₂ Writes os ws)
    (hrest : rest.head? = some ['-', '-'] ∨ ∀ a, rest.head? = some a → a.head? ≠ some '-')
    (hargs : ∀ a ∈ prog :: (ws.flatMap Written.text ++ rest), NulFree a)
    (hfuel : (Cursor.initial (fun _ => 0) (prog :: (ws.flatMap Written.text ++ rest))).size + 2 ≤ fuel)
    (hfits : (os.foldl Request.option .initial).Fits n) :
    ∃ plan, main fuel (prog :: (ws.flatMap Written.text ++ rest)) (.ofFn n devices) n =
        pure (.bench plan) ∧
      plan.runs = .ok ((os.foldl Request.option .initial).runs devices n) := by
  obtain ⟨str, v, hoptions, hm⟩ := mainOptions_of_writes hw hrest hargs hfuel
  set r := os.foldl Request.option .initial
  obtain ⟨used, hused, hstarts⟩ := hm.readDevices hn devices hfits.1
  obtain ⟨sizes, hsizes, hrows⟩ := hm.readSizes (r.ids n).length hfits.2
  let plan : Plan δ := ⟨v.flags 2, v.flags 3, v.flags 4, used, (r.ids n).length, sizes,
    r.sizeList.length, r.repeats, r.iterations⟩
  have hmm : plan.memMode = r.mm := by
    rw [Plan.memMode, show plan.pinnedFlag = _ from hm.pinned]
    cases r.mm <;> rfl
  have ham : plan.accessMode = r.am := by
    rw [Plan.accessMode, show plan.mappedFlag = _ from hm.mapped]
    cases r.am <;> rfl
  have hplans : Plans plan r devices (r.ids n) := ⟨hmm, ham, rfl, rfl, rfl, rfl, hstarts, hrows⟩
  refine ⟨plan, ?_, hplans.runs⟩
  rw [main, hoptions, pure_bind]
  simp only [hm.info, hm.usage, ne_eq, not_true, if_false, hused, hsizes, liftM_ok, pure_bind,
    hm.repeats, hm.iterations]
  rfl

/-- `--pin --sizes=64K --device 0x1,0 --repeats=3` -/
def exampleOpts : List Opt := [.pinned, .sizes [sixtyFourK], .devices [one, zero], .repeats ⟨3, by decide⟩]

def exampleWritten : List (Written options.toOptions) := [
  { key := "pin".toList, index := 3, opt := Opt.pinned.row, found := rfl
    key_ne := by decide, noEquals := by decide
    value := none, takes := by decide, separate := false },
  { key := "sizes".toList, index := 7, opt := (Opt.sizes []).row, found := rfl
    key_ne := by decide, noEquals := by decide
    value := some "64K".toList, takes := by decide, separate := false },
  { key := "device".toList, index := 8, opt := Opt.allDevices.row, found := rfl
    key_ne := by decide, noEquals := by decide
    value := some "0x1,0".toList, takes := by decide, separate := true },
  { key := "repeats".toList, index := 9, opt := (Opt.repeats ⟨3, by decide⟩).row, found := rfl
    key_ne := by decide, noEquals := by decide
    value := some "3".toList, takes := by decide, separate := false }]

/-- Two devices: the second is run first. -/
theorem main_runs_second : ∃ plan,
    main 80 ["buffer_bandwidth".toList, "--pin".toList, "--sizes=64K".toList, "--device".toList,
        "0x1,0".toList, "--repeats=3".toList] (.ofFn 2 id) 2 = pure (.bench plan) ∧
      plan.runs = .ok (List.replicate 3 ⟨1, .pinned, .direct, 65536, 25⟩ ++
        List.replicate 3 ⟨0, .pinned, .direct, 65536, 25⟩) := by
  have hfits : (exampleOpts.foldl Request.option .initial).Fits 2 := by
    refine ⟨fun args h => ?_, fun args h => ?_⟩
    · obtain rfl : [one, zero] = args := Option.some.inj h
      decide
    · obtain rfl : [sixtyFourK] = args := Option.some.inj h
      exact show 1 ≤ 64 by decide
  have hwrites : List.Forall₂ Writes exampleOpts exampleWritten :=
    .cons ⟨rfl, rfl⟩ (.cons ⟨rfl, by decide⟩ (.cons ⟨rfl, by decide⟩ (.cons ⟨rfl, by decide⟩ .nil)))
  exact @main_runs Nat id 2 (by decide) exampleOpts exampleWritten "buffer_bandwidth".toList [] 80
    hwrites (.inr nofun) (by decide) (by decide) hfits

end UclBench.BufferBandwidth
