import UclBench.MemLatency.Adjust
import Mathlib.Data.List.Induction

/-!
# UclBench.MemLatency.Options

Which runs the options select (`main` of `mem_latency.cpp`).

The parser keeps the last value of every option and uses -1 for "not given".
`main` sweeps over the layouts and memory types that are not fixed, and fills
in the defaults of a memory type only while it sweeps over them, so a fixed
type without a size or an iteration count runs with the sentinel itself.
`selectionRight_iff` is the exact condition.
-/

namespace UclBench.MemLatency

/-! ## parsing -/

/-- `mtype_to_string` -/
def mtypeToString : MemType → String
  | .global => "global"
  | .local => "local"
  | .constant => "const"

/-- `data_layout_to_string` -/
def dataLayoutToString : DataLayout → String
  | .sequential => "sequential"
  | .cacheStep => "cache_step"

/-- The memory types in the order of the enumeration. -/
def memTypes : List MemType := [.global, .constant, .local]

/-- The layouts in the order of the enumeration. -/
def dataLayouts : List DataLayout := [.sequential, .cacheStep]

/-- An option that selects runs, with its argument. -/
inductive Opt where
  /-- A `long`. -/
  | size (v : Int64)
  /-- An `int`. -/
  | iterations (v : Int32)
  | type (arg : String)
  | layout (arg : String)
  deriving DecidableEq

/-- The variables of `main` that hold the options. -/
structure Params where
  bytesizeParam : Int64
  iterationsParam : Int32
  memType : MemType
  dataLayout : DataLayout
  typeSet : Bool
  layoutSet : Bool
  deriving DecidableEq

/-- Before the first option. -/
def Params.initial : Params := ⟨-1, -1, .global, .cacheStep, false, false⟩

/-- One pass of the option loop.  A name that is not recognised changes
nothing. -/
def Params.option (p : Params) : Opt → Params
  | .size v => { p with bytesizeParam := v }
  | .iterations v => { p with iterationsParam := v }
  | .type arg => match memTypes.find? (mtypeToString · = arg) with
      | some mt => { p with memType := mt, typeSet := true }
      | none => p
  | .layout arg => match dataLayouts.find? (dataLayoutToString · = arg) with
      | some layout => { p with dataLayout := layout, layoutSet := true }
      | none => p

def parse (opts : List Opt) : Params := opts.foldl Params.option .initial

/-! ## the sweep -/

/-- `DEFAULT_GLOBAL_ITERATIONS` and its siblings. -/
def defaultIterations : MemType → Nat
  | .global => 2
  | .constant => 1000
  | .local => 1000

/-- `DEFAULT_GLOBAL_BYTESIZE` and its siblings. -/
def defaultBytesize : MemType → Nat
  | .global => 32 * 1024 * 1024
  | .constant => 32 * 1024 * 1024
  | .local => 32 * 1024 * 1024

/-- A `long` or an `int` as an `unsigned long`. -/
def toULong (v : Int) : Nat := (v % 2 ^ 64).toNat

/-- The arguments of `run_latency_benchmark`. -/
structure BenchmarkRun where
  bytesize : Nat
  memType : MemType
  dataLayout : DataLayout
  iterations : Nat
  deriving DecidableEq

/-- The pass `mtcnt` of the inner loop: a run, unless the type is fixed and has
had its run.  The sweep assigns the variable that holds a fixed type. -/
def typePass (s : Params × List BenchmarkRun) (mtcnt : Nat) : Params × List BenchmarkRun :=
  let (p, runs) := s
  let iterations := toULong p.iterationsParam.toInt
  let bytesize := toULong p.bytesizeParam.toInt
  if p.typeSet then
    if 0 < mtcnt then s else (p, runs ++ [⟨bytesize, p.memType, p.dataLayout, iterations⟩])
  else
    match memTypes[mtcnt]? with
    | some mt =>
        let iterations := if p.iterationsParam = -1 then defaultIterations mt else iterations
        let bytesize := if p.bytesizeParam = -1 then defaultBytesize mt else bytesize
        ({ p with memType := mt }, runs ++ [⟨bytesize, mt, p.dataLayout, iterations⟩])
    | none => s

/-- The pass `layoutcnt` of the outer loop. -/
def layoutPass (s : Params × List BenchmarkRun) (layoutcnt : Nat) : Params × List BenchmarkRun :=
  let (p, runs) := s
  if p.layoutSet then
    if 0 < layoutcnt then s else [0, 1, 2].foldl typePass s
  else
    match dataLayouts[layoutcnt]? with
    | some layout => [0, 1, 2].foldl typePass ({ p with dataLayout := layout }, runs)
    | none => s

/-- The runs on one device. -/
def deviceRuns (p : Params) : Params × List BenchmarkRun := [0, 1].foldl layoutPass (p, [])

/-- The runs on each of `n` devices. -/
def mainRuns (p : Params) : Nat → List (List BenchmarkRun)
  | 0 => []
  | n + 1 => (deviceRuns p).2 :: mainRuns (deviceRuns p).1 n

/-! ## what the options ask for -/

section
variable (opts : List Opt)

/-- The last size. -/
def givenSize : Option Int64 :=
  (opts.filterMap fun o => match o with | .size v => some v | _ => none).getLast?

def givenIterations : Option Int32 :=
  (opts.filterMap fun o => match o with | .iterations v => some v | _ => none).getLast?

/-- The last memory type that is recognised. -/
def givenType : Option MemType :=
  (opts.filterMap fun o => match o with
    | .type arg => memTypes.find? (mtypeToString · = arg)
    | _ => none).getLast?

def givenLayout : Option DataLayout :=
  (opts.filterMap fun o => match o with
    | .layout arg => dataLayouts.find? (dataLayoutToString · = arg)
    | _ => none).getLast?

/-- The size for a memory type: what is given, or the default. -/
def expectedBytesize (mt : MemType) : Nat :=
  (givenSize opts).elim (defaultBytesize mt) fun v => toULong v.toInt

def expectedIterations (mt : MemType) : Nat :=
  (givenIterations opts).elim (defaultIterations mt) fun v => toULong v.toInt

/-- One run for each pair of a selected layout and a selected type, with the
given values and the defaults of its type. -/
structure RunsRight (runs : List BenchmarkRun) : Prop where
  pairs : ∀ layout mt, (runs.filter fun r => r.dataLayout = layout ∧ r.memType = mt).length =
    if (givenLayout opts = none ∨ givenLayout opts = some layout) ∧
      (givenType opts = none ∨ givenType opts = some mt) then 1 else 0
  bytesize : ∀ r ∈ runs, r.bytesize = expectedBytesize opts r.memType
  iterations : ∀ r ∈ runs, r.iterations = expectedIterations opts r.memType

/-- So it is on every device. -/
def SelectionRight (n : Nat) : Prop :=
  (mainRuns (parse opts) n).length = n ∧ ∀ runs ∈ mainRuns (parse opts) n, RunsRight opts runs

/-- The parser finds the last value of each option. -/
theorem parse_eq : parse opts = ⟨(givenSize opts).getD (-1), (givenIterations opts).getD (-1),
    (givenType opts).getD .global, (givenLayout opts).getD .cacheStep, (givenType opts).isSome,
    (givenLayout opts).isSome⟩ := by
  induction opts using List.reverseRecOn with
  | nil => rfl
  | append_singleton opts o ih =>
      rw [parse, List.foldl_append]
      change (parse opts).option o = _
      rw [ih]
      cases o with
      | size v => simp [Params.option, givenSize, givenIterations, givenType, givenLayout]
      | iterations v => simp [Params.option, givenSize, givenIterations, givenType, givenLayout]
      | type arg =>
          cases hfind : memTypes.find? (mtypeToString · = arg) with
          | some mt =>
              simp [Params.option, givenSize, givenIterations, givenType, givenLayout, hfind]
          | none =>
              simp [Params.option, givenSize, givenIterations, givenType, givenLayout, hfind]
      | layout arg =>
          cases hfind : dataLayouts.find? (dataLayoutToString · = arg) with
          | some l =>
              simp [Params.option, givenSize, givenIterations, givenType, givenLayout, hfind]
          | none =>
              simp [Params.option, givenSize, givenIterations, givenType, givenLayout, hfind]

end

/-! ## the runs -/

/-- The runs that parameters select, in order. -/
def selectedRuns (p : Params) : List BenchmarkRun :=
  (if p.layoutSet then [p.dataLayout] else dataLayouts).flatMap fun layout =>
    (if p.typeSet then [p.memType] else memTypes).map fun mt =>
      ⟨if p.bytesizeParam = -1 ∧ ¬ p.typeSet then defaultBytesize mt
          else toULong p.bytesizeParam.toInt,
        mt, layout,
        if p.iterationsParam = -1 ∧ ¬ p.typeSet then defaultIterations mt
          else toULong p.iterationsParam.toInt⟩

/-- A device gets these runs, and so does the next one. -/
theorem deviceRuns_eq (p : Params) : (deviceRuns p).2 = selectedRuns p ∧
    selectedRuns (deviceRuns p).1 = selectedRuns p := by
  obtain ⟨size, iterations, mt, layout, typeSet, layoutSet⟩ := p
  cases typeSet <;> cases layoutSet <;>
    simp [deviceRuns, layoutPass, typePass, selectedRuns, dataLayouts, memTypes]

theorem mainRuns_eq (p : Params) (n : Nat) : mainRuns p n = List.replicate n (selectedRuns p) := by
  induction n generalizing p with
  | zero => rfl
  | succ n ih =>
      rw [mainRuns, ih, (deviceRuns_eq p).1, (deviceRuns_eq p).2, List.replicate_succ]

theorem mem_selectedRuns {p : Params} {r : BenchmarkRun} (h : r ∈ selectedRuns p) :
    r.bytesize = (if p.bytesizeParam = -1 ∧ ¬ p.typeSet then defaultBytesize r.memType
      else toULong p.bytesizeParam.toInt) ∧
    r.iterations = (if p.iterationsParam = -1 ∧ ¬ p.typeSet then defaultIterations r.memType
      else toULong p.iterationsParam.toInt) := by
  simp only [selectedRuns, List.mem_flatMap, List.mem_map] at h
  obtain ⟨layout, -, mt, -, rfl⟩ := h
  exact ⟨rfl, rfl⟩

theorem exists_mem_selectedRuns (p : Params) : ∃ r, r ∈ selectedRuns p := by
  obtain ⟨size, iterations, mt, layout, typeSet, layoutSet⟩ := p
  cases typeSet <;> cases layoutSet <;> simp [selectedRuns, dataLayouts, memTypes]

/-- The pairs are right whatever the values. -/
theorem selectedRuns_pairs (opts : List Opt) (layout : DataLayout) (mt : MemType) :
    ((selectedRuns (parse opts)).filter fun r => r.dataLayout = layout ∧ r.memType = mt).length =
      if (givenLayout opts = none ∨ givenLayout opts = some layout) ∧
        (givenType opts = none ∨ givenType opts = some mt) then 1 else 0 := by
  rw [parse_eq]
  generalize givenLayout opts = l, givenType opts = t
  cases l with
  | none =>
      cases t with
      | none => cases layout <;> cases mt <;> simp [selectedRuns, dataLayouts, memTypes]
      | some t => cases layout <;> cases mt <;> cases t <;> simp [selectedRuns, dataLayouts]
  | some l =>
      cases t with
      | none => cases layout <;> cases mt <;> cases l <;> simp [selectedRuns, memTypes]
      | some t => cases layout <;> cases mt <;> cases l <;> cases t <;> simp [selectedRuns]

/-- Passing -1 for "not given" is right when it is not given and a default
takes its place, or when it is given and none does. -/
theorem sentinel_iff [DecidableEq α] (minusOne : α) (toInt : α → Int) (hneg : toInt minusOne = -1)
    {dflt : Nat} (hdflt : dflt < 2 ^ 64 - 1) (given : Option α) (set : Bool) :
    (if given.getD minusOne = minusOne ∧ ¬ set then dflt else toULong (toInt (given.getD minusOne))) =
      given.elim dflt (fun v => toULong (toInt v)) ↔
      if set then given ≠ none else given ≠ some minusOne := by
  have hsentinel : toULong (toInt minusOne) = 2 ^ 64 - 1 := by rw [hneg]; rfl
  cases given with
  | none =>
      cases set with
      | true => simp; omega
      | false => simp
  | some v =>
      cases set with
      | true => simp
      | false =>
          by_cases hv : v = minusOne
          · simp [hv]
            omega
          · simp [hv]

theorem defaultBytesize_lt (mt : MemType) : defaultBytesize mt < 2 ^ 64 - 1 := by
  cases mt <;> decide

theorem defaultIterations_lt (mt : MemType) : defaultIterations mt < 2 ^ 64 - 1 := by
  cases mt <;> decide

/-- A fixed type needs both values; without one, neither may be -1. -/
def ValuesGiven (opts : List Opt) : Prop :=
  if (givenType opts).isSome then givenSize opts ≠ none ∧ givenIterations opts ≠ none
  else givenSize opts ≠ some (-1) ∧ givenIterations opts ≠ some (-1)

instance (opts : List Opt) : Decidable (ValuesGiven opts) :=
  inferInstanceAs (Decidable (if (givenType opts).isSome then
      givenSize opts ≠ none ∧ givenIterations opts ≠ none
    else givenSize opts ≠ some (-1) ∧ givenIterations opts ≠ some (-1)))

theorem runsRight_iff (opts : List Opt) :
    RunsRight opts (selectedRuns (parse opts)) ↔ ValuesGiven opts := by
  have hbytesize (r : BenchmarkRun) (hr : r ∈ selectedRuns (parse opts)) :
      r.bytesize = expectedBytesize opts r.memType ↔
        if (givenType opts).isSome then givenSize opts ≠ none else givenSize opts ≠ some (-1) := by
    rw [(mem_selectedRuns hr).1, parse_eq]
    exact sentinel_iff (-1) Int64.toInt rfl (defaultBytesize_lt _) _ _
  have hiterations (r : BenchmarkRun) (hr : r ∈ selectedRuns (parse opts)) :
      r.iterations = expectedIterations opts r.memType ↔
        if (givenType opts).isSome then givenIterations opts ≠ none
        else givenIterations opts ≠ some (-1) := by
    rw [(mem_selectedRuns hr).2, parse_eq]
    exact sentinel_iff (-1) Int32.toInt rfl (defaultIterations_lt _) _ _
  constructor
  · intro h
    obtain ⟨r, hr⟩ := exists_mem_selectedRuns (parse opts)
    have hsize := (hbytesize r hr).mp (h.bytesize r hr)
    have hcount := (hiterations r hr).mp (h.iterations r hr)
    rw [ValuesGiven]
    split <;> simp_all
  · intro h
    rw [ValuesGiven] at h
    refine ⟨selectedRuns_pairs opts, fun r hr => (hbytesize r hr).mpr ?_,
      fun r hr => (hiterations r hr).mpr ?_⟩
    · split at h <;> simp_all
    · split at h <;> simp_all

/-- **Run selection**: for every sequence of options and every number of
devices, each device gets one run for each selected pair, and the runs get the
values they should exactly when a given type comes with both values, or an
absent one with neither given as -1. -/
theorem selectionRight_iff (opts : List Opt) (n : Nat) (hn : 0 < n) :
    SelectionRight opts n ↔ ValuesGiven opts := by
  rw [SelectionRight, mainRuns_eq, List.length_replicate]
  constructor
  · rintro ⟨-, h⟩
    exact (runsRight_iff opts).mp (h _ (List.mem_replicate.mpr ⟨by omega, rfl⟩))
  · intro h
    refine ⟨rfl, fun runs hruns => ?_⟩
    rw [(List.mem_replicate.mp hruns).2]
    exact (runsRight_iff opts).mpr h

/-- `--size=4096 --type=local --size=8192 --iterations=3` on two devices. -/
theorem selectionRight_iff_local : 0 < 2 ∧
    SelectionRight [.size 4096, .type "local", .size 8192, .iterations 3] 2 :=
  ⟨by decide, (selectionRight_iff [.size 4096, .type "local", .size 8192, .iterations 3] 2
    (by decide)).mpr (by decide)⟩

/-- `--type=global` alone: 2^64 - 1 bytes, 2^64 - 1 iterations. -/
theorem selection_fails_type : ⟨2 ^ 64 - 1, .global, .sequential, 2 ^ 64 - 1⟩ ∈
    selectedRuns (parse [.type "global"]) ∧ ¬ SelectionRight [.type "global"] 1 := by
  refine ⟨by decide, ?_⟩
  rintro ⟨-, h⟩
  rw [mainRuns_eq] at h
  exact absurd ((runsRight_iff _).mp (h _ (List.mem_replicate.mpr ⟨by decide, rfl⟩))) (by decide)

end UclBench.MemLatency
