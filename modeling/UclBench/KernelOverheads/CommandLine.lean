import UclBench.ClLib.OptionLoop
import UclBench.DeviceList

/-!
# UclBench.KernelOverheads.CommandLine

`main` of `kernel_overheads.cpp` from `argv` to the devices it benchmarks.

`device_id` has no value before an option gives it one.  A command line is
turned away when it is short or a number is refused, so the variable is read
without a value exactly when no `--device` is among three or more arguments.

The options are read by the `getopt_long` of `clcommon.cpp`, which is there for
systems other than `UNIX`, and the OpenCL calls succeed.
-/

namespace UclBench.KernelOverheads

open ClLib DeviceList

/-! ## the options -/

/-- `long_options`; the flag is `csv_flag`. -/
def longOptions : List LongOpt := [
  ⟨"csv".toList, 0, some 0, 1⟩,
  ⟨"device".toList, 1, none, 'a'.toNat⟩]

def options : Options where
  optstring := []
  longopts := longOptions
  plain := by decide
  names := by decide
  val_ne := by decide

/-- `show_help` -/
def showHelp {α : Type} : Main α := throw (.code 1)

/-- `switch(c)`, on `device_id` -/
def optionCase (deviceId : Option Int) (e : Event) : Main (Option Int) :=
  if e.1 = 0 then pure deviceId
  else if e.1 = 'a'.toNat then do
    let arg ← cString e.2
    match scanI arg with
    | none => showHelp
    | some v => if v < -1 then showHelp else pure (some v)
  else if e.1 = '?'.toNat then pure deviceId
  else throw .abort

section
variable {δ : Type}

/-- `lower_id` and `upper_id`, and the loop between them. -/
def benchBetween (devices : Buffer δ) (numDevices : Nat) (deviceId : Int) : Except Fault (List δ) :=
  let (lowerId, upperId) : Int × Int :=
    if deviceId = -1 then (0, toInt numDevices) else (deviceId, toInt (deviceId + 1))
  benchDevices devices numDevices (upperId - lowerId).toNat lowerId

/-- `main`: `csv_flag` and the devices that are benchmarked, as long as no call fails. -/
def main (fuel : Nat) (argv : List Text) (devices : Buffer δ) (numDevices : Nat) :
    Main (Int × List δ) := do
  if argv.length < 3 then showHelp
  else do
    let (deviceId, v) ← optionLoop optionCase fuel argv options.optstring options.longopts
      (fun _ => 0) none
    match deviceId with
    | none => (.error .uninitialised : Except Fault (Int × List δ))
    | some deviceId => do
        let ds ← benchBetween devices numDevices deviceId
        pure (v.flags 0, ds)

end

/-! ## what is read -/

/-- The number in an argument of `--device`, unless it is refused. -/
def accepted (arg : Text) : Option Int := (scanI arg).filter (-1 ≤ ·)

/-- The arguments of `--device`, one after the other. -/
def deviceIds (es : List Event) : List (Option Int) := (argsOf 'a' es).map (·.bind accepted)

/-- The devices for a number. -/
def benchmarked {δ : Type} (devices : Nat → δ) (n : Nat) (v : Int) : Except Fault (List δ) :=
  if v = -1 then .ok ((List.range n).map devices)
  else if v < n then .ok [devices v.toNat]
  -- the first number behind the devices, except where `device_id + 1` wraps around
  else if v = n ∧ n ≠ 2 ^ 31 - 1 then .error .outOfBounds
  else .ok []

/-- A call reports `--csv`, a number for a device, or an option that is rejected. -/
def Reported (e : Event) : Prop := e.1 = 0 ∨ (e.1 = 'a'.toNat ∧ e.2 ≠ none) ∨ e.1 = '?'.toNat

theorem reported_of_mem_run (k : Cursor) : ∀ e ∈ (k.run options).1, Reported e := by
  refine Cursor.forall_mem_run options (fun k c k' h => ?_) k
  rcases Cursor.next_cases options h with ⟨d, cs, -, hk⟩ | ⟨arg, rest, -, -, hk⟩ |
    ⟨d, cs, rest, -, -, hk⟩
  · rcases Cursor.short_cases options (k := k) d cs with hc | ⟨hd, -⟩
    · exact .inr (.inr ((congrArg Prod.fst hk).trans hc))
    · exact absurd hd List.not_mem_nil
  · rcases Cursor.long_cases options (k := { k with rest }) arg with
      ⟨hc, -⟩ | ⟨o, ho, v, hfinish, -, hthere⟩
    · exact .inr (.inr ((congrArg Prod.fst hk).trans hc))
    · rw [← hk] at hfinish
      obtain ⟨hc, hv⟩ := Prod.mk.inj hfinish
      have hoptarg : k'.vars.optarg = v.optarg := (congrArg Vars.optarg hv).trans (Cursor.finish_optarg o v)
      rw [Reported, hc, hoptarg]
      simp only [options, longOptions, List.mem_cons, List.not_mem_nil, or_false] at ho
      rcases ho with rfl | rfl
      · exact .inl rfl
      · exact .inr (.inl ⟨rfl, hthere rfl⟩)
  · rcases Cursor.short_cases options (k := { k with rest }) d cs with hc | ⟨hd, -⟩
    · exact .inr (.inr ((congrArg Prod.fst hk).trans hc))
    · exact absurd hd List.not_mem_nil

/-- The last number counts, if none is refused. -/
theorem foldlM_optionCase (es : List Event) (p : Option Int)
    (h : ∀ e ∈ es, Reported e) :
    es.foldlM optionCase p = if none ∈ deviceIds es then showHelp
      else pure ((deviceIds es).getLast?.getD p) := by
  induction es generalizing p with
  | nil => rfl
  | cons e es ih =>
      obtain ⟨he, hes⟩ := List.forall_mem_cons.mp h
      rw [List.foldlM_cons]
      have hskip (hcode : e.1 ≠ 'a'.toNat) : deviceIds (e :: es) = deviceIds es := by
        rw [deviceIds, argsOf_cons_of_ne hcode, ← deviceIds]
      rcases he with hzero | ⟨hdevice, harg⟩ | hquestion
      · rw [optionCase, if_pos hzero, pure_bind, ih p hes, hskip (by rw [hzero]; decide)]
      · obtain ⟨arg, harg⟩ := Option.ne_none_iff_exists'.mp harg
        have hcons : deviceIds (e :: es) = accepted arg :: deviceIds es := by
          rw [deviceIds, argsOf_cons_of_eq hdevice, harg, List.map_cons, ← deviceIds]
          rfl
        have hcase : optionCase p e = match accepted arg with
            | none => showHelp
            | some v => pure (some v) := by
          rw [optionCase, if_neg (by rw [hdevice]; decide), if_pos hdevice, harg]
          change (match scanI arg with
            | none => showHelp
            | some v => if v < -1 then showHelp else pure (some v)) = _
          unfold accepted
          cases scanI arg with
          | none => rfl
          | some v =>
              by_cases hv : v < -1
              · simp only [if_pos hv, Option.filter_some, decide_eq_true_eq, if_neg (Int.not_le.mpr hv)]
              · simp only [if_neg hv, Option.filter_some, decide_eq_true_eq, if_pos (Int.not_lt.mp hv)]
        rw [hcase, hcons]
        cases accepted arg with
        | none => rw [if_pos List.mem_cons_self]; rfl
        | some v =>
            dsimp only
            rw [pure_bind, ih (some v) hes, List.getLast?_cons, Option.getD_some]
            simp
      · rw [optionCase, if_neg (by rw [hquestion]; decide), if_neg (by rw [hquestion]; decide),
          if_pos hquestion, pure_bind, ih p hes, hskip (by rw [hquestion]; decide)]

/-! ## the devices -/

theorem lt_of_scanI {arg : Text} {v : Int} (h : scanI arg = some v) : v < 2 ^ 31 := by
  simp only [scanI] at h
  split at h
  · contradiction
  · cases h
    simp only [toInt]
    omega

/-- A number that is accepted is an `int` from -1 on. -/
theorem bounds_of_accepted {arg : Text} {v : Int} (h : accepted arg = some v) :
    -1 ≤ v ∧ v < 2 ^ 31 := by
  rw [accepted, Option.filter_eq_some_iff] at h
  exact ⟨by simpa using h.2, lt_of_scanI h.1⟩

theorem bounds_of_mem_deviceIds {es : List Event} {v : Int} (h : some v ∈ deviceIds es) :
    -1 ≤ v ∧ v < 2 ^ 31 := by
  obtain ⟨arg, -, harg⟩ := List.mem_map.mp h
  obtain ⟨text, -, hv⟩ := Option.bind_eq_some_iff.mp harg
  exact bounds_of_accepted hv

section
variable {δ : Type} (devices : Nat → δ) {n : Nat}

theorem benchBetween_eq (hn : n < 2 ^ 31) {v : Int} (hlow : -1 ≤ v) (hhigh : v < 2 ^ 31) :
    benchBetween (.ofFn n devices) n v = benchmarked devices n v := by
  have hint : toInt n = n := by
    simp only [toInt]
    omega
  unfold benchBetween benchmarked
  by_cases hall : v = -1
  · have hrun := benchDevices_of_le devices hn n 0 (by omega)
    simpa [hall, hint, List.range_eq_range'] using hrun
  rw [if_neg hall, if_neg hall]
  obtain ⟨i, rfl⟩ : ∃ i : Nat, v = i := ⟨v.toNat, by omega⟩
  dsimp only
  by_cases hmax : i = 2 ^ 31 - 1
  · -- there is no pass
    have hpasses : (toInt ((i : Int) + 1) - i).toNat = 0 := by
      simp only [toInt]
      omega
    rw [hpasses, if_neg (by omega), if_neg (by omega)]
    rfl
  · have hpasses : (toInt ((i : Int) + 1) - i).toNat = 1 := by
      simp only [toInt]
      omega
    rw [hpasses, benchDevices_one devices hn]
    by_cases hlt : i < n
    · rw [if_pos hlt, if_pos (by omega), Int.toNat_natCast]
    by_cases heq : i = n
    · rw [if_neg hlt, if_pos heq, if_neg (by omega), if_pos (by omega)]
    · rw [if_neg hlt, if_neg heq, if_neg (by omega), if_neg (by omega)]

/-- **`main`**, on every command line: it is turned away if it is too short or a
number is refused, and `device_id` is read without a value if no number is
given.  Otherwise the last one counts, and the only one that is read behind the
devices is their number. -/
theorem main_eq (hn : n < 2 ^ 31) {argv : List Text} {fuel : Nat} (hargs : ∀ a ∈ argv, NulFree a)
    (hfuel : (Cursor.initial (fun _ => 0) argv).size + 2 ≤ fuel) :
    main fuel argv (.ofFn n devices) n =
      let r := (Cursor.initial (fun _ => 0) argv).run options
      if argv.length < 3 ∨ none ∈ deviceIds r.1 then showHelp
      else match (deviceIds r.1).getLast?.join with
        | none => (.error .uninitialised : Except Fault (Int × List δ))
        | some v => (fun ds => (r.2.flags 0, ds)) <$> (benchmarked devices n v : Main (List δ)) := by
  dsimp only
  unfold main
  by_cases hshort : argv.length < 3
  · rw [if_pos hshort, if_pos (.inl hshort)]
  rw [if_neg hshort, optionLoop_eq options optionCase _ _ hargs hfuel,
    foldlM_optionCase _ _ (reported_of_mem_run _)]
  set r := (Cursor.initial (fun _ => 0) argv).run options
  by_cases hrefused : none ∈ deviceIds r.1
  · rw [if_pos hrefused, if_pos (.inr hrefused)]
    rfl
  rw [if_neg hrefused, if_neg (not_or.mpr ⟨hshort, hrefused⟩), map_pure, pure_bind]
  dsimp only
  cases hlast : (deviceIds r.1).getLast? with
  | none => rfl
  | some id =>
      cases id with
      | none => exact absurd (List.mem_of_getLast? hlast) hrefused
      | some v =>
          obtain ⟨hlow, hhigh⟩ := bounds_of_mem_deviceIds (List.mem_of_getLast? hlast)
          dsimp only [Option.getD_some, Option.join_some]
          rw [benchBetween_eq devices hn hlow hhigh]
          rfl

end

/-- `--device 1 --csv --dev=2` -/
def exampleArgs : List Text :=
  ["kernel_overheads".toList, "--device".toList, "1".toList, "--csv".toList, "--dev=2".toList]

theorem run_exampleArgs : (Cursor.initial (fun _ => 0) exampleArgs).run options =
    ([(('a'.toNat : Int), some ['1']), (0, some ['1']), (('a'.toNat : Int), some ['2'])],
      ⟨some ['2'], Function.update (fun _ => 0) 0 1⟩) := by
  have hend : Cursor.run options ⟨⟨some ['2'], Function.update (fun _ => 0) 0 1⟩, [], []⟩ =
      ([], ⟨some ['2'], Function.update (fun _ => 0) 0 1⟩) := Cursor.run_none options rfl
  rw [Cursor.run_some options (c := 'a'.toNat) rfl, Cursor.run_some options (c := 0) rfl,
    Cursor.run_some options (c := 'a'.toNat) rfl]
  exact congrArg (fun r : List Event × Vars => (_ :: _ :: _ :: r.1, r.2)) hend

/-- Of two devices there is none with the number 2. -/
theorem main_eq_two : 2 < 2 ^ 31 ∧ (∀ a ∈ exampleArgs, NulFree a) ∧
    main 40 exampleArgs (.ofFn 2 id) 2 = (.error .outOfBounds : Except Fault (Int × List Nat)) := by
  have hargs : ∀ a ∈ exampleArgs, NulFree a := by decide
  refine ⟨by decide, hargs, ?_⟩
  rw [main_eq id (by decide) hargs (by decide), run_exampleArgs]
  rfl

end UclBench.KernelOverheads
