import UclBench.ClLib.OptionLoop
import UclBench.MemLatency.Options
import UclBench.SizeList

/-!
# UclBench.MemLatency.CommandLine

The option loop of `mem_latency.cpp`, from `argv` to the variables of `main`.

`commandLine_parse`: the selecting options, however they are written on the
command line, have the effect that `parse` gives them.
-/

namespace UclBench.MemLatency

open ClLib

/-! ## numbers -/

/-- `strtol(…, 10)`, which keeps to the range of a `long`. -/
def strtol (s : Text) : Int :=
  let (negative, s) := SizeList.scanSign (s.dropWhile SizeList.isSpace)
  let n : Int := Nat.ofDigitChars 10 (s.takeWhile (·.isDigit)) 0
  if negative then max (-n) (-2 ^ 63) else min n (2 ^ 63 - 1)

def atol (s : Text) : Int64 := Int64.ofInt (strtol s)

def atoi (s : Text) : Int32 := Int32.ofInt (strtol s)

/-! ## the options -/

/-- The variables behind the flags. -/
inductive Flag where
  | info
  | usage
  | csv

def Flag.index : Flag → Nat
  | .info => 0
  | .usage => 1
  | .csv => 2

/-- `long_options` -/
def longOptions : List LongOpt := [
  ⟨"info".toList, 0, some Flag.info.index, 1⟩,
  ⟨"help".toList, 0, some Flag.usage.index, 1⟩,
  ⟨"csv".toList, 0, some Flag.csv.index, 1⟩,
  ⟨"size".toList, 2, none, 'a'.toNat⟩,
  ⟨"device".toList, 2, none, 'b'.toNat⟩,
  ⟨"repeats".toList, 2, none, 'c'.toNat⟩,
  ⟨"type".toList, 2, none, 'd'.toNat⟩,
  ⟨"iterations".toList, 2, none, 'e'.toNat⟩,
  ⟨"layout".toList, 2, none, 'f'.toNat⟩]

def options : Options where
  optstring := "a:".toList
  longopts := longOptions
  plain := by decide
  names := by decide
  val_ne := by decide

/-- The variables of `main` that the options set. -/
structure Settings extends Params where
  deviceId : Int32
  repeats : UInt32
  deriving DecidableEq

def Settings.initial : Settings := ⟨.initial, -1, 1⟩

/-- `switch (c)` -/
def optionCase (p : Settings) (e : Event) : Main Settings :=
  if e.1 = 'a'.toNat then do
    let arg ← cString e.2
    pure { p with toParams := p.toParams.option (.size (atol arg)) }
  else if e.1 = 'b'.toNat then do
    let arg ← cString e.2
    pure { p with deviceId := atoi arg }
  else if e.1 = 'c'.toNat then do
    let arg ← cString e.2
    pure { p with repeats := (atoi arg).toUInt32 }
  else if e.1 = 'd'.toNat then do
    let arg ← cString e.2
    pure { p with toParams := p.toParams.option (.type (String.ofList arg)) }
  else if e.1 = 'e'.toNat then do
    let arg ← cString e.2
    pure { p with toParams := p.toParams.option (.iterations (atoi arg)) }
  else if e.1 = 'f'.toNat then do
    let arg ← cString e.2
    pure { p with toParams := p.toParams.option (.layout (String.ofList arg)) }
  else pure p

/-- The option loop of `main`. -/
def mainOptions (fuel : Nat) (argv : List Text) : Main (Settings × Vars) :=
  optionLoop optionCase fuel argv options.optstring options.longopts (fun _ => 0) .initial

/-! ## the way they are written -/

/-- A number with its sign. -/
def signed (n : Int) : Text := if n < 0 then '-' :: decimal n.natAbs else decimal n.natAbs

/-- The row of the table and the argument of an option that selects runs. -/
def Opt.row : Opt → LongOpt
  | .size _ => ⟨"size".toList, 2, none, 'a'.toNat⟩
  | .iterations _ => ⟨"iterations".toList, 2, none, 'e'.toNat⟩
  | .type _ => ⟨"type".toList, 2, none, 'd'.toNat⟩
  | .layout _ => ⟨"layout".toList, 2, none, 'f'.toNat⟩

def Opt.text : Opt → Text
  | .size v => signed v.toInt
  | .iterations v => signed v.toInt
  | .type arg => arg.toList
  | .layout arg => arg.toList

/-- This is how the option can stand on the command line. -/
def Writes (o : Opt) (w : Written options) : Prop := w.opt = o.row ∧ w.value = some o.text

theorem takeWhile_decimal (n : Nat) : (decimal n).takeWhile (·.isDigit) = decimal n :=
  List.takeWhile_eq_self_iff.mpr fun _ hc => Nat.isDigit_of_mem_toDigits (by decide) (by decide) hc

theorem scanSign_signed (n : Int) : SizeList.scanSign ((signed n).dropWhile SizeList.isSpace) =
    (decide (n < 0), decimal n.natAbs) := by
  obtain ⟨c, cs, hdecimal⟩ := List.exists_cons_of_ne_nil
    (List.ne_nil_of_length_pos (length_decimal_pos n.natAbs))
  have hc : c.isDigit = true :=
    Nat.isDigit_of_mem_toDigits (b := 10) (n := n.natAbs) (by decide) (by decide)
      (by rw [← decimal, hdecimal]; exact List.mem_cons_self)
  unfold signed
  split
  · next h => rw [List.dropWhile_cons_of_neg (by decide), SizeList.scanSign, decide_eq_true h]
  · next h =>
    rw [hdecimal, List.dropWhile_cons_of_neg (by simp [SizeList.isSpace_of_isDigit hc]),
      SizeList.scanSign_of_isDigit hc, decide_eq_false h]

/-- A number in the range of a `long` is read back. -/
theorem strtol_signed {n : Int} (hlo : -2 ^ 63 ≤ n) (hhi : n < 2 ^ 63) : strtol (signed n) = n := by
  have hvalue : Nat.ofDigitChars 10 ((decimal n.natAbs).takeWhile (·.isDigit)) 0 = n.natAbs := by
    rw [takeWhile_decimal]
    exact Nat.ofDigitChars_ten_toDigits
  simp only [strtol, scanSign_signed, hvalue, decide_eq_true_eq]
  split <;> omega

theorem atol_signed (v : Int64) : atol (signed v.toInt) = v := by
  rw [atol, strtol_signed v.le_toInt v.toInt_lt, Int64.ofInt_toInt]

theorem atoi_signed (v : Int32) : atoi (signed v.toInt) = v := by
  have hlo := v.le_toInt
  have hhi := v.toInt_lt
  rw [atoi, strtol_signed (by omega) (by omega), Int32.ofInt_toInt]

/-! ## round trip -/

/-- The event of an option that stands on the command line. -/
theorem event_of_writes {o : Opt} {w : Written options} (h : Writes o w) (v : Vars) :
    w.event v = ((o.row.val, some o.text), { v with optarg := some o.text }) := by
  rw [Written.event, h.1, h.2]
  cases o <;> rfl

theorem optionCase_row (p : Settings) (o : Opt) : optionCase p (o.row.val, some o.text) =
    pure { p with toParams := p.toParams.option o } := by
  cases o with
  | size n =>
      change (pure { p with toParams := p.toParams.option (.size (atol (signed n.toInt))) } : Main Settings) = _
      rw [atol_signed]
  | iterations n =>
      change (pure { p with toParams := p.toParams.option (.iterations (atoi (signed n.toInt))) } : Main Settings) = _
      rw [atoi_signed]
  | type arg =>
      change (pure { p with toParams := p.toParams.option (.type (String.ofList arg.toList)) } : Main Settings) = _
      rw [String.ofList_toList]
  | layout arg =>
      change (pure { p with toParams := p.toParams.option (.layout (String.ofList arg.toList)) } : Main Settings) = _
      rw [String.ofList_toList]

/-- The options are taken one after the other. -/
theorem foldlM_optionCase {os : List Opt} {ws : List (Written options)}
    (h : List.Forall₂ Writes os ws) (p : Settings) (v : Vars) :
    (Written.events ws v).1.foldlM optionCase p =
        pure { p with toParams := os.foldl Params.option p.toParams } ∧
      (Written.events ws v).2.flags = v.flags := by
  induction h generalizing p v with
  | nil => exact ⟨rfl, rfl⟩
  | cons hw _ ih =>
      simp only [Written.events, event_of_writes hw, List.foldlM_cons, optionCase_row, pure_bind]
      exact ih _ _

/-- **Command line**: the selecting options, written in full or abbreviated, with
`=` or with an argument of their own, have the effect that `parse` gives them;
what follows the options is left alone. -/
theorem commandLine_parse {os : List Opt} {ws : List (Written options)} {prog : Text}
    {rest : List Text} {fuel : Nat} (hw : List.Forall₂ Writes os ws)
    (hrest : rest.head? = some ['-', '-'] ∨ ∀ a, rest.head? = some a → a.head? ≠ some '-')
    (hargs : ∀ a ∈ prog :: (ws.flatMap Written.text ++ rest), NulFree a)
    (hfuel : (Cursor.initial (fun _ => 0) (prog :: (ws.flatMap Written.text ++ rest))).size + 2 ≤ fuel) :
    ∃ v, mainOptions fuel (prog :: (ws.flatMap Written.text ++ rest)) = pure (⟨parse os, -1, 1⟩, v) ∧
      v.flags = fun _ => 0 := by
  obtain ⟨hfold, hflags⟩ := foldlM_optionCase hw .initial ⟨none, fun _ => 0⟩
  have hrun := Written.run_render ws ⟨none, fun _ => 0⟩ rest
  rw [Written.run_operands hrest, List.append_nil] at hrun
  refine ⟨(Written.events ws ⟨none, fun _ => 0⟩).2, ?_, hflags⟩
  rw [mainOptions, optionLoop_eq options optionCase _ _ hargs hfuel, Cursor.initial, List.tail_cons,
    hrun, hfold]
  rfl

/-- `--size=4096`, and `--ty local` -/
def exampleWritten : List (Written options) := [
  { key := "size".toList, index := 3, opt := (Opt.size 4096).row, found := rfl
    key_ne := by decide, noEquals := by decide
    value := some "4096".toList, takes := by decide, separate := false },
  { key := "ty".toList, index := 6, opt := (Opt.type "local").row, found := rfl
    key_ne := by decide, noEquals := by decide
    value := some "local".toList, takes := by decide, separate := true }]

theorem commandLine_parse_size_type :
    ∃ v, mainOptions 40 ["mem_latency".toList, "--size=4096".toList, "--ty".toList, "local".toList] =
        pure (⟨parse [.size 4096, .type "local"], -1, 1⟩, v) ∧ v.flags = fun _ => 0 :=
  @commandLine_parse [.size 4096, .type "local"] exampleWritten "mem_latency".toList [] 40
    (.cons ⟨rfl, by decide⟩ (.cons ⟨rfl, by decide⟩ .nil)) (.inr nofun) (by decide) (by decide)

end UclBench.MemLatency
