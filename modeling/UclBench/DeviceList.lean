import UclBench.SizeList

/-!
# UclBench.DeviceList

The `--device` option.

`arith_speed`, `buffer_bandwidth` and `mem_streaming` read a list of numbers
and collect the devices in an array of `num_devices` entries; whether a number
is in range is tested, whether there is room is not.  `kernel_overheads` takes
one number, or `-1` for all devices, and lets the number `num_devices` through.

`%i` stores an `int`: what an entry selects is not its value but what is left
of it in 32 bits.
-/

namespace UclBench.DeviceList

open SizeList

/-! ## reading a number -/

/-- The value of a digit, up to hexadecimal. -/
def digitValue (c : Char) : Option Nat :=
  if c.isDigit then some (c.toNat - '0'.toNat)
  else if 'a' ≤ c ∧ c ≤ 'f' then some (c.toNat - 'a'.toNat + 10)
  else if 'A' ≤ c ∧ c ≤ 'F' then some (c.toNat - 'A'.toNat + 10)
  else none

def isDigitIn (radix : Nat) (c : Char) : Bool := (digitValue c).any (· < radix)

def numeralIn (radix : Nat) (digits : Text) : Nat :=
  digits.foldl (fun n c => n * radix + (digitValue c).getD 0) 0

/-- The radix a numeral announces; the zero of an octal one is a digit. -/
def scanRadix : Text → Nat × Text
  | '0' :: 'x' :: s => (16, s)
  | '0' :: 'X' :: s => (16, s)
  | '0' :: s => (8, '0' :: s)
  | s => (10, s)

/-- A number too large for a `long` is the nearest one. -/
def clampLong (v : Int) : Int := max (-2 ^ 63) (min v (2 ^ 63 - 1))

/-- What is left of a number in an `int`. -/
def toInt (v : Int) : Int := (v + 2 ^ 31) % 2 ^ 32 - 2 ^ 31

/-- An `int` as an `unsigned int`. -/
def toUnsigned (v : Int) : Nat := (v % 2 ^ 32).toNat

/-- The conversion `%i`. -/
def scanI (s : Text) : Option Int :=
  let (negative, s) := scanSign (s.dropWhile isSpace)
  let (radix, s) := scanRadix s
  let digits := s.takeWhile (isDigitIn radix)
  let n : Int := numeralIn radix digits
  if digits = [] then none else some (toInt (clampLong (if negative then -n else n)))

variable {δ : Type}

/-! ## a list of devices -/

/-- The loop over the tokens; nothing when the program exits with an error. -/
def selectDevices (devices : Buffer δ) (numDevices : Nat) :
    List Text → Buffer δ → Nat → Except Fault (Option (Buffer δ × Nat))
  | [], usedDevices, usedNumDevices => .ok (some (usedDevices, usedNumDevices))
  | ptr :: ptrs, usedDevices, usedNumDevices => match scanI ptr with
    | none => .ok none
    | some v =>
        let id := toUnsigned v
        if id < numDevices then do
          let device ← devices.read id
          let usedDevices ← usedDevices.write usedNumDevices device
          selectDevices devices numDevices ptrs usedDevices (usedNumDevices + 1)
        else selectDevices devices numDevices ptrs usedDevices usedNumDevices

/-- `used_devices[i] = devices[i]` for every device -/
def copyDevices (devices : Buffer δ) (is : List Nat) (usedDevices : Buffer δ) : Except Fault (Buffer δ) :=
  is.foldlM (fun usedDevices i => do
    let device ← devices.read i
    usedDevices.write i device) usedDevices

/-- `used_devices` and `used_num_devices` -/
def readDevices (devices : Buffer δ) (numDevices : Nat) (devicesStr : Option Text) :
    Except Fault (Option (Buffer δ × Nat)) :=
  let usedDevices := Buffer.alloc δ numDevices
  match devicesStr with
  | none => do
      let usedDevices ← copyDevices devices (List.range numDevices) usedDevices
      pure (some (usedDevices, numDevices))
  | some str =>
      if str = "all".toList then do
        let usedDevices ← copyDevices devices (List.range numDevices) usedDevices
        pure (some (usedDevices, numDevices))
      else selectDevices devices numDevices (strtok str) usedDevices 0

/-! ## one device or all -/

/-- `for(device_id = lower_id; device_id < upper_id; ++device_id)`, with the
number of passes left: the devices that are benchmarked before the program
ends. -/
def benchDevices (devices : Buffer δ) (numDevices : Nat) : Nat → Int → Except Fault (List δ)
  | 0, _ => .ok []
  | m + 1, deviceId =>
      if deviceId > toInt numDevices then .ok []
      else do
        let device ← devices.read deviceId.toNat
        let ds ← benchDevices devices numDevices m (deviceId + 1)
        pure (device :: ds)

/-- `kernel_overheads --device arg`: the devices that are benchmarked; nothing
when the argument is refused. -/
def kernelOverheads (devices : Buffer δ) (numDevices : Nat) (arg : Text) :
    Except Fault (Option (List δ)) :=
  match scanI arg with
  | none => .ok none
  | some deviceId =>
      if deviceId < -1 then .ok none
      else
        let (lowerId, upperId) : Int × Int :=
          if deviceId = -1 then (0, toInt numDevices) else (deviceId, toInt (deviceId + 1))
        (benchDevices devices numDevices (upperId - lowerId).toNat lowerId).map some

/-! ## integers on the command line -/

inductive Radix where
  | decimal
  | octal
  | hex
  | HEX

def Radix.value : Radix → Nat
  | .decimal => 10
  | .octal => 8
  | .hex | .HEX => 16

def Radix.mark : Radix → Text
  | .decimal => []
  | .octal => ['0']
  | .hex => ['0', 'x']
  | .HEX => ['0', 'X']

inductive Sign where
  | plus
  | minus

def Sign.text : Option Sign → Text
  | none => []
  | some .plus => ['+']
  | some .minus => ['-']

/-- An integer as C writes it: a decimal does not begin with zero, and zero itself
is octal. -/
structure IntArg where
  sign : Option Sign
  radix : Radix
  digits : Text
  isDigit : ∀ c ∈ digits, isDigitIn radix.value c = true
  wellFormed : match radix with
    | .decimal => digits ≠ [] ∧ digits.head? ≠ some '0'
    | .octal => True
    | .hex | .HEX => digits ≠ []

namespace IntArg

def text (a : IntArg) : Text := Sign.text a.sign ++ (a.radix.mark ++ a.digits)

def value (a : IntArg) : Int :=
  match a.sign with
  | some .minus => -numeralIn a.radix.value a.digits
  | _ => numeralIn a.radix.value a.digits

/-- What `%i` stores. -/
def stored (a : IntArg) : Int := toInt (clampLong a.value)

end IntArg

/-- The list as it is given on the command line. -/
def listText (args : List IntArg) : Text := [','].intercalate (args.map IntArg.text)

/-- The number of a device, if the integer is one. -/
def named (n : Nat) (v : Int) : Option Nat := if 0 ≤ v ∧ v < n then some v.toNat else none

/-- No access is outside its array, and the devices selected are those in the
list. -/
def SelectionRight (devices : Nat → δ) (n : Nat) (args : List IntArg) : Prop :=
  let ids := args.filterMap fun a => named n a.value
  ∃ usedDevices, readDevices (.ofFn n devices) n (some (listText args)) =
      .ok (some (usedDevices, ids.length)) ∧ usedDevices.StartsWith (ids.map devices)

/-- No access is outside the array, and the device benchmarked is the one given, or
all. -/
def SingleRight (devices : Nat → δ) (n : Nat) (arg : IntArg) : Prop :=
  let ids := if arg.value = -1 then List.range n else (named n arg.value).toList
  ∃ ds, kernelOverheads (.ofFn n devices) n arg.text = .ok ds ∧ ds.getD [] = ids.map devices

/-! ## `%i` reads integers -/

section
variable {radix : Nat} {c d : Char} {s digits : Text}

theorem ne_of_isDigitIn (h : isDigitIn radix c = true) (hd : digitValue d = none) : c ≠ d :=
  fun heq => by simp [isDigitIn, heq, hd] at h

theorem isSpace_of_isDigitIn (h : isDigitIn radix c = true) : isSpace c = false := by
  simp [isSpace, ne_of_isDigitIn h (d := ' ') rfl, ne_of_isDigitIn h (d := '\t') rfl,
    ne_of_isDigitIn h (d := '\n') rfl, ne_of_isDigitIn h (d := '\x0b') rfl,
    ne_of_isDigitIn h (d := '\x0c') rfl, ne_of_isDigitIn h (d := '\r') rfl]

theorem scanSign_of_isDigitIn (h : isDigitIn radix c = true) : scanSign (c :: s) = (false, c :: s) := by
  rw [scanSign]
  · exact fun _ hc => ne_of_isDigitIn h (d := '-') rfl (List.cons.inj hc).1
  · exact fun _ hc => ne_of_isDigitIn h (d := '+') rfl (List.cons.inj hc).1

theorem takeWhile_digits (h : ∀ c ∈ digits, isDigitIn radix c = true) :
    digits.takeWhile (isDigitIn radix) = digits := by
  simpa using h

end

namespace IntArg

/-- The text after the sign begins with a digit. -/
theorem unsigned_eq (a : IntArg) : ∃ c s, a.radix.mark ++ a.digits = c :: s ∧ isDigitIn 10 c = true := by
  obtain ⟨sign, radix, digits, hdigit, hwell⟩ := a
  cases radix with
  | decimal =>
      cases digits with
      | nil => exact absurd rfl hwell.1
      | cons c s => exact ⟨c, s, rfl, hdigit c (by simp)⟩
  | octal => exact ⟨'0', digits, rfl, rfl⟩
  | hex => exact ⟨'0', 'x' :: digits, rfl, rfl⟩
  | HEX => exact ⟨'0', 'X' :: digits, rfl, rfl⟩

/-- The sign is found, whatever follows it. -/
theorem scanSign_text (a : IntArg) :
    scanSign (a.text.dropWhile isSpace) =
      (match a.sign with
        | some .minus => true
        | _ => false, a.radix.mark ++ a.digits) := by
  obtain ⟨c, s, heq, hc⟩ := a.unsigned_eq
  rw [text, heq]
  cases hsign : a.sign with
  | none => simp [Sign.text, isSpace_of_isDigitIn hc, scanSign_of_isDigitIn hc]
  | some sign => cases sign <;> simp [Sign.text, isSpace, scanSign]

/-- The digits `%i` converts have the value of the numeral. -/
theorem scanRadix_text (a : IntArg) :
    ∃ digits, scanRadix (a.radix.mark ++ a.digits) = (a.radix.value, digits) ∧ digits ≠ [] ∧
      digits.takeWhile (isDigitIn a.radix.value) = digits ∧
      numeralIn a.radix.value digits = numeralIn a.radix.value a.digits := by
  obtain ⟨sign, radix, digits, hdigit, hwell⟩ := a
  have htake := takeWhile_digits hdigit
  cases radix with
  | decimal =>
      obtain ⟨hne, hzero⟩ := hwell
      cases digits with
      | nil => exact absurd rfl hne
      | cons c s =>
          have hc : c ≠ '0' := fun heq => hzero (by rw [heq]; rfl)
          refine ⟨c :: s, ?_, hne, htake, rfl⟩
          simp only [Radix.mark, List.nil_append, Radix.value]
          rw [scanRadix]
          all_goals exact fun _ heq => hc (List.cons.inj heq).1
  | octal =>
      have hx : ∀ s, digits ≠ 'x' :: s ∧ digits ≠ 'X' :: s := fun s =>
        ⟨fun heq => ne_of_isDigitIn (hdigit 'x' (by simp [heq])) (d := 'x') rfl rfl,
          fun heq => ne_of_isDigitIn (hdigit 'X' (by simp [heq])) (d := 'X') rfl rfl⟩
      refine ⟨'0' :: digits, ?_, by simp, ?_, rfl⟩
      · simp only [Radix.mark, List.singleton_append, Radix.value]
        rw [scanRadix]
        · exact fun s heq => (hx s).1 heq
        · exact fun s heq => (hx s).2 heq
      · rw [List.takeWhile_cons_of_pos (show isDigitIn Radix.octal.value '0' = true from rfl), htake]
  | hex => exact ⟨digits, rfl, hwell, htake, rfl⟩
  | HEX => exact ⟨digits, rfl, hwell, htake, rfl⟩

/-- No separator and no space inside an integer. -/
theorem ne_of_mem_text (a : IntArg) {c : Char} (h : c ∈ a.text) : c ≠ ',' := by
  rw [text, List.mem_append, List.mem_append] at h
  obtain h | h | h := h
  · rcases hsign : a.sign with _ | _ | _ <;> simp_all [Sign.text]
  · cases hradix : a.radix <;> simp_all [Radix.mark] <;> rcases h with rfl | rfl <;> simp
  · exact ne_of_isDigitIn (a.isDigit c h) rfl

theorem scanI_text (a : IntArg) : scanI a.text = some a.stored := by
  obtain ⟨digits, hradix, hne, htake, hvalue⟩ := a.scanRadix_text
  simp only [scanI, a.scanSign_text, hradix, htake, if_neg hne, hvalue, stored, value]
  cases a.sign with
  | none => simp
  | some sign => cases sign <;> simp

end IntArg

/-! ## the selected devices -/

section
variable {devices : Nat → δ} {n pos : Nat} {used : Buffer δ} {args : List IntArg}

/-- The device an entry selects. -/
def picked (n : Nat) (a : IntArg) : Option Nat := named n (toUnsigned a.stored)

theorem named_ofNat (n i : Nat) : named n i = if i < n then some i else none := by
  simp [named]

theorem strtok_listText (args : List IntArg) : strtok (listText args) = args.map IntArg.text := by
  refine strtok_intercalate ?_ ?_
  · intro t ht
    obtain ⟨a, -, rfl⟩ := List.mem_map.mp ht
    obtain ⟨c, s, heq, -⟩ := a.unsigned_eq
    simp [IntArg.text, heq]
  · intro t ht hmem
    obtain ⟨a, -, rfl⟩ := List.mem_map.mp ht
    exact a.ne_of_mem_text hmem rfl

/-- The loop stores what is selected, one device after the other. -/
theorem selectDevices_eq (args : List IntArg) (used : Buffer δ) (pos : Nat) :
    selectDevices (.ofFn n devices) n (args.map IntArg.text) used pos =
      (used.writeAll pos ((args.filterMap (picked n)).map devices)).map fun used =>
        some (used, pos + (args.filterMap (picked n)).length) := by
  induction args generalizing used pos with
  | nil => rfl
  | cons a args ih =>
      rw [List.map_cons, selectDevices, a.scanI_text]
      by_cases hid : toUnsigned a.stored < n
      · have hpicked : picked n a = some (toUnsigned a.stored) := by rw [picked, named_ofNat, if_pos hid]
        have hread : (Buffer.ofFn n devices).read (toUnsigned a.stored) = .ok (devices (toUnsigned a.stored)) :=
          Buffer.read_of_cell (Buffer.cell_ofFn hid)
        rw [List.filterMap_cons_some hpicked, List.map_cons, Buffer.writeAll, List.length_cons]
        simp only [if_pos hid, hread, bind, Except.bind]
        cases hwrite : used.write pos (devices (toUnsigned a.stored)) with
        | error e => rfl
        | ok used' => simp only [ih used' (pos + 1), Nat.add_assoc, Nat.add_comm 1]
      · have hpicked : picked n a = none := by rw [picked, named_ofNat, if_neg hid]
        rw [List.filterMap_cons_none hpicked]
        simp only [if_neg hid, ih]

/-- The number of a device survives the conversions. -/
theorem picked_of_named (hn : n < 2 ^ 32) {a : IntArg} {i : Nat} (h : named n a.value = some i) :
    picked n a = some i := by
  have hrange : 0 ≤ a.value ∧ a.value < n ∧ a.value.toNat = i := by
    simpa [named, and_assoc] using h
  have hid : toUnsigned a.stored = i := by
    simp only [toUnsigned, IntArg.stored, toInt, clampLong]
    omega
  rw [picked, named_ofNat, hid, if_pos (by omega)]

end

/-- Two ways to select from a list, one of which selects more: if they select
equally many, they agree. -/
theorem agree_of_length_le {f g : α → Option β} (hfg : ∀ a b, f a = some b → g a = some b) (l : List α) :
    (l.filterMap f).length ≤ (l.filterMap g).length ∧
      ((l.filterMap g).length ≤ (l.filterMap f).length → ∀ a ∈ l, g a = f a) := by
  induction l with
  | nil => simp
  | cons a l ih =>
      obtain ⟨hle, hagree⟩ := ih
      cases hf : f a with
      | some b =>
          rw [List.filterMap_cons_some hf, List.filterMap_cons_some (hfg a b hf)]
          simp only [List.length_cons, Nat.add_le_add_iff_right, List.forall_mem_cons]
          exact ⟨hle, fun h => ⟨by rw [hf, hfg a b hf], hagree h⟩⟩
      | none =>
          rw [List.filterMap_cons_none hf]
          cases hg : g a with
          | some b =>
              rw [List.filterMap_cons_some hg, List.length_cons]
              exact ⟨by omega, fun h => by omega⟩
          | none =>
              rw [List.filterMap_cons_none hg, List.forall_mem_cons]
              exact ⟨hle, fun h => ⟨by rw [hf, hg], hagree h⟩⟩

/-- At most as many entries as there are devices are in range, and no other entry
is a device in 32 bits. -/
def ListFits (n : Nat) (args : List IntArg) : Prop :=
  (args.filterMap fun a => named n a.value).length ≤ n ∧
    ∀ a ∈ args, named n a.value = none → n ≤ toUnsigned a.stored

instance (n : Nat) (args : List IntArg) : Decidable (ListFits n args) :=
  inferInstanceAs (Decidable (_ ∧ _))

theorem listText_ne_all (args : List IntArg) : listText args ≠ "all".toList := by
  intro heq
  have htoks := strtok_listText args
  have hall : strtok "all".toList = ["all".toList] := by decide
  rw [heq, hall] at htoks
  have hmem : "all".toList ∈ args.map IntArg.text := by simp [← htoks]
  obtain ⟨a, -, ha⟩ := List.mem_map.mp hmem
  have hscan : scanI "all".toList = none := by decide
  rw [← ha, a.scanI_text] at hscan
  contradiction

theorem selectionRight_iff_listFits {n : Nat} (hn : n < 2 ^ 32) (devices : Nat → δ) (args : List IntArg) :
    SelectionRight devices n args ↔ ListFits n args := by
  have hread : readDevices (.ofFn n devices) n (some (listText args)) =
      ((Buffer.alloc δ n).writeAll 0 ((args.filterMap (picked n)).map devices)).map fun used =>
        some (used, (args.filterMap (picked n)).length) := by
    rw [readDevices, if_neg (listText_ne_all args), strtok_listText, selectDevices_eq, Nat.zero_add]
  obtain ⟨-, hagree⟩ := agree_of_length_le (fun a _ h => picked_of_named hn h) args
  have hnone (a : IntArg) : picked n a = none ↔ n ≤ toUnsigned a.stored := by
    simp [picked, named_ofNat]
  constructor
  · rintro ⟨used, hrun, hstarts⟩
    rw [hread] at hrun
    cases hwrite : (Buffer.alloc δ n).writeAll 0 ((args.filterMap (picked n)).map devices) with
    | error e => simp [hwrite, Except.map] at hrun
    | ok used' =>
        simp only [hwrite, Except.map, Except.ok.injEq, Option.some.injEq, Prod.mk.injEq] at hrun
        obtain ⟨rfl, hlength⟩ := hrun
        refine ⟨?_, fun a ha hout => ?_⟩
        · rw [← hlength]
          by_contra hlong
          have hfault : (Buffer.alloc δ n).writeAll 0 ((args.filterMap (picked n)).map devices) =
              .error .outOfBounds :=
            Buffer.writeAll_of_gt (Nat.zero_le _) (by simpa using hlong)
          rw [hfault] at hwrite
          contradiction
        · rw [← hnone, hagree (Nat.le_of_eq hlength) a ha, hout]
  · rintro ⟨hroom, hout⟩
    have hsame : args.filterMap (picked n) = args.filterMap fun a => named n a.value := by
      refine List.filterMap_congr fun a ha => ?_
      cases hnamed : named n a.value with
      | some i => exact picked_of_named hn hnamed
      | none => exact (hnone a).mpr (hout a ha hnamed)
    have hstart : (Buffer.alloc δ n).StartsWith [] := by simp [Buffer.StartsWith]
    have hsize : ([] ++ (args.filterMap fun a : IntArg => named n a.value).map devices).length ≤
        (Buffer.alloc δ n).size := by simpa using hroom
    obtain ⟨used, hwrite, -, hstarts⟩ := hstart.writeAll hsize
    refine ⟨used, ?_, hstarts⟩
    rw [hread, hsame]
    simp only [List.length_nil] at hwrite
    rw [hwrite]
    rfl

/-! ## the benchmarked device -/

/-- With fewer than 2^31 devices: the number fits an `int` or is no device in 32
bits either, and it is not the number of devices.  With more, there is no device
for the number. -/
def SingleFits (n : Nat) (arg : IntArg) : Prop :=
  if n < 2 ^ 31 then
    (arg.stored = -1 → arg.value = -1 ∨ n = 0) ∧
      (0 ≤ arg.stored → arg.stored < n → arg.value = arg.stored) ∧
      (arg.stored = n → n = 2 ^ 31 - 1)
  else n ≤ arg.value

instance (n : Nat) (arg : IntArg) : Decidable (SingleFits n arg) :=
  inferInstanceAs (Decidable (if n < 2 ^ 31 then _ else _))

section
variable {n : Nat} (devices : Nat → δ)

/-- From a device in range on, the loop benchmarks one after the other. -/
theorem benchDevices_of_le (hn : n < 2 ^ 31) (m i : Nat) (h : i + m ≤ n) :
    benchDevices (.ofFn n devices) n m i = .ok ((List.range' i m).map devices) := by
  induction m generalizing i with
  | zero => rfl
  | succ m ih =>
      have hint : toInt n = n := by simp only [toInt]; omega
      have hread : (Buffer.ofFn n devices).read i = .ok (devices i) :=
        Buffer.read_of_cell (Buffer.cell_ofFn (by omega))
      have hnext := ih (i + 1) (by omega)
      rw [benchDevices, hint, if_neg (by omega), Int.toNat_natCast, hread]
      simp only [bind, Except.bind]
      rw [← Int.natCast_succ, hnext]
      rfl

/-- Behind the last device the program ends; on the first number behind it, too
late. -/
theorem benchDevices_one (hn : n < 2 ^ 31) (i : Nat) :
    benchDevices (.ofFn n devices) n 1 i =
      if i < n then .ok [devices i] else if i = n then .error .outOfBounds else .ok [] := by
  have hint : toInt n = n := by simp only [toInt]; omega
  split
  · next hlt => simpa using benchDevices_of_le devices hn 1 i (by omega)
  split
  · next heq =>
      have hread : (Buffer.ofFn n devices).read i = .error .outOfBounds := by
        simp [Buffer.read, heq]
      rw [benchDevices, hint, if_neg (by omega), Int.toNat_natCast, hread]
      rfl
  · next hne hnot => rw [benchDevices, hint, if_pos (by omega)]

theorem stored_of_lt {arg : IntArg} (h : -1 ≤ arg.value) (hlt : arg.value < 2 ^ 31) :
    arg.stored = arg.value := by
  simp only [IntArg.stored, toInt, clampLong]
  omega

theorem stored_lt (arg : IntArg) : arg.stored < 2 ^ 31 := by
  simp only [IntArg.stored, toInt]
  omega

theorem named_eq_none {v : Int} : named n v = none ↔ ¬ (0 ≤ v ∧ v < n) := by
  simp [named]

/-- What the program does with the number it has stored. -/
theorem kernelOverheads_eq (n : Nat) (arg : IntArg) :
    kernelOverheads (.ofFn n devices) n arg.text =
      if arg.stored < -1 then .ok none
      else if arg.stored = -1 then
        (benchDevices (.ofFn n devices) n (toInt n).toNat 0).map some
      else if arg.stored = 2 ^ 31 - 1 then .ok (some [])
      else (benchDevices (.ofFn n devices) n 1 arg.stored).map some := by
  have hlt := stored_lt arg
  rw [kernelOverheads, arg.scanI_text]
  simp only
  split
  · rfl
  split
  · simp
  split
  · next hmax =>
      have hpasses : (toInt (arg.stored + 1) - arg.stored).toNat = 0 := by
        simp only [toInt]
        omega
      simp only [hpasses]
      rfl
  · next hlow hall hmax =>
      have hpasses : (toInt (arg.stored + 1) - arg.stored).toNat = 1 := by
        simp only [toInt]
        omega
      simp only [hpasses]

/-- The devices benchmarked, as long as the number of devices fits an `int`. -/
theorem kernelOverheads_of_few (hn : n < 2 ^ 31) (arg : IntArg) :
    kernelOverheads (.ofFn n devices) n arg.text =
      if arg.stored < -1 then .ok none
      else if arg.stored = -1 then .ok (some ((List.range n).map devices))
      else if arg.stored < n then .ok (some [devices arg.stored.toNat])
      else if arg.stored = n ∧ n ≠ 2 ^ 31 - 1 then .error .outOfBounds
      else .ok (some []) := by
  rw [kernelOverheads_eq]
  split
  · rfl
  split
  · have hint : (toInt n).toNat = n := by
      simp only [toInt]
      omega
    have hrun := benchDevices_of_le devices hn n 0 (by omega)
    rw [← List.range_eq_range', Int.natCast_zero] at hrun
    rw [hint, hrun]
    rfl
  next hlow hall =>
    obtain ⟨i, hi⟩ : ∃ i : Nat, arg.stored = i := ⟨arg.stored.toNat, by omega⟩
    rw [hi, benchDevices_one devices hn]
    split
    · -- the largest `int`: the upper bound wraps around and there is no pass
      rw [if_neg (by omega), if_neg (by omega)]
    by_cases hlt : i < n
    · rw [if_pos hlt, if_pos (by omega), Int.toNat_natCast]
      rfl
    have hge : ¬ (i : Int) < n := by omega
    by_cases heq : i = n
    · rw [if_neg hlt, if_pos heq, if_neg hge, if_pos (by omega)]
      rfl
    · rw [if_neg hlt, if_neg heq, if_neg hge, if_neg (by omega)]
      rfl

/-- With more devices their number is negative as an `int`, and none is benchmarked. -/
theorem kernelOverheads_of_many (hn : n < 2 ^ 32) (hmany : 2 ^ 31 ≤ n) (arg : IntArg) :
    ∃ ds, kernelOverheads (.ofFn n devices) n arg.text = .ok ds ∧ ds.getD [] = [] := by
  have hint : toInt n < 0 := by
    simp only [toInt]
    omega
  have hzero : (toInt n).toNat = 0 := by omega
  rw [kernelOverheads_eq, hzero]
  split
  · exact ⟨none, rfl, rfl⟩
  split
  · exact ⟨some [], rfl, rfl⟩
  split
  · exact ⟨some [], rfl, rfl⟩
  · refine ⟨some [], ?_, rfl⟩
    rw [benchDevices, if_pos (by omega)]
    rfl

theorem singleRight_of_ok {arg : IntArg} {ds : Option (List δ)}
    (h : kernelOverheads (.ofFn n devices) n arg.text = .ok ds) :
    SingleRight devices n arg ↔ ds.getD [] =
      (if arg.value = -1 then List.range n else (named n arg.value).toList).map devices := by
  simp [SingleRight, h]

theorem singleRight_of_few (hn : n < 2 ^ 31) {arg : IntArg} (harg : -1 ≤ arg.value) :
    SingleRight devices n arg ↔ (arg.stored = -1 → arg.value = -1 ∨ n = 0) ∧
      (0 ≤ arg.stored → arg.stored < n → arg.value = arg.stored) ∧
      (arg.stored = n → n = 2 ^ 31 - 1) := by
  have hsame := stored_of_lt harg
  have hrun := kernelOverheads_of_few devices hn arg
  have hout (h : arg.value ≠ -1) (h' : ¬ arg.value < n) : named n arg.value = none :=
    named_eq_none.mpr (by omega)
  split at hrun
  · -- refused: the number does not fit
    rw [singleRight_of_ok devices hrun, if_neg (by omega), hout (by omega) (by omega)]
    simp
    omega
  split at hrun
  · rw [singleRight_of_ok devices hrun]
    by_cases hall : arg.value = -1
    · simp [hall]
      omega
    · rw [if_neg hall, hout hall (by omega)]
      simp [hall]
      omega
  split at hrun
  · rw [singleRight_of_ok devices hrun, if_neg (by omega)]
    by_cases hvalue : arg.value = arg.stored
    · have hnamed : named n arg.value = some arg.stored.toNat := by
        rw [hvalue, named, if_pos (by omega)]
      rw [hnamed]
      simp [hvalue]
      omega
    · rw [hout (by omega) (by omega)]
      simp [hvalue]
      omega
  split at hrun
  · next hbehind =>
      refine iff_of_false ?_ (by omega)
      rintro ⟨ds, hok, -⟩
      rw [hrun] at hok
      contradiction
  · rw [singleRight_of_ok devices hrun, if_neg (by omega), hout (by omega) (by omega)]
    simp
    omega

theorem singleRight_iff (hn : n < 2 ^ 32) {arg : IntArg} (harg : -1 ≤ arg.value) :
    SingleRight devices n arg ↔ SingleFits n arg := by
  unfold SingleFits
  split
  · next hfew => exact singleRight_of_few devices hfew harg
  · next hmany =>
      obtain ⟨ds, hrun, hds⟩ := kernelOverheads_of_many devices hn (by omega) arg
      rw [singleRight_of_ok devices hrun, hds]
      by_cases hall : arg.value = -1
      · simp [hall]
        omega
      · rw [if_neg hall]
        simp [named_eq_none]
        omega

end

/-- **The `--device` option**, in the four programs. -/
theorem deviceOption_iff {n : Nat} (hn : n < 2 ^ 32) (devices : Nat → δ) :
    (∀ args, SelectionRight devices n args ↔ ListFits n args) ∧
      ∀ arg, -1 ≤ arg.value → (SingleRight devices n arg ↔ SingleFits n arg) :=
  ⟨selectionRight_iff_listFits hn devices, fun _ harg => singleRight_iff devices hn harg⟩

/-- `0` -/
def zero : IntArg := ⟨none, .octal, [], by simp, trivial⟩

theorem isDigitIn_one : ∀ c ∈ ['1'], isDigitIn Radix.hex.value c = true := by
  simp [isDigitIn, digitValue, Radix.value]

/-- `0x1` -/
def one : IntArg := ⟨none, .hex, ['1'], isDigitIn_one, List.cons_ne_nil _ _⟩

/-- Two devices: the second and the first for the one, the second for the other. -/
theorem deviceOption_iff_two : 2 < 2 ^ 32 ∧ SelectionRight id 2 [one, zero] ∧ SingleRight id 2 one := by
  have hlist : ListFits 2 [one, zero] := by decide
  have hsingle : SingleFits 2 one := by decide
  have h := deviceOption_iff (n := 2) (by decide) id
  exact ⟨by decide, (h.1 _).mpr hlist, (h.2 one (by decide)).mpr hsingle⟩

/-- One device named twice is stored behind `used_devices`; the number 1 is read
behind `devices`. -/
theorem deviceOption_fails_one : ¬ SelectionRight id 1 [zero, zero] ∧ ¬ SingleRight id 1 one := by
  rw [selectionRight_iff_listFits (by decide), singleRight_iff _ (by decide) (by decide)]
  decide

end UclBench.DeviceList
