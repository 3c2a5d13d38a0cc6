import UclBench.SizeList
import UclBench.ArithSpeed.GenKernel

/-!
# UclBench.ArithSpeed.FunctionList

The `--functions` option: names to enumerators.

The names are those of `function_to_string` (`parseFunction_eq_some`).  The
counter advances for every token, also for one that is not a name and stores
nothing, and nothing compares it with the size of the array.
`functionsRight_iff` says which lists are read correctly.
-/

namespace UclBench.ArithSpeed

open SizeList

/-- `function_to_string` -/
def functionToString : Function → Text
  | .add => "add".toList
  | .mul => "mul".toList
  | .sub => "sub".toList
  | .div => "div".toList
  | .mad => "mad".toList
  | .madMul => "mad_mul".toList
  | .vec => "vec".toList
  | .vliw => "vliw".toList
  | .exp => "exp".toList
  | .log => "log".toList
  | .sqr => "sqr".toList
  | .sqrt => "sqrt".toList
  | .cos => "cos".toList
  | .sin => "sin".toList
  | .tan => "tan".toList

/-- `MAX_FUNCTIONS` -/
def maxFunctions : Nat := 50

/-- The functions in the order in which they are run when none is chosen. -/
def defaultFunctions : List Function :=
  [.add, .sub, .mul, .div, .mad, .madMul, .vec, .vliw, .exp, .log, .sqr, .sqrt, .cos, .sin, .tan]

/-- The function a token names; a message is printed when there is none. -/
def parseFunction (ptr : Text) : Option Function :=
  if ptr = "exp".toList then some .exp
  else if ptr = "log".toList then some .log
  else if ptr = "sqr".toList then some .sqr
  else if ptr = "sqrt".toList then some .sqrt
  else if ptr = "cos".toList then some .cos
  else if ptr = "sin".toList then some .sin
  else if ptr = "tan".toList then some .tan
  else if ptr = "add".toList then some .add
  else if ptr = "mul".toList then some .mul
  else if ptr = "sub".toList then some .sub
  else if ptr = "div".toList then some .div
  else if ptr = "mad".toList then some .mad
  else if ptr = "mad_mul".toList then some .madMul
  else if ptr = "vec".toList then some .vec
  else if ptr = "vliw".toList then some .vliw
  else none

/-- The loop over the tokens. -/
def storeFunctions : List Text → Buffer Function → Nat → Except Fault (Buffer Function × Nat)
  | [], functions, numFunctions => .ok (functions, numFunctions)
  | ptr :: ptrs, functions, numFunctions => match parseFunction ptr with
    | some f => do
        let functions ← functions.write numFunctions f
        storeFunctions ptrs functions ((numFunctions + 1) % 2 ^ 32)
    | none => storeFunctions ptrs functions ((numFunctions + 1) % 2 ^ 32)

/-- `functions` and `num_functions` -/
def readFunctions (functionStr : Option Text) : Except Fault (Buffer Function × Nat) :=
  let functions := Buffer.alloc Function maxFunctions
  match functionStr with
  | none => do
      let functions ← functions.writeAll 0 defaultFunctions
      pure (functions, defaultFunctions.length)
  | some str => storeFunctions (strtok str) functions 0

/-! ## what the list should be -/

/-- The names of the functions. -/
def functionNames : List Text := defaultFunctions.map functionToString

/-- Every store is inside the array, and the entries are the functions named, one
for each token that is a name. -/
def FunctionsRight (str : Text) : Prop :=
  ∃ functions fs, readFunctions (some str) = .ok (functions, fs.length) ∧
    functions.StartsWith fs ∧
    fs.map functionToString = (strtok str).filter (· ∈ functionNames)

/-! ## names -/

theorem mem_defaultFunctions (f : Function) : f ∈ defaultFunctions := by
  cases f <;> simp [defaultFunctions]

theorem functionToString_mem (f : Function) : functionToString f ∈ functionNames :=
  List.mem_map_of_mem (mem_defaultFunctions f)

theorem parseFunction_functionToString (f : Function) : parseFunction (functionToString f) = some f := by
  cases f <;> rfl

/-- One test of the chain. -/
theorem eq_of_test {ptr name : Text} {f g : Function} {rest : Option Function}
    (hname : functionToString f = name) (hrest : rest = some g → functionToString g = ptr)
    (h : (if ptr = name then some f else rest) = some g) : functionToString g = ptr := by
  split at h
  · next heq => rw [heq, ← hname, Option.some.inj h]
  · exact hrest h

/-- **The chain of tests inverts `function_to_string`.** -/
theorem parseFunction_eq_some {ptr : Text} {f : Function} :
    parseFunction ptr = some f ↔ functionToString f = ptr := by
  constructor
  · unfold parseFunction
    iterate 15 refine eq_of_test (by rfl) ?_
    nofun
  · rintro rfl
    exact parseFunction_functionToString f

theorem functionToString_injective {f g : Function} (h : functionToString f = functionToString g) :
    f = g := by
  have hparse := parseFunction_functionToString f
  rw [h, parseFunction_functionToString g] at hparse
  exact (Option.some.inj hparse).symm

theorem parseFunction_eq_none {ptr : Text} : parseFunction ptr = none ↔ ptr ∉ functionNames := by
  constructor
  · intro h hmem
    obtain ⟨f, -, rfl⟩ := List.mem_map.mp hmem
    rw [parseFunction_functionToString] at h
    contradiction
  · intro h
    cases hparse : parseFunction ptr with
    | none => rfl
    | some f =>
        rw [parseFunction_eq_some] at hparse
        exact absurd (hparse ▸ functionToString_mem f) h

/-! ## the array -/

/-- Of the tokens whose positions are `c` in 32 bits, `t` is the last that is a
name. -/
def Latest (ts : List Text) (c : Nat) (t : Text) : Prop :=
  t ∈ functionNames ∧ ∃ p, ts[p]? = some t ∧ p % 2 ^ 32 = c ∧
    ∀ q u, p < q → q % 2 ^ 32 = c → ts[q]? = some u → u ∉ functionNames

section
variable {done ts : List Text} {t u : Text} {c : Nat}

theorem getElem?_concat_eq_some {p : Nat} :
    (done ++ [t])[p]? = some u ↔ done[p]? = some u ∨ p = done.length ∧ t = u := by
  rw [List.getElem?_append]
  split
  · next hlt => simp [Nat.ne_of_lt hlt]
  · next hge =>
      have hnone : done[p]? = none := List.getElem?_eq_none (by omega)
      by_cases heq : p = done.length
      · simp [heq]
      · have hpos : p - done.length ≠ 0 := by omega
        simp [heq, hpos, hnone]

/-- A name at a position is the latest there. -/
theorem latest_concat_self (ht : t ∈ functionNames) :
    Latest (done ++ [t]) (done.length % 2 ^ 32) u ↔ u = t := by
  constructor
  · rintro ⟨hu, p, hp, hpos, hlater⟩
    obtain hold | ⟨-, rfl⟩ := getElem?_concat_eq_some.mp hp
    · have hlt : p < done.length := (List.getElem?_eq_some_iff.mp hold).1
      exact absurd ht (hlater done.length t hlt rfl (by simp))
    · rfl
  · rintro rfl
    refine ⟨ht, done.length, by simp, rfl, fun q v hlt _ hq => ?_⟩
    obtain hold | ⟨rfl, -⟩ := getElem?_concat_eq_some.mp hq
    · have := (List.getElem?_eq_some_iff.mp hold).1
      omega
    · omega

/-- What is no name, or stands elsewhere, changes nothing. -/
theorem latest_concat (ht : done.length % 2 ^ 32 = c → t ∉ functionNames) :
    Latest (done ++ [t]) c u ↔ Latest done c u := by
  constructor
  · rintro ⟨hu, p, hp, hpos, hlater⟩
    obtain hold | ⟨rfl, rfl⟩ := getElem?_concat_eq_some.mp hp
    · exact ⟨hu, p, hold, hpos, fun q v hlt hq hv =>
        hlater q v hlt hq (getElem?_concat_eq_some.mpr (.inl hv))⟩
    · exact absurd hu (ht hpos)
  · rintro ⟨hu, p, hp, hpos, hlater⟩
    refine ⟨hu, p, getElem?_concat_eq_some.mpr (.inl hp), hpos, fun q v hlt hq hv => ?_⟩
    obtain hold | ⟨rfl, rfl⟩ := getElem?_concat_eq_some.mp hv
    · exact hlater q v hlt hq hold
    · exact ht hq

/-- The state after the tokens `done`. -/
structure Stored (done : List Text) (functions : Buffer Function) (numFunctions : Nat) : Prop where
  size : functions.size = maxFunctions
  num : numFunctions = done.length % 2 ^ 32
  cells : ∀ c f, functions.cell c = some f ↔ Latest done c (functionToString f)

/-- Every name stands at a position inside the array. -/
def Inside (ts : List Text) : Prop :=
  ∀ p t, ts[p]? = some t → t ∈ functionNames → p % 2 ^ 32 < maxFunctions

variable {functions : Buffer Function} {numFunctions : Nat}

theorem stored_nil : Stored [] (.alloc Function maxFunctions) 0 :=
  ⟨rfl, rfl, fun c f => by simp [Latest, Buffer.alloc]⟩

theorem Stored.next (hs : Stored done functions numFunctions) (t : Text) :
    (numFunctions + 1) % 2 ^ 32 = (done ++ [t]).length % 2 ^ 32 := by
  simp [hs.num]

/-- A token that is no name. -/
theorem Stored.skip (hs : Stored done functions numFunctions) (ht : t ∉ functionNames) :
    Stored (done ++ [t]) functions ((numFunctions + 1) % 2 ^ 32) :=
  ⟨hs.size, hs.next t, fun c f => by rw [hs.cells, latest_concat fun _ => ht]⟩

/-- A token that is a name, if there is room for it. -/
theorem Stored.store (hs : Stored done functions numFunctions) (f : Function)
    (hroom : numFunctions < maxFunctions) :
    Stored (done ++ [functionToString f]) (functions.set numFunctions f)
      ((numFunctions + 1) % 2 ^ 32) := by
  refine ⟨hs.size, hs.next _, fun c g => ?_⟩
  have hmem := functionToString_mem f
  by_cases hc : c = numFunctions
  · rw [hc, Buffer.cell_set_self f (hs.size ▸ hroom), hs.num, latest_concat_self hmem, Option.some.injEq]
    exact ⟨fun h => by rw [h], fun h => (functionToString_injective h).symm⟩
  · rw [Buffer.cell_set_of_ne f hc, hs.cells, latest_concat fun h => absurd (hs.num ▸ h).symm hc]

/-- A run that ends has stored what it should, where it should. -/
theorem storeFunctions_ok {r : Buffer Function × Nat} (hs : Stored done functions numFunctions)
    (hin : Inside done) (h : storeFunctions ts functions numFunctions = .ok r) :
    Stored (done ++ ts) r.1 r.2 ∧ Inside (done ++ ts) := by
  induction ts generalizing done functions numFunctions with
  | nil =>
      obtain rfl := Except.ok.inj h
      simpa using ⟨hs, hin⟩
  | cons t ts ih =>
      have happend : done ++ t :: ts = (done ++ [t]) ++ ts := by simp
      rw [happend]
      rw [storeFunctions] at h
      cases hparse : parseFunction t with
      | none =>
          rw [hparse] at h
          rw [parseFunction_eq_none] at hparse
          refine ih (hs.skip hparse) (fun p u hu hname => ?_) h
          obtain hold | ⟨-, rfl⟩ := getElem?_concat_eq_some.mp hu
          · exact hin p u hold hname
          · exact absurd hname hparse
      | some f =>
          rw [hparse] at h
          rw [parseFunction_eq_some] at hparse
          obtain rfl := hparse
          by_cases hroom : numFunctions < maxFunctions
          · simp only [Buffer.write_of_lt f (hs.size ▸ hroom), bind, Except.bind] at h
            refine ih (hs.store f hroom) (fun p u hu hname => ?_) h
            obtain hold | ⟨rfl, -⟩ := getElem?_concat_eq_some.mp hu
            · exact hin p u hold hname
            · exact hs.num ▸ hroom
          · have hfault := Buffer.write_of_ge f (by rw [hs.size]; omega : functions.size ≤ numFunctions)
            simp only [hfault, bind, Except.bind] at h
            contradiction

/-- With every name inside the array, the run ends. -/
theorem storeFunctions_of_inside (hs : Stored done functions numFunctions) (hin : Inside (done ++ ts)) :
    ∃ r, storeFunctions ts functions numFunctions = .ok r := by
  induction ts generalizing done functions numFunctions with
  | nil => exact ⟨_, rfl⟩
  | cons t ts ih =>
      have happend : done ++ t :: ts = (done ++ [t]) ++ ts := by simp
      rw [storeFunctions]
      cases hparse : parseFunction t with
      | none => exact ih (hs.skip (parseFunction_eq_none.mp hparse)) (happend ▸ hin)
      | some f =>
          rw [parseFunction_eq_some] at hparse
          obtain rfl := hparse
          have hroom : numFunctions < maxFunctions := by
            rw [hs.num]
            exact hin done.length _ (by simp) (functionToString_mem f)
          simp only [Buffer.write_of_lt f (hs.size ▸ hroom), bind, Except.bind]
          exact ih (hs.store f hroom) (happend ▸ hin)

end

/-- The names among the tokens. -/
def namesIn (ts : List Text) : List Text := ts.filter (· ∈ functionNames)

/-- Every name falls inside the array, there are as many as the counter says, and
each is the last at its place. -/
structure Lands (ts : List Text) : Prop where
  inside : Inside ts
  counted : ts.length % 2 ^ 32 = (namesIn ts).length
  kept : ∀ i t, (namesIn ts)[i]? = some t → Latest ts i t

theorem map_filterMap_parseFunction (ts : List Text) :
    (ts.filterMap parseFunction).map functionToString = namesIn ts := by
  induction ts with
  | nil => rfl
  | cons t ts ih =>
      cases hparse : parseFunction t with
      | none =>
          have hname := parseFunction_eq_none.mp hparse
          rw [List.filterMap_cons_none hparse, ih]
          simp [namesIn, hname]
      | some f =>
          obtain rfl := parseFunction_eq_some.mp hparse
          rw [List.filterMap_cons_some hparse, List.map_cons, ih]
          simp [namesIn, functionToString_mem f]

theorem functionsRight_iff_lands (str : Text) : FunctionsRight str ↔ Lands (strtok str) := by
  constructor
  · rintro ⟨functions, fs, hrun, hstarts, hnames⟩
    obtain ⟨hs, hin⟩ := storeFunctions_ok stored_nil (by simp [Inside]) hrun
    rw [List.nil_append] at hs hin
    refine ⟨hin, ?_, fun i t ht => ?_⟩
    · rw [← hs.num, namesIn, ← hnames, List.length_map]
    · rw [namesIn, ← hnames, List.getElem?_map, Option.map_eq_some_iff] at ht
      obtain ⟨f, hf, rfl⟩ := ht
      have hlt : i < fs.length := (List.getElem?_eq_some_iff.mp hf).1
      exact (hs.cells i f).mp ((hstarts i hlt).trans hf)
  · rintro ⟨hin, hcount, hkept⟩
    obtain ⟨⟨functions, numFunctions⟩, hrun⟩ := storeFunctions_of_inside stored_nil
      (by rwa [List.nil_append] : Inside ([] ++ strtok str))
    obtain ⟨hs, -⟩ := storeFunctions_ok stored_nil (by simp [Inside]) hrun
    rw [List.nil_append] at hs
    have hnames := map_filterMap_parseFunction (strtok str)
    have hnum : numFunctions = ((strtok str).filterMap parseFunction).length := by
      rw [← List.length_map functionToString, hnames, ← hcount]
      exact hs.num
    refine ⟨functions, (strtok str).filterMap parseFunction, hnum ▸ hrun, fun k hk => ?_, hnames⟩
    have hf := List.getElem?_eq_getElem hk
    rw [hf, hs.cells]
    refine hkept k _ ?_
    rw [← hnames, List.getElem?_map, hf]
    rfl

/-- As long as the counter does not wrap around, only names may be given, and no
more than the array holds. -/
theorem lands_iff {ts : List Text} (h : ts.length < 2 ^ 32) :
    Lands ts ↔ (∀ t ∈ ts, t ∈ functionNames) ∧ ts.length ≤ maxFunctions := by
  constructor
  · rintro ⟨hin, hcount, -⟩
    rw [Nat.mod_eq_of_lt h] at hcount
    have hall : ∀ t ∈ ts, t ∈ functionNames := by
      simpa using List.length_filter_eq_length_iff.mp hcount.symm
    refine ⟨hall, ?_⟩
    cases hlast : ts[ts.length - 1]? with
    | none =>
        have := List.getElem?_eq_none_iff.mp hlast
        omega
    | some t =>
        have hroom := hin _ t hlast (hall t (List.mem_of_getElem? hlast))
        rw [Nat.mod_eq_of_lt (by omega)] at hroom
        omega
  · rintro ⟨hall, hle⟩
    have hsame : namesIn ts = ts := List.filter_eq_self.mpr (by simpa using hall)
    have hpos {q : Nat} {t : Text} (hq : ts[q]? = some t) : q < ts.length ∧ q % 2 ^ 32 = q := by
      have hlt := (List.getElem?_eq_some_iff.mp hq).1
      exact ⟨hlt, Nat.mod_eq_of_lt (by omega)⟩
    refine ⟨fun p t ht _ => ?_, by rw [hsame, Nat.mod_eq_of_lt h], fun i t ht => ?_⟩
    · obtain ⟨hlt, hmod⟩ := hpos ht
      omega
    · rw [hsame] at ht
      refine ⟨hall t (List.mem_of_getElem? ht), i, ht, (hpos ht).2, fun q u hlt hq hu => ?_⟩
      have := (hpos hu).2
      omega

/-- The lists that are read correctly: fifty names at most.  From 2^32 tokens on
the counter wraps around, and a list is read correctly if its names fall into
place all the same. -/
def ListFits (str : Text) : Prop :=
  if (strtok str).length < 2 ^ 32 then
    (∀ t ∈ strtok str, t ∈ functionNames) ∧ (strtok str).length ≤ maxFunctions
  else Lands (strtok str)

/-- **The `--functions` option.** -/
theorem functionsRight_iff (str : Text) : FunctionsRight str ↔ ListFits str := by
  rw [functionsRight_iff_lands, ListFits]
  split
  · next h => exact lands_iff h
  · rfl

/-- A token that is no name leaves an entry unassigned. -/
theorem functions_fail_unknown : ¬ FunctionsRight "add,foo,mul".toList := by
  have hts : strtok "add,foo,mul".toList = ["add".toList, "foo".toList, "mul".toList] := by decide
  rw [functionsRight_iff_lands, hts, lands_iff (by simp)]
  decide

/-- Without the option every function is run, each once. -/
theorem readFunctions_none : ∃ functions, readFunctions none = .ok (functions, 15) ∧
    functions.StartsWith defaultFunctions ∧ defaultFunctions.Nodup ∧ ∀ f, f ∈ defaultFunctions := by
  have hstart : (Buffer.alloc Function maxFunctions).StartsWith [] := by simp [Buffer.StartsWith]
  have hroom : ([] ++ defaultFunctions).length ≤ (Buffer.alloc Function maxFunctions).size := by
    simp [defaultFunctions, maxFunctions]
  obtain ⟨functions, hwrite, -, hstarts⟩ := hstart.writeAll hroom
  rw [List.length_nil] at hwrite
  refine ⟨functions, ?_, hstarts, by decide, mem_defaultFunctions⟩
  simp only [readFunctions, hwrite, bind, Except.bind]
  rfl

end UclBench.ArithSpeed
