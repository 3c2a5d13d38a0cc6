import UclBench.CString
import UclBench.Loop
import Mathlib.Logic.Function.Basic

/-!
# UclBench.ClLib.GetOpt

The options of a command line (`getopt_long` of `clcommon.cpp`).

The function keeps its place in static variables: the index of an argument and,
inside a cluster of short options, an offset.  `Cursor` is what these variables
stand for, the characters and the arguments that are still to be read, and
`Cursor.next` reads an option off them.  `getoptLong_next` is the simulation:
every call returns what `Cursor.next` reads, and never looks outside `argv` or
one of its strings.
-/

namespace UclBench.ClLib

/-! ## the function -/

/-- `struct option`; a flag is the variable it points to. -/
structure LongOpt where
  name : Text
  /-- `no_argument`, `required_argument` or `optional_argument`. -/
  hasArg : Nat
  flag : Option Nat
  val : Int
  deriving DecidableEq

/-- What a caller sees: `optarg`, and the variables behind the flags. -/
structure Vars where
  optarg : Option Text
  flags : Nat → Int

/-- The variables of `getopt_long`, and the `*longindex` of its last call. -/
structure GetOpt where
  optind : Nat
  lastidx : Nat
  lastofs : Nat
  optopt : Char
  longindex : Nat
  vars : Vars

/-- `argv[i]`, NULL for `i = argc`. -/
def argAt (argv : List Text) (i : Nat) : Except Fault (Option Text) :=
  if i ≤ argv.length then .ok argv[i]? else .error .outOfBounds

/-- `s[i]`, up to the terminating NUL. -/
def charAt (s : Text) (i : Nat) : Except Fault Char :=
  if i ≤ s.length then .ok (s.getD i nul) else .error .outOfBounds

/-- `strchr`: the text from the character on. -/
def strchr (s : Text) (c : Char) : Option Text :=
  if c = nul then some []
  else match s.dropWhile (· ≠ c) with
    | [] => none
    | t => some t

/-- What the search in `longopts` has come to. -/
inductive Match where
  | none
  | one (i : Nat) (o : LongOpt)
  | ambiguous

/-- A second match spoils the first. -/
def Match.add (i : Nat) (o : LongOpt) : Match → Match
  | .none => .one i o
  | _ => .ambiguous

/-- The search, which a full name ends. -/
def matchLong (key : Text) : List LongOpt → Nat → Match → Match
  | [], _, m => m
  | o :: os, i, m =>
      if key <+: o.name then
        if o.name.length = key.length then .one i o
        else matchLong key os (i + 1) (m.add i o)
      else matchLong key os (i + 1) m

/-- The end of a long option: its flag is set, or its value returned. -/
def finish (o : LongOpt) (v : Vars) : Int × Vars :=
  match o.flag with
  | some f => (0, { v with flags := Function.update v.flags f o.val })
  | none => (o.val, v)

section
variable (argv : List Text) (optstring : Text) (longopts : List LongOpt)

/-- `argv[optind]` begins with `--`. -/
def longOption (a : Text) (s : GetOpt) : Except Fault (Int × GetOpt) := do
  let arg := a.drop 2
  let key := arg.takeWhile (· ≠ '=')
  let reject : Int × GetOpt :=
    if optstring.head? = some ':' then (':'.toNat, s)
    else ('?'.toNat, { s with optind := s.optind + 1 })
  match matchLong key longopts 0 .none with
  | .one i o =>
      let s := { s with longindex := i }
      if 0 < o.hasArg then
        match arg.dropWhile (· ≠ '=') with
        | _ :: value =>
            let (c, v) := finish o { s.vars with optarg := some value }
            pure (c, { s with optind := s.optind + 1, vars := v })
        | [] => do
            let next ← argAt argv (s.optind + 1)
            let s := { s with vars := { s.vars with optarg := next } }
            if next = none ∧ o.hasArg = 1 then
              -- no argument there
              if optstring.head? = some ':' then pure (':'.toNat, s)
              else pure ('?'.toNat, { s with optind := s.optind + 1 })
            else
              let (c, v) := finish o s.vars
              pure (c, { s with optind := s.optind + 2, vars := v })
      else
        let (c, v) := finish o s.vars
        pure (c, { s with optind := s.optind + 1, vars := v })
  | _ => pure reject

/-- The offset of the last call counts only inside the same argument. -/
def settle (s : GetOpt) : GetOpt :=
  if s.lastidx ≠ s.optind then { s with lastidx := s.optind, lastofs := 0 } else s

/-- The next character of the cluster `argv[optind]`. -/
def shortOption (a : Text) (s : GetOpt) : Except Fault (Pass GetOpt (Int × GetOpt)) := do
  let s := settle s
  let c ← charAt a (s.lastofs + 1)
  let s := { s with optopt := c }
  match strchr optstring c with
  | none => pure (.leave ('?'.toNat, { s with optind := s.optind + 1 }))
  | some tmp =>
      if c = nul then
        -- the end of the cluster
        pure (.again { s with optind := s.optind + 1 })
      else do
        let expects ← charAt tmp 1
        if expects = ':' then do
          let optional ← charAt tmp 2
          let here ← charAt a (s.lastofs + 2)
          if optional = ':' ∨ here ≠ nul then
            let optarg := if here = nul then none else some (a.drop (s.lastofs + 2))
            pure (.leave (c.toNat,
              { s with optind := s.optind + 1, vars := { s.vars with optarg } }))
          else do
            let next ← argAt argv (s.optind + 1)
            let s := { s with vars := { s.vars with optarg := next } }
            if next = none then
              pure (.leave (':'.toNat, { s with optind := s.optind + 1 }))
            else pure (.leave (c.toNat, { s with optind := s.optind + 2 }))
        else pure (.leave (c.toNat, { s with lastofs := s.lastofs + 1 }))

/-- One run from `again:` on. -/
def getoptPass (s : GetOpt) : Except Fault (Pass GetOpt (Int × GetOpt)) := do
  match argv[s.optind]? with
  | none => pure (.leave (-1, s))
  | some a =>
      if optstring.head? = some '-' ∧ a.head? ≠ some '-' then
        pure (.leave (1, { s with optind := s.optind + 1, vars := { s.vars with optarg := some a } }))
      else if a.head? ≠ some '-' then pure (.leave (-1, s))
      else do
        let c ← charAt a 1
        if c = nul then pure (.leave (-1, s))
        else if c = '-' then do
          let c' ← charAt a 2
          if c' = nul then pure (.leave (-1, { s with optind := s.optind + 1 }))
          else do
            let r ← longOption argv optstring longopts a s
            pure (.leave r)
        else shortOption argv optstring a s

def getoptLong (fuel : Nat) (s : GetOpt) : Except Fault (Int × GetOpt) :=
  runLoop (getoptPass argv optstring longopts) fuel
    (if s.optind = 0 then { s with optind := 1, lastidx := 0 } else s)

end

/-! ## what is left to read -/

/-- The options of a program: their names differ, no value is the mark of the
end, and the two extensions of the short options are not used. -/
structure Options where
  optstring : Text
  longopts : List LongOpt
  plain : optstring.head? ≠ some '-' ∧ optstring.head? ≠ some ':'
  names : (longopts.map LongOpt.name).Nodup
  val_ne : ∀ o ∈ longopts, o.val ≠ -1

/-- The rest of a cluster of short options, and the arguments behind it. -/
structure Cursor where
  vars : Vars
  cluster : Text
  rest : List Text

namespace Cursor

/-- A long option: its argument is behind `=` or the next one. -/
def long (opts : Options) (arg : Text) (k : Cursor) : Int × Cursor :=
  match matchLong (arg.takeWhile (· ≠ '=')) opts.longopts 0 .none with
  | .one _ o =>
      if 0 < o.hasArg then
        match arg.dropWhile (· ≠ '=') with
        | _ :: value =>
            let (c, v) := finish o { k.vars with optarg := some value }
            (c, { k with vars := v })
        | [] => match k.rest with
            | value :: rest =>
                let (c, v) := finish o { k.vars with optarg := some value }
                (c, { k with vars := v, rest })
            | [] =>
                let v := { k.vars with optarg := none }
                if o.hasArg = 1 then ('?'.toNat, { k with vars := v })
                else
                  let (c, v) := finish o v
                  (c, { k with vars := v })
      else
        let (c, v) := finish o k.vars
        (c, { k with vars := v })
  | _ => ('?'.toNat, k)

/-- The short option `c`, with the rest of its cluster. -/
def short (opts : Options) (c : Char) (cluster : Text) (k : Cursor) : Int × Cursor :=
  match opts.optstring.dropWhile (· ≠ c) with
  | [] => ('?'.toNat, { k with cluster := [] })
  | _ :: tmp =>
      if tmp.head? = some ':' then
        if cluster ≠ [] then
          (c.toNat, { k with vars := { k.vars with optarg := some cluster }, cluster := [] })
        else if tmp.tail.head? = some ':' then
          (c.toNat, { k with vars := { k.vars with optarg := none }, cluster := [] })
        else match k.rest with
          | [] => (':'.toNat, { k with vars := { k.vars with optarg := none }, cluster := [] })
          | value :: rest =>
              (c.toNat, { vars := { k.vars with optarg := some value }, cluster := [], rest })
      else (c.toNat, { k with cluster })

/-- The next option, unless there is none. -/
def next (opts : Options) (k : Cursor) : Option (Int × Cursor) :=
  match k.cluster, k.rest with
  | c :: cluster, _ => some (k.short opts c cluster)
  | [], ('-' :: '-' :: []) :: _ => none
  | [], ('-' :: '-' :: arg) :: rest => some (Cursor.long opts arg { k with rest })
  | [], ('-' :: c :: cluster) :: rest => some (Cursor.short opts c cluster { k with rest })
  | [], _ => none

end Cursor

/-! ## simulation -/

/-- An argument with short options. -/
def IsCluster (a : Text) : Prop := ∃ c cs, a = '-' :: c :: cs ∧ c ≠ '-'

/-- The static variables stand for the cursor. -/
structure At (argv : List Text) (s : GetOpt) (k : Cursor) : Prop where
  vars : s.vars = k.vars
  pos : 0 < s.optind
  place : (s.lastidx < s.optind ∧ k.cluster = [] ∧ k.rest = argv.drop s.optind) ∨
    (s.lastidx = s.optind ∧ ∃ a, argv[s.optind]? = some a ∧ IsCluster a ∧
      s.lastofs + 1 ≤ a.length ∧ k.cluster = a.drop (s.lastofs + 1) ∧
      k.rest = argv.drop (s.optind + 1))

/-- Behind an argument that has been dealt with. -/
theorem At.behind {argv : List Text} {s : GetOpt} {k : Cursor} (hv : s.vars = k.vars)
    (hpos : 0 < s.optind) (hidx : s.lastidx < s.optind) (hc : k.cluster = [])
    (hr : k.rest = argv.drop s.optind) : At argv s k := ⟨hv, hpos, .inl ⟨hidx, hc, hr⟩⟩

section
variable {s : Text} {c : Char}

theorem charAt_length : charAt s s.length = .ok nul := by simp [charAt]

theorem charAt_succ {i : Nat} : charAt (c :: s) (i + 1) = charAt s i := by
  simp [charAt]

theorem headD_eq_colon {s : Text} : s.headD nul = ':' ↔ s.head? = some ':' := by
  cases s with
  | nil => simp [nul]
  | cons => simp

theorem charAt_drop {i j : Nat} (h : i ≤ s.length) : charAt (s.drop i) j = charAt s (i + j) := by
  simp only [charAt, List.length_drop, List.getD_eq_getElem?_getD, List.getElem?_drop]
  refine if_congr ?_ rfl rfl
  omega

theorem charAt_zero (s : Text) : charAt s 0 = .ok (s.headD nul) := by
  cases s <;> simp [charAt]

end

section
variable {argv : List Text} (opts : Options) {s : GetOpt} {k : Cursor} {a : Text}

/-- An argument of the command line is behind the current one, or `argv` ends. -/
theorem argAt_succ (h : argv[s.optind]? = some a) :
    argAt argv (s.optind + 1) = .ok (argv.drop (s.optind + 1)).head? := by
  obtain ⟨hlt, -⟩ := List.getElem?_eq_some_iff.mp h
  rw [argAt, if_pos (Nat.succ_le_of_lt hlt), List.head?_drop]

theorem longOption_eq {arg : Text} (h : argv[s.optind]? = some ('-' :: '-' :: arg))
    (hv : s.vars = k.vars) (hidx : s.lastidx ≤ s.optind) (hc : k.cluster = [])
    (hr : k.rest = argv.drop (s.optind + 1)) :
    ∃ s', longOption argv opts.optstring opts.longopts ('-' :: '-' :: arg) s =
      .ok ((k.long opts arg).1, s') ∧ At argv s' (k.long opts arg).2 := by
  have hbehind {s' : GetOpt} {v : Vars} (ho : s'.optind = s.optind + 1)
      (hl : s'.lastidx = s.lastidx) (hv' : s'.vars = v) : At argv s' { k with vars := v } :=
    .behind hv' (by omega) (by omega) hc (by rw [ho]; exact hr)
  have hskip {s' : GetOpt} {k' : Cursor} (ho : s'.optind = s.optind + 2)
      (hl : s'.lastidx = s.lastidx) (hv' : s'.vars = k'.vars) (hc' : k'.cluster = [])
      (hr' : k'.rest = k.rest.tail) : At argv s' k' := by
    refine .behind hv' (by omega) (by omega) hc' ?_
    rw [hr', hr, List.tail_drop, ho]
  simp only [longOption, Cursor.long, List.drop_succ_cons, List.drop_zero, if_neg opts.plain.2]
  cases matchLong (arg.takeWhile (· ≠ '=')) opts.longopts 0 .none with
  | none => exact ⟨_, rfl, hbehind rfl rfl hv⟩
  | ambiguous => exact ⟨_, rfl, hbehind rfl rfl hv⟩
  | one i o =>
      dsimp only
      by_cases ho : 0 < o.hasArg
      · simp only [if_pos ho]
        cases arg.dropWhile (· ≠ '=') with
        | cons c value =>
            rw [hv]
            exact ⟨_, rfl, hbehind rfl rfl rfl⟩
        | nil =>
            dsimp only
            rw [argAt_succ h, ← hr, hv]
            cases hrest : k.rest with
            | nil =>
                by_cases hone : o.hasArg = 1
                · simp only [if_pos hone, List.head?_nil]
                  exact ⟨_, if_pos ⟨rfl, hone⟩, .behind rfl (Nat.succ_pos _) (Nat.lt_succ_of_le hidx) hc
                    (hrest.symm.trans hr)⟩
                · simp only [if_neg hone]
                  exact ⟨_, if_neg fun h => hone h.2, hskip rfl rfl rfl hc (by rw [hrest]; rfl)⟩
            | cons value rest =>
                exact ⟨_, rfl, hskip rfl rfl rfl hc (by rw [hrest]; rfl)⟩
      · simp only [if_neg ho]
        rw [hv]
        exact ⟨_, rfl, hbehind rfl rfl rfl⟩

/-- Where the cluster goes on. -/
def offset (s : GetOpt) : Nat := if s.lastidx = s.optind then s.lastofs else 0

theorem settle_eq (s : GetOpt) : settle s = { s with lastidx := s.optind, lastofs := offset s } := by
  obtain ⟨optind, lastidx, lastofs, optopt, longindex, vars⟩ := s
  by_cases h : lastidx = optind
  · subst h
    simp [settle, offset]
  · simp [settle, offset, h]

/-- The end of a cluster: on to the next argument. -/
theorem shortOption_end (hofs : offset s + 1 = a.length) (hv : s.vars = k.vars)
    (hc : k.cluster = []) (hr : k.rest = argv.drop (s.optind + 1)) :
    ∃ s', shortOption argv opts.optstring a s = .ok (.again s') ∧ At argv s' k ∧
      s'.lastidx < s'.optind := by
  simp only [shortOption, settle_eq, hofs, charAt_length, strchr, bind, Except.bind, if_true]
  exact ⟨_, rfl, .behind hv (Nat.succ_pos _) (Nat.lt_succ_self _) hc hr, Nat.lt_succ_self _⟩

theorem shortOption_eq {c : Char} {cs : Text} (ha : argv[s.optind]? = some a) (hcluster : IsCluster a)
    (hc : a.drop (offset s + 1) = c :: cs) (hnul : NulFree (c :: cs)) (hpos : 0 < s.optind)
    (hv : s.vars = k.vars) (hr : k.rest = argv.drop (s.optind + 1)) :
    ∃ s', shortOption argv opts.optstring a s = .ok (.leave ((k.short opts c cs).1, s')) ∧
      At argv s' (k.short opts c cs).2 := by
  have hlt : offset s + 1 < a.length := by
    by_contra h
    rw [List.drop_eq_nil_of_le (Nat.le_of_not_lt h)] at hc
    contradiction
  have htail : a.drop (offset s + 2) = cs := by
    rw [← List.tail_drop, hc, List.tail_cons]
  have hchar : charAt a (offset s + 1) = .ok c := by
    have hzero := charAt_drop (s := a) (j := 0) hlt.le
    rwa [hc, charAt_zero, List.headD_cons, eq_comm, Nat.add_zero] at hzero
  have hnext : charAt a (offset s + 2) = .ok (cs.headD nul) := by
    have hzero := charAt_drop (s := a) (i := offset s + 2) (j := 0) hlt
    rwa [htail, charAt_zero, eq_comm, Nat.add_zero] at hzero
  have hbehind {s' : GetOpt} {k' : Cursor} (ho : s'.optind = s.optind + 1)
      (hl : s'.lastidx = s.optind) (hv' : s'.vars = k'.vars) (hc' : k'.cluster = [])
      (hr' : k'.rest = k.rest) : At argv s' k' :=
    .behind hv' (by omega) (by omega) hc' (by rw [hr', ho, hr])
  have hcnul : c ≠ nul := (nulFree_cons.mp hnul).1
  simp only [shortOption, settle_eq, hchar, hnext, strchr, if_neg hcnul, bind, Except.bind,
    Cursor.short]
  cases htmp : opts.optstring.dropWhile (· ≠ c) with
  | nil => exact ⟨_, rfl, hbehind rfl rfl hv rfl rfl⟩
  | cons d tmp =>
      have hplain {s' : GetOpt} (ho : s'.optind = s.optind) (hl : s'.lastidx = s.optind)
          (hofs : s'.lastofs = offset s + 1) (hv' : s'.vars = k.vars) :
          At argv s' { k with cluster := cs } := by
        refine ⟨hv', by omega, .inr ⟨hl.trans ho.symm, a, by rwa [ho], hcluster, by omega, ?_, ?_⟩⟩
        · rw [hofs]
          exact htail.symm
        · rw [ho]
          exact hr
      have hcolon : charAt (d :: tmp) 1 = .ok (tmp.headD nul) := by rw [charAt_succ, charAt_zero]
      simp only [hcolon, headD_eq_colon]
      by_cases hexpects : tmp.head? = some ':'
      · obtain ⟨e, more, rfl⟩ := List.exists_cons_of_ne_nil
          (fun h => by simp [h] at hexpects : tmp ≠ [])
        have hoptional : charAt (d :: e :: more) 2 = .ok (more.headD nul) := by
          rw [charAt_succ, charAt_succ, charAt_zero]
        simp only [if_pos hexpects, hoptional, headD_eq_colon, List.tail_cons, htail, hv]
        cases hcs : cs with
        | cons x xs =>
            have hx : x ≠ nul := (nulFree_cons.mp (nulFree_cons.mp (hcs ▸ hnul)).2).1
            simp only [List.headD_cons, hx, ne_eq, not_false_eq_true, or_true, if_true, if_false,
              List.cons_ne_nil]
            exact ⟨_, rfl, hbehind rfl rfl rfl rfl rfl⟩
        | nil =>
            simp only [List.headD_nil, ne_eq, not_true, or_false, if_true, if_false]
            by_cases hopt : more.head? = some ':'
            · simp only [hopt, if_true]
              exact ⟨_, rfl, hbehind rfl rfl rfl rfl rfl⟩
            · simp only [hopt, if_false, argAt_succ ha, ← hr]
              cases hrest : k.rest with
              | nil => exact ⟨_, rfl, hbehind rfl rfl rfl rfl hrest.symm⟩
              | cons value rest =>
                  refine ⟨_, rfl, .behind rfl (Nat.succ_pos _) (by simp) rfl ?_⟩
                  rw [← List.tail_drop, ← hr, hrest, List.tail_cons]
      · simp only [if_neg hexpects]
        exact ⟨_, rfl, hplain rfl rfl rfl hv⟩

/-- The call does what `Cursor.next` says. -/
def Returns (argv : List Text) (opts : Options) (k : Cursor) (r : Int × GetOpt) : Prop :=
  match k.next opts with
  | none => r.1 = -1 ∧ r.2.vars = k.vars
  | some (c, k') => r.1 = c ∧ At argv r.2 k'

theorem returns_short {c : Char} {cs : Text} (ha : argv[s.optind]? = some a)
    (hcluster : IsCluster a) (hc : a.drop (offset s + 1) = c :: cs) (hnul : NulFree (c :: cs))
    (hpos : 0 < s.optind) (hv : s.vars = k.vars) (hr : argv.drop (s.optind + 1) = k.rest)
    {k₀ : Cursor} (hk₀ : k₀.next opts = some (k.short opts c cs)) :
    ∃ r, shortOption argv opts.optstring a s = .ok (.leave r) ∧ Returns argv opts k₀ r := by
  obtain ⟨s', hs', hat⟩ := shortOption_eq opts ha hcluster hc hnul hpos hv hr.symm
  refine ⟨_, hs', ?_⟩
  rw [Returns, hk₀]
  exact ⟨rfl, hat⟩

theorem Cursor.next_long {c : Char} {cs : Text} {rest : List Text} (hc : k.cluster = [])
    (hr : k.rest = ('-' :: '-' :: c :: cs) :: rest) :
    k.next opts = some (Cursor.long opts (c :: cs) { k with rest }) := by
  simp [Cursor.next, hc, hr]

theorem Cursor.next_short {c : Char} {cs : Text} {rest : List Text} (hc : k.cluster = [])
    (hr : k.rest = ('-' :: c :: cs) :: rest) (hne : c ≠ '-') :
    k.next opts = some (Cursor.short opts c cs { k with rest }) := by
  rw [Cursor.next, hc, hr]
  split <;> simp_all

theorem Cursor.next_stop {rest : List Text} (hc : k.cluster = []) (hr : k.rest = a :: rest)
    (hhead : a.head? ≠ some '-') : k.next opts = none := by
  rw [Cursor.next, hc, hr]
  split <;> simp_all

/-! one lemma for each kind of argument -/

theorem getoptPass_stop (ha : argv[s.optind]? = some a) (hhead : a.head? ≠ some '-') :
    getoptPass argv opts.optstring opts.longopts s = .ok (.leave (-1, s)) := by
  simp only [getoptPass, ha, opts.plain.1, hhead, ne_eq, not_false_eq_true, false_and, if_true,
    if_false]
  rfl

theorem getoptPass_dash (ha : argv[s.optind]? = some ['-']) :
    getoptPass argv opts.optstring opts.longopts s = .ok (.leave (-1, s)) := by
  simp [getoptPass, ha, charAt, bind, Except.bind, pure, Except.pure]

theorem getoptPass_dashes (ha : argv[s.optind]? = some ['-', '-']) :
    getoptPass argv opts.optstring opts.longopts s =
      .ok (.leave (-1, { s with optind := s.optind + 1 })) := by
  simp [getoptPass, ha, charAt, nul, bind, Except.bind, pure, Except.pure]

theorem getoptPass_long {c : Char} {cs : Text} (ha : argv[s.optind]? = some ('-' :: '-' :: c :: cs))
    (hc : c ≠ nul) : getoptPass argv opts.optstring opts.longopts s = (do
      let r ← longOption argv opts.optstring opts.longopts ('-' :: '-' :: c :: cs) s
      pure (.leave r)) := by
  have hdash : '-' ≠ nul := by decide
  simp [getoptPass, ha, charAt, hdash, hc, bind, Except.bind]

theorem getoptPass_short {c : Char} {cs : Text} (ha : argv[s.optind]? = some ('-' :: c :: cs))
    (hc : c ≠ nul) (hc' : c ≠ '-') : getoptPass argv opts.optstring opts.longopts s =
      shortOption argv opts.optstring ('-' :: c :: cs) s := by
  simp [getoptPass, ha, charAt, hc', hc, bind, Except.bind]

/-- One run: either a cluster has come to its end, or the call returns. -/
theorem getoptPass_eq (hargs : ∀ a ∈ argv, NulFree a) (h : At argv s k) :
    (∃ s', getoptPass argv opts.optstring opts.longopts s = .ok (.again s') ∧ At argv s' k ∧
      s.lastidx = s.optind ∧ s'.lastidx < s'.optind) ∨
    ∃ r, getoptPass argv opts.optstring opts.longopts s = .ok (.leave r) ∧
      Returns argv opts k r := by
  obtain ⟨hv, hpos, ⟨hlt, hc, hr⟩ | ⟨hidx, a, ha, hcluster, hofs, hc, hr⟩⟩ := h
  · right
    have hget : argv[s.optind]? = k.rest.head? := by rw [hr, List.head?_drop]
    rcases hrest : k.rest with _ | ⟨a, rest⟩
    · refine ⟨(-1, s), by simp [getoptPass, hget, hrest]; rfl, ?_⟩
      simp [Returns, Cursor.next, hc, hrest, hv]
    · rw [hrest, List.head?_cons] at hget
      have hrest' : rest = argv.drop (s.optind + 1) := by
        rw [← List.tail_drop, ← hr, hrest, List.tail_cons]
      have hnulfree := hargs a (List.mem_of_getElem? hget)
      have hnone {r : GetOpt} (hr : r.vars = k.vars) (hk : k.next opts = none) :
          Returns argv opts k (-1, r) := by
        rw [Returns, hk]
        exact ⟨rfl, hr⟩
      rcases a with _ | ⟨x, xs⟩
      · exact ⟨_, getoptPass_stop opts hget nofun, hnone hv (by simp [Cursor.next, hc, hrest])⟩
      by_cases hx : x = '-'
      · subst hx
        rcases xs with _ | ⟨d, ds⟩
        · exact ⟨_, getoptPass_dash opts hget, hnone hv (by simp [Cursor.next, hc, hrest])⟩
        have hd := nulFree_cons.mp (nulFree_cons.mp hnulfree).2
        by_cases hdash : d = '-'
        · subst hdash
          rcases ds with _ | ⟨e, es⟩
          · exact ⟨_, getoptPass_dashes opts hget, hnone hv (by simp [Cursor.next, hc, hrest])⟩
          · obtain ⟨s', hs', hat⟩ := longOption_eq opts hget (k := { k with rest })
              hv hlt.le hc hrest'
            refine ⟨((Cursor.long opts (e :: es) { k with rest }).1, s'), ?_, ?_⟩
            · rw [getoptPass_long opts hget (nulFree_cons.mp hd.2).1, hs']
              rfl
            · rw [Returns, Cursor.next_long opts hc hrest]
              exact ⟨rfl, hat⟩
        · rw [getoptPass_short opts hget hd.1 hdash]
          have hoffset : offset s = 0 := if_neg hlt.ne
          exact returns_short opts hget ⟨d, ds, rfl, hdash⟩ (by rw [hoffset]; rfl)
            (nulFree_cons.mp hnulfree).2 hpos (k := { k with rest }) hv hrest'.symm
            (Cursor.next_short opts hc hrest hdash)
      · have hhead : (x :: xs).head? ≠ some '-' := by simpa using hx
        exact ⟨_, getoptPass_stop opts hget hhead, hnone hv (Cursor.next_stop opts hc hrest hhead)⟩
  · have hoffset : offset s = s.lastofs := if_pos hidx
    obtain ⟨c, cs, rfl, hc'⟩ := hcluster
    have hnulfree := hargs _ (List.mem_of_getElem? ha)
    have hcn : c ≠ nul := (nulFree_cons.mp (nulFree_cons.mp hnulfree).2).1
    rw [getoptPass_short opts ha hcn hc']
    cases hcl : k.cluster with
    | nil =>
        rw [hcl, eq_comm, List.drop_eq_nil_iff] at hc
        obtain ⟨s', hs', hat, hlt⟩ := shortOption_end opts
          (a := '-' :: c :: cs) (by rw [hoffset]; omega) hv hcl hr
        exact .inl ⟨s', hs', hat, hidx, hlt⟩
    | cons d ds =>
        have hds : ('-' :: c :: cs).drop (offset s + 1) = d :: ds := by rw [hoffset, ← hc, hcl]
        have hdnul : NulFree (d :: ds) := fun h => hnulfree (List.mem_of_mem_drop (hds ▸ h))
        exact .inr (returns_short opts ha ⟨c, cs, rfl, hc'⟩ hds hdnul hpos hv hr.symm
          (by simp [Cursor.next, hcl]))

/-- **Simulation**: a call needs two runs at most, reads nothing outside `argv`
or its strings, and returns what the cursor reads. -/
theorem getoptLong_next {fuel : Nat} (hargs : ∀ a ∈ argv, NulFree a) (h : At argv s k)
    (hfuel : 2 ≤ fuel) : ∃ r, getoptLong argv opts.optstring opts.longopts fuel s = .ok r ∧
      Returns argv opts k r := by
  obtain ⟨fuel, rfl⟩ : ∃ n, fuel = n + 2 := ⟨fuel - 2, by omega⟩
  rw [getoptLong, if_neg h.pos.ne']
  rcases getoptPass_eq opts hargs h with ⟨s', hpass, hat, hidx, hlt⟩ | ⟨r, hpass, hr⟩
  · rw [runLoop_again hpass]
    rcases getoptPass_eq opts hargs hat with ⟨_, -, -, hidx', -⟩ | ⟨r, hpass', hr⟩
    · exact absurd hidx' hlt.ne
    · exact ⟨r, runLoop_leave hpass', hr⟩
  · exact ⟨r, runLoop_leave hpass, hr⟩

end

end UclBench.ClLib
