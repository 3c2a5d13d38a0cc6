import UclBench.ClLib.OptionLoop
import UclBench.DeviceList
import Mathlib.Data.List.Basic

/-!
# UclBench.ClLib.StringOptions

Programs that keep the arguments of their options as strings, and look at them
when all options are read: `buffer_bandwidth` and `mem_streaming`.

`stringOptions_eq`: on every command line the last argument of an option is the
one that is kept, unless the program aborts.  It does when a call of
`getopt_long` reports `:`, which `short_colon` traces back to the short option
whose argument is missing.
-/

namespace UclBench.ClLib

open SizeList DeviceList

/-! ## the switch -/

/-- The string variables, each under the letter of its option. -/
abbrev Strings := Char → Option Text

/-- `case 'a': sizes_str = optarg; break;` and so on, for every letter. -/
def storeCase (letters : List Char) (p : Strings) (e : Event) : Main Strings :=
  if e.1 = 0 then pure p
  else match letters.find? fun c => e.1 = (c.toNat : Int) with
    | some c => pure (Function.update p c e.2)
    | none => if e.1 = '?'.toNat then pure p else throw .abort

/-- A program whose options are flags or have a letter. -/
structure StringOptions extends Options where
  letters : List Char
  letters_ne : ∀ c ∈ letters, c ≠ nul ∧ c ≠ '?' ∧ c ≠ ':'
  rows : ∀ o ∈ longopts, o.flag ≠ none ∨ ∃ c ∈ letters, o.val = c.toNat
  short : ∀ d ∈ optstring, d ∈ letters ∨ d = ':'

/-- The argument that counts. -/
def lastArg (c : Char) (es : List Event) : Option Text := (argsOf c es).getLast?.join

theorem toNat_cast_inj {c d : Char} : (c.toNat : Int) = d.toNat ↔ c = d :=
  Int.ofNat_inj.trans Char.toNat_inj

section
variable {letters : List Char} {p : Strings} {e : Event}

theorem storeCase_letter {c : Char} (hc : c ∈ letters) (hnul : c ≠ nul) (h : e.1 = c.toNat) :
    storeCase letters p e = pure (Function.update p c e.2) := by
  have hzero : e.1 ≠ 0 := fun h' => hnul (toNat_cast_inj.mp ((h.symm.trans h').trans rfl))
  have hfind : (letters.find? fun d => e.1 = (d.toNat : Int)) = some c := by
    cases hd : letters.find? fun d => e.1 = (d.toNat : Int) with
    | none => exact absurd (decide_eq_true h) (List.find?_eq_none.mp hd c hc)
    | some d =>
        have hed : e.1 = d.toNat := by simpa using List.find?_some hd
        rw [toNat_cast_inj.mp (hed.symm.trans h)]
  rw [storeCase, if_neg hzero, hfind]

theorem storeCase_other (h : ∀ c ∈ letters, e.1 ≠ c.toNat) : storeCase letters p e =
    if e.1 = 0 ∨ e.1 = '?'.toNat then pure p else throw .abort := by
  have hfind : (letters.find? fun d => e.1 = (d.toNat : Int)) = none :=
    List.find?_eq_none.mpr fun c hc => by simpa using h c hc
  rw [storeCase, hfind]
  by_cases hzero : e.1 = 0
  · rw [if_pos hzero, if_pos (.inl hzero)]
  · rw [if_neg hzero]
    exact if_congr (by simp [hzero]) rfl rfl

end

/-! ## the loop -/

namespace StringOptions

variable (so : StringOptions)

/-- What a call can report, other than a missing argument. -/
def Known (e : Event) : Prop := e.1 = 0 ∨ e.1 = '?'.toNat ∨ ∃ c ∈ so.letters, e.1 = c.toNat

theorem known_or_colon (k : Cursor) :
    ∀ e ∈ (k.run so.toOptions).1, so.Known e ∨ e.1 = ':'.toNat := by
  have hshort (k : Cursor) (d : Char) (cs : Text) {r : Int × Cursor}
      (hr : r = k.short so.toOptions d cs) :
      so.Known (r.1, r.2.vars.optarg) ∨ r.1 = ':'.toNat := by
    rcases Cursor.short_cases so.toOptions (k := k) d cs with hc | ⟨hd, hc | hc⟩
    · exact .inl (.inr (.inl ((congrArg Prod.fst hr).trans hc)))
    · rcases so.short d hd with hletter | rfl
      · exact .inl (.inr (.inr ⟨d, hletter, (congrArg Prod.fst hr).trans hc⟩))
      · exact .inr ((congrArg Prod.fst hr).trans hc)
    · exact .inr ((congrArg Prod.fst hr).trans hc)
  refine Cursor.forall_mem_run so.toOptions (fun k c k' h => ?_) k
  rcases Cursor.next_cases so.toOptions h with ⟨d, cs, -, hk⟩ | ⟨arg, rest, -, -, hk⟩ |
    ⟨d, cs, rest, -, -, hk⟩
  · exact hshort _ d cs hk
  · left
    rcases Cursor.long_cases so.toOptions (k := { k with rest }) arg with
      ⟨hc, -⟩ | ⟨o, ho, v, hfinish, -⟩
    · exact .inr (.inl ((congrArg Prod.fst hk).trans hc))
    · rw [← hk] at hfinish
      have hcode : c = (finish o v).1 := congrArg Prod.fst hfinish
      unfold finish at hcode
      cases hflag : o.flag with
      | some f => exact .inl (by rw [hcode, hflag])
      | none =>
          obtain ⟨d, hd, hval⟩ := (so.rows o ho).resolve_left (not_not_intro hflag)
          exact .inr (.inr ⟨d, hd, by rw [hcode, hflag]; exact hval⟩)
  · exact hshort _ d cs hk

/-- A missing argument is reported at the end of the command line only, and for
the short option `:`. -/
theorem short_colon {k : Cursor} {d : Char} {cs : Text}
    (h : (k.short so.toOptions d cs).1 = ':'.toNat) : d = ':' ∨ (cs = [] ∧ k.rest = []) := by
  unfold Cursor.short at h
  split at h
  · exact absurd (toNat_cast_inj.mp h) (by decide)
  · split at h
    · split at h
      · exact .inl (toNat_cast_inj.mp h)
      · next hcs =>
        split at h
        · exact .inl (toNat_cast_inj.mp h)
        · split at h
          · next hrest => exact .inr ⟨not_not.mp hcs, hrest⟩
          · exact .inl (toNat_cast_inj.mp h)
    · exact .inl (toNat_cast_inj.mp h)

/-- The strings after options that are all known. -/
theorem foldlM_storeCase {es : List Event} (p : Strings)
    (h : ∀ e ∈ es, so.Known e ∨ e.1 = ':'.toNat) :
    es.foldlM (storeCase so.letters) p =
      if ∃ e ∈ es, e.1 = ':'.toNat then throw .abort
      else pure fun c => if c ∈ so.letters then (argsOf c es).getLast?.getD (p c) else p c := by
  induction es generalizing p with
  | nil =>
      rw [if_neg (by simp)]
      refine congrArg pure (funext fun c => ?_)
      simp [argsOf]
  | cons e es ih =>
      obtain ⟨he, hes⟩ := List.forall_mem_cons.mp h
      have hskip (hcolon : e.1 ≠ ':'.toNat) :
          (∃ x ∈ es, x.1 = ':'.toNat) ↔ ∃ x ∈ e :: es, x.1 = ':'.toNat := by
        rw [List.exists_mem_cons_iff, or_iff_right hcolon]
      rw [List.foldlM_cons]
      by_cases hletter : ∃ c ∈ so.letters, e.1 = c.toNat
      · obtain ⟨c, hc, hce⟩ := hletter
        have hcolon : e.1 ≠ ':'.toNat := fun h' =>
          (so.letters_ne c hc).2.2 (toNat_cast_inj.mp (hce.symm.trans h'))
        rw [storeCase_letter hc (so.letters_ne c hc).1 hce, pure_bind, ih _ hes]
        refine if_congr (hskip hcolon) rfl (congrArg pure (funext fun d => ?_))
        by_cases hd : d ∈ so.letters
        · rw [if_pos hd, if_pos hd]
          by_cases hdc : d = c
          · subst hdc
            rw [argsOf_cons_of_eq hce, List.getLast?_cons, Function.update_self, Option.getD_some]
          · rw [argsOf_cons_of_ne fun h' => hdc (toNat_cast_inj.mp (h'.symm.trans hce)),
              Function.update_of_ne hdc]
        · rw [if_neg hd, if_neg hd, Function.update_of_ne (ne_of_mem_of_not_mem hc hd).symm]
      · have hother : ∀ c ∈ so.letters, e.1 ≠ c.toNat := fun c hc h' => hletter ⟨c, hc, h'⟩
        have hargs : ∀ d, (if d ∈ so.letters then (argsOf d (e :: es)).getLast?.getD (p d) else p d) =
            if d ∈ so.letters then (argsOf d es).getLast?.getD (p d) else p d := fun d => by
          split
          · next hd => rw [argsOf_cons_of_ne (hother d hd)]
          · rfl
        simp only [storeCase_other hother, hargs]
        by_cases hcolon : e.1 = ':'.toNat
        · rw [if_neg (by rw [hcolon]; decide), if_pos ⟨e, List.mem_cons_self, hcolon⟩]
          rfl
        · rw [if_pos, pure_bind, ih p hes]
          · exact if_congr (hskip hcolon) rfl rfl
          · rcases he.resolve_right hcolon with h' | h' | h'
            · exact .inl h'
            · exact .inr h'
            · exact absurd h' hletter

/-- The option loop of the program. -/
def mainOptions (fuel : Nat) (argv : List Text) : Main (Strings × Vars) :=
  optionLoop (storeCase so.letters) fuel argv so.optstring so.longopts (fun _ => 0) fun _ => none

/-- **The strings**, on every command line: the program aborts, or keeps for every
letter the last argument. -/
theorem stringOptions_eq {argv : List Text} {fuel : Nat} (hargs : ∀ a ∈ argv, NulFree a)
    (hfuel : (Cursor.initial (fun _ => 0) argv).size + 2 ≤ fuel) :
    so.mainOptions fuel argv =
      let r := (Cursor.initial (fun _ => 0) argv).run so.toOptions
      if ∃ e ∈ r.1, e.1 = ':'.toNat then throw .abort
      else pure (fun c => if c ∈ so.letters then lastArg c r.1 else none, r.2) := by
  dsimp only
  rw [mainOptions, optionLoop_eq so.toOptions _ _ _ hargs hfuel,
    so.foldlM_storeCase _ (so.known_or_colon _)]
  split
  · rfl
  · rw [map_pure]
    refine congrArg pure (Prod.ext (funext fun c => ?_) rfl)
    dsimp only
    split
    · rw [lastArg]
      cases (argsOf c _).getLast? <;> rfl
    · rfl

end StringOptions

/-! ## counts -/

/-- The conversion `%d`. -/
def scanD (s : Text) : Option Int :=
  let (negative, s) := scanSign (s.dropWhile isSpace)
  let digits := s.takeWhile (·.isDigit)
  let n : Int := Nat.ofDigitChars 10 digits 0
  if digits = [] then none else some (toInt (clampLong (if negative then -n else n)))

/-- A count, stored as an `unsigned int`; the default without an option. -/
def readCount (default : Nat) : Option Text → Main Nat
  | none => pure default
  | some str => match scanD str with
    | some v => pure (toUnsigned v)
    | none => throw (.code 1)

theorem scanD_decimal {n : Nat} (hn : n < 2 ^ 31) : scanD (decimal n) = some n := by
  have hdigit : ∀ c ∈ decimal n, c.isDigit = true := fun c hc =>
    Nat.isDigit_of_mem_toDigits (by decide) (by decide) hc
  obtain ⟨c, cs, hcons⟩ := List.exists_cons_of_ne_nil (List.ne_nil_of_length_pos (length_decimal_pos n))
  have hc : c.isDigit = true := hdigit c (hcons ▸ List.mem_cons_self)
  have hsign : scanSign ((decimal n).dropWhile isSpace) = (false, decimal n) := by
    rw [hcons, List.dropWhile_cons_of_neg (by simp [isSpace_of_isDigit hc]), scanSign_of_isDigit hc]
  have hvalue : Nat.ofDigitChars 10 (decimal n) 0 = n := Nat.ofDigitChars_ten_toDigits
  have hne : decimal n ≠ [] := by rw [hcons]; exact List.cons_ne_nil _ _
  simp only [scanD, hsign, List.takeWhile_eq_self_iff.mpr hdigit, if_neg hne, hvalue,
    Bool.false_eq_true, if_false, toInt, clampLong]
  congr 1
  omega

/-- A count that is written down is read back. -/
theorem readCount_decimal {n : Nat} (hn : n < 2 ^ 31) (default : Nat) :
    readCount default (some (decimal n)) = pure n := by
  rw [readCount, scanD_decimal hn]
  refine congrArg pure ?_
  simp only [toUnsigned]
  omega

end UclBench.ClLib
