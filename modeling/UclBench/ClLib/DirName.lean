import UclBench.CStorage
import Mathlib.Data.List.DropRight

/-!
# UclBench.ClLib.DirName

`dirname` of `clcommon.cpp`, which cuts the path in place.

The loop that removes the slashes in front of the last component reads a
character before it looks whether the pointer is still in the path.
`dirname_spec` says which paths have nothing in front of these slashes; for all
others the result is `directory`.
-/

namespace UclBench.ClLib

/-! ## the code -/

def strrchrPass (b : Buffer Char) (ch : Char) (p : Nat × Option Nat) :
    Except Fault (Pass (Nat × Option Nat) (Option Nat)) := do
  let c ← b.read p.1
  let last := if c = ch then some p.1 else p.2
  pure (if c = nul then .leave last else .again (p.1 + 1, last))

/-- `strrchr(b, ch)` -/
def strrchr (fuel : Nat) (b : Buffer Char) (ch : Char) : Except Fault (Option Nat) :=
  runLoop (strrchrPass b ch) fuel (0, none)

/-- `while (*c == SLASH && c != path) *c-- = EOL;` -/
def trimPass (p : Buffer Char × Nat) : Except Fault (Pass (Buffer Char × Nat) (Buffer Char)) := do
  let ch ← p.1.read p.2
  if ch = '/' ∧ p.2 ≠ 0 then do
    let b ← p.1.write p.2 nul
    pure (.again (b, p.2 - 1))
  else pure (.leave p.1)

/-- `*c`, for a pointer that may be in front of the path. -/
def readAt (b : Buffer Char) (c : Int) : Except Fault Char :=
  if 0 ≤ c then b.read c.toNat else .error .outOfBounds

/-- `while (*c == SLASH && c >= path) *c-- = EOL;` -/
def cutPass (p : Buffer Char × Int) : Except Fault (Pass (Buffer Char × Int) (Buffer Char)) := do
  let ch ← readAt p.1 p.2
  if ch = '/' ∧ 0 ≤ p.2 then do
    let b ← p.1.write p.2.toNat nul
    pure (.again (b, p.2 - 1))
  else pure (.leave p.1)

/-- One pass of the outer loop, which leaves with `dot` or with the path. -/
def dirnamePass (fuel : Nat) (b : Buffer Char) :
    Except Fault (Pass (Buffer Char) (Option (Buffer Char))) := do
  match ← strrchr fuel b '/' with
  | none => pure (.leave none)
  | some c => do
      let next ← b.read (c + 1)
      if next = nul ∧ c ≠ 0 then do
        let b ← runLoop trimPass fuel (b, c)
        pure (.again b)
      else if c ≠ 0 then do
        let b ← runLoop cutPass fuel (b, (c : Int))
        pure (.leave (some b))
      else do
        let b ← b.write 1 nul
        pure (.leave (some b))

/-- `dirname(path)` -/
def dirname (fuel : Nat) (path : Buffer Char) : Except Fault (Option (Buffer Char)) :=
  runLoop (dirnamePass fuel) fuel path

/-! ## what it is meant to do -/

/-- Without the slashes at the end, but for one at the beginning. -/
def stripped : Text → Text
  | [] => []
  | c :: cs => c :: cs.rdropWhile (· = '/')

/-- The directory of a path; none when there is no slash. -/
def directory (path : Text) : Option Text :=
  let upTo := (stripped path).rdropWhile (· ≠ '/')
  if upTo = [] then none
  else if upTo = ['/'] then some ['/']
  else some (upTo.rdropWhile (· = '/'))

/-- The path, or `dot`, which is a constant of the program. -/
def Names : Option (Buffer Char) → Option Text → Prop
  | none, none => True
  | some b, some dir => b.IsString dir
  | _, _ => False

/-- Two slashes or more, one component, and any number of slashes. -/
def Overrun (path : Text) : Prop :=
  ∃ k name j, name ≠ [] ∧ '/' ∉ name ∧
    path = List.replicate (k + 2) '/' ++ name ++ List.replicate j '/'

/-! ## strings in place -/

section
variable {b : Buffer Char} {s t u v : Text} {fuel : Nat}

/-- A terminator in the middle of a string. -/
theorem truncate (h : b.IsString (u ++ v)) : u.length < b.size ∧ (b.set u.length nul).IsString u := by
  have hcell := h.starts u.length (by simp)
  rw [List.getElem?_eq_getElem (by simp)] at hcell
  have hroom := Buffer.lt_of_cell hcell
  have hstarts : b.StartsWith (u ++ (v ++ [nul])) := by
    rw [← List.append_assoc]
    exact h.starts
  exact ⟨hroom, .of_set hstarts.of_append (nulFree_append.mp h.nulFree).1 hroom⟩

theorem read_mid {c : Char} (h : b.IsString (u ++ c :: v)) : b.read u.length = .ok c := by
  rw [h.read_of_lt (by simp : u.length < (u ++ c :: v).length)]
  simp

/-- The last position of `ch`, from position `i` on. -/
def lastFrom (ch : Char) : Nat → Option Nat → Text → Option Nat
  | _, last, [] => last
  | i, last, c :: cs => lastFrom ch (i + 1) (if c = ch then some i else last) cs

theorem lastFrom_of_notMem {ch : Char} (hv : ch ∉ v) (i : Nat) (last : Option Nat) :
    lastFrom ch i last v = last := by
  induction v generalizing i with
  | nil => rfl
  | cons c cs ih =>
      rw [List.mem_cons, not_or] at hv
      rw [lastFrom, if_neg (Ne.symm hv.1), ih hv.2]

theorem lastFrom_append {ch : Char} (hv : ch ∉ v) (i : Nat) (last : Option Nat) (u : Text) :
    lastFrom ch i last (u ++ ch :: v) = some (i + u.length) := by
  induction u generalizing i last with
  | nil => rw [List.nil_append, lastFrom, if_pos rfl, lastFrom_of_notMem hv]; rfl
  | cons c cs ih =>
      rw [List.cons_append, lastFrom, ih, List.length_cons, Nat.add_right_comm, Nat.add_assoc]

theorem runLoop_strrchr {ch : Char} (h : b.IsString (u ++ v)) (hch : ch ≠ nul) (last : Option Nat)
    (hfuel : v.length < fuel) :
    runLoop (strrchrPass b ch) fuel (u.length, last) = .ok (lastFrom ch u.length last v) := by
  induction v generalizing u last fuel with
  | nil =>
      obtain ⟨fuel, rfl⟩ : ∃ f, fuel = f + 1 := ⟨fuel - 1, by omega⟩
      have hread := h.read_length
      rw [List.append_nil] at hread
      refine runLoop_leave ?_
      simp only [strrchrPass, hread, bind, Except.bind, if_neg hch.symm]
      rfl
  | cons c cs ih =>
      obtain ⟨fuel, rfl⟩ : ∃ f, fuel = f + 1 := ⟨fuel - 1, by omega⟩
      have hc : c ≠ nul := by
        rintro rfl
        exact h.nulFree (by simp)
      have hpass : strrchrPass b ch (u.length, last) =
          .ok (.again ((u ++ [c]).length, if c = ch then some u.length else last)) := by
        simp only [strrchrPass, read_mid h, bind, Except.bind, if_neg hc, List.length_append,
          List.length_singleton]
        rfl
      rw [runLoop_again hpass, ih (by rwa [List.append_assoc]) _ (by simpa using hfuel), lastFrom,
        List.length_append, List.length_singleton]

theorem strrchr_eq {ch : Char} (h : b.IsString s) (hch : ch ≠ nul) (hfuel : s.length < fuel) :
    strrchr fuel b ch = .ok (lastFrom ch 0 none s) :=
  runLoop_strrchr (u := []) h hch none hfuel

/-! ## the two inner loops -/

/-- Trailing slashes go, but not the first character. -/
theorem runLoop_trimPass {c : Char} (hc : c ≠ '/' ∨ u = []) (k : Nat)
    (h : b.IsString (u ++ c :: List.replicate k '/')) (hfuel : k < fuel) :
    ∃ b', runLoop trimPass fuel (b, u.length + k) = .ok b' ∧ b'.IsString (u ++ [c]) := by
  induction k generalizing b fuel with
  | zero =>
      obtain ⟨fuel, rfl⟩ : ∃ f, fuel = f + 1 := ⟨fuel - 1, by omega⟩
      have hnot : ¬ (c = '/' ∧ u.length ≠ 0) := by
        rintro ⟨heq, hne⟩
        rcases hc with hc | rfl
        · exact hc heq
        · exact hne rfl
      refine ⟨b, runLoop_leave ?_, h⟩
      simp only [trimPass, Nat.add_zero, read_mid h, bind, Except.bind, if_neg hnot]
      rfl
  | succ k ih =>
      obtain ⟨fuel, rfl⟩ : ∃ f, fuel = f + 1 := ⟨fuel - 1, by omega⟩
      have hsplit : u ++ c :: List.replicate (k + 1) '/' = (u ++ c :: List.replicate k '/') ++ ['/'] := by
        simp [List.replicate_succ']
      have hlen : (u ++ c :: List.replicate k '/').length = u.length + (k + 1) := by
        simp
      rw [hsplit] at h
      have hread := read_mid h
      obtain ⟨hroom, hstring⟩ := truncate h
      rw [hlen] at hread hroom hstring
      have hpass : trimPass (b, u.length + (k + 1)) =
          .ok (.again (b.set (u.length + (k + 1)) nul, u.length + k)) := by
        rw [trimPass, hread]
        simp only [bind, Except.bind, Buffer.write_of_lt nul hroom]
        rfl
      rw [runLoop_again hpass]
      exact ih hstring (by omega)

theorem cutPass_again (h : b.IsString (u ++ '/' :: v)) :
    cutPass (b, (u.length : Int)) = .ok (.again (b.set u.length nul, (u.length : Int) - 1)) := by
  have hread : readAt b (u.length : Int) = .ok '/' := by
    rw [readAt, if_pos (Int.natCast_nonneg _), Int.toNat_natCast, read_mid h]
  rw [cutPass, hread]
  simp only [bind, Except.bind, Int.toNat_natCast, Buffer.write_of_lt nul (truncate h).1]
  rfl

/-- In front of the slashes. -/
theorem runLoop_cutPass_end {r : Text} (hr : ∀ c ∈ r.getLast?, c ≠ '/') (h : b.IsString r) (fuel : Nat) :
    (r ≠ [] → runLoop cutPass (fuel + 1) (b, (r.length : Int) - 1) = .ok b) ∧
      (r = [] → runLoop cutPass (fuel + 1) (b, (r.length : Int) - 1) = .error .outOfBounds) := by
  constructor
  · intro hne
    obtain ⟨u, c, rfl⟩ := (List.eq_nil_or_concat' r).resolve_left hne
    have hc : c ≠ '/' := hr c (by simp)
    have hindex : ((u ++ [c]).length : Int) - 1 = (u.length : Int) := by
      simp
    have hread : readAt b (u.length : Int) = .ok c := by
      rw [readAt, if_pos (Int.natCast_nonneg _), Int.toNat_natCast, read_mid h]
    refine runLoop_leave ?_
    have hnot : ¬ (c = '/' ∧ (0 : Int) ≤ u.length) := fun h => hc h.1
    rw [hindex, cutPass, hread]
    simp only [bind, Except.bind, if_neg hnot]
    rfl
  · rintro rfl
    rw [runLoop]
    rfl

/-- The slashes in front of the last component go; where nothing precedes them, the
character in front of the path is read. -/
theorem runLoop_cutPass {r : Text} (hr : ∀ c ∈ r.getLast?, c ≠ '/') (k : Nat)
    (h : b.IsString (r ++ List.replicate k '/' ++ '/' :: v)) (hfuel : k + 1 < fuel) :
    (r ≠ [] → ∃ b', runLoop cutPass fuel (b, ((r.length + k : Nat) : Int)) = .ok b' ∧ b'.IsString r) ∧
      (r = [] → runLoop cutPass fuel (b, ((r.length + k : Nat) : Int)) = .error .outOfBounds) := by
  have hlen (k : Nat) : (r ++ List.replicate k '/').length = r.length + k := by
    simp
  induction k generalizing b v fuel with
  | zero =>
      obtain ⟨fuel, rfl⟩ : ∃ f, fuel = f + 1 + 1 := ⟨fuel - 2, by omega⟩
      have hpass := cutPass_again h
      have hstring := (truncate h).2
      simp only [List.replicate_zero, List.append_nil] at hpass hstring
      obtain ⟨hok, hfault⟩ := runLoop_cutPass_end hr hstring fuel
      have hindex : r.length + 0 = r.length := rfl
      rw [hindex, runLoop_again hpass]
      exact ⟨fun hne => ⟨_, hok hne, hstring⟩, hfault⟩
  | succ k ih =>
      obtain ⟨fuel, rfl⟩ : ∃ f, fuel = f + 1 := ⟨fuel - 1, by omega⟩
      have hpass := cutPass_again h
      have hstring := (truncate h).2
      rw [hlen] at hpass hstring
      have hindex : ((r.length + (k + 1) : Nat) : Int) - 1 = ((r.length + k : Nat) : Int) := by
        omega
      rw [runLoop_again hpass, hindex]
      refine ih (v := []) ?_ (by omega)
      rwa [List.replicate_succ', ← List.append_assoc] at hstring

/-! ## the outer loop -/

theorem slash_ne_nul : '/' ≠ nul := by decide

/-- A path without slashes. -/
theorem dirnamePass_dot (h : b.IsString t) (ht : '/' ∉ t) (hfuel : t.length < fuel) :
    dirnamePass fuel b = .ok (.leave none) := by
  rw [dirnamePass, strrchr_eq h slash_ne_nul hfuel, lastFrom_of_notMem ht]
  rfl

/-- The only slash is the first character. -/
theorem dirnamePass_root {name : Text} (h : b.IsString ('/' :: name)) (hname : '/' ∉ name)
    (hfuel : name.length + 1 < fuel) :
    ∃ b', dirnamePass fuel b = .ok (.leave (some b')) ∧ b'.IsString ['/'] := by
  have hlast : strrchr fuel b '/' = .ok (some 0) := by
    rw [strrchr_eq h slash_ne_nul hfuel]
    exact congrArg _ (lastFrom_append hname 0 none [])
  obtain ⟨hroom, hstring⟩ := truncate (u := ['/']) h
  obtain ⟨next, hnext⟩ : ∃ c, b.read 1 = .ok c := by
    cases name with
    | nil => exact ⟨nul, h.read_length⟩
    | cons c cs => exact ⟨c, read_mid (u := ['/']) h⟩
  refine ⟨b.set 1 nul, ?_, hstring⟩
  rw [dirnamePass, hlast]
  simp only [bind, Except.bind, Nat.zero_add, hnext, ne_eq, not_true_eq_false, and_false, if_false,
    Buffer.write_of_lt nul (show 1 < b.size from hroom)]
  rfl

/-- Slashes at the end. -/
theorem dirnamePass_again {c : Char} (hc : c ≠ '/' ∨ u = []) (k : Nat)
    (h : b.IsString (u ++ c :: List.replicate (k + 1) '/')) (hfuel : u.length + k + 2 < fuel) :
    ∃ b', dirnamePass fuel b = .ok (.again b') ∧ b'.IsString (u ++ [c]) := by
  have hsplit : u ++ c :: List.replicate (k + 1) '/' = (u ++ c :: List.replicate k '/') ++ '/' :: [] := by
    simp [List.replicate_succ']
  have hlast : strrchr fuel b '/' = .ok (some (u.length + (k + 1))) := by
    rw [strrchr_eq h slash_ne_nul (by simp; omega), hsplit, lastFrom_append List.not_mem_nil]
    simp
  have hnext : b.read (u.length + (k + 1) + 1) = .ok nul := by
    have hread := h.read_length
    simpa [Nat.add_assoc] using hread
  obtain ⟨b', htrim, hstring⟩ := runLoop_trimPass hc (k + 1) h (by omega : k + 1 < fuel)
  refine ⟨b', ?_, hstring⟩
  rw [dirnamePass, hlast]
  have hpos : True ∧ u.length + (k + 1) ≠ 0 := ⟨trivial, by omega⟩
  simp only [bind, Except.bind, hnext]
  rw [if_pos hpos, htrim]
  rfl

/-- A component, and slashes in front of it. -/
theorem dirnamePass_cut {r : Text} (hr : ∀ c ∈ r.getLast?, c ≠ '/') {k : Nat} (hk : r.length + k ≠ 0)
    (c : Char) (name : Text) (hname : '/' ∉ c :: name)
    (h : b.IsString (r ++ List.replicate k '/' ++ '/' :: c :: name))
    (hfuel : r.length + k + name.length + 2 < fuel) :
    (r ≠ [] → ∃ b', dirnamePass fuel b = .ok (.leave (some b')) ∧ b'.IsString r) ∧
      (r = [] → dirnamePass fuel b = .error .outOfBounds) := by
  have hlast : strrchr fuel b '/' = .ok (some (r.length + k)) := by
    rw [strrchr_eq h slash_ne_nul (by simp; omega), lastFrom_append hname]
    simp
  have hc : c ≠ nul := by
    rintro rfl
    exact h.nulFree (by simp)
  have hnext : b.read (r.length + k + 1) = .ok c := by
    have hread := read_mid (u := r ++ List.replicate k '/' ++ ['/']) (c := c) (v := name) (b := b)
      (by simpa using h)
    simpa [Nat.add_assoc] using hread
  obtain ⟨hok, hfault⟩ := runLoop_cutPass hr k h (by omega : k + 1 < fuel)
  have hpass : dirnamePass fuel b = (do
      let b ← runLoop cutPass fuel (b, ((r.length + k : Nat) : Int))
      pure (.leave (some b))) := by
    rw [dirnamePass, hlast]
    simp only [bind, Except.bind, hnext]
    rw [if_neg fun h => hc h.1, if_pos hk]
  constructor
  · intro hne
    obtain ⟨b', hrun, hstring⟩ := hok hne
    exact ⟨b', by rw [hpass, hrun]; rfl, hstring⟩
  · intro hnil
    rw [hpass, hfault hnil]
    rfl

end

/-! ## the parts of a path -/

theorem rdropWhile_append {p : Char → Bool} {l m : Text} (hl : ∀ c ∈ l.getLast?, p c = false)
    (hm : ∀ c ∈ m, p c = true) : (l ++ m).rdropWhile p = l := by
  induction m using List.reverseRecOn with
  | nil =>
      rw [List.append_nil, List.rdropWhile_eq_self_iff]
      intro hne
      simp [hl _ (List.getLast?_eq_some_getLast hne)]
  | append_singleton m c ih =>
      rw [← List.append_assoc, List.rdropWhile_concat_pos _ _ _ (hm c (by simp))]
      exact ih fun c hc => hm c (by simp [hc])

theorem exists_rdropWhile (p : Char → Bool) (l : Text) : ∃ m, l = l.rdropWhile p ++ m ∧
    (∀ c ∈ m, p c = true) ∧ ∀ c ∈ (l.rdropWhile p).getLast?, p c = false := by
  refine ⟨l.rtakeWhile p, List.rdropWhile_append_rtakeWhile.symm,
    fun c hc => List.mem_rtakeWhile_imp hc, fun c hc => ?_⟩
  obtain ⟨hne, rfl⟩ := List.mem_getLast?_eq_getLast hc
  exact Bool.eq_false_iff.mpr (List.rdropWhile_last_not p l hne)

/-- The paths, and what is in front of their last component. -/
inductive Path : Text → Option Text → Prop
  | dot {name : Text} (h : '/' ∉ name) : Path name none
  | root {name : Text} (h : '/' ∉ name) : Path ('/' :: name) (some ['/'])
  | cut (r : Text) (k : Nat) (c : Char) (name : Text) (hr : ∀ c ∈ r.getLast?, c ≠ '/')
      (hk : r.length + k ≠ 0) (h : '/' ∉ c :: name) :
      Path (r ++ List.replicate k '/' ++ '/' :: c :: name) (some r)

theorem stripped_append (s : Text) : ∃ j, s = stripped s ++ List.replicate j '/' := by
  cases s with
  | nil => exact ⟨0, rfl⟩
  | cons c cs =>
      obtain ⟨m, hsplit, hm, -⟩ := exists_rdropWhile (· = '/') cs
      refine ⟨m.length, ?_⟩
      have hslashes : m = List.replicate m.length '/' :=
        List.eq_replicate_of_mem fun c hc => of_decide_eq_true (hm c hc)
      rw [← hslashes, stripped, List.cons_append, ← hsplit]

theorem stripped_ne_slash {s u : Text} {c : Char} (h : stripped s = u ++ [c]) : c ≠ '/' ∨ u = [] := by
  cases s with
  | nil => simp [stripped] at h
  | cons c₀ cs =>
      obtain ⟨m, -, -, hlast⟩ := exists_rdropWhile (· = '/') cs
      rw [stripped] at h
      rcases List.eq_nil_or_concat' (cs.rdropWhile (· = '/')) with hnil | ⟨v, d, hv⟩
      · rw [hnil] at h
        have hsingle : [] ++ [c₀] = u ++ [c] := h
        exact .inr (List.append_inj' hsingle rfl).1.symm
      · rw [hv, ← List.cons_append] at h
        obtain ⟨-, hc⟩ := List.append_inj' h rfl
        obtain rfl := List.singleton_inj.mp hc
        exact .inl (of_decide_eq_false (hlast d (by simp [hv])))

theorem exists_path (s : Text) : ∃ d, Path (stripped s) d := by
  obtain ⟨name, hsplit, hname, hlast⟩ := exists_rdropWhile (· ≠ '/') (stripped s)
  have hslash : '/' ∉ name := fun hmem => absurd (hname '/' hmem) (by decide)
  rcases List.eq_nil_or_concat' ((stripped s).rdropWhile (· ≠ '/')) with hnil | ⟨v, c, hv⟩
  · rw [hnil, List.nil_append] at hsplit
    exact ⟨none, hsplit ▸ .dot hslash⟩
  · rw [hv] at hsplit hlast
    obtain rfl : c = '/' := by
      simpa using hlast c (by simp)
    obtain ⟨m, hm, hall, hr⟩ := exists_rdropWhile (· = '/') v
    generalize v.rdropWhile (· = '/') = r at hm hr
    have hslashes : m = List.replicate m.length '/' :=
      List.eq_replicate_of_mem fun c hc => of_decide_eq_true (hall c hc)
    generalize m.length = k at hslashes
    have hpath : stripped s = r ++ List.replicate k '/' ++ '/' :: name := by
      rw [hsplit, hm, hslashes, List.append_assoc _ ['/'], List.singleton_append]
    by_cases hk : r.length + k = 0
    · obtain ⟨hr₀, rfl⟩ := Nat.add_eq_zero_iff.mp hk
      obtain rfl := List.length_eq_zero_iff.mp hr₀
      exact ⟨some ['/'], by rw [hpath]; exact Path.root hslash⟩
    · cases name with
      | nil =>
          rcases stripped_ne_slash hpath with hne | hnil
          · exact absurd rfl hne
          · have hlen := congrArg List.length hnil
            rw [List.length_append, List.length_replicate, List.length_nil] at hlen
            exact absurd hlen hk
      | cons c name =>
          refine ⟨some r, ?_⟩
          rw [hpath]
          exact Path.cut r k c name (fun c hc => of_decide_eq_false (hr c hc)) hk hslash

theorem directory_of_path {s : Text} {d : Option Text} (h : Path (stripped s) d) : directory s = d := by
  unfold directory
  generalize stripped s = t at h
  have hname {name : Text} (h : '/' ∉ name) : ∀ c ∈ name, decide (c ≠ '/') = true := fun c hc =>
    decide_eq_true fun heq => h (heq ▸ hc)
  cases h with
  | dot h =>
      have hnil : t.rdropWhile (· ≠ '/') = [] := List.rdropWhile_eq_nil_iff.mpr (hname h)
      rw [hnil]
      rfl
  | @root name h =>
      have hupTo : ('/' :: name).rdropWhile (· ≠ '/') = ['/'] :=
        rdropWhile_append (l := ['/']) (by simp) (hname h)
      rw [hupTo]
      rfl
  | cut r k c name hr hk h =>
      have hupTo : (r ++ List.replicate k '/' ++ '/' :: c :: name).rdropWhile (· ≠ '/') =
          r ++ List.replicate (k + 1) '/' := by
        have hsplit : r ++ List.replicate k '/' ++ '/' :: c :: name =
            (r ++ List.replicate (k + 1) '/') ++ c :: name := by
          simp [List.replicate_succ']
        rw [hsplit]
        exact rdropWhile_append (by simp [List.getLast?_append, List.getLast?_replicate]) (hname h)
      have hne : r ++ List.replicate (k + 1) '/' ≠ ['/'] := fun heq => by
        have hlen := congrArg List.length heq
        simp at hlen
        omega
      have hcut : (r ++ List.replicate (k + 1) '/').rdropWhile (· = '/') = r :=
        rdropWhile_append (fun c hc => decide_eq_false (hr c hc))
          fun c hc => decide_eq_true (List.eq_of_mem_replicate hc)
      simp only [hupTo, if_neg hne, hcut]
      rw [if_neg (by simp)]

theorem overrun_iff (s : Text) : Overrun s ↔ directory s = some [] := by
  constructor
  · rintro ⟨k, name, j, hne, hname, rfl⟩
    obtain ⟨c, name, rfl⟩ := List.exists_cons_of_ne_nil hne
    refine directory_of_path ?_
    have hlast : ∀ d ∈ (List.replicate (k + 1) '/' ++ c :: name).getLast?, decide (d = '/') = false := by
      intro d hd
      rw [List.getLast?_append_of_ne_nil _ hne] at hd
      exact decide_eq_false fun heq => hname (heq ▸ List.mem_of_mem_getLast? hd)
    have hstripped : stripped (List.replicate (k + 2) '/' ++ c :: name ++ List.replicate j '/') =
        [] ++ List.replicate (k + 1) '/' ++ '/' :: c :: name := by
      rw [List.replicate_succ, List.cons_append, List.cons_append, stripped, rdropWhile_append hlast
        fun d hd => decide_eq_true (List.eq_of_mem_replicate hd), ← List.cons_append,
        ← List.replicate_succ, List.nil_append, List.append_cons _ '/', ← List.replicate_succ']
    rw [hstripped]
    exact Path.cut [] (k + 1) c name (by simp) (by simp) hname
  · intro h
    obtain ⟨d, hpath⟩ := exists_path s
    obtain ⟨j, hsplit⟩ := stripped_append s
    obtain rfl := (directory_of_path hpath).symm.trans h
    generalize stripped s = t at hpath hsplit
    cases hpath with
    | cut _ k c name hr hk hname =>
        obtain ⟨k, rfl⟩ : ∃ l, k = l + 1 := ⟨k - 1, by simp at hk; omega⟩
        refine ⟨k, c :: name, j, List.cons_ne_nil c name, hname, ?_⟩
        rw [hsplit]
        simp [List.replicate_succ']

/-! ## the result -/

section
variable {b : Buffer Char} {s t : Text} {d : Option Text} {fuel : Nat}

/-- The pass that leaves. -/
theorem dirnamePass_leave (hpath : Path t d) (h : b.IsString t) (hfuel : t.length + 1 < fuel) :
    (d = some [] → dirnamePass fuel b = .error .outOfBounds) ∧
      (d ≠ some [] → ∃ r, dirnamePass fuel b = .ok (.leave r) ∧ Names r d) := by
  cases hpath with
  | dot ht =>
      refine ⟨fun heq => absurd heq (Option.some_ne_none _).symm, fun _ => ?_⟩
      exact ⟨none, dirnamePass_dot h ht (by omega), trivial⟩
  | @root name hname =>
      refine ⟨fun heq => absurd (Option.some.inj heq) (List.cons_ne_nil _ _), fun _ => ?_⟩
      obtain ⟨b', hpass, hstring⟩ := dirnamePass_root h hname
        (by simp at hfuel; omega : name.length + 1 < fuel)
      exact ⟨some b', hpass, hstring⟩
  | cut r k c name hr hk hname =>
      obtain ⟨hok, hfault⟩ :=
        dirnamePass_cut hr hk c name hname h
          (by simp at hfuel; omega : r.length + k + name.length + 2 < fuel)
      refine ⟨fun heq => hfault (Option.some.inj heq), fun hne => ?_⟩
      obtain ⟨b', hpass, hstring⟩ := hok fun hnil => hne (congrArg some hnil)
      exact ⟨some b', hpass, hstring⟩

/-- `dirname` gives the directory of every path, but for those where it reads in front of the
path. -/
theorem dirname_spec (h : b.IsString s) (hfuel : s.length + 1 < fuel) :
    (Overrun s → dirname fuel b = .error .outOfBounds) ∧
      (¬ Overrun s → ∃ r, dirname fuel b = .ok r ∧ Names r (directory s)) := by
  obtain ⟨n, hn⟩ : ∃ n, fuel = n + 1 + 1 := ⟨fuel - 2, by omega⟩
  have hrun : dirname fuel b = runLoop (dirnamePass fuel) (n + 1 + 1) b := by
    rw [dirname, ← hn]
  obtain ⟨d, hpath⟩ := exists_path s
  obtain ⟨j, hsplit⟩ := stripped_append s
  -- after at most one pass that trims, the pass that leaves decides
  obtain ⟨b', m, hleave, hstring⟩ : ∃ b' m,
      dirname fuel b = runLoop (dirnamePass fuel) (m + 1) b' ∧ b'.IsString (stripped s) := by
    cases j with
    | zero =>
        rw [List.replicate_zero, List.append_nil] at hsplit
        exact ⟨b, n + 1, hrun, hsplit ▸ h⟩
    | succ j =>
        rcases List.eq_nil_or_concat' (stripped s) with hnil | ⟨u, c, hu⟩
        · have hs : s = [] := by
            cases s with
            | nil => rfl
            | cons c cs => exact absurd hnil (List.cons_ne_nil _ _)
          exact absurd hsplit (by simp [hs])
        · rw [hu, List.append_assoc, List.singleton_append] at hsplit
          have hlen : s.length = u.length + j + 2 := by
            rw [hsplit]
            simp
            omega
          obtain ⟨b', hpass, hstring⟩ :=
            dirnamePass_again (stripped_ne_slash hu) j (hsplit ▸ h) (by omega : u.length + j + 2 < fuel)
          exact ⟨b', n, by rw [hrun, runLoop_again hpass], hu ▸ hstring⟩
  have hle : (stripped s).length ≤ s.length := by
    conv_rhs => rw [hsplit]
    simp
  obtain ⟨hfault, hok⟩ := dirnamePass_leave hpath hstring (by omega : (stripped s).length + 1 < fuel)
  rw [overrun_iff, directory_of_path hpath]
  constructor
  · intro hd
    rw [hleave, runLoop, hfault hd]
  · intro hd
    obtain ⟨r, hpass, hnames⟩ := hok hd
    exact ⟨r, by rw [hleave, runLoop_leave hpass], hnames⟩

end

theorem dirname_spec_components :
    (¬ Overrun "usr/lib/".toList ∧
      ∃ r, dirname 64 (literal "usr/lib/".toList) = .ok r ∧ Names r (some "usr".toList)) ∧
      Overrun "//bench".toList ∧
        dirname 64 (literal "//bench".toList) = .error .outOfBounds := by
  have hcut := dirname_spec (isString_literal (s := "usr/lib/".toList) (by decide))
    (by decide : "usr/lib/".toList.length + 1 < 64)
  have hover := dirname_spec (isString_literal (s := "//bench".toList) (by decide))
    (by decide : "//bench".toList.length + 1 < 64)
  have hnot : ¬ Overrun "usr/lib/".toList := by
    rw [overrun_iff]
    decide
  have hyes : Overrun "//bench".toList := ⟨0, "bench".toList, 0, by decide, by decide, by decide⟩
  exact ⟨⟨hnot, hcut.2 hnot⟩, hyes, hover.1 hyes⟩

end UclBench.ClLib
