import UclBench.ClLib.GetOpt
import Mathlib.Algebra.BigOperators.Group.List.Basic

/-!
# UclBench.ClLib.OptionLoop

The option loop of the benchmarks: `getopt_long` is called until it returns -1.

`optionLoop_eq`: on every command line the loop comes to an end, and sees what
the cursor reads.  `run_render` is the other way round: options that are written
down, in full or abbreviated, are read back.
-/

namespace UclBench.ClLib

/-! ## the table -/

section
variable {key : Text} {os : List LongOpt} {i j : Nat} {m : Match} {o : LongOpt}

/-- The key has this option, and no other is abbreviated by it. -/
def Sole (key : Text) (os : List LongOpt) (n : Nat) (o : LongOpt) : Prop :=
  os[n]? = some o ∧ key <+: o.name ∧
    ∀ l o', os[l]? = some o' → key <+: o'.name → l = n

theorem matchLong_of_none (h : ∀ o' ∈ os, ¬ key <+: o'.name) : matchLong key os i m = m := by
  induction os generalizing i with
  | nil => rfl
  | cons o' os ih =>
      rw [matchLong, if_neg (h o' List.mem_cons_self)]
      exact ih fun o'' ho'' => h o'' (List.mem_cons_of_mem _ ho'')

theorem matchLong_of_name {n : Nat} (hnodup : (os.map LongOpt.name).Nodup) (h : os[n]? = some o) :
    matchLong o.name os i m = .one (i + n) o := by
  induction os generalizing n i m with
  | nil => contradiction
  | cons o' os ih =>
      rw [matchLong]
      rcases n with _ | n
      · simp only [List.getElem?_cons_zero, Option.some.injEq] at h
        rw [h, if_pos (List.prefix_refl _), if_pos rfl, Nat.add_zero]
      · rw [List.map_cons, List.nodup_cons] at hnodup
        rw [List.getElem?_cons_succ] at h
        have hne : o'.name ≠ o.name := fun heq =>
          hnodup.1 (heq ▸ List.mem_map_of_mem (List.mem_of_getElem? h))
        have hlen : o.name <+: o'.name → ¬ o'.name.length = o.name.length := fun hp hl =>
          hne (hp.eq_of_length hl.symm).symm
        have hnext (m : Match) : matchLong o.name os (i + 1) m = .one (i + (n + 1)) o := by
          rw [ih hnodup.2 h, Nat.add_right_comm, Nat.add_assoc]
        split
        · next hp => rw [if_neg (hlen hp), hnext]
        · exact hnext m

theorem matchLong_of_sole {n : Nat} (h : Sole key os n o) :
    matchLong key os i .none = .one (i + n) o := by
  induction os generalizing n i with
  | nil => exact absurd h.1 nofun
  | cons o' os ih =>
      obtain ⟨hget, hp, hsole⟩ := h
      rcases n with _ | n
      · rw [List.getElem?_cons_zero, Option.some.injEq] at hget
        subst hget
        have hnone : ∀ o'' ∈ os, ¬ key <+: o''.name := by
          intro o'' ho'' hp''
          obtain ⟨l, hl⟩ := List.mem_iff_getElem?.mp ho''
          exact absurd (hsole (l + 1) o'' (by rwa [List.getElem?_cons_succ]) hp'') (Nat.succ_ne_zero l)
        rw [matchLong, if_pos hp, matchLong_of_none hnone, Match.add, ite_self, Nat.add_zero]
      · have hnot : ¬ key <+: o'.name := fun hp' =>
          absurd (hsole 0 o' rfl hp') (Nat.succ_ne_zero n).symm
        rw [List.getElem?_cons_succ] at hget
        rw [matchLong, if_neg hnot, ih ⟨hget, hp, fun l o'' hl hp'' => ?_⟩, Nat.add_right_comm,
          Nat.add_assoc]
        exact Nat.succ.inj (hsole (l + 1) o'' (by rwa [List.getElem?_cons_succ]) hp'')

/-- What a search that ends with an option has seen. -/
theorem of_matchLong (h : matchLong key os i m = .one j o) :
    (∃ n, j = i + n ∧ os[n]? = some o ∧ o.name = key) ∨
    (m = .none ∧ ∃ n, j = i + n ∧ Sole key os n o) ∨
    (m = .one j o ∧ ∀ o' ∈ os, ¬ key <+: o'.name) := by
  induction os generalizing i m with
  | nil => exact .inr (.inr ⟨h, nofun⟩)
  | cons o' os ih =>
      have hsucc {n : Nat} {o'' : LongOpt} (hn : os[n]? = some o'') : (o' :: os)[n + 1]? = some o'' := by
        rwa [List.getElem?_cons_succ]
      rw [matchLong] at h
      split at h
      · next hp =>
        split at h
        · next hl =>
          cases h
          exact .inl ⟨0, rfl, rfl, (hp.eq_of_length hl.symm).symm⟩
        · rcases ih h with ⟨n, hj, hn, hname⟩ | ⟨hm, -⟩ | ⟨hm, hnone⟩
          · exact .inl ⟨n + 1, by omega, hsucc hn, hname⟩
          · cases m <;> contradiction
          · cases m with
            | none =>
                cases hm
                refine .inr (.inl ⟨rfl, 0, rfl, rfl, hp, fun l o'' hl hp'' => ?_⟩)
                rcases l with _ | l
                · rfl
                · rw [List.getElem?_cons_succ] at hl
                  exact absurd hp'' (hnone o'' (List.mem_of_getElem? hl))
            | one i' o'' => contradiction
            | ambiguous => contradiction
      · next hp =>
        rcases ih h with ⟨n, hj, hn, hname⟩ | ⟨hm, n, hj, hn, hp', hsole⟩ | ⟨hm, hnone⟩
        · exact .inl ⟨n + 1, by omega, hsucc hn, hname⟩
        · refine .inr (.inl ⟨hm, n + 1, by omega, hsucc hn, hp', fun l o'' hl hp'' => ?_⟩)
          rcases l with _ | l
          · rw [List.getElem?_cons_zero, Option.some.injEq] at hl
            exact absurd (hl ▸ hp'') hp
          · rw [List.getElem?_cons_succ] at hl
            rw [hsole l o'' hl hp'']
        · refine .inr (.inr ⟨hm, fun o'' ho'' => ?_⟩)
          rcases List.mem_cons.mp ho'' with rfl | ho''
          · exact hp
          · exact hnone o'' ho''

/-- **The table**: an option is found by its name, or by a shorter key that
abbreviates no other. -/
theorem matchLong_iff (opts : Options) (key : Text) (n : Nat) (o : LongOpt) :
    matchLong key opts.longopts 0 .none = .one n o ↔
      (opts.longopts[n]? = some o ∧ o.name = key) ∨ Sole key opts.longopts n o := by
  constructor
  · intro h
    rcases of_matchLong h with ⟨l, hl, hget, hname⟩ | ⟨-, l, hl, hsole⟩ | ⟨h, -⟩
    · obtain rfl : n = l := by omega
      exact .inl ⟨hget, hname⟩
    · obtain rfl : n = l := by omega
      exact .inr hsole
    · contradiction
  · rintro (⟨hget, rfl⟩ | hsole)
    · rw [matchLong_of_name opts.names hget, Nat.zero_add]
    · rw [matchLong_of_sole hsole, Nat.zero_add]

theorem mem_of_matchLong {opts : Options} {n : Nat}
    (h : matchLong key opts.longopts 0 .none = .one n o) : o ∈ opts.longopts := by
  rcases (matchLong_iff opts key n o).mp h with ⟨hget, -⟩ | hsole
  · exact List.mem_of_getElem? hget
  · exact List.mem_of_getElem? hsole.1

end

/-! ## the loop -/

/-- A result of `getopt_long` and the `optarg` that goes with it. -/
abbrev Event := Int × Option Text

/-- The arguments an option was given, one after the other. -/
def argsOf (c : Char) (es : List Event) : List (Option Text) :=
  (es.filter fun e => e.1 = (c.toNat : Int)).map Prod.snd

theorem argsOf_cons_of_eq {c : Char} {e : Event} {es : List Event} (h : e.1 = c.toNat) :
    argsOf c (e :: es) = e.2 :: argsOf c es := by
  rw [argsOf, List.filter_cons_of_pos (by simpa using h), List.map_cons, argsOf]

theorem argsOf_cons_of_ne {c : Char} {e : Event} {es : List Event} (h : e.1 ≠ c.toNat) :
    argsOf c (e :: es) = argsOf c es := by
  rw [argsOf, List.filter_cons_of_neg (by simpa using h), argsOf]

/-- How a program ends before its `main` is through. -/
inductive Exit where
  | code (status : Int)
  | abort
  deriving DecidableEq

/-- A part of a `main`: a value, unless the program ends there. -/
abbrev Main := ExceptT Exit (Except Fault)

@[simp] theorem liftM_ok {α : Type} (a : α) : (liftM (.ok a : Except Fault α) : Main α) = pure a := rfl

/-- What a part that goes through was made of. -/
theorem bind_eq_pure {α β : Type} {x : Main α} {f : α → Main β} {b : β} :
    x >>= f = pure b ↔ ∃ a, x = pure a ∧ f a = pure b := by
  constructor
  · intro h
    match x, h with
    | .ok (.ok a), h => exact ⟨a, rfl, h⟩
    | .ok (.error _), h => exact absurd (Except.ok.inj h) nofun
    | .error _, h => exact absurd h nofun
  · rintro ⟨a, rfl, h⟩
    exact h

theorem pure_inj {α : Type} {a b : α} (h : (pure a : Main α) = pure b) : a = b :=
  Except.ok.inj (Except.ok.inj h)

theorem throw_ne_pure {α : Type} {e : Exit} {a : α} : (throw e : Main α) ≠ pure a := fun h =>
  nomatch Except.ok.inj h

/-- A string argument; NULL must not be read. -/
def cString : Option Text → Except Fault Text
  | some s => .ok s
  | none => .error .outOfBounds

section
variable {σ : Type} (handle : σ → Event → Main σ)

/-- `c = getopt_long(…); if (c == -1) break; switch (c) …` -/
def optionPass (fuel : Nat) (argv : List Text) (optstring : Text) (longopts : List LongOpt)
    (st : GetOpt × σ) : Except Fault (Pass (GetOpt × σ) (Except Exit (σ × Vars))) := do
  let (c, s) ← getoptLong argv optstring longopts fuel st.1
  if c = -1 then pure (.leave (.ok (st.2, s.vars)))
  else do
    match ← (handle st.2 (c, s.vars.optarg)).run with
    | .ok p => pure (.again (s, p))
    | .error e => pure (.leave (.error e))

/-- Before the first call. -/
def GetOpt.initial (flags : Nat → Int) : GetOpt := ⟨1, 0, 0, nul, 0, ⟨none, flags⟩⟩

/-- The loop of a program that keeps its settings in a `σ`. -/
def optionLoop (fuel : Nat) (argv : List Text) (optstring : Text) (longopts : List LongOpt)
    (flags : Nat → Int) (p : σ) : Main (σ × Vars) :=
  ExceptT.mk (runLoop (optionPass handle fuel argv optstring longopts) fuel (.initial flags, p))

end

namespace Cursor

/-- Before the first call: everything but the name of the program. -/
def initial (flags : Nat → Int) (argv : List Text) : Cursor := ⟨⟨none, flags⟩, [], argv.tail⟩

/-- The characters that are left, with one for each argument. -/
def size (k : Cursor) : Nat := k.cluster.length + (k.rest.map fun a => a.length + 1).sum

section
variable (opts : Options) {k k' : Cursor} {c : Int}

theorem size_long (arg : Text) : (k.long opts arg).2.size ≤ k.size := by
  unfold long
  split
  · dsimp only
    split
    · split
      · exact Nat.le_refl _
      · split
        · next h => simp [size, h]
        · split <;> exact Nat.le_refl _
    · exact Nat.le_refl _
  · exact Nat.le_refl _

theorem size_short (d : Char) (cs : Text) :
    (k.short opts d cs).2.size ≤ cs.length + (k.rest.map fun a => a.length + 1).sum := by
  unfold short
  split
  · simp [size]
  · split
    · split
      · simp [size]
      · split
        · simp [size]
        · split
          · next h => simp [size, h]
          · next h => simp [size, h]; omega
    · simp [size]

/-- What can be read. -/
theorem next_cases {r : Int × Cursor} (h : k.next opts = some r) :
    (∃ c cs, k.cluster = c :: cs ∧ r = k.short opts c cs) ∨
    (∃ arg rest, k.cluster = [] ∧ k.rest = ('-' :: '-' :: arg) :: rest ∧
      r = Cursor.long opts arg { k with rest }) ∨
    (∃ c cs rest, k.cluster = [] ∧ k.rest = ('-' :: c :: cs) :: rest ∧
      r = Cursor.short opts c cs { k with rest }) := by
  unfold next at h
  split at h
  · next hc => exact .inl ⟨_, _, hc, (Option.some.inj h).symm⟩
  · contradiction
  · next hc hr => exact .inr (.inl ⟨_, _, hc, hr, (Option.some.inj h).symm⟩)
  · next hc hr => exact .inr (.inr ⟨_, _, _, hc, hr, (Option.some.inj h).symm⟩)
  · contradiction

/-- Every option that is read takes something off the command line. -/
theorem next_size (h : k.next opts = some (c, k')) : k'.size < k.size := by
  rcases next_cases opts h with ⟨d, cs, hc, hk⟩ | ⟨arg, rest, hc, hr, hk⟩ | ⟨d, cs, rest, hc, hr, hk⟩
  · have hle := size_short opts (k := k) d cs
    rw [← hk] at hle
    simp only [size, hc, List.length_cons] at hle ⊢
    omega
  · have hle := size_long opts (k := { k with rest }) arg
    rw [← hk] at hle
    simp only [size, hc, hr, List.map_cons, List.sum_cons, List.length_cons, List.length_nil] at hle ⊢
    omega
  · have hle := size_short opts (k := { k with rest }) d cs
    rw [← hk] at hle
    simp only [size, hc, hr, List.map_cons, List.sum_cons, List.length_cons, List.length_nil] at hle ⊢
    omega

theorem finish_ne {o : LongOpt} (ho : o ∈ opts.longopts) (v : Vars) : (finish o v).1 ≠ -1 := by
  unfold finish
  split
  · exact (by decide : (0 : Int) ≠ -1)
  · exact opts.val_ne o ho

theorem long_ne {arg : Text} : (k.long opts arg).1 ≠ -1 := by
  have hquestion : (('?'.toNat : Nat) : Int) ≠ -1 := by decide
  unfold long
  split
  · next o h =>
      have ho := mem_of_matchLong h
      dsimp only
      split
      · split
        · exact finish_ne opts ho _
        · split
          · exact finish_ne opts ho _
          · split <;> [exact hquestion; exact finish_ne opts ho _]
      · exact finish_ne opts ho _
  · exact hquestion

theorem short_ne {d : Char} {cs : Text} : (k.short opts d cs).1 ≠ -1 := by
  have hnat (d : Char) : ((d.toNat : Nat) : Int) ≠ -1 := by omega
  unfold short
  split
  · exact hnat _
  · split
    · split
      · exact hnat _
      · split
        · exact hnat _
        · split <;> exact hnat _
    · exact hnat _

/-- An option is never taken for the end. -/
theorem next_ne (h : k.next opts = some (c, k')) : c ≠ -1 := by
  rcases next_cases opts h with ⟨d, cs, -, hk⟩ | ⟨arg, rest, -, -, hk⟩ | ⟨d, cs, rest, -, -, hk⟩
  · exact (congrArg Prod.fst hk).trans_ne (short_ne opts)
  · exact (congrArg Prod.fst hk).trans_ne (long_ne opts)
  · exact (congrArg Prod.fst hk).trans_ne (short_ne opts)

/-- Everything that is read, and the variables in the end. -/
def run (k : Cursor) : List Event × Vars :=
  match _h : k.next opts with
  | none => ([], k.vars)
  | some (c, k') =>
      let r := k'.run
      ((c, k'.vars.optarg) :: r.1, r.2)
termination_by k.size
decreasing_by exact next_size opts _h

theorem run_none (h : k.next opts = none) : k.run opts = ([], k.vars) := by
  rw [run]
  split
  · rfl
  · next h' => rw [h] at h'; contradiction

theorem run_some (h : k.next opts = some (c, k')) :
    k.run opts = ((c, k'.vars.optarg) :: (k'.run opts).1, (k'.run opts).2) := by
  rw [run]
  split
  · next h' => rw [h] at h'; contradiction
  · next h' =>
      rw [h, Option.some.injEq, Prod.mk.injEq] at h'
      obtain ⟨rfl, rfl⟩ := h'
      rfl
/-- What holds of every option holds of all that are read. -/
theorem forall_mem_run {P : Event → Prop}
    (h : ∀ (k : Cursor) c (k' : Cursor), k.next opts = some (c, k') → P (c, k'.vars.optarg))
    (k : Cursor) :
    ∀ e ∈ (k.run opts).1, P e := by
  induction k using run.induct opts with
  | case1 k hnone => simp [run_none opts hnone]
  | case2 k c k' hsome ih =>
      rw [run_some opts hsome, List.forall_mem_cons]
      exact ⟨h k c k' hsome, ih⟩

@[simp] theorem finish_optarg (o : LongOpt) (v : Vars) : (finish o v).2.optarg = v.optarg := by
  unfold finish
  split <;> rfl

/-- A long option is rejected, or one of the table; a required argument is there. -/
theorem long_cases (arg : Text) :
    ((k.long opts arg).1 = '?'.toNat ∧ (k.long opts arg).2.vars.flags = k.vars.flags) ∨
    ∃ o ∈ opts.longopts, ∃ v, ((k.long opts arg).1, (k.long opts arg).2.vars) = finish o v ∧
      v.flags = k.vars.flags ∧ (o.hasArg = 1 → v.optarg ≠ none) := by
  unfold long
  split
  · next o h =>
      have ho := mem_of_matchLong h
      dsimp only
      split
      · split
        · exact .inr ⟨o, ho, _, rfl, rfl, nofun⟩
        · split
          · exact .inr ⟨o, ho, _, rfl, rfl, nofun⟩
          · split
            · exact .inl ⟨rfl, rfl⟩
            · next hone => exact .inr ⟨o, ho, _, rfl, rfl, fun h => absurd h hone⟩
      · next hpos => exact .inr ⟨o, ho, _, rfl, rfl, fun h => absurd (h ▸ Nat.one_pos) hpos⟩
  · exact .inl ⟨rfl, rfl⟩

theorem short_flags (d : Char) (cs : Text) : (k.short opts d cs).2.vars.flags = k.vars.flags := by
  unfold short
  repeat' split
  all_goals rfl

theorem flags_next (h : k.next opts = some (c, k')) (f : Nat) : k'.vars.flags f = k.vars.flags f ∨
    ∃ o ∈ opts.longopts, o.flag = some f ∧ k'.vars.flags f = o.val := by
  rcases next_cases opts h with ⟨d, cs, -, hk⟩ | ⟨arg, rest, -, -, hk⟩ | ⟨d, cs, rest, -, -, hk⟩
  · exact .inl (congrFun ((congrArg (·.2.vars.flags) hk).trans (short_flags opts d cs)) f)
  · rcases long_cases opts (k := { k with rest }) arg with ⟨-, hflags⟩ | ⟨o, ho, v, hfinish, hflags, -⟩
    · exact .inl (congrFun ((congrArg (·.2.vars.flags) hk).trans hflags) f)
    · rw [← hk] at hfinish
      have hv : k'.vars = (finish o v).2 := congrArg Prod.snd hfinish
      unfold finish at hv
      split at hv
      · next g hg =>
        by_cases hfg : f = g
        · refine .inr ⟨o, ho, hfg ▸ hg, ?_⟩
          rw [hv, hfg]
          exact Function.update_self ..
        · refine .inl ?_
          rw [hv]
          exact (Function.update_of_ne hfg ..).trans (congrFun hflags f)
      · exact .inl (by rw [hv]; exact congrFun hflags f)
  · exact .inl (congrFun ((congrArg (·.2.vars.flags) hk).trans (short_flags opts d cs)) f)

/-- A flag has the value of one of its options, unless it was never set. -/
theorem flags_run (k : Cursor) (f : Nat) : (k.run opts).2.flags f = k.vars.flags f ∨
    ∃ o ∈ opts.longopts, o.flag = some f ∧ (k.run opts).2.flags f = o.val := by
  induction k using run.induct opts with
  | case1 k hnone => exact .inl (by rw [run_none opts hnone])
  | case2 k c k' hsome ih =>
      rw [run_some opts hsome]
      rcases ih with ih | ih
      · rw [ih]
        exact flags_next opts hsome f
      · exact .inr ih

/-- A short option is rejected, or one of `optstring`; its argument can be missing. -/
theorem short_cases (d : Char) (cs : Text) : (k.short opts d cs).1 = '?'.toNat ∨
    d ∈ opts.optstring ∧
      ((k.short opts d cs).1 = d.toNat ∨ (k.short opts d cs).1 = ':'.toNat) := by
  unfold short
  split
  · exact .inl rfl
  · next heq =>
      have hd : d ∈ opts.optstring := by
        by_contra hmem
        have hall : ∀ c ∈ opts.optstring, decide (c ≠ d) = true := fun c hc =>
          decide_eq_true fun hcd => hmem (hcd ▸ hc)
        rw [List.dropWhile_eq_nil_iff.mpr hall] at heq
        contradiction
      refine .inr ⟨hd, ?_⟩
      split
      · split
        · exact .inl rfl
        · split
          · exact .inl rfl
          · split
            · exact .inr rfl
            · exact .inl rfl
      · exact .inl rfl

end

end Cursor

section
variable {argv : List Text} (opts : Options)

variable {σ : Type} (handle : σ → Event → Main σ)

theorem optionLoop_from {fuel n : Nat} {s : GetOpt} {k : Cursor} {p : σ}
    (hargs : ∀ a ∈ argv, NulFree a) (hat : At argv s k) (hfuel : 2 ≤ fuel) (hn : k.size < n) :
    ExceptT.mk (runLoop (optionPass handle fuel argv opts.optstring opts.longopts) n (s, p)) =
      (fun q => (q, (k.run opts).2)) <$> (k.run opts).1.foldlM handle p := by
  induction n generalizing s k p with
  | zero => omega
  | succ n ih =>
      obtain ⟨⟨c, s'⟩, hcall, hr⟩ := getoptLong_next opts hargs hat hfuel
      cases hnext : k.next opts with
      | none =>
          rw [Returns, hnext] at hr
          obtain ⟨rfl, hv⟩ := hr
          have hpass : optionPass handle fuel argv opts.optstring opts.longopts (s, p) =
              .ok (.leave (.ok (p, s'.vars))) := by
            simp only [optionPass, hcall, bind, Except.bind, if_true]
            rfl
          rw [runLoop_leave hpass, Cursor.run_none opts hnext, hv]
          rfl
      | some r =>
          obtain ⟨c', k'⟩ := r
          rw [Returns, hnext] at hr
          obtain ⟨rfl, hat'⟩ := hr
          rw [Cursor.run_some opts hnext, List.foldlM_cons, ← hat'.vars]
          have hgoes := Cursor.next_ne opts hnext
          cases hq : handle p (c, s'.vars.optarg) with
          | error f =>
              have hfault : optionPass handle fuel argv opts.optstring opts.longopts (s, p) =
                  .error f := by
                simp only [optionPass, hcall, bind, Except.bind, if_neg hgoes]
                rw [hq]
                rfl
              rw [runLoop, hfault]
              rfl
          | ok r => cases r with
            | error e =>
                have hexit : optionPass handle fuel argv opts.optstring opts.longopts (s, p) =
                    .ok (.leave (.error e)) := by
                  simp only [optionPass, hcall, bind, Except.bind, if_neg hgoes]
                  rw [hq]
                  rfl
                rw [runLoop_leave hexit]
                rfl
            | ok q =>
                have hgo : optionPass handle fuel argv opts.optstring opts.longopts (s, p) =
                    .ok (.again (s', q)) := by
                  simp only [optionPass, hcall, bind, Except.bind, if_neg hgoes]
                  rw [hq]
                  rfl
                have hlt := Cursor.next_size opts hnext
                rw [runLoop_again hgo, ih hat' (by omega)]
                rfl

/-- **The option loop**: on every command line it comes to an end without a look
outside `argv` or one of its strings, and does to the settings of the program
what the options do that the cursor reads. -/
theorem optionLoop_eq {fuel : Nat} (flags : Nat → Int) (p : σ) (hargs : ∀ a ∈ argv, NulFree a)
    (hfuel : (Cursor.initial flags argv).size + 2 ≤ fuel) :
    optionLoop handle fuel argv opts.optstring opts.longopts flags p =
      (fun q => (q, ((Cursor.initial flags argv).run opts).2)) <$>
        ((Cursor.initial flags argv).run opts).1.foldlM handle p := by
  have hat : At argv (.initial flags) (.initial flags argv) :=
    .behind rfl Nat.one_pos Nat.one_pos rfl List.drop_one.symm
  exact optionLoop_from opts handle hargs hat (by omega) (by omega)

end

/-! ## writing options down -/

/-- A long option on the command line: a key that stands for it, and its argument
if it takes one. -/
structure Written (opts : Options) where
  key : Text
  index : Nat
  opt : LongOpt
  found : matchLong key opts.longopts 0 .none = .one index opt
  key_ne : key ≠ []
  noEquals : '=' ∉ key
  value : Option Text
  takes : value.isSome ↔ 0 < opt.hasArg
  /-- The argument is one of its own, rather than behind `=`. -/
  separate : Bool

namespace Written

variable {opts : Options}

def text (w : Written opts) : List Text :=
  match w.value with
  | none => ['-' :: '-' :: w.key]
  | some v =>
      if w.separate then ['-' :: '-' :: w.key, v] else ['-' :: '-' :: (w.key ++ '=' :: v)]

/-- What the option does to the variables, and the event a program sees. -/
def event (w : Written opts) (v : Vars) : Event × Vars :=
  let (c, v') := finish w.opt { v with optarg := w.value <|> v.optarg }
  ((c, v'.optarg), v')

def events : List (Written opts) → Vars → List Event × Vars
  | [], v => ([], v)
  | w :: ws, v =>
      let (e, v') := w.event v
      let (es, v'') := events ws v'
      (e :: es, v'')

theorem takeWhile_key {key : Text} (hkey : '=' ∉ key) (tail : Text) :
    (key ++ '=' :: tail).takeWhile (· ≠ '=') = key ∧
      (key ++ '=' :: tail).dropWhile (· ≠ '=') = '=' :: tail := by
  have hall : ∀ c ∈ key, decide (c ≠ '=') = true := fun c hc =>
    decide_eq_true fun heq => hkey (heq ▸ hc)
  rw [List.takeWhile_append_of_pos hall, List.dropWhile_append_of_pos hall]
  simp

theorem takeWhile_key_end {key : Text} (hkey : '=' ∉ key) :
    key.takeWhile (· ≠ '=') = key ∧ key.dropWhile (· ≠ '=') = [] := by
  have hall : ∀ c ∈ key, decide (c ≠ '=') = true := fun c hc =>
    decide_eq_true fun heq => hkey (heq ▸ hc)
  exact ⟨List.takeWhile_eq_self_iff.mpr hall, List.dropWhile_eq_nil_iff.mpr hall⟩

/-- One option is read back. -/
theorem next_text (w : Written opts) (v : Vars) (rest : List Text) :
    Cursor.next opts ⟨v, [], w.text ++ rest⟩ =
      some ((w.event v).1.1, ⟨(w.event v).2, [], rest⟩) := by
  obtain ⟨c, cs, hkey⟩ := List.exists_cons_of_ne_nil w.key_ne
  have hfound := w.found
  cases hv : w.value with
  | none =>
      have htakes : ¬ 0 < w.opt.hasArg := fun h => by simpa [hv] using w.takes.mpr h
      obtain ⟨htake, hdrop⟩ := takeWhile_key_end w.noEquals
      have htext : w.text ++ rest = ('-' :: '-' :: c :: cs) :: rest := by simp [text, hv, hkey]
      rw [Cursor.next_long opts rfl htext, ← hkey, Cursor.long, htake, hfound]
      simp only [if_neg htakes, event, hv]
      rfl
  | some value =>
      have htakes : 0 < w.opt.hasArg := w.takes.mp (by rw [hv]; rfl)
      cases hs : w.separate with
      | true =>
          obtain ⟨htake, hdrop⟩ := takeWhile_key_end w.noEquals
          have htext : w.text ++ rest = ('-' :: '-' :: c :: cs) :: value :: rest := by
            simp [text, hv, hs, hkey]
          rw [Cursor.next_long opts rfl htext, ← hkey, Cursor.long, htake, hdrop, hfound]
          simp only [if_pos htakes, event, hv]
          rfl
      | false =>
          obtain ⟨htake, hdrop⟩ := takeWhile_key w.noEquals value
          have htext : w.text ++ rest = ('-' :: '-' :: c :: (cs ++ '=' :: value)) :: rest := by
            simp [text, hv, hs, hkey]
          rw [Cursor.next_long opts rfl htext, ← List.cons_append, ← hkey, Cursor.long, htake, hdrop,
            hfound]
          simp only [if_pos htakes, event, hv]
          rfl

/-- **Round trip**: options that are written down are read back in order, up to
whatever follows them. -/
theorem run_render (ws : List (Written opts)) (v : Vars) (rest : List Text) :
    Cursor.run opts ⟨v, [], ws.flatMap text ++ rest⟩ =
      ((events ws v).1 ++ (Cursor.run opts ⟨(events ws v).2, [], rest⟩).1,
        (Cursor.run opts ⟨(events ws v).2, [], rest⟩).2) := by
  induction ws generalizing v with
  | nil => rfl
  | cons w ws ih =>
      rw [List.flatMap_cons, List.append_assoc, Cursor.run_some opts (next_text w v _), ih]
      rfl

/-- Nothing is read behind `--`, nor from the first argument on that is no option. -/
theorem run_operands {v : Vars} {rest : List Text} (h : rest.head? = some ['-', '-'] ∨
    ∀ a, rest.head? = some a → a.head? ≠ some '-') : Cursor.run opts ⟨v, [], rest⟩ = ([], v) := by
  refine Cursor.run_none opts ?_
  rcases rest with _ | ⟨a, rest⟩
  · rfl
  · rcases h with h | h
    · rw [List.head?_cons, Option.some.injEq] at h
      subst h
      rfl
    · exact Cursor.next_stop opts rfl rfl (h a rfl)

end Written

end UclBench.ClLib
