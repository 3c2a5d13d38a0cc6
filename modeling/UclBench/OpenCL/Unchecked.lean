import UclBench.OpenCL.Returns
import Mathlib.Data.Multiset.OrderedMonoid

/-!
# UclBench.OpenCL.Unchecked

Host functions that do not look at the outcome of a call.

A buffer that could not be created is a NULL handle, which may be set as an
argument and released all the same.  `World.Careful` says what is left of the
launches then: one gets a null pointer only after a refusal.
-/

namespace UclBench.OpenCL

open Effect

/-- The object of a handle, if there is one. -/
def held (h : Handle) : Multiset Obj := h.toList

@[simp] theorem held_none : held none = 0 := rfl

@[simp] theorem held_some {x : Obj} : held (some x) = {x} := rfl

/-- A buffer, or none. -/
structure World.Buffers (h : Handle) (w w' : World) : Prop where
  kind : ∀ x, h = some x → x.kind = .memObject
  owed : w'.owed = held h + w.owed
  args : ∀ k : Obj, k.kind ≠ .memObject → w'.args k = w.args k
  refused : w'.refused = w.refused + if h = none then 1 else 0
  nullLaunches : w'.nullLaunches = w.nullLaunches

/-- So many null pointers went to a kernel. -/
structure World.Ran (n : Nat) (w w' : World) : Prop where
  owed : w'.owed = w.owed
  args : w'.args = w.args
  refused : w'.refused = w.refused
  nullLaunches : w'.nullLaunches = w.nullLaunches + n

section
variable {w w' w'' : World} {n m : Nat}

theorem World.Same.ran (h : w.Same w') : w.Ran 0 w' := ⟨h.owed, h.args, h.refused, h.nullLaunches⟩

theorem World.Ran.trans (h : w.Ran n w') (h' : w'.Ran m w'') : w.Ran (n + m) w'' where
  owed := h'.owed.trans h.owed
  args := h'.args.trans h.args
  refused := h'.refused.trans h.refused
  nullLaunches := by rw [h'.nullLaunches, h.nullLaunches, Nat.add_assoc]

theorem World.Ran.trans_same (h : w.Ran n w') (h' : w'.Same w'') : w.Ran n w'' := h.trans h'.ran

/-! ## blame -/

/-- A null pointer is launched only after a refusal. -/
structure World.Careful (w w' : World) : Prop where
  refused_le : w.refused ≤ w'.refused
  nullLaunches : w'.refused = w.refused → w'.nullLaunches = w.nullLaunches

theorem World.Quiet.careful (h : w.Quiet w') : w.Careful w' :=
  ⟨h.refused.ge, fun _ => h.nullLaunches⟩

theorem World.Refuses.careful {kind : Kind} (h : w.Refuses kind w') : w.Careful w' :=
  ⟨by rw [h.refused]; exact Nat.le_add_right _ _, fun _ => h.nullLaunches⟩

theorem World.Buffers.careful {g : Handle} (h : w.Buffers g w') : w.Careful w' :=
  ⟨by rw [h.refused]; exact Nat.le_add_right _ _, fun _ => h.nullLaunches⟩

theorem World.Careful.trans (h : w.Careful w') (h' : w'.Careful w'') : w.Careful w'' where
  refused_le := h.refused_le.trans h'.refused_le
  nullLaunches he := by
    have hle := h.refused_le
    have hle' := h'.refused_le
    rw [h'.nullLaunches (by omega), h.nullLaunches (by omega)]

/-- The launches of a kernel are to blame on its missing buffers. -/
theorem World.Careful.trans_nulls (h : w.Careful w') (hr : w''.refused = w'.refused)
    (hnull : w''.nullLaunches = w'.nullLaunches + n) (hn : n ≠ 0 → w.refused < w'.refused) :
    w.Careful w'' where
  refused_le := by rw [hr]; exact h.refused_le
  nullLaunches he := by
    rw [hr] at he
    rw [hnull, h.nullLaunches he]
    by_contra hne
    have := hn fun h0 => hne (by rw [h0, Nat.add_zero])
    omega

theorem World.Careful.trans_ran (h : w.Careful w') (h' : w'.Ran n w'')
    (hn : n ≠ 0 → w.refused < w'.refused) : w.Careful w'' :=
  h.trans_nulls h'.refused h'.nullLaunches hn

end

/-! ## on the way -/

/-- What can be said of a run that may return at any point. -/
structure World.Along (ks : Multiset Kind) (w w' : World) : Prop where
  careful : w.Careful w'
  strands : StrandsAtMost ks w w'

section
variable {w w' w'' : World} {ks : Multiset Kind} {kind : Kind} {x : Obj}

theorem World.Along.rfl : w.Along 0 w :=
  ⟨⟨le_refl _, fun _ => Eq.refl _⟩, 0, le_refl _, .of_eq (Eq.refl _)⟩

theorem World.Along.mono {ks' : Multiset Kind} (h : w.Along ks w') (hks : ks ≤ ks') :
    w.Along ks' w' := ⟨h.careful, h.strands.mono hks⟩

theorem World.Along.trans {ks' : Multiset Kind} (h : w.Along ks w') (h' : w'.Along ks' w'') :
    w.Along (ks' + ks) w'' := by
  obtain ⟨ks₁, hle, hs⟩ := h.strands
  exact ⟨h.careful.trans h'.careful,
    (hs.trans_atMost h'.strands).mono (Multiset.add_le_add_iff_left.mpr hle)⟩

/-- Nothing new is owed. -/
theorem World.Along.congr (h : w.Along ks w') (hc : w.Careful w'') (howed : w''.owed = w'.owed) :
    w.Along ks w'' := by
  obtain ⟨ks₁, hle, hs⟩ := h.strands
  exact ⟨hc, ks₁, hle, hs.congr howed⟩

theorem World.Along.same (h : w.Along ks w') (h' : w'.Same w'') : w.Along ks w'' :=
  h.congr (h.careful.trans h'.toQuiet.careful) h'.owed

theorem World.Along.refuse (h : w.Along ks w') (h' : w'.Refuses kind w'') : w.Along ks w'' :=
  h.congr (h.careful.trans h'.careful) h'.owed

theorem World.Along.grant (h : w.Along ks w') (h' : w'.Grants kind x w'') :
    w.Along (kind ::ₘ ks) w'' := by
  obtain ⟨ks₁, hle, hs⟩ := h.strands
  exact ⟨h.careful.trans h'.toQuiet.careful, _, (Multiset.cons_le_cons_iff kind).mpr hle, hs.grant h'⟩

theorem World.Along.buffers {g : Handle} (h : w.Along ks w') (h' : w'.Buffers g w'') :
    w.Along (.memObject ::ₘ ks) w'' := by
  obtain ⟨ks₁, hle, hs⟩ := h.strands
  refine ⟨h.careful.trans h'.careful, ?_⟩
  cases g with
  | none => exact ⟨ks₁, hle.trans (Multiset.le_cons_self _ _), hs.congr (by simp [h'.owed])⟩
  | some x =>
      exact ⟨_, (Multiset.cons_le_cons_iff _).mpr hle, hs.cons (h'.kind x (Eq.refl _)) h'.owed⟩

end

/-! ## rules -/

section
variable {o : Nat → Status} {ρ : Type} {w : World} {R : ρ → World → Prop}

theorem holds_createBuffer {hs : List Handle} {Q : Handle × Status → World → Prop}
    (hvalid : ∀ h ∈ hs, w.Valid h) (h : ∀ g e w', w.Buffers g w' → Q (g, e) w') :
    Holds (create o .memObject hs) w Q R := by
  refine holds_create hvalid (fun x w' hw => h _ _ w' ?_) fun e w' _ hw => h _ _ w' ?_
  · refine ⟨by simpa using hw.kind, by rw [hw.owed, held_some, Multiset.singleton_add],
      fun k => hw.args_of_ne, by simp [hw.refused], hw.nullLaunches⟩
  · exact ⟨nofun, by simp [hw.owed], fun k _ => by rw [hw.args], by simp [hw.refused],
      hw.nullLaunches⟩

/-- The release of a buffer that may be missing. -/
theorem holds_releaseHeld {g : Handle} {owed : Multiset Obj} {Q : Status → World → Prop}
    (howed : w.owed = held g + owed) (h : ∀ e w', w'.owed = owed → w.Quiet w' → Q e w') :
    Holds (release o g) w Q R := by
  cases g with
  | none =>
      exact holds_release_none fun e w' hw => h e w' (by simp [hw.owed, howed]) hw.toQuiet
  | some x =>
      exact holds_release (by simp [howed]) fun e w' hw =>
        h e w' (by simp [hw.owed, howed]) hw.toQuiet

/-- The argument is not released; it may be a null pointer. -/
def World.ArgKept (w : World) : KernelArg → Prop
  | .memory h => ∀ x, h = some x → x ∈ w.owed
  | .bytes => True

theorem World.ArgKept.mono {w' : World} {a : KernelArg} (h : w.ArgKept a)
    (hsub : ∀ x ∈ w.owed, x ∈ w'.owed) : w'.ArgKept a := by
  cases a with
  | memory g => exact fun x hx => hsub x (h x hx)
  | bytes => trivial

theorem World.HasArgs.ready_of_kept {k : Obj} {as : List KernelArg} (hset : w.HasArgs k as)
    (hkept : ∀ a ∈ as, w.ArgKept a) : ∀ j < as.length, w.ArgReady (w.args k j) := by
  intro j hj
  rw [hset j hj]
  have hkept := hkept as[j] (List.getElem_mem hj)
  cases h : as[j] with
  | bytes => trivial
  | memory a =>
      rw [h] at hkept
      cases a with
      | none => trivial
      | some x => exact hkept x rfl

theorem World.HasArgs.nullArg_iff {k : Obj} {as : List KernelArg} (hset : w.HasArgs k as) :
    w.NullArg k as.length ↔ .memory none ∈ as := by
  constructor
  · rintro ⟨j, hj, hnull⟩
    rw [hset j hj, Option.some.injEq] at hnull
    exact hnull ▸ List.getElem_mem hj
  · intro hmem
    obtain ⟨j, hj, hnull⟩ := List.getElem_of_mem hmem
    exact ⟨j, hj, by rw [hset j hj, hnull]⟩

/-- What a launch with these arguments passes on. -/
def nulls (as : List KernelArg) : Nat := if .memory none ∈ as then 1 else 0

theorem World.Launches.ran {k : Obj} {as : List KernelArg} {w' : World} (h : w.Launches k as.length w')
    (hargs : w.HasArgs k as) : w.Ran (nulls as) w' :=
  ⟨h.owed, h.args, h.refused, by simp only [h.nullLaunches, nulls, hargs.nullArg_iff]⟩

/-- With no argument released, a launch may only pass on a null pointer. -/
theorem holds_launchKept {q k : Obj} {as : List KernelArg} {Q : Status → World → Prop}
    (hq : q ∈ w.owed) (hk : k ∈ w.owed) (hargs : w.HasArgs k as) (hkept : ∀ a ∈ as, w.ArgKept a)
    (hok : ∀ w', w.Ran (nulls as) w' → Q CL_SUCCESS w')
    (hfail : ∀ e w', e ≠ CL_SUCCESS → w.Same w' → Q e w') :
    Holds (launch o (some q) (some k) as.length) w Q R :=
  holds_launch hq hk (hargs.ready_of_kept hkept) (fun w' h => hok w' (h.ran hargs)) hfail

/-- The same with an event. -/
theorem holds_launchEventKept {q k : Obj} {as : List KernelArg} {Q : Handle × Status → World → Prop}
    (hq : q ∈ w.owed) (hk : k ∈ w.owed) (hargs : w.HasArgs k as) (hkept : ∀ a ∈ as, w.ArgKept a)
    (hok : ∀ x w' w'', w.Ran (nulls as) w' → w'.Grants .event x w'' → Q (some x, CL_SUCCESS) w'')
    (hfail : ∀ e w', e ≠ CL_SUCCESS → w.Same w' → Q (none, e) w') :
    Holds (launchEvent o (some q) (some k) as.length) w Q R :=
  holds_launchEvent hq hk (hargs.ready_of_kept hkept)
    (fun x w' w'' h h' => hok x w' w'' (h.ran hargs) h') hfail

end

end UclBench.OpenCL
