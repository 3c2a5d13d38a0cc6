import UclBench.OpenCL.Objects
import Mathlib.Data.Multiset.MapFold

/-!
# UclBench.OpenCL.Returns

Host functions that return a status, and what they leave behind.

`Stranded ks w w'` says that objects of exactly the kinds `ks` are owed in `w'`
besides those of `w`.  What the parts of a run strand adds up
(`Stranded.trans`).
-/

namespace UclBench.OpenCL

open Effect

/-- A return, or `exit`. -/
abbrev Leave (β : Type) := Except Int β

section
variable (o : Nat → Status) {β : Type}

/-- `if(…) return code;` -/
def returnIf (c : Prop) [Decidable c] (code : β) : Effect World (Leave β) Unit :=
  leaveIf c (.ok code)

/-- A call that creates an object, and a return with `code err` if it fails. -/
def acquire (code : Status → β) (kind : Kind) (hs : List Handle) :
    Effect World (Leave β) Handle := do
  let (h, err) ← create o kind hs
  returnIf (err ≠ CL_SUCCESS) (code err)
  pure h

/-- A call on these objects, and a return with `code err` if it fails. -/
def perform (code : Status → β) (hs : List Handle) : Effect World (Leave β) Unit := do
  let err ← enqueue o hs
  returnIf (err ≠ CL_SUCCESS) (code err)

/-- `err = …; err |= …;` and a return with `code`. -/
def performBoth (code : β) (hs hs' : List Handle) : Effect World (Leave β) Unit := do
  let err ← enqueue o hs
  let err' ← enqueue o hs'
  returnIf (err ||| err' ≠ CL_SUCCESS) code

/-- `clBuildProgram`, a look at the log if it fails, and a return. -/
def build (code : Status → β) (program : Handle) : Effect World (Leave β) Unit := do
  let err ← enqueue o [program]
  when (err ≠ CL_SUCCESS) do
    let _ ← enqueue o [program]
  returnIf (err ≠ CL_SUCCESS) (code err)

/-- `err |= clSetKernelArg(kernel, i, …)`, from argument `i` on. -/
def setKernelArgs (kernel : Handle) : Nat → List KernelArg → Effect World (Leave β) Status
  | _, [] => pure CL_SUCCESS
  | i, a :: as => do
      let e ← setKernelArg o kernel i a
      let e' ← setKernelArgs kernel (i + 1) as
      pure (e ||| e')

end

section
variable {ρ : Type}

/-- So many blocks. -/
def mallocs : Nat → Effect World ρ (List Handle)
  | 0 => pure []
  | n + 1 => do
      let h ← malloc
      let hs ← mallocs n
      pure (h :: hs)

/-- `free`, for each of these. -/
def freeAll : List Handle → Effect World ρ Unit
  | [] => pure ()
  | h :: hs => do
      dispose h
      freeAll hs

end

/-! ## what is left -/

/-- Objects of these kinds are owed on top. -/
def Stranded (ks : Multiset Kind) (w w' : World) : Prop :=
  ∃ l : Multiset Obj, l.map Obj.kind = ks ∧ w'.owed = l + w.owed

section
variable {w w' w'' : World} {ks ks' : Multiset Kind}

theorem Stranded.of_eq (h : w'.owed = w.owed) : Stranded 0 w w' :=
  ⟨0, rfl, by rw [h, Multiset.zero_add]⟩

theorem Stranded.trans (h : Stranded ks w w') (h' : Stranded ks' w' w'') :
    Stranded (ks' + ks) w w'' := by
  obtain ⟨l, hl, how⟩ := h
  obtain ⟨l', hl', how'⟩ := h'
  exact ⟨l' + l, by rw [Multiset.map_add, hl, hl'], by rw [how', how, Multiset.add_assoc]⟩

theorem Stranded.cons {kind : Kind} {x : Obj} (h : Stranded ks w w') (hx : x.kind = kind)
    (h' : w''.owed = x ::ₘ w'.owed) : Stranded (kind ::ₘ ks) w w'' := by
  obtain ⟨l, hl, how⟩ := h
  exact ⟨x ::ₘ l, by rw [Multiset.map_cons, hl, hx], by rw [h', how, Multiset.cons_add]⟩

theorem Stranded.grant {kind : Kind} {x : Obj} (h : Stranded ks w w') (h' : w'.Grants kind x w'') :
    Stranded (kind ::ₘ ks) w w'' := h.cons h'.kind h'.owed

theorem Stranded.congr (h : Stranded ks w w') (h' : w''.owed = w'.owed) : Stranded ks w w'' := by
  obtain ⟨l, hl, how⟩ := h
  exact ⟨l, hl, h'.trans how⟩

/-- What was owed is still owed. -/
theorem Stranded.mem (h : Stranded ks w w') {x : Obj} (hx : x ∈ w.owed) : x ∈ w'.owed := by
  obtain ⟨l, -, how⟩ := h
  simp [how, hx]

/-- No more than these. -/
def StrandsAtMost (ks : Multiset Kind) (w w' : World) : Prop := ∃ ks' ≤ ks, Stranded ks' w w'

theorem Stranded.trans_atMost (h : Stranded ks w w') (h' : StrandsAtMost ks' w' w'') :
    StrandsAtMost (ks' + ks) w w'' := by
  obtain ⟨ks'', hle, h'⟩ := h'
  exact ⟨ks'' + ks, Multiset.add_le_add_iff_right.mpr hle, h.trans h'⟩

theorem StrandsAtMost.mono (h : StrandsAtMost ks w w') (hle : ks ≤ ks') : StrandsAtMost ks' w w' := by
  obtain ⟨ks'', hle', h⟩ := h
  exact ⟨ks'', hle'.trans hle, h⟩

end

/-! ## rules -/

section
variable {o : Nat → Status} {w w' w'' : World} {β : Type} {R : Leave β → World → Prop}

theorem holds_returnIf {c : Prop} [Decidable c] {code : β} {Q : Unit → World → Prop}
    (hleave : c → R (.ok code) w) (hstay : ¬ c → Q () w) : Holds (returnIf c code) w Q R :=
  holds_leaveIf hleave hstay

theorem holds_acquire {code : Status → β} {kind : Kind} {hs : List Handle}
    {Q : Handle → World → Prop} (hvalid : ∀ h ∈ hs, w.Valid h)
    (hok : ∀ x w', w.Grants kind x w' → Q (some x) w')
    (hfail : ∀ e w', e ≠ CL_SUCCESS → w.Refuses kind w' → R (.ok (code e)) w') :
    Holds (acquire o code kind hs) w Q R := by
  refine holds_bind.mpr (holds_create hvalid (fun x w' h => ?_) fun e w' he h => ?_)
  · exact holds_bind.mpr (holds_returnIf (fun he => absurd rfl he) fun _ => hok x w' h)
  · exact holds_bind.mpr (holds_returnIf (fun _ => hfail e w' he h) fun h' => absurd he h')

/-- A call whose outcome is looked at later. -/
theorem holds_createEither {kind : Kind} {hs : List Handle} {Q : Handle × Status → World → Prop}
    (hvalid : ∀ h ∈ hs, w.Valid h)
    (h : ∀ x e w', w'.nullLaunches = w.nullLaunches → StrandsAtMost {kind} w w' → Q (x, e) w') :
    Holds (create o kind hs) w Q R :=
  holds_create hvalid
    (fun _ w' hw => h _ _ w' hw.nullLaunches ⟨_, le_refl _, (Stranded.of_eq rfl).grant hw⟩)
    fun _ w' _ hw => h _ _ w' hw.nullLaunches ⟨0, Multiset.zero_le _, .of_eq hw.owed⟩

theorem holds_perform {code : Status → β} {hs : List Handle} {Q : Unit → World → Prop}
    (hvalid : ∀ h ∈ hs, w.Valid h) (hok : ∀ w', w.Same w' → Q () w')
    (hfail : ∀ e w', e ≠ CL_SUCCESS → w.Same w' → R (.ok (code e)) w') :
    Holds (perform o code hs) w Q R :=
  holds_bind.mpr (holds_enqueue hvalid fun e w' h =>
    holds_returnIf (fun he => hfail e w' he h) fun _ => hok w' h)

theorem holds_performBoth {code : β} {hs hs' : List Handle} {Q : Unit → World → Prop}
    (hvalid : ∀ h ∈ hs ++ hs', w.Valid h) (hok : ∀ w', w.Same w' → Q () w')
    (hfail : ∀ w', w.Same w' → R (.ok code) w') : Holds (performBoth o code hs hs') w Q R := by
  simp only [List.mem_append] at hvalid
  refine holds_bind.mpr (holds_enqueue (fun h hh => hvalid h (.inl hh)) fun e w₁ h₁ =>
    holds_bind.mpr (holds_enqueue (fun h hh => ?_) fun e' w₂ h₂ => ?_))
  · obtain ⟨x, hx, rfl⟩ := hvalid h (.inr hh)
    exact ⟨x, h₁.owed ▸ hx, rfl⟩
  · exact holds_returnIf (fun _ => hfail w₂ (h₁.trans h₂)) fun _ => hok w₂ (h₁.trans h₂)

theorem holds_build {code : Status → β} {x : Obj} {Q : Unit → World → Prop} (hx : x ∈ w.owed)
    (hok : ∀ w', w.Same w' → Q () w')
    (hfail : ∀ e w', e ≠ CL_SUCCESS → w.Same w' → R (.ok (code e)) w') :
    Holds (build o code (some x)) w Q R := by
  refine holds_bind.mpr (holds_enqueue (by simpa using hx) fun e w₁ h₁ => holds_bind.mpr ?_)
  refine holds_when (fun he => holds_bind.mpr ?_) fun he => ?_
  · refine holds_enqueue (by simpa [h₁.owed] using hx) fun _ w₂ h₂ => ?_
    exact holds_pure.mpr (holds_returnIf (fun _ => hfail e w₂ he (h₁.trans h₂)) fun h => absurd he h)
  · exact holds_returnIf (fun h => absurd h he) fun _ => hok w₁ h₁

/-- The arguments from `i` on are set, and no other. -/
structure World.SetsAll (k : Obj) (i : Nat) (as : List KernelArg) (w w' : World) : Prop
    extends World.Quiet w w' where
  owed : w'.owed = w.owed
  set : ∀ j (h : j < as.length), w'.args k (i + j) = some as[j]
  other : ∀ j < i, w'.args k j = w.args k j

theorem World.SetsAll.cons {k : Obj} {i : Nat} {a : KernelArg} {as : List KernelArg} (h : w.Sets k i a w')
    (h' : w'.SetsAll k (i + 1) as w'') : w.SetsAll k i (a :: as) w'' where
  toQuiet := h.toQuiet.trans h'.toQuiet
  owed := h'.owed.trans h.owed
  set
    | 0, _ => by simp [h'.other i (Nat.lt_succ_self i), h.args]
    | j + 1, hj => by
        have hset := h'.set j (by simpa using hj)
        rw [Nat.add_right_comm] at hset
        exact hset
  other j hj := by
    have hne : j ≠ i := by omega
    simp [h'.other j (by omega), h.args, hne]

theorem holds_setKernelArgs {k : Obj} {i : Nat} {as : List KernelArg} {Q : Status → World → Prop}
    (hk : k ∈ w.owed) (hok : ∀ w', w.SetsAll k i as w' → Q CL_SUCCESS w')
    (hfail : ∀ e w', e ≠ CL_SUCCESS → w'.owed = w.owed → w.Quiet w' → Q e w') :
    Holds (setKernelArgs o (some k) i as) w Q R := by
  induction as generalizing i w Q with
  | nil => exact hok w ⟨⟨rfl, rfl⟩, rfl, nofun, fun _ _ => rfl⟩
  | cons a as ih =>
      have hor (e e' : Status) : e ||| e' = CL_SUCCESS ↔ e = CL_SUCCESS ∧ e' = CL_SUCCESS :=
        Int32.or_eq_zero_iff
      refine holds_bind.mpr (holds_setKernelArg hk (fun w₁ h₁ => holds_bind.mpr ?_)
        fun e w₁ he h₁ => holds_bind.mpr ?_)
      · refine ih (by rw [h₁.owed]; exact hk) (fun w₂ h₂ => hok w₂ (.cons h₁ h₂))
          fun e w₂ he howed hquiet => ?_
        exact hfail _ w₂ (fun h => he ((hor _ _).mp h).2) (howed.trans h₁.owed)
          (h₁.toQuiet.trans hquiet)
      · have hnot (e' : Status) : e ||| e' ≠ CL_SUCCESS := fun h => he ((hor _ _).mp h).1
        refine ih (by rw [h₁.owed]; exact hk) (fun w₂ h₂ => ?_) fun e' w₂ _ howed hquiet => ?_
        · exact hfail _ w₂ (hnot _) (h₂.owed.trans h₁.owed) (h₁.toQuiet.trans h₂.toQuiet)
        · exact hfail _ w₂ (hnot _) (howed.trans h₁.owed) (h₁.toQuiet.trans hquiet)

/-- These are the first arguments of the kernel. -/
def World.HasArgs (w : World) (k : Obj) (as : List KernelArg) : Prop :=
  ∀ j (h : j < as.length), w.args k j = some as[j]

theorem World.SetsAll.hasArgs {k : Obj} {as : List KernelArg} (h : w.SetsAll k 0 as w') :
    w'.HasArgs k as := fun j hj => by rw [← h.set j hj, Nat.zero_add]

theorem World.HasArgs.congr {k : Obj} {as : List KernelArg} (h : w.HasArgs k as) (h' : w'.args = w.args) :
    w'.HasArgs k as := fun j hj => h' ▸ h j hj

/-- The argument is not a null pointer, nor released. -/
def World.ArgLive (w : World) : KernelArg → Prop
  | .memory h => w.Valid h
  | .bytes => True

/-- A kernel with these arguments can be launched, and gets no null pointer. -/
theorem World.HasArgs.ready {k : Obj} {as : List KernelArg} (hset : w.HasArgs k as)
    (hlive : ∀ a ∈ as, w.ArgLive a) :
    (∀ j < as.length, w.ArgReady (w.args k j)) ∧ ¬ w.NullArg k as.length := by
  constructor
  · intro j hj
    rw [hset j hj]
    have hlive := hlive as[j] (List.getElem_mem hj)
    cases h : as[j] with
    | bytes => trivial
    | memory a =>
        rw [h] at hlive
        obtain ⟨x, hx, rfl⟩ := hlive
        exact hx
  · rintro ⟨j, hj, hnull⟩
    rw [hset j hj, Option.some.injEq] at hnull
    obtain ⟨x, -, h⟩ := hnull ▸ hlive as[j] (List.getElem_mem hj)
    contradiction

/-- With all arguments live, a launch leaves its event and nothing else. -/
theorem holds_launchLive {q k : Obj} {as : List KernelArg} {Q : Handle × Status → World → Prop}
    (hq : q ∈ w.owed) (hk : k ∈ w.owed) (hargs : w.HasArgs k as) (hlive : ∀ a ∈ as, w.ArgLive a)
    (hok : ∀ x w', x.kind = .event → w'.owed = x ::ₘ w.owed → w'.nullLaunches = w.nullLaunches →
      Q (some x, CL_SUCCESS) w')
    (hfail : ∀ e w', e ≠ CL_SUCCESS → w.Same w' → Q (none, e) w') :
    Holds (launchEvent o (some q) (some k) as.length) w Q R := by
  obtain ⟨hready, hnull⟩ := hargs.ready hlive
  refine holds_launchEvent hq hk hready (fun x w₁ w₂ h₁ h₂ => ?_) hfail
  refine hok x w₂ h₂.kind (by rw [h₂.owed, h₁.owed]) ?_
  rw [h₂.nullLaunches, h₁.nullLaunches, if_neg hnull, Nat.add_zero]

theorem holds_mallocs {n : Nat} {Q : List Handle → World → Prop}
    (h : ∀ (l : List Obj) w', l.length = n → (∀ x ∈ l, x.kind = .block) → w'.owed = l + w.owed →
      w.Quiet w' → Q (l.map some) w') : Holds (mallocs n) w Q R := by
  induction n generalizing w Q with
  | zero => exact h [] w rfl nofun (by simp) ⟨rfl, rfl⟩
  | succ n ih =>
      refine holds_bind.mpr (holds_malloc fun x w₁ h₁ => holds_bind.mpr ?_)
      refine ih fun l w₂ hlen hkind howed hquiet => h (x :: l) w₂ (by simp [hlen]) ?_ ?_
        (h₁.toQuiet.trans hquiet)
      · simpa [h₁.kind] using hkind
      · rw [howed, h₁.owed, ← Multiset.cons_coe, Multiset.cons_add, Multiset.add_cons]

theorem holds_freeAll {l : List Obj} {owed : Multiset Obj} {Q : Unit → World → Prop}
    (hl : w.owed = l + owed) (h : ∀ w', w'.owed = owed → w.Quiet w' → Q () w') :
    Holds (freeAll (l.map some)) w Q R := by
  induction l generalizing w Q with
  | nil => exact h w (by simpa using hl) ⟨rfl, rfl⟩
  | cons x l ih =>
      refine holds_bind.mpr (holds_dispose (by simp [hl]) fun w₁ h₁ => ?_)
      refine ih ?_ fun w₂ howed hquiet => h w₂ howed (h₁.toQuiet.trans hquiet)
      rw [h₁.owed, hl, ← Multiset.cons_coe, Multiset.cons_add, Multiset.erase_cons_head]

end

end UclBench.OpenCL
