import UclBench.Effect
import Mathlib.Data.Multiset.AddSub
import Mathlib.Data.Multiset.UnionInter
import Mathlib.Logic.Function.Basic

/-!
# UclBench.OpenCL.Objects

The objects a host program creates and has to release.

`World` keeps the objects whose release is still owed.  A call that uses NULL
or an object already released is stuck, and so are a second release and the
launch of a kernel with an argument that was never set; whether a call succeeds
is up to `o`, a status for each call of the run.  Releasing an object settles
it, whatever status comes back.  A buffer that could not be created may be set
as an argument (the kernel then gets a null pointer): `nullLaunches` counts the
launches where this happened.
-/

namespace UclBench.OpenCL

open Effect

/-- `cl_int` -/
abbrev Status := Int32

def CL_SUCCESS : Status := 0

/-- What is created and released: `block` is memory of `malloc`, `mapping` the
region that `clEnqueueMapBuffer` returns. -/
inductive Kind where
  | context
  | commandQueue
  | program
  | kernel
  | memObject
  | mapping
  | event
  | block
  deriving DecidableEq, Repr

structure Obj where
  kind : Kind
  id : Nat
  deriving DecidableEq, Repr

/-- `none` is NULL. -/
abbrev Handle := Option Obj

/-- A kernel argument: a memory object, or bytes. -/
inductive KernelArg where
  | memory (h : Handle)
  | bytes
  deriving DecidableEq

/-- What a run has done so far. -/
structure World where
  /-- The calls that returned a status. -/
  calls : Nat
  /-- The objects created, which are numbered. -/
  next : Nat
  /-- Created and not released. -/
  owed : Multiset Obj
  /-- The arguments of each kernel. -/
  args : Obj → Nat → Option KernelArg
  /-- The memory objects that could not be created. -/
  refused : Nat
  /-- The launches with a null pointer for a memory object. -/
  nullLaunches : Nat
  lt_next : ∀ x ∈ owed, x.id < next
  nodup : owed.Nodup

namespace World

/-- The handle of an object that is not released. -/
def Valid (w : World) (h : Handle) : Prop := ∃ x ∈ w.owed, h = some x

@[simp] theorem valid_some {w : World} {x : Obj} : w.Valid (some x) ↔ x ∈ w.owed := by
  simp [Valid]

instance (w : World) (h : Handle) : Decidable (w.Valid h) :=
  match h with
  | none => isFalse fun ⟨_, _, h⟩ => nomatch h
  | some x => decidable_of_iff (x ∈ w.owed) valid_some.symm

/-- Before the first call. -/
def empty : World := ⟨0, 0, 0, fun _ _ => none, 0, 0, by simp, Multiset.nodup_zero⟩

/-- One more call. -/
def tick (w : World) : World := { w with calls := w.calls + 1 }

/-- A new object, with a number of its own and no arguments. -/
def grant (kind : Kind) (w : World) : World :=
  { w with
    next := w.next + 1
    owed := ⟨kind, w.next⟩ ::ₘ w.owed
    args := Function.update w.args ⟨kind, w.next⟩ fun _ => none
    lt_next := fun x hx => by
      rcases Multiset.mem_cons.mp hx with rfl | hx
      · exact Nat.lt_succ_self _
      · exact Nat.lt_succ_of_lt (w.lt_next x hx)
    nodup := Multiset.nodup_cons.mpr ⟨fun hx => Nat.lt_irrefl _ (w.lt_next _ hx), w.nodup⟩ }

/-- A memory object that could not be created. -/
def refuse (kind : Kind) (w : World) : World :=
  { w with refused := w.refused + if kind = .memObject then 1 else 0 }

/-- The object is released. -/
def discharge (x : Obj) (w : World) : World :=
  { w with
    owed := w.owed.erase x
    lt_next := fun y hy => w.lt_next y (Multiset.mem_of_mem_erase hy)
    nodup := w.nodup.erase x }

def setArg (kernel : Obj) (i : Nat) (a : KernelArg) (w : World) : World :=
  { w with args := Function.update w.args kernel (Function.update (w.args kernel) i (some a)) }

/-- The argument is set; a memory object is not released. -/
def ArgReady (w : World) : Option KernelArg → Prop
  | none => False
  | some (.memory (some x)) => x ∈ w.owed
  | some _ => True

instance (w : World) (a : Option KernelArg) : Decidable (w.ArgReady a) :=
  match a with
  | none => isFalse id
  | some (.memory (some x)) => inferInstanceAs (Decidable (x ∈ w.owed))
  | some (.memory none) => isTrue trivial
  | some .bytes => isTrue trivial

/-- A launch with these many arguments gets a null pointer. -/
def NullArg (w : World) (kernel : Obj) (arity : Nat) : Prop :=
  ∃ i < arity, w.args kernel i = some (.memory none)

instance (w : World) (kernel : Obj) (arity : Nat) : Decidable (w.NullArg kernel arity) :=
  inferInstanceAs (Decidable (∃ i < arity, _))

/-- The kernel has run. -/
def launched (kernel : Obj) (arity : Nat) (w : World) : World :=
  { w with nullLaunches := w.nullLaunches + if w.NullArg kernel arity then 1 else 0 }

end World

/-! ## calls -/

section
variable (o : Nat → Status) {ρ : Type}

/-- The status of the next call. -/
def answer : Effect World ρ Status := do
  let w ← look
  change World.tick
  pure (o w.calls)

/-- All these objects are needed. -/
def use (hs : List Handle) : Effect World ρ Unit := require fun w => ∀ h ∈ hs, w.Valid h

/-- A call on these objects, such as a transfer or `clFinish`. -/
def enqueue (hs : List Handle) : Effect World ρ Status := do
  use hs
  answer o

/-- A new object. -/
def granted (kind : Kind) : Effect World ρ Handle := do
  let w ← look
  change (World.grant kind)
  pure (some ⟨kind, w.next⟩)

/-- A call that creates an object: the handle is NULL when it fails. -/
def create (kind : Kind) (hs : List Handle) : Effect World ρ (Handle × Status) := do
  use hs
  let e ← answer o
  if e = CL_SUCCESS then do
    let h ← granted kind
    pure (h, e)
  else do
    change (World.refuse kind)
    pure (none, e)

/-- `malloc`, which is taken to succeed. -/
def malloc : Effect World ρ Handle := granted .block

/-- The end of an object; there is nothing to do for NULL. -/
def dispose : Handle → Effect World ρ Unit
  | none => pure ()
  | some x => do
      require fun w => x ∈ w.owed
      change (World.discharge x)

/-- `clRelease…` -/
def release (h : Handle) : Effect World ρ Status := do
  dispose h
  answer o

/-- `clEnqueueUnmapMemObject` -/
def unmap (queue buffer region : Handle) : Effect World ρ Status := do
  use [queue, buffer]
  dispose region
  answer o

/-- `clSetKernelArg`, which keeps the argument when it succeeds. -/
def setKernelArg (kernel : Handle) (i : Nat) (a : KernelArg) : Effect World ρ Status := do
  use [kernel]
  let e ← answer o
  change fun w => match kernel with
    | some k => if e = CL_SUCCESS then w.setArg k i a else w
    | none => w
  pure e

/-- `clEnqueueNDRangeKernel` on a kernel with so many parameters. -/
def launch (queue kernel : Handle) (arity : Nat) : Effect World ρ Status := do
  use [queue, kernel]
  require fun w => ∀ k ∈ kernel, ∀ i < arity, w.ArgReady (w.args k i)
  let e ← answer o
  change fun w => match kernel with
    | some k => if e = CL_SUCCESS then w.launched k arity else w
    | none => w
  pure e

/-- A launch that stores an event. -/
def launchEvent (queue kernel : Handle) (arity : Nat) : Effect World ρ (Handle × Status) := do
  let e ← launch o queue kernel arity
  if e = CL_SUCCESS then do
    let h ← granted .event
    pure (h, e)
  else pure (none, e)

end

/-! ## what a call changes -/

/-- No null pointer turns up. -/
structure World.Quiet (w w' : World) : Prop where
  refused : w'.refused = w.refused
  nullLaunches : w'.nullLaunches = w.nullLaunches

theorem World.Quiet.trans {w w' w'' : World} (h : World.Quiet w w') (h' : World.Quiet w' w'') :
    World.Quiet w w'' :=
  ⟨h'.refused.trans h.refused, h'.nullLaunches.trans h.nullLaunches⟩

/-- Nothing but the number of calls. -/
structure World.Same (w w' : World) : Prop extends World.Quiet w w' where
  owed : w'.owed = w.owed
  args : w'.args = w.args

theorem World.Same.trans {w w' w'' : World} (h : World.Same w w') (h' : World.Same w' w'') :
    World.Same w w'' :=
  ⟨h.toQuiet.trans h'.toQuiet, h'.owed.trans h.owed, h'.args.trans h.args⟩

/-- There is one more object. -/
structure World.Grants (kind : Kind) (x : Obj) (w w' : World) : Prop extends World.Quiet w w' where
  kind : x.kind = kind
  owed : w'.owed = x ::ₘ w.owed
  args : w'.args = Function.update w.args x fun _ => none

/-- There is one object less. -/
structure World.Discharges (x : Obj) (w w' : World) : Prop extends World.Quiet w w' where
  owed : w'.owed = w.owed.erase x
  args : w'.args = w.args

/-- An argument is set. -/
structure World.Sets (k : Obj) (i : Nat) (a : KernelArg) (w w' : World) : Prop
    extends World.Quiet w w' where
  owed : w'.owed = w.owed
  args : w'.args = Function.update w.args k (Function.update (w.args k) i (some a))

/-- An object was not created. -/
structure World.Refuses (kind : Kind) (w w' : World) : Prop where
  owed : w'.owed = w.owed
  args : w'.args = w.args
  refused : w'.refused = w.refused + if kind = .memObject then 1 else 0
  nullLaunches : w'.nullLaunches = w.nullLaunches

/-- A kernel has run. -/
structure World.Launches (k : Obj) (arity : Nat) (w w' : World) : Prop where
  owed : w'.owed = w.owed
  args : w'.args = w.args
  refused : w'.refused = w.refused
  nullLaunches : w'.nullLaunches = w.nullLaunches + if w.NullArg k arity then 1 else 0

/-- Other objects than the new one keep their arguments. -/
theorem World.Grants.args_of_ne {w w' : World} {kind : Kind} {x k : Obj}
    (h : World.Grants kind x w w') (hk : k.kind ≠ kind) : w'.args k = w.args k := by
  have hne : k ≠ x := fun hkx => hk (hkx ▸ h.kind)
  rw [h.args, Function.update_of_ne hne]

/-! ## rules -/

section
variable {o : Nat → Status} {ρ : Type} {w : World} {R : ρ → World → Prop}

theorem holds_answer {Q : Status → World → Prop} (h : ∀ e w', w.Same w' → Q e w') :
    Holds (answer o) w Q R := by
  simp only [answer, holds_bind, holds_look, holds_change, holds_pure]
  exact h _ _ ⟨⟨rfl, rfl⟩, rfl, rfl⟩

theorem holds_use {hs : List Handle} {Q : Unit → World → Prop} (hvalid : ∀ h ∈ hs, w.Valid h)
    (h : Q () w) : Holds (use hs) w Q R := holds_require hvalid h

theorem holds_enqueue {hs : List Handle} {Q : Status → World → Prop}
    (hvalid : ∀ h ∈ hs, w.Valid h) (h : ∀ e w', w.Same w' → Q e w') :
    Holds (enqueue o hs) w Q R :=
  holds_bind.mpr (holds_use hvalid (holds_answer h))

theorem holds_granted {kind : Kind} {Q : Handle → World → Prop}
    (h : ∀ x w', w.Grants kind x w' → Q (some x) w') : Holds (granted kind) w Q R := by
  simp only [granted, holds_bind, holds_look, holds_change, holds_pure]
  exact h _ _ ⟨⟨rfl, rfl⟩, rfl, rfl, rfl⟩

theorem World.Grants.after_same {kind : Kind} {x : Obj} {w' w'' : World} (h : w.Same w')
    (h' : w'.Grants kind x w'') : w.Grants kind x w'' :=
  ⟨h.toQuiet.trans h'.toQuiet, h'.kind, by rw [h'.owed, h.owed], by rw [h'.args, h.args]⟩

theorem holds_create {kind : Kind} {hs : List Handle} {Q : Handle × Status → World → Prop}
    (hvalid : ∀ h ∈ hs, w.Valid h)
    (hok : ∀ x w', w.Grants kind x w' → Q (some x, CL_SUCCESS) w')
    (hfail : ∀ e w', e ≠ CL_SUCCESS → w.Refuses kind w' → Q (none, e) w') :
    Holds (create o kind hs) w Q R := by
  refine holds_bind.mpr (holds_use hvalid (holds_bind.mpr (holds_answer fun e w₁ h₁ => ?_)))
  refine holds_ite (fun he => ?_) fun he => ?_
  · subst he
    exact holds_bind.mpr (holds_granted fun x w₂ h₂ => holds_pure.mpr (hok x w₂ (h₂.after_same h₁)))
  · refine holds_bind.mpr (holds_change.mpr (holds_pure.mpr (hfail e _ he ?_)))
    exact ⟨h₁.owed, h₁.args, by rw [← h₁.refused]; rfl, h₁.nullLaunches⟩

theorem holds_malloc {Q : Handle → World → Prop}
    (h : ∀ x w', w.Grants .block x w' → Q (some x) w') : Holds malloc w Q R := holds_granted h

theorem holds_dispose {x : Obj} {Q : Unit → World → Prop} (hx : x ∈ w.owed)
    (h : ∀ w', w.Discharges x w' → Q () w') : Holds (dispose (some x)) w Q R :=
  holds_bind.mpr (holds_require hx (holds_change.mpr (h _ ⟨⟨rfl, rfl⟩, rfl, rfl⟩)))

theorem World.Discharges.trans_same {x : Obj} {w' w'' : World} (h : w.Discharges x w')
    (h' : w'.Same w'') : w.Discharges x w'' :=
  ⟨h.toQuiet.trans h'.toQuiet, h'.owed.trans h.owed,
    h'.args.trans h.args⟩

/-- NULL is not released. -/
theorem holds_release_none {Q : Status → World → Prop} (h : ∀ e w', w.Same w' → Q e w') :
    Holds (release o none) w Q R :=
  holds_bind.mpr (holds_pure.mpr (holds_answer h))

theorem World.Grants.trans_same {kind : Kind} {x : Obj} {w' w'' : World} (h : w.Grants kind x w')
    (h' : w'.Same w'') : w.Grants kind x w'' :=
  ⟨h.toQuiet.trans h'.toQuiet, h.kind,
    h'.owed.trans h.owed, h'.args.trans h.args⟩

theorem holds_release {x : Obj} {Q : Status → World → Prop} (hx : x ∈ w.owed)
    (h : ∀ e w', w.Discharges x w' → Q e w') : Holds (release o (some x)) w Q R :=
  holds_bind.mpr (holds_dispose hx fun _ hw =>
    holds_answer fun e _ hw' => h e _ (hw.trans_same hw'))

theorem holds_unmap {queue buffer : Handle} {x : Obj} {Q : Status → World → Prop}
    (hvalid : ∀ h ∈ [queue, buffer], w.Valid h) (hx : x ∈ w.owed)
    (h : ∀ e w', w.Discharges x w' → Q e w') : Holds (unmap o queue buffer (some x)) w Q R :=
  holds_bind.mpr (holds_use hvalid (holds_release hx h))

theorem holds_setKernelArg {k : Obj} {i : Nat} {a : KernelArg} {Q : Status → World → Prop}
    (hk : k ∈ w.owed) (hok : ∀ w', w.Sets k i a w' → Q CL_SUCCESS w')
    (hfail : ∀ e w', e ≠ CL_SUCCESS → w.Same w' → Q e w') :
    Holds (setKernelArg o (some k) i a) w Q R := by
  refine holds_bind.mpr (holds_use (by simpa using hk) (holds_bind.mpr (holds_answer
    fun e w₁ h₁ => holds_bind.mpr (holds_change.mpr (holds_pure.mpr ?_)))))
  by_cases he : e = CL_SUCCESS
  · subst he
    exact hok _ ⟨⟨h₁.refused, h₁.nullLaunches⟩, h₁.owed, by rw [← h₁.args]; rfl⟩
  · simp only [if_neg he]
    exact hfail e w₁ he h₁

theorem holds_launch {q k : Obj} {arity : Nat} {Q : Status → World → Prop} (hq : q ∈ w.owed)
    (hk : k ∈ w.owed) (hargs : ∀ i < arity, w.ArgReady (w.args k i))
    (hok : ∀ w', w.Launches k arity w' → Q CL_SUCCESS w')
    (hfail : ∀ e w', e ≠ CL_SUCCESS → w.Same w' → Q e w') :
    Holds (launch o (some q) (some k) arity) w Q R := by
  refine holds_bind.mpr (holds_use (by simpa using ⟨hq, hk⟩) (holds_bind.mpr
    (holds_require (by simpa using hargs) (holds_bind.mpr (holds_answer fun e w₁ h₁ =>
      holds_bind.mpr (holds_change.mpr (holds_pure.mpr ?_)))))))
  by_cases he : e = CL_SUCCESS
  · subst he
    refine hok _ ⟨h₁.owed, h₁.args, h₁.refused, ?_⟩
    have hnull : w₁.NullArg k arity ↔ w.NullArg k arity := by simp only [World.NullArg, h₁.args]
    simp only [if_true, World.launched, hnull, h₁.nullLaunches]
  · simp only [if_neg he]
    exact hfail e w₁ he h₁

/-- The event, if the launch succeeds. -/
theorem holds_launchEvent {q k : Obj} {arity : Nat} {Q : Handle × Status → World → Prop}
    (hq : q ∈ w.owed) (hk : k ∈ w.owed) (hargs : ∀ i < arity, w.ArgReady (w.args k i))
    (hok : ∀ x w' w'', w.Launches k arity w' → w'.Grants .event x w'' → Q (some x, CL_SUCCESS) w'')
    (hfail : ∀ e w', e ≠ CL_SUCCESS → w.Same w' → Q (none, e) w') :
    Holds (launchEvent o (some q) (some k) arity) w Q R := by
  refine holds_bind.mpr (holds_launch hq hk hargs (fun w' hw => ?_) fun e w' he hw => ?_)
  · exact holds_ite (fun _ => holds_bind.mpr (holds_granted fun x w'' hw' =>
      holds_pure.mpr (hok x w' w'' hw hw'))) fun h => absurd rfl h
  · exact holds_ite (fun h => absurd h he) fun _ => holds_pure.mpr (hfail e w' he hw)

end

end UclBench.OpenCL
