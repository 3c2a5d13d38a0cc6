import UclBench.OpenCL.Unchecked
import Mathlib.Algebra.BigOperators.Group.List.Basic
import Mathlib.Algebra.Ring.Nat
import Mathlib.Data.List.ReduceOption

/-!
# UclBench.Released.KernelOverheads

The objects of an overhead run (`gen_kernel`, `run_kernel_benchmark` and `main`
of `kernel_overheads.cpp`).

A run keeps its buffers, the array of their handles and nine of its ten events,
and no buffer is checked, so the tests of a device pile them up and may launch
null pointers (`benchDevice_stranded`).
-/

namespace UclBench.Released.KernelOverheads

open Effect OpenCL

section
variable (o : Nat → Status)

/-- `gen_kernel`, which keeps its buffer when it rejects the test case. -/
def genKernel (nArgs nLines : Int) (context : Handle) : Effect World (Leave Handle) Handle := do
  let kernelSrc ← malloc
  returnIf (nArgs < 1 ∨ nLines < 1) none
  let (program, _) ← create o .program [context]
  when (program = none) do
    dispose kernelSrc
    leave (.ok none)
  dispose kernelSrc
  pure program

/-- A buffer for each parameter of the kernel. -/
def createArgs (context kernel tmpArgs : Handle) (n : Nat) :
    Effect World (Leave Status) (List Handle × Status) :=
  loop (fun i a => do
    let (g, _) ← create o .memObject [context, tmpArgs]
    let e ← setKernelArg o kernel i (.memory g)
    pure (a.1 ++ [g], a.2 ||| e)) n ([], CL_SUCCESS)

/-- The ten launches that are timed; each overwrites the event of the last. -/
def timed (commands kernel : Handle) (arity : Nat) : Effect World (Leave Status) Handle :=
  loop (fun _ _ => do
    let (event, err) ← launchEvent o commands kernel arity
    returnIf (err ≠ CL_SUCCESS) (-1)
    let _ ← enqueue o [commands]
    let _ ← enqueue o [event]
    let _ ← enqueue o [event]
    let _ ← enqueue o [event]
    let _ ← enqueue o [event]
    let _ ← enqueue o [event]
    pure event) 10 none

/-- `run_kernel_benchmark`, once there is a program. -/
def measure (context commands program : Handle) (n : Nat) : Effect World (Leave Status) Status := do
  build o (fun _ => -1) program
  let kernel ← acquire o (fun _ => -1) .kernel [program]
  let tmpArgs ← malloc
  let _ ← malloc
  let (_, err) ← createArgs o context kernel tmpArgs n
  returnIf (err ≠ CL_SUCCESS) (-1)
  let err ← launch o commands kernel n
  returnIf (err ≠ CL_SUCCESS) (-1)
  let _ ← enqueue o [commands]
  let event ← timed o commands kernel n
  let _ ← release o event
  let _ ← release o kernel
  let _ ← release o program
  dispose tmpArgs
  pure CL_SUCCESS

/-- `run_kernel_benchmark` -/
def runKernelBenchmark (context commands : Handle) (nArgs nLines : Int) :
    Effect World (Leave Status) Status := do
  let program ← call (genKernel o nArgs nLines context)
  returnIf (program = none) (-1)
  measure o context commands program nArgs.toNat

/-- The tests of `testdata_loc.h`, as numbers of arguments and lines. -/
def runTests (context commands : Handle) : List (Int × Int) → Effect World (Leave Status) Unit
  | [] => pure ()
  | (nArgs, nLines) :: tests => do
      let err ← call (runKernelBenchmark o context commands nArgs nLines)
      returnIf (err < 0) 1
      runTests context commands tests

/-- The pass of `main` over a device. -/
def benchDevice (tests : List (Int × Int)) : Effect World (Leave Status) Unit := do
  let context ← acquire o (fun _ => -1) .context []
  let commands ← acquire o (fun _ => -1) .commandQueue [context]
  runTests o context commands tests
  let _ ← release o context
  let _ ← release o commands

end

/-- Everything a run with `n` arguments creates. -/
def acquired (n : Nat) : Multiset Kind :=
  Multiset.replicate 10 .event +
    (Multiset.replicate n .memObject + {.block, .block, .kernel, .program})

/-- What a run with `n` buffers keeps. -/
def kept (n : Nat) : Multiset Kind :=
  Multiset.replicate n .memObject + .block ::ₘ Multiset.replicate 9 .event

/-- A run that fails returns -1. -/
def Fails (n : Nat) (w : World) (r : Leave Status) (w' : World) : Prop :=
  r = .ok (-1) ∧ w.Along (acquired n) w'

/-- A run that succeeds has made eleven launches. -/
def Runs (n : Nat) (w w' : World) : Prop :=
  ∃ missing ≤ n, w'.refused = w.refused + missing ∧ Stranded (kept (n - missing)) w w' ∧
    w'.nullLaunches = w.nullLaunches + if missing = 0 then 0 else 11

theorem Runs.careful {n : Nat} {w w' : World} (h : Runs n w w') : w.Careful w' := by
  obtain ⟨missing, -, hr, -, hn⟩ := h
  refine ⟨by omega, fun he => ?_⟩
  have hzero : missing = 0 := by omega
  rw [hn, if_pos hzero, Nat.add_zero]

/-! ## parts of a run -/

section
variable {o : Nat → Status} {w : World} {c q k t : Obj} {R : Leave Status → World → Prop}

theorem holds_genKernel {nArgs nLines : Int} {Q : Handle → World → Prop} (hc : c ∈ w.owed)
    (hok : ∀ p w', 1 ≤ nArgs → w'.owed = p ::ₘ w.owed → w.Quiet w' → w.Along {.program} w' →
      Q (some p) w')
    (hfail : ∀ w', w.Along {.block} w' → Q none w') :
    Holds (call (genKernel o nArgs nLines (some c)) : Effect World (Leave Status) _) w Q R := by
  refine holds_call (holds_bind.mpr (holds_malloc fun s w₁ h₁ => holds_bind.mpr ?_))
  have ha₁ : w.Along {.block} w₁ := World.Along.rfl.grant h₁
  refine holds_returnIf (fun _ => hfail w₁ ha₁) fun hn => holds_bind.mpr ?_
  refine holds_create (by simp [h₁.owed, hc]) (fun p w₂ h₂ => holds_bind.mpr ?_)
    fun e w₂ _ h₂ => holds_bind.mpr ?_
  · refine holds_when (fun h => by simp at h) fun _ => holds_bind.mpr ?_
    refine holds_dispose (by simp [h₂.owed, h₁.owed]) fun w₃ h₃ => ?_
    have howed : w₃.owed = p ::ₘ w.owed := by
      rw [h₃.owed, h₂.owed, h₁.owed, Multiset.cons_swap, Multiset.erase_cons_head]
    have hq : w.Quiet w₃ := h₁.toQuiet.trans (h₂.toQuiet.trans h₃.toQuiet)
    have hs : Stranded {.program} w w₃ := (Stranded.of_eq rfl).cons h₂.kind howed
    exact hok p w₃ (by omega) howed hq ⟨hq.careful, _, le_refl _, hs⟩
  · refine holds_when (fun _ => holds_bind.mpr ?_) fun h => absurd rfl h
    refine holds_dispose (by simp [h₂.owed, h₁.owed]) fun w₃ h₃ => holds_leave.mpr (hfail w₃ ?_)
    have howed : w₃.owed = w.owed := by rw [h₃.owed, h₂.owed, h₁.owed, Multiset.erase_cons_head]
    refine (World.Along.rfl.congr ?_ howed).mono (Multiset.zero_le _)
    exact h₁.toQuiet.careful.trans (h₂.careful.trans h₃.toQuiet.careful)

theorem length_reduceOption (hs : List Handle) :
    hs.reduceOption.length + hs.count none = hs.length := by
  induction hs with
  | nil => rfl
  | cons h hs ih =>
      cases h with
      | none => rw [List.reduceOption_cons_of_none, List.count_cons_self, List.length_cons, ← ih]; rfl
      | some x =>
          rw [List.reduceOption_cons_of_some, List.count_cons_of_ne (by simp), List.length_cons,
            List.length_cons, ← ih, Nat.add_right_comm]

/-- The first buffers, some of which may be missing. -/
structure Filled (i : Nat) (hs : List Handle) (w w' : World) : Prop extends
    w.Along (Multiset.replicate i .memObject) w' where
  length : hs.length = i
  kind : ∀ x ∈ hs.reduceOption, x.kind = .memObject
  owed : w'.owed = hs.reduceOption + w.owed
  refused : w'.refused = w.refused + hs.count none
  nullLaunches : w'.nullLaunches = w.nullLaunches

theorem Filled.nil : Filled 0 [] w w :=
  ⟨World.Along.rfl, rfl, nofun, by simp, rfl, rfl⟩

theorem Filled.append {i : Nat} {hs : List Handle} {g : Handle} {w' w'' w₃ : World}
    (h : Filled i hs w w') (hg : w'.Buffers g w'') (hq : w''.Quiet w₃) (howed : w₃.owed = w''.owed) :
    Filled (i + 1) (hs ++ [g]) w w₃ where
  toAlong := by
    have ha := h.toAlong.buffers hg
    rw [← Multiset.replicate_succ] at ha
    exact ha.congr (ha.careful.trans hq.careful) howed
  length := by simp [h.length]
  kind x hx := by
    rw [List.reduceOption_append, List.mem_append] at hx
    rcases hx with hx | hx
    · exact h.kind x hx
    · exact hg.kind x (by simpa [List.reduceOption_mem_iff, eq_comm] using hx)
  owed := by
    rw [howed, hg.owed, h.owed, List.reduceOption_append, ← Multiset.coe_add, ← add_assoc,
      add_comm (held g)]
    cases g <;> rfl
  refused := by
    rw [hq.refused, hg.refused, h.refused, List.count_append, Nat.add_assoc]
    cases g <;> simp
  nullLaunches := hq.nullLaunches.trans (hg.nullLaunches.trans h.nullLaunches)

theorem holds_createArgs {n : Nat} {Q : List Handle × Status → World → Prop} (hc : c ∈ w.owed)
    (hk : k ∈ w.owed) (ht : t ∈ w.owed) (hkind : k.kind = .kernel)
    (hok : ∀ hs w', Filled n hs w w' → w'.HasArgs k (hs.map .memory) → Q (hs, CL_SUCCESS) w')
    (hfail : ∀ hs e w', e ≠ CL_SUCCESS → w.Along (Multiset.replicate n .memObject) w' →
      Q (hs, e) w') :
    Holds (createArgs o (some c) (some k) (some t) n) w Q R := by
  have hor (e e' : Status) : e ||| e' = CL_SUCCESS ↔ e = CL_SUCCESS ∧ e' = CL_SUCCESS :=
    Int32.or_eq_zero_iff
  refine (holds_loop (fun i a w' => Filled i a.1 w w' ∧
    (a.2 = CL_SUCCESS → w'.HasArgs k (a.1.map .memory))) n
    ⟨.nil, fun _ _ h => absurd h (Nat.not_lt_zero _)⟩ ?_).mono
    (fun a w' h => ?_) fun _ _ => id
  · rintro i - ⟨hs, err⟩ w₁ ⟨h₁, hset⟩
    refine holds_bind.mpr (holds_createBuffer (by simp [h₁.owed, hc, ht])
      fun g _ w₂ h₂ => holds_bind.mpr ?_)
    refine holds_setKernelArg (by simp [h₂.owed, h₁.owed, hk]) (fun w₃ h₃ => ?_) fun e w₃ he h₃ => ?_
    · have hlen : hs.length = i := h₁.length
      refine ⟨h₁.append h₂ h₃.toQuiet h₃.owed, fun herr => ?_⟩
      have hset := hset ((hor _ _).mp herr).1
      have hargs : w₂.args k = w₁.args k := h₂.args k (by simp [hkind])
      rintro j hj
      rw [h₃.args, Function.update_self, hargs]
      simp only [List.map_append, List.map_cons, List.map_nil] at hj ⊢
      by_cases hji : j = i
      · subst hji
        simp [← hlen]
      · have hlt : j < hs.length := by
          simp only [List.length_append, List.length_map, List.length_cons, List.length_nil] at hj
          omega
        rw [Function.update_of_ne hji, List.getElem_append_left (by simpa using hlt)]
        exact hset j (by simpa using hlt)
    · exact ⟨h₁.append h₂ h₃.toQuiet h₃.owed, fun herr => absurd ((hor _ _).mp herr).2 he⟩
  · obtain ⟨hs, err⟩ := a
    by_cases he : err = CL_SUCCESS
    · subst he
      exact hok hs w' h.1 (h.2 rfl)
    · exact hfail hs err w' he h.1.toAlong

/-! ## launches -/

variable {as : List KernelArg}

/-- After `i` launches: their events, the last of which is at hand. -/
structure Launched (i : Nat) (as : List KernelArg) (event : Handle) (w w' : World) : Prop where
  owed : ∃ l : Multiset Obj, w'.owed = l + w.owed ∧ l.map Obj.kind = Multiset.replicate i .event ∧
    (0 < i → ∃ x ∈ l, event = some x)
  args : ∀ k : Obj, k.kind ≠ .event → w'.args k = w.args k
  refused : w'.refused = w.refused
  nullLaunches : w'.nullLaunches = w.nullLaunches + i * nulls as

theorem Launched.zero : Launched 0 as none w w :=
  ⟨⟨0, by simp, rfl, fun h => absurd h (Nat.lt_irrefl 0)⟩, fun _ _ => rfl, rfl, by simp⟩

theorem Launched.mem {i : Nat} {e : Handle} {w' : World} (h : Launched i as e w w') {x : Obj}
    (hx : x ∈ w.owed) : x ∈ w'.owed := by
  obtain ⟨l, howed, -⟩ := h.owed
  simp [howed, hx]

theorem Launched.succ {i : Nat} {e : Handle} {x : Obj} {w₁ w₂ w₃ w₄ : World}
    (h : Launched i as e w w₁) (hran : w₁.Ran (nulls as) w₂) (hx : w₂.Grants .event x w₃)
    (hsame : w₃.Same w₄) : Launched (i + 1) as (some x) w w₄ where
  owed := by
    obtain ⟨l, howed, hkind, -⟩ := h.owed
    refine ⟨x ::ₘ l, ?_, ?_, fun _ => ⟨x, Multiset.mem_cons_self _ _, rfl⟩⟩
    · rw [hsame.owed, hx.owed, hran.owed, howed, Multiset.cons_add]
    · rw [Multiset.map_cons, hkind, hx.kind, Multiset.replicate_succ]
  args k hk := by rw [hsame.args, hx.args_of_ne hk, hran.args, h.args k hk]
  refused := by rw [hsame.refused, hx.refused, hran.refused, h.refused]
  nullLaunches := by
    rw [hsame.nullLaunches, hx.nullLaunches, hran.nullLaunches, h.nullLaunches, Nat.succ_mul,
      Nat.add_assoc]

/-- The events of a run that returns in the middle. -/
theorem Launched.along {i : Nat} {e : Handle} {w₀ w' w'' : World} {ks : Multiset Kind}
    (ha : w₀.Along ks w) (h : Launched i as e w w') (hsame : w'.Same w'') (hi : i ≤ 10)
    (hnull : nulls as ≠ 0 → w₀.refused < w.refused) :
    w₀.Along (Multiset.replicate 10 .event + ks) w'' := by
  obtain ⟨l, howed, hkind, -⟩ := h.owed
  have hs : StrandsAtMost (Multiset.replicate 10 .event) w w'' :=
    ⟨_, Multiset.replicate_mono _ hi, l, hkind, hsame.owed.trans howed⟩
  obtain ⟨ks', hle, hs'⟩ := ha.strands
  refine ⟨?_, (hs'.trans_atMost hs).mono (Multiset.add_le_add_iff_left.mpr hle)⟩
  refine (ha.careful.trans_nulls h.refused h.nullLaunches fun hn => hnull ?_).trans
    hsame.toQuiet.careful
  rintro hzero
  exact hn (by rw [hzero, Nat.mul_zero])

theorem holds_timed {w₀ : World} {ks : Multiset Kind} {Q : Handle → World → Prop}
    (hq : q ∈ w.owed) (hk : k ∈ w.owed) (hkind : k.kind = .kernel) (hargs : w.HasArgs k as)
    (hkept : ∀ a ∈ as, w.ArgKept a)
    (ha : w₀.Along ks w) (hnull : nulls as ≠ 0 → w₀.refused < w.refused)
    (hok : ∀ e w', Launched 10 as e w w' → Q e w')
    (hfail : ∀ w', w₀.Along (Multiset.replicate 10 .event + ks) w' → R (.ok (-1)) w') :
    Holds (timed o (some q) (some k) as.length) w Q R := by
  refine (holds_loop (fun i e w' => Launched i as e w w') 10 .zero ?_).mono hok fun _ _ => id
  intro i hi e w₁ h₁
  have hargs₁ : w₁.HasArgs k as := by
    intro j hj
    rw [h₁.args k (by simp [hkind])]
    exact hargs j hj
  refine holds_bind.mpr (holds_launchEventKept (h₁.mem hq) (h₁.mem hk) hargs₁
    (fun a ha => (hkept a ha).mono fun x => h₁.mem) (fun x w₂ w₃ h₂ h₃ => holds_bind.mpr ?_)
    fun e w₂ he h₂ => holds_bind.mpr ?_)
  · refine holds_returnIf (fun h => absurd rfl h) fun _ => holds_bind.mpr ?_
    have hq₃ : q ∈ w₃.owed := by simp [h₃.owed, h₂.owed, h₁.mem hq]
    refine holds_enqueue (by simp [hq₃]) fun _ w₄ h₄ => holds_bind.mpr ?_
    have hx {w' : World} (h : w₃.Same w') : x ∈ w'.owed := by simp [h.owed, h₃.owed]
    refine holds_enqueue (by simp [hx h₄]) fun _ w₅ h₅ => holds_bind.mpr ?_
    have h₅' := h₄.trans h₅
    refine holds_enqueue (by simp [hx h₅']) fun _ w₆ h₆ => holds_bind.mpr ?_
    have h₆' := h₅'.trans h₆
    refine holds_enqueue (by simp [hx h₆']) fun _ w₇ h₇ => holds_bind.mpr ?_
    have h₇' := h₆'.trans h₇
    refine holds_enqueue (by simp [hx h₇']) fun _ w₈ h₈ => holds_bind.mpr ?_
    have h₈' := h₇'.trans h₈
    exact holds_enqueue (by simp [hx h₈']) fun _ w₉ h₉ => h₁.succ h₂ h₃ (h₈'.trans h₉)
  · refine holds_returnIf (fun _ => hfail w₂ ?_) fun h => absurd he h
    exact Launched.along ha h₁ h₂ hi.le hnull

/-! ## runs -/

/-- The end of a run: the last event, the kernel, the program and the values. -/
theorem holds_releases {x p : Obj} {rest : Multiset Obj} (h : w.owed = x ::ₘ k ::ₘ p ::ₘ t ::ₘ rest)
    {Q : Status → World → Prop} (hok : ∀ w', w'.owed = rest → w.Quiet w' → Q CL_SUCCESS w') :
    Holds (do
      let _ ← release o (some x)
      let _ ← release o (some k)
      let _ ← release o (some p)
      dispose (some t)
      pure CL_SUCCESS) w Q R := by
  refine holds_bind.mpr (holds_release (by simp [h]) fun _ w₁ h₁ => holds_bind.mpr ?_)
  have h₁' : w₁.owed = k ::ₘ p ::ₘ t ::ₘ rest := by rw [h₁.owed, h, Multiset.erase_cons_head]
  refine holds_release (by simp [h₁']) fun _ w₂ h₂ => holds_bind.mpr ?_
  have h₂' : w₂.owed = p ::ₘ t ::ₘ rest := by rw [h₂.owed, h₁', Multiset.erase_cons_head]
  refine holds_release (by simp [h₂']) fun _ w₃ h₃ => holds_bind.mpr ?_
  have h₃' : w₃.owed = t ::ₘ rest := by rw [h₃.owed, h₂', Multiset.erase_cons_head]
  refine holds_dispose (by simp [h₃']) fun w₄ h₄ => hok w₄ ?_ ?_
  · rw [h₄.owed, h₃', Multiset.erase_cons_head]
  · exact h₁.toQuiet.trans (h₂.toQuiet.trans (h₃.toQuiet.trans h₄.toQuiet))

theorem nulls_memory (hs : List Handle) :
    nulls (hs.map .memory) = if hs.count none = 0 then 0 else 1 := by
  have hmem : .memory none ∈ hs.map KernelArg.memory ↔ ¬ hs.count none = 0 := by
    simp [List.count_eq_zero]
  rw [nulls, if_congr hmem rfl rfl, ite_not]

/-- From the program to the releases. -/
theorem holds_measure {n : Nat} {p : Obj} {w₁ : World} (hc : c ∈ w.owed) (hq : q ∈ w.owed)
    (howed₁ : w₁.owed = p ::ₘ w.owed) (hq₁ : w.Quiet w₁) (ha₁ : w.Along {.program} w₁) :
    Holds (measure o (some c) (some q) (some p) n) w₁
      (fun r w' => r = CL_SUCCESS ∧ Runs n w w') (Fails n w) := by
  have hfail {ks : Multiset Kind} {w' : World} (h : w.Along ks w')
      (hks : ks ≤ {.block, .block, .kernel, .program}) : Fails n w (.ok (-1)) w' :=
    ⟨rfl, h.mono (hks.trans ((Multiset.le_add_left _ _).trans (Multiset.le_add_left _ _)))⟩
  refine holds_bind.mpr (holds_build (by simp [howed₁]) (fun w₂ h₂ => holds_bind.mpr ?_)
    fun _ w₂ _ h₂ => hfail (ha₁.same h₂) (by decide))
  have ha₂ := ha₁.same h₂
  refine holds_acquire (by simp [h₂.owed, howed₁]) (fun k w₃ h₃ => holds_bind.mpr ?_)
    fun _ w₃ _ h₃ => hfail (ha₂.refuse h₃) (by decide)
  refine holds_malloc fun t w₄ h₄ => holds_bind.mpr (holds_malloc fun m w₅ h₅ => holds_bind.mpr ?_)
  have ha₅ : w.Along {.block, .block, .kernel, .program} w₅ := ((ha₂.grant h₃).grant h₄).grant h₅
  have hq₅ : w.Quiet w₅ := hq₁.trans (h₂.toQuiet.trans (h₃.toQuiet.trans
    (h₄.toQuiet.trans h₅.toQuiet)))
  have howed₅ : w₅.owed = m ::ₘ t ::ₘ k ::ₘ p ::ₘ w.owed := by
    rw [h₅.owed, h₄.owed, h₃.owed, h₂.owed, howed₁]
  have hfail' {w' : World} (h : w.Along (Multiset.replicate n .memObject +
      {.block, .block, .kernel, .program}) w') : Fails n w (.ok (-1)) w' :=
    ⟨rfl, h.mono (Multiset.le_add_left _ _)⟩
  refine holds_createArgs (by simp [howed₅, hc]) (by simp [howed₅]) (by simp [howed₅]) h₃.kind
    (fun hs w₆ h₆ hargs => holds_bind.mpr ?_) fun hs e w₆ he ha₆ => holds_bind.mpr ?_
  · refine holds_returnIf (fun h => absurd rfl h) fun _ => holds_bind.mpr ?_
    have ha₆ := ha₅.trans h₆.toAlong
    have howed₆ := howed₅ ▸ h₆.owed
    obtain rfl : n = (hs.map KernelArg.memory).length := by rw [List.length_map, h₆.length]
    have hkept : ∀ a ∈ hs.map KernelArg.memory, w₆.ArgKept a := by
      intro a ha
      obtain ⟨g, hg, rfl⟩ := List.mem_map.mp ha
      rintro x rfl
      simp [howed₆, List.reduceOption_mem_iff.mpr hg]
    have hnull : nulls (hs.map .memory) ≠ 0 → w.refused < w₆.refused := by
      rw [nulls_memory, h₆.refused, hq₅.refused]
      split <;> omega
    refine holds_launchKept (by simp [howed₆, hq]) (by simp [howed₆]) hargs hkept
      (fun w₇ h₇ => holds_bind.mpr ?_) fun e w₇ he h₇ => holds_bind.mpr ?_
    · refine holds_returnIf (fun h => absurd rfl h) fun _ => holds_bind.mpr ?_
      have howed₇ := h₇.owed.trans howed₆
      refine holds_enqueue (by simp [howed₇, hq]) fun _ w₈ h₈ => holds_bind.mpr ?_
      have hran := h₇.trans_same h₈
      have howed₈ := hran.owed.trans howed₆
      have ha₈ := ha₆.congr (ha₆.careful.trans_ran hran hnull) hran.owed
      refine holds_timed (by simp [howed₈, hq]) (by simp [howed₈]) h₃.kind (hargs.congr hran.args)
        (fun a ha => (hkept a ha).mono fun x hx => hran.owed ▸ hx) ha₈
        (fun hn => hran.refused ▸ hnull hn) (fun e w₉ h₉ => ?_) fun w₉ ha₉ => ⟨rfl, ha₉⟩
      obtain ⟨l, howed₉, hkind, hlast⟩ := h₉.owed
      obtain ⟨x, hx, rfl⟩ := hlast (by decide)
      obtain ⟨l', rfl⟩ := Multiset.exists_cons_of_mem hx
      have hxkind : x.kind = .event :=
        Multiset.eq_of_mem_replicate (hkind ▸ Multiset.mem_map_of_mem _ hx)
      rw [Multiset.map_cons, hxkind, Multiset.replicate_succ, Multiset.cons_inj_right] at hkind
      have hend : w₉.owed = x ::ₘ k ::ₘ p ::ₘ t ::ₘ (l' + (hs.reduceOption + m ::ₘ w.owed)) := by
        rw [howed₉, howed₈]
        simp only [← Multiset.singleton_add]
        ac_rfl
      refine holds_releases hend fun w' howed hq' => ⟨rfl, hs.count none, ?_, ?_, ?_, ?_⟩
      · rw [List.length_map]
        exact List.count_le_length
      · rw [hq'.refused, h₉.refused, hran.refused, h₆.refused, hq₅.refused]
      · refine ⟨l' + (hs.reduceOption + {m}), ?_, ?_⟩
        · have hbuffers : hs.reduceOption.map Obj.kind =
              List.replicate ((hs.map KernelArg.memory).length - hs.count none) .memObject := by
            rw [List.map_eq_replicate_iff.mpr h₆.kind, List.length_map, ← length_reduceOption hs,
              Nat.add_sub_cancel]
          rw [Multiset.map_add, Multiset.map_add, hkind, Multiset.map_coe, hbuffers,
            Multiset.map_singleton, h₅.kind, kept, Multiset.coe_replicate]
          simp only [← Multiset.singleton_add]
          ac_rfl
        · rw [howed]
          simp only [← Multiset.singleton_add]
          ac_rfl
      · rw [hq'.nullLaunches, h₉.nullLaunches, hran.nullLaunches, h₆.nullLaunches,
          hq₅.nullLaunches, nulls_memory]
        split <;> omega
    · refine holds_returnIf (fun _ => hfail' ?_) fun h => absurd he h
      exact ha₆.same h₇
  · exact holds_returnIf (fun _ => hfail' (ha₅.trans ha₆)) fun h => absurd he h

/-- **Objects of a run**: whatever the calls report, each is made on objects that
exist; a run that returns 0 keeps its buffers, a block and nine events. -/
theorem runKernelBenchmark_stranded (o : Nat → Status) (w : World) (nArgs nLines : Int)
    (hc : c ∈ w.owed) (hq : q ∈ w.owed) :
    Holds (runKernelBenchmark o (some c) (some q) nArgs nLines) w
      (fun r w' => r = CL_SUCCESS ∧ Runs nArgs.toNat w w') (Fails nArgs.toNat w) := by
  refine holds_bind.mpr (holds_genKernel hc (fun p w₁ _ howed₁ hq₁ ha₁ => holds_bind.mpr ?_)
    fun w₁ ha₁ => holds_bind.mpr (holds_returnIf (fun _ => ⟨rfl, ha₁.mono ?_⟩)
      fun h => absurd rfl h))
  · exact holds_returnIf (fun h => by simp at h) fun _ => holds_measure hc hq howed₁ hq₁ ha₁
  · exact (by decide : {Kind.block} ≤ ({.block, .block, .kernel, .program} : Multiset Kind)).trans
      ((Multiset.le_add_left _ _).trans (Multiset.le_add_left _ _))

/-- The arguments of the tests. -/
def argCount (tests : List (Int × Int)) : Nat := (tests.map fun test => test.1.toNat).sum

/-- What the tests that went through keep. -/
def Piled (tests : List (Int × Int)) (w w' : World) : Prop :=
  w.Careful w' ∧ ∃ missing ≤ argCount tests, w'.refused = w.refused + missing ∧
    Stranded (Multiset.replicate (argCount tests - missing) .memObject +
      tests.length • (.block ::ₘ Multiset.replicate 9 .event)) w w'

theorem Piled.nil : Piled [] w w :=
  ⟨World.Along.rfl.careful, 0, le_refl _, rfl, by simpa [argCount] using .of_eq rfl⟩

theorem Piled.cons {nArgs nLines : Int} {tests : List (Int × Int)} {w' w'' : World}
    (h : Runs nArgs.toNat w w') (h' : Piled tests w' w'') :
    Piled ((nArgs, nLines) :: tests) w w'' := by
  have hcareful := h.careful
  obtain ⟨missing, hle, hr, hs, -⟩ := h
  obtain ⟨hcareful', missing', hle', hr', hs'⟩ := h'
  have hcount : argCount ((nArgs, nLines) :: tests) = nArgs.toNat + argCount tests := rfl
  refine ⟨hcareful.trans hcareful', missing + missing', by omega, by omega, ?_⟩
  have hbuffers : argCount ((nArgs, nLines) :: tests) - (missing + missing') =
      (argCount tests - missing') + (nArgs.toNat - missing) := by omega
  rw [hbuffers, Multiset.replicate_add, List.length_cons, succ_nsmul]
  have h := hs.trans hs'
  rw [kept] at h
  convert h using 1
  ac_rfl

/-- The first test that fails ends the tests. -/
def Stopped (tests : List (Int × Int)) (w : World) (w' : World) : Prop :=
  ∃ before nArgs nLines after w₁, tests = before ++ (nArgs, nLines) :: after ∧
    Piled before w w₁ ∧ w₁.Along (acquired nArgs.toNat) w'

theorem holds_runTests {tests : List (Int × Int)} (hc : c ∈ w.owed) (hq : q ∈ w.owed) :
    Holds (runTests o (some c) (some q) tests) w (fun _ w' => Piled tests w w')
      (fun r w' => r = .ok 1 ∧ Stopped tests w w') := by
  induction tests generalizing w with
  | nil => exact Piled.nil
  | cons test tests ih =>
      obtain ⟨nArgs, nLines⟩ := test
      refine holds_bind.mpr (holds_call ?_)
      refine (runKernelBenchmark_stranded o w nArgs nLines hc hq).mono (fun r w₁ h₁ => ?_) ?_
      · rw [h₁.1]
        obtain ⟨_, _, _, hs₁, _⟩ := h₁.2
        refine holds_bind.mpr (holds_returnIf (fun h => absurd h (by decide)) fun _ => ?_)
        refine (ih (hs₁.mem hc) (hs₁.mem hq)).mono (fun _ w₂ h₂ => h₂.cons h₁.2) ?_
        rintro r w₂ ⟨hr, before, n, m, after, w₃, rfl, hpiled, hleft⟩
        exact ⟨hr, (nArgs, nLines) :: before, n, m, after, w₃, rfl, hpiled.cons h₁.2, hleft⟩
      · rintro _ w₁ ⟨rfl, hleft⟩
        refine holds_bind.mpr (holds_returnIf (fun _ => ⟨rfl, ?_⟩) fun h => absurd (by decide) h)
        exact ⟨[], nArgs, nLines, tests, w, rfl, .nil, hleft⟩

/-- **Objects of a device**: whatever the calls report, each is made on objects
that exist, and none is released twice; the tests that go through keep all their
buffers. -/
theorem benchDevice_stranded (o : Nat → Status) (w : World) (tests : List (Int × Int)) :
    Holds (benchDevice o tests) w (fun _ w' => Piled tests w w')
      (fun r w' => (r = .ok (-1) ∧ w.Along {.context} w') ∨
        (r = .ok 1 ∧ ∃ w₁, Stranded {.commandQueue, .context} w w₁ ∧ Stopped tests w₁ w')) := by
  refine holds_bind.mpr (holds_acquire nofun (fun c w₁ h₁ => holds_bind.mpr ?_) fun _ w₁ _ h₁ =>
    .inl ⟨rfl, (World.Along.rfl.refuse h₁).mono (Multiset.zero_le _)⟩)
  have ha₁ : w.Along {.context} w₁ := World.Along.rfl.grant h₁
  refine holds_acquire (by simp [h₁.owed]) (fun q w₂ h₂ => holds_bind.mpr ?_)
    fun _ w₂ _ h₂ => .inl ⟨rfl, ha₁.refuse h₂⟩
  have hs₂ : Stranded {.commandQueue, .context} w w₂ := ((Stranded.of_eq rfl).grant h₁).grant h₂
  have howed₂ : w₂.owed = q ::ₘ c ::ₘ w.owed := by rw [h₂.owed, h₁.owed]
  have hq₂ := h₁.toQuiet.trans h₂.toQuiet
  refine (holds_runTests (by simp [howed₂]) (by simp [howed₂])).mono
    (fun _ w₃ ⟨hcareful, missing, hle, hr, l, hl, howed₃⟩ => holds_bind.mpr ?_)
    fun r w₃ h => .inr ⟨h.1, w₂, hs₂, h.2⟩
  have howed₃' : w₃.owed = c ::ₘ q ::ₘ (l + w.owed) := by
    rw [howed₃, howed₂, Multiset.add_cons, Multiset.add_cons, Multiset.cons_swap]
  refine holds_release (by simp [howed₃']) fun _ w₄ h₄ => holds_bind.mpr ?_
  have howed₄ : w₄.owed = q ::ₘ (l + w.owed) := by
    rw [h₄.owed, howed₃', Multiset.erase_cons_head]
  refine holds_release (by simp [howed₄]) fun _ w₅ h₅ => ?_
  have hq₅ := h₄.toQuiet.trans h₅.toQuiet
  refine ⟨hq₂.careful.trans (hcareful.trans hq₅.careful), missing, hle, ?_, l, hl, ?_⟩
  · rw [hq₅.refused, hr, hq₂.refused]
  · rw [h₅.owed, howed₄, Multiset.erase_cons_head]

end

end UclBench.Released.KernelOverheads
