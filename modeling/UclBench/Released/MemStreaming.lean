import UclBench.OpenCL.Unchecked

/-!
# UclBench.Released.MemStreaming

The objects of a streaming run (`measureLocalMemory` of `mem_streaming.cpp`).

The two buffers of the global kernel are not checked: if one is missing, the
kernel is measured with a null pointer (`measureLocalMemory_released`).  The
rest of the device record is lost with each run.
-/

namespace UclBench.Released.MemStreaming

open Effect OpenCL

section
variable (o : Nat → Status)

/-- The pass that uses the whole device reads its record, and frees one of the
eight blocks. -/
def deviceInfo : Effect World (Leave Status) Unit := do
  let _ ← mallocs 7
  let sizes ← malloc
  dispose sizes

/-- `load_kernel`, the build and the kernel. -/
def makeKernel (context : Handle) : Effect World (Leave Status) (Handle × Handle) := do
  let program ← acquire o (fun _ => 1) .program [context]
  build o (fun _ => 1) program
  let kernel ← acquire o (fun _ => 1) .kernel [program]
  pure (program, kernel)

/-- `g1` and `g2` -/
def createArrays (context : Handle) (type : Nat) : Effect World (Leave Status) (Handle × Handle) :=
  if type = 2 then do
    let (g1, _) ← create o .memObject [context]
    let (g2, _) ← create o .memObject [context]
    pure (g1, g2)
  else pure (none, none)

/-- The arguments after `output`. -/
def arrays (type : Nat) (larg : Bool) (g1 g2 : Handle) : List KernelArg :=
  match type with
  | 1 => []
  | 2 => [.memory g1, .memory g2]
  | _ => if larg then [.bytes, .bytes] else []

/-- The parameters of `private_mem`, `global_mem` and `local_mem`. -/
def arity (type : Nat) (larg : Bool) : Nat :=
  match type with
  | 1 => 1
  | 2 => 3
  | _ => if larg then 3 else 1

/-- `WARMUP_CYCLES` launches, whose outcome is not looked at. -/
def warmup (commands kernel : Handle) (arity : Nat) : Effect World (Leave Status) Status :=
  loop (fun _ _ => do
    let err ← launch o commands kernel arity
    let _ ← enqueue o [commands]
    pure err) 3 CL_SUCCESS

/-- The launches that are timed. -/
def measured (commands kernel : Handle) (arity iterations : Nat) (err : Status) :
    Effect World (Leave Status) Status :=
  loop (fun _ _ => do
    let err ← launch o commands kernel arity
    returnIf (err ≠ CL_SUCCESS) 1
    let _ ← enqueue o [commands]
    pure err) iterations err

/-- The end of a pass. -/
def cleanUp (type : Nat) (hOutput output g1 g2 program kernel : Handle) :
    Effect World (Leave Status) Unit := do
  dispose hOutput
  let _ ← release o output
  when (type = 2) do
    let _ ← release o g1
    let _ ← release o g2
  let _ ← release o program
  let _ ← release o kernel

/-- `output` and the arrays of the kernel. -/
def setArguments (context kernel output : Handle) (type : Nat) (larg : Bool) :
    Effect World (Leave Status) (Handle × Handle) := do
  let err ← setKernelArg o kernel 0 (.memory output)
  let (g1, g2) ← createArrays o context type
  let err' ← setKernelArgs o kernel 1 (arrays type larg g1 g2)
  returnIf (err ||| err' ≠ CL_SUCCESS) 1
  pure (g1, g2)

/-- A pass of the loop, once `local` and `global` are chosen. -/
def measure (context commands : Handle) (type : Nat) (larg : Bool) (iterations : Nat) :
    Effect World (Leave Status) Status := do
  let (program, kernel) ← makeKernel o context
  let hOutput ← malloc
  let output ← acquire o (fun _ => 1) .memObject [context, hOutput]
  let (g1, g2) ← setArguments o context kernel output type larg
  let err ← warmup o commands kernel (arity type larg)
  let err ← measured o commands kernel (arity type larg) iterations err
  let _ ← enqueue o [commands]
  cleanUp o type hOutput output g1 g2 program kernel
  pure err

/-- The pass `ws` of the loop. -/
def pass (context commands : Handle) (type : Nat) (larg : Bool) (iterations ws : Nat) :
    Effect World (Leave Status) Status := do
  when (ws ≠ 0) deviceInfo
  measure o context commands type larg iterations

def measureLocalMemory (context commands : Handle) (type : Nat) (larg : Bool) (iterations : Nat) :
    Effect World (Leave Status) Status :=
  loop (fun ws _ => pass o context commands type larg iterations ws) 2 CL_SUCCESS

end

/-- Everything a pass creates. -/
def acquired : Multiset Kind :=
  {.memObject, .memObject, .memObject, .kernel, .program} + Multiset.replicate 8 .block

/-- The blocks of the record that a pass does not free. -/
def kept (ws : Nat) : Multiset Kind := if ws = 0 then 0 else Multiset.replicate 7 .block

/-- A failed run returns 1; it leaves at most what one pass creates. -/
def Fails (w : World) (r : Leave Status) (w' : World) : Prop := r = .ok 1 ∧ w.Along acquired w'

/-- What a run that succeeds has done: a refused buffer shows in each of the
measured launches. -/
structure Passed (type iterations : Nat) (ks : Multiset Kind) (w w' : World) : Prop
    extends w.Careful w' where
  refused_of_ne : type ≠ 2 → w'.refused = w.refused
  nullLaunches_le : w.nullLaunches ≤ w'.nullLaunches
  launched : w.refused < w'.refused → w.nullLaunches + iterations ≤ w'.nullLaunches
  stranded : Stranded ks w w'

theorem Passed.trans {type iterations : Nat} {ks ks' : Multiset Kind} {w w' w'' : World}
    (h : Passed type iterations ks w w') (h' : Passed type iterations ks' w' w'') :
    Passed type iterations (ks' + ks) w w'' where
  toCareful := h.toCareful.trans h'.toCareful
  refused_of_ne ht := (h'.refused_of_ne ht).trans (h.refused_of_ne ht)
  nullLaunches_le := h.nullLaunches_le.trans h'.nullLaunches_le
  launched hlt := by
    have hle := h.nullLaunches_le
    have hle' := h'.nullLaunches_le
    by_cases hr : w.refused < w'.refused
    · exact (h.launched hr).trans hle'
    · have := h'.launched (by omega)
      omega
  stranded := h.stranded.trans h'.stranded

/-! ## parts of a pass -/

section
variable {o : Nat → Status} {w : World} {c q k : Obj} {type : Nat} {larg : Bool}
  {R : Leave Status → World → Prop}

theorem length_arrays (g1 g2 : Handle) : (arrays type larg g1 g2).length + 1 = arity type larg := by
  unfold arrays arity
  split <;> [rfl; rfl; (cases larg <;> rfl)]

theorem holds_deviceInfo {Q : Unit → World → Prop}
    (h : ∀ w', w.Quiet w' → Stranded (Multiset.replicate 7 .block) w w' → Q () w') :
    Holds deviceInfo w Q R := by
  refine holds_bind.mpr (holds_mallocs fun l w₁ hlen hkind h₁ hq₁ => holds_bind.mpr ?_)
  refine holds_malloc fun s w₂ h₂ => holds_dispose (by simp [h₂.owed]) fun w₃ h₃ => h w₃ ?_ ?_
  · exact hq₁.trans (h₂.toQuiet.trans h₃.toQuiet)
  · refine ⟨l, ?_, by rw [h₃.owed, h₂.owed, Multiset.erase_cons_head, h₁]⟩
    rw [Multiset.map_coe, List.map_eq_replicate_iff.mpr hkind, hlen, Multiset.coe_replicate]

theorem holds_makeKernel {Q : Handle × Handle → World → Prop} (hc : c ∈ w.owed)
    (hok : ∀ p k w', k.kind = .kernel → w'.owed = k ::ₘ p ::ₘ w.owed → w.Quiet w' →
      w.Along {.kernel, .program} w' → Q (some p, some k) w')
    (hfail : ∀ w', w.Along {.program} w' → R (.ok 1) w') :
    Holds (makeKernel o (some c)) w Q R := by
  refine holds_bind.mpr (holds_acquire (by simp [hc]) (fun p w₁ h₁ => holds_bind.mpr ?_)
    fun _ w₁ _ h₁ => hfail w₁ ((World.Along.rfl.refuse h₁).mono (by decide)))
  have ha₁ : w.Along {.program} w₁ := World.Along.rfl.grant h₁
  refine holds_build (by simp [h₁.owed]) (fun w₂ h₂ => holds_bind.mpr ?_)
    fun _ w₂ _ h₂ => hfail w₂ (ha₁.same h₂)
  refine holds_acquire (by simp [h₂.owed, h₁.owed]) (fun k w₃ h₃ => ?_)
    fun _ w₃ _ h₃ => hfail w₃ ((ha₁.same h₂).refuse h₃)
  exact hok p k w₃ h₃.kind (by rw [h₃.owed, h₂.owed, h₁.owed])
    (h₁.toQuiet.trans (h₂.toQuiet.trans h₃.toQuiet)) ((ha₁.same h₂).grant h₃)

/-- The buffers of the global kernel, as far as there are any. -/
structure Created (type : Nat) (g1 g2 : Handle) (w w' : World) : Prop extends
    w.Along {.memObject, .memObject} w' where
  owed : w'.owed = held g2 + (held g1 + w.owed)
  nullLaunches : w'.nullLaunches = w.nullLaunches
  refused_of_ne : type ≠ 2 → w'.refused = w.refused ∧ g1 = none ∧ g2 = none
  refused_iff : w.refused < w'.refused ↔ type = 2 ∧ (g1 = none ∨ g2 = none)

theorem Created.quiet {g1 g2 : Handle} {w₀ w' w'' : World} (hq₀ : w₀.Quiet w)
    (h₀ : w.owed = w₀.owed) (h : Created type g1 g2 w w') (hq : w'.Quiet w'')
    (howed : w''.owed = w'.owed) : Created type g1 g2 w₀ w'' where
  toAlong := by
    have h₁ : w₀.Along 0 w := World.Along.rfl.congr hq₀.careful h₀
    exact ((h₁.trans h.toAlong).mono (by simp)).congr
      (hq₀.careful.trans (h.careful.trans hq.careful)) howed
  owed := by rw [howed, h.owed, h₀]
  nullLaunches := hq.nullLaunches.trans (h.nullLaunches.trans hq₀.nullLaunches)
  refused_of_ne hne := by
    obtain ⟨hr, hg⟩ := h.refused_of_ne hne
    exact ⟨hq.refused.trans (hr.trans hq₀.refused), hg⟩
  refused_iff := by rw [hq.refused, ← hq₀.refused, h.refused_iff]

theorem holds_createArrays {Q : Handle × Handle → World → Prop} (hc : c ∈ w.owed)
    (h : ∀ g1 g2 w', Created type g1 g2 w w' →
      (∀ k : Obj, k.kind ≠ .memObject → w'.args k = w.args k) → Q (g1, g2) w') :
    Holds (createArrays o (some c) type) w Q R := by
  refine holds_ite (fun ht => holds_bind.mpr ?_) fun ht => h none none w ?_ fun _ _ => rfl
  · refine holds_createBuffer (by simp [hc]) fun g1 _ w₁ h₁ => holds_bind.mpr ?_
    refine holds_createBuffer (by simp [h₁.owed, hc]) fun g2 _ w₂ h₂ => h g1 g2 w₂ ?_
      fun k hk => (h₂.args k hk).trans (h₁.args k hk)
    refine ⟨(World.Along.rfl.buffers h₁).buffers h₂, by rw [h₂.owed, h₁.owed],
      h₂.nullLaunches.trans h₁.nullLaunches, fun hne => absurd ht hne, ?_⟩
    rw [h₂.refused, h₁.refused]
    by_cases hg1 : g1 = none <;> by_cases hg2 : g2 = none <;>
      simp [hg1, hg2, ht, Nat.add_assoc]
  · exact ⟨World.Along.rfl.mono (by simp), by simp, rfl, fun _ => ⟨rfl, rfl, rfl⟩, by simp [ht]⟩

theorem holds_setArguments {x : Obj} {Q : Handle × Handle → World → Prop} (hc : c ∈ w.owed)
    (hk : k ∈ w.owed) (hkind : k.kind = .kernel)
    (hok : ∀ g1 g2 w', Created type g1 g2 w w' →
      w'.HasArgs k (.memory (some x) :: arrays type larg g1 g2) → Q (g1, g2) w')
    (hfail : ∀ w', w.Along {.memObject, .memObject} w' → R (.ok 1) w') :
    Holds (setArguments o (some c) (some k) (some x) type larg) w Q R := by
  have hor (e e' : Status) : e ||| e' = CL_SUCCESS ↔ e = CL_SUCCESS ∧ e' = CL_SUCCESS :=
    Int32.or_eq_zero_iff
  have hmem {g1 g2 : Handle} {w₁ w₂ : World} (h₁ : w₁.owed = w.owed)
      (h₂ : Created type g1 g2 w₁ w₂) : k ∈ w₂.owed := by simp [h₂.owed, h₁, hk]
  refine holds_bind.mpr (holds_setKernelArg hk (fun w₁ h₁ => holds_bind.mpr ?_)
    fun e w₁ he h₁ => holds_bind.mpr ?_)
  · refine holds_createArrays (by rwa [h₁.owed]) fun g1 g2 w₂ h₂ hargs => holds_bind.mpr ?_
    refine holds_setKernelArgs (hmem h₁.owed h₂) (fun w₃ h₃ => holds_bind.mpr ?_)
      fun e w₃ he howed hq => holds_bind.mpr ?_
    · refine holds_returnIf (fun h => absurd ((hor _ _).mpr ⟨rfl, rfl⟩) h) fun _ => hok g1 g2 w₃
        (h₂.quiet h₁.toQuiet h₁.owed h₃.toQuiet h₃.owed) ?_
      rintro (_ | j) hj
      · simp [h₃.other 0 Nat.zero_lt_one, hargs k (by simp [hkind]), h₁.args]
      · have hset := h₃.set j (by simpa using hj)
        rwa [Nat.add_comm 1 j] at hset
    · refine holds_returnIf (fun _ => hfail w₃ ?_) fun h => absurd ((hor _ _).mp (not_not.mp h)).2 he
      exact (h₂.quiet h₁.toQuiet h₁.owed hq howed).toAlong
  · refine holds_createArrays (by rwa [h₁.owed]) fun g1 g2 w₂ h₂ _ => holds_bind.mpr ?_
    have hleave (e' : Status) (w₃ : World) {Q' : Unit → World → Prop} (howed : w₃.owed = w₂.owed)
        (hq : w₂.Quiet w₃) : Holds (returnIf (e ||| e' ≠ CL_SUCCESS) 1) w₃ Q' R := by
      refine holds_returnIf (fun _ => hfail w₃ ?_)
        fun h => absurd ((hor _ _).mp (not_not.mp h)).1 he
      exact (h₂.quiet h₁.toQuiet h₁.owed hq howed).toAlong
    exact holds_setKernelArgs (hmem h₁.owed h₂)
      (fun w₃ h₃ => holds_bind.mpr (hleave _ w₃ h₃.owed h₃.toQuiet))
      fun _ w₃ _ howed hq => holds_bind.mpr (hleave _ w₃ howed hq)

/-- No buffer of the arrays is released before the launch. -/
theorem Created.argKept {g1 g2 : Handle} {w' : World} {a : KernelArg} (h : Created type g1 g2 w w')
    (ha : a ∈ arrays type larg g1 g2) : w'.ArgKept a := by
  have hcases : a = .memory g1 ∨ a = .memory g2 ∨ a = .bytes := by
    unfold arrays at ha
    split at ha <;> grind
  rcases hcases with rfl | rfl | rfl
  · rintro x rfl
    simp [h.owed]
  · rintro x rfl
    simp [h.owed]
  · trivial

/-- A null pointer reaches the kernel exactly if a buffer was refused. -/
theorem nulls_arrays {g1 g2 : Handle} {x : Obj} {w' : World} (h : Created type g1 g2 w w') :
    nulls (.memory (some x) :: arrays type larg g1 g2) = if w.refused < w'.refused then 1 else 0 := by
  unfold nulls
  refine if_congr ?_ rfl rfl
  rw [h.refused_iff]
  by_cases ht : type = 2
  · simp [ht, arrays, eq_comm]
  · have hnone : KernelArg.memory none ∉ arrays type larg g1 g2 := by
      unfold arrays
      split <;> [simp; exact absurd rfl ht; (cases larg <;> simp)]
    simp [ht, hnone]

/-! ## launches -/

variable {as : List KernelArg}

theorem holds_warmup {Q : Status → World → Prop} (hq : q ∈ w.owed) (hk : k ∈ w.owed)
    (hargs : w.HasArgs k as) (hkept : ∀ a ∈ as, w.ArgKept a)
    (h : ∀ e n w', w.Ran (n * nulls as) w' → Q e w') :
    Holds (warmup o (some q) (some k) as.length) w Q R := by
  refine (holds_loop (fun _ _ w' => ∃ n, w.Ran (n * nulls as) w') 3 ⟨0, ?_⟩ ?_).mono
    (fun e w' ⟨n, hw⟩ => h e n w' hw) fun _ _ => id
  · simpa using World.Same.ran ⟨⟨rfl, rfl⟩, rfl, rfl⟩
  · rintro i - e w₁ ⟨n, h₁⟩
    refine holds_bind.mpr (holds_launchKept (by rwa [h₁.owed]) (by rwa [h₁.owed])
      (hargs.congr h₁.args) (fun a ha => (hkept a ha).mono fun x hx => h₁.owed ▸ hx)
      (fun w₂ h₂ => holds_bind.mpr ?_) fun e w₂ _ h₂ => holds_bind.mpr ?_)
    · have h₂' := h₁.trans h₂
      refine holds_enqueue (by simpa [h₂'.owed] using hq) fun _ w₃ h₃ => ⟨n + 1, ?_⟩
      rw [Nat.succ_mul]
      exact h₂'.trans_same h₃
    · have h₂' := h₁.trans_same h₂
      exact holds_enqueue (by simpa [h₂'.owed] using hq) fun _ w₃ h₃ => ⟨n, h₂'.trans_same h₃⟩

theorem holds_measured {e : Status} {iterations : Nat} {Q : Status → World → Prop} (hq : q ∈ w.owed)
    (hk : k ∈ w.owed) (hargs : w.HasArgs k as) (hkept : ∀ a ∈ as, w.ArgKept a)
    (hok : ∀ e' w', w.Ran (iterations * nulls as) w' → (e' = CL_SUCCESS ∨ iterations = 0) → Q e' w')
    (hfail : ∀ n w', w.Ran (n * nulls as) w' → R (.ok 1) w') :
    Holds (measured o (some q) (some k) as.length iterations e) w Q R := by
  refine (holds_loop (fun i e' w' => w.Ran (i * nulls as) w' ∧ (e' = CL_SUCCESS ∨ i = 0))
    iterations ⟨?_, .inr rfl⟩ ?_).mono (fun e' w' hw => hok e' w' hw.1 hw.2) fun _ _ => id
  · simpa using World.Same.ran ⟨⟨rfl, rfl⟩, rfl, rfl⟩
  · rintro i - e' w₁ ⟨h₁, -⟩
    refine holds_bind.mpr (holds_launchKept (by rwa [h₁.owed]) (by rwa [h₁.owed])
      (hargs.congr h₁.args) (fun a ha => (hkept a ha).mono fun x hx => h₁.owed ▸ hx)
      (fun w₂ h₂ => holds_bind.mpr ?_) fun e w₂ he h₂ => holds_bind.mpr ?_)
    · refine holds_returnIf (fun h => absurd rfl h) fun _ => holds_bind.mpr ?_
      have h₂' := h₁.trans h₂
      refine holds_enqueue (by simpa [h₂'.owed] using hq) fun _ w₃ h₃ => ⟨?_, .inl rfl⟩
      rw [Nat.succ_mul]
      exact h₂'.trans_same h₃
    · exact holds_returnIf (fun _ => hfail i w₂ (h₁.trans_same h₂)) fun h => absurd he h

/-- Nothing of the pass is left. -/
theorem holds_cleanUp {g1 g2 : Handle} {b x p : Obj} {owed : Multiset Obj} {Q : Unit → World → Prop}
    (hne : type ≠ 2 → g1 = none ∧ g2 = none)
    (howed : w.owed = held g2 + (held g1 + x ::ₘ b ::ₘ k ::ₘ p ::ₘ owed))
    (h : ∀ w', w'.owed = owed → w.Quiet w' → Q () w') :
    Holds (cleanUp o type (some b) (some x) g1 g2 (some p) (some k)) w Q R := by
  refine holds_bind.mpr (holds_dispose (by simp [howed]) fun w₁ h₁ => holds_bind.mpr ?_)
  have h₁' : w₁.owed = x ::ₘ (held g2 + (held g1 + k ::ₘ p ::ₘ owed)) := by
    rw [h₁.owed, howed]
    simp [Multiset.add_cons, Multiset.erase_cons_tail_of_mem]
  refine holds_release (by simp [h₁']) fun _ w₂ h₂ => holds_bind.mpr ?_
  have h₂' : w₂.owed = held g2 + (held g1 + k ::ₘ p ::ₘ owed) := by
    rw [h₂.owed, h₁', Multiset.erase_cons_head]
  have hq₂ := h₁.toQuiet.trans h₂.toQuiet
  have hrest (w₃ : World) (h₃ : w₃.owed = k ::ₘ p ::ₘ owed) (hq₃ : w.Quiet w₃) :
      Holds (do
        let _ ← release o (some p)
        let _ ← release o (some k)) w₃ Q R := by
    refine holds_bind.mpr (holds_release (by simp [h₃]) fun _ w₄ h₄ => holds_bind.mpr ?_)
    have h₄' : w₄.owed = k ::ₘ owed := by
      rw [h₄.owed, h₃, Multiset.cons_swap, Multiset.erase_cons_head]
    refine holds_release (by simp [h₄']) fun _ w₅ h₅ => holds_pure.mpr (h w₅ ?_ ?_)
    · rw [h₅.owed, h₄', Multiset.erase_cons_head]
    · exact hq₃.trans (h₄.toQuiet.trans h₅.toQuiet)
  refine holds_when (fun ht => holds_bind.mpr ?_) fun ht => ?_
  · rw [add_left_comm] at h₂'
    refine holds_releaseHeld h₂' fun _ w₃ h₃ hq₃ => holds_bind.mpr ?_
    exact holds_releaseHeld h₃ fun _ w₄ h₄ hq₄ => hrest w₄ h₄ (hq₂.trans (hq₃.trans hq₄))
  · obtain ⟨rfl, rfl⟩ := hne ht
    exact hrest w₂ (by simpa using h₂') hq₂

/-! ## runs -/

/-- The measured launches tell whether a buffer is missing. -/
theorem holds_measure {iterations : Nat} (hc : c ∈ w.owed) (hq : q ∈ w.owed) :
    Holds (measure o (some c) (some q) type larg iterations) w
      (fun r w' => (r = CL_SUCCESS ∨ iterations = 0) ∧ Passed type iterations 0 w w')
      (fun r w' => r = .ok 1 ∧
        w.Along {.memObject, .memObject, .memObject, .block, .kernel, .program} w') := by
  refine holds_bind.mpr (holds_makeKernel hc (fun p k w₁ hkind howed₁ hq₁ ha₁ => holds_bind.mpr ?_)
    fun w₁ ha₁ => ⟨rfl, ha₁.mono (by decide)⟩)
  refine holds_malloc fun b w₂ h₂ => holds_bind.mpr ?_
  have ha₂ := ha₁.grant h₂
  refine holds_acquire (by simp [h₂.owed, howed₁, hc]) (fun x w₃ h₃ => holds_bind.mpr ?_)
    fun _ w₃ _ h₃ => ⟨rfl, (ha₂.refuse h₃).mono (by decide)⟩
  have ha₃ := ha₂.grant h₃
  have howed₃ : w₃.owed = x ::ₘ b ::ₘ k ::ₘ p ::ₘ w.owed := by rw [h₃.owed, h₂.owed, howed₁]
  have hq₃ := hq₁.trans (h₂.toQuiet.trans h₃.toQuiet)
  refine holds_setArguments (x := x) (by simp [howed₃, hc]) (by simp [howed₃]) hkind
    (fun g1 g2 w₄ h₄ hargs => ?_) fun w₄ ha₄ => ⟨rfl, ha₃.trans ha₄⟩
  have ha₄ := ha₃.trans h₄.toAlong
  have howed₄ := h₄.owed
  rw [howed₃] at howed₄
  have hkept : ∀ a ∈ KernelArg.memory (some x) :: arrays type larg g1 g2, w₄.ArgKept a := by
    intro a ha
    rcases List.mem_cons.mp ha with rfl | ha
    · rintro y ⟨⟩
      simp [howed₄]
    · exact h₄.argKept ha
  have hnull (n : Nat) : n * nulls (.memory (some x) :: arrays type larg g1 g2) ≠ 0 →
      w.refused < w₄.refused := by
    rw [nulls_arrays h₄, ← hq₃.refused]
    split
    · next h => exact fun _ => h
    · exact fun h => absurd (Nat.mul_zero n) h
  rw [← length_arrays g1 g2, ← List.length_cons]
  refine holds_bind.mpr (holds_warmup (by simp [howed₄, hq]) (by simp [howed₄]) hargs hkept
    fun e n w₅ h₅ => holds_bind.mpr ?_)
  refine holds_measured (by simp [h₅.owed, howed₄, hq]) (by simp [h₅.owed, howed₄])
    (hargs.congr h₅.args) (fun a ha => (hkept a ha).mono fun x hx => h₅.owed ▸ hx) (fun e w₆ h₆ he => ?_)
    fun m w₆ h₆ => ⟨rfl, ?_⟩
  · refine holds_bind.mpr (holds_enqueue (by simp [h₆.owed, h₅.owed, howed₄, hq]) fun _ w₇ h₇ => ?_)
    have hran := (h₅.trans h₆).trans_same h₇
    rw [← Nat.add_mul] at hran
    refine holds_bind.mpr (holds_cleanUp (fun hne => (h₄.refused_of_ne hne).2)
      (hran.owed.trans howed₄) fun w₈ howed₈ hq₈ => ⟨he, ?_⟩)
    have hrefused : w₈.refused = w₄.refused := hq₈.refused.trans hran.refused
    have hnulls : w₈.nullLaunches = w.nullLaunches +
        (n + iterations) * nulls (.memory (some x) :: arrays type larg g1 g2) := by
      rw [hq₈.nullLaunches, hran.nullLaunches, h₄.nullLaunches, hq₃.nullLaunches]
    exact {
      toCareful := (ha₄.careful.trans_ran hran (hnull _)).trans hq₈.careful
      refused_of_ne := fun hne => by rw [hrefused, (h₄.refused_of_ne hne).1, hq₃.refused]
      nullLaunches_le := by rw [hnulls]; exact Nat.le_add_right _ _
      launched := fun hlt => by
        rw [hrefused, ← hq₃.refused] at hlt
        rw [hnulls, nulls_arrays h₄, if_pos hlt]
        omega
      stranded := .of_eq howed₈ }
  · have hran := h₅.trans h₆
    rw [← Nat.add_mul] at hran
    exact ha₄.congr (ha₄.careful.trans_ran hran (hnull _)) hran.owed

/-- A pass releases its objects, but not the device record. -/
theorem holds_pass {iterations ws : Nat} (hc : c ∈ w.owed) (hq : q ∈ w.owed) :
    Holds (pass o (some c) (some q) type larg iterations ws) w
      (fun r w' => (r = CL_SUCCESS ∨ iterations = 0) ∧ Passed type iterations (kept ws) w w')
      (Fails w) := by
  have hrun (w₁ : World) (hq₁ : w.Quiet w₁) (hs₁ : Stranded (kept ws) w w₁) :
      Holds (measure o (some c) (some q) type larg iterations) w₁
        (fun r w' => (r = CL_SUCCESS ∨ iterations = 0) ∧ Passed type iterations (kept ws) w w')
        (Fails w) := by
    refine (holds_measure (hs₁.mem hc) (hs₁.mem hq)).mono (fun r w' h => ⟨h.1, ?_⟩)
      fun r w' h => ⟨h.1, ?_⟩
    · have hfirst : Passed type iterations (kept ws) w w₁ := ⟨hq₁.careful, fun _ => hq₁.refused,
        hq₁.nullLaunches.ge, fun hlt => absurd hq₁.refused hlt.ne', hs₁⟩
      exact Multiset.zero_add (kept ws) ▸ hfirst.trans h.2
    · have hfirst : w.Along (kept ws) w₁ := ⟨hq₁.careful, _, le_refl _, hs₁⟩
      refine (hfirst.trans h.2).mono ?_
      unfold kept
      split <;> decide
  refine holds_bind.mpr (holds_when (fun hws => ?_) fun hws => ?_)
  · refine holds_deviceInfo fun w₁ hq₁ hs₁ => hrun w₁ hq₁ ?_
    rwa [kept, if_neg hws]
  · refine hrun w ⟨rfl, rfl⟩ ?_
    rw [kept, if_pos (not_not.mp hws)]
    exact .of_eq rfl

/-- **Objects of a run**: whatever the calls report, each is made on objects that
exist; a run that goes through keeps seven blocks of the device record, and has
launched null pointers throughout if a buffer of the global kernel was refused. -/
theorem measureLocalMemory_released (o : Nat → Status) (w : World) (type : Nat) (larg : Bool)
    (iterations : Nat) (hc : c ∈ w.owed) (hq : q ∈ w.owed) :
    Holds (measureLocalMemory o (some c) (some q) type larg iterations) w
      (fun r w' => (r = CL_SUCCESS ∨ iterations = 0) ∧
        Passed type iterations (Multiset.replicate 7 .block) w w')
      (Fails w) := by
  refine (holds_loop (fun ws r w' => (r = CL_SUCCESS ∨ iterations = 0) ∧
    Passed type iterations (kept (ws - 1)) w w') 2 ⟨.inl rfl, ?_⟩ ?_).mono (fun _ _ => id)
    fun _ _ => id
  · exact ⟨⟨le_refl _, fun _ => rfl⟩, fun _ => rfl, le_refl _, fun h => absurd h (lt_irrefl _),
      .of_eq rfl⟩
  · rintro ws hws r w₁ ⟨-, h₁⟩
    have hkept : kept (ws - 1) = 0 := by
      rw [kept, if_pos (by omega)]
    have h₁' := hkept ▸ h₁
    refine (holds_pass (h₁.stranded.mem hc) (h₁.stranded.mem hq)).mono
      (fun r w₂ h₂ => ⟨h₂.1, ?_⟩) fun r w₂ h₂ => ⟨h₂.1, ?_⟩
    · exact Multiset.add_zero (kept ws) ▸ h₁'.trans h₂.2
    · have hfirst : w.Along 0 w₁ := ⟨h₁.toCareful, _, le_refl _, h₁'.stranded⟩
      exact Multiset.add_zero acquired ▸ hfirst.trans h₂.2

/-- Before a run: a context and a queue. -/
def host : World := (World.empty.grant .context).grant .commandQueue

/-- `g1` of the first pass is not created, and the kernel is launched without it. -/
theorem measureLocalMemory_released_global :
    ⟨.context, 0⟩ ∈ host.owed ∧ ⟨.commandQueue, 1⟩ ∈ host.owed ∧
      ∃ o : Nat → Status, o 5 = -4 ∧ (∀ i ≠ 5, o i = 0) ∧
        Holds (measureLocalMemory o (some ⟨.context, 0⟩) (some ⟨.commandQueue, 1⟩) 2 false 10) host
          (fun r w' => (r = CL_SUCCESS ∨ 10 = 0) ∧
            Passed 2 10 (Multiset.replicate 7 .block) host w')
          (Fails host) := by
  obtain ⟨o, hfive, hrest⟩ : ∃ o : Nat → Status, o 5 = -4 ∧ ∀ i ≠ 5, o i = 0 :=
    ⟨Function.update (fun _ => 0) 5 (-4), Function.update_self .., fun _ hi => Function.update_of_ne hi ..⟩
  exact ⟨by decide, by decide, o, hfive, hrest,
    measureLocalMemory_released o host 2 false 10 (by decide) (by decide)⟩

end

end UclBench.Released.MemStreaming
