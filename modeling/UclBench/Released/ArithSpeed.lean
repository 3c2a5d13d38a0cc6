import UclBench.OpenCL.Returns

/-!
# UclBench.Released.ArithSpeed

The objects of an arithmetic run (`genKernel` and `run_benchmark` of
`arith_speed.cpp`).

A run that returns 0 has released everything, any other returns 1; it leaves at
most what it had created, and its kernel is never launched with a null pointer
(`runBenchmark_released`).
-/

namespace UclBench.Released.ArithSpeed

open Effect OpenCL

section
variable (o : Nat → Status)

/-- `genKernel`: the kernel and `*err`.  Which vector types are accepted does
not matter here. -/
def genKernel (context : Handle) (badType : Prop) [Decidable badType] :
    Effect World (Leave (Handle × Status)) (Handle × Status) := do
  let kernelCode ← malloc
  returnIf badType (none, -1000)
  let program ← acquire o (none, ·) .program [context]
  build o (none, ·) program
  let kernel ← acquire o (none, ·) .kernel [program]
  let _ ← release o program
  dispose kernelCode
  pure (kernel, CL_SUCCESS)

/-- `transferDataToDevice` and `transferDataFromDevice`. -/
def transferData (commands buffer data : Handle) : Effect World (Leave Status) Status := do
  let err ← enqueue o [commands, buffer, data]
  let _ ← enqueue o [commands]
  pure err

/-- The launch, the read-back and the consistency check, whose outcome is up to
the run. -/
def execute (commands kernel output data results : Handle) (check : Prop) [Decidable check] :
    Effect World (Leave Status) Handle := do
  let (event, err) ← launchEvent o commands kernel 3
  returnIf (err ≠ CL_SUCCESS) 1
  perform o (fun _ => 1) [commands]
  let err ← transferData o commands output results
  returnIf (err ≠ CL_SUCCESS) 1
  when check do
    let differs ← enqueue o [data, results]
    returnIf (differs ≠ 0) 1
  pure event

/-- The profiling information, and the end of a run. -/
def cleanUp (event input output kernel data results : Handle) : Effect World (Leave Status) Status := do
  let _ ← enqueue o [event]
  let _ ← enqueue o [event]
  let _ ← release o input
  let _ ← release o output
  let _ ← release o kernel
  let _ ← release o event
  freeAll [data, results]
  pure CL_SUCCESS

/-- `run_benchmark` -/
def runBenchmark (context commands : Handle) (badType check : Prop) [Decidable badType]
    [Decidable check] : Effect World (Leave Status) Status := do
  let data ← malloc
  let results ← malloc
  let (kernel, err) ← call (genKernel o context badType)
  when (kernel = none ∨ err ≠ CL_SUCCESS) do
    dispose data
    dispose results
    leave (.ok 1)
  let (input, err) ← create o .memObject [context]
  let (output, _) ← create o .memObject [context]
  returnIf (input = none ∨ output = none ∨ err ≠ CL_SUCCESS) 1
  let err ← setKernelArgs o kernel 0 [.memory input, .memory output, .bytes]
  returnIf (err ≠ CL_SUCCESS) 1
  let err ← transferData o commands input data
  returnIf (err ≠ CL_SUCCESS) 1
  let _ ← enqueue o [commands]
  let event ← execute o commands kernel output data results check
  cleanUp o event input output kernel data results

end

/-- Everything a run creates. -/
def acquired : Multiset Kind :=
  {.event, .memObject, .memObject, .kernel, .program, .block, .block}

/-- A failed run returns 1 and has launched nothing with a null pointer. -/
def Fails (w : World) (r : Leave Status) (w' : World) : Prop :=
  r = .ok 1 ∧ w'.nullLaunches = w.nullLaunches ∧ StrandsAtMost acquired w w'

section
variable {o : Nat → Status} {w : World} {c q : Obj}

theorem holds_genKernel {badType : Prop} [Decidable badType] {β : Type}
    {Q : Handle × Status → World → Prop} {R : Leave β → World → Prop} (hc : c ∈ w.owed)
    (hok : ∀ k w', k.kind = .kernel → w'.owed = k ::ₘ w.owed →
      w'.nullLaunches = w.nullLaunches → Q (some k, CL_SUCCESS) w')
    (hfail : ∀ e w', w'.nullLaunches = w.nullLaunches →
      StrandsAtMost {.program, .block} w w' → Q (none, e) w') :
    Holds (call (genKernel o (some c) badType) : Effect World (Leave β) _) w Q R := by
  refine holds_call (holds_bind.mpr (holds_malloc fun s w₁ h₁ => holds_bind.mpr ?_))
  have hs₁ : Stranded {.block} w w₁ := (Stranded.of_eq rfl).grant h₁
  have hn₁ := h₁.nullLaunches
  refine holds_returnIf (fun _ => hfail _ _ hn₁ ⟨_, by decide, hs₁⟩) fun _ => holds_bind.mpr ?_
  refine holds_acquire (by simp [h₁.owed, hc]) (fun p w₂ h₂ => holds_bind.mpr ?_)
    fun e w₂ _ h₂ => hfail _ _ (h₂.nullLaunches.trans hn₁) ⟨_, by decide, hs₁.congr h₂.owed⟩
  have hs₂ : Stranded {.program, .block} w w₂ := hs₁.grant h₂
  have hn₂ := h₂.nullLaunches.trans hn₁
  refine holds_build (by simp [h₂.owed]) (fun w₃ h₃ => holds_bind.mpr ?_)
    fun e w₃ _ h₃ => hfail _ _ (h₃.nullLaunches.trans hn₂) ⟨_, by decide, hs₂.congr h₃.owed⟩
  have hs₃ := hs₂.congr h₃.owed
  have hn₃ := h₃.nullLaunches.trans hn₂
  refine holds_acquire (by simp [h₃.owed, h₂.owed]) (fun k w₄ h₄ => holds_bind.mpr ?_)
    fun e w₄ _ h₄ => hfail _ _ (h₄.nullLaunches.trans hn₃) ⟨_, by decide, hs₃.congr h₄.owed⟩
  have hbase : w₄.owed = k ::ₘ p ::ₘ s ::ₘ w.owed := by rw [h₄.owed, h₃.owed, h₂.owed, h₁.owed]
  refine holds_release (by simp [hbase]) fun _ w₅ h₅ => holds_bind.mpr ?_
  refine holds_dispose (by simp [h₅.owed, hbase, Multiset.erase_cons_tail_of_mem])
    fun w₆ h₆ => hok k w₆ h₄.kind ?_ ?_
  · simp [h₆.owed, h₅.owed, hbase, Multiset.erase_cons_tail_of_mem]
  · rw [h₆.nullLaunches, h₅.nullLaunches, h₄.nullLaunches, hn₃]

theorem holds_transferData {b d : Obj} {Q : Status → World → Prop} {R : Leave Status → World → Prop}
    (hq : q ∈ w.owed) (hb : b ∈ w.owed) (hd : d ∈ w.owed) (h : ∀ e w', w.Same w' → Q e w') :
    Holds (transferData o (some q) (some b) (some d)) w Q R := by
  refine holds_bind.mpr (holds_enqueue (by simp [hq, hb, hd]) fun e w₁ h₁ => holds_bind.mpr ?_)
  exact holds_enqueue (by simp [h₁.owed, hq]) fun _ w₂ h₂ => h e w₂ (h₁.trans h₂)

/-- With all arguments set, the event is the only thing that is left. -/
theorem holds_execute {check : Prop} [Decidable check] {k y d r : Obj} {x : Obj}
    {Q : Handle → World → Prop} {R : Leave Status → World → Prop} (hq : q ∈ w.owed)
    (hk : k ∈ w.owed) (hx : x ∈ w.owed) (hy : y ∈ w.owed) (hd : d ∈ w.owed) (hr : r ∈ w.owed)
    (hargs : w.HasArgs k [.memory (some x), .memory (some y), .bytes])
    (hok : ∀ e w', e.kind = .event → w'.owed = e ::ₘ w.owed → w'.nullLaunches = w.nullLaunches →
      Q (some e) w')
    (hfail : ∀ w', w'.nullLaunches = w.nullLaunches → StrandsAtMost {.event} w w' → R (.ok 1) w') :
    Holds (execute o (some q) (some k) (some y) (some d) (some r) check) w Q R := by
  refine holds_bind.mpr (holds_launchLive hq hk hargs (by simp [World.ArgLive, hx, hy])
    (fun e w₂ hkind howed hn => holds_bind.mpr ?_) fun _ w₁ he h₁ => ?_)
  · have hleft (w' : World) (h : w'.owed = w₂.owed) : StrandsAtMost {.event} w w' := by
      refine ⟨{.event}, le_refl _, {e}, by simp [hkind], ?_⟩
      rw [h, howed, Multiset.singleton_add]
    have hfail' (w' : World) (h : w₂.Same w') : R (.ok 1) w' :=
      hfail w' (h.nullLaunches.trans hn) (hleft w' h.owed)
    refine holds_returnIf (fun h => absurd rfl h) fun _ => holds_bind.mpr ?_
    refine holds_perform (by simp [howed, hq]) (fun w₃ h₃ => holds_bind.mpr ?_)
      fun _ w₃ _ => hfail' w₃
    refine holds_transferData (by simp [h₃.owed, howed, hq]) (by simp [h₃.owed, howed, hy])
      (by simp [h₃.owed, howed, hr]) fun _ w₄ h₄ => holds_bind.mpr ?_
    have h₄' := h₃.trans h₄
    refine holds_returnIf (fun _ => hfail' w₄ h₄') fun _ => holds_bind.mpr ?_
    have hdone (w' : World) (h : w₂.Same w') : Q (some e) w' :=
      hok e w' hkind (h.owed.trans howed) (h.nullLaunches.trans hn)
    refine holds_when (fun _ => holds_bind.mpr ?_) fun _ => hdone w₄ h₄'
    refine holds_enqueue (by simp [h₄'.owed, howed, hd, hr]) fun _ w₅ h₅ => ?_
    have h₅' := h₄'.trans h₅
    exact holds_returnIf (fun _ => hfail' w₅ h₅') fun _ => hdone w₅ h₅'
  · refine holds_bind.mpr (holds_returnIf (fun _ => ?_) fun h => absurd he h)
    exact hfail w₁ h₁.nullLaunches ⟨0, by simp, .of_eq h₁.owed⟩

theorem holds_cleanUp {e x y k d r : Obj} {owed : Multiset Obj} {R : Leave Status → World → Prop}
    (h : w.owed = e ::ₘ y ::ₘ x ::ₘ k ::ₘ r ::ₘ d ::ₘ owed) :
    Holds (cleanUp o (some e) (some x) (some y) (some k) (some d) (some r)) w
      (fun s w' => s = CL_SUCCESS ∧ w'.owed = owed ∧ w'.nullLaunches = w.nullLaunches) R := by
  refine holds_bind.mpr (holds_enqueue (by simp [h]) fun _ w₁ h₁ => holds_bind.mpr ?_)
  refine holds_enqueue (by simp [h₁.owed, h]) fun _ w₂ h₂ => holds_bind.mpr ?_
  have howed : w₂.owed = e ::ₘ y ::ₘ x ::ₘ k ::ₘ r ::ₘ d ::ₘ owed := by rw [h₂.owed, h₁.owed, h]
  refine holds_release (by simp [howed]) fun _ w₃ h₃ => holds_bind.mpr ?_
  have h₃' : w₃.owed = e ::ₘ y ::ₘ k ::ₘ r ::ₘ d ::ₘ owed := by
    simp [h₃.owed, howed, Multiset.erase_cons_tail_of_mem]
  refine holds_release (by simp [h₃']) fun _ w₄ h₄ => holds_bind.mpr ?_
  have h₄' : w₄.owed = e ::ₘ k ::ₘ r ::ₘ d ::ₘ owed := by
    simp [h₄.owed, h₃', Multiset.erase_cons_tail_of_mem]
  refine holds_release (by simp [h₄']) fun _ w₅ h₅ => holds_bind.mpr ?_
  have h₅' : w₅.owed = e ::ₘ r ::ₘ d ::ₘ owed := by
    simp [h₅.owed, h₄', Multiset.erase_cons_tail_of_mem]
  refine holds_release (by simp [h₅']) fun _ w₆ h₆ => holds_bind.mpr ?_
  have h₆' : w₆.owed = ([d, r] : List Obj) + owed := by
    simp [h₆.owed, h₅', ← Multiset.cons_coe, Multiset.cons_swap d r]
  refine holds_freeAll (l := [d, r]) h₆' fun w₇ h₇ hquiet => ⟨rfl, h₇, ?_⟩
  rw [hquiet.nullLaunches, h₆.nullLaunches, h₅.nullLaunches, h₄.nullLaunches, h₃.nullLaunches,
    h₂.nullLaunches, h₁.nullLaunches]

/-- **Objects of a run**: whatever the calls report, each is made on objects that
exist; a run that returns 0 has released everything, any other returns 1. -/
theorem runBenchmark_released (o : Nat → Status) (w : World) (badType check : Prop)
    [Decidable badType] [Decidable check] (hc : c ∈ w.owed) (hq : q ∈ w.owed) :
    Holds (runBenchmark o (some c) (some q) badType check) w
      (fun r w' => r = CL_SUCCESS ∧ w'.owed = w.owed ∧ w'.nullLaunches = w.nullLaunches)
      (Fails w) := by
  refine holds_bind.mpr (holds_malloc fun d w₁ h₁ => holds_bind.mpr (holds_malloc fun r w₂ h₂ =>
    holds_bind.mpr ?_))
  have hs₂ : Stranded {.block, .block} w w₂ := ((Stranded.of_eq rfl).grant h₁).grant h₂
  have hn₂ := h₂.nullLaunches.trans h₁.nullLaunches
  have hbase : w₂.owed = r ::ₘ d ::ₘ w.owed := by rw [h₂.owed, h₁.owed]
  refine holds_genKernel (by simp [hbase, hc]) (fun k w₃ hkind h₃ hn => holds_bind.mpr ?_)
    fun e w₃ hn hleft => holds_bind.mpr ?_
  · refine holds_when (fun h => by simp at h) fun _ => holds_bind.mpr ?_
    have hs₃ : Stranded {.kernel, .block, .block} w w₃ := hs₂.cons hkind h₃
    have hn₃ := hn.trans hn₂
    have hfail {ks : Multiset Kind} (w' : World) (hs : Stranded ks w w') (hks : ks ≤ acquired)
        (h : w'.nullLaunches = w₃.nullLaunches) : Fails w (.ok 1) w' :=
      ⟨rfl, h.trans hn₃, ks, hks, hs⟩
    refine holds_create (by simp [h₃, hbase, hc]) (fun x w₄ h₄ => holds_bind.mpr ?_)
      fun e w₄ he h₄ => holds_bind.mpr ?_
    · have hs₄ : Stranded {.memObject, .kernel, .block, .block} w w₄ := hs₃.grant h₄
      refine holds_create (by simp [h₄.owed, h₃, hbase, hc]) (fun y w₅ h₅ => holds_bind.mpr ?_)
        fun e w₅ he h₅ => holds_bind.mpr ?_
      · have hs₅ : Stranded {.memObject, .memObject, .kernel, .block, .block} w w₅ := hs₄.grant h₅
        have howed : w₅.owed = y ::ₘ x ::ₘ k ::ₘ r ::ₘ d ::ₘ w.owed := by
          rw [h₅.owed, h₄.owed, h₃, hbase]
        have hn₅ := h₅.nullLaunches.trans h₄.nullLaunches
        refine holds_returnIf (fun h => by simp at h) fun _ => holds_bind.mpr ?_
        refine holds_setKernelArgs (by simp [howed]) (fun w₆ h₆ => holds_bind.mpr ?_)
          fun e w₆ he h₆ hquiet => holds_bind.mpr ?_
        · refine holds_returnIf (fun h => absurd rfl h) fun _ => holds_bind.mpr ?_
          have howed₆ := h₆.owed.trans howed
          have hn₆ := h₆.nullLaunches.trans hn₅
          refine holds_transferData (by simp [howed₆, hq]) (by simp [howed₆]) (by simp [howed₆])
            fun e w₇ h₇ => holds_bind.mpr ?_
          have hs₇ := hs₅.congr (h₇.owed.trans h₆.owed)
          have hn₇ := h₇.nullLaunches.trans hn₆
          refine holds_returnIf (fun _ => hfail w₇ hs₇ (by decide) hn₇) fun _ => holds_bind.mpr ?_
          refine holds_enqueue (by simp [h₇.owed, howed₆, hq]) fun _ w₈ h₈ => holds_bind.mpr ?_
          have howed₈ : w₈.owed = y ::ₘ x ::ₘ k ::ₘ r ::ₘ d ::ₘ w.owed := by
            rw [h₈.owed, h₇.owed, howed₆]
          have hn₈ := h₈.nullLaunches.trans hn₇
          refine holds_execute (x := x) (by simp [howed₈, hq]) (by simp [howed₈]) (by simp [howed₈])
            (by simp [howed₈]) (by simp [howed₈]) (by simp [howed₈])
            ((h₆.hasArgs.congr h₇.args).congr h₈.args) (fun e w₉ hkind h₉ hn₉ => ?_)
            fun w₉ hn₉ hleft => ?_
          · refine (holds_cleanUp (h₉.trans (by rw [howed₈]))).mono (fun s w' h => ?_) fun _ _ => id
            exact ⟨h.1, h.2.1, h.2.2.trans (hn₉.trans (hn₈.trans hn₃))⟩
          · refine ⟨rfl, hn₉.trans (hn₈.trans hn₃), ?_⟩
            exact ((hs₇.congr h₈.owed).trans_atMost hleft).mono (by decide)
        · exact holds_returnIf (fun _ => hfail w₆ (hs₅.congr h₆) (by decide)
            (hquiet.nullLaunches.trans hn₅)) fun h => absurd he h
      · exact holds_returnIf (fun _ => hfail w₅ (hs₄.congr h₅.owed) (by decide)
          (h₅.nullLaunches.trans h₄.nullLaunches)) fun h => absurd (.inr (.inl rfl)) h
    · have hs₄ := hs₃.congr h₄.owed
      refine holds_createEither (by simp [h₄.owed, h₃, hbase, hc]) fun y e w₅ hn₅ hleft =>
        holds_bind.mpr ?_
      refine holds_returnIf (fun _ => ?_) fun h => absurd (.inl rfl) h
      exact ⟨rfl, (hn₅.trans h₄.nullLaunches).trans hn₃, (hs₄.trans_atMost hleft).mono (by decide)⟩
  · obtain ⟨ks, hks, l, hl, hw⟩ := hleft
    have hw₃ : w₃.owed = r ::ₘ d ::ₘ (l + w.owed) := by
      rw [hw, hbase, Multiset.add_cons, Multiset.add_cons]
    refine holds_when (fun _ => holds_bind.mpr ?_) fun h => absurd (.inl rfl) h
    refine holds_dispose (by simp [hw₃]) fun w₄ h₄ => holds_bind.mpr ?_
    have hw₄ : w₄.owed = r ::ₘ (l + w.owed) := by
      rw [h₄.owed, hw₃, Multiset.cons_swap, Multiset.erase_cons_head]
    refine holds_dispose (by simp [hw₄]) fun w₅ h₅ => holds_leave.mpr ⟨rfl, ?_, ks, ?_, l, hl, ?_⟩
    · rw [h₅.nullLaunches, h₄.nullLaunches, hn, hn₂]
    · exact hks.trans (by decide)
    · rw [h₅.owed, hw₄, Multiset.erase_cons_head]

/-- Before a run: a context and a queue. -/
def host : World := (World.empty.grant .context).grant .commandQueue

/-- The second buffer is not created. -/
theorem runBenchmark_released_output : ⟨.context, 0⟩ ∈ host.owed ∧ ⟨.commandQueue, 1⟩ ∈ host.owed ∧
    Holds (runBenchmark (fun i => if i = 5 then -4 else 0) (some ⟨.context, 0⟩)
      (some ⟨.commandQueue, 1⟩) False True) host
      (fun r w' => r = CL_SUCCESS ∧ w'.owed = host.owed ∧ w'.nullLaunches = host.nullLaunches)
      (Fails host) :=
  ⟨by decide, by decide, runBenchmark_released _ host False True (by decide) (by decide)⟩

end

end UclBench.Released.ArithSpeed
