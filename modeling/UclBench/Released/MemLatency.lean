import UclBench.OpenCL.Returns
import Mathlib.Data.Multiset.OrderedMonoid

/-!
# UclBench.Released.MemLatency

The objects of a latency run (`run_latency_benchmark` and `main` of
`mem_latency.cpp`).

A run that succeeds keeps the event, the result buffer and the device record,
so the repeats of a data point pile them up (`repeats_stranded`).
-/

namespace UclBench.Released.MemLatency

open Effect OpenCL

section
variable (o : Nat → Status)

/-- From the command queue to the arguments of the kernel. -/
def prepare (context data : Handle) :
    Effect World (Leave Status) (Handle × Handle × Handle × Handle × Handle) := do
  let commands ← acquire o (fun _ => 1) .commandQueue [context]
  let program ← acquire o (fun _ => 1) .program [context]
  build o (fun _ => 1) program
  let kernel ← acquire o (fun _ => 1) .kernel [program]
  let (input, _) ← create o .memObject [context]
  let (result, _) ← create o .memObject [context]
  returnIf (input = none ∨ result = none) 1
  performBoth o 1 [commands, input, data] [commands]
  let err ← setKernelArgs o kernel 0 [.memory input, .memory result, .bytes]
  returnIf (err ≠ CL_SUCCESS) 1
  pure (commands, program, kernel, input, result)

/-- The end of a run. -/
def cleanUp (input program kernel commands data : Handle) : Effect World (Leave Status) Status := do
  let _ ← release o input
  let _ ← release o program
  let _ ← release o kernel
  let _ ← release o commands
  dispose data
  pure CL_SUCCESS

/-- `run_latency_benchmark`; the record of `get_device_info` is eight blocks. -/
def runLatencyBenchmark (context : Handle) : Effect World (Leave Status) Status := do
  let _ ← mallocs 8
  let data ← malloc
  let (commands, program, kernel, input, result) ← prepare o context data
  let (event, err) ← launchEvent o commands kernel 3
  returnIf (err ≠ CL_SUCCESS) 1
  performBoth o 1 [commands] [event]
  performBoth o 1 [event] [event]
  performBoth o 1 [commands, result] [commands]
  cleanUp o input program kernel commands data

/-- The repeats of a data point, up to the first that fails. -/
def repeats (context : Handle) (n : Nat) : Effect World (Leave Status) Status :=
  loop (fun _ _ => do
    let err ← call (runLatencyBenchmark o context)
    returnIf (0 < err) err
    pure err) n CL_SUCCESS

end

/-- What a run that succeeds keeps. -/
def kept : Multiset Kind := .event ::ₘ .memObject ::ₘ Multiset.replicate 8 .block

/-- Everything a run creates. -/
def acquired : Multiset Kind :=
  {.event, .memObject, .memObject, .kernel, .program, .commandQueue} +
    Multiset.replicate 9 .block

section
variable {o : Nat → Status} {w : World} {c d : Obj} {R : Leave Status → World → Prop}

/-- The kernel has its two buffers. -/
theorem holds_prepare {Q : Handle × Handle × Handle × Handle × Handle → World → Prop}
    (hc : c ∈ w.owed) (hd : d ∈ w.owed)
    (hok : ∀ q p k x y w', Stranded {.memObject, .memObject, .kernel, .program, .commandQueue} w w' →
      w'.owed = y ::ₘ x ::ₘ k ::ₘ p ::ₘ q ::ₘ w.owed → y.kind = .memObject →
      w'.nullLaunches = w.nullLaunches →
      w'.HasArgs k [.memory (some x), .memory (some y), .bytes] →
      Q (some q, some p, some k, some x, some y) w')
    (hfail : ∀ w', w'.nullLaunches = w.nullLaunches →
      StrandsAtMost {.memObject, .memObject, .kernel, .program, .commandQueue} w w' →
      R (.ok 1) w') :
    Holds (prepare o (some c) (some d)) w Q R := by
  have hfail' {ks : Multiset Kind} (w' : World) (hn : w'.nullLaunches = w.nullLaunches)
      (hs : Stranded ks w w')
      (hks : ks ≤ {.memObject, .memObject, .kernel, .program, .commandQueue}) : R (.ok 1) w' :=
    hfail w' hn ⟨ks, hks, hs⟩
  refine holds_bind.mpr (holds_acquire (by simp [hc]) (fun q w₁ h₁ => holds_bind.mpr ?_)
    fun _ w₁ _ h₁ => hfail' w₁ h₁.nullLaunches (.of_eq h₁.owed) (by decide))
  have hs₁ : Stranded {.commandQueue} w w₁ := (Stranded.of_eq rfl).grant h₁
  refine holds_acquire (by simp [h₁.owed, hc]) (fun p w₂ h₂ => holds_bind.mpr ?_)
    fun _ w₂ _ h₂ => hfail' w₂ (h₂.nullLaunches.trans h₁.nullLaunches) (hs₁.congr h₂.owed) (by decide)
  have hs₂ : Stranded {.program, .commandQueue} w w₂ := hs₁.grant h₂
  have hn₂ := h₂.nullLaunches.trans h₁.nullLaunches
  refine holds_build (by simp [h₂.owed]) (fun w₃ h₃ => holds_bind.mpr ?_)
    fun _ w₃ _ h₃ => hfail' w₃ (h₃.nullLaunches.trans hn₂) (hs₂.congr h₃.owed) (by decide)
  have hn₃ := h₃.nullLaunches.trans hn₂
  have hs₃ := hs₂.congr h₃.owed
  refine holds_acquire (by simp [h₃.owed, h₂.owed]) (fun k w₄ h₄ => holds_bind.mpr ?_)
    fun _ w₄ _ h₄ => hfail' w₄ (h₄.nullLaunches.trans hn₃) (hs₃.congr h₄.owed) (by decide)
  have hs₄ : Stranded {.kernel, .program, .commandQueue} w w₄ := hs₃.grant h₄
  have hn₄ := h₄.nullLaunches.trans hn₃
  have howed₄ : w₄.owed = k ::ₘ p ::ₘ q ::ₘ w.owed := by rw [h₄.owed, h₃.owed, h₂.owed, h₁.owed]
  refine holds_create (by simp [howed₄, hc]) (fun x w₅ h₅ => holds_bind.mpr ?_)
    fun _ w₅ _ h₅ => holds_bind.mpr ?_
  · have hs₅ : Stranded {.memObject, .kernel, .program, .commandQueue} w w₅ := hs₄.grant h₅
    have hn₅ := h₅.nullLaunches.trans hn₄
    refine holds_create (by simp [h₅.owed, howed₄, hc]) (fun y w₆ h₆ => holds_bind.mpr ?_)
      fun _ w₆ _ h₆ => holds_bind.mpr ?_
    · have hs₆ : Stranded {.memObject, .memObject, .kernel, .program, .commandQueue} w w₆ :=
        hs₅.grant h₆
      have hn₆ := h₆.nullLaunches.trans hn₅
      have howed₆ : w₆.owed = y ::ₘ x ::ₘ k ::ₘ p ::ₘ q ::ₘ w.owed := by
        rw [h₆.owed, h₅.owed, howed₄]
      refine holds_returnIf (fun h => by simp at h) fun _ => holds_bind.mpr ?_
      refine holds_performBoth (by simp [howed₆, hd]) (fun w₇ h₇ => holds_bind.mpr ?_)
        fun w₇ h₇ => hfail' w₇ (h₇.nullLaunches.trans hn₆) (hs₆.congr h₇.owed) (by decide)
      have hn₇ := h₇.nullLaunches.trans hn₆
      have hs₇ := hs₆.congr h₇.owed
      refine holds_setKernelArgs (by simp [h₇.owed, howed₆]) (fun w₈ h₈ => holds_bind.mpr ?_)
        fun e w₈ he h₈ hquiet => holds_bind.mpr ?_
      · refine holds_returnIf (fun h => absurd rfl h) fun _ => ?_
        refine hok q p k x y w₈ (hs₇.congr h₈.owed) ?_ h₆.kind (h₈.nullLaunches.trans hn₇)
          h₈.hasArgs
        rw [h₈.owed, h₇.owed, howed₆]
      · exact holds_returnIf (fun _ => hfail' w₈ (hquiet.nullLaunches.trans hn₇) (hs₇.congr h₈)
          (by decide)) fun h => absurd he h
    · exact holds_returnIf (fun _ => hfail' w₆ (h₆.nullLaunches.trans hn₅) (hs₅.congr h₆.owed)
        (by decide)) fun h => absurd (.inr rfl) h
  · have hn₅ := h₅.nullLaunches.trans hn₄
    have hs₅ := hs₄.congr h₅.owed
    refine holds_createEither (by simp [h₅.owed, howed₄, hc]) fun y e w₆ hn₆ hleft =>
      holds_bind.mpr ?_
    refine holds_returnIf (fun _ => ?_) fun h => absurd (.inl rfl) h
    exact hfail w₆ (hn₆.trans hn₅) ((hs₅.trans_atMost hleft).mono (by decide))

/-- The event and the result buffer are not released. -/
theorem holds_cleanUp {e y x k p q : Obj} {owed : Multiset Obj}
    (h : w.owed = e ::ₘ y ::ₘ x ::ₘ k ::ₘ p ::ₘ q ::ₘ d ::ₘ owed) :
    Holds (cleanUp o (some x) (some p) (some k) (some q) (some d)) w
      (fun s w' => s = CL_SUCCESS ∧ w'.owed = e ::ₘ y ::ₘ owed ∧
        w'.nullLaunches = w.nullLaunches) R := by
  refine holds_bind.mpr (holds_release (by simp [h]) fun _ w₁ h₁ => holds_bind.mpr ?_)
  have h₁' : w₁.owed = e ::ₘ y ::ₘ k ::ₘ p ::ₘ q ::ₘ d ::ₘ owed := by
    simp [h₁.owed, h, Multiset.erase_cons_tail_of_mem]
  refine holds_release (by simp [h₁']) fun _ w₂ h₂ => holds_bind.mpr ?_
  have h₂' : w₂.owed = e ::ₘ y ::ₘ k ::ₘ q ::ₘ d ::ₘ owed := by
    simp [h₂.owed, h₁', Multiset.erase_cons_tail_of_mem]
  refine holds_release (by simp [h₂']) fun _ w₃ h₃ => holds_bind.mpr ?_
  have h₃' : w₃.owed = e ::ₘ y ::ₘ q ::ₘ d ::ₘ owed := by
    simp [h₃.owed, h₂', Multiset.erase_cons_tail_of_mem]
  refine holds_release (by simp [h₃']) fun _ w₄ h₄ => holds_bind.mpr ?_
  have h₄' : w₄.owed = e ::ₘ y ::ₘ d ::ₘ owed := by
    simp [h₄.owed, h₃', Multiset.erase_cons_tail_of_mem]
  refine holds_dispose (by simp [h₄']) fun w₅ h₅ => ⟨rfl, ?_, ?_⟩
  · simp [h₅.owed, h₄', Multiset.erase_cons_tail_of_mem]
  · rw [h₅.nullLaunches, h₄.nullLaunches, h₃.nullLaunches, h₂.nullLaunches, h₁.nullLaunches]

/-- A failed run returns 1 and has launched nothing with a null pointer. -/
def Fails (w : World) (r : Status) (w' : World) : Prop :=
  r = 1 ∧ w'.nullLaunches = w.nullLaunches ∧ StrandsAtMost acquired w w'

/-- A run that succeeds keeps these objects, and no others. -/
def Keeps (n : Nat) (w w' : World) : Prop :=
  w'.nullLaunches = w.nullLaunches ∧ Stranded (n • kept) w w'

/-- **Objects of a run**: whatever the calls report, each is made on objects that
exist; a run that returns 0 keeps its event, its result buffer and the device
record, any other returns 1. -/
theorem runLatencyBenchmark_released (o : Nat → Status) (w : World) (hc : c ∈ w.owed) :
    Holds (runLatencyBenchmark o (some c)) w (fun r w' => r = CL_SUCCESS ∧ Keeps 1 w w')
      (fun r w' => ∃ e, r = .ok e ∧ Fails w e w') := by
  refine holds_bind.mpr (holds_mallocs fun l w₁ hlen hkind h₁ hquiet => holds_bind.mpr ?_)
  have hblocks : (l : Multiset Obj).map Obj.kind = Multiset.replicate 8 .block := by
    rw [Multiset.map_coe, List.map_eq_replicate_iff.mpr hkind, hlen, Multiset.coe_replicate]
  have hs₁ : Stranded (Multiset.replicate 8 .block) w w₁ := ⟨l, hblocks, h₁⟩
  refine holds_malloc fun d w₂ h₂ => holds_bind.mpr ?_
  have hs₂ := hs₁.grant h₂
  have hn₂ := h₂.nullLaunches.trans hquiet.nullLaunches
  have hfail {ks : Multiset Kind} (w' : World) (hn : w'.nullLaunches = w₂.nullLaunches)
      (hs : StrandsAtMost ks w₂ w') (hks : ks + .block ::ₘ Multiset.replicate 8 .block ≤ acquired) :
      ∃ e, (.ok 1 : Leave Status) = .ok e ∧ Fails w e w' :=
    ⟨1, rfl, rfl, hn.trans hn₂, (hs₂.trans_atMost hs).mono hks⟩
  refine holds_prepare (by simp [h₂.owed, h₁, hc]) (by simp [h₂.owed])
    (fun q p k x y w₃ hs₃ howed₃ hy hn₃ hargs => holds_bind.mpr ?_)
    fun w₃ hn₃ hleft => hfail w₃ hn₃ hleft (by decide)
  refine holds_launchLive (by simp [howed₃]) (by simp [howed₃]) hargs
    (by simp [World.ArgLive, howed₃]) (fun e w₄ he h₄ hn₄ => holds_bind.mpr ?_)
    fun _ w₄ he h₄ => holds_bind.mpr ?_
  · have hs₄ := hs₃.cons he h₄
    have hn₄' := hn₄.trans hn₃
    have hfail' (w' : World) (h : w₄.Same w') : ∃ e, (.ok 1 : Leave Status) = .ok e ∧ Fails w e w' :=
      hfail w' (h.nullLaunches.trans hn₄') ⟨_, le_refl _, hs₄.congr h.owed⟩ (by decide)
    have howed₄ : w₄.owed = e ::ₘ y ::ₘ x ::ₘ k ::ₘ p ::ₘ q ::ₘ w₂.owed := by rw [h₄, howed₃]
    refine holds_returnIf (fun h => absurd rfl h) fun _ => holds_bind.mpr ?_
    refine holds_performBoth (by simp [howed₄]) (fun w₅ h₅ => holds_bind.mpr ?_) hfail'
    refine holds_performBoth (by simp [h₅.owed, howed₄]) (fun w₆ h₆ => holds_bind.mpr ?_)
      fun w' h => hfail' w' (h₅.trans h)
    have h₆' := h₅.trans h₆
    refine holds_performBoth (by simp [h₆'.owed, howed₄]) (fun w₇ h₇ => ?_)
      fun w' h => hfail' w' (h₆'.trans h)
    have howed₇ : w₇.owed = e ::ₘ y ::ₘ x ::ₘ k ::ₘ p ::ₘ q ::ₘ d ::ₘ w₁.owed := by
      rw [(h₆'.trans h₇).owed, howed₄, h₂.owed]
    refine (holds_cleanUp howed₇).mono (fun r w₈ h => ⟨h.1, ?_, ?_⟩) fun _ _ => id
    · rw [h.2.2, (h₆'.trans h₇).nullLaunches, hn₄', hn₂]
    · refine ⟨e ::ₘ y ::ₘ l, ?_, by rw [h.2.1, h₁, Multiset.cons_add, Multiset.cons_add]⟩
      rw [Multiset.map_cons, Multiset.map_cons, he, hy, hblocks, one_nsmul, kept]
  · refine holds_returnIf (fun _ => ?_) fun h => absurd he h
    exact hfail w₄ (h₄.nullLaunches.trans hn₃) ⟨_, le_refl _, hs₃.congr h₄.owed⟩ (by decide)

theorem Keeps.succ {n : Nat} {w' w'' : World} (h : Keeps n w w') (h' : Keeps 1 w' w'') :
    Keeps (n + 1) w w'' := by
  refine ⟨h'.1.trans h.1, ?_⟩
  have hs := h.2.trans h'.2
  rwa [← add_nsmul, Nat.add_comm] at hs

/-- **Objects of a data point**: `n` repeats keep `n` events, `n` result buffers
and `n` device records; the first run that fails ends the data point. -/
theorem repeats_stranded (o : Nat → Status) (w : World) (n : Nat) (hc : c ∈ w.owed) :
    Holds (repeats o (some c) n) w (fun r w' => r = CL_SUCCESS ∧ Keeps n w w')
      (fun r w' => ∃ e w₁, r = .ok e ∧ (∃ k < n, Keeps k w w₁) ∧ Fails w₁ e w') := by
  have hinit : Keeps 0 w w := ⟨rfl, by simpa using Stranded.of_eq rfl⟩
  refine holds_loop (fun i r w' => r = CL_SUCCESS ∧ Keeps i w w') n ⟨rfl, hinit⟩
    fun i hi r w₁ h₁ => holds_bind.mpr (holds_call ?_)
  refine (runLatencyBenchmark_released o w₁ (h₁.2.2.mem hc)).mono (fun r w₂ h₂ => ?_) ?_
  · rw [h₂.1]
    exact holds_bind.mpr (holds_returnIf (fun h => absurd h (by decide)) fun _ =>
      ⟨rfl, h₁.2.succ h₂.2⟩)
  · rintro _ w₂ ⟨e, rfl, h₂⟩
    refine holds_bind.mpr (holds_returnIf (fun _ => ⟨e, w₁, rfl, ⟨i, hi, h₁.2⟩, h₂⟩) fun h => ?_)
    rw [h₂.1] at h
    exact absurd (by decide) h

/-- Before a data point: a context. -/
def host : World := World.empty.grant .context

/-- Three repeats; the program of the second run is not created. -/
theorem repeats_stranded_three : ⟨.context, 0⟩ ∈ host.owed ∧
    Holds (repeats (fun i => if i = 23 then -4 else 0) (some ⟨.context, 0⟩) 3) host
      (fun r w' => r = CL_SUCCESS ∧ Keeps 3 host w')
      (fun r w' => ∃ e w₁, r = .ok e ∧ (∃ k < 3, Keeps k host w₁) ∧ Fails w₁ e w') :=
  ⟨by decide, repeats_stranded _ host 3 (by decide)⟩

end

end UclBench.Released.MemLatency
