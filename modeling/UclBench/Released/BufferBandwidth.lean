import UclBench.BufferBandwidth.Transfer
import UclBench.OpenCL.Returns

/-!
# UclBench.Released.BufferBandwidth

The objects of the bandwidth measurements (`buffer_bandwidth.cpp`).

`Transfer` follows what the measurements leave in memory; here every call is
made on the objects it needs, and each may fail.  Nothing is used before it is
created or after it is released, and what a measurement still owes when it
returns are the buffers, and the mapping of pinned memory, that it had acquired
when a call failed (`measure_released`).
-/

namespace UclBench.Released.BufferBandwidth

open Effect OpenCL
open UclBench.BufferBandwidth (MemMode AccessMode Direction)

section
variable (o : Nat → Status)

/-! ## parts of a measurement -/

/-- One mapped transfer from the host. -/
def mappedTransfer (commands buffer data : Handle) : Effect World (Leave Status) Status := do
  let mapped ← acquire o id .mapping [commands, buffer]
  use [mapped, data]
  let _ ← unmap o commands buffer mapped
  pure CL_SUCCESS

/-- One mapped transfer to the host; a failed map goes round again. -/
def mappedTransferBack (commands buffer data : Handle) : Effect World (Leave Status) Status := do
  let (mapped, err) ← create o .mapping [commands, buffer]
  if err ≠ CL_SUCCESS then pure err
  else
    use [data, mapped]
    let _ ← unmap o commands buffer mapped
    pure err

/-- The final read-back and the comparison with `data`; what it finds is up to
the run. -/
def check (commands buffer data : Handle) : Effect World (Leave Status) Unit := do
  let checkData ← malloc
  let _ ← enqueue o [commands, buffer, checkData]
  let differs ← enqueue o [checkData, data]
  leaveIf (differs ≠ 0) (.error (-1))
  dispose checkData

/-- Behind the timed loop, for the buffer that is read back. -/
def cleanUp (commands dmem pinnedHmem transferData data : Handle) (mm : MemMode) (err : Status) :
    Effect World (Leave Status) Status := do
  let _ ← enqueue o [commands]
  when (mm = .pinned) do let _ ← unmap o commands pinnedHmem transferData
  let _ ← enqueue o [commands]
  check o commands dmem data
  when (mm = .pinned) do let _ ← release o pinnedHmem
  let _ ← release o dmem
  pure err

/-- `pinned_hmem` and `transfer_data` of a transfer from the host: pinned memory
is filled and mapped again. -/
def setUpSource (context commands data : Handle) (mm : MemMode) :
    Effect World (Leave Status) (Handle × Handle) :=
  if mm = .pinned then do
    let pinnedHmem ← acquire o id .memObject [context]
    let transferData ← acquire o id .mapping [commands, pinnedHmem]
    use [transferData, data]
    let _ ← unmap o commands pinnedHmem transferData
    let transferData ← acquire o id .mapping [commands, pinnedHmem]
    pure (pinnedHmem, transferData)
  else pure (none, data)

/-- The same of a transfer to the host. -/
def setUpTarget (context commands data : Handle) (mm : MemMode) :
    Effect World (Leave Status) (Handle × Handle) :=
  if mm = .pinned then do
    let pinnedHmem ← acquire o id .memObject [context]
    let transferData ← acquire o id .mapping [commands, pinnedHmem]
    pure (pinnedHmem, transferData)
  else pure (none, data)

/-! ## measurements -/

def measureHostToDevice (context commands data : Handle) (mm : MemMode) (am : AccessMode)
    (iterations : Nat) : Effect World (Leave Status) Status := do
  let dmem ← acquire o id .memObject [context]
  let (pinnedHmem, transferData) ← setUpSource o context commands data mm
  let _ ← enqueue o [commands]
  let err ← loop (fun _ _ =>
    if am = .direct then do
      perform o id [commands, dmem, transferData]
      pure CL_SUCCESS
    else mappedTransfer o commands dmem data) iterations CL_SUCCESS
  cleanUp o commands dmem pinnedHmem transferData data mm err

def measureDeviceToHost (context commands data : Handle) (mm : MemMode) (am : AccessMode)
    (iterations : Nat) : Effect World (Leave Status) Status := do
  let dmem ← acquire o id .memObject [context]
  let err ← enqueue o [commands, dmem, data]
  let (pinnedHmem, transferData) ← setUpTarget o context commands data mm
  let err := if mm = .pinned then CL_SUCCESS else err
  let _ ← enqueue o [commands]
  let _ ← enqueue o [commands]
  let err ← loop (fun _ _ =>
    if am = .direct then do
      perform o id [commands, dmem, transferData]
      pure CL_SUCCESS
    else mappedTransferBack o commands dmem data) iterations err
  cleanUp o commands dmem pinnedHmem transferData data mm err

def measureDeviceToDevice (context commands data : Handle) (_mm : MemMode) (_am : AccessMode)
    (iterations : Nat) : Effect World (Leave Status) Status := do
  let dmemSrc ← acquire o id .memObject [context]
  let dmemDst ← acquire o id .memObject [context]
  perform o id [commands, dmemSrc, data]
  let _ ← enqueue o [commands]
  let _ ← loop (fun _ _ => enqueue o [commands, dmemSrc, dmemDst]) iterations CL_SUCCESS
  let _ ← enqueue o [commands]
  check o commands dmemDst data
  let err ← release o dmemSrc
  let err' ← release o dmemDst
  pure (err ||| err')

def measure (d : Direction) (context commands data : Handle) (mm : MemMode) (am : AccessMode)
    (iterations : Nat) : Effect World (Leave Status) Status :=
  match d with
  | .hostToDevice => measureHostToDevice o context commands data mm am iterations
  | .deviceToHost => measureDeviceToHost o context commands data mm am iterations
  | .deviceToDevice => measureDeviceToDevice o context commands data mm am iterations

/-! ## runs -/

/-- A measurement, and a return if it fails. -/
def measureStep (d : Direction) (context commands data : Handle) (mm : MemMode) (am : AccessMode)
    (iterations : Nat) : Effect World (Leave Status) Unit := do
  let err ← call (measure o d context commands data mm am iterations)
  returnIf (err ≠ CL_SUCCESS) err

/-- `run_benchmark` -/
def runBenchmark (context commands : Handle) (mm : MemMode) (am : AccessMode) (iterations : Nat) :
    Effect World (Leave Status) Status := do
  let data ← malloc
  measureStep o .hostToDevice context commands data mm am iterations
  measureStep o .deviceToHost context commands data mm am iterations
  measureStep o .deviceToDevice context commands data mm am iterations
  dispose data
  pure CL_SUCCESS

/-- The repeats of a data point, up to a positive status. -/
def dataPoint (context commands : Handle) (mm : MemMode) (am : AccessMode)
    (iterations repeats : Nat) : Effect World (Except Int (List Status)) (List Status) :=
  loop (fun _ errs => do
    let err ← call (runBenchmark o context commands mm am iterations)
    leaveIf (0 < err) (.ok (errs ++ [err]))
    pure (errs ++ [err])) repeats []

/-- The data points of a device, with the statuses of their runs. -/
def dataPoints (context commands : Handle) (mm : MemMode) (am : AccessMode)
    (iterations repeats numSizes : Nat) : Effect World (Except Int (List Status)) (List Status) :=
  loop (fun _ errs => do
    let more ← call (dataPoint o context commands mm am iterations repeats)
    pure (errs ++ more)) numSizes []

end

/-! ## what is left -/

/-- What the set-up acquires besides the device buffer, the last first. -/
def setUpKinds : MemMode → List Kind
  | .pinned => [.mapping, .memObject]
  | .pageable => []

/-- What a measurement acquires, the last first. -/
def acquired (mm : MemMode) : Direction → List Kind
  | .deviceToDevice => [.memObject, .memObject]
  | _ => setUpKinds mm ++ [.memObject]

/-- Early returns report an error, and the first of the things acquired are
still there; `exit` leaves them to the system. -/
def Abandons (kinds : List Kind) (owed : Multiset Obj) (r : Leave Status) (w' : World) : Prop :=
  ∀ e, r = .ok e → e ≠ CL_SUCCESS ∧ ∃ l : List Obj, l.map Obj.kind <:+ kinds ∧ w'.owed = l + owed

theorem Abandons.none {kinds : List Kind} {owed : Multiset Obj} {e : Status} {w' : World}
    (he : e ≠ CL_SUCCESS) (h : w'.owed = owed) : Abandons kinds owed (.ok e) w' := by
  rintro _ ⟨⟩
  exact ⟨he, [], List.nil_suffix, by simpa using h⟩

/-- To be counted from earlier on. -/
theorem Abandons.init {owed : Multiset Obj} {e : Status} {w' : World} (he : e ≠ CL_SUCCESS)
    (h : w'.owed = owed) : Abandons [] owed (.ok e) w' := .none he h

theorem Abandons.exit {kinds : List Kind} {owed : Multiset Obj} {code : Int} {w' : World} :
    Abandons kinds owed (.error code) w' := fun _ h => nomatch h

/-- Counted from before `x` was created. -/
theorem Abandons.cons {kinds : List Kind} {x : Obj} {owed : Multiset Obj} {r : Leave Status} {w' : World}
    (h : Abandons kinds (x ::ₘ owed) r w') : Abandons (kinds ++ [x.kind]) owed r w' := by
  intro e he
  obtain ⟨hne, l, ⟨t, ht⟩, howed⟩ := h e he
  refine ⟨hne, l ++ [x], ⟨t, by simp [← ht]⟩, ?_⟩
  rw [howed, ← Multiset.coe_add, Multiset.add_assoc]
  rfl

theorem Abandons.mono {kinds kinds' : List Kind} {owed : Multiset Obj} {r : Leave Status} {w' : World}
    (h : Abandons kinds owed r w') (hk : kinds <:+ kinds') : Abandons kinds' owed r w' := by
  intro e he
  obtain ⟨hne, l, hl, howed⟩ := h e he
  exact ⟨hne, l, hl.trans hk, howed⟩

section
variable {o : Nat → Status} {w : World} {R : Leave Status → World → Prop}

/-! ## rules -/

variable {q b d : Obj}

theorem holds_mappedTransfer {Q : Status → World → Prop} (hq : q ∈ w.owed) (hb : b ∈ w.owed)
    (hd : d ∈ w.owed) (hok : ∀ w', w'.owed = w.owed → Q CL_SUCCESS w')
    (hfail : ∀ e w', e ≠ CL_SUCCESS → w'.owed = w.owed → R (.ok e) w') :
    Holds (mappedTransfer o (some q) (some b) (some d)) w Q R := by
  refine holds_bind.mpr (holds_acquire (by simp [hq, hb]) (fun x w₁ h₁ => ?_)
    fun e w₁ he h₁ => hfail e w₁ he h₁.owed)
  refine holds_bind.mpr (holds_use (by simp [h₁.owed, hd]) (holds_bind.mpr ?_))
  refine holds_unmap (by simp [h₁.owed, hq, hb]) (by simp [h₁.owed]) fun e w₂ h₂ => hok w₂ ?_
  rw [h₂.owed, h₁.owed, Multiset.erase_cons_head]

theorem holds_mappedTransferBack {Q : Status → World → Prop} (hq : q ∈ w.owed) (hb : b ∈ w.owed)
    (hd : d ∈ w.owed) (hok : ∀ e w', w'.owed = w.owed → Q e w') :
    Holds (mappedTransferBack o (some q) (some b) (some d)) w Q R := by
  refine holds_bind.mpr (holds_create (by simp [hq, hb]) (fun x w₁ h₁ => ?_) fun e w₁ he h₁ => ?_)
  · refine holds_ite (fun he => absurd rfl he) fun _ => ?_
    refine holds_bind.mpr (holds_use (by simp [h₁.owed, hd]) (holds_bind.mpr ?_))
    refine holds_unmap (by simp [h₁.owed, hq, hb]) (by simp [h₁.owed]) fun e w₂ h₂ => hok _ w₂ ?_
    rw [h₂.owed, h₁.owed, Multiset.erase_cons_head]
  · exact holds_ite (fun _ => hok e w₁ h₁.owed) fun h => absurd he h

theorem holds_check {Q : Unit → World → Prop} (hq : q ∈ w.owed) (hb : b ∈ w.owed)
    (hd : d ∈ w.owed) (hok : ∀ w', w'.owed = w.owed → Q () w')
    (hexit : ∀ w', R (.error (-1)) w') :
    Holds (check o (some q) (some b) (some d)) w Q R := by
  refine holds_bind.mpr (holds_malloc fun x w₁ h₁ => holds_bind.mpr ?_)
  refine holds_enqueue (by simp [h₁.owed, hq, hb]) fun e w₂ h₂ => holds_bind.mpr ?_
  refine holds_enqueue (by simp [h₂.owed, h₁.owed, hd]) fun e w₃ h₃ => holds_bind.mpr ?_
  refine holds_leaveIf (fun _ => hexit w₃) fun _ => ?_
  refine holds_dispose (by simp [h₃.owed, h₂.owed, h₁.owed]) fun w₄ h₄ => hok w₄ ?_
  rw [h₄.owed, h₃.owed, h₂.owed, h₁.owed, Multiset.erase_cons_head]

/-- The handles and objects of the set-up. -/
inductive SetUp (d : Obj) : MemMode → Handle → Handle → List Obj → Prop
  | pinned {p t : Obj} (hp : p.kind = .memObject) (ht : t.kind = .mapping) :
      SetUp d .pinned (some p) (some t) [t, p]
  | pageable : SetUp d .pageable none (some d) []

/-- Only `exit` leaves from here. -/
def Exits (r : Leave Status) (_ : World) : Prop := ∃ code, r = .error code

section
variable {pinnedHmem transferData : Handle} {l : List Obj} {mm : MemMode} {owed : Multiset Obj}

theorem holds_unmapPinned (hset : SetUp d mm pinnedHmem transferData l) (howed : w.owed = l + owed)
    (hq : q ∈ owed) : Holds (when (mm = .pinned) do
        let _ ← unmap o (some q) pinnedHmem transferData) w
      (fun _ w' => w'.owed = l.tail + owed) R := by
  cases hset with
  | pinned hp ht =>
      refine holds_when (fun _ => holds_bind.mpr ?_) fun h => absurd rfl h
      refine holds_unmap (by simp [howed, hq]) (by simp [howed]) fun _ w' h => holds_pure.mpr ?_
      simp [h.owed, howed, ← Multiset.cons_coe]
  | pageable => exact holds_when (fun h => nomatch h) fun _ => howed

theorem holds_releasePinned (hset : SetUp d mm pinnedHmem transferData l)
    (howed : w.owed = l.tail + owed) : Holds (when (mm = .pinned) do
        let _ ← release o pinnedHmem) w (fun _ w' => w'.owed = owed) R := by
  cases hset with
  | pinned hp ht =>
      refine holds_when (fun _ => holds_bind.mpr ?_) fun h => absurd rfl h
      refine holds_release (by simp [howed]) fun _ w' h => holds_pure.mpr ?_
      simp [h.owed, howed, ← Multiset.cons_coe]
  | pageable => exact holds_when (fun h => nomatch h) fun _ => by simpa using howed

theorem holds_cleanUp {x : Obj} {err : Status} (hset : SetUp d mm pinnedHmem transferData l)
    (howed : w.owed = l + x ::ₘ owed) (hq : q ∈ owed) (hd : d ∈ owed) :
    Holds (cleanUp o (some q) (some x) pinnedHmem transferData (some d) mm err) w
      (fun e w' => e = err ∧ w'.owed = owed) Exits := by
  refine holds_bind.mpr (holds_enqueue (by simp [howed, hq]) fun _ w₁ h₁ => holds_bind.mpr ?_)
  refine (holds_unmapPinned hset (h₁.owed.trans howed) (by simp [hq])).mono (fun _ w₂ h₂ => ?_)
    fun _ _ => id
  refine holds_bind.mpr (holds_enqueue (by simp [h₂, hq]) fun _ w₃ h₃ => holds_bind.mpr ?_)
  have h₃' : w₃.owed = l.tail + x ::ₘ owed := h₃.owed.trans h₂
  refine holds_check (by simp [h₃', hq]) (by simp [h₃']) (by simp [h₃', hd])
    (fun w₄ h₄ => holds_bind.mpr ?_) fun _ => ⟨_, rfl⟩
  refine (holds_releasePinned hset (h₄.trans h₃')).mono (fun _ w₅ h₅ => holds_bind.mpr ?_)
    fun _ _ => id
  refine holds_release (by simp [h₅]) fun _ w₆ h₆ => ⟨rfl, ?_⟩
  rw [h₆.owed, h₅, Multiset.erase_cons_head]

end

theorem SetUp.valid {mm : MemMode} {pinnedHmem transferData : Handle} {l : List Obj}
    {owed : Multiset Obj} (h : SetUp d mm pinnedHmem transferData l) (howed : w.owed = l + owed)
    (hd : d ∈ owed) : w.Valid transferData := by
  cases h with
  | pinned hp ht => simp [howed]
  | pageable => simp [howed, hd]

theorem SetUp.map_kind {d : Obj} {mm : MemMode} {pinnedHmem transferData : Handle} {l : List Obj}
    (h : SetUp d mm pinnedHmem transferData l) : l.map Obj.kind = setUpKinds mm := by
  cases h with
  | pinned hp ht => simp [hp, ht, setUpKinds]
  | pageable => rfl

theorem SetUp.abandons {mm : MemMode} {pinnedHmem transferData : Handle} {l : List Obj}
    {owed : Multiset Obj} {e : Status} {w' : World} (h : SetUp d mm pinnedHmem transferData l)
    (he : e ≠ CL_SUCCESS) (hw : w'.owed = l + owed) : Abandons (setUpKinds mm) owed (.ok e) w' := by
  rintro _ ⟨⟩
  exact ⟨he, l, h.map_kind ▸ List.suffix_rfl, hw⟩

/-- The source of the transfers is set up. -/
theorem holds_setUpSource {c : Obj} (mm : MemMode) (hc : c ∈ w.owed) (hq : q ∈ w.owed)
    (hd : d ∈ w.owed) : Holds (setUpSource o (some c) (some q) (some d) mm) w
      (fun hs w' => ∃ l, SetUp d mm hs.1 hs.2 l ∧ w'.owed = l + w.owed)
      (Abandons (setUpKinds mm) w.owed) := by
  cases mm with
  | pageable => exact holds_ite (fun h => nomatch h) fun _ => ⟨[], .pageable, by simp⟩
  | pinned =>
      refine holds_ite (fun _ => holds_bind.mpr ?_) fun h => absurd rfl h
      refine holds_acquire (by simp [hc]) (fun p w₁ h₁ => holds_bind.mpr ?_) fun e _ he h => .none he h.owed
      have hp : Abandons [] w₁.owed ≤ Abandons (setUpKinds .pinned) w.owed := fun r w' h => by
        rw [h₁.owed] at h
        exact h.cons.mono (by simp [h₁.kind, setUpKinds])
      refine holds_acquire (by simp [h₁.owed, hq]) (fun t w₂ h₂ => holds_bind.mpr ?_)
        fun e _ he h => hp _ _ (.none he h.owed)
      refine holds_use (by simp [h₂.owed, h₁.owed, hd]) (holds_bind.mpr ?_)
      refine holds_unmap (by simp [h₂.owed, h₁.owed, hq]) (by simp [h₂.owed])
        fun _ w₃ h₃ => holds_bind.mpr ?_
      have h₃' : w₃.owed = w₁.owed := by rw [h₃.owed, h₂.owed, Multiset.erase_cons_head]
      refine holds_acquire (by simp [h₃', h₁.owed, hq]) (fun t w₄ h₄ => ?_)
        fun e _ he h => hp _ _ (.none he (h.owed.trans h₃'))
      exact ⟨[t, p], .pinned h₁.kind h₄.kind, by simp [h₄.owed, h₃', h₁.owed, ← Multiset.cons_coe]⟩

theorem holds_setUpTarget {c : Obj} (mm : MemMode) (hc : c ∈ w.owed) (hq : q ∈ w.owed) :
    Holds (setUpTarget o (some c) (some q) (some d) mm) w
      (fun hs w' => ∃ l, SetUp d mm hs.1 hs.2 l ∧ w'.owed = l + w.owed)
      (Abandons (setUpKinds mm) w.owed) := by
  cases mm with
  | pageable => exact holds_ite (fun h => nomatch h) fun _ => ⟨[], .pageable, by simp⟩
  | pinned =>
      refine holds_ite (fun _ => holds_bind.mpr ?_) fun h => absurd rfl h
      refine holds_acquire (by simp [hc]) (fun p w₁ h₁ => holds_bind.mpr ?_) fun e _ he h => .none he h.owed
      refine holds_acquire (by simp [h₁.owed, hq]) (fun t w₂ h₂ => ?_) fun e _ he h => ?_
      · exact ⟨[t, p], .pinned h₁.kind h₂.kind, by simp [h₂.owed, h₁.owed, ← Multiset.cons_coe]⟩
      · refine (Abandons.init he (h.owed.trans h₁.owed)).cons.mono ?_
        simp [h₁.kind, setUpKinds]

/-! ## measurements -/

section
variable {c : Obj} (mm : MemMode) (am : AccessMode) (n : Nat)

/-- The set-up is abandoned with the device buffer. -/
theorem Abandons.withBuffer {x : Obj} {w₁ : World} {r : Leave Status} {w' : World}
    (h₁ : w.Grants .memObject x w₁) {d : Direction} (hd : d ≠ .deviceToDevice)
    (h : Abandons (setUpKinds mm) w₁.owed r w') : Abandons (acquired mm d) w.owed r w' := by
  rw [h₁.owed] at h
  refine h.cons.mono ?_
  cases d with
  | deviceToDevice => exact absurd rfl hd
  | _ => simp [h₁.kind, acquired]

theorem Exits.abandons {kinds : List Kind} {owed : Multiset Obj} {r : Leave Status} {w' : World}
    (h : Exits r w') : Abandons kinds owed r w' := by
  obtain ⟨code, rfl⟩ := h
  exact .exit

theorem measureHostToDevice_holds (hc : c ∈ w.owed) (hq : q ∈ w.owed) (hd : d ∈ w.owed) :
    Holds (measureHostToDevice o (some c) (some q) (some d) mm am n) w
      (fun _ w' => w'.owed = w.owed) (Abandons (acquired mm .hostToDevice) w.owed) := by
  refine holds_bind.mpr (holds_acquire (by simp [hc]) (fun x w₁ h₁ => holds_bind.mpr ?_)
    fun e _ he h => .none he h.owed)
  have habandon (r : Leave Status) (w' : World) : Abandons (setUpKinds mm) w₁.owed r w' →
      Abandons (acquired mm .hostToDevice) w.owed r w' := .withBuffer mm h₁ nofun
  refine (holds_setUpSource mm (by simp [h₁.owed, hc]) (by simp [h₁.owed, hq])
    (by simp [h₁.owed, hd])).mono (fun hs w₂ ⟨l, hset, h₂⟩ => ?_) habandon
  have hbase : w₂.owed = l + x ::ₘ w.owed := by rw [h₂, h₁.owed]
  refine holds_bind.mpr (holds_enqueue (by simp [hbase, hq]) fun _ w₃ h₃ => holds_bind.mpr ?_)
  refine (holds_loop (fun _ _ w' => w'.owed = w₂.owed) n h₃.owed fun i _ _ w' hw => ?_).mono
    (fun e w₄ h₄ => ?_) fun _ _ => id
  · have hfail (e : Status) (w₅ : World) (he : e ≠ CL_SUCCESS) (h : w₅.owed = w'.owed) :
        Abandons (acquired mm .hostToDevice) w.owed (.ok e) w₅ :=
      habandon _ _ (hset.abandons he (h.trans (hw.trans h₂)))
    have ht : w'.Valid hs.2 := hset.valid (hw.trans hbase) (by simp [hd])
    refine holds_ite (fun _ => ?_) fun _ => ?_
    · exact holds_bind.mpr (holds_perform (by simp [hw, hbase, hq, ht]) (fun _ h => h.owed.trans hw)
        fun e w₅ he h => hfail e w₅ he h.owed)
    · exact holds_mappedTransfer (by simp [hw, hbase, hq]) (by simp [hw, hbase])
        (by simp [hw, hbase, hd]) (fun _ h => h.trans hw) hfail
  · exact (holds_cleanUp hset (h₄.trans hbase) hq hd).mono (fun _ _ h => h.2)
      fun _ _ h => h.abandons

theorem measureDeviceToHost_holds (hc : c ∈ w.owed) (hq : q ∈ w.owed) (hd : d ∈ w.owed) :
    Holds (measureDeviceToHost o (some c) (some q) (some d) mm am n) w
      (fun _ w' => w'.owed = w.owed) (Abandons (acquired mm .deviceToHost) w.owed) := by
  refine holds_bind.mpr (holds_acquire (by simp [hc]) (fun x w₁ h₁ => holds_bind.mpr ?_)
    fun e _ he h => .none he h.owed)
  refine holds_enqueue (by simp [h₁.owed, hq, hd]) fun _ w₀ h₀ => holds_bind.mpr ?_
  have h₁' : w.Grants .memObject x w₀ := h₁.trans_same h₀
  have habandon (r : Leave Status) (w' : World) : Abandons (setUpKinds mm) w₀.owed r w' →
      Abandons (acquired mm .deviceToHost) w.owed r w' := .withBuffer mm h₁' nofun
  refine (holds_setUpTarget mm (by simp [h₁'.owed, hc]) (by simp [h₁'.owed, hq])).mono
    (fun hs w₂ ⟨l, hset, h₂⟩ => ?_) habandon
  have hbase : w₂.owed = l + x ::ₘ w.owed := by rw [h₂, h₁'.owed]
  refine holds_bind.mpr (holds_enqueue (by simp [hbase, hq]) fun _ w₃ h₃ => holds_bind.mpr ?_)
  refine holds_enqueue (by simp [h₃.owed, hbase, hq]) fun _ w₄ h₄ => holds_bind.mpr ?_
  refine (holds_loop (fun _ _ w' => w'.owed = w₂.owed) n (h₄.owed.trans h₃.owed)
    fun i _ _ w' hw => ?_).mono (fun e w₅ h₅ => ?_) fun _ _ => id
  · have ht : w'.Valid hs.2 := hset.valid (hw.trans hbase) (by simp [hd])
    refine holds_ite (fun _ => ?_) fun _ => ?_
    · exact holds_bind.mpr (holds_perform (by simp [hw, hbase, hq, ht]) (fun _ h => h.owed.trans hw)
        fun e _ he h => habandon _ _ (hset.abandons he (h.owed.trans (hw.trans h₂))))
    · exact holds_mappedTransferBack (by simp [hw, hbase, hq]) (by simp [hw, hbase])
        (by simp [hw, hbase, hd]) fun _ _ h => h.trans hw
  · exact (holds_cleanUp hset (h₅.trans hbase) hq hd).mono (fun _ _ h => h.2)
      fun _ _ h => h.abandons

theorem measureDeviceToDevice_holds (hc : c ∈ w.owed) (hq : q ∈ w.owed) (hd : d ∈ w.owed) :
    Holds (measureDeviceToDevice o (some c) (some q) (some d) mm am n) w
      (fun _ w' => w'.owed = w.owed) (Abandons (acquired mm .deviceToDevice) w.owed) := by
  refine holds_bind.mpr (holds_acquire (by simp [hc]) (fun x w₁ h₁ => holds_bind.mpr ?_)
    fun e _ he h => .none he h.owed)
  refine holds_acquire (by simp [h₁.owed, hc]) (fun y w₂ h₂ => holds_bind.mpr ?_)
    fun e _ he h => ?_
  · have hbase : w₂.owed = y ::ₘ x ::ₘ w.owed := by rw [h₂.owed, h₁.owed]
    refine holds_perform (by simp [hbase, hq, hd]) (fun w₃ h₃ => holds_bind.mpr ?_)
      fun e _ he h => ?_
    · refine holds_enqueue (by simp [h₃.owed, hbase, hq]) fun _ w₄ h₄ => holds_bind.mpr ?_
      refine (holds_loop (fun _ _ w' => w'.owed = w₂.owed) n (h₄.owed.trans h₃.owed)
        fun i _ _ w' hw => holds_enqueue (by simp [hw, hbase, hq]) fun _ _ h => h.owed.trans hw).mono
        (fun _ w₅ h₅ => holds_bind.mpr ?_) fun _ _ => id
      refine holds_enqueue (by simp [h₅, hbase, hq]) fun _ w₆ h₆ => holds_bind.mpr ?_
      have h₆' : w₆.owed = w₂.owed := h₆.owed.trans h₅
      refine holds_check (by simp [h₆', hbase, hq]) (by simp [h₆', hbase]) (by simp [h₆', hbase, hd])
        (fun w₇ h₇ => holds_bind.mpr ?_) fun _ => .exit
      have h₇' : w₇.owed = y ::ₘ x ::ₘ w.owed := h₇.trans (h₆'.trans hbase)
      refine holds_release (by simp [h₇']) fun _ w₈ h₈ => holds_bind.mpr ?_
      have h₈' : w₈.owed = y ::ₘ w.owed := by
        rw [h₈.owed, h₇', Multiset.cons_swap, Multiset.erase_cons_head]
      refine holds_release (by simp [h₈']) fun _ w₉ h₉ => holds_pure.mpr ?_
      rw [h₉.owed, h₈', Multiset.erase_cons_head]
    · refine (Abandons.init he (h.owed.trans hbase)).cons.cons.mono ?_
      simp [h₁.kind, h₂.kind, acquired]
  · refine (Abandons.init he (h.owed.trans h₁.owed)).cons.mono ?_
    simp [h₁.kind, acquired]

theorem measure_holds {dir : Direction} (hc : c ∈ w.owed) (hq : q ∈ w.owed) (hd : d ∈ w.owed) :
    Holds (measure o dir (some c) (some q) (some d) mm am n) w (fun _ w' => w'.owed = w.owed)
      (Abandons (acquired mm dir) w.owed) := by
  cases dir with
  | hostToDevice => exact measureHostToDevice_holds mm am n hc hq hd
  | deviceToHost => exact measureDeviceToHost_holds mm am n hc hq hd
  | deviceToDevice => exact measureDeviceToDevice_holds mm am n hc hq hd

/-- **Objects of a measurement**: in every direction and mode, whatever the calls
report, each is made on objects that exist; a measurement that returns at its
end has released them all, an earlier return reports an error and strands the
first of those acquired. -/
theorem measure_released (o : Nat → Status) (w : World) (dir : Direction) (hc : c ∈ w.owed)
    (hq : q ∈ w.owed) (hd : d ∈ w.owed) :
    Holds (measure o dir (some c) (some q) (some d) mm am n) w (fun _ w' => w'.owed = w.owed)
      (Abandons (acquired mm dir) w.owed) :=
  measure_holds mm am n hc hq hd

/-- Before a measurement: a context, a queue and an array. -/
def host : World := ((World.empty.grant .context).grant .commandQueue).grant .block

/-- Pinned memory is read back directly, and the third call fails. -/
theorem measure_released_pinned : ⟨.context, 0⟩ ∈ host.owed ∧ ⟨.commandQueue, 1⟩ ∈ host.owed ∧
    ⟨.block, 2⟩ ∈ host.owed ∧
    Holds (measure (fun i => if i = 2 then -4 else 0) .deviceToHost (some ⟨.context, 0⟩)
      (some ⟨.commandQueue, 1⟩) (some ⟨.block, 2⟩) .pinned .direct 25) host
      (fun _ w' => w'.owed = host.owed) (Abandons (acquired .pinned .deviceToHost) host.owed) :=
  ⟨by decide, by decide, by decide, measure_released .pinned .direct 25 _ host .deviceToHost
    (by decide) (by decide) (by decide)⟩

end

/-! ## runs -/

/-- At most `k` objects are stranded. -/
def Strands (k : Nat) (w w' : World) : Prop := ∃ l : Multiset Obj, w'.owed = l + w.owed ∧ l.card ≤ k

theorem Strands.refl (w : World) : Strands 0 w w := ⟨0, by simp⟩

theorem Strands.trans {j k : Nat} {w w' w'' : World} (h : Strands j w w') (h' : Strands k w' w'') :
    Strands (j + k) w w'' := by
  obtain ⟨l, hl, hj⟩ := h
  obtain ⟨l', hl', hk⟩ := h'
  exact ⟨l' + l, by rw [hl', hl, Multiset.add_assoc], by simp; omega⟩

/-- An early return strands what it abandons. -/
theorem Abandons.strands {kinds : List Kind} {w' : World} {e : Status}
    (h : Abandons kinds w.owed (.ok e) w') : e ≠ CL_SUCCESS ∧ Strands kinds.length w w' := by
  obtain ⟨he, l, hl, howed⟩ := h e rfl
  exact ⟨he, l, howed, by simpa using hl.length_le⟩

theorem length_acquired_le (mm : MemMode) (dir : Direction) : (acquired mm dir).length ≤ 3 := by
  cases mm <;> cases dir <;> decide

/-- The runs that failed. -/
def failures (errs : List Status) : Nat := errs.countP (· ≠ CL_SUCCESS)

section
variable {c : Obj} (mm : MemMode) (am : AccessMode) (n : Nat)

theorem holds_measureStep {dir : Direction} {Q : Unit → World → Prop} (hc : c ∈ w.owed)
    (hq : q ∈ w.owed) (hd : d ∈ w.owed) (hok : ∀ w', w'.owed = w.owed → Q () w')
    (hfail : ∀ e w', e ≠ CL_SUCCESS → Strands 3 w w' → R (.ok e) w')
    (hexit : ∀ code w', R (.error code) w') :
    Holds (measureStep o dir (some c) (some q) (some d) mm am n) w Q R := by
  have hreturn (e : Status) (w' : World) (h : w'.owed = w.owed ∨ e ≠ CL_SUCCESS ∧ Strands 3 w w') :
      Holds (returnIf (e ≠ CL_SUCCESS) e) w' Q R := by
    refine holds_returnIf (fun he => ?_) fun he => ?_
    · rcases h with h | h
      · exact hfail e w' he ⟨0, by simpa using h⟩
      · exact hfail e w' he h.2
    · exact hok w' (h.resolve_right fun h => he h.1)
  refine holds_bind.mpr (holds_call ((measure_holds mm am n hc hq hd).mono
    (fun e w' h => hreturn e w' (.inl h)) fun r w' h => ?_))
  cases r with
  | error code => exact hexit code w'
  | ok e =>
      obtain ⟨he, l, hl, hcard⟩ := h.strands
      exact hreturn e w' (.inr ⟨he, l, hl, hcard.trans (length_acquired_le mm dir)⟩)

theorem runBenchmark_holds {β : Type} (hc : c ∈ w.owed) (hq : q ∈ w.owed) :
    Holds (call (runBenchmark o (some c) (some q) mm am n) : Effect World (Except Int β) Status) w
      (fun e w' => Strands (4 * failures [e]) w w') (fun r _ => ∃ code, r = .error code) := by
  refine holds_call (holds_bind.mpr (holds_malloc fun x w₁ h₁ => holds_bind.mpr ?_))
  have hfail (e : Status) (w₂ w' : World) (h₂ : w₂.owed = w₁.owed) (he : e ≠ CL_SUCCESS)
      (h : Strands 3 w₂ w') : Strands (4 * failures [e]) w w' := by
    obtain ⟨l, hl, hcard⟩ := h
    refine ⟨l + {x}, by rw [hl, h₂, h₁.owed, Multiset.add_assoc]; rfl, ?_⟩
    simp [failures, he]
    omega
  refine holds_measureStep mm am n (by simp [h₁.owed, hc]) (by simp [h₁.owed, hq])
    (by simp [h₁.owed]) (fun w₂ h₂ => holds_bind.mpr ?_) (fun e w' => hfail e w₁ w' rfl)
    fun code _ => ⟨code, rfl⟩
  refine holds_measureStep mm am n (by simp [h₂, h₁.owed, hc]) (by simp [h₂, h₁.owed, hq])
    (by simp [h₂, h₁.owed]) (fun w₃ h₃ => holds_bind.mpr ?_) (fun e w' => hfail e w₂ w' h₂)
    fun code _ => ⟨code, rfl⟩
  refine holds_measureStep mm am n (by simp [h₃, h₂, h₁.owed, hc]) (by simp [h₃, h₂, h₁.owed, hq])
    (by simp [h₃, h₂, h₁.owed]) (fun w₄ h₄ => holds_bind.mpr ?_)
    (fun e w' => hfail e w₃ w' (h₃.trans h₂)) fun code _ => ⟨code, rfl⟩
  refine holds_dispose (by simp [h₄, h₃, h₂, h₁.owed]) fun w₅ h₅ => ⟨0, ?_, by simp⟩
  rw [h₅.owed, h₄, h₃, h₂, h₁.owed, Multiset.erase_cons_head, Multiset.zero_add]

/-- The context and the queue of the device are never given up. -/
theorem Strands.mem {k : Nat} {x : Obj} {w' : World} (h : Strands k w w') (hx : x ∈ w.owed) :
    x ∈ w'.owed := by
  obtain ⟨l, hl, -⟩ := h
  simp [hl, hx]

theorem dataPoint_holds {β : Type} (repeats : Nat) (hc : c ∈ w.owed) (hq : q ∈ w.owed) :
    Holds (call (dataPoint o (some c) (some q) mm am n repeats) :
        Effect World (Except Int β) (List Status)) w
      (fun errs w' => Strands (4 * failures errs) w w') (fun r _ => ∃ code, r = .error code) := by
  refine holds_call ((holds_loop (fun _ errs w' => Strands (4 * failures errs) w w') repeats
    (show Strands (4 * failures []) w w from .refl w) fun i _ errs w₁ h₁ => ?_).mono
    (fun _ _ => id) fun _ _ => id)
  refine holds_bind.mpr ((runBenchmark_holds mm am n (h₁.mem hc) (h₁.mem hq)).mono
    (fun e w₂ h₂ => holds_bind.mpr ?_) ?_)
  · have h : Strands (4 * failures (errs ++ [e])) w w₂ := by
      simpa [failures, Nat.mul_add] using h₁.trans h₂
    exact holds_leaveIf (fun _ => h) fun _ => h
  · rintro _ _ ⟨code, rfl⟩
    exact ⟨code, rfl⟩

/-- **Objects of a device**: over any number of data points and repeats, every run
that fails strands at most four objects, and one that succeeds none. -/
theorem dataPoints_strand (o : Nat → Status) (w : World) (repeats numSizes : Nat)
    (hc : c ∈ w.owed) (hq : q ∈ w.owed) :
    Holds (dataPoints o (some c) (some q) mm am n repeats numSizes) w
      (fun errs w' => Strands (4 * failures errs) w w') (fun r _ => ∃ code, r = .error code) := by
  refine holds_loop (fun _ errs w' => Strands (4 * failures errs) w w') numSizes
    (Strands.refl w) fun i _ errs w₁ h₁ => holds_bind.mpr ?_
  refine (dataPoint_holds mm am n repeats (h₁.mem hc) (h₁.mem hq)).mono (fun more w₂ h₂ => ?_)
    fun _ _ => id
  have h := h₁.trans h₂
  simpa [failures, Nat.mul_add] using h

/-- Five data points of three repeats; every fourth call fails. -/
theorem dataPoints_strand_five : ⟨.context, 0⟩ ∈ host.owed ∧ ⟨.commandQueue, 1⟩ ∈ host.owed ∧
    Holds (dataPoints (fun i => if i % 4 = 3 then -5 else 0) (some ⟨.context, 0⟩)
      (some ⟨.commandQueue, 1⟩) .pageable .mapped 25 3 5) host
      (fun errs w' => Strands (4 * failures errs) host w') (fun r _ => ∃ code, r = .error code) :=
  ⟨by decide, by decide, dataPoints_strand .pageable .mapped 25 _ host 3 5 (by decide) (by decide)⟩

end

end

end UclBench.Released.BufferBandwidth
