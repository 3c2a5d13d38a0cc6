import UclBench.BufferBandwidth.Verified

/-!
# UclBench.BufferBandwidth.Reported

Whether a failed call of a measurement reaches its return value.

`measureHostToDevice` tests `err` behind every call.  `measureDeviceToHost`
overwrites the status of its set-up write, and goes round the loop again when a
map fails; `measureDeviceToDevice` overwrites the statuses of its copies with
those of the releases.  `errorsReported_iff` says which statuses get lost.
-/

namespace UclBench.BufferBandwidth

open Function Stmt

/-! ## the calls -/

/-- The set-up calls whose status is stored in `err`, and the transfer calls of
the timed loop, succeed. -/
def Statuses.CallsSucceed (st : Statuses) (d : Direction) (mm : MemMode) (iterations : Nat) : Prop :=
  (match d with
    | .hostToDevice =>
        mm = .pinned → st.setupMap 0 = CL_SUCCESS ∧ st.setupMap 1 = CL_SUCCESS
    | .deviceToHost =>
        st.setupWrite = CL_SUCCESS ∧ (mm = .pinned → st.setupMap 0 = CL_SUCCESS)
    | .deviceToDevice => st.setupWrite = CL_SUCCESS) ∧
  ∀ i < iterations, st.timed i = CL_SUCCESS

/-- What `measureDeviceToHost` has stored in `err` behind its timed loop. -/
def Statuses.lastStored (st : Statuses) (mm : MemMode) : Nat → Status
  | 0 => if mm = .pinned then st.setupMap 0 else st.setupWrite
  | i + 1 => st.timed i

/-- Every status that is looked at is a success, another one is not. -/
def Statuses.Swallows (st : Statuses) (d : Direction) (mm : MemMode) (am : AccessMode)
    (iterations : Nat) : Prop :=
  match d with
  | .hostToDevice => False
  | .deviceToHost =>
      st.create .dmem = CL_SUCCESS ∧
      (mm = .pinned → st.create .pinnedHmem = CL_SUCCESS ∧ st.setupMap 0 = CL_SUCCESS) ∧
      (am = .direct → ∀ i < iterations, st.timed i = CL_SUCCESS) ∧
      st.lastStored mm iterations = CL_SUCCESS ∧
      (st.setupWrite ≠ CL_SUCCESS ∨ ∃ i < iterations, st.timed i ≠ CL_SUCCESS)
  | .deviceToDevice =>
      st.create .dmemSrc = CL_SUCCESS ∧ st.create .dmemDst = CL_SUCCESS ∧
      st.setupWrite = CL_SUCCESS ∧
      st.release .dmemSrc = CL_SUCCESS ∧ st.release .dmemDst = CL_SUCCESS ∧
      ∃ i < iterations, st.timed i ≠ CL_SUCCESS

/-- The function returns `CL_SUCCESS` only if all these calls succeeded. -/
def ErrorsReported {α : Type _} {size : Nat} [DecidableEq α] (d : Direction) (mm : MemMode)
    (am : AccessMode) (iterations : Nat) (data : Fin size → α) (st : Statuses) : Prop :=
  ∀ (ct : Contents α size) (mem : Buf → Fin size → α),
    d.measure st ct mm am iterations data = .returned CL_SUCCESS mem →
    st.CallsSucceed d mm iterations

/-! ## what a return of `CL_SUCCESS` tells -/

section
variable {α : Type _} {size : Nat} {st : Statuses} {ct : Contents α size} {mm : MemMode}
  {am : AccessMode} {n : Nat} {e : Status}

/-- If the result is `CL_SUCCESS`, then `F`. -/
def OnSuccess (F : Prop) (r : Result α size) : Prop := ∀ mem, r = .returned CL_SUCCESS mem → F

theorem onSuccess_error {F : Prop} (h : e ≠ CL_SUCCESS) (mem : Buf → Fin size → α) :
    OnSuccess F (.returned e mem) := by
  intro mem' heq
  exact absurd (Result.returned.inj heq).1 h

theorem onSuccess_exited {F : Prop} : OnSuccess F (.exited : Result α size) := by
  intro mem heq
  contradiction

/-- A triple about every memory, with a fact that the statements establish. -/
abbrev Known (e : Status) (F : Prop) : State α size → Prop := At e fun _ => F

theorem triple_fill_known {F G : Prop} {b : Buf} {x : Fin size → α} {R : Result α size → Prop}
    (h : F → G) : Triple (Known e F) (fill b x) (Known e G) R := triple_fill fun _ => h

/-- Whatever `err` is. -/
theorem triple_forget {F G : Prop} {R : Result α size → Prop}
    {c : Stmt (Result α size) (State α size)} (h : ∀ e, Triple (Known e F) c (fun _ => G) R) :
    Triple (fun _ => F) c (fun _ => G) R := fun s hF => h s.err s ⟨rfl, hF⟩

variable [DecidableEq α]

theorem triple_check_known {F G : Prop} {src : Buf} :
    Triple (Known e F) (check src : Stmt (Result α size) (State α size)) (Known e F)
      (OnSuccess G) :=
  triple_check (fun _ h _ => h) fun _ _ _ => onSuccess_exited

theorem measureHostToDevice_reported :
    Triple (Known e True) (measureHostToDevice st ct mm am n)
      (fun s => s.err = CL_SUCCESS → st.CallsSucceed .hostToDevice mm n)
      (OnSuccess (st.CallsSucceed .hostToDevice mm n)) := by
  let Setup : Prop := mm = .pinned → st.setupMap 0 = CL_SUCCESS ∧ st.setupMap 1 = CL_SUCCESS
  have hpass (i : Nat) : Triple (Known CL_SUCCESS (Setup ∧ ∀ j < i, st.timed j = CL_SUCCESS))
      (seq [setErr (st.timed i), returnOnError, fill .dmem (ct.left i)])
      (Known CL_SUCCESS (Setup ∧ ∀ j < i + 1, st.timed j = CL_SUCCESS))
      (OnSuccess (st.CallsSucceed .hostToDevice mm n)) := by
    refine triple_call onSuccess_error fun hi => ?_
    refine Triple.seq_cons (triple_fill_known fun h => ?_) (Triple.seq_nil fun _ => id)
    exact ⟨h.1, Nat.forall_lt_succ_right.mpr ⟨h.2, hi⟩⟩
  refine triple_call onSuccess_error fun _ => ?_
  refine Triple.seq_cons (Q := Known CL_SUCCESS (Setup ∧ ∀ j < 0, st.timed j = CL_SUCCESS))
    (Triple.ite (fun _ => ?_) fun hmm => Triple.skip fun s hs => ?_) ?_
  · refine triple_call onSuccess_error fun _ => triple_call onSuccess_error fun hmap => ?_
    refine Triple.seq_cons (triple_copy (Q := fun _ => True) fun _ _ => trivial) ?_
    exact triple_call onSuccess_error fun hmap' =>
      Triple.seq_nil fun s hs => ⟨hs.1, fun _ => ⟨hmap, hmap'⟩, by simp⟩
  · exact ⟨hs.1, fun h => absurd h hmm, by simp⟩
  refine Triple.seq_cons (Triple.loop _ n fun i _ =>
    Triple.ite (fun _ => hpass i) fun _ => hpass i) ?_
  exact Triple.seq_cons triple_check_known (Triple.seq_nil fun s hs _ => hs.2)

theorem measureDeviceToHost_reported (hst : ¬ st.Swallows .deviceToHost mm am n) :
    Triple (Known e True) (measureDeviceToHost st ct mm am n)
      (fun s => s.err = CL_SUCCESS → st.CallsSucceed .deviceToHost mm n)
      (OnSuccess (st.CallsSucceed .deviceToHost mm n)) := by
  let Setup : Prop := st.create .dmem = CL_SUCCESS ∧
    (mm = .pinned → st.create .pinnedHmem = CL_SUCCESS ∧ st.setupMap 0 = CL_SUCCESS)
  let Passed (i : Nat) : Prop := Setup ∧ (am = .direct → ∀ j < i, st.timed j = CL_SUCCESS)
  have hdirect (i : Nat) : Triple (Known (st.lastStored mm i) (Passed i))
      (seq [setErr (st.timed i), returnOnError, fill (transferData mm) (ct.left i)])
      (Known (st.lastStored mm (i + 1)) (Passed (i + 1)))
      (OnSuccess (st.CallsSucceed .deviceToHost mm n)) := by
    refine triple_call onSuccess_error fun hi => ?_
    have hlast : st.lastStored mm (i + 1) = CL_SUCCESS := hi
    rw [hlast]
    refine Triple.seq_cons (triple_fill_known fun h => ?_) (Triple.seq_nil fun _ => id)
    exact ⟨h.1, fun ham => Nat.forall_lt_succ_right.mpr ⟨h.2 ham, hi⟩⟩
  have hmapped (i : Nat) (ham : ¬ am = .direct) : Triple (Known (st.lastStored mm i) (Passed i))
      (seq [setErr (st.timed i), if st.timed i ≠ CL_SUCCESS then skip else fill .data (ct.left i)])
      (Known (st.lastStored mm (i + 1)) (Passed (i + 1)))
      (OnSuccess (st.CallsSucceed .deviceToHost mm n)) := by
    have hnext (h : Passed i) : Passed (i + 1) := ⟨h.1, fun h => absurd h ham⟩
    refine Triple.seq_cons triple_setErr (Triple.seq_cons (Triple.ite
      (fun _ => Triple.skip fun s hs => ?_) fun _ => triple_fill_known hnext)
      (Triple.seq_nil fun _ => id))
    exact ⟨hs.1, hnext hs.2⟩
  refine triple_call onSuccess_error fun hcreate => Triple.seq_cons triple_setErr ?_
  refine Triple.seq_cons (triple_setupWrite (Q := fun _ => True) (fun _ _ _ => trivial)
    fun _ _ _ => trivial) ?_
  refine Triple.seq_cons (Q := Known (st.lastStored mm 0) (Passed 0))
    (Triple.ite (fun hmm => ?_) fun hmm => Triple.skip fun s hs => ?_) ?_
  · refine triple_call onSuccess_error fun hpinned => triple_call onSuccess_error fun hmap =>
      Triple.seq_nil fun s hs => ⟨?_, ⟨hcreate, fun _ => ⟨hpinned, hmap⟩⟩, by simp⟩
    rw [Statuses.lastStored, if_pos hmm, hmap]
    exact hs.1
  · refine ⟨?_, ⟨hcreate, fun h => absurd h hmm⟩, by simp⟩
    rw [Statuses.lastStored, if_neg hmm]
    exact hs.1
  refine Triple.seq_cons (Triple.loop (fun i => Known (st.lastStored mm i) (Passed i)) n fun i _ =>
    Triple.ite (fun _ => hdirect i) fun ham => hmapped i ham) ?_
  refine Triple.seq_cons triple_check_known (Triple.seq_nil fun s hs herr => ?_)
  obtain ⟨hlast, ⟨-, hpinned⟩, hpassed⟩ := hs
  -- what is not swallowed has been looked at
  have hlost : ¬ (st.setupWrite ≠ CL_SUCCESS ∨ ∃ i < n, st.timed i ≠ CL_SUCCESS) := fun hlost =>
    hst ⟨hcreate, hpinned, hpassed, hlast.symm.trans herr, hlost⟩
  push Not at hlost
  exact ⟨⟨hlost.1, fun hmm => (hpinned hmm).2⟩, hlost.2⟩

theorem or_eq_success {a b : Status} : a ||| b = CL_SUCCESS ↔ a = CL_SUCCESS ∧ b = CL_SUCCESS := by
  simp only [CL_SUCCESS, ← Int32.toBitVec_inj, Int32.toBitVec_or, Int32.toBitVec_zero]
  exact BitVec.or_eq_zero_iff

theorem measureDeviceToDevice_reported (hst : ¬ st.Swallows .deviceToDevice mm am n) :
    Triple (Known e True) (measureDeviceToDevice st ct mm am n)
      (fun s => s.err = CL_SUCCESS → st.CallsSucceed .deviceToDevice mm n)
      (OnSuccess (st.CallsSucceed .deviceToDevice mm n)) := by
  refine triple_call onSuccess_error fun hsrc => triple_call onSuccess_error fun hdst => ?_
  refine Triple.seq_cons triple_setErr (Triple.seq_cons (triple_setupWrite (Q := fun _ => True)
    (fun _ _ _ => trivial) fun _ _ _ => trivial) ?_)
  refine Triple.seq_cons (Q := fun _ => st.setupWrite = CL_SUCCESS) ?_ ?_
  · rintro s ⟨herr, -⟩
    by_cases h : s.err = CL_SUCCESS
    · simpa [returnOnError, h] using herr.symm.trans h
    · simpa [returnOnError, h] using onSuccess_error h s.mem
  refine Triple.seq_cons (Triple.loop (fun _ _ => st.setupWrite = CL_SUCCESS) n fun i _ =>
    triple_forget fun _ => Triple.seq_cons triple_setErr (Triple.seq_cons (triple_fill_known id)
      (Triple.seq_nil fun _ hs => hs.2))) ?_
  refine Triple.seq_cons (triple_forget fun _ =>
    triple_check_known.conseq (fun _ => id) fun _ hs => hs.2) ?_
  rintro s hwrite herr
  obtain ⟨hrelease, hrelease'⟩ := or_eq_success.mp herr
  have hcopies : ¬ ∃ i < n, st.timed i ≠ CL_SUCCESS := fun hlost =>
    hst ⟨hsrc, hdst, hwrite, hrelease, hrelease', hlost⟩
  push Not at hcopies
  exact ⟨hwrite, hcopies⟩

end

/-! ## lost statuses -/

section
variable {α : Type _} {size : Nat} {st : Statuses} {mm : MemMode} {am : AccessMode} {n : Nat}
  {data : Fin size → α} {e : Status}

/-- Every array holds the original data. -/
def AllHold (data : Fin size → α) (mem : Buf → Fin size → α) : Prop := mem = fun _ => data

/-- Every transfer is exact, and memory happens to hold the data beforehand. -/
def Contents.exact (data : Fin size → α) : Contents α size := ⟨fun _ => data, data, fun _ => data⟩

theorem allHold_update {mem : Buf → Fin size → α} (b : Buf) (h : AllHold data mem) :
    AllHold data (update mem b data) := by
  rw [AllHold] at h ⊢
  subst h
  exact update_eq_self b _

theorem triple_fill_exact {b : Buf} {R : Result α size → Prop} :
    Triple (At e (AllHold data)) (fill b data) (At e (AllHold data)) R :=
  triple_fill fun _ => allHold_update b

theorem triple_setupWrite_exact {dst : Buf} {R : Result α size → Prop} :
    Triple (At e (AllHold data)) (setupWrite st (.exact data) dst) (At e (AllHold data)) R := by
  refine triple_setupWrite (fun _ mem h => ?_) fun _ _ => allHold_update dst
  have hdata : mem .data = data := congrFun h .data
  rw [hdata]
  exact allHold_update dst h

variable [DecidableEq α]

theorem triple_check_exact {src : Buf} :
    Triple (At e (AllHold data)) (check src) (At e (AllHold data)) fun _ => False := by
  refine triple_check (fun mem h _ => ?_) fun mem h hne => hne (by rw [AllHold] at h; simp [h])
  have hsrc : mem src = data := congrFun h src
  rw [hsrc]
  exact allHold_update .checkData h

theorem measureDeviceToHost_swallows (hst : st.Swallows .deviceToHost mm am n) :
    Triple (At e (AllHold data)) (measureDeviceToHost st (.exact data) mm am n)
      (fun s => s.err = CL_SUCCESS) fun _ => False := by
  obtain ⟨hcreate, hpinned, hdirect, hlast, -⟩ := hst
  refine triple_call (fun h => absurd hcreate h) fun _ => Triple.seq_cons triple_setErr ?_
  refine Triple.seq_cons triple_setupWrite_exact ?_
  refine Triple.seq_cons (Q := At (st.lastStored mm 0) (AllHold data))
    (Triple.ite (fun hmm => ?_) fun hmm => Triple.skip fun s hs => ?_) ?_
  · refine triple_call (fun h => absurd (hpinned hmm).1 h) fun _ => ?_
    refine triple_call (fun h => absurd (hpinned hmm).2 h) fun hmap => Triple.seq_nil fun s hs => ?_
    rw [Statuses.lastStored, if_pos hmm, hmap]
    exact hs
  · rw [Statuses.lastStored, if_neg hmm]
    exact hs
  refine Triple.seq_cons (Triple.loop (fun i => At (st.lastStored mm i) (AllHold data)) n fun i hi =>
    Triple.ite (fun ham => ?_) fun _ => ?_) ?_
  · have hok := hdirect ham i hi
    refine triple_call (fun h => absurd hok h) fun _ => ?_
    rw [show st.lastStored mm (i + 1) = CL_SUCCESS from hok]
    exact Triple.seq_cons triple_fill_exact (Triple.seq_nil fun _ => id)
  · exact Triple.seq_cons triple_setErr (Triple.seq_cons (Triple.ite
      (fun _ => Triple.skip fun _ => id) fun _ => triple_fill_exact) (Triple.seq_nil fun _ => id))
  · exact Triple.seq_cons triple_check_exact (Triple.seq_nil fun s hs => hs.1.trans hlast)

theorem measureDeviceToDevice_swallows (hst : st.Swallows .deviceToDevice mm am n) :
    Triple (At e (AllHold data)) (measureDeviceToDevice st (.exact data) mm am n)
      (fun s => s.err = CL_SUCCESS) fun _ => False := by
  obtain ⟨hsrc, hdst, hwrite, hrelease, hrelease', -⟩ := hst
  refine triple_call (fun h => absurd hsrc h) fun _ => triple_call (fun h => absurd hdst h) fun _ => ?_
  refine Triple.seq_cons triple_setErr (Triple.seq_cons triple_setupWrite_exact ?_)
  refine Triple.seq_cons (Q := fun s => AllHold data s.mem) ?_ ?_
  · rintro s ⟨herr, hs⟩
    simpa [returnOnError, herr, hwrite] using hs
  refine Triple.seq_cons (Triple.loop (fun _ (s : State α size) => AllHold data s.mem) n
    fun i _ s hs => ?_) ?_
  · exact allHold_update .dmemDst hs
  refine Triple.seq_cons (Q := fun s => AllHold data s.mem) (fun s hs => ?_) ?_
  · exact (triple_check_exact.conseq (fun _ => id) fun _ h => h.2) s ⟨rfl, hs⟩
  · exact fun s hs => or_eq_success.mpr ⟨hrelease, hrelease'⟩

end

/-! ## errors reported -/

section
variable {α : Type _} {size : Nat} [DecidableEq α] {d : Direction} {st : Statuses} {mm : MemMode}
  {am : AccessMode} {n : Nat} {data : Fin size → α}
  {c : Contents α size → Stmt (Result α size) (State α size)}

theorem errorsReported_of_triple
    (hd : ∀ ct, d.measure st ct mm am n data = finish (c ct (entry ct data)))
    (h : ∀ ct, Triple (Known CL_SUCCESS True) (c ct)
      (fun s => s.err = CL_SUCCESS → st.CallsSucceed d mm n) (OnSuccess (st.CallsSucceed d mm n))) :
    ErrorsReported d mm am n data st := by
  intro ct mem hret
  rw [hd] at hret
  rcases returned_of_triple (h ct) ⟨rfl, trivial⟩ hret with hleave | ⟨s, hs, herr, -⟩
  · exact hleave mem rfl
  · exact hs herr

/-- A run that returns `CL_SUCCESS` over exact transfers. -/
theorem exists_success_of_triple
    (hd : ∀ ct, d.measure st ct mm am n data = finish (c ct (entry ct data)))
    (h : Triple (At CL_SUCCESS (AllHold data)) (c (.exact data)) (fun s => s.err = CL_SUCCESS)
      fun _ => False) :
    ∃ mem, d.measure st (.exact data) mm am n data = .returned CL_SUCCESS mem := by
  have hentry : At CL_SUCCESS (AllHold data) (entry (.exact data) data) :=
    ⟨rfl, allHold_update .data rfl⟩
  obtain ⟨s, hret, hs⟩ := exists_of_triple h hentry
  exact ⟨s.mem, by rw [hd, hret, hs]⟩

theorem errorsReported_of_not_swallows (hst : ¬ st.Swallows d mm am n) :
    ErrorsReported d mm am n data st := by
  cases d with
  | hostToDevice => exact errorsReported_of_triple (fun _ => rfl) fun _ => measureHostToDevice_reported
  | deviceToHost =>
      exact errorsReported_of_triple (fun _ => rfl) fun _ => measureDeviceToHost_reported hst
  | deviceToDevice =>
      exact errorsReported_of_triple (fun _ => rfl) fun _ => measureDeviceToDevice_reported hst

theorem not_errorsReported (hst : st.Swallows d mm am n) : ¬ ErrorsReported d mm am n data st := by
  intro h
  cases d with
  | hostToDevice => exact hst
  | deviceToHost =>
      obtain ⟨mem, hret⟩ := exists_success_of_triple (d := .deviceToHost)
        (c := fun ct : Contents α size => measureDeviceToHost st ct mm am n) (fun _ => rfl)
        (measureDeviceToHost_swallows hst)
      obtain ⟨⟨hwrite, -⟩, htimed⟩ := h _ mem hret
      rcases hst.2.2.2.2 with hlost | ⟨i, hi, hlost⟩
      · exact hlost hwrite
      · exact hlost (htimed i hi)
  | deviceToDevice =>
      obtain ⟨mem, hret⟩ := exists_success_of_triple (d := .deviceToDevice)
        (c := fun ct : Contents α size => measureDeviceToDevice st ct mm am n) (fun _ => rfl)
        (measureDeviceToDevice_swallows hst)
      obtain ⟨-, htimed⟩ := h _ mem hret
      obtain ⟨i, hi, hlost⟩ := hst.2.2.2.2.2
      exact hlost (htimed i hi)

end

/-- **Errors**: a measurement reports every failed set-up call and transfer,
unless every status it looks at is a success and another one is not: the set-up
write or a map but the last of `measureDeviceToHost`, or a copy of
`measureDeviceToDevice`. -/
theorem errorsReported_iff {α : Type _} [DecidableEq α] {size : Nat} (d : Direction) (mm : MemMode)
    (am : AccessMode) (iterations : Nat) (data : Fin size → α) (st : Statuses) :
    ErrorsReported d mm am iterations data st ↔ ¬ st.Swallows d mm am iterations :=
  ⟨fun h hst => not_errorsReported hst h, errorsReported_of_not_swallows⟩

/-- Every copy fails with `CL_OUT_OF_RESOURCES`. -/
def copiesFail : Statuses := { Statuses.success with timed := fun _ => -5 }

/-- None of 25 failed copies is reported. -/
theorem copy_errors_swallowed :
    ¬ ErrorsReported .deviceToDevice .pageable .direct 25 ![(1 : Int)] copiesFail :=
  not_errorsReported ⟨rfl, rfl, rfl, rfl, rfl, 0, by decide, by decide⟩

end UclBench.BufferBandwidth
