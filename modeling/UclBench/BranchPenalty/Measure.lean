import UclBench.BranchPenalty.Kernel

/-!
# UclBench.BranchPenalty.Measure

All measurements on one device (`branch_penalty.cpp`).

The benchmark reports a failing call and goes on.  The selector on the device
is then the one written last, and the time printed is that of the launch that
succeeded last; `measureDevice_rows` follows both through the whole run, and
`measureDevice_sound` says what the lines are when nothing fails.
-/

namespace UclBench.BranchPenalty

/-! ## the run -/

/-- Which of the calls of a measurement return `CL_SUCCESS`. -/
structure Calls where
  write : Bool
  launch : Bool
  profile : Bool

/-- A launch that is timed, and the selector it ran over. -/
structure Event where
  launch : Nat
  selector : Buffer ℚ

/-- A line of figures: the time of `timed`, and its ratio to the time of `norm`. -/
structure Row where
  numBranches : Nat
  branchWidth : Nat
  timed : Event
  norm : Option Event

/-- The variables of the loops and the two buffers on the device. -/
structure Session where
  branchSelector : Buffer ℚ
  dBranchSelector : Buffer ℚ
  dResults : Buffer ℚ
  event : Option Event
  normtime : Option Event
  rows : List Row

/-- The work-items of a launch, in some order. -/
def launch (brancharray : Buffer ℚ) (order : List Nat) (outarray : Buffer ℚ) :
    Except Fault (Buffer ℚ) :=
  order.foldlM (branchPenalty brancharray) outarray

/-- A launch before the measurements; none when it fails. -/
def warmup (m : Session) : Option (List Nat) → Except Fault Session
  | none => .ok m
  | some order => match launch m.dBranchSelector order m.dResults with
    | .ok out => .ok { m with dResults := out }
    | .error f => .error f

/-- `clEnqueueNDRangeKernel(…, &event)`, which leaves `event` alone when it fails. -/
def enqueueTimed (k : Nat) (ok : Bool) (order : List Nat) (m : Session) : Except Fault Session :=
  if ok then
    match launch m.dBranchSelector order m.dResults with
    | .ok out => .ok { m with dResults := out, event := some ⟨k, m.dBranchSelector⟩ }
    | .error f => .error f
  else .ok m

/-- From the times of the event to the line. -/
def printRow (p : Nat × Nat) (ok : Bool) (m : Session) : Except Fault Session :=
  match m.event with
  | none => .error .uninitialised
  | some e =>
      if ok then
        let normtime := if p.1 = 1 ∧ p.2 = 1 then some e else m.normtime
        .ok { m with normtime := normtime, rows := m.rows ++ [⟨p.1, p.2, e, normtime⟩] }
      -- `time_start` and `time_end` are set by the calls that fail
      else .error .uninitialised

/-- Measurement `k`, of `branchtypes` and `branchsize`. -/
def measure (calls : Nat → Calls) (orders : Nat → List Nat) (k : Nat) (p : Nat × Nat) (m : Session) :
    Except Fault Session := do
  let branchSelector ← fillSelector Nat.cast bpSize p.1 p.2 m.branchSelector
  let dBranchSelector := if (calls k).write then branchSelector else m.dBranchSelector
  let m ← enqueueTimed k (calls k).launch (orders k)
    { m with branchSelector := branchSelector, dBranchSelector := dBranchSelector }
  printRow p (calls k).profile m

def measureAll (calls : Nat → Calls) (orders : Nat → List Nat) :
    Nat → List (Nat × Nat) → Session → Except Fault Session
  | _, [], m => .ok m
  | k, p :: ps, m => match measure calls orders k p m with
    | .ok m => measureAll calls orders (k + 1) ps m
    | .error f => .error f

def measureDevice (calls : Nat → Calls) (orders : Nat → List Nat)
    (warmups : List (Option (List Nat))) (m : Session) : Except Fault Session := do
  let m ← warmups.foldlM warmup m
  measureAll calls orders 0 (sweep bpSize) m

/-! ## what a line is about -/

/-- The last of the first `n` measurements for which `ok` holds. -/
def latest (ok : Nat → Bool) : Nat → Option Nat
  | 0 => none
  | n + 1 => if ok n then some n else latest ok n

/-- The selector on the device after `n` measurements: that of the last one written, `b₀` before
there is one. -/
def Selected (calls : Nat → Calls) (b₀ : Buffer ℚ) (n : Nat) (b : Buffer ℚ) : Prop :=
  match latest (fun k => (calls k).write) n with
  | none => b = b₀
  | some w => ∃ p, (sweep bpSize)[w]? = some p ∧ Pattern Nat.cast bpSize p.1 p.2 b

/-- The event after `n` measurements: the last launch that succeeded. -/
structure Timed (calls : Nat → Calls) (b₀ : Buffer ℚ) (n : Nat) (e : Event) : Prop where
  launch : latest (fun k => (calls k).launch) n = some e.launch
  selector : Selected calls b₀ (e.launch + 1) e.selector

/-- Measurement `n` has an event, and its times can be read. -/
def Readable (calls : Nat → Calls) (n : Nat) : Prop :=
  (n = 0 → (calls n).launch = true) ∧ (calls n).profile = true

/-- Line `k`. -/
structure Line (calls : Nat → Calls) (b₀ : Buffer ℚ) (k : Nat) (row : Row) : Prop where
  label : (sweep bpSize)[k]? = some (row.numBranches, row.branchWidth)
  timed : Timed calls b₀ (k + 1) row.timed
  norm : ∃ e, row.norm = some e ∧ Timed calls b₀ 1 e

/-- Line `k` as it should be: the time of its own launch, in which the work-items enter the
branches of the label. -/
structure Sound (k : Nat) (row : Row) : Prop where
  timed : row.timed.launch = k
  norm : ∃ e, row.norm = some e ∧ e.launch = 0
  items : ∀ i < bpSize, ∃ v, row.timed.selector.cell i = some v ∧
    entered v = [branchId row.numBranches row.branchWidth i]
  branches : ∀ b, (∃ i < bpSize, ∃ v, row.timed.selector.cell i = some v ∧ b ∈ entered v) ↔
    1 ≤ b ∧ b ≤ row.numBranches

/-- A session before its first measurement, the buffers created. -/
structure Created (m : Session) : Prop where
  host : m.branchSelector.size = bpSize
  selector : ∀ i < bpSize, ∃ v, m.dBranchSelector.cell i = some v
  results : m.dResults.size = bpSize
  event : m.event = none
  rows : m.rows = []

/-! ## launches -/

section
variable {brancharray outarray : Buffer ℚ} {order : List Nat} {id : Nat} {v : ℚ}

theorem writeEach_foldlM (hid : id < outarray.size) (vs : List ℚ) :
    ∃ out, vs.foldlM (fun (b : Buffer ℚ) q => b.write id q) outarray = .ok out ∧
      out.size = outarray.size ∧ ∀ j ≠ id, out.cell j = outarray.cell j := by
  induction vs generalizing outarray with
  | nil => exact ⟨outarray, rfl, rfl, fun _ _ => rfl⟩
  | cons q vs ih =>
      obtain ⟨out, hrun, hsize, hcells⟩ := ih (show id < (outarray.set id q).size from hid)
      refine ⟨out, ?_, hsize, fun j hj => by rw [hcells j hj, Buffer.cell_set_of_ne _ hj]⟩
      rw [List.foldlM_cons, Buffer.write_of_lt _ hid]
      exact hrun

/-- A work-item writes no cell but its own. -/
theorem branchPenalty_frame (hid : id < outarray.size) (hv : brancharray.cell id = some v) :
    ∃ out, branchPenalty brancharray outarray id = .ok out ∧ out.size = outarray.size ∧
      ∀ j ≠ id, out.cell j = outarray.cell j := by
  obtain ⟨out, hrun, hsize, hcells⟩ :=
    writeEach_foldlM hid ((entered v).map fun (k : Nat) => funfun (k * v))
  refine ⟨out, ?_, hsize, hcells⟩
  rw [branchPenalty, Buffer.read_of_cell hv, ← hrun, List.foldlM_map]
  rfl

theorem launch_ok (horder : ∀ i ∈ order, i < bpSize)
    (hb : ∀ i < bpSize, ∃ v, brancharray.cell i = some v) (hout : outarray.size = bpSize) :
    ∃ out, launch brancharray order outarray = .ok out ∧ out.size = bpSize := by
  induction order generalizing outarray with
  | nil => exact ⟨outarray, rfl, hout⟩
  | cons id order ih =>
      have hid := horder id List.mem_cons_self
      obtain ⟨v, hv⟩ := hb id hid
      obtain ⟨out₁, hfirst, hsize, -⟩ := branchPenalty_frame (hout ▸ hid) hv
      obtain ⟨out, hrest, hsize'⟩ :=
        ih (fun i hi => horder i (List.mem_cons_of_mem _ hi)) (hsize.trans hout)
      refine ⟨out, ?_, hsize'⟩
      rw [launch, List.foldlM_cons, hfirst]
      exact hrest

/-- With whole numbers for ids, every work-item leaves the result of its own branch. -/
theorem launch_results {ids : Nat → Nat} (hnodup : order.Nodup) (horder : ∀ i ∈ order, i < bpSize)
    (hb : ∀ i < bpSize, brancharray.cell i = some (ids i : ℚ))
    (hids : ∀ i < bpSize, 1 ≤ ids i ∧ ids i ≤ bpSize) (hout : outarray.size = bpSize) :
    ∃ out, launch brancharray order outarray = .ok out ∧
      (∀ i ∈ order, out.cell i = some (funfun (ids i * ids i))) ∧
      ∀ i, i ∉ order → out.cell i = outarray.cell i := by
  induction order generalizing outarray with
  | nil => exact ⟨outarray, rfl, by simp, fun _ _ => rfl⟩
  | cons id order ih =>
      obtain ⟨hnew, hnodup⟩ := List.nodup_cons.mp hnodup
      have hid := horder id List.mem_cons_self
      obtain ⟨hlo, hhi⟩ := hids id hid
      have hroom : id < outarray.size := hout ▸ hid
      have hfirst : branchPenalty brancharray outarray id =
          .ok (outarray.set id (funfun (ids id * ids id))) := by
        rw [branchPenalty_natCast hlo hhi (hb id hid), Buffer.write_of_lt _ hroom]
      obtain ⟨out, hrest, hdone, hframe⟩ := ih hnodup
        (fun i hi => horder i (List.mem_cons_of_mem _ hi))
        (show (outarray.set id (funfun (ids id * ids id))).size = bpSize from hout)
      refine ⟨out, ?_, fun i hi => ?_, fun i hi => ?_⟩
      · rw [launch, List.foldlM_cons, hfirst]
        exact hrest
      · rcases List.mem_cons.mp hi with rfl | hi
        · rw [hframe i hnew, Buffer.cell_set_self _ hroom]
        · exact hdone i hi
      · rw [List.mem_cons, not_or] at hi
        rw [hframe i hi.2, Buffer.cell_set_of_ne _ hi.1]

end

/-! ## the measurements in order -/

theorem sweep_head (hn : 0 < n) : ∃ ps, sweep n = (1, 1) :: ps := by
  obtain ⟨n, rfl⟩ : ∃ k, n = k + 1 := ⟨n - 1, by omega⟩
  simp [sweep, List.range'_succ]

theorem sweep_last (hn : 0 < n) : (sweep n)[(sweep n).length - 1]? = some (n, 1) := by
  obtain ⟨n, rfl⟩ : ∃ k, n = k + 1 := ⟨n - 1, by omega⟩
  rw [← List.getLast?_eq_getElem?, sweep, List.range'_1_concat, List.flatMap_append]
  simp [Nat.add_comm 1 n]

theorem bpSize_pos : 0 < bpSize := by decide

theorem nodup_sweep (n : Nat) : (sweep n).Nodup := by
  have hinj (t : Nat) : Function.Injective fun s : Nat => (t, s) := fun _ _ h => (Prod.mk.inj h).2
  refine List.nodup_flatMap.mpr ⟨fun t _ => (List.nodup_range' _).map (hinj t), ?_⟩
  have htypes : (List.range' 1 n).Nodup := List.nodup_range' _
  refine htypes.imp fun hne p hp hp' => ?_
  obtain ⟨s, -, rfl⟩ := List.mem_map.mp hp
  obtain ⟨s', -, heq⟩ := List.mem_map.mp hp'
  exact hne (Prod.mk.inj heq).1.symm

/-- The reference of the relative times is measured first, and only then. -/
theorem eq_one_iff {k : Nat} {p : Nat × Nat} (hp : (sweep bpSize)[k]? = some p) :
    p.1 = 1 ∧ p.2 = 1 ↔ k = 0 := by
  obtain ⟨ps, hsweep⟩ := sweep_head bpSize_pos
  have hzero : (sweep bpSize)[0]? = some (1, 1) := by
    rw [hsweep]
    rfl
  obtain ⟨hk, hget⟩ := List.getElem?_eq_some_iff.mp hp
  obtain ⟨h₀, hget₀⟩ := List.getElem?_eq_some_iff.mp hzero
  have hinj : (sweep bpSize)[k] = (sweep bpSize)[0] ↔ k = 0 := (nodup_sweep bpSize).getElem_inj_iff
  rw [← hinj, hget, hget₀, Prod.ext_iff]

section
variable {calls : Nat → Calls} {orders : Nat → List Nat} {b₀ b : Buffer ℚ} {n k : Nat}

theorem Selected.assigned (h : Selected calls b₀ n b)
    (hb₀ : ∀ i < bpSize, ∃ v, b₀.cell i = some v) : ∀ i < bpSize, ∃ v, b.cell i = some v := by
  unfold Selected at h
  split at h
  · rw [h]
    exact hb₀
  · obtain ⟨p, -, hpattern⟩ := h
    exact fun i hi => ⟨_, hpattern.element i hi⟩

theorem Selected.write (h : Selected calls b₀ n b) {p : Nat × Nat} (hp : (sweep bpSize)[n]? = some p)
    {host : Buffer ℚ} (hhost : Pattern Nat.cast bpSize p.1 p.2 host) :
    Selected calls b₀ (n + 1) (if (calls n).write then host else b) := by
  unfold Selected
  cases hwrite : (calls n).write with
  | true =>
      simp only [latest, hwrite, if_true]
      exact ⟨p, hp, hhost⟩
  | false =>
      simp only [latest, hwrite, Bool.false_eq_true, if_false]
      exact h

/-- The session after the first `n` measurements. -/
structure Measured (calls : Nat → Calls) (orders : Nat → List Nat) (b₀ : Buffer ℚ) (n : Nat)
    (m : Session) : Prop where
  host : m.branchSelector.size = bpSize
  selector : Selected calls b₀ n m.dBranchSelector
  results : m.dResults.size = bpSize
  event : match m.event with
    | none => n = 0
    | some e => Timed calls b₀ n e
  outcome : ∀ e, m.event = some e →
    ∃ out, out.size = bpSize ∧ launch e.selector (orders e.launch) out = .ok m.dResults
  normtime : n ≠ 0 → ∃ e, m.normtime = some e ∧ Timed calls b₀ 1 e
  length : m.rows.length = n
  rows : ∀ k row, m.rows[k]? = some row → Line calls b₀ k row

theorem Timed.keep {e : Event} (h : Timed calls b₀ n e) (hlaunch : (calls n).launch = false) :
    Timed calls b₀ (n + 1) e := by
  refine ⟨?_, h.selector⟩
  simp only [latest, hlaunch, Bool.false_eq_true, if_false]
  exact h.launch

/-- A measurement that has an event to read, and reads it. -/
theorem Measured.measure {m : Session} (h : Measured calls orders b₀ n m) {p : Nat × Nat}
    (hp : (sweep bpSize)[n]? = some p) (hb₀ : ∀ i < bpSize, ∃ v, b₀.cell i = some v)
    (horder : ∀ i ∈ orders n, i < bpSize) :
    (Readable calls n → ∃ m', measure calls orders n p m = .ok m' ∧ Measured calls orders b₀ (n + 1) m') ∧
      (¬ Readable calls n → measure calls orders n p m = .error .uninitialised) := by
  obtain ⟨host, hfill, hsize, hpattern⟩ := fillSelector_of_mem Nat.cast m.branchSelector
    (h.host.symm ▸ List.mem_of_getElem? hp : p ∈ sweep m.branchSelector.size)
  rw [h.host] at hfill hsize hpattern
  have hselector := h.selector.write hp hpattern
  generalize hdev : (if (calls n).write then host else m.dBranchSelector) = device at hselector
  let m₁ : Session := { m with branchSelector := host, dBranchSelector := device }
  have hmeasure {m₂ : Session} (henqueue : enqueueTimed n (calls n).launch (orders n) m₁ = .ok m₂) :
      BranchPenalty.measure calls orders n p m = printRow p (calls n).profile m₂ := by
    simp only [BranchPenalty.measure, hfill, hdev, Bind.bind, Except.bind]
    rw [henqueue]
  by_cases hevent : n = 0 ∧ (calls n).launch = false
  · -- there is no event
    refine ⟨fun h => absurd (h.1 hevent.1) (by simp [hevent.2]), fun _ => ?_⟩
    have hnone : m.event = none := by
      cases he : m.event with
      | none => rfl
      | some e =>
          have htimed := h.event
          rw [he, hevent.1] at htimed
          exact absurd htimed.launch (by simp [latest])
    rw [hmeasure (by simp only [enqueueTimed, hevent.2, Bool.false_eq_true, if_false]; rfl), printRow]
    simp only [m₁, hnone]
  · -- the launch, if it succeeds, makes the event that of this measurement
    obtain ⟨out, e, henqueue, hout, htimed, houtcome⟩ : ∃ out e,
        enqueueTimed n (calls n).launch (orders n) m₁ =
          .ok { m₁ with dResults := out, event := some e } ∧
        out.size = bpSize ∧ Timed calls b₀ (n + 1) e ∧
        ∃ prev, prev.size = bpSize ∧ launch e.selector (orders e.launch) prev = .ok out := by
      cases hlaunch : (calls n).launch with
      | true =>
          obtain ⟨out, hrun, hout⟩ := launch_ok horder (hselector.assigned hb₀) h.results
          have htimed : Timed calls b₀ (n + 1) ⟨n, device⟩ := by
            refine ⟨?_, hselector⟩
            simp only [latest, hlaunch, if_true]
          refine ⟨out, ⟨n, device⟩, ?_, hout, htimed, m.dResults, h.results, hrun⟩
          simp only [enqueueTimed, if_true, m₁, hrun]
      | false =>
          have hevent' := h.event
          cases he : m.event with
          | none =>
              rw [he] at hevent'
              exact absurd ⟨hevent', hlaunch⟩ hevent
          | some e =>
              rw [he] at hevent'
              refine ⟨m.dResults, e, ?_, h.results, hevent'.keep hlaunch, h.outcome e he⟩
              simp only [enqueueTimed, Bool.false_eq_true, if_false, m₁, ← he]
    constructor
    · rintro ⟨-, hprofile⟩
      let normtime := if p.1 = 1 ∧ p.2 = 1 then some e else m.normtime
      have hnorm : ∃ e, normtime = some e ∧ Timed calls b₀ 1 e := by
        by_cases hn : n = 0
        · subst hn
          exact ⟨e, if_pos ((eq_one_iff hp).mpr rfl), htimed⟩
        · obtain ⟨e₁, he₁, htimed₁⟩ := h.normtime hn
          exact ⟨e₁, (if_neg fun hone => hn ((eq_one_iff hp).mp hone)).trans he₁, htimed₁⟩
      let m' : Session := ⟨host, device, out, some e, normtime, m.rows ++ [⟨p.1, p.2, e, normtime⟩]⟩
      have hprint : printRow p (calls n).profile { m₁ with dResults := out, event := some e } = .ok m' := by
        simp only [printRow, hprofile, if_true]
        rfl
      refine ⟨m', (hmeasure henqueue).trans hprint, hsize, hselector, hout, htimed,
        fun _ he => Option.some.inj he ▸ houtcome, fun _ => hnorm, by simp [m', h.length],
        fun k row hrow => ?_⟩
      dsimp only [m'] at hrow
      by_cases hk : k < m.rows.length
      · exact h.rows k row (by rwa [List.getElem?_append_left hk] at hrow)
      · rw [List.getElem?_append_right (Nat.le_of_not_lt hk), List.getElem?_singleton] at hrow
        split at hrow
        · obtain rfl : k = n := by
            have hlength := h.length
            omega
          obtain rfl := Option.some.inj hrow
          exact ⟨hp, htimed, hnorm⟩
        · contradiction
    · intro hread
      have hprofile : (calls n).profile = false := by
        cases hprofile : (calls n).profile with
        | false => rfl
        | true => exact absurd ⟨fun hn => by simpa [hn] using hevent, hprofile⟩ hread
      rw [hmeasure henqueue, printRow, hprofile]
      simp only [Bool.false_eq_true, if_false]

/-- All measurements from number `done.length` on. -/
theorem Measured.measureAll {done ps : List (Nat × Nat)} (hsplit : sweep bpSize = done ++ ps) {m : Session}
    (h : Measured calls orders b₀ done.length m) (hb₀ : ∀ i < bpSize, ∃ v, b₀.cell i = some v)
    (horders : ∀ k, ∀ i ∈ orders k, i < bpSize) :
    ((∀ n < (sweep bpSize).length, done.length ≤ n → Readable calls n) →
      ∃ m', measureAll calls orders done.length ps m = .ok m' ∧
        Measured calls orders b₀ (sweep bpSize).length m') ∧
    ((∃ n < (sweep bpSize).length, done.length ≤ n ∧ ¬ Readable calls n) →
      measureAll calls orders done.length ps m = .error .uninitialised) := by
  induction ps generalizing done m with
  | nil =>
      rw [List.append_nil] at hsplit
      rw [hsplit]
      exact ⟨fun _ => ⟨m, rfl, h⟩, fun ⟨n, hlt, hle, _⟩ => absurd hlt (Nat.not_lt.mpr hle)⟩
  | cons p ps ih =>
      have hp : (sweep bpSize)[done.length]? = some p := by
        rw [hsplit, List.getElem?_append_right (Nat.le_refl _), Nat.sub_self]
        rfl
      have hlt : done.length < (sweep bpSize).length := (List.getElem?_eq_some_iff.mp hp).1
      obtain ⟨hok, herror⟩ := h.measure hp hb₀ (horders _)
      by_cases hread : Readable calls done.length
      · obtain ⟨m₁, hfirst, hm₁⟩ := hok hread
        have hlength : (done ++ [p]).length = done.length + 1 := List.length_append
        obtain ⟨hrest, hfail⟩ := ih (hsplit.trans (List.append_cons done p ps)) (hlength ▸ hm₁)
        rw [BranchPenalty.measureAll, hfirst, ← hlength]
        refine ⟨fun hall => hrest fun n hn hle => hall n hn (by omega), ?_⟩
        rintro ⟨n, hn, hle, hbad⟩
        refine hfail ⟨n, hn, ?_, hbad⟩
        rcases Nat.lt_or_eq_of_le hle with hlt | rfl
        · omega
        · exact absurd hread hbad
      · rw [BranchPenalty.measureAll, herror hread]
        exact ⟨fun hall => absurd (hall _ hlt (Nat.le_refl _)) hread, fun _ => rfl⟩

theorem warmups_ok {m : Session} (warmups : List (Option (List Nat)))
    (hb : ∀ i < bpSize, ∃ v, m.dBranchSelector.cell i = some v) (hm : m.dResults.size = bpSize)
    (horders : ∀ order, some order ∈ warmups → ∀ i ∈ order, i < bpSize) :
    ∃ out, warmups.foldlM warmup m = .ok { m with dResults := out } ∧ out.size = bpSize := by
  induction warmups generalizing m with
  | nil => exact ⟨m.dResults, rfl, hm⟩
  | cons w warmups ih =>
      have hrest : ∀ order, some order ∈ warmups → ∀ i ∈ order, i < bpSize := fun order hmem =>
        horders order (List.mem_cons_of_mem _ hmem)
      rw [List.foldlM_cons]
      cases w with
      | none => exact ih hb hm hrest
      | some order =>
          obtain ⟨out, hrun, hout⟩ := launch_ok (horders order List.mem_cons_self) hb hm
          simp only [warmup, hrun, Bind.bind, Except.bind]
          exact ih (m := { m with dResults := out }) hb hout hrest

theorem lt_of_perm {order : List Nat} (h : order.Perm (List.range n)) : ∀ i ∈ order, i < n :=
  fun _ hi => List.mem_range.mp (h.mem_iff.mp hi)

/-- The whole device. -/
theorem measureDevice_measured (calls : Nat → Calls) {m : Session} (hm : Created m) (warmups : List (Option (List Nat)))
    (hwarmups : ∀ order, some order ∈ warmups → order.Perm (List.range bpSize))
    (horders : ∀ k, (orders k).Perm (List.range bpSize)) :
    ((∀ n < (sweep bpSize).length, Readable calls n) →
      ∃ m', measureDevice calls orders warmups m = .ok m' ∧
        Measured calls orders m.dBranchSelector (sweep bpSize).length m') ∧
    ((∃ n < (sweep bpSize).length, ¬ Readable calls n) →
      measureDevice calls orders warmups m = .error .uninitialised) := by
  obtain ⟨out, hrun, hout⟩ := warmups_ok warmups hm.selector hm.results fun order hmem =>
    lt_of_perm (hwarmups order hmem)
  have hstart : Measured calls orders m.dBranchSelector ([] : List (Nat × Nat)).length
      { m with dResults := out } := by
    refine ⟨hm.host, rfl, hout, ?_, fun e he => ?_, fun hne => absurd rfl hne, ?_, ?_⟩
    · rw [hm.event]
      rfl
    · rw [hm.event] at he
      contradiction
    · rw [hm.rows]
      rfl
    · simp [hm.rows]
  obtain ⟨hok, herror⟩ := hstart.measureAll (show sweep bpSize = [] ++ sweep bpSize from rfl)
    hm.selector fun k => lt_of_perm (horders k)
  rw [measureDevice, hrun]
  exact ⟨fun h => hok fun n hn _ => h n hn, fun ⟨n, hn, hbad⟩ => herror ⟨n, hn, Nat.zero_le n, hbad⟩⟩

/-- **What is printed**: the run finishes when the first launch succeeds and the times of all
events can be read, and otherwise reads a variable that is not set.  Line `k` has the label of
measurement `k`; the time in it is that of the last launch that succeeded, over the selector that
was the last to be written before. -/
theorem measureDevice_rows (calls : Nat → Calls) (orders : Nat → List Nat)
    (warmups : List (Option (List Nat))) (m : Session) (hm : Created m)
    (hwarmups : ∀ order, some order ∈ warmups → order.Perm (List.range bpSize))
    (horders : ∀ k, (orders k).Perm (List.range bpSize)) :
    ((∀ n < (sweep bpSize).length, Readable calls n) →
      ∃ m', measureDevice calls orders warmups m = .ok m' ∧ m'.rows.length = (sweep bpSize).length ∧
        ∀ k row, m'.rows[k]? = some row → Line calls m.dBranchSelector k row) ∧
    ((∃ n < (sweep bpSize).length, ¬ Readable calls n) →
      measureDevice calls orders warmups m = .error .uninitialised) := by
  obtain ⟨hok, herror⟩ := measureDevice_measured calls hm warmups hwarmups horders
  refine ⟨fun h => ?_, herror⟩
  obtain ⟨m', hrun, hmeasured⟩ := hok h
  exact ⟨m', hrun, hmeasured.length, hmeasured.rows⟩

/-- A device that has been given zeros. -/
def freshSession : Session :=
  ⟨Buffer.alloc ℚ bpSize, Buffer.ofFn bpSize fun _ => 0, Buffer.alloc ℚ bpSize, none, none, []⟩

theorem freshSession_created : Created freshSession :=
  ⟨rfl, fun _ hi => ⟨0, Buffer.cell_ofFn hi⟩, rfl, rfl, rfl⟩

/-- The second launch fails. -/
theorem measureDevice_rows_second :
    (∀ n < (sweep bpSize).length, Readable (fun k => ⟨true, k != 1, true⟩) n) ∧
      ∃ m', measureDevice (fun k => ⟨true, k != 1, true⟩) (fun _ => List.range bpSize)
          [some (List.range bpSize)] freshSession = .ok m' ∧
        m'.rows.length = (sweep bpSize).length ∧ ∀ k row, m'.rows[k]? = some row →
          Line (fun k => ⟨true, k != 1, true⟩) freshSession.dBranchSelector k row := by
  have hread : ∀ n < (sweep bpSize).length, Readable (fun k => ⟨true, k != 1, true⟩) n :=
    fun n _ => ⟨by rintro rfl; rfl, rfl⟩
  have hrows := measureDevice_rows (fun k => ⟨true, k != 1, true⟩) (fun _ => List.range bpSize)
    [some (List.range bpSize)] freshSession freshSession_created
    (fun order h => by rw [Option.some.inj (List.mem_singleton.mp h)]) fun _ => List.Perm.refl _
  exact ⟨hread, hrows.1 hread⟩

theorem latest_of_true {ok : Nat → Bool} (h : ok n = true) : latest ok (n + 1) = some n := by
  rw [latest, if_pos h]

/-- **Without failures** every line is about its own pattern: in the launch it times each work-item
enters one branch, the branches entered are `1, …, branchtypes`, and the reference is the launch
with one branch.  The last launch leaves the result of branch `i + 1` in element `i`. -/
theorem measureDevice_sound (calls : Nat → Calls) (orders : Nat → List Nat)
    (warmups : List (Option (List Nat))) (m : Session) (hm : Created m)
    (hwarmups : ∀ order, some order ∈ warmups → order.Perm (List.range bpSize))
    (horders : ∀ k, (orders k).Perm (List.range bpSize)) (hcalls : ∀ k, calls k = ⟨true, true, true⟩) :
    ∃ m', measureDevice calls orders warmups m = .ok m' ∧
      m'.rows.map (fun row => (row.numBranches, row.branchWidth)) = sweep bpSize ∧
      (∀ k row, m'.rows[k]? = some row → Sound k row) ∧
      ∀ i < bpSize, m'.dResults.cell i = some (funfun ((i + 1) * (i + 1))) := by
  obtain ⟨hok, -⟩ := measureDevice_measured calls hm warmups hwarmups horders
  obtain ⟨m', hrun, hmeasured⟩ := hok fun n _ => by simp [Readable, hcalls]
  have hown {n : Nat} {e : Event} (h : Timed calls m.dBranchSelector (n + 1) e) : e.launch = n ∧
      ∃ p, (sweep bpSize)[n]? = some p ∧ Pattern Nat.cast bpSize p.1 p.2 e.selector := by
    have hlaunch : e.launch = n :=
      (Option.some.inj ((latest_of_true (by simp [hcalls])).symm.trans h.launch)).symm
    have hselector := h.selector
    rw [hlaunch, Selected, latest_of_true (by simp [hcalls])] at hselector
    exact ⟨hlaunch, hselector⟩
  refine ⟨m', hrun, ?_, fun k row hrow => ?_, ?_⟩
  · refine List.ext_getElem? fun k => ?_
    rw [List.getElem?_map]
    cases hrow : m'.rows[k]? with
    | some row => exact (hmeasured.rows k row hrow).label.symm
    | none =>
        rw [List.getElem?_eq_none_iff, hmeasured.length] at hrow
        exact (List.getElem?_eq_none_iff.mpr hrow).symm
  · obtain ⟨hlabel, htimed, e, he, hnorm⟩ := hmeasured.rows k row hrow
    obtain ⟨hlaunch, p, hp, hpattern⟩ := hown htimed
    obtain rfl := Option.some.inj (hlabel.symm.trans hp)
    obtain ⟨hitems, hbranches⟩ := entered_iff (List.mem_of_getElem? hlabel) hpattern
    exact ⟨hlaunch, ⟨e, he, (hown hnorm).1⟩, hitems, hbranches⟩
  · have hlast := sweep_last bpSize_pos
    obtain ⟨ps, hsweep⟩ := sweep_head bpSize_pos
    obtain ⟨n, hn⟩ : ∃ n, (sweep bpSize).length = n + 1 := ⟨ps.length, by rw [hsweep, List.length_cons]⟩
    have hevent := hmeasured.event
    cases he : m'.event with
    | none =>
        rw [he] at hevent
        omega
    | some e =>
        rw [he] at hevent
        obtain ⟨-, p, hp, hpattern⟩ := hown (hn ▸ hevent)
        obtain rfl : p = (bpSize, 1) := by
          rw [hn, Nat.add_sub_cancel, hp] at hlast
          exact Option.some.inj hlast
        obtain ⟨out, hout, hrun⟩ := hmeasured.outcome e he
        have hids (i : Nat) (hi : i < bpSize) : i / 1 % bpSize + 1 = i + 1 := by
          rw [Nat.div_one, Nat.mod_eq_of_lt hi]
        have hcells : ∀ i < bpSize, e.selector.cell i = some ((i + 1 : Nat) : ℚ) := fun i hi => by
          rw [hpattern.element i hi, hids i hi]
        obtain ⟨out', hrun', hdone, -⟩ := launch_results ((horders _).nodup_iff.mpr List.nodup_range)
          (lt_of_perm (horders _)) hcells (fun i hi => ⟨by omega, hi⟩) hout
        obtain rfl := Except.ok.inj (hrun'.symm.trans hrun)
        intro i hi
        have hresult := hdone i ((horders _).mem_iff.mpr (List.mem_range.mpr hi))
        push_cast at hresult
        exact hresult

theorem measureDevice_sound_reverse :
    Created freshSession ∧ ((List.range bpSize).reverse).Perm (List.range bpSize) ∧
      ∃ m', measureDevice (fun _ => ⟨true, true, true⟩) (fun _ => (List.range bpSize).reverse)
          [none, some (List.range bpSize)] freshSession = .ok m' ∧
        m'.rows.map (fun row => (row.numBranches, row.branchWidth)) = sweep bpSize := by
  refine ⟨freshSession_created, List.reverse_perm _, ?_⟩
  obtain ⟨m', hrun, hlabels, -⟩ := measureDevice_sound (fun _ => ⟨true, true, true⟩)
    (fun _ => (List.range bpSize).reverse) [none, some (List.range bpSize)] freshSession
    freshSession_created (fun order h => by
      have horder : order = List.range bpSize := by simpa using h
      rw [horder]) (fun _ => List.reverse_perm _) fun _ => rfl
  exact ⟨m', hrun, hlabels⟩

end

end UclBench.BranchPenalty
