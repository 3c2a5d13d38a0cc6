import UclBench.Loop
import Mathlib.Data.List.Induction
import Mathlib.Data.List.FinRange

/-!
# UclBench.Interleave

Parties that run concurrently, each performing its own log of events.

A trace is a list of events tagged with their party, and it interleaves the
logs when every party performs exactly its log, in order.  Three rules carry
what holds along one step to every interleaving:

* `run_invariant` — an invariant under which every event succeeds;
* `run_view` — **noninterference**: what a party sees evolves by its own log
  alone, if the events of the others do not touch it;
* `run_compose` — **composition**: parties that succeed on their own, each on
  what it sees, succeed together.

Events may be tested before they are performed (`checked`): `run_checked` is the
run that passes, `run_checked_stops` the one that does not.
-/

namespace UclBench

/-- The events of party `i`, in order. -/
def proj [DecidableEq ι] (i : ι) (τ : List (ι × α)) : List α :=
  τ.filterMap fun e => if e.1 = i then some e.2 else none

/-- Every party performs exactly its log, in order. -/
def Interleaves [DecidableEq ι] (logs : ι → List α) (τ : List (ι × α)) : Prop :=
  ∀ i, proj i τ = logs i

/-- Perform events one after the other. -/
def run (step : σ → ε → Except Fault σ) : List ε → σ → Except Fault σ
  | [], s => .ok s
  | e :: es, s => match step s e with
    | .error f => .error f
    | .ok s => run step es s

/-- Events that do not pass the test are accesses outside the storage. -/
def checked (test : ε → Prop) [DecidablePred test] (step : σ → ε → Except Fault σ) (s : σ) (e : ε) :
    Except Fault σ :=
  if test e then step s e else .error .outOfBounds

section
variable [DecidableEq ι] {i j : ι} {a : α} {τ τ' : List (ι × α)} {logs : ι → List α}

@[simp] theorem proj_nil : proj i ([] : List (ι × α)) = [] := rfl

@[simp] theorem proj_cons_self : proj i ((i, a) :: τ) = a :: proj i τ := by
  simp [proj]

theorem proj_cons_of_ne (h : j ≠ i) : proj i ((j, a) :: τ) = proj i τ := by
  simp [proj, h]

theorem mem_proj : a ∈ proj i τ ↔ (i, a) ∈ τ := by
  simp only [proj, List.mem_filterMap, Option.ite_none_right_eq_some, Option.some.injEq]
  constructor
  · rintro ⟨⟨j, b⟩, hmem, rfl, rfl⟩
    exact hmem
  · intro hmem
    exact ⟨(i, a), hmem, rfl, rfl⟩

/-- One party after the other. -/
theorem proj_flatMap (l : List ι) (hl : l.Nodup) (logs : ι → List α) (i : ι) :
    proj i (l.flatMap fun j => (logs j).map fun a => (j, a)) = if i ∈ l then logs i else [] := by
  have hself (xs : List α) (j : ι) :
      proj i (xs.map fun a => (j, a)) = if j = i then xs else [] := by
    by_cases hj : j = i
    · simp [proj, hj]
    · simp [proj, hj]
  induction l with
  | nil => rfl
  | cons j l ih =>
      obtain ⟨hj, hl⟩ := List.nodup_cons.mp hl
      rw [List.flatMap_cons, proj, List.filterMap_append, ← proj, ← proj, hself, ih hl]
      by_cases hij : j = i
      · subst hij
        simp [hj]
      · simp [hij, Ne.symm hij]

/-- There is an interleaving. -/
theorem exists_interleaves (logs : Fin n → List α) : ∃ τ, Interleaves logs τ :=
  ⟨_, fun i => by rw [proj_flatMap _ (List.nodup_finRange n), if_pos (List.mem_finRange i)]⟩

theorem Interleaves.mem (h : Interleaves logs τ) (hmem : (i, a) ∈ τ) : a ∈ logs i :=
  h i ▸ mem_proj.mpr hmem

end

section
variable {step : σ → ε → Except Fault σ} {es es' : List ε} {s s' : σ}

@[simp] theorem run_nil : run step [] s = .ok s := rfl

theorem run_cons {e : ε} (h : step s e = .ok s') : run step (e :: es) s = run step es s' := by
  rw [run, h]

theorem run_append (h : run step es s = .ok s') : run step (es ++ es') s = run step es' s' := by
  induction es generalizing s with
  | nil => rw [Except.ok.inj h]; rfl
  | cons e es ih =>
      rw [run] at h
      rw [List.cons_append, run]
      cases hs : step s e with
      | error f => simp only [hs] at h; contradiction
      | ok s₁ => simp only [hs] at h ⊢; exact ih h

/-- A test that every event passes changes nothing. -/
theorem run_checked {test : ε → Prop} [DecidablePred test] (h : ∀ e ∈ es, test e) (s : σ) :
    run (checked test step) es s = run step es s := by
  induction es generalizing s with
  | nil => rfl
  | cons e es ih =>
      have htail : ∀ e ∈ es, test e := fun e he => h e (List.mem_cons_of_mem _ he)
      rw [run, run, checked, if_pos (h e List.mem_cons_self)]
      cases step s e with
      | error f => rfl
      | ok s₁ => exact ih htail s₁

/-- **Invariants**: if every event succeeds from every state of the invariant
and stays inside it, all of them do. -/
theorem run_invariant (step : σ → ε → Except Fault σ) (Inv : σ → Prop)
    (hstep : ∀ e ∈ es, ∀ s, Inv s → ∃ s', step s e = .ok s' ∧ Inv s') (h₀ : Inv s) :
    ∃ s', run step es s = .ok s' ∧ Inv s' := by
  induction es generalizing s with
  | nil => exact ⟨s, rfl, h₀⟩
  | cons e es ih =>
      obtain ⟨s₁, hs, hinv⟩ := hstep e List.mem_cons_self s h₀
      obtain ⟨s', hrun, hinv'⟩ := ih (fun e he => hstep e (List.mem_cons_of_mem _ he)) hinv
      exact ⟨s', by rw [run_cons hs, hrun], hinv'⟩

/-- An invariant, indexed by the blocks of events done so far, that every
block advances. -/
theorem run_flatMap {block : α → List ε} (l : List α) (Inv : List α → σ → Prop)
    (hblock : ∀ done a, done ++ [a] <+: l → ∀ s, Inv done s →
      ∃ s', run step (block a) s = .ok s' ∧ Inv (done ++ [a]) s')
    (h₀ : Inv [] s) : ∃ s', run step (l.flatMap block) s = .ok s' ∧ Inv l s' := by
  induction l using List.reverseRecOn with
  | nil => exact ⟨s, rfl, h₀⟩
  | append_singleton l a ih =>
      obtain ⟨s₁, hrun, hinv⟩ :=
        ih fun done b hpre => hblock done b (hpre.trans (List.prefix_append l [a]))
      obtain ⟨s', hlast, hinv'⟩ := hblock l a (List.prefix_refl _) s₁ hinv
      refine ⟨s', ?_, hinv'⟩
      rw [List.flatMap_append, run_append hrun]
      simpa using hlast

/-- Events `n` times in a row. -/
def repeated (n : Nat) (es : List ε) : List ε := (List.replicate n es).flatten

@[simp] theorem mem_repeated {e : ε} : e ∈ repeated n es ↔ n ≠ 0 ∧ e ∈ es := by
  simp only [repeated, List.mem_flatten, List.mem_replicate]
  grind

/-- An invariant that counts the repetitions. -/
theorem run_repeated (Inv : Nat → σ → Prop)
    (hblock : ∀ k s, Inv k s → ∃ s', run step es s = .ok s' ∧ Inv (k + 1) s') (n : Nat)
    (h₀ : Inv k s) : ∃ s', run step (repeated n es) s = .ok s' ∧ Inv (k + n) s' := by
  induction n generalizing k s with
  | zero => exact ⟨s, rfl, h₀⟩
  | succ n ih =>
      obtain ⟨s₁, hfirst, hinv⟩ := hblock k s h₀
      obtain ⟨s', hrest, hinv'⟩ := ih hinv
      have hsplit : repeated (n + 1) es = es ++ repeated n es := by
        simp [repeated, List.replicate_succ]
      exact ⟨s', by rw [hsplit, run_append hfirst, hrest], by grind⟩

end

section
variable [DecidableEq ι] {step : σ → ι × α → Except Fault σ} {τ : List (ι × α)} {s s' : σ}

/-- **Noninterference**: `view` is what party `i` sees.  Its own events change
the view as `own` says, those of the others leave it alone; then a run changes
the view as the log of `i` says, whatever the interleaving. -/
theorem run_view {i : ι} (view : σ → β) (own : β → α → β)
    (hown : ∀ a, (i, a) ∈ τ → ∀ s s', step s (i, a) = .ok s' → view s' = own (view s) a)
    (hother : ∀ j a, j ≠ i → (j, a) ∈ τ → ∀ s s', step s (j, a) = .ok s' → view s' = view s)
    (hrun : run step τ s = .ok s') : view s' = (proj i τ).foldl own (view s) := by
  induction τ generalizing s with
  | nil => rw [Except.ok.inj hrun]; rfl
  | cons e τ ih =>
      obtain ⟨j, a⟩ := e
      rw [run] at hrun
      cases hs : step s (j, a) with
      | error f => simp only [hs] at hrun; contradiction
      | ok s₁ =>
          simp only [hs] at hrun
          have htail := ih (fun a ha => hown a (List.mem_cons_of_mem _ ha))
            (fun j a hj ha => hother j a hj (List.mem_cons_of_mem _ ha)) hrun
          by_cases hj : j = i
          · subst hj
            rw [htail, proj_cons_self, List.foldl_cons, hown a List.mem_cons_self s s₁ hs]
          · rw [htail, proj_cons_of_ne hj, hother j a hj List.mem_cons_self s s₁ hs]

/-- **Composition**: `view i` is what party `i` sees, and `own i` what its
events do there.  If every event that succeeds on the view of its party
succeeds on the whole and leaves the other views alone, then parties that
succeed one by one succeed in every interleaving, with the same views. -/
theorem run_compose (view : ι → σ → β) (own : ι → β → α → Except Fault β) {b : ι → β}
    (hstep : ∀ i a, (i, a) ∈ τ → ∀ s v, own i (view i s) a = .ok v →
      ∃ s', step s (i, a) = .ok s' ∧ view i s' = v ∧ ∀ j, j ≠ i → view j s' = view j s)
    (hruns : ∀ i, run (own i) (proj i τ) (view i s) = .ok (b i)) :
    ∃ s', run step τ s = .ok s' ∧ ∀ i, view i s' = b i := by
  induction τ generalizing s with
  | nil => exact ⟨s, rfl, fun i => Except.ok.inj (hruns i)⟩
  | cons e τ ih =>
      obtain ⟨i, a⟩ := e
      have hi := hruns i
      rw [proj_cons_self, run] at hi
      cases hv : own i (view i s) a with
      | error f => simp only [hv] at hi; contradiction
      | ok v =>
          simp only [hv] at hi
          obtain ⟨s₁, hs, hview, hothers⟩ := hstep i a List.mem_cons_self s v hv
          have hrest (j : ι) : run (own j) (proj j τ) (view j s₁) = .ok (b j) := by
            by_cases hj : j = i
            · subst hj
              rw [hview, hi]
            · have hruns := hruns j
              rwa [proj_cons_of_ne (Ne.symm hj), ← hothers j hj] at hruns
          obtain ⟨s', hrun, hfinal⟩ :=
            ih (fun i a ha => hstep i a (List.mem_cons_of_mem _ ha)) hrest
          exact ⟨s', by rw [run_cons hs, hrun], hfinal⟩

/-- **Stops**: if the log of every party comes to an event that does not pass the
test, and the events before it succeed whenever they pass it, then every
interleaving ends in an access outside the storage. -/
theorem run_checked_stops [Nonempty ι] {test : ι × α → Prop} [DecidablePred test]
    {safe : ι × α → Prop} (hsafe : ∀ e, safe e → test e → ∀ s, ∃ s', step s e = .ok s')
    (hstop : ∀ i, ∃ pre a post, proj i τ = pre ++ a :: post ∧ (∀ b ∈ pre, safe (i, b)) ∧
      ¬ test (i, a)) (s : σ) :
    run (checked test step) τ s = .error .outOfBounds := by
  induction τ generalizing s with
  | nil =>
      obtain ⟨i⟩ := ‹Nonempty ι›
      obtain ⟨pre, a, post, hproj, -, -⟩ := hstop i
      rw [proj_nil] at hproj
      exact absurd hproj.symm (by simp)
  | cons e τ ih =>
      obtain ⟨j, b⟩ := e
      by_cases htest : test (j, b)
      · obtain ⟨pre, a, post, hproj, hpre, hfails⟩ := hstop j
        rw [proj_cons_self] at hproj
        cases pre with
        | nil =>
            obtain ⟨rfl, -⟩ := List.cons.inj hproj
            exact absurd htest hfails
        | cons b' pre =>
            obtain ⟨rfl, htail⟩ := List.cons.inj hproj
            obtain ⟨s₁, hs⟩ := hsafe (j, b) (hpre b List.mem_cons_self) htest s
            have hchecked : checked test step s (j, b) = .ok s₁ := by rw [checked, if_pos htest, hs]
            rw [run_cons hchecked]
            refine ih (fun i => ?_) s₁
            by_cases hi : j = i
            · subst hi
              exact ⟨pre, a, post, htail, fun b hb => hpre b (List.mem_cons_of_mem _ hb), hfails⟩
            · have hother := hstop i
              rwa [proj_cons_of_ne hi] at hother
      · rw [run, checked, if_neg htest]

end

end UclBench
