/-!
# UclBench.Loop

Loops that may run forever, as the C programs of this development write them.

A loop body is a step function: one pass over the state either goes round
again or leaves with a result, and may fault on the way.  `runLoop` bounds the
number of passes by an explicit fuel, so a diverging loop is a run that ends
in `Fault.outOfFuel` for every fuel.  Termination is therefore never assumed:
a result at some fuel *is* the termination proof, and `runLoop_mono` lifts it
to every larger fuel.

* `runLoop_of_passes` — the trace rule: name the states the loop passes
  through, check one pass of each, and the whole run follows;
* `unroll_of_steps` — the same rule for a textually repeated statement;
* `forLoop_of_steps` — the same rule for a counted `for` loop;
* `foldlM_range_of_invariant` — an invariant in place of a trace;
* `Alike` — two runs that end with related results, or with the same fault.
-/

namespace UclBench

/-- What can stop a run before it produces its result. -/
inductive Fault where
  /-- An access outside the storage provided for it. -/
  | outOfBounds
  /-- A read of a cell or variable that was never assigned. -/
  | uninitialised
  /-- The loop was still going round when the fuel ran out. -/
  | outOfFuel
  /-- The program text has no meaning here (unknown name, ill-typed operand). -/
  | illFormed
  deriving DecidableEq, Repr

/-- The outcome of one pass through a loop body: go round again with a new
state, or leave the loop with a result. -/
inductive Pass (σ ρ : Type _) where
  | again (s : σ)
  | leave (r : ρ)

/-! ## loops with an exit -/

/-- Run a loop body until it leaves, for at most `fuel` passes. -/
def runLoop (body : σ → Except Fault (Pass σ ρ)) : Nat → σ → Except Fault ρ
  | 0, _ => .error .outOfFuel
  | fuel + 1, s => match body s with
    | .error e => .error e
    | .ok (.again s') => runLoop body fuel s'
    | .ok (.leave r) => .ok r

section
variable {body : σ → Except Fault (Pass σ ρ)} {fuel : Nat}

theorem runLoop_again {s s' : σ} (h : body s = .ok (.again s')) :
    runLoop body (fuel + 1) s = runLoop body fuel s' := by
  rw [runLoop, h]

theorem runLoop_leave {s : σ} {r : ρ} (h : body s = .ok (.leave r)) :
    runLoop body (fuel + 1) s = .ok r := by
  rw [runLoop, h]

/-- **The trace rule**: a loop that passes through `s 0, s 1, …, s n` and
leaves from `s n` terminates with that result on every fuel above `n`. -/
theorem runLoop_of_passes (body : σ → Except Fault (Pass σ ρ)) (fuel : Nat) (s : Nat → σ) (n : Nat)
    (hpass : ∀ k < n, body (s k) = .ok (.again (s (k + 1))))
    (hleave : body (s n) = .ok (.leave r)) (hfuel : n < fuel) :
    runLoop body fuel (s 0) = .ok r := by
  induction n generalizing s fuel with
  | zero =>
      obtain ⟨fuel, rfl⟩ : ∃ f, fuel = f + 1 := ⟨fuel - 1, by omega⟩
      exact runLoop_leave hleave
  | succ n ih =>
      obtain ⟨fuel, rfl⟩ : ∃ f, fuel = f + 1 := ⟨fuel - 1, by omega⟩
      rw [runLoop_again (hpass 0 (Nat.succ_pos n))]
      -- the tail of the trace is the trace of the remaining passes
      exact ih fuel (fun k => s (k + 1)) (fun k hk => hpass (k + 1) (by omega)) hleave (by omega)

/-- A run that ends keeps its result on every larger fuel. -/
theorem runLoop_mono {s : σ} {r : ρ} (h : runLoop body fuel s = .ok r) (hle : fuel ≤ fuel') :
    runLoop body fuel' s = .ok r := by
  induction fuel generalizing s fuel' with
  | zero => simp [runLoop] at h
  | succ fuel ih =>
      obtain ⟨fuel', rfl⟩ : ∃ f, fuel' = f + 1 := ⟨fuel' - 1, by omega⟩
      rw [runLoop] at h ⊢
      cases hb : body s with
      | error e => simp only [hb] at h; contradiction
      | ok p =>
          cases p with
          | again s' => simp only [hb] at h ⊢; exact ih h (by omega)
          | leave r' => simp only [hb] at h ⊢; exact h

/-- Two runs of one loop that both end agree, whatever their fuels. -/
theorem runLoop_unique {s : σ} {r r' : ρ} (h : runLoop body fuel s = .ok r)
    (h' : runLoop body fuel' s = .ok r') : r = r' := by
  have hl := runLoop_mono h (Nat.le_max_left fuel fuel')
  have hr := runLoop_mono h' (Nat.le_max_right fuel fuel')
  exact Except.ok.inj (hl.symm.trans hr)

end

/-! ## unrolled statements -/

/-- The statement `step` written out `n` times in a row. -/
def unroll (step : σ → Except Fault σ) : Nat → σ → Except Fault σ
  | 0, s => .ok s
  | n + 1, s => match step s with
    | .error e => .error e
    | .ok s' => unroll step n s'

theorem unroll_of_steps (step : σ → Except Fault σ) (s : Nat → σ) (n : Nat)
    (hstep : ∀ k < n, step (s k) = .ok (s (k + 1))) : unroll step n (s 0) = .ok (s n) := by
  induction n generalizing s with
  | zero => rfl
  | succ n ih =>
      rw [unroll, hstep 0 (Nat.succ_pos n)]
      exact ih (fun k => s (k + 1)) (fun k hk => hstep (k + 1) (by omega))

/-! ## counted loops -/

/-- One pass of `for (i = …; test i; i = succ i) step i`; the counter travels
next to the state. -/
def forBody (test : ι → Bool) (succ : ι → ι) (step : ι → σ → Except Fault σ) (p : ι × σ) :
    Except Fault (Pass (ι × σ) σ) :=
  match test p.1 with
  | false => .ok (.leave p.2)
  | true => match step p.1 p.2 with
    | .error e => .error e
    | .ok s => .ok (.again (succ p.1, s))

/-- `for (i = zero; test i; i = succ i) step i`. -/
def forLoop (test : ι → Bool) (succ : ι → ι) (step : ι → σ → Except Fault σ) (fuel : Nat)
    (zero : ι) (s : σ) : Except Fault σ :=
  runLoop (forBody test succ step) fuel (zero, s)

/-- A counted loop whose counter runs through `c 0, c 1, …, c n` and passes the
test exactly `n` times takes the `n` steps of its trace. -/
theorem forLoop_of_steps {test : ι → Bool} {succ : ι → ι} (step : ι → σ → Except Fault σ)
    (c : Nat → ι) (s : Nat → σ) (n : Nat) (hsucc : ∀ k < n, succ (c k) = c (k + 1))
    (hstep : ∀ k < n, step (c k) (s k) = .ok (s (k + 1)))
    (htest : ∀ k < n, test (c k) = true) (hexit : test (c n) = false) (hfuel : n < fuel) :
    forLoop test succ step fuel (c 0) (s 0) = .ok (s n) := by
  have hpass : ∀ k < n, forBody test succ step (c k, s k) =
      .ok (.again (c (k + 1), s (k + 1))) := fun k hk => by
    simp only [forBody, htest k hk, hstep k hk, hsucc k hk]
  have hleave : forBody test succ step (c n, s n) = .ok (.leave (s n)) := by
    simp only [forBody, hexit]
  exact runLoop_of_passes _ fuel (fun k => (c k, s k)) n hpass hleave hfuel

/-- An invariant indexed by the number of passes, over `for (i = 0; i < n; ++i)`. -/
theorem foldlM_range_of_invariant (Inv : Nat → σ → Prop) {step : σ → Nat → Except Fault σ}
    {s : σ} {n : Nat} (hzero : Inv 0 s)
    (hstep : ∀ k < n, ∀ s, Inv k s → ∃ s', step s k = .ok s' ∧ Inv (k + 1) s') :
    ∃ s', (List.range n).foldlM step s = .ok s' ∧ Inv n s' := by
  induction n with
  | zero => exact ⟨s, rfl, hzero⟩
  | succ n ih =>
      obtain ⟨s₁, hrun, hinv⟩ := ih fun k hk => hstep k (by omega)
      obtain ⟨s₂, hpass, hinv'⟩ := hstep n (by omega) s₁ hinv
      refine ⟨s₂, ?_, hinv'⟩
      rw [List.range_succ, List.foldlM_append, hrun]
      simp [bind, Except.bind, hpass, pure, Except.pure]

/-! ## the results of all passes -/

theorem mapM_eq_ok {l : List α} {f : α → Except Fault β} {g : α → β}
    (h : ∀ a ∈ l, f a = .ok (g a)) : l.mapM f = .ok (l.map g) := by
  induction l with
  | nil => rfl
  | cons a l ih =>
      obtain ⟨ha, hl⟩ := List.forall_mem_cons.mp h
      rw [List.mapM_cons, ha, ih hl]
      rfl

theorem exists_of_mem_mapM {l : List α} {f : α → Except Fault β} {bs : List β} {b : β}
    (h : l.mapM f = .ok bs) (hb : b ∈ bs) : ∃ a ∈ l, f a = .ok b := by
  induction l generalizing bs with
  | nil =>
      obtain rfl := Except.ok.inj h
      contradiction
  | cons a l ih =>
      rw [List.mapM_cons] at h
      cases ha : f a with
      | error e =>
          rw [ha] at h
          contradiction
      | ok b' =>
          rw [ha] at h
          cases hl : l.mapM f with
          | error e =>
              rw [hl] at h
              contradiction
          | ok bs' =>
              rw [hl] at h
              obtain rfl := Except.ok.inj h
              rcases List.mem_cons.mp hb with rfl | hb
              · exact ⟨a, List.mem_cons_self, ha⟩
              · obtain ⟨a', ha', hf⟩ := ih hl hb
                exact ⟨a', List.mem_cons_of_mem a ha', hf⟩

/-! ## two runs -/

/-- Two runs end alike, with what they represent or with the same fault. -/
def Alike (R : α → β → Prop) : Except Fault α → Except Fault β → Prop
  | .ok a, .ok b => R a b
  | .error e, .error e' => e = e'
  | _, _ => False

/-- One step after the other. -/
theorem Alike.bind {R : α → β → Prop} {R' : α' → β' → Prop} {x : Except Fault α} {y : Except Fault β}
    {f : α → Except Fault α'} {g : β → Except Fault β'} (h : Alike R x y)
    (hf : ∀ a b, R a b → Alike R' (f a) (g b)) : Alike R' (x >>= f) (y >>= g) := by
  cases x with
  | error e =>
      cases y with
      | error e' => exact h
      | ok b => exact h.elim
  | ok a =>
      cases y with
      | error e' => exact h.elim
      | ok b => exact hf a b h

end UclBench
