/-!
# UclBench.Stmt

Straight-line code with early exits, as C functions that test a status after
every call are written.

A statement changes the state or leaves the function with a result.
`Triple P c Q R` says what holds after `c` started in a state of `P`: `Q` of
the state if it goes on, `R` of the result if it leaves.  There is one rule for
each way statements are composed (`Triple.seq_cons`, `Triple.loop`,
`Triple.ite`).
-/

namespace UclBench

/-- Go on with a new state, or leave with a result. -/
abbrev Stmt (ρ σ : Type _) := σ → Except ρ σ

namespace Stmt

/-- `;` -/
def skip : Stmt ρ σ := .ok

/-- One statement after the other. -/
def seq : List (Stmt ρ σ) → Stmt ρ σ
  | [], s => .ok s
  | c :: cs, s => match c s with
    | .ok s => seq cs s
    | .error r => .error r

/-- `for (i = 0; i < n; i++)` -/
def loop (body : Nat → Stmt ρ σ) : Nat → Stmt ρ σ
  | 0, s => .ok s
  | n + 1, s => match loop body n s with
    | .ok s => body n s
    | .error r => .error r

/-- What holds after the statement. -/
def Triple (P : σ → Prop) (c : Stmt ρ σ) (Q : σ → Prop) (R : ρ → Prop) : Prop :=
  ∀ s, P s → match c s with
    | .ok s' => Q s'
    | .error r => R r

section
variable {P P' Q Q' : σ → Prop} {R : ρ → Prop} {c c' : Stmt ρ σ} {cs : List (Stmt ρ σ)}
  {s s' : σ} {r : ρ}

@[simp] theorem seq_nil : seq ([] : List (Stmt ρ σ)) s = .ok s := rfl

theorem seq_cons_ok (h : c s = .ok s') : seq (c :: cs) s = seq cs s' := by
  rw [seq, h]

theorem seq_cons_error (h : c s = .error r) : seq (c :: cs) s = .error r := by
  rw [seq, h]

/-! ## rules -/

theorem Triple.ok (h : Triple P c Q R) (hs : P s) (hc : c s = .ok s') : Q s' := by
  have hpost := h s hs
  rwa [hc] at hpost

theorem Triple.error (h : Triple P c Q R) (hs : P s) (hc : c s = .error r) : R r := by
  have hpost := h s hs
  rwa [hc] at hpost

theorem Triple.conseq (h : Triple P' c Q' R) (hpre : ∀ s, P s → P' s) (hpost : ∀ s, Q' s → Q s) :
    Triple P c Q R := by
  intro s hs
  cases hc : c s with
  | ok s' => exact hpost s' (h.ok (hpre s hs) hc)
  | error r => exact h.error (hpre s hs) hc

theorem Triple.skip (h : ∀ s, P s → Q s) : Triple P (skip : Stmt ρ σ) Q R := h

theorem Triple.seq_nil (h : ∀ s, P s → Q s) : Triple P (seq ([] : List (Stmt ρ σ))) Q R := h

theorem Triple.seq_cons (hc : Triple P c Q R) (hcs : Triple Q (seq cs) Q' R) :
    Triple P (seq (c :: cs)) Q' R := by
  intro s hs
  cases h : c s with
  | ok s' =>
      rw [seq_cons_ok h]
      exact hcs s' (hc.ok hs h)
  | error r =>
      rw [seq_cons_error h]
      exact hc.error hs h

theorem Triple.ite {p : Prop} [Decidable p] (hyes : p → Triple P c Q R)
    (hno : ¬ p → Triple P c' Q R) : Triple P (if p then c else c') Q R := by
  by_cases hp : p
  · rw [if_pos hp]
    exact hyes hp
  · rw [if_neg hp]
    exact hno hp

/-- An invariant of the counter. -/
theorem Triple.loop {body : Nat → Stmt ρ σ} (Inv : Nat → σ → Prop) (n : Nat)
    (h : ∀ i < n, Triple (Inv i) (body i) (Inv (i + 1)) R) : Triple (Inv 0) (loop body n) (Inv n) R := by
  induction n with
  | zero => exact fun s hs => hs
  | succ n ih =>
      intro s hs
      have hbefore := ih fun i hi => h i (by omega)
      rw [Stmt.loop]
      cases hn : Stmt.loop body n s with
      | ok s' => exact h n (by omega) s' (hbefore.ok hs hn)
      | error r => exact hbefore.error hs hn

end

end Stmt

end UclBench
