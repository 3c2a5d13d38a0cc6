/-!
# UclBench.Effect

Programs that call an interface and leave early.

An `Effect` changes a state and goes on with a value, leaves with another one,
or breaks a rule of the interface and is stuck.  `Holds p s Q R` says that `p`
is not stuck at `s`, what is true when it goes on (`Q`) and when it leaves
(`R`).  There is one rule for each way programs are put together: `holds_bind`,
`holds_loop`, `holds_call`.
-/

namespace UclBench

/-- A program over states `σ` that goes on with an `α` or leaves with a `ρ`. -/
def Effect (σ ρ α : Type) := σ → Option (Except ρ α × σ)

namespace Effect

instance : Monad (Effect σ ρ) where
  pure a := fun s => some (.ok a, s)
  bind p f := fun s => match p s with
    | some (.ok a, s') => f a s'
    | some (.error r, s') => some (.error r, s')
    | none => none

/-- The state as it is. -/
def look : Effect σ ρ σ := fun s => some (.ok s, s)

def change (f : σ → σ) : Effect σ ρ Unit := fun s => some (.ok (), f s)

/-- A rule of the interface. -/
def require (P : σ → Prop) [DecidablePred P] : Effect σ ρ Unit := fun s =>
  if P s then some (.ok (), s) else none

/-- `return r;` -/
def leave (r : ρ) : Effect σ ρ α := fun s => some (.error r, s)

/-- `if (c) return r;` -/
def leaveIf (c : Prop) [Decidable c] (r : ρ) : Effect σ ρ Unit := if c then leave r else pure ()

/-- `if (c) p` -/
def when (c : Prop) [Decidable c] (p : Effect σ ρ Unit) : Effect σ ρ Unit :=
  if c then p else pure ()

/-- `for (i = 0; i < n; i++)`, with what a pass hands on to the next. -/
def loop (body : Nat → α → Effect σ ρ α) : Nat → α → Effect σ ρ α
  | 0, a => pure a
  | n + 1, a => loop body n a >>= body n

/-- A function call: `.ok` leaves the function, `.error` the whole program. -/
def call (p : Effect σ (Except ε α) α) : Effect σ (Except ε β) α := fun s => match p s with
  | some (.ok a, s') => some (.ok a, s')
  | some (.error (.ok a), s') => some (.ok a, s')
  | some (.error (.error e), s') => some (.error (.error e), s')
  | none => none

/-- What holds after a program that is not stuck. -/
def Holds (p : Effect σ ρ α) (s : σ) (Q : α → σ → Prop) (R : ρ → σ → Prop) : Prop :=
  match p s with
  | some (.ok a, s') => Q a s'
  | some (.error r, s') => R r s'
  | none => False

section
variable {σ ρ α β ε : Type} {p : Effect σ ρ α} {f : α → Effect σ ρ β} {s : σ}
  {Q Q' : α → σ → Prop} {Q₂ : β → σ → Prop} {R R' : ρ → σ → Prop}

/-! ## rules -/

theorem holds_ok {a : α} {s' : σ} (h : p s = some (.ok a, s')) : Holds p s Q R ↔ Q a s' := by
  rw [Holds, h]

theorem holds_error {r : ρ} {s' : σ} (h : p s = some (.error r, s')) : Holds p s Q R ↔ R r s' := by
  rw [Holds, h]

theorem not_holds_of_stuck (h : p s = none) : ¬ Holds p s Q R := by
  rw [Holds, h]
  exact id

@[simp] theorem holds_pure {a : α} : Holds (pure a : Effect σ ρ α) s Q R ↔ Q a s := holds_ok rfl

@[simp] theorem holds_leave {r : ρ} : Holds (leave r : Effect σ ρ α) s Q R ↔ R r s := holds_error rfl

@[simp] theorem holds_look {Q : σ → σ → Prop} : Holds (look : Effect σ ρ σ) s Q R ↔ Q s s :=
  holds_ok rfl

@[simp] theorem holds_change {g : σ → σ} {Q : Unit → σ → Prop} :
    Holds (change g : Effect σ ρ Unit) s Q R ↔ Q () (g s) := holds_ok rfl

theorem holds_require {P : σ → Prop} [DecidablePred P] {Q : Unit → σ → Prop} (hP : P s)
    (hQ : Q () s) : Holds (require P : Effect σ ρ Unit) s Q R :=
  (holds_ok (if_pos hP : require P s = some (.ok (), s))).mpr hQ

@[simp] theorem holds_bind :
    Holds (p >>= f) s Q₂ R ↔ Holds p s (fun a s' => Holds (f a) s' Q₂ R) R := by
  have hbind : (p >>= f) s = match p s with
    | some (.ok a, s') => f a s'
    | some (.error r, s') => some (.error r, s')
    | none => none := rfl
  rcases hp : p s with _ | ⟨r | a, s'⟩ <;> rw [hp] at hbind
  · exact iff_of_false (not_holds_of_stuck hbind) (not_holds_of_stuck hp)
  · rw [holds_error hp, holds_error hbind]
  · rw [holds_ok hp, Holds, Holds, hbind]

theorem Holds.mono (h : Holds p s Q R) (hQ : ∀ a s', Q a s' → Q' a s')
    (hR : ∀ r s', R r s' → R' r s') : Holds p s Q' R' := by
  rcases hp : p s with _ | ⟨r | a, s'⟩
  · exact absurd h (not_holds_of_stuck hp)
  · exact (holds_error hp).mpr (hR r s' ((holds_error hp).mp h))
  · exact (holds_ok hp).mpr (hQ a s' ((holds_ok hp).mp h))

theorem holds_ite {c : Prop} [Decidable c] {p p' : Effect σ ρ α} (hyes : c → Holds p s Q R)
    (hno : ¬ c → Holds p' s Q R) : Holds (if c then p else p') s Q R := by
  split
  · next h => exact hyes h
  · next h => exact hno h

theorem holds_leaveIf {c : Prop} [Decidable c] {r : ρ} {Q : Unit → σ → Prop} (hleave : c → R r s)
    (hstay : ¬ c → Q () s) : Holds (leaveIf c r) s Q R :=
  holds_ite (fun h => holds_leave.mpr (hleave h)) fun h => holds_pure.mpr (hstay h)

theorem holds_when {c : Prop} [Decidable c] {p : Effect σ ρ Unit} {Q : Unit → σ → Prop}
    (hyes : c → Holds p s Q R) (hno : ¬ c → Q () s) : Holds (when c p) s Q R :=
  holds_ite hyes fun h => holds_pure.mpr (hno h)

/-- An invariant of the counter. -/
theorem holds_loop {body : Nat → α → Effect σ ρ α} (Inv : Nat → α → σ → Prop) (n : Nat) {a : α}
    (hinit : Inv 0 a s) (hbody : ∀ i < n, ∀ a s', Inv i a s' → Holds (body i a) s' (Inv (i + 1)) R) :
    Holds (loop body n a) s (Inv n) R := by
  induction n with
  | zero => exact holds_pure.mpr hinit
  | succ n ih =>
      rw [loop, holds_bind]
      exact (ih fun i hi => hbody i (by omega)).mono (hbody n (by omega)) fun _ _ => id

/-- A caller sees what the function returns, by either way. -/
theorem holds_call {p : Effect σ (Except ε α) α} {R : Except ε β → σ → Prop}
    (h : Holds p s Q fun r s' => match r with
      | .ok a => Q a s'
      | .error e => R (.error e) s') :
    Holds (call p : Effect σ (Except ε β) α) s Q R := by
  rcases hp : p s with _ | ⟨(e | a) | a, s'⟩
  · exact absurd h (not_holds_of_stuck hp)
  · exact (holds_error (by simp only [call, hp])).mpr ((holds_error hp).mp h)
  · exact (holds_ok (by simp only [call, hp])).mpr ((holds_error hp).mp h)
  · exact (holds_ok (by simp only [call, hp])).mpr ((holds_ok hp).mp h)

end

end Effect

end UclBench
