import UclBench.KernelOverheads.KernelSyntax
import UclBench.OpenCL.GuardedRun

/-!
# UclBench.KernelOverheads.KernelRun

What the kernels of `gen_kernel` do when they are launched
(`run_kernel_benchmark`, on one float for each argument).

A `Machine` has the arguments and the temporary variables of a kernel, and
`Draw.step` is what one pass of the generator makes it do.
`runGuarded_kernelText` says that the text does the same, and what can go wrong:
a condition reads a temporary variable that no pass has set before.
-/

namespace UclBench.KernelOverheads

open OpenCL

/-! ## the machine -/

/-- The values of the arguments, and of the temporary variables that have one. -/
structure Machine (T : Type _) where
  args : Nat → T
  tmps : Nat → Option T

section
variable (num : Numbers T)

/-- `tmp_t > arg_a[0]`, if there is a condition. -/
def Machine.test (m : Machine T) : Option (Nat × Nat) → Except Fault Bool
  | none => .ok true
  | some (t, a) => match m.tmps t with
      | some v => .ok (num.gt v (m.args a))
      | none => .error .uninitialised

/-- `arg_dst[0] = arg_src[0] * factor` -/
def Machine.store (m : Machine T) (d : Draw) : Machine T :=
  let v := num.op .mul (m.args d.src) (num.ofInt d.factor)
  { m with args := Function.update m.args d.dst v }

/-- `tmp_tmp = arg_from[0] * scale` -/
def Machine.assign (m : Machine T) (d : Draw) : Machine T :=
  let v := num.op .mul (m.args d.fromArg) (num.ofInt d.scale)
  { m with tmps := Function.update m.tmps d.tmp (some v) }

@[simp] theorem Machine.store_tmps (m : Machine T) (d : Draw) : (m.store num d).tmps = m.tmps := rfl

theorem Machine.store_args (m : Machine T) (d : Draw) : (m.store num d).args =
    Function.update m.args d.dst (num.op .mul (m.args d.src) (num.ofInt d.factor)) := rfl

theorem Machine.assign_tmps (m : Machine T) (d : Draw) : (m.assign num d).tmps =
    Function.update m.tmps d.tmp (some (num.op .mul (m.args d.fromArg) (num.ofInt d.scale))) := rfl

/-- One pass, the first assignment under the condition of the pass before. -/
def Draw.step (pending : Option (Nat × Nat)) (d : Draw) (m : Machine T) : Except Fault (Machine T) := do
  let holds ← m.test num pending
  pure ((if holds then m.store num d else m).assign num d)

def runDraws : Option (Nat × Nat) → List Draw → Machine T → Except Fault (Machine T)
  | _, [], m => .ok m
  | pending, d :: ds, m => do
      let m ← d.step num pending m
      runDraws d.guard ds m

/-- What one launch makes of the arguments. -/
def launchArgs (ds : List Draw) (args : Nat → T) : Except Fault (Nat → T) := do
  let m ← runDraws num none ds ⟨args, fun _ => none⟩
  pure m.args

end

/-! ## conditions on variables without a value -/

/-- Every condition that is evaluated, which is in the pass behind it, is about a
temporary variable that has been set. -/
def Defined (ds : List Draw) : Prop :=
  ∀ pre d d' post, ds = pre ++ d :: d' :: post → ∀ g ∈ d.guard, ∃ e ∈ pre ++ [d], e.tmp = g.1

/-- The same from a pending condition on, with the variables `known` set before. -/
def DefinedFrom : (Nat → Prop) → Option (Nat × Nat) → List Draw → Prop
  | _, _, [] => True
  | known, pending, d :: ds =>
      (∀ g ∈ pending, known g.1) ∧ DefinedFrom (fun t => known t ∨ d.tmp = t) d.guard ds

theorem definedFrom_iff (known : Nat → Prop) (pending : Option (Nat × Nat)) (ds : List Draw) :
    DefinedFrom known pending ds ↔ (ds ≠ [] → ∀ g ∈ pending, known g.1) ∧
      ∀ pre d d' post, ds = pre ++ d :: d' :: post → ∀ g ∈ d.guard,
        known g.1 ∨ ∃ e ∈ pre ++ [d], e.tmp = g.1 := by
  induction ds generalizing known pending with
  | nil => simp [DefinedFrom]
  | cons d ds ih =>
      rw [DefinedFrom, ih]
      refine and_congr ⟨fun h _ => h, fun h => h (List.cons_ne_nil d ds)⟩ ⟨?_, ?_⟩
      · rintro ⟨hnext, hall⟩ pre d₁ d₂ post hds g hg
        rcases pre with _ | ⟨e, pre⟩
        · obtain ⟨rfl, rfl⟩ := List.cons.inj hds
          simpa using hnext (List.cons_ne_nil d₂ post) g hg
        · obtain ⟨rfl, htail⟩ := List.cons.inj hds
          rcases hall pre d₁ d₂ post htail g hg with (hk | htmp) | ⟨e, he, htmp⟩
          · exact .inl hk
          · exact .inr ⟨d, List.mem_cons_self, htmp⟩
          · exact .inr ⟨e, List.mem_cons_of_mem _ he, htmp⟩
      · intro hall
        refine ⟨fun hne g hg => ?_, fun pre d₁ d₂ post hds g hg => ?_⟩
        · obtain ⟨d₂, post, rfl⟩ := List.exists_cons_of_ne_nil hne
          simpa using hall [] d d₂ post rfl g hg
        · rcases hall (d :: pre) d₁ d₂ post (by rw [hds]; rfl) g hg with hk | ⟨e, he, htmp⟩
          · exact .inl (.inl hk)
          · rcases List.mem_cons.mp he with rfl | he
            · exact .inl (.inr htmp)
            · exact .inr ⟨e, he, htmp⟩

theorem definedFrom_none (ds : List Draw) : DefinedFrom (fun _ => False) none ds ↔ Defined ds := by
  rw [definedFrom_iff]
  simp [Defined]

section
variable {num : Numbers T} {m m' : Machine T} {d : Draw} {ds : List Draw} {pending : Option (Nat × Nat)}

theorem step_of_set (num : Numbers T) (d : Draw) (h : ∀ g ∈ pending, m.tmps g.1 ≠ none) :
    ∃ m', d.step num pending m = .ok m' ∧
      ∀ t, m'.tmps t ≠ none ↔ m.tmps t ≠ none ∨ d.tmp = t := by
  obtain ⟨holds, htest⟩ : ∃ holds, m.test num pending = .ok holds := by
    cases pending with
    | none => exact ⟨true, rfl⟩
    | some g =>
        obtain ⟨v, hv⟩ := Option.ne_none_iff_exists'.mp (h g rfl)
        exact ⟨num.gt v (m.args g.2), by rw [Machine.test, hv]⟩
  refine ⟨_, by rw [Draw.step, htest]; rfl, fun t => ?_⟩
  have htmps : (if holds then m.store num d else m).tmps = m.tmps := by
    split <;> rfl
  rw [Machine.assign_tmps, htmps]
  by_cases ht : t = d.tmp
  · subst ht
    simp
  · rw [Function.update_of_ne ht]
    exact ⟨.inl, fun h => h.resolve_right fun heq => ht heq.symm⟩

theorem step_of_unset {g : Nat × Nat} (h : m.tmps g.1 = none) :
    d.step num (some g) m = .error .uninitialised := by
  rw [Draw.step, Machine.test, h]
  rfl

theorem definedFrom_congr {known known' : Nat → Prop} (h : ∀ t, known t ↔ known' t) :
    DefinedFrom known pending ds ↔ DefinedFrom known' pending ds := by
  obtain rfl : known = known' := funext fun t => propext (h t)
  rfl

theorem runDraws_of_defined (num : Numbers T) (h : DefinedFrom (fun t => m.tmps t ≠ none) pending ds) :
    ∃ m', runDraws num pending ds m = .ok m' := by
  induction ds generalizing pending m with
  | nil => exact ⟨m, rfl⟩
  | cons d ds ih =>
      obtain ⟨hpending, hrest⟩ := h
      obtain ⟨m₁, hstep, hset⟩ := step_of_set num d hpending
      obtain ⟨m', hrun⟩ := ih ((definedFrom_congr hset).mpr hrest)
      refine ⟨m', ?_⟩
      rw [runDraws, hstep]
      exact hrun

/-- The first condition on a variable without a value stops the run. -/
theorem runDraws_of_not (h : ¬ DefinedFrom (fun t => m.tmps t ≠ none) pending ds) :
    runDraws num pending ds m = .error .uninitialised := by
  induction ds generalizing pending m with
  | nil => exact absurd trivial h
  | cons d ds ih =>
      rw [runDraws]
      by_cases hpending : ∀ g ∈ pending, m.tmps g.1 ≠ none
      · obtain ⟨m₁, hstep, hset⟩ := step_of_set num d hpending
        have hrest : ¬ DefinedFrom (fun t => m₁.tmps t ≠ none) d.guard ds := fun hdefined =>
          h ⟨hpending, (definedFrom_congr hset).mp hdefined⟩
        rw [hstep]
        exact ih hrest
      · push Not at hpending
        obtain ⟨g, hg, hnone⟩ := hpending
        rw [hg, step_of_unset hnone]
        rfl

/-- A launch. -/
theorem launchArgs_cases (num : Numbers T) (ds : List Draw) (args : Nat → T) :
    (Defined ds → ∃ args', launchArgs num ds args = .ok args') ∧
      (¬ Defined ds → launchArgs num ds args = .error .uninitialised) := by
  have hiff : DefinedFrom (fun t => (⟨args, fun _ => none⟩ : Machine T).tmps t ≠ none) none ds ↔
      Defined ds := by
    rw [← definedFrom_none]
    exact definedFrom_congr fun t => by simp
  constructor
  · intro h
    obtain ⟨m', hrun⟩ := runDraws_of_defined num (hiff.mpr h)
    exact ⟨m'.args, by rw [launchArgs, hrun]; rfl⟩
  · intro h
    rw [launchArgs, runDraws_of_not (mt hiff.mp h)]
    rfl

end

/-! ## the machine is the kernel -/

/-- The memory of a work item holds the values of a machine. -/
structure Represents (nArgs : Nat) (m : Machine T) (s : Store T) : Prop where
  bufs : ∀ i < nArgs, s.bufs (argName i) = some (.ofFn 1 fun _ => m.args i)
  vars : ∀ t < 3, s.vars (tmpName t) = some (m.tmps t)

section
variable {num : Numbers T} {nArgs : Nat} {m : Machine T} {s : Store T} {d : Draw}

theorem Represents.eval_arg (h : Represents nArgs m s) {i : Nat} (hi : i < nArgs) :
    s.eval num (argAt i) = .ok (.elem (m.args i)) :=
  Store.eval_index_zero (h.bufs i hi) (Buffer.cell_ofFn Nat.one_pos)

theorem tmpName_injective {t u : Nat} (h : tmpName t = tmpName u) : t = u := by
  have hdecimal := List.append_cancel_left h
  rw [← numeral_decimal t, hdecimal, numeral_decimal]

theorem Represents.assign (h : Represents nArgs m s) (hd : d.InRange nArgs) :
    ∃ s', s.exec num (.assign (tmpName d.tmp) (.bin .mul (argAt d.fromArg) (.int d.scale))) = .ok s' ∧
      Represents nArgs (m.assign num d) s' := by
  have htmp : s.vars (tmpName d.tmp) ≠ none := by
    rw [h.vars d.tmp (by have := hd.tmp; omega)]
    exact nofun
  refine ⟨_, Store.exec_assign htmp (Store.eval_mul_int (h.eval_arg hd.fromArg)), h.bufs, fun t ht => ?_⟩
  rw [Machine.assign_tmps]
  by_cases heq : t = d.tmp
  · subst heq
    rw [Store.declare_vars_self, Function.update_self]
  · rw [Store.declare_vars_of_ne fun hname => heq (tmpName_injective hname), h.vars t ht,
      Function.update_of_ne heq]

/-- A write to the only cell. -/
theorem set_ofFn (v v' : T) : (Buffer.ofFn 1 fun _ => v).set 0 v' = .ofFn 1 fun _ => v' := by
  refine Buffer.ext_cells rfl fun i hi => ?_
  obtain rfl : i = 0 := Nat.lt_one_iff.mp hi
  rw [Buffer.cell_set_self v' Nat.one_pos, Buffer.cell_ofFn Nat.one_pos]

theorem Represents.store (h : Represents nArgs m s) (hd : d.InRange nArgs) :
    ∃ s', s.exec num (.store (argName d.dst) (.int 0) (.bin .mul (argAt d.src) (.int d.factor))) = .ok s' ∧
      Represents nArgs (m.store num d) s' := by
  refine ⟨_, Store.exec_store_zero (h.bufs d.dst hd.dst) Nat.one_pos
    (Store.eval_mul_int (h.eval_arg hd.src)), fun i hi => ?_, h.vars⟩
  rw [Machine.store_args]
  by_cases heq : i = d.dst
  · subst heq
    rw [Store.put_bufs_self, Function.update_self, set_ofFn]
  · rw [Store.put_bufs_of_ne fun hname => heq (argName_injective hname), h.bufs i hi,
      Function.update_of_ne heq]

theorem Represents.test (h : Represents nArgs m s) {pending : Option (Nat × Nat)}
    (hp : GuardInRange nArgs pending) :
    s.test num (pending.map condition) = m.test num pending := by
  cases pending with
  | none => rfl
  | some g =>
      obtain ⟨ht, ha⟩ := hp g rfl
      have harg : s.eval num (argAt g.2) = .ok (.elem (m.args g.2)) := h.eval_arg ha
      have hvar : s.eval num (.var (tmpName g.1)) = match m.tmps g.1 with
          | some v => .ok (.elem v)
          | none => .error .uninitialised := by
        rw [Store.eval_var, Store.readVar, h.vars g.1 (by omega)]
        cases m.tmps g.1 <;> rfl
      rw [Option.map_some, condition, Store.test, hvar, Machine.test]
      cases m.tmps g.1 with
      | none => rfl
      | some v => simp only [bind, Except.bind, harg]; rfl

/-- The statements of a draw. -/
theorem alike_stmts (h : Represents nArgs m s) {pending : Option (Nat × Nat)}
    (hp : GuardInRange nArgs pending) (hd : d.InRange nArgs) :
    Alike (Represents nArgs) (d.step num pending m) (execBody num (d.stmts pending) s) := by
  rw [Draw.stmts, execBody_cons, execGuarded, h.test hp, Draw.step]
  cases m.test num pending with
  | error e => rfl
  | ok holds =>
      obtain ⟨s₁, hs₁, h₁⟩ : ∃ s₁, (if holds then s.exec num (.store (argName d.dst) (.int 0)
          (.bin .mul (argAt d.src) (.int d.factor))) else pure s) = .ok s₁ ∧
          Represents nArgs (if holds then m.store num d else m) s₁ := by
        cases holds with
        | true => exact h.store hd
        | false => exact ⟨s, rfl, h⟩
      obtain ⟨s₂, hs₂, h₂⟩ := h₁.assign hd
      change Alike _ (.ok _) ((if holds then _ else _) >>= _)
      rw [hs₁]
      change Alike _ (.ok _) (execBody num _ s₁)
      rw [execBody_cons, execGuarded_none, hs₂]
      exact h₂

/-- The passes. -/
theorem alike_bodyStmts (num : Numbers T) {pending : Option (Nat × Nat)} {ds : List Draw}
    (h : Represents nArgs m s)
    (hp : GuardInRange nArgs pending) (hds : ∀ d ∈ ds, d.InRange nArgs) :
    Alike (Represents nArgs) (runDraws num pending ds m) (execBody num (bodyStmts pending ds) s) := by
  induction ds generalizing pending m s with
  | nil => exact h
  | cons d ds ih =>
      have hd := hds d List.mem_cons_self
      rw [runDraws, bodyStmts, execBody_append]
      exact (alike_stmts h hp hd).bind fun m₁ s₁ h₁ =>
        ih h₁ hd.guard fun e he => hds e (List.mem_cons_of_mem _ he)

end

/-! ## launches -/

/-- The passes of a kernel. -/
def kernelDraws (nArgs nLines : Nat) (r : Rand) : List Draw :=
  draws nArgs nLines r 0 (strided 0 nLines 2)

/-- The buffers hold these arguments. -/
def HoldArgs (nArgs : Nat) (args : Nat → T) (bufs : Text → Option (Buffer T)) : Prop :=
  ∀ i < nArgs, bufs (argName i) = some (.ofFn 1 fun _ => args i)

/-- What `n` launches make of the arguments. -/
def launchesArgs (num : Numbers T) (ds : List Draw) (args : Nat → T) (n : Nat) : Except Fault (Nat → T) :=
  (List.range n).foldlM (fun args _ => launchArgs num ds args) args

section
variable {num : Numbers T} {nArgs nLines : Nat} {r : Rand} {args : Nat → T} {ds : List Draw}
  {bufs : Text → Option (Buffer T)}

/-- `float tmp_0, tmp_1, tmp_2;` -/
theorem exec_tmpDecls (num : Numbers T) (bufs : Text → Option (Buffer T)) :
    ∃ s, execBody num tmpDecls ⟨bufs, fun _ => none⟩ = .ok s ∧ s.bufs = bufs ∧
      ∀ t < 3, s.vars (tmpName t) = some none := by
  have hall (ns : List Nat) (s : Store T) (hnodup : ns.Nodup)
      (hnew : ∀ n ∈ ns, s.vars (tmpName n) = none) : ∃ s',
      execBody num (ns.map fun n => ⟨none, .decl ⟨.float, 1⟩ (tmpName n) none⟩) s = .ok s' ∧
      s'.bufs = s.bufs ∧ (∀ n ∈ ns, s'.vars (tmpName n) = some none) ∧
      ∀ x, (∀ n ∈ ns, x ≠ tmpName n) → s'.vars x = s.vars x := by
    induction ns generalizing s with
    | nil => exact ⟨s, rfl, rfl, nofun, fun _ _ => rfl⟩
    | cons n ns ih =>
        rw [List.nodup_cons] at hnodup
        have hne : ∀ k ∈ ns, tmpName k ≠ tmpName n := fun k hk hname =>
          hnodup.1 (tmpName_injective hname ▸ hk)
        obtain ⟨s', hrun, hbufs, hvars, hframe⟩ := ih (s.declare (tmpName n) none) hnodup.2 fun k hk => by
          rw [Store.declare_vars_of_ne (hne k hk), hnew k (List.mem_cons_of_mem _ hk)]
        refine ⟨s', ?_, hbufs, fun k hk => ?_, fun x hx => ?_⟩
        · rw [List.map_cons, execBody_cons, execGuarded_none, Store.exec_decl (hnew n List.mem_cons_self)]
          exact hrun
        · rcases List.mem_cons.mp hk with rfl | hk
          · rw [hframe _ fun k' hk' => (hne k' hk').symm, Store.declare_vars_self]
          · exact hvars k hk
        · rw [List.forall_mem_cons] at hx
          rw [hframe x hx.2, Store.declare_vars_of_ne hx.1]
  obtain ⟨s, hrun, hbufs, hvars, -⟩ := hall (List.range 3) ⟨bufs, fun _ => none⟩ List.nodup_range
    fun _ _ => rfl
  exact ⟨s, hrun, hbufs, fun t ht => hvars t (List.mem_range.mpr ht)⟩

theorem alike_launch (h : HoldArgs nArgs args bufs) (hargs : 1 ≤ nArgs) (num : Numbers T) (nLines : Nat)
    (r : Rand) : Alike (HoldArgs nArgs) (launchArgs num (kernelDraws nArgs nLines r) args)
      (launchGuarded num (kernelTree nArgs nLines r) bufs) := by
  obtain ⟨s, hdecls, hbufs, hvars⟩ := exec_tmpDecls num bufs
  have hstart : Represents nArgs ⟨args, fun _ => none⟩ s := ⟨hbufs ▸ h, hvars⟩
  have hds : ∀ d ∈ kernelDraws nArgs nLines r, d.InRange nArgs := by
    intro d hd
    rw [kernelDraws] at hd
    obtain ⟨i, n, rfl⟩ := mem_draws hd
    exact draw_inRange hargs nLines r i n
  have hnone : GuardInRange nArgs none := nofun
  have hbody := alike_bodyStmts num hstart hnone hds
  have hbodyEq : (kernelTree nArgs nLines r).body =
      tmpDecls ++ bodyStmts none (kernelDraws nArgs nLines r) := rfl
  have hexec : execBody num (kernelTree nArgs nLines r).body ⟨bufs, fun _ => none⟩ =
      execBody num (bodyStmts none (kernelDraws nArgs nLines r)) s := by
    rw [hbodyEq, execBody_append, hdecls]
    rfl
  rw [launchArgs, launchGuarded, hexec]
  exact hbody.bind fun m s hrep => hrep.bufs

/-- The same with runs of any number of launches. -/
theorem alike_launches (h : HoldArgs nArgs args bufs) (hargs : 1 ≤ nArgs) (num : Numbers T) (nLines : Nat)
    (r : Rand) (ns : List Nat) : Alike (HoldArgs nArgs)
      (ns.foldlM (fun args _ => launchArgs num (kernelDraws nArgs nLines r) args) args)
      (ns.foldlM (fun bufs _ => launchGuarded num (kernelTree nArgs nLines r) bufs) bufs) := by
  induction ns generalizing args bufs with
  | nil => exact h
  | cons n ns ih =>
      rw [List.foldlM_cons, List.foldlM_cons]
      exact (alike_launch h hargs num nLines r).bind fun args' bufs' h' => ih h'

theorem launchesArgs_of_defined (h : Defined ds) (num : Numbers T) (args : Nat → T) (n : Nat) :
    ∃ args', launchesArgs num ds args n = .ok args' := by
  rw [launchesArgs]
  induction List.range n generalizing args with
  | nil => exact ⟨args, rfl⟩
  | cons k ks ih =>
      obtain ⟨args₁, hlaunch⟩ := (launchArgs_cases num ds args).1 h
      obtain ⟨args', hrest⟩ := ih args₁
      refine ⟨args', ?_⟩
      rw [List.foldlM_cons, hlaunch]
      exact hrest

theorem launchesArgs_of_not (h : ¬ Defined ds) (num : Numbers T) (args : Nat → T) (n : Nat) :
    launchesArgs num ds args (n + 1) = .error .uninitialised := by
  rw [launchesArgs, List.range_succ_eq_map, List.foldlM_cons, (launchArgs_cases num ds args).2 h]
  rfl

/-- The buffers of `run_kernel_benchmark`, one for each argument. -/
def argBuffers (nArgs : Nat) (args : Nat → T) : List (Buffer T) :=
  (List.range nArgs).map fun i => .ofFn 1 fun _ => args i

theorem bindArgs_argBuffers (nArgs : Nat) (args : Nat → T) :
    ∃ bufs vars, bindArgs .float (params nArgs) ((argBuffers nArgs args).map .buffer) = some (bufs, vars) ∧
      HoldArgs nArgs args bufs := by
  have hall (ns : List Nat) (hnodup : ns.Nodup) : ∃ bufs vars,
      bindArgs .float (ns.map fun n => .buffer .float (argName n))
        ((ns.map fun n => Buffer.ofFn 1 fun _ => args n).map .buffer) = some (bufs, vars) ∧
      ∀ n ∈ ns, bufs (argName n) = some (.ofFn 1 fun _ => args n) := by
    induction ns with
    | nil => exact ⟨_, _, rfl, nofun⟩
    | cons n ns ih =>
        rw [List.nodup_cons] at hnodup
        obtain ⟨bufs, vars, hbind, hbufs⟩ := ih hnodup.2
        refine ⟨_, _, by rw [List.map_cons, List.map_cons, List.map_cons, bindArgs, if_pos rfl, hbind]; rfl,
          fun k hk => ?_⟩
        by_cases heq : k = n
        · subst heq
          exact Function.update_self ..
        · rw [Function.update_of_ne fun hname => heq (argName_injective hname)]
          exact hbufs k ((List.mem_cons.mp hk).resolve_left heq)
  obtain ⟨bufs, vars, hbind, hbufs⟩ := hall (List.range nArgs) List.nodup_range
  exact ⟨bufs, vars, hbind, fun i hi => hbufs i (List.mem_range.mpr hi)⟩

/-- **Launching the generated text**, any number of times: when every condition is
about a variable that has been set, each launch does to the arguments what the
machine does; otherwise the first one reads a variable without a value. -/
theorem runGuarded_kernelText (num : Numbers T) (hargs : 1 ≤ nArgs) (nLines : Nat) (r : Rand)
    (args : Nat → T) (n : Nat) :
    (Defined (kernelDraws nArgs nLines r) → ∃ args' bufs,
      launchesArgs num (kernelDraws nArgs nLines r) args n = .ok args' ∧
      runGuarded num (kernelText nArgs nLines r) (argBuffers nArgs args) n = .ok bufs ∧
      HoldArgs nArgs args' bufs) ∧
    (¬ Defined (kernelDraws nArgs nLines r) →
      runGuarded num (kernelText nArgs nLines r) (argBuffers nArgs args) (n + 1) =
        .error .uninitialised) := by
  obtain ⟨bufs, vars, hbind, hholds⟩ := bindArgs_argBuffers nArgs args
  have hrun (n : Nat) : runGuarded num (kernelText nArgs nLines r) (argBuffers nArgs args) n =
      (List.range n).foldlM (fun bufs _ => launchGuarded num (kernelTree nArgs nLines r) bufs) bufs := by
    have hparams : (kernelTree nArgs nLines r).params = params nArgs := rfl
    rw [runGuarded, compile_kernelText hargs]
    simp only [hparams, hbind]
  have halike (n : Nat) : Alike (HoldArgs nArgs) (launchesArgs num (kernelDraws nArgs nLines r) args n)
      (runGuarded num (kernelText nArgs nLines r) (argBuffers nArgs args) n) := by
    rw [hrun]
    exact alike_launches hholds hargs num nLines r (List.range n)
  constructor
  · intro h
    obtain ⟨args', hargs'⟩ := launchesArgs_of_defined h num args n
    have hend := halike n
    rw [hargs'] at hend
    cases hbufs : runGuarded num (kernelText nArgs nLines r) (argBuffers nArgs args) n with
    | error e =>
        rw [hbufs] at hend
        exact hend.elim
    | ok bufs' =>
        rw [hbufs] at hend
        exact ⟨args', bufs', hargs', rfl, hend⟩
  · intro h
    have hend := halike (n + 1)
    rw [launchesArgs_of_not h] at hend
    cases hbufs : runGuarded num (kernelText nArgs nLines r) (argBuffers nArgs args) (n + 1) with
    | error e =>
        rw [hbufs] at hend
        exact congrArg _ hend.symm
    | ok bufs' =>
        rw [hbufs] at hend
        exact hend.elim

/-- A generator whose `k`-th result is the largest, and the others zero. -/
def Rand.oneAt (k : Nat) (order : (i n : Nat) → Equiv.Perm (Fin n)) : Rand where
  max := 1
  result i := (i == k).toNat
  result_le _ := Bool.toNat_le _
  order := order

theorem oneAt_arg_two (k : Nat) (order : (i n : Nat) → Equiv.Perm (Fin n)) (i n : Nat) (j : Fin n) :
    (Rand.oneAt k order).arg 2 i n j = (i + order i n j == k).toNat :=
  Nat.mul_div_cancel_left _ Nat.two_pos

/-- Any kernel of three lines or more can go wrong, whatever the order of the calls:
its first condition is about the variable that its pass has not set. -/
theorem exists_not_defined (nArgs : Nat) {nLines : Nat} (hlines : 3 ≤ nLines)
    (order : (i n : Nat) → Equiv.Perm (Fin n)) :
    ∃ r : Rand, r.order = order ∧ ¬ Defined (kernelDraws nArgs nLines r) := by
  -- the call for the condition, whichever of the two it is
  refine ⟨Rand.oneAt (6 + order 6 2 0) order, rfl, fun h => ?_⟩
  generalize hr : Rand.oneAt (6 + order 6 2 0) order = r at h
  have hsix : r.arg 2 6 2 0 = 1 := by
    rw [← hr, oneAt_arg_two, beq_self_eq_true]
    rfl
  have hthree : r.arg 2 3 3 0 = 0 := by
    have hne : 3 + (order 3 3 0 : Nat) ≠ 6 + order 6 2 0 := by omega
    rw [← hr, oneAt_arg_two, beq_eq_false_iff_ne.mpr hne]
    rfl
  have hguard : (draw nArgs nLines r 0 0).guard = some (1, r.arg nArgs 6 2 1) := by
    change (if _ then some (r.arg 2 6 2 0, r.arg nArgs 6 2 1) else none) = _
    rw [if_pos ⟨rfl, by omega⟩, hsix]
  have hpasses : strided 0 nLines 2 = 0 :: 2 :: strided 4 nLines 2 := by
    rw [strided_of_lt (by omega) Nat.two_pos, strided_of_lt (by omega) Nat.two_pos]
  have hdraws : kernelDraws nArgs nLines r = [] ++ draw nArgs nLines r 0 0 ::
      draw nArgs nLines r (draw nArgs nLines r 0 0).calls 2 :: draws nArgs nLines r
        ((draw nArgs nLines r 0 0).calls +
          (draw nArgs nLines r (draw nArgs nLines r 0 0).calls 2).calls) (strided 4 nLines 2) := by
    rw [kernelDraws, hpasses, draws, draws, Nat.zero_add]
    rfl
  obtain ⟨e, he, htmp⟩ := h _ _ _ _ hdraws _ hguard
  obtain rfl : e = draw nArgs nLines r 0 0 := by simpa using he
  have hzero : (draw nArgs nLines r 0 0).tmp = 0 := hthree
  exact Nat.zero_ne_one (hzero.symm.trans htmp)

end

/-- The first test of the benchmark, launched as often as it is, where `rand()`
always returns 0. -/
theorem runGuarded_kernelText_four : 1 ≤ 4 ∧ ∃ args' bufs,
    runGuarded ⟨fun _ x y => x * y, id, fun x y => y < x⟩ (kernelText 4 20 Rand.zero)
      (argBuffers 4 fun _ => 1) 11 = .ok bufs ∧ HoldArgs 4 args' bufs := by
  have hdefined : Defined (kernelDraws 4 20 Rand.zero) := by
    intro pre d d' post hds g hg
    have hmem : d ∈ kernelDraws 4 20 Rand.zero := by simp [hds]
    rw [kernelDraws] at hmem
    obtain ⟨i, n, rfl⟩ := mem_draws hmem
    refine ⟨_, List.mem_append_right pre (List.mem_singleton.mpr rfl), ?_⟩
    simp only [draw] at hg
    split at hg
    · obtain rfl := Option.some.inj hg
      rfl
    · contradiction
  obtain ⟨args', bufs, -, hrun, hholds⟩ := (runGuarded_kernelText
    (⟨fun _ x y => x * y, id, fun x y => y < x⟩ : Numbers Nat) (by decide) 20 Rand.zero (fun _ => 1) 11).1
    hdefined
  exact ⟨by decide, args', bufs, hrun, hholds⟩

end UclBench.KernelOverheads
