import Mathlib.Data.List.Infix

/-!
# UclBench.Separated

Lists written one after another with a separator in between, and read back.

`fields` cuts at the separator, from the left.  It takes a joined list apart
again when no part contains the separator (`fields_intercalate`), provided that
the separator does not overlap itself: otherwise one could begin in a part and
end in the separator behind it.
-/

namespace UclBench

variable {α : Type _}

/-- No proper end of the separator is also its beginning. -/
def Unbordered (sep : List α) : Prop := ∀ k < sep.length, 0 < k → ¬ sep.drop k <+: sep

instance [DecidableEq α] (sep : List α) : Decidable (Unbordered sep) :=
  inferInstanceAs (Decidable (∀ k < sep.length, 0 < k → ¬ sep.drop k <+: sep))

/-- The parts of a list, after `k` elements that are still of a separator. -/
def fieldsFrom [DecidableEq α] (sep : List α) : Nat → List α → List (List α)
  | _, [] => [[]]
  | k + 1, _ :: cs => fieldsFrom sep k cs
  | 0, c :: cs =>
      if sep <+: c :: cs then [] :: fieldsFrom sep (sep.length - 1) cs
      else (fieldsFrom sep 0 cs).modifyHead (c :: ·)

/-- The parts between the separators. -/
def fields [DecidableEq α] (sep l : List α) : List (List α) := fieldsFrom sep 0 l

/-- No separator begins in a part that contains none. -/
theorem not_prefix_of_free {sep t : List α} {c : α} (hborder : Unbordered sep)
    (hfree : ¬ sep <:+: c :: t) (l : List α) : ¬ sep <+: c :: (t ++ (sep ++ l)) := by
  rw [← List.cons_append]
  intro hpre
  rcases List.prefix_or_prefix_of_prefix hpre (List.prefix_append (c :: t) _) with h | h
  · exact hfree h.isInfix
  · obtain ⟨v, hv⟩ := h
    have hlen := congrArg List.length hv
    rw [List.length_append, List.length_cons] at hlen
    have hv' : v <+: sep ++ l := by
      rw [← List.prefix_append_right_inj (c :: t), hv]
      exact hpre
    have hborder' : v <+: sep :=
      List.prefix_of_prefix_length_le hv' (List.prefix_append sep l) (by omega)
    have hdrop : sep.drop (t.length + 1) = v := by
      rw [← hv]
      exact List.drop_left
    by_cases hnil : v = []
    · rw [hnil, List.append_nil] at hv
      exact hfree (hv ▸ List.infix_refl _)
    · have hpos := List.length_pos_iff.mpr hnil
      exact hborder (t.length + 1) (by omega) (by omega) (hdrop ▸ hborder')

theorem mem_or_of_mem_intercalate {sep : List α} {c : α} {ts : List (List α)}
    (h : c ∈ sep.intercalate ts) : c ∈ sep ∨ ∃ t ∈ ts, c ∈ t := by
  induction ts with
  | nil => simp at h
  | cons t ts ih =>
      cases ts with
      | nil =>
          rw [List.intercalate_singleton] at h
          exact .inr ⟨t, List.mem_cons_self, h⟩
      | cons t' ts =>
          rw [List.intercalate_cons_cons, List.mem_append, List.mem_append] at h
          rcases h with (h | h) | h
          · exact .inr ⟨t, List.mem_cons_self, h⟩
          · exact .inl h
          · exact (ih h).imp_right fun ⟨t, ht, hc⟩ => ⟨t, List.mem_cons_of_mem _ ht, hc⟩

section
variable [DecidableEq α] {sep l t : List α} {c : α}

theorem fieldsFrom_append (u l : List α) : fieldsFrom sep u.length (u ++ l) = fields sep l := by
  induction u with
  | nil => rfl
  | cons c u ih => rw [List.length_cons, List.cons_append, fieldsFrom, ih]

theorem fields_cons_of_not_starts (h : ¬ sep <+: c :: l) :
    fields sep (c :: l) = (fields sep l).modifyHead (c :: ·) := by
  rw [fields, fieldsFrom, if_neg h, fields]

/-- At a separator a part ends. -/
theorem fields_sep_append (hsep : sep ≠ []) (l : List α) :
    fields sep (sep ++ l) = [] :: fields sep l := by
  obtain ⟨c, cs, hcons⟩ := List.exists_cons_of_ne_nil hsep
  have hpre : sep <+: c :: (cs ++ l) := by
    rw [← List.cons_append, ← hcons]
    exact List.prefix_append sep l
  have hlen : sep.length - 1 = cs.length := by
    rw [hcons, List.length_cons, Nat.add_sub_cancel]
  have happend : sep ++ l = c :: (cs ++ l) := by
    rw [hcons, List.cons_append]
  rw [happend, fields, fieldsFrom, if_pos hpre, hlen, fieldsFrom_append]

/-- The first part. -/
theorem fields_append (hsep : sep ≠ []) (hborder : Unbordered sep) (hfree : ¬ sep <:+: t)
    (l : List α) : fields sep (t ++ (sep ++ l)) = t :: fields sep l := by
  induction t with
  | nil => exact fields_sep_append hsep l
  | cons c t ih =>
      have htail : ¬ sep <:+: t := fun h => hfree (h.trans (List.suffix_cons c t).isInfix)
      rw [List.cons_append, fields_cons_of_not_starts (not_prefix_of_free hborder hfree l), ih htail]
      rfl

/-- The last part. -/
theorem fields_of_free (hfree : ¬ sep <:+: t) : fields sep t = [t] := by
  induction t with
  | nil => rfl
  | cons c t ih =>
      have htail : ¬ sep <:+: t := fun h => hfree (h.trans (List.suffix_cons c t).isInfix)
      rw [fields_cons_of_not_starts fun h => hfree h.isInfix, ih htail]
      rfl

/-- **Reading back**: what was joined is taken apart. -/
theorem fields_intercalate {ts : List (List α)} (hsep : sep ≠ []) (hborder : Unbordered sep)
    (hne : ts ≠ []) (hfree : ∀ t ∈ ts, ¬ sep <:+: t) : fields sep (sep.intercalate ts) = ts := by
  induction ts with
  | nil => exact absurd rfl hne
  | cons t ts ih =>
      have ht := hfree t List.mem_cons_self
      cases ts with
      | nil => rw [List.intercalate_singleton, fields_of_free ht]
      | cons t' ts =>
          rw [List.intercalate_cons_cons, List.append_assoc, fields_append hsep hborder ht,
            ih (List.cons_ne_nil _ _) fun t ht => hfree t (List.mem_cons_of_mem _ ht)]

theorem head_fields_prefix (sep l : List α) : ∃ f fs, fields sep l = f :: fs ∧ f <+: l := by
  induction l with
  | nil => exact ⟨[], [], rfl, List.prefix_refl _⟩
  | cons c l ih =>
      by_cases hpre : sep <+: c :: l
      · exact ⟨[], _, by rw [fields, fieldsFrom, if_pos hpre], List.nil_prefix⟩
      · obtain ⟨f, fs, hfields, hf⟩ := ih
        refine ⟨c :: f, fs, ?_, List.cons_prefix_cons.mpr ⟨rfl, hf⟩⟩
        rw [fields_cons_of_not_starts hpre, hfields]
        rfl

theorem mem_of_mem_fields {f : List α} (h : f ∈ fields sep l) (hc : c ∈ f) : c ∈ l := by
  have hall (l : List α) (k : Nat) : ∀ f ∈ fieldsFrom sep k l, ∀ c ∈ f, c ∈ l := by
    induction l generalizing k with
    | nil =>
        intro f hf
        cases k <;> simp_all [fieldsFrom]
    | cons d l ih =>
        cases k with
        | succ k => exact fun f hf c hc => List.mem_cons_of_mem d (ih k f hf c hc)
        | zero =>
            rw [fieldsFrom]
            split
            · rintro f hf c hc
              rcases List.mem_cons.mp hf with rfl | hf
              · contradiction
              · exact List.mem_cons_of_mem d (ih _ f hf c hc)
            · obtain ⟨g, gs, hfields, -⟩ := head_fields_prefix sep l
              have hparts := ih 0
              rw [← fields, hfields] at hparts ⊢
              rw [List.modifyHead_cons]
              grind
  exact hall l 0 f h c hc

/-- No part contains the separator. -/
theorem free_of_mem_fields (hsep : sep ≠ []) {f : List α} (h : f ∈ fields sep l) : ¬ sep <:+: f := by
  have hnil : ¬ sep <:+: [] := fun h => hsep (List.infix_nil.mp h)
  have hall (l : List α) (k : Nat) : ∀ f ∈ fieldsFrom sep k l, ¬ sep <:+: f := by
    induction l generalizing k with
    | nil =>
        intro f hf
        cases k <;> exact List.mem_singleton.mp hf ▸ hnil
    | cons c l ih =>
        cases k with
        | succ k => exact ih k
        | zero =>
            rw [fieldsFrom]
            split
            · exact List.forall_mem_cons.mpr ⟨hnil, ih _⟩
            · next hpre =>
                obtain ⟨f, fs, hfields, hf⟩ := head_fields_prefix sep l
                have hparts := ih 0
                rw [← fields, hfields] at hparts ⊢
                obtain ⟨hfree, hrest⟩ := List.forall_mem_cons.mp hparts
                refine List.forall_mem_cons.mpr ⟨fun hinfix => ?_, hrest⟩
                rcases List.infix_cons_iff.mp hinfix with h | h
                · exact hpre (h.trans (List.cons_prefix_cons.mpr ⟨rfl, hf⟩))
                · exact hfree h
  exact hall l 0 f h

end

end UclBench
