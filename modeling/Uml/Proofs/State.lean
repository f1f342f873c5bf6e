import Mathlib

/-! Rules for programs with a state: from single runs to traversals of a list. -/
namespace Uml

open Std.Do

variable {σ α β : Type}

/-- A triple about one state is a fact about the run from that state. -/
theorem triple_iff_run {x : StateM σ α} {s : σ} {Q : α → σ → Prop} :
    ⦃fun st => ⌜st = s⌝⦄ x ⦃⇓ a st => ⌜Q a st⌝⦄ ↔ Q (x.run s).1 (x.run s).2 := by
  constructor
  · intro h
    exact Triple.iff.1 h s rfl
  · intro h
    apply Triple.iff.2
    rintro st rfl
    exact h

theorem triple_intro {x : StateM σ α} {s : σ} {P : α → σ → Prop}
    (h : ∀ Q : α → σ → Prop, (∀ a st, P a st → Q a st) →
      ⦃fun st => ⌜st = s⌝⦄ x ⦃⇓ a st => ⌜Q a st⌝⦄) :
    ⦃fun st => ⌜st = s⌝⦄ x ⦃⇓ a st => ⌜P a st⌝⦄ :=
  h P fun _ _ hp => hp

theorem run_bind (x : StateM σ α) (f : α → StateM σ β) (s : σ) :
    (x >>= f).run s = (f (x.run s).1).run (x.run s).2 :=
  rfl

@[spec] theorem discard_spec (x : StateM σ α) (Q : PostCond Unit (.arg σ .pure)) :
    ⦃wp⟦x⟧ (fun _ s => Q.1 () s, Q.2)⦄ (discard x : StateM σ Unit) ⦃Q⦄ := by
  have h : (discard x : StateM σ Unit) = (fun _ => ()) <$> x := rfl
  rw [h]
  exact Spec.map

/-- What every round does to the state, the whole traversal does. -/
theorem forM_spec (R : σ → σ → Prop) (hrefl : ∀ s, R s s)
    (htrans : ∀ a b c, R a b → R b c → R a c) {f : α → StateM σ PUnit} {l : List α}
    (h : ∀ a ∈ l, ∀ s, ⦃fun st => ⌜st = s⌝⦄ f a ⦃⇓ _ st => ⌜R s st⌝⦄) (s : σ) :
    ⦃fun st => ⌜st = s⌝⦄ l.forM f ⦃⇓ _ st => ⌜R s st⌝⦄ := by
  rw [triple_iff_run]
  induction l generalizing s with
  | nil => exact hrefl s
  | cons a rest ih =>
    have ha := triple_iff_run.1 (h a (by simp) s)
    exact htrans _ _ _ ha (ih (fun b hb => h b (by simp [hb])) _)

theorem forM_establishes (R : σ → σ → Prop) (P : α → σ → Prop) (hrefl : ∀ s, R s s)
    (htrans : ∀ a b c, R a b → R b c → R a c) (hkeep : ∀ a b, R a b → ∀ x, P x a → P x b)
    {f : α → StateM σ PUnit} {l : List α}
    (h : ∀ a ∈ l, ∀ s, ⦃fun st => ⌜st = s⌝⦄ f a ⦃⇓ _ st => ⌜R s st ∧ P a st⌝⦄) (s : σ) :
    ⦃fun st => ⌜st = s⌝⦄ l.forM f ⦃⇓ _ st => ⌜R s st ∧ ∀ a ∈ l, P a st⌝⦄ := by
  rw [triple_iff_run]
  induction l generalizing s with
  | nil => exact ⟨hrefl s, fun _ ha => nomatch ha⟩
  | cons a rest ih =>
    obtain ⟨hr, hp⟩ := triple_iff_run.1 (h a (by simp) s)
    obtain ⟨hr', hps⟩ := ih (fun b hb => h b (by simp [hb])) ((f a).run s).2
    exact ⟨htrans _ _ _ hr hr', List.forall_mem_cons.2 ⟨hkeep _ _ hr' _ hp, hps⟩⟩

theorem mapM_spec (R : σ → σ → Prop) (P : σ → β → Prop) (hrefl : ∀ s, R s s)
    (htrans : ∀ a b c, R a b → R b c → R a c) (hkeep : ∀ a b, R a b → ∀ x, P a x → P b x)
    {f : α → StateM σ β} {l : List α}
    (h : ∀ a ∈ l, ∀ s, ⦃fun st => ⌜st = s⌝⦄ f a ⦃⇓ b st => ⌜R s st ∧ P st b⌝⦄) (s : σ) :
    ⦃fun st => ⌜st = s⌝⦄ l.mapM f ⦃⇓ bs st => ⌜R s st ∧ ∀ b ∈ bs, P st b⌝⦄ := by
  rw [triple_iff_run]
  induction l generalizing s with
  | nil => exact ⟨hrefl s, fun _ hb => nomatch hb⟩
  | cons a rest ih =>
    obtain ⟨hr, hp⟩ := triple_iff_run.1 (h a (by simp) s)
    obtain ⟨hr', hps⟩ := ih (fun b hb => h b (by simp [hb])) ((f a).run s).2
    rw [List.mapM_cons]
    exact ⟨htrans _ _ _ hr hr', List.forall_mem_cons.2 ⟨hkeep _ _ hr' _ hp, hps⟩⟩

end Uml
