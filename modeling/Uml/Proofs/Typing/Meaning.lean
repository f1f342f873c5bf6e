import Mathlib
import Uml.Proofs.Language.Registry
import Uml.Proofs.Model.Multiplicity

/-!
# What holds of every meaning

Strategies build the meaning of a type from those of its parts. A property that their few ways of building
keep holds of every meaning, in every language.
-/
namespace Uml

/-- A property that every way of building a meaning keeps. -/
structure TypeMeaning.IsKept (P : TypeMeaning → Prop) : Prop where
  value : P .value
  plain : ∀ target, target ≠ [] → P { links := [{ target }] }
  enumerated : ∀ target literals span, target ≠ [] →
    P { links := [{ target, registerOnly := true, hints := { kind? := some .enumeration, literals, span } }] }
  alternatives : ∀ ms : List TypeMeaning, (∀ m ∈ ms, P m) → P (Strategy.alternatives (ms.flatMap (·.links)))
  collect : ∀ m kind, P m → ∀ mult, mult.IsBounded → P (m.collect kind mult)
  dependOn : ∀ m label, P m → P (TypeScript.dependOn label m)

/-- A strategy makes meanings with a property out of such meanings. -/
def Strategy.Keeps (s : Strategy) (P : TypeMeaning → Prop) : Prop :=
  ∀ scope nested, (∀ t, P (nested t)) → ∀ t m, s.meaning? scope nested t = some m → P m

namespace TypeMeaning.IsKept

open Strategy

variable {P : TypeMeaning → Prop}

theorem primitive (h : IsKept P) : primitive.Keeps P := by
  intro scope nested _ t m hm
  unfold Strategy.primitive at hm
  simp only at hm
  split at hm
  · split at hm
    · cases hm
      exact h.value
    · cases hm
  all_goals first | cases hm; exact h.value | cases hm

theorem array (h : IsKept P) : array.Keeps P := by
  intro scope nested hnested t m hm
  unfold Strategy.array at hm
  simp only at hm
  split at hm
  · cases hm
    exact h.collect _ _ (hnested _) _ Multiplicity.isBounded_many
  · cases hm

theorem fallback (h : IsKept P) : fallback.Keeps P := by
  intro scope nested hnested t m hm
  unfold Strategy.fallback at hm
  simp only at hm
  split at hm
  · rename_i ts _
    cases hm
    have hall := h.alternatives (ts.map nested) (List.forall_mem_map.2 fun t _ => hnested t)
    rwa [List.flatMap_map] at hall
  · split at hm
    · cases hm
      exact h.value
    · rename_i hne
      cases hm
      exact h.enumerated _ _ _ (by simpa using hne)
  · split at hm
    · cases hm
      exact h.value
    · rename_i hne
      cases hm
      simp only [Bool.or_eq_true, not_or] at hne
      exact h.plain _ (by simpa using hne.1)

theorem java (h : IsKept P) : Java.strategy.Keeps P := by
  intro scope nested hnested t m hm
  unfold Java.strategy at hm
  cases hgeneric : generic? t with
  | none => simp [hgeneric] at hm
  | some found =>
    simp only [hgeneric, Option.bind_eq_bind, Option.bind_some] at hm
    split at hm
    · cases hm
      exact h.collect _ _ (hnested _) _ Multiplicity.isBounded_many
    split at hm
    · cases hm
      exact h.collect _ _ (hnested _) _ Multiplicity.isBounded_many
    split at hm
    · cases hm
      exact h.collect _ _ (hnested _) _ Multiplicity.isBounded_optional
    split at hm
    · cases hm
      exact hnested _
    · cases hm

theorem typeScript (h : IsKept P) : TypeScript.strategy.Keeps P := by
  intro scope nested hnested t m hm
  unfold TypeScript.strategy at hm
  cases hgeneric : generic? t with
  | none => simp [hgeneric] at hm
  | some found =>
    simp only [hgeneric, Option.bind_eq_bind, Option.bind_some] at hm
    split at hm
    · cases hm
      exact h.collect _ _ (hnested _) _ Multiplicity.isBounded_many
    split at hm
    · cases hm
      exact h.collect _ _ (hnested _) _ Multiplicity.isBounded_many
    split at hm
    · cases hm
      exact hnested _
    · obtain ⟨label, -, rfl⟩ := Option.map_eq_some_iff.1 hm
      exact h.dependOn _ label (hnested _)

end TypeMeaning.IsKept

/-- Every meaning of a typing has the property. -/
def Typing.Keeps (typing : Typing) (P : TypeMeaning → Prop) : Prop := ∀ params t, P (typing.meaning params t)

theorem Typing.keeps_of_extra {typing : Typing} {P : TypeMeaning → Prop} (hP : TypeMeaning.IsKept P)
    (h : ∀ s ∈ typing.extra, s.Keeps P) : typing.Keeps P := by
  have hall : ∀ s ∈ typing.strategies, s.Keeps P := by
    simp only [strategies, List.cons_append, List.forall_mem_cons, List.forall_mem_append]
    exact ⟨hP.primitive, h, hP.array, hP.fallback, nofun⟩
  intro params t
  unfold meaning
  generalize maxDepth = depth
  induction depth generalizing t with
  | zero => exact hP.value
  | succ depth ih =>
    rw [meaningWithin]
    cases hfound : typing.strategies.findSome? _ with
    | none => exact hP.value
    | some m =>
      obtain ⟨s, hs, hm⟩ := List.exists_of_findSome?_eq_some hfound
      exact hall s hs _ _ ih t m hm

theorem Catalog.typing_keeps {name : Bytes} {r : Registry} (h : registry name = .ok r)
    {P : TypeMeaning → Prop} (hP : TypeMeaning.IsKept P) : r.typing.Keeps P := by
  refine Typing.keeps_of_extra hP ?_
  rcases registry_cases h with rfl | rfl | rfl
  · exact nofun
  · exact List.forall_mem_singleton.2 hP.typeScript
  · exact List.forall_mem_singleton.2 hP.java

end Uml
