import Mathlib.Data.List.Induction
import Mathlib.Tactic.Common
import Uml.Language.Catalog

/-!
# Registries

A registry takes a plugin only if its name is new and nothing in it that has one owner is taken. So each of
those parts comes from one plugin whatever the order of the plugins, and a refused plugin leaves no trace.
-/
namespace Uml

section Owners

variable {α β : Type} {l l' : List α}

theorem findSome?_eq_none_iff_countP {f : α → Option β} :
    l.findSome? f = none ↔ l.countP (fun a => (f a).isSome) = 0 := by
  simp [List.countP_eq_zero, List.findSome?_eq_none_iff]

/-- Where only one member has something to give, that is what is found. -/
theorem findSome?_of_countP {f : α → Option β} (h : l.countP (fun a => (f a).isSome) ≤ 1) {a : α}
    (ha : a ∈ l) (hsome : (f a).isSome) : l.findSome? f = f a := by
  obtain ⟨front, back, rfl⟩ := List.append_of_mem ha
  have hfront : front.findSome? f = none := by
    rw [findSome?_eq_none_iff_countP]
    have hcons : (a :: back).countP (fun a => (f a).isSome) = back.countP (fun a => (f a).isSome) + 1 :=
      List.countP_cons_of_pos hsome
    rw [List.countP_append, hcons] at h
    omega
  obtain ⟨b, hb⟩ := Option.isSome_iff_exists.1 hsome
  rw [List.findSome?_append, hfront, Option.none_or, List.findSome?_cons, hb]

/-- And the order of the members does not matter. -/
theorem findSome?_perm {f : α → Option β} (h : l.countP (fun a => (f a).isSome) ≤ 1) (hperm : l.Perm l') :
    l.findSome? f = l'.findSome? f := by
  cases hfound : l.findSome? f with
  | none =>
    rw [findSome?_eq_none_iff_countP, hperm.countP_eq] at hfound
    exact (findSome?_eq_none_iff_countP.2 hfound).symm
  | some b =>
    obtain ⟨a, ha, hb⟩ := List.exists_of_findSome?_eq_some hfound
    rw [hperm.countP_eq] at h
    rw [findSome?_of_countP h (hperm.subset ha) (by rw [hb]; rfl), hb]

theorem find?_perm {p : α → Bool} (h : l.countP p ≤ 1) (hperm : l.Perm l') : l.find? p = l'.find? p := by
  rw [List.find?_eq_findSome?_guard, List.find?_eq_findSome?_guard]
  exact findSome?_perm (by simpa using h) hperm

theorem find?_snoc {p : α → Bool} {a : α} (h : p a = true → l.countP p = 0) :
    (l ++ [a]).find? p = if p a then some a else l.find? p := by
  rw [List.find?_append, List.find?_singleton]
  split
  · next ha => rw [List.find?_eq_none.2 (List.countP_eq_zero.1 (h ha)), Option.none_or]
  · rw [Option.or_none]

theorem countP_snoc_le_one {p : α → Bool} (h : l.countP p ≤ 1) (a : α) :
    (l ++ [a]).countP p ≤ 1 ↔ p a = true → l.countP p = 0 := by
  rw [List.countP_append, List.countP_singleton]
  cases p a <;> simp [h]

end Owners

namespace Registry

/-- No name twice, and at most one owner of each part that has one. -/
structure IsConsistent (plugins : List Plugin) : Prop where
  names : (plugins.map (·.name)).Nodup
  language : plugins.countP (·.language.isSome) ≤ 1
  primitives : plugins.countP (·.primitives.isSome) ≤ 1
  unexpected : plugins.countP (·.unexpected.isSome) ≤ 1

theorem isConsistent_nil : IsConsistent [] := ⟨List.nodup_nil, by simp, by simp, by simp⟩

/-- What one more plugin must not do. -/
theorem IsConsistent.snoc_iff {ps : List Plugin} (h : IsConsistent ps) (p : Plugin) :
    IsConsistent (ps ++ [p]) ↔ (∀ q ∈ ps, q.name ≠ p.name)
      ∧ (p.language.isSome → ps.countP (·.language.isSome) = 0)
      ∧ (p.primitives.isSome → ps.countP (·.primitives.isSome) = 0)
      ∧ (p.unexpected.isSome → ps.countP (·.unexpected.isSome) = 0) := by
  have hnames : ((ps ++ [p]).map (·.name)).Nodup ↔ ∀ q ∈ ps, q.name ≠ p.name := by
    rw [List.map_append, List.nodup_append]
    simp [h.names]
  rw [← hnames, ← countP_snoc_le_one h.language, ← countP_snoc_le_one h.primitives,
    ← countP_snoc_le_one h.unexpected]
  exact ⟨fun h => ⟨h.names, h.language, h.primitives, h.unexpected⟩, fun ⟨hn, hl, hp, hu⟩ => ⟨hn, hl, hp, hu⟩⟩

/-! ## Calls -/

/-- The stored owners are those among the plugins. -/
structure KeepsOwners (r : Registry) : Prop where
  language : r.languageOwner? = r.plugins.find? (·.language.isSome)
  primitives : r.primitivesOwner? = r.plugins.find? (·.primitives.isSome)
  unexpected : r.unexpectedOwner? = r.plugins.find? (·.unexpected.isSome)

structure Sound (r : Registry) : Prop where
  consistent : IsConsistent r.plugins
  owners : r.KeepsOwners

theorem sound_empty : Sound {} := ⟨isConsistent_nil, rfl, rfl, rfl⟩

/-- What a call finds against a plugin, in the order in which it looks. -/
def refusal? (r : Registry) (p : Plugin) : Option PluginError :=
  if r.plugins.any (·.name = p.name) then some (.duplicate p.name)
  else
    (if p.language.isSome then r.languageOwner?.map fun _ => .languageTaken p.name r.language else none)
      <|> (if p.primitives.isSome then r.primitivesOwner?.map (.primitivesTaken p.name ·.name) else none)
      <|> (if p.unexpected.isSome then r.unexpectedOwner?.map (.unexpectedTaken p.name ·.name) else none)

/-- The registry with one more plugin, which owns whatever it claims. -/
def adopt (r : Registry) (p : Plugin) : Registry where
  plugins := r.plugins ++ [p]
  languageOwner? := if p.language.isSome then some p else r.languageOwner?
  primitivesOwner? := if p.primitives.isSome then some p else r.primitivesOwner?
  unexpectedOwner? := if p.unexpected.isSome then some p else r.unexpectedOwner?

theorem run_get_bind {ε σ α : Type} (f : σ → ExceptT ε (StateM σ) α) (s : σ) :
    (get >>= f : ExceptT ε (StateM σ) α).run.run s = (f s).run.run s := rfl

/-- All four checks come before the first update, so a plugin is adopted whole or not at all. -/
theorem run_register_some (r : Registry) (p : Plugin) : (register (some p)).run.run r
    = match r.refusal? p with
      | some e => (.error e, r)
      | none => (.ok (), r.adopt p) := by
  obtain ⟨plugins, languageOwner, primitivesOwner, unexpectedOwner⟩ := r
  unfold register refusal? adopt
  dsimp only
  rw [run_get_bind]
  cases plugins.any (·.name = p.name) with
  | true => rfl
  | false =>
    cases p.language <;> cases p.primitives <;> cases p.unexpected <;> cases languageOwner <;>
      cases primitivesOwner <;> cases unexpectedOwner <;> rfl

/-- A call adopts the plugin, or it is refused and changes nothing. -/
theorem call_cases (r : Registry) (p? : Option Plugin) :
    (∃ e, r.call p? = (some e, r)) ∨ ∃ p, p? = some p ∧ r.call p? = (none, r.adopt p) := by
  cases p? with
  | none => exact .inl ⟨.missing, rfl⟩
  | some p =>
    rw [call, run_register_some]
    cases r.refusal? p with
    | some e => exact .inl ⟨e, rfl⟩
    | none => exact .inr ⟨p, rfl, rfl⟩

/-- A plugin fits if it keeps a registry consistent. -/
theorem refusal?_eq_none_iff {r : Registry} (hr : r.Sound) (p : Plugin) :
    r.refusal? p = none ↔ IsConsistent (r.plugins ++ [p]) := by
  have hnames : r.plugins.any (·.name = p.name) = true ↔ ¬∀ q ∈ r.plugins, q.name ≠ p.name := by simp
  have howner {part : Plugin → Bool} : r.plugins.countP part = 0 ↔ r.plugins.find? part = none := by
    rw [List.countP_eq_zero, List.find?_eq_none]
  rw [hr.consistent.snoc_iff, howner, howner, howner, ← hr.owners.language, ← hr.owners.primitives,
    ← hr.owners.unexpected]
  unfold refusal?
  by_cases hany : r.plugins.any (·.name = p.name) = true
  · exact iff_of_false (by simp [hany]) fun h => hnames.1 hany h.1
  · rw [if_neg hany, and_iff_right (not_not.1 fun h => hany (hnames.2 h))]
    cases p.language.isSome <;> cases p.primitives.isSome <;> cases p.unexpected.isSome <;> simp

theorem call_eq_none_iff {r : Registry} (hr : r.Sound) (p? : Option Plugin) :
    (r.call p?).1 = none ↔ ∃ p, p? = some p ∧ IsConsistent (r.plugins ++ [p]) := by
  cases p? with
  | none => exact iff_of_false nofun nofun
  | some p =>
    simp only [Option.some.injEq, exists_eq_left', ← refusal?_eq_none_iff hr, call, run_register_some]
    cases r.refusal? p <;> simp

/-- A plugin that fits becomes the owner of what it claims. -/
theorem Sound.adopt {r : Registry} (hr : r.Sound) {p : Plugin} (h : IsConsistent (r.plugins ++ [p])) :
    (r.adopt p).Sound where
  consistent := h
  owners := by
    obtain ⟨-, hlanguage, hprimitives, hunexpected⟩ := (hr.consistent.snoc_iff p).1 h
    refine ⟨?_, ?_, ?_⟩ <;> dsimp only [Registry.adopt]
    · rw [find?_snoc hlanguage, hr.owners.language]
    · rw [find?_snoc hprimitives, hr.owners.primitives]
    · rw [find?_snoc hunexpected, hr.owners.unexpected]

theorem Sound.call {r : Registry} (hr : r.Sound) (p? : Option Plugin) : (r.call p?).2.Sound := by
  rcases r.call_cases p? with ⟨e, hcall⟩ | ⟨p, rfl, hcall⟩
  · rw [hcall]
    exact hr
  · obtain ⟨q, hq, hfits⟩ := (call_eq_none_iff hr (some p)).1 (by rw [hcall])
    cases hq
    rw [hcall]
    exact hr.adopt hfits

/-- The registry behind a sequence of calls, refused ones among them. -/
def registerAll (calls : List (Option Plugin)) : Registry := calls.foldl (fun r p? => (r.call p?).2) {}

theorem sound_registerAll (calls : List (Option Plugin)) : (registerAll calls).Sound := by
  unfold registerAll
  induction calls using List.reverseRecOn with
  | nil => exact sound_empty
  | append_singleton calls p? ih =>
    rw [List.foldl_append]
    exact ih.call p?

/-! ## Parts with one owner -/

theorem last?_eq_findSome? {α : Type} (r : Registry) (part : Plugin → Option α) :
    r.last? part = r.plugins.reverse.findSome? part := by
  unfold last?
  induction r.plugins using List.reverseRecOn with
  | nil => rfl
  | append_singleton ps p ih =>
    rw [List.foldl_append, ih, List.reverse_append]
    cases hpart : part p <;> simp [hpart]

/-- Each part with one owner is what any plugin has that provides it. -/
theorem Sound.owned {r : Registry} (hr : r.Sound) {p : Plugin} (hp : p ∈ r.plugins) :
    (p.language.isSome → r.languageOwner? = some p)
      ∧ (p.primitives.isSome → r.primitivesOwner? = some p ∧ r.typing.primitives = p.primitives)
      ∧ (p.unexpected.isSome → r.unexpectedOwner? = some p ∧ r.grammar.unexpected = p.unexpected) := by
  have hfind {part : Plugin → Bool} (hone : r.plugins.countP part ≤ 1) (hpart : part p = true) :
      r.plugins.find? part = some p := by
    rw [List.find?_eq_findSome?_guard, findSome?_of_countP (by simpa using hone) hp (by simpa using hpart)]
    simpa using hpart
  have hlast {α : Type} {part : Plugin → Option α} (hone : r.plugins.countP (fun p => (part p).isSome) ≤ 1)
      (hpart : (part p).isSome) : r.last? part = part p := by
    rw [last?_eq_findSome?]
    exact findSome?_of_countP (by rwa [List.countP_reverse]) (List.mem_reverse.2 hp) hpart
  refine ⟨fun h => ?_, fun h => ⟨?_, hlast hr.consistent.primitives h⟩,
    fun h => ⟨?_, hlast hr.consistent.unexpected h⟩⟩
  · rw [hr.owners.language, hfind hr.consistent.language h]
  · rw [hr.owners.primitives, hfind hr.consistent.primitives h]
  · rw [hr.owners.unexpected, hfind hr.consistent.unexpected h]

theorem Sound.owners_perm {r r' : Registry} (hr : r.Sound) (hr' : r'.Sound) (hperm : r.plugins.Perm r'.plugins) :
    r.languageOwner? = r'.languageOwner? ∧ r.primitivesOwner? = r'.primitivesOwner?
      ∧ r.unexpectedOwner? = r'.unexpectedOwner?
      ∧ r.typing.primitives = r'.typing.primitives ∧ r.grammar.unexpected = r'.grammar.unexpected := by
  have hlast {α : Type} {part : Plugin → Option α} (hone : r.plugins.countP (fun p => (part p).isSome) ≤ 1) :
      r.last? part = r'.last? part := by
    rw [last?_eq_findSome?, last?_eq_findSome?]
    exact findSome?_perm (by rwa [List.countP_reverse])
      ((List.reverse_perm _).trans (hperm.trans (List.reverse_perm _).symm))
  refine ⟨?_, ?_, ?_, hlast hr.consistent.primitives, hlast hr.consistent.unexpected⟩
  · rw [hr.owners.language, hr'.owners.language, find?_perm hr.consistent.language hperm]
  · rw [hr.owners.primitives, hr'.owners.primitives, find?_perm hr.consistent.primitives hperm]
  · rw [hr.owners.unexpected, hr'.owners.unexpected, find?_perm hr.consistent.unexpected hperm]

/-- Whatever calls were made on an empty registry, it is consistent and its stored owners are those among its
plugins; the next call is refused and leaves all of it as it was, or it adds its plugin, and that exactly if the
plugin keeps it consistent. The parts with one owner are those of any plugin that provides them, so they are the
same in whatever order the plugins came. -/
theorem registerAll_consistent (calls : List (Option Plugin)) :
    IsConsistent (registerAll calls).plugins ∧ (registerAll calls).KeepsOwners
      ∧ (∀ p? e, ((registerAll calls).call p?).1 = some e → ((registerAll calls).call p?).2 = registerAll calls)
      ∧ (∀ p?, ((registerAll calls).call p?).1 = none ↔
          ∃ p, p? = some p ∧ IsConsistent ((registerAll calls).plugins ++ [p]))
      ∧ (∀ p?, ((registerAll calls).call p?).1 = none →
          ((registerAll calls).call p?).2.plugins = (registerAll calls).plugins ++ p?.toList)
      ∧ (∀ p ∈ (registerAll calls).plugins, (p.language.isSome → (registerAll calls).languageOwner? = some p)
          ∧ (p.primitives.isSome → (registerAll calls).primitivesOwner? = some p
            ∧ (registerAll calls).typing.primitives = p.primitives)
          ∧ (p.unexpected.isSome → (registerAll calls).unexpectedOwner? = some p
            ∧ (registerAll calls).grammar.unexpected = p.unexpected))
      ∧ ∀ calls', (registerAll calls).plugins.Perm (registerAll calls').plugins →
          (registerAll calls).languageOwner? = (registerAll calls').languageOwner?
            ∧ (registerAll calls).primitivesOwner? = (registerAll calls').primitivesOwner?
            ∧ (registerAll calls).unexpectedOwner? = (registerAll calls').unexpectedOwner?
            ∧ (registerAll calls).typing.primitives = (registerAll calls').typing.primitives
            ∧ (registerAll calls).grammar.unexpected = (registerAll calls').grammar.unexpected := by
  have hr := sound_registerAll calls
  generalize registerAll calls = r at hr ⊢
  refine ⟨hr.consistent, hr.owners, fun p? e he => ?_, call_eq_none_iff hr, fun p? hnone => ?_,
    fun p hp => hr.owned hp, fun calls' hperm => hr.owners_perm (sound_registerAll calls') hperm⟩
  · rcases r.call_cases p? with ⟨e', hcall⟩ | ⟨p, rfl, hcall⟩
    · rw [hcall]
    · rw [hcall] at he
      cases he
  · rcases r.call_cases p? with ⟨e', hcall⟩ | ⟨p, rfl, hcall⟩
    · rw [hcall] at hnone
      cases hnone
    · rw [hcall]
      rfl

/-- A second language is refused, whichever comes first, and so is a plugin of a name that is taken. -/
example : (registerAll [some TypeScript.plugin, some Java.plugin, none, some { name := "typescript" },
      some { name := "doc" }]).plugins.map (·.name) = (["typescript", "doc"] : List Bytes)
    ∧ (registerAll [some Java.plugin, some TypeScript.plugin]).language = "java" := by
  decide

theorem ofPlugins_singleton (p : Plugin) : ofPlugins [p] = .ok (adopt {} p) := by
  have hfits : refusal? {} p = none :=
    (refusal?_eq_none_iff sound_empty p).2 ((isConsistent_nil.snoc_iff p).2 (by simp))
  have hrun : ([p].forM fun p => register (some p)).run.run {} = (.ok (), adopt {} p) := by
    have hone : ([p].forM fun p => register (some p)).run.run ({} : Registry) = (register (some p)).run.run {} := by
      simp
    rw [hone, run_register_some, hfits]
  rw [ofPlugins, hrun]

end Registry

/-- The languages that have a name are the plain notation and the two host languages. -/
theorem Catalog.registry_cases {name : Bytes} {r : Registry} (h : registry name = .ok r) :
    r = {} ∨ r = Registry.adopt {} TypeScript.plugin ∨ r = Registry.adopt {} Java.plugin := by
  unfold registry at h
  split at h
  · cases h
    exact .inl rfl
  · cases hfind : entries.find? (·.1 = fold name) with
    | none => simp [plugin?, hfind, bind, Except.bind] at h
    | some entry =>
      simp only [plugin?, hfind, bind, Except.bind, Registry.ofPlugins_singleton] at h
      cases h
      have hmem := List.mem_of_find?_eq_some hfind
      simp only [entries, List.mem_cons, List.not_mem_nil, or_false] at hmem
      rcases hmem with rfl | rfl | rfl
      · exact .inr (.inr rfl)
      · exact .inr (.inl rfl)
      · exact .inr (.inl rfl)

theorem Catalog.grammar_of_registry {name : Bytes} {r : Registry} (h : registry name = .ok r) :
    r.grammar = {} ∨ r.grammar = TypeScript.grammar ∨ r.grammar = Java.grammar := by
  rcases registry_cases h with rfl | rfl | rfl
  · exact .inl rfl
  · exact .inr (.inl rfl)
  · exact .inr (.inr rfl)

end Uml
