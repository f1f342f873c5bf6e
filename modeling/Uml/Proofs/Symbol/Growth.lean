import Uml.Symbol.Resolve

/-!
# What registration keeps

Entities are numbered by their places, and full names are filed under these numbers, so that both
find an entity again. A table only grows: what was registered stays registered under its number and
its full name, and a declared entity stays declared where it was.
-/
namespace Uml

namespace FullName

theorem scopes_eq_cons {ns : Bytes} (h : ns ≠ []) : ∃ outer, scopes ns = ns :: outer := by
  unfold scopes
  cases ns with
  | nil => contradiction
  | cons b rest => exact ⟨_, rfl⟩

theorem mem_scopes_self {ns : Bytes} (h : ns ≠ []) : ns ∈ scopes ns := by
  obtain ⟨outer, hs⟩ := scopes_eq_cons h
  simp [hs]

theorem join_ne_nil {ns name : Bytes} (h : name ≠ []) : join ns name ≠ [] := by
  unfold join
  split
  · exact h
  · simp

end FullName

/-- What an entity may turn into: its name stays, and a declared entity stays declared in its
namespace. -/
def Entity.Becomes (e e' : Entity) : Prop :=
  e'.fqn = e.fqn ∧ (e.isImplicit = false → e'.isImplicit = false ∧ e'.ns = e.ns)

theorem Entity.Becomes.refl (e : Entity) : e.Becomes e := ⟨rfl, fun h => ⟨h, rfl⟩⟩

theorem Entity.Becomes.trans {a b c : Entity} (h : a.Becomes b) (h' : b.Becomes c) :
    a.Becomes c := by
  refine ⟨h'.1.trans h.1, fun ha => ?_⟩
  obtain ⟨hb, hns⟩ := h.2 ha
  obtain ⟨hc, hns'⟩ := h'.2 hb
  exact ⟨hc, hns'.trans hns⟩

theorem Entity.addLiterals_eq (e : Entity) (literals : List Bytes) (span : Span) :
    ∃ members, e.addLiterals literals span = { e with members } := by
  unfold addLiterals
  induction literals generalizing e with
  | nil => exact ⟨e.members, rfl⟩
  | cons literal rest ih =>
    simp only [List.foldl_cons]
    split
    · exact ih e
    · exact ih { e with members := e.members ++ [{ name := literal, kind := .literal, span }] }

@[simp] theorem Entity.addLiterals_id (e : Entity) (literals : List Bytes) (span : Span) :
    (e.addLiterals literals span).id = e.id := by
  obtain ⟨members, h⟩ := e.addLiterals_eq literals span
  rw [h]

@[simp] theorem Entity.addLiterals_fqn (e : Entity) (literals : List Bytes) (span : Span) :
    (e.addLiterals literals span).fqn = e.fqn := by
  obtain ⟨members, h⟩ := e.addLiterals_eq literals span
  rw [h]

@[simp] theorem Entity.addLiterals_isImplicit (e : Entity) (literals : List Bytes) (span : Span) :
    (e.addLiterals literals span).isImplicit = e.isImplicit := by
  obtain ⟨members, h⟩ := e.addLiterals_eq literals span
  rw [h]

namespace Table

/-- Every entity bears the number of its place, counted from one. -/
def Numbered (t : Table) : Prop := ∀ i e, t.entities[i]? = some e → e.id = i + 1

theorem mem_of_get? {t : Table} {id : Nat} {e : Entity} (h : t.get? id = some e) :
    e ∈ t.entities := by
  cases id with
  | zero => simp [get?] at h
  | succ n => exact List.mem_of_getElem? h

theorem Numbered.get?_id {t : Table} (ht : t.Numbered) {id : Nat} {e : Entity}
    (h : t.get? id = some e) : e.id = id := by
  cases id with
  | zero => simp [get?] at h
  | succ n => exact ht n e h

theorem Numbered.get?_of_mem {t : Table} (ht : t.Numbered) {e : Entity} (h : e ∈ t.entities) :
    t.get? e.id = some e := by
  obtain ⟨i, hi⟩ := List.mem_iff_getElem?.1 h
  rw [ht i e hi]
  exact hi

theorem mem_of_lookup? {t : Table} {fqn : Bytes} {e : Entity} (h : t.lookup? fqn = some e) :
    e ∈ t.entities := by
  obtain ⟨id, -, hget⟩ := Option.bind_eq_some_iff.1 h
  exact mem_of_get? hget

/-- The two indexes are in step: entities bear the numbers of their places, and a full name is filed
under a number just when the entity with that number bears the name. -/
structure Filed (t : Table) : Prop where
  numbered : t.Numbered
  filed : ∀ fqn id, t.numbers.lookup fqn = some id ↔ ∃ e, t.get? id = some e ∧ e.fqn = fqn

namespace Filed

variable {t : Table} (ht : t.Filed) {fqn : Bytes} {e : Entity}
include ht

theorem lookup?_iff : t.lookup? fqn = some e ↔ e ∈ t.entities ∧ e.fqn = fqn := by
  constructor
  · intro h
    obtain ⟨id, hid, hget⟩ := Option.bind_eq_some_iff.1 h
    obtain ⟨e', hget', hfqn⟩ := (ht.filed fqn id).1 hid
    cases hget.symm.trans hget'
    exact ⟨mem_of_get? hget, hfqn⟩
  · rintro ⟨he, rfl⟩
    have hget := ht.numbered.get?_of_mem he
    exact Option.bind_eq_some_iff.2 ⟨e.id, (ht.filed _ _).2 ⟨e, hget, rfl⟩, hget⟩

theorem fqn_of_lookup? (h : t.lookup? fqn = some e) : e.fqn = fqn := (ht.lookup?_iff.1 h).2

theorem contains_iff : t.contains fqn ↔ ∃ e ∈ t.entities, e.fqn = fqn := by
  rw [contains, Option.isSome_iff_exists]
  constructor
  · rintro ⟨id, hid⟩
    obtain ⟨e, hget, hfqn⟩ := (ht.filed fqn id).1 hid
    exact ⟨e, mem_of_get? hget, hfqn⟩
  · rintro ⟨e, he, hfqn⟩
    exact ⟨e.id, (ht.filed fqn e.id).2 ⟨e, ht.numbered.get?_of_mem he, hfqn⟩⟩

theorem contains_of_mem (h : e ∈ t.entities) : t.contains e.fqn := ht.contains_iff.2 ⟨e, h, rfl⟩

theorem contains_of_get? {id : Nat} (h : t.get? id = some e) : t.contains e.fqn :=
  ht.contains_of_mem (mem_of_get? h)

theorem contains_eq_isSome (fqn : Bytes) : t.contains fqn = (t.lookup? fqn).isSome := by
  rw [Bool.eq_iff_iff, ht.contains_iff, Option.isSome_iff_exists]
  simp only [ht.lookup?_iff]

/-- No two entities share a full name, since it is filed under one number. -/
theorem nodup : (t.entities.map (·.fqn)).Nodup := by
  have hfiled (k : Nat) (hk : k < t.entities.length) :
      t.numbers.lookup t.entities[k].fqn = some (k + 1) :=
    (ht.filed _ _).2 ⟨_, List.getElem?_eq_getElem hk, rfl⟩
  refine List.pairwise_iff_getElem.2 fun i j hi hj hij hsame => ?_
  rw [List.length_map] at hi hj
  rw [List.getElem_map, List.getElem_map] at hsame
  have hnumber := hfiled i hi
  rw [hsame, hfiled j hj, Option.some.injEq] at hnumber
  omega

end Filed

theorem Numbered.get?_replace {t : Table} (ht : t.Numbered) (e : Entity) (id : Nat) :
    (t.replace e).get? id = if id = e.id then (t.get? id).map fun _ => e else t.get? id := by
  cases id with
  | zero => simp [get?]
  | succ n =>
    simp only [get?, replace, List.getElem?_map]
    cases h : t.entities[n]? with
    | none => simp
    | some old =>
      have hid := ht n old h
      by_cases he : n + 1 = e.id
      · simp [hid, he]
      · simp [hid, he]

theorem Numbered.replace {t : Table} (ht : t.Numbered) (e : Entity) : (t.replace e).Numbered := by
  intro i e' h
  simp only [Table.replace, List.getElem?_map, Option.map_eq_some_iff] at h
  obtain ⟨old, hold, rfl⟩ := h
  have hid := ht i old hold
  split
  · rename_i hsame
    exact hsame.symm.trans hid
  · exact hid

theorem get?_append (t : Table) (e : Entity) (id : Nat) :
    (t.append e).1.get? id = if id = t.size + 1 then some (t.append e).2 else t.get? id := by
  cases id with
  | zero => simp [get?]
  | succ n =>
    simp only [get?, append, size, Nat.add_right_cancel_iff]
    by_cases hn : n = t.entities.length
    · simp [hn]
    · rw [if_neg hn]
      rcases Nat.lt_or_ge n t.entities.length with hlt | hge
      · exact List.getElem?_append_left hlt
      · rw [List.getElem?_eq_none hge, List.getElem?_eq_none]
        simp
        omega

theorem Numbered.append {t : Table} (ht : t.Numbered) (e : Entity) : (t.append e).1.Numbered := by
  intro i e' h
  simp only [Table.append, List.getElem?_append] at h
  split at h
  · exact ht i e' h
  · rename_i hi
    rw [List.getElem?_singleton] at h
    split at h
    · cases Option.some.inj h
      simp only [size]
      omega
    · contradiction

theorem Filed.replace {t : Table} (ht : t.Filed) {old e : Entity} (hold : t.get? e.id = some old)
    (hfqn : e.fqn = old.fqn) : (t.replace e).Filed := by
  refine ⟨ht.numbered.replace e, fun fqn id => ?_⟩
  rw [ht.numbered.get?_replace]
  refine (ht.filed fqn id).trans ?_
  split
  · next hid => simp [hid, hold, hfqn]
  · rfl

theorem Filed.append {t : Table} (ht : t.Filed) {e : Entity} (h : t.lookup? e.fqn = none) :
    (t.append e).1.Filed := by
  have hnew : t.numbers.lookup e.fqn = none := by
    have := ht.contains_eq_isSome e.fqn
    simpa [contains, h] using this
  have hlast : t.get? (t.size + 1) = none := by simp [get?, size]
  refine ⟨ht.numbered.append e, fun fqn id => ?_⟩
  rw [get?_append]
  have hfiled := ht.filed fqn id
  simp only [Table.append, List.lookup_cons]
  by_cases hfqn : fqn = e.fqn
  · subst hfqn
    rw [hnew] at hfiled
    split <;> grind
  · rw [beq_false_of_ne hfqn]
    split <;> grind

theorem Filed.registerImplicit {t : Table} (ht : t.Filed) (fqn : Bytes) (h : Hints) :
    (t.registerImplicit fqn h).1.Filed := by
  unfold Table.registerImplicit
  cases hold : t.lookup? fqn with
  | some old =>
    dsimp only
    split
    · let e := { old with modifiers := old.modifiers.union h.modifiers }.addLiterals h.literals h.span
      have hget : t.get? e.id = some old := by
        rw [Entity.addLiterals_id]
        exact ht.numbered.get?_of_mem (mem_of_lookup? hold)
      exact ht.replace hget (Entity.addLiterals_fqn ..)
    · exact ht
  | none => exact ht.append (by simpa using hold)

/-- Whatever `t` holds, `t'` holds too, under the same number. -/
structure Grows (t t' : Table) : Prop where
  namespaces : ∀ ns, t.isNamespace ns → t'.isNamespace ns
  contains : ∀ fqn, t.contains fqn → t'.contains fqn
  entities : ∀ id e, t.get? id = some e → ∃ e', t'.get? id = some e' ∧ e.Becomes e'

theorem Grows.refl (t : Table) : t.Grows t :=
  ⟨fun _ h => h, fun _ h => h, fun _ e h => ⟨e, h, .refl e⟩⟩

theorem Grows.trans {a b c : Table} (h : a.Grows b) (h' : b.Grows c) : a.Grows c := by
  refine ⟨fun ns hns => h'.namespaces ns (h.namespaces ns hns),
    fun fqn hc => h'.contains fqn (h.contains fqn hc), fun id e he => ?_⟩
  obtain ⟨e₁, he₁, hb₁⟩ := h.entities id e he
  obtain ⟨e₂, he₂, hb₂⟩ := h'.entities id e₁ he₁
  exact ⟨e₂, he₂, hb₁.trans hb₂⟩

/-- The indexes are in step, no entity is named like a namespace, and declared entities lie at the
top or in a registered namespace. -/
structure Sound (t : Table) : Prop where
  filed : t.Filed
  apart : ∀ e ∈ t.entities, ¬ t.isNamespace e.fqn
  housed : ∀ e ∈ t.entities, e.isImplicit = false → e.ns = [] ∨ t.isNamespace e.ns

theorem Sound.numbered {t : Table} (ht : t.Sound) : t.Numbered := ht.filed.numbered

/-- An entity with a number is replaced by one that it may become. -/
theorem Sound.replace {t : Table} (ht : t.Sound) {old e : Entity} (hold : t.get? e.id = some old)
    (hfqn : e.fqn = old.fqn) (hdecl : old.isImplicit = false → e.isImplicit = false ∧ e.ns = old.ns)
    (hns : e.isImplicit = false → e.ns = [] ∨ t.isNamespace e.ns) :
    (t.replace e).Sound ∧ t.Grows (t.replace e) := by
  have hmem : ∀ e' ∈ (t.replace e).entities, e' = e ∨ e' ∈ t.entities := by
    intro e' h
    simp only [Table.replace, List.mem_map] at h
    obtain ⟨a, ha, rfl⟩ := h
    split
    · exact .inl rfl
    · exact .inr ha
  refine ⟨⟨ht.filed.replace hold hfqn, fun e' h => ?_, fun e' h => ?_⟩, fun _ h => h, fun _ h => h,
    fun id a ha => ?_⟩
  · rcases hmem e' h with rfl | h
    · rw [hfqn]
      exact ht.apart old (mem_of_get? hold)
    · exact ht.apart e' h
  · rcases hmem e' h with rfl | h
    · exact hns
    · exact ht.housed e' h
  · rw [ht.numbered.get?_replace]
    split
    · rename_i hid
      subst hid
      cases hold.symm.trans ha
      exact ⟨e, by rw [hold]; rfl, hfqn, hdecl⟩
    · exact ⟨a, ha, .refl a⟩

theorem contains_append {t : Table} {e : Entity} {fqn : Bytes} :
    (t.append e).1.contains fqn ↔ fqn = e.fqn ∨ t.contains fqn := by
  simp only [contains, append, List.lookup_cons]
  split <;> simp_all

theorem Sound.append {t : Table} (ht : t.Sound) {e : Entity} (hnew : t.lookup? e.fqn = none)
    (hfqn : ¬ t.isNamespace e.fqn)
    (hns : e.isImplicit = false → e.ns = [] ∨ t.isNamespace e.ns) :
    (t.append e).1.Sound ∧ t.Grows (t.append e).1 := by
  have hmem : ∀ e' ∈ (t.append e).1.entities, e' = (t.append e).2 ∨ e' ∈ t.entities := by
    intro e' h
    simp only [Table.append, List.mem_append, List.mem_singleton] at h
    exact h.symm
  refine ⟨⟨ht.filed.append hnew, fun e' h => ?_, fun e' h => ?_⟩, fun _ h => h,
    fun _ h => contains_append.2 (.inr h), fun id a ha => ?_⟩
  · rcases hmem e' h with rfl | h
    · exact hfqn
    · exact ht.apart e' h
  · rcases hmem e' h with rfl | h
    · exact hns
    · exact ht.housed e' h
  · rw [get?_append]
    split
    · rename_i hid
      rw [hid] at ha
      simp [get?, size] at ha
    · exact ⟨a, ha, .refl a⟩

/-- An implicit registration answers an entity of that name; only a new name must be no namespace. -/
theorem Sound.registerImplicit {t : Table} (ht : t.Sound) {fqn : Bytes} (h : Hints)
    (hnew : t.contains fqn ∨ ¬ t.isNamespace fqn) :
    (t.registerImplicit fqn h).1.Sound ∧ t.Grows (t.registerImplicit fqn h).1
      ∧ (t.registerImplicit fqn h).1.get? (t.registerImplicit fqn h).2.id
          = some (t.registerImplicit fqn h).2
      ∧ (t.registerImplicit fqn h).2.fqn = fqn := by
  unfold Table.registerImplicit
  cases hold : t.lookup? fqn with
  | some old =>
    obtain ⟨hmem, hfqn⟩ := ht.filed.lookup?_iff.1 hold
    have hget := ht.numbered.get?_of_mem hmem
    dsimp only
    split
    · rename_i himp
      let e := { old with modifiers := old.modifiers.union h.modifiers }.addLiterals h.literals h.span
      have hid : e.id = old.id := Entity.addLiterals_id ..
      have hname : e.fqn = old.fqn := Entity.addLiterals_fqn ..
      have hkind : e.isImplicit = true := (Entity.addLiterals_isImplicit ..).trans himp
      obtain ⟨hs, hg⟩ := ht.replace (hid ▸ hget) hname (by simp [himp]) (by simp [hkind])
      refine ⟨hs, hg, ?_, hname.trans hfqn⟩
      rw [ht.numbered.get?_replace, if_pos rfl, hid, hget]
      rfl
    · exact ⟨ht, .refl t, hget, hfqn⟩
  | none =>
    have hno : ¬ t.isNamespace fqn := by
      rcases hnew with hc | hno
      · simp [ht.filed.contains_eq_isSome, hold] at hc
      · exact hno
    let e : Entity :=
      { fqn, name := (FullName.split fqn).2, ns := (FullName.split fqn).1, isImplicit := true,
        modifiers := h.modifiers, span := h.span, kind := h.kind?.getD .cls }
    obtain ⟨hs, hg⟩ := ht.append (e := e.addLiterals h.literals h.span)
      (by simpa [e] using hold) (by simpa [e] using hno) (by simp [e])
    refine ⟨hs, hg, ?_, Entity.addLiterals_fqn ..⟩
    rw [get?_append]
    simp [Table.append]

/-- A declaration whose name is no namespace keeps the table sound; unless the name is taken, the
answer is the declared entity. -/
theorem Sound.registerExplicit {t : Table} (ht : t.Sound) {e : Entity} (hname : e.name ≠ [])
    (hfqn : ¬ t.isNamespace e.fqn) (hns : e.ns = [] ∨ t.isNamespace e.ns) :
    (t.registerExplicit e).1.Sound ∧ t.Grows (t.registerExplicit e).1
      ∧ ((t.registerExplicit e).2.2 ≠ .duplicate →
          ∃ kept, (t.registerExplicit e).1.get? (t.registerExplicit e).2.1.id = some kept
            ∧ kept.isImplicit = false) := by
  have hne : e.name.isEmpty = false := by simpa using hname
  unfold Table.registerExplicit
  simp only [hne, Bool.false_eq_true, if_false]
  cases hold : t.lookup? e.fqn with
  | none =>
    obtain ⟨hs, hg⟩ := ht.append (e := { e with isImplicit := false }) hold hfqn fun _ => hns
    refine ⟨hs, hg, fun _ => ⟨(t.append { e with isImplicit := false }).2, ?_, rfl⟩⟩
    simp only [get?_append]
    simp [Table.append]
  | some old =>
    obtain ⟨hmem, hname'⟩ := ht.filed.lookup?_iff.1 hold
    have hget := ht.numbered.get?_of_mem hmem
    dsimp only
    split
    · rename_i himp
      let new := { e with isImplicit := false, id := old.id, members := e.members ++ old.members }
      obtain ⟨hs, hg⟩ := ht.replace (e := new) hget hname'.symm (by simp [himp]) fun _ => hns
      refine ⟨hs, hg, fun _ => ⟨new, ?_, rfl⟩⟩
      rw [ht.numbered.get?_replace, if_pos rfl, hget]
      rfl
    · exact ⟨ht, .refl t, by simp⟩

theorem isNamespace_addNamespace {t : Table} {span : Span} {fqn ns : Bytes} :
    (t.addNamespace span fqn).isNamespace ns ↔ ns = fqn ∨ t.isNamespace ns := by
  simp only [isNamespace, addNamespace, List.lookup_cons]
  split <;> simp_all

/-- Namespaces leave the entities and their index as they are, and none is lost. -/
theorem addScopes_keeps (t : Table) (span : Span) (scopes : List Bytes) :
    (t.addScopes span scopes).entities = t.entities ∧ (t.addScopes span scopes).numbers = t.numbers
      ∧ ∀ ns, t.isNamespace ns → (t.addScopes span scopes).isNamespace ns := by
  induction scopes with
  | nil => exact ⟨rfl, rfl, fun _ h => h⟩
  | cons ns outer ih =>
    unfold addScopes
    split
    · exact ⟨rfl, rfl, fun _ h => h⟩
    · exact ⟨ih.1, ih.2.1, fun _ h => isNamespace_addNamespace.2 (.inr (ih.2.2 _ h))⟩

theorem isNamespace_addScopes {t : Table} {span : Span} {ns : Bytes} {outer : List Bytes} :
    (t.addScopes span (ns :: outer)).isNamespace ns := by
  unfold addScopes
  split
  · assumption
  · exact isNamespace_addNamespace.2 (.inl rfl)

/-- A namespace is registered, none is lost, and entities stay as they are. -/
theorem registerNamespace_spec (t : Table) (fqn : Bytes) (span : Span) :
    (t.registerNamespace fqn span).1.entities = t.entities
      ∧ (t.registerNamespace fqn span).1.numbers = t.numbers
      ∧ (∀ ns, t.isNamespace ns → (t.registerNamespace fqn span).1.isNamespace ns)
      ∧ (fqn ≠ [] → (t.registerNamespace fqn span).1.isNamespace fqn) := by
  unfold registerNamespace
  split
  · rename_i h
    refine ⟨rfl, rfl, fun _ h => h, fun hne => ?_⟩
    simpa [hne] using h
  · obtain ⟨hentities, hnumbers, hkept⟩ := t.addScopes_keeps span (FullName.scopes fqn)
    refine ⟨hentities, hnumbers, hkept, fun hne => ?_⟩
    obtain ⟨outer, hscopes⟩ := FullName.scopes_eq_cons hne
    rw [hscopes]
    exact isNamespace_addScopes

/-! ## Resolution -/

theorem Filed.contains_of_scout {t : Table} (ht : t.Filed) {name lead fqn : Bytes}
    (h : fqn ∈ t.scout name lead) : t.contains fqn := by
  simp only [scout, List.mem_map, List.mem_filter] at h
  obtain ⟨e, ⟨he, -⟩, rfl⟩ := h
  exact ht.contains_of_mem he

theorem Filed.contains_of_candidates {t : Table} (ht : t.Filed) {stage : ResolveStage}
    {name lead : Bytes} {r : Resolution}
    (h : Resolution.ofCandidates? stage (t.scout name lead) = some r) :
    r.stage = stage ∧ t.contains r.fqn := by
  have hmem : ∀ fqn ∈ t.scout name lead, t.contains fqn := fun _ => ht.contains_of_scout
  cases hs : t.scout name lead with
  | nil => simp [hs, Resolution.ofCandidates?] at h
  | cons fqn others =>
    have hfqn : t.contains fqn := hmem fqn (by simp [hs])
    cases others with
    | nil =>
      simp only [hs, Resolution.ofCandidates?, Option.some.injEq] at h
      exact h ▸ ⟨rfl, hfqn⟩
    | cons other rest =>
      simp only [hs, Resolution.ofCandidates?, Option.some.injEq] at h
      exact h ▸ ⟨rfl, hfqn⟩

/-- A reference that is found names an entity; one that is not is named after its place. -/
theorem Filed.resolve_cases {t : Table} (ht : t.Filed) {name : Bytes} (hname : name ≠ [])
    (ns : Bytes) :
    (t.resolve name ns).isFound ∧ t.contains (t.resolve name ns).fqn
      ∨ (t.resolve name ns).isFound = false ∧ (t.resolve name ns).fqn = FullName.join ns name := by
  have hne : name.isEmpty = false := by simpa using hname
  unfold Table.resolve
  simp only [hne, Bool.false_eq_true, if_false]
  split
  · rename_i h
    exact .inl ⟨rfl, h⟩
  split
  · rename_i h
    exact .inl ⟨rfl, (Bool.and_eq_true _ _ ▸ h).2⟩
  split
  · rename_i fqn h
    exact .inl ⟨rfl, List.find?_some h⟩
  split
  · rename_i r h
    obtain ⟨scope, -, hr⟩ := List.exists_of_findSome?_eq_some h
    obtain ⟨hstage, hc⟩ := ht.contains_of_candidates hr
    exact .inl ⟨by simp [Resolution.isFound, hstage], hc⟩
  cases h : Resolution.ofCandidates? .global (t.scout name []) with
  | none => exact .inr ⟨rfl, rfl⟩
  | some r =>
    obtain ⟨hstage, hc⟩ := ht.contains_of_candidates h
    exact .inl ⟨by simp [Resolution.isFound, hstage], hc⟩

end Table
end Uml
