import Mathlib
import Uml.Proofs.Symbol.Growth

/-!
# Histories of a symbol table

A table is made by registrations, in any order. Whatever they are, every entity is found under its
number and under its full name, declared entities stay as they were declared, and a namespace is
listed behind the one that encloses it.
-/
namespace Uml

namespace FullName

/-- The enclosing namespace has a shorter name. -/
theorem parent_length_lt {ns : Bytes} (h : ns ≠ []) : (parent ns).length < ns.length := by
  unfold parent split Bytes.cutLast?
  dsimp only
  have hlen : (ns.reverse.dropWhile (· ≠ dot)).length ≤ ns.length := by
    rw [← (List.length_reverse : ns.reverse.length = ns.length)]
    exact (List.dropWhile_sublist _).length_le
  cases hback : ns.reverse.dropWhile (· ≠ dot) with
  | nil =>
    simp only [Option.getD_none]
    exact List.length_pos_iff.2 h
  | cons b lead =>
    rw [hback, List.length_cons] at hlen
    simp only [Option.getD_some, List.length_reverse]
    omega

theorem scopesWithin_eq_cons {n : Nat} {ns : Bytes} (hn : ns.length ≤ n) (h : ns ≠ []) :
    ∃ outer, scopesWithin n ns = ns :: outer := by
  cases n with
  | zero => exact absurd (List.length_eq_zero_iff.1 (Nat.le_zero.1 hn)) h
  | succ n => exact ⟨scopesWithin n (parent ns), by simp [scopesWithin, h]⟩

theorem length_le_of_mem_scopesWithin {n : Nat} {ns p : Bytes} (h : p ∈ scopesWithin n ns) :
    p.length ≤ ns.length := by
  induction n generalizing ns with
  | zero => exact absurd h List.not_mem_nil
  | succ n ih =>
    unfold scopesWithin at h
    split at h
    · exact absurd h List.not_mem_nil
    · next hne =>
      rcases List.mem_cons.1 h with rfl | h
      · exact Nat.le_refl _
      · exact (ih h).trans (parent_length_lt (by simpa using hne)).le

end FullName

/-- Names in an order in which each stands behind its enclosing namespace. -/
def ParentsFirst (names : List Bytes) : Prop :=
  ∀ before ns behind, names = before ++ ns :: behind →
    FullName.parent ns ≠ [] → FullName.parent ns ∈ before

theorem ParentsFirst.append {names : List Bytes} (h : ParentsFirst names) {ns : Bytes}
    (hns : FullName.parent ns ≠ [] → FullName.parent ns ∈ names) : ParentsFirst (names ++ [ns]) := by
  intro before ns' behind heq hne
  rcases List.eq_nil_or_concat behind with rfl | ⟨inner, last, rfl⟩
  · obtain ⟨rfl, hlast⟩ := List.append_inj' heq rfl
    cases List.singleton_inj.1 hlast
    exact hns hne
  · have hsplit : names ++ [ns] = (before ++ ns' :: inner) ++ [last] := by simpa using heq
    exact h before ns' inner (List.append_inj' hsplit rfl).1 hne

/-- What an entity may turn into as registrations follow: its number and its name stay, its members
are kept, and a declared entity is never touched. -/
structure Entity.Lasts (e e' : Entity) : Prop where
  id : e'.id = e.id
  fqn : e'.fqn = e.fqn
  members : e.members <:+: e'.members
  declared : e.isImplicit = false → e' = e

theorem Entity.Lasts.refl (e : Entity) : e.Lasts e := ⟨rfl, rfl, List.infix_rfl, fun _ => rfl⟩

theorem Entity.Lasts.trans {a b c : Entity} (h : a.Lasts b) (h' : b.Lasts c) : a.Lasts c where
  id := h'.id.trans h.id
  fqn := h'.fqn.trans h.fqn
  members := h.members.trans h'.members
  declared := by
    intro ha
    cases h.declared ha
    exact h'.declared ha

theorem Entity.members_addLiterals (e : Entity) (literals : List Bytes) (span : Span) :
    e.members <+: (e.addLiterals literals span).members := by
  unfold addLiterals
  induction literals generalizing e with
  | nil => exact List.prefix_rfl
  | cons literal rest ih =>
    rw [List.foldl_cons]
    split
    · exact ih e
    · exact (List.prefix_append e.members _).trans
        (ih { e with members := e.members ++ [{ name := literal, kind := .literal, span }] })

namespace Table

/-- Every entity is found under its number and under its full name, which no other entity has: the
number that a name is filed under is the one that the entity of that name bears. -/
structure IsIndexed (t : Table) : Prop where
  numbered : ∀ id e, t.get? id = some e → e.id = id
  distinct : (t.entities.map (·.fqn)).Nodup
  filed : ∀ fqn id, t.numbers.lookup fqn = some id ↔ ∃ e, t.get? id = some e ∧ e.fqn = fqn
  lookup : ∀ fqn e, t.lookup? fqn = some e ↔ e ∈ t.entities ∧ e.fqn = fqn

/-- The namespaces that are filed are listed, once and behind the ones that enclose them. -/
structure IsRooted (t : Table) : Prop where
  distinct : t.order.Nodup
  listed : ∀ ns, t.isNamespace ns ↔ ns ∈ t.order
  closed : ∀ ns, t.isNamespace ns → FullName.parent ns ≠ [] → t.isNamespace (FullName.parent ns)
  parents : ParentsFirst t.order

/-- Every entity of `t` is in `t'` under its number. -/
def Retains (t t' : Table) : Prop :=
  ∀ id e, t.get? id = some e → ∃ e', t'.get? id = some e' ∧ e.Lasts e'

/-- Where the name of `e` belongs to an implicit entity, its declaration takes over the number, the
place and the members of that entity. -/
def Promotes (t : Table) (e : Entity) : Prop :=
  ∀ old, t.lookup? e.fqn = some old → old.isImplicit = true →
    ∃ kept, t.registerExplicit e = (t.replace kept, kept, .promoted)
      ∧ (t.replace kept).get? old.id = some kept ∧ kept.id = old.id ∧ kept.isImplicit = false
      ∧ kept.members = e.members ++ old.members

theorem Retains.refl (t : Table) : t.Retains t := fun _ e h => ⟨e, h, .refl e⟩

theorem Retains.trans {a b c : Table} (h : a.Retains b) (h' : b.Retains c) : a.Retains c := by
  intro id e he
  obtain ⟨e₁, he₁, hlasts⟩ := h id e he
  obtain ⟨e₂, he₂, hlasts'⟩ := h' id e₁ he₁
  exact ⟨e₂, he₂, hlasts.trans hlasts'⟩

/-- What every registration keeps. -/
structure Orderly (t : Table) : Prop where
  filed : t.Filed
  distinct : t.order.Nodup
  listed : ∀ ns, t.isNamespace ns ↔ ns ∈ t.order
  parents : ParentsFirst t.order

theorem Orderly.numbered {t : Table} (ht : t.Orderly) : t.Numbered := ht.filed.numbered

theorem Orderly.isIndexed {t : Table} (ht : t.Orderly) : t.IsIndexed :=
  ⟨fun _ _ h => ht.numbered.get?_id h, ht.filed.nodup, ht.filed.filed, fun _ _ => ht.filed.lookup?_iff⟩

theorem Orderly.isRooted {t : Table} (ht : t.Orderly) : t.IsRooted where
  distinct := ht.distinct
  listed := ht.listed
  closed := by
    intro ns hns hparent
    obtain ⟨before, behind, horder⟩ := List.append_of_mem ((ht.listed ns).1 hns)
    rw [ht.listed, horder]
    exact List.mem_append_left _ (ht.parents before ns behind horder hparent)
  parents := ht.parents

/-! ## Entities -/

theorem Orderly.replace {t : Table} (ht : t.Orderly) {old e : Entity} (hold : old ∈ t.entities)
    (h : old.Lasts e) : (t.replace e).Orderly ∧ t.Retains (t.replace e) := by
  have hget := ht.numbered.get?_of_mem hold
  have honly : ∀ a ∈ t.entities, a.id = e.id → a = old := by
    intro a ha hid
    rw [h.id] at hid
    have hget' := ht.numbered.get?_of_mem ha
    rw [hid, hget] at hget'
    exact (Option.some.inj hget').symm
  refine ⟨⟨ht.filed.replace (h.id ▸ hget) h.fqn, ht.distinct, ht.listed, ht.parents⟩, ?_⟩
  intro id a ha
  rw [ht.numbered.get?_replace]
  split
  · next hid =>
    cases honly a (mem_of_get? ha) ((ht.numbered.get?_id ha).trans hid)
    exact ⟨e, by rw [ha]; rfl, h⟩
  · exact ⟨a, ha, .refl a⟩

theorem Orderly.append {t : Table} (ht : t.Orderly) {e : Entity} (h : t.lookup? e.fqn = none) :
    (t.append e).1.Orderly ∧ t.Retains (t.append e).1 := by
  refine ⟨⟨ht.filed.append h, ht.distinct, ht.listed, ht.parents⟩, fun id a ha => ?_⟩
  rw [get?_append]
  split
  · next hid => simp [hid, get?, size] at ha
  · exact ⟨a, ha, .refl a⟩

theorem Orderly.registerImplicit {t : Table} (ht : t.Orderly) (fqn : Bytes) (h : Hints) :
    (t.registerImplicit fqn h).1.Orderly ∧ t.Retains (t.registerImplicit fqn h).1 := by
  unfold Table.registerImplicit
  cases hold : t.lookup? fqn with
  | some old =>
    dsimp only
    split
    · next himplicit =>
      apply ht.replace (mem_of_lookup? hold)
      refine ⟨Entity.addLiterals_id .., Entity.addLiterals_fqn .., ?_, by simp [himplicit]⟩
      exact (Entity.members_addLiterals
        { old with modifiers := old.modifiers.union h.modifiers } h.literals h.span).isInfix
    · exact ⟨ht, .refl t⟩
  | none =>
    apply ht.append
    rw [Entity.addLiterals_fqn]
    exact hold

/-- The declaration that a table records: with a short name and a namespace. -/
def declared (e : Entity) : Entity :=
  let e := if e.name.isEmpty then
      { e with ns := (FullName.split e.fqn).1, name := (FullName.split e.fqn).2 }
    else e
  { e with isImplicit := false }

@[simp] theorem declared_fqn (e : Entity) : (declared e).fqn = e.fqn := by
  unfold declared
  split <;> rfl

@[simp] theorem declared_members (e : Entity) : (declared e).members = e.members := by
  unfold declared
  split <;> rfl

theorem registerExplicit_eq (t : Table) (e : Entity) :
    t.registerExplicit e = match t.lookup? e.fqn with
      | none => ((t.append (declared e)).1, (t.append (declared e)).2, .registered)
      | some old =>
        if old.isImplicit then
          let kept := { declared e with id := old.id, members := e.members ++ old.members }
          (t.replace kept, kept, .promoted)
        else (t, old, .duplicate) := by
  rw [← declared_fqn e, ← declared_members e]
  rfl

theorem lasts_declared {old e : Entity} (himplicit : old.isImplicit = true) (h : old.fqn = e.fqn) :
    old.Lasts { declared e with id := old.id, members := e.members ++ old.members } where
  id := rfl
  fqn := (declared_fqn e).trans h.symm
  members := (List.suffix_append ..).isInfix
  declared := by simp [himplicit]

theorem Orderly.registerExplicit {t : Table} (ht : t.Orderly) (e : Entity) :
    (t.registerExplicit e).1.Orderly ∧ t.Retains (t.registerExplicit e).1 := by
  rw [registerExplicit_eq]
  cases hold : t.lookup? e.fqn with
  | none => exact ht.append (by rwa [declared_fqn])
  | some old =>
    obtain ⟨hmem, hfqn⟩ := ht.filed.lookup?_iff.1 hold
    dsimp only
    split
    · next himplicit => exact ht.replace hmem (lasts_declared himplicit hfqn)
    · exact ⟨ht, .refl t⟩

theorem Orderly.promotes {t : Table} (ht : t.Orderly) (e : Entity) : t.Promotes e := by
  intro old hold himplicit
  have hget := ht.numbered.get?_of_mem (mem_of_lookup? hold)
  refine ⟨{ declared e with id := old.id, members := e.members ++ old.members }, ?_, ?_, rfl, rfl, rfl⟩
  · rw [registerExplicit_eq, hold]
    simp only [himplicit, if_true]
  · rw [ht.numbered.get?_replace, if_pos rfl, hget]
    rfl

/-! ## Namespaces -/

/-- A new namespace is listed behind the one that encloses it. -/
theorem Orderly.addNamespace {t : Table} (ht : t.Orderly) (span : Span) {ns : Bytes}
    (hnew : ¬ t.isNamespace ns) (h : FullName.parent ns ≠ [] → t.isNamespace (FullName.parent ns)) :
    (t.addNamespace span ns).Orderly where
  filed := ⟨ht.filed.numbered, ht.filed.filed⟩
  distinct := ht.distinct.append (List.nodup_singleton _) (by simpa [ht.listed] using hnew)
  listed := by
    intro ns'
    rw [isNamespace_addNamespace, ht.listed, Table.addNamespace, List.mem_append, List.mem_singleton,
      or_comm]
  parents := ht.parents.append fun hne => (ht.listed _).1 (h hne)

theorem mem_of_isNamespace_addScopes {t : Table} {span : Span} {scopes : List Bytes} {ns : Bytes}
    (h : (t.addScopes span scopes).isNamespace ns) : t.isNamespace ns ∨ ns ∈ scopes := by
  induction scopes with
  | nil => exact .inl h
  | cons scope outer ih =>
    unfold addScopes at h
    split at h
    · exact .inl h
    · rcases isNamespace_addNamespace.1 h with rfl | h
      · exact .inr List.mem_cons_self
      · exact (ih h).imp_right (List.mem_cons_of_mem _)

/-- Scopes are added from the outermost one in, so that each finds its parent and is new itself. -/
theorem Orderly.addScopes {t : Table} (ht : t.Orderly) (span : Span) {n : Nat} {ns : Bytes}
    (hn : ns.length ≤ n) : (t.addScopes span (FullName.scopesWithin n ns)).Orderly := by
  induction n generalizing ns with
  | zero => exact ht
  | succ n ih =>
    unfold FullName.scopesWithin
    split
    · exact ht
    next hne =>
    have hlt := FullName.parent_length_lt (by simpa using hne)
    have hlen : (FullName.parent ns).length ≤ n := by omega
    unfold Table.addScopes
    split
    · exact ht
    next hnew =>
    refine (ih hlen).addNamespace span (fun h => ?_) fun hparent => ?_
    · have hmem := (mem_of_isNamespace_addScopes h).resolve_left hnew
      exact absurd (FullName.length_le_of_mem_scopesWithin hmem) (Nat.not_le.2 hlt)
    · obtain ⟨outer, hscopes⟩ := FullName.scopesWithin_eq_cons hlen hparent
      rw [hscopes]
      exact isNamespace_addScopes

theorem Orderly.registerNamespace {t : Table} (ht : t.Orderly) (fqn : Bytes) (span : Span) :
    (t.registerNamespace fqn span).1.Orderly ∧ t.Retains (t.registerNamespace fqn span).1 := by
  constructor
  · unfold Table.registerNamespace
    split
    · exact ht
    · exact ht.addScopes span (Nat.le_refl _)
  · intro id e he
    refine ⟨e, ?_, .refl e⟩
    unfold get? at he ⊢
    rw [(registerNamespace_spec t fqn span).1]
    exact he

end Table

/-! ## Histories -/

/-- A step in the making of a table. -/
inductive Registration where
  | explicit (e : Entity)
  | implicit (fqn : Bytes) (h : Hints)
  /-- A reference to `name` in namespace `ns`, registered where it leads nowhere. -/
  | reference (name ns : Bytes) (h : Hints)
  | package (fqn : Bytes) (span : Span)

def Registration.apply (t : Table) : Registration → Table
  | explicit e => (t.registerExplicit e).1
  | implicit fqn h => (t.registerImplicit fqn h).1
  | reference name ns h => (t.resolveOrRegister name ns h).1
  | package fqn span => (t.registerNamespace fqn span).1

namespace Table

def registerAll (t : Table) (rs : List Registration) : Table := rs.foldl Registration.apply t

theorem Orderly.apply {t : Table} (ht : t.Orderly) (r : Registration) :
    (r.apply t).Orderly ∧ t.Retains (r.apply t) := by
  cases r with
  | explicit e => exact ht.registerExplicit e
  | implicit fqn h => exact ht.registerImplicit fqn h
  | reference name ns h => exact ht.registerImplicit _ h
  | package fqn span => exact ht.registerNamespace fqn span

theorem Orderly.registerAll {t : Table} (ht : t.Orderly) (rs : List Registration) :
    (t.registerAll rs).Orderly ∧ t.Retains (t.registerAll rs) := by
  induction rs generalizing t with
  | nil => exact ⟨ht, .refl t⟩
  | cons r rs ih =>
    obtain ⟨hnext, hretains⟩ := ht.apply r
    obtain ⟨hlast, hretains'⟩ := ih hnext
    exact ⟨hlast, hretains.trans hretains'⟩

theorem filed_empty : Filed {} := ⟨by simp [Numbered], fun fqn id => by cases id <;> simp [get?]⟩

theorem orderly_empty : Orderly {} where
  filed := filed_empty
  distinct := List.nodup_nil
  listed := by simp [isNamespace]
  parents := by simp [ParentsFirst]

/-- After any registrations, the list of the entities and the index of their names are in step, and so
are the index of the namespaces and their list; a declaration takes over the implicit entity of its
name, and further registrations keep all that is there. -/
theorem registerAll_orderly (rs later : List Registration) :
    let t := registerAll {} rs
    t.IsIndexed ∧ t.IsRooted ∧ (∀ e, t.Promotes e) ∧ t.Retains (registerAll {} (rs ++ later)) := by
  have ht := (orderly_empty.registerAll rs).1
  refine ⟨ht.isIndexed, ht.isRooted, ht.promotes, ?_⟩
  rw [registerAll, registerAll, List.foldl_append]
  exact (ht.registerAll later).2

end Table
end Uml
