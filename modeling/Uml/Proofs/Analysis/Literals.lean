import Mathlib
import Uml.Proofs.Analysis.Inferred
import Uml.Proofs.Lexer.Quick
import Uml.Proofs.Parser.Forest
import Uml.Proofs.Parser.Literals
import Uml.Proofs.Typing.Links

/-!
# Which entities have literals

Literals are written in the body of an enumeration or come with an enumerated type. A type that creates
its entity makes it an enumeration; one that finds an implicit entity adds its literals to it, whatever
that entity was taken for before. Nothing else gives literals to an entity.
-/
namespace Uml

open Std.Do

set_option mvcgen.warning false

/-- Literals stand in an enumeration only. -/
def Entity.KeepsLiterals (e : Entity) : Prop :=
  ∀ m ∈ e.members, m.kind = .literal → e.kind = .enumeration

/-- An entity of this kind can take the members that the statement lists. -/
def Statement.Suits (kind : EntityKind) : Statement → Prop
  | .decl _ (.entity e) => kind ≠ .enumeration → Member.NoLiterals e.members
  | .decl _ (.association a) => kind ≠ .enumeration → Member.NoLiterals a.members
  | _ => True

/-! ## Tables -/

/-- An entity is as it was but for its modifiers and its literals. -/
structure Entity.Retains (old e : Entity) : Prop where
  fqn : e.fqn = old.fqn
  kind : e.kind = old.kind
  isImplicit : e.isImplicit = old.isImplicit

theorem Entity.Retains.refl (e : Entity) : e.Retains e := ⟨rfl, rfl, rfl⟩

theorem Entity.Retains.trans {a b c : Entity} (h : a.Retains b) (h' : b.Retains c) : a.Retains c :=
  ⟨h'.fqn.trans h.fqn, h'.kind.trans h.kind, h'.isImplicit.trans h.isImplicit⟩

theorem Entity.mem_addLiterals {e : Entity} {literals : List Bytes} {span : Span} {m : EntityMember}
    (h : m ∈ (e.addLiterals literals span).members) : m ∈ e.members ∨ m.name ∈ literals := by
  unfold addLiterals at h
  induction literals generalizing e with
  | nil => exact .inl h
  | cons literal rest ih =>
    rw [List.foldl_cons] at h
    rcases ih h with h | h
    · split at h
      · exact .inl h
      · rcases List.mem_append.1 h with h | h
        · exact .inl h
        · exact .inr (by simp [List.mem_singleton.1 h])
    · exact .inr (List.mem_cons_of_mem literal h)

theorem Entity.addLiterals_retains (e : Entity) (literals : List Bytes) (span : Span) :
    e.Retains (e.addLiterals literals span) := by
  obtain ⟨members, h⟩ := e.addLiterals_eq literals span
  rw [h]
  exact ⟨rfl, rfl, rfl⟩

namespace Table

variable {t : Table} {fqn : Bytes} {h : Hints} {e : Entity}

theorem mem_replace {new : Entity} (he : e ∈ (t.replace new).entities) : e = new ∨ e ∈ t.entities := by
  obtain ⟨e', he', rfl⟩ := List.mem_map.1 he
  split
  · exact .inl rfl
  · exact .inr he'

/-- Where an entity behind an implicit registration comes from: it stood there, with all members that
are not named after a literal of the hints, or it is new and only has such literals. -/
theorem mem_registerImplicit (he : e ∈ (t.registerImplicit fqn h).1.entities) :
    (∃ old ∈ t.entities, old.Retains e
      ∧ ∀ m ∈ e.members, m ∈ old.members
        ∨ m.name ∈ h.literals ∧ t.lookup? fqn = some old ∧ old.isImplicit = true)
    ∨ t.lookup? fqn = none ∧ e.fqn = fqn ∧ e.kind = h.kind?.getD .cls
      ∧ ∀ m ∈ e.members, m.name ∈ h.literals := by
  have hstays (h' : e ∈ t.entities) : ∃ old ∈ t.entities, old.Retains e ∧ ∀ m ∈ e.members, m ∈ old.members
      ∨ m.name ∈ h.literals ∧ t.lookup? fqn = some old ∧ old.isImplicit = true :=
    ⟨e, h', .refl e, fun _ hm => .inl hm⟩
  unfold registerImplicit at he
  cases hold : t.lookup? fqn with
  | none =>
    simp only [hold] at he
    rcases List.mem_append.1 he with he | he
    · exact .inl (hold ▸ hstays he)
    · rw [List.mem_singleton] at he
      subst he
      refine .inr ⟨rfl, Entity.addLiterals_fqn .., (Entity.addLiterals_retains ..).kind, fun m hm => ?_⟩
      exact (Entity.mem_addLiterals hm).resolve_left List.not_mem_nil
  | some old =>
    have hmem := mem_of_lookup? hold
    simp only [hold] at he
    split at he
    · rename_i himplicit
      rcases mem_replace he with rfl | he
      · have hretains := Entity.addLiterals_retains { old with modifiers := old.modifiers.union h.modifiers }
          h.literals h.span
        refine .inl ⟨old, hmem, ⟨hretains.fqn, hretains.kind, hretains.isImplicit⟩, fun m hm => ?_⟩
        exact (Entity.mem_addLiterals hm).imp_right fun hm =>
          ⟨hm, rfl, himplicit⟩
      · exact .inl (hold ▸ hstays he)
    · exact .inl (hold ▸ hstays he)


theorem Filed.registerImplicit_fqn (ht : t.Filed) (fqn : Bytes) (h : Hints) :
    (t.registerImplicit fqn h).2.fqn = fqn := by
  unfold Table.registerImplicit
  cases hold : t.lookup? fqn with
  | none => exact Entity.addLiterals_fqn ..
  | some old =>
    have hfqn := ht.fqn_of_lookup? hold
    dsimp only
    split
    · exact (Entity.addLiterals_fqn ..).trans hfqn
    · exact hfqn

/-- The numbers are right, and literals stand in enumerations only. -/
structure KeepsLiterals (t : Table) : Prop where
  numbered : t.Numbered
  literals : ∀ e ∈ t.entities, e.KeepsLiterals

/-- Numbers go on standing for entities of the same kind. -/
def KeepsKinds (t t' : Table) : Prop :=
  ∀ id e, t.get? id = some e → ∃ e', t'.get? id = some e' ∧ e'.kind = e.kind

theorem KeepsKinds.refl (t : Table) : t.KeepsKinds t := fun _ e h => ⟨e, h, rfl⟩

theorem KeepsKinds.trans {a b c : Table} (h : a.KeepsKinds b) (h' : b.KeepsKinds c) : a.KeepsKinds c := by
  intro id e he
  obtain ⟨e₁, he₁, hkind⟩ := h id e he
  obtain ⟨e₂, he₂, hkind'⟩ := h' id e₁ he₁
  exact ⟨e₂, he₂, hkind'.trans hkind⟩

theorem Numbered.keepsKinds_replace {t : Table} (ht : t.Numbered) (old : Entity) {e : Entity}
    (hold : t.get? e.id = some old) (hkind : e.kind = old.kind) : t.KeepsKinds (t.replace e) := by
  intro id e' he'
  rw [ht.get?_replace]
  split
  · rename_i hid
    subst hid
    cases hold.symm.trans he'
    exact ⟨e, by rw [hold]; rfl, hkind⟩
  · exact ⟨e', he', rfl⟩

theorem keepsKinds_append (t : Table) (e : Entity) : t.KeepsKinds (t.append e).1 := by
  intro id e' he'
  refine ⟨e', ?_, rfl⟩
  rw [get?_append, if_neg]
  · exact he'
  · rintro rfl
    simp [get?, size] at he'

/-- An implicit registration without literals. -/
theorem KeepsLiterals.registerImplicit {t : Table} (ht : t.KeepsLiterals) (fqn : Bytes) {h : Hints}
    (hnone : h.literals = []) :
    (t.registerImplicit fqn h).1.KeepsLiterals ∧ t.KeepsKinds (t.registerImplicit fqn h).1 := by
  refine ⟨⟨(ht.numbered.registerImplicit fqn h).1, fun e he => ?_⟩, ?_⟩
  · rcases mem_registerImplicit he with ⟨old, hold, hretains, hmembers⟩ | ⟨-, -, -, hmembers⟩
    · intro m hm hliteral
      rw [hretains.kind]
      refine ht.literals old hold m ((hmembers m hm).resolve_right fun hnew => ?_) hliteral
      rw [hnone] at hnew
      exact List.not_mem_nil hnew.1
    · intro m hm
      have hnew := hmembers m hm
      rw [hnone] at hnew
      exact absurd hnew List.not_mem_nil
  · unfold Table.registerImplicit
    cases hold : t.lookup? fqn with
    | none => exact keepsKinds_append t _
    | some old =>
      dsimp only
      split
      · refine ht.numbered.keepsKinds_replace old ?_ (Entity.addLiterals_retains ..).kind
        rw [Entity.addLiterals_id]
        exact ht.numbered.get?_of_mem (mem_of_lookup? hold)
      · exact .refl t

end Table

/-! ## Before inference -/

namespace Session

/-- Every entity that a visited statement made can take the members of that statement. -/
def Files (vs : List (Bytes × Statement)) (s : Session) : Prop :=
  ∀ q ∈ s.declared, ∃ e, s.table.get? q.2 = some e ∧ ∀ v ∈ vs, v.2.id = q.1 → v.2.Suits e.kind

/-- An entity can take a member: a literal if it is an enumeration. -/
def Admits (s : Session) (id : Nat) (m : Member) : Prop :=
  m.kind = .literal → ∃ e, s.table.get? id = some e ∧ e.kind = .enumeration

/-- Literals stay where they belong, and neither kinds nor declarations change. -/
structure Settled (s s' : Session) : Prop where
  literals : s'.table.KeepsLiterals
  kinds : s.table.KeepsKinds s'.table
  declared : s'.declared = s.declared

/-- How a step changes a session in which literals are where they belong. -/
def Settles (s s' : Session) : Prop := s.table.KeepsLiterals → s.Settled s'

@[grind .] theorem Settles.refl (s : Session) : s.Settles s := fun h => ⟨h, .refl _, rfl⟩

@[grind →] theorem Settles.trans {a b c : Session} (h : a.Settles b) (h' : b.Settles c) : a.Settles c := by
  intro ha
  obtain ⟨hb, hkinds, hdeclared⟩ := h ha
  obtain ⟨hc, hkinds', hdeclared'⟩ := h' hb
  exact ⟨hc, hkinds.trans hkinds', hdeclared'.trans hdeclared⟩

@[grind →] theorem Agrees.settles {s s' : Session} (h : s.Agrees s') : s.Settles s' :=
  fun hs => ⟨h.table ▸ hs, h.table ▸ .refl _, h.declared⟩

theorem Settled.admits {s s' : Session} (h : s.Settled s') {id : Nat} {m : Member} (hm : s.Admits id m) :
    s'.Admits id m := by
  intro hliteral
  obtain ⟨e, he, hkind⟩ := hm hliteral
  obtain ⟨e', he', hkind'⟩ := h.kinds id e he
  exact ⟨e', he', hkind'.trans hkind⟩

theorem Settled.files {s s' : Session} (h : s.Settled s') {vs : List (Bytes × Statement)}
    (hs : s.Files vs) : s'.Files vs := by
  intro q hq
  rw [h.declared] at hq
  obtain ⟨e, he, hsuits⟩ := hs q hq
  obtain ⟨e', he', hkind⟩ := h.kinds q.2 e he
  exact ⟨e', he', hkind ▸ hsuits⟩

theorem admits_of_noLiterals {s : Session} {ms : List Member} (h : Member.NoLiterals ms) (id : Nat) :
    ∀ m ∈ ms, s.Admits id m :=
  fun m hm hliteral => absurd hliteral (h m hm)

end Session

namespace Analyze

open Session

theorem resolveEnd_registers (name ns : Bytes) (h : Hints) (span : Span) (s : Session) :
    ((resolveEnd name ns h span).run s).2.table = s.table
      ∨ ∃ fqn, ∃ h' : Hints, h'.literals = h.literals ∧ h'.kind? = h.kind?
        ∧ ((resolveEnd name ns h span).run s).2.table = (s.table.registerImplicit fqn h').1
        ∧ (s.table.Filed → ((resolveEnd name ns h span).run s).1.fqn = fqn) := by
  have hget : (get : Analyze Session).run s = (s, s) := rfl
  obtain ⟨findings, hwarn⟩ := warnAmbiguous_run name (s.table.resolve name ns) span s
  unfold resolveEnd
  simp only [run_bind, hget, hwarn]
  cases (if (s.table.resolve name ns).isFound then none else s.package? name ns) with
  | some fqn => exact .inl rfl
  | none =>
    exact .inr ⟨(s.table.resolve name ns).fqn, if h.span = {} then { h with span } else h,
      by split <;> rfl, by split <;> rfl, rfl, fun hs => hs.registerImplicit_fqn ..⟩

@[local spec high] theorem resolveEnd_settles {h : Hints} (hnone : h.literals = []) (name ns : Bytes)
    (span : Span) (s : Session) :
    ⦃fun st => ⌜st = s⌝⦄ resolveEnd name ns h span ⦃⇓ _ st => ⌜s.Settles st⌝⦄ := by
  refine triple_iff_run.2 fun hs => ?_
  obtain ⟨findings, hrun⟩ := resolveEnd_run name ns h span s
  have hdeclared : ((resolveEnd name ns h span).run s).2.declared = s.declared := by rw [hrun]
  obtain htable | ⟨fqn, h', hliterals, -, htable, -⟩ := resolveEnd_registers name ns h span s
  · exact ⟨htable ▸ hs, htable ▸ .refl _, hdeclared⟩
  · obtain ⟨hkeeps, hkinds⟩ := hs.registerImplicit _ (hliterals.trans hnone)
    exact ⟨htable ▸ hkeeps, htable ▸ hkinds, hdeclared⟩

/-! ### Members -/

theorem Settles.addMember {s s' : Session} (h : s.Agrees s') {id : Nat} {e : Entity} {m : Member}
    (he : s.table.get? id = some e) (hm : s.Admits id m) :
    s.Settles { s' with table := s'.table.replace { e with members := e.members ++ [.ofMember m] } } := by
  intro hs
  have hid := hs.numbered.get?_id he
  refine ⟨⟨(h.table ▸ hs.numbered.replace _), fun e' he' => ?_⟩, ?_, h.declared⟩
  · rcases Table.mem_replace he' with rfl | he'
    · intro m' hm' hliteral
      rcases List.mem_append.1 hm' with hm' | hm'
      · exact hs.literals e (Table.mem_of_get? he) m' hm' hliteral
      · cases List.mem_singleton.1 hm'
        obtain ⟨e', he', hkind⟩ := hm hliteral
        cases he.symm.trans he'
        exact hkind
    · exact hs.literals e' (h.table ▸ he')
  · rw [h.table]
    exact hs.numbered.keepsKinds_replace e (by simpa [hid] using he) rfl

@[local spec high] theorem addMember_settles (id : Nat) (m : Member) (s : Session) :
    ⦃fun st => ⌜st = s⌝⦄ addMember id m ⦃⇓ _ st => ⌜s.Admits id m → s.Settles st⌝⦄ := by
  unfold addMember
  mvcgen [seenKeys, reportDuplicate, error]
  case vc1 st hst _ _ _ _ _ _ _ st₁ =>
    exact fun h _ => hst ▸ Agrees.settles ⟨h.table, h.relationships, h.notes, h.declared⟩
  case vc2 st hst e he _ _ _ _ st₁ h₁ _ st₂ h₂ _ =>
    subst hst
    have h := h₁.trans h₂
    exact Settles.addMember (s := st) ⟨h.table, h.relationships, h.notes, h.declared⟩ he
  case vc3 st hst _ _ _ => exact fun _ => hst ▸ .refl _

@[local spec high] theorem addMembers_settles (id : Nat) (ms : List Member) (s : Session) :
    ⦃fun st => ⌜st = s⌝⦄ addMembers id ms ⦃⇓ _ st => ⌜(∀ m ∈ ms, s.Admits id m) → s.Settles st⌝⦄ := by
  unfold addMembers
  refine forM_spec (fun s st => (∀ m ∈ ms, s.Admits id m) → s.Settles st) (fun s _ => .refl s)
    (fun a b c hab hbc ha hs => ?_) (fun m hm s => ?_) s
  · exact ((hab ha).trans (hbc fun m hm => (hab ha hs).admits (ha m hm))) hs
  · mvcgen <;> grind

theorem defineStatement_settles {vs : List (Bytes × Statement)} {v : Bytes × Statement} (hv : v ∈ vs)
    (s : Session) :
    ⦃fun st => ⌜st = s⌝⦄ defineStatement v.2 ⦃⇓ _ st => ⌜s.Files vs → s.Settles st⌝⦄ := by
  have haddTo (tag : Tag) (ms : List Member)
      (hms : ∀ kind, v.2.Suits kind → kind ≠ .enumeration → Member.NoLiterals ms) (hid : v.2.id = tag.id) :
      ⦃fun st => ⌜st = s⌝⦄ defineStatement.addTo tag ms ⦃⇓ _ st => ⌜s.Files vs → s.Settles st⌝⦄ := by
    unfold defineStatement.addTo
    mvcgen
    case vc1 st hst e he _ st₁ =>
      subst hst
      intro hadd hfiles hs
      simp only [declaredEntity?, Option.bind_eq_some_iff] at he
      obtain ⟨number, hlookup, hget⟩ := he
      obtain ⟨before, after, hsplit, -⟩ := List.lookup_eq_some_iff.1 hlookup
      obtain ⟨e', he', hsuits⟩ := hfiles (tag.id, number) (by simp [hsplit])
      cases hget.symm.trans he'
      refine hadd (fun m hm hliteral => ⟨e, ?_, ?_⟩) hs
      · rwa [hs.numbered.get?_id hget]
      · by_contra hkind
        exact hms e.kind (hsuits v hv hid) hkind m hm hliteral
    case vc2 st hst _ => exact fun _ => hst ▸ .refl _
  obtain ⟨ns, statement⟩ := v
  cases statement with
  | package => exact triple_iff_run.2 fun _ => .refl _
  | decl tag d =>
    cases d with
    | entity e => exact haddTo tag e.members (fun _ h => h) rfl
    | association a => exact haddTo tag a.members (fun _ h => h) rfl
    | _ => exact triple_iff_run.2 fun _ => .refl _

theorem define_settles (p : Program) (s : Session) :
    ⦃fun st => ⌜st = s⌝⦄ define p ⦃⇓ _ st => ⌜s.Files p.visits → s.Settles st⌝⦄ := by
  unfold define
  refine forM_spec (fun s st => s.Files p.visits → s.Settles st) (fun s _ => .refl s)
    (fun a b c hab hbc ha hs => ?_) (fun v hv s => ?_) s
  · exact ((hab ha).trans (hbc ((hab ha hs).files ha))) hs
  · exact defineStatement_settles hv s

/-! ### References -/

theorem Settles.of_eq {s s' : Session} (htable : s'.table = s.table) (hdeclared : s'.declared = s.declared) :
    s.Settles s' :=
  fun hs => ⟨htable ▸ hs, htable ▸ .refl _, hdeclared⟩

@[local spec high] theorem addRelationship_settles (r : Relationship) (s : Session) :
    ⦃fun st => ⌜st = s⌝⦄ addRelationship r ⦃⇓ _ st => ⌜s.Settles st⌝⦄ := by
  unfold addRelationship
  mvcgen [error]
  case vc1 st hst _ st₁ h => exact hst ▸ h.settles
  case vc2 st hst _ => exact hst ▸ Settles.of_eq rfl rfl

@[local spec high] theorem link_settles (source target : End) (l : Link) (origin : Origin) (s : Session) :
    ⦃fun st => ⌜st = s⌝⦄ link source target l origin ⦃⇓ _ st => ⌜s.Settles st⌝⦄ := by
  unfold link
  refine triple_intro fun Q hQ => ?_
  mvcgen [error] <;> grind

theorem literals_targetHints (op : Kind) (source : Option Entity) (target : Endpoint) :
    (targetHints op source target).literals = [] :=
  rfl

@[local spec high] theorem resolveHeaders_settles (ns : Bytes) (source : Entity) (headers : List Link)
    (s : Session) :
    ⦃fun st => ⌜st = s⌝⦄ resolveHeaders ns source headers ⦃⇓ _ st => ⌜s.Settles st⌝⦄ := by
  unfold resolveHeaders
  refine forM_spec Session.Settles .refl (fun _ _ _ => .trans) (fun l _ s => ?_) s
  refine triple_intro fun Q hQ => ?_
  mvcgen <;> grind [literals_targetHints]

theorem resolveLinks_settles (ns : Bytes) (source : End) {links : List Link} (h : Link.NoLiterals links)
    (s : Session) :
    ⦃fun st => ⌜st = s⌝⦄ resolveLinks ns source links ⦃⇓ _ st => ⌜s.Settles st⌝⦄ := by
  induction links generalizing source s with
  | nil =>
    unfold resolveLinks
    mvcgen
    grind
  | cons l rest ih =>
    obtain ⟨hl, hrest⟩ := List.forall_mem_cons.1 h
    have hadmits := fun s id => admits_of_noLiterals (s := s) hl id
    have ih := fun source => ih source hrest
    unfold resolveLinks
    refine triple_intro fun Q hQ => ?_
    mvcgen [ih, -resolveLinks_spec] <;> grind [literals_targetHints]

theorem resolveChain_settles (ns : Bytes) (head : Endpoint) {links : List Link} (h : Link.NoLiterals links)
    (s : Session) :
    ⦃fun st => ⌜st = s⌝⦄ resolveChain ns head links ⦃⇓ _ st => ⌜s.Settles st⌝⦄ := by
  have hlinks := fun source => resolveLinks_settles ns source h
  unfold resolveChain
  refine triple_intro fun Q hQ => ?_
  mvcgen [hlinks, -resolveLinks_spec] <;> grind

theorem resolveAssociation_settles (ns : Bytes) (tag : Tag) (a : AssociationDecl) (s : Session) :
    ⦃fun st => ⌜st = s⌝⦄ resolveAssociation ns tag a ⦃⇓ _ st => ⌜s.Settles st⌝⦄ := by
  unfold resolveAssociation
  refine triple_intro fun Q hQ => ?_
  mvcgen [error] <;> grind

theorem resolveConstraint_settles (ns : Bytes) (span : Span) (c : ConstraintDecl) (s : Session) :
    ⦃fun st => ⌜st = s⌝⦄ resolveConstraint ns span c ⦃⇓ _ st => ⌜s.Settles st⌝⦄ := by
  have htargets := mapM_spec Session.Agrees (fun _ _ => True) .refl (fun _ _ _ => .trans)
    (by simp) (f := constraintTarget ns c.kind) (l := c.targets) fun r _ s =>
      triple_iff_run.2 ⟨triple_iff_run.1 (constraintTarget_spec ns c.kind r s), trivial⟩
  unfold resolveConstraint
  refine triple_intro fun Q hQ => ?_
  mvcgen [htargets] <;> grind

theorem resolveNote_settles (ns : Bytes) (span : Span) (text : Bytes) (anchors : List Anchor)
    (s : Session) :
    ⦃fun st => ⌜st = s⌝⦄ resolveNote ns span text anchors ⦃⇓ _ st => ⌜s.Settles st⌝⦄ := by
  have hanchors := mapM_spec Session.Agrees (fun _ _ => True) .refl (fun _ _ _ => .trans)
    (by simp) (f := noteAnchor? ns) (l := anchors) fun a _ s =>
      triple_iff_run.2 ⟨(triple_iff_run.1 (noteAnchor?_spec ns a s)).1, trivial⟩
  unfold resolveNote
  mvcgen [hanchors]
  rename_i st hst found st₁ h _
  exact hst ▸ Settles.of_eq h.1.table h.1.declared

theorem resolveStatement_settles (ns : Bytes) {statement : Statement}
    (h : ∀ tag d, statement = .decl tag d → d.KeepsLiterals) (s : Session) :
    ⦃fun st => ⌜st = s⌝⦄ resolveStatement ns statement ⦃⇓ _ st => ⌜s.Settles st⌝⦄ := by
  cases statement with
  | package => exact triple_iff_run.2 (.refl _)
  | decl tag d =>
    have hd := h tag d rfl
    cases d with
    | entity e =>
      unfold resolveStatement
      refine triple_intro fun Q hQ => ?_
      mvcgen <;> grind
    | relationship head links => exact resolveChain_settles ns head hd s
    | association a => exact resolveAssociation_settles ns tag a s
    | constraint c => exact resolveConstraint_settles ns tag.span c s
    | note text anchors => exact resolveNote_settles ns tag.span text anchors s
    | config entries =>
      exact forM_spec Session.Settles .refl (fun _ _ _ => .trans) (f := collectEntry)
        (fun e _ s => triple_iff_run.2 (triple_iff_run.1 (collectEntry_spec e s)).settles) s
    | comment => exact triple_iff_run.2 (.refl _)

theorem resolve_settles {p : Program} (h : ∀ v ∈ p.visits, ∀ tag d, v.2 = .decl tag d → d.KeepsLiterals)
    (s : Session) :
    ⦃fun st => ⌜st = s⌝⦄ resolve p ⦃⇓ _ st => ⌜s.Settles st⌝⦄ :=
  forM_spec Session.Settles .refl (fun _ _ _ => .trans)
    (fun v hv => resolveStatement_settles v.1 (h v hv)) s

/-! ### Declarations -/

end Analyze

/-- What the discovery keeps: every entity is declared, and none has members yet. -/
structure Session.IsBare (vs : List (Bytes × Statement)) (s : Session) : Prop where
  numbered : s.table.Numbered
  bare : ∀ e ∈ s.table.entities, e.isImplicit = false ∧ e.members = []
  files : s.Files vs

theorem Session.IsBare.keepsLiterals {vs : List (Bytes × Statement)} {s : Session} (h : s.IsBare vs) :
    s.table.KeepsLiterals :=
  ⟨h.numbered, fun e he m hm => by simp [(h.bare e he).2] at hm⟩

theorem Session.IsBare.of_eq {vs : List (Bytes × Statement)} {s s' : Session} (hs : s.IsBare vs)
    (hentities : s'.table.entities = s.table.entities) (hdeclared : s'.declared = s.declared) :
    s'.IsBare vs := by
  have hget : s'.table.get? = s.table.get? := by
    funext id
    cases id <;> simp [Table.get?, hentities]
  refine ⟨?_, hentities ▸ hs.bare, ?_⟩
  · unfold Table.Numbered
    rw [hentities]
    exact hs.numbered
  · unfold Session.Files
    rw [hget, hdeclared]
    exact hs.files

/-- Where every entity is declared, a declaration is refused or appended. -/
theorem Table.registerExplicit_cases {t : Table} (h : ∀ e ∈ t.entities, e.isImplicit = false) (e : Entity) :
    (t.registerExplicit e).1 = t ∧ (t.registerExplicit e).2.2 = .duplicate
      ∨ ∃ e', e'.kind = e.kind ∧ e'.members = e.members ∧ e'.isImplicit = false
        ∧ (t.registerExplicit e).1 = (t.append e').1 ∧ (t.registerExplicit e).2.1.id = t.size + 1
        ∧ (t.registerExplicit e).2.2 ≠ .duplicate := by
  unfold Table.registerExplicit
  generalize hnamed : (if e.name.isEmpty then
    { e with ns := (FullName.split e.fqn).1, name := (FullName.split e.fqn).2 } else e) = named
  have hkind : named.kind = e.kind ∧ named.members = e.members := by
    subst hnamed
    split <;> exact ⟨rfl, rfl⟩
  cases hold : t.lookup? named.fqn with
  | none =>
    simp only [hold]
    exact .inr ⟨{ named with isImplicit := false }, hkind.1, hkind.2, rfl, rfl, rfl, by simp⟩
  | some old =>
    simp only [hold, h old (Table.mem_of_lookup? hold)]
    exact .inl ⟨rfl, rfl⟩

theorem Session.IsBare.declare {vs : List (Bytes × Statement)} {s : Session} (hs : s.IsBare vs) {id : Nat} {e e' : Entity}
    (hkind : e'.kind = e.kind) (hbare : e'.members = []) (himplicit : e'.isImplicit = false)
    (hsuits : ∀ v ∈ vs, v.2.id = id → v.2.Suits e.kind) {s' : Session}
    (htable : s'.table = (s.table.append e').1)
    (hdeclared : s'.declared = s.declared ++ [(id, s.table.size + 1)]) : s'.IsBare vs := by
  refine ⟨htable ▸ hs.numbered.append e', fun x hx => ?_, fun q hq => ?_⟩
  · rw [htable] at hx
    rcases List.mem_append.1 hx with hx | hx
    · exact hs.bare x hx
    · exact List.mem_singleton.1 hx ▸ ⟨himplicit, hbare⟩
  · rw [hdeclared] at hq
    rw [htable]
    rcases List.mem_append.1 hq with hq | hq
    · obtain ⟨x, hx, hfits⟩ := hs.files q hq
      obtain ⟨x', hx', hkind'⟩ := Table.keepsKinds_append s.table e' q.2 x hx
      exact ⟨x', hx', hkind' ▸ hfits⟩
    · cases List.mem_singleton.1 hq
      refine ⟨(s.table.append e').2, by simp [Table.get?_append], fun v hv hid => ?_⟩
      exact hkind ▸ hsuits v hv hid

namespace Analyze

open Session

variable {vs : List (Bytes × Statement)}

theorem declare_isBare (id : Nat) {e : Entity} (hbare : e.members = [])
    (hsuits : ∀ v ∈ vs, v.2.id = id → v.2.Suits e.kind) (nameSpan : Span) (s : Session) :
    ⦃fun st => ⌜st = s⌝⦄ declare id e nameSpan ⦃⇓ _ st => ⌜s.IsBare vs → st.IsBare vs⌝⦄ := by
  unfold declare
  mvcgen [error]
  case vc1 st hst _ _ _ st₁ => exact fun h hs => (hst ▸ hs).of_eq (congrArg _ h.table) h.declared
  case vc2 st hst _ made hdup _ st₁ =>
    intro h hs
    subst hst
    obtain ⟨htable, -⟩ | ⟨_, -, -, -, -, -, hnew⟩ :=
      Table.registerExplicit_cases (fun e he => (hs.bare e he).1) e
    · exact hs.of_eq (congrArg _ (h.table.trans htable)) h.declared
    · exact absurd hdup hnew
  case vc3 st hst _ made hnew _ =>
    intro hs
    subst hst
    obtain ⟨-, hdup⟩ | ⟨e', hkind, hmembers, himplicit, htable, hid, -⟩ :=
      Table.registerExplicit_cases (fun e he => (hs.bare e he).1) e
    · exact absurd hdup hnew
    · refine hs.declare hkind (hmembers.trans hbare) himplicit hsuits htable ?_
      rw [← hid]

theorem declareStatement_isBare {v : Bytes × Statement}
    (hlaw : ∀ tag d, v.2 = .decl tag d → d.KeepsLiterals)
    (hsame : ∀ w ∈ vs, w.2.id = v.2.id → w.2 = v.2) (s : Session) :
    ⦃fun st => ⌜st = s⌝⦄ declareStatement v.1 v.2 ⦃⇓ _ st => ⌜s.IsBare vs → st.IsBare vs⌝⦄ := by
  obtain ⟨ns, statement⟩ := v
  have hsuits {kind : EntityKind} (hkind : statement.Suits kind) :
      ∀ w ∈ vs, w.2.id = statement.id → w.2.Suits kind :=
    fun w hw hid => (hsame w hw hid).symm ▸ hkind
  cases statement with
  | package => exact triple_iff_run.2 id
  | decl tag d =>
    cases d with
    | entity e =>
      have hdeclare (made : Entity) (hbare : made.members = []) (hkind : e.kind = made.kind) :=
        declare_isBare tag.id hbare (hkind ▸ hsuits (hlaw tag (.entity e) rfl))
      unfold declareStatement
      refine triple_intro fun Q hQ => ?_
      mvcgen [error, hdeclare, -declare_spec]
      case inv1 => exact ⇓_ st => ⌜s.IsBare vs → st.IsBare vs⌝
      case vc1 h _ _ h' => exact fun hs => (h hs).of_eq (congrArg _ h'.table) h'.declared
      case vc2 _ _ hst => exact hst ▸ id
      case vc3 h _ st₂ => exact fun h' => hQ _ _ fun hs => h' (h hs)
      all_goals grind
    | association a =>
      have hdeclare (made : Entity) (hbare : made.members = []) :=
        declare_isBare tag.id hbare (hsuits fun _ => hlaw tag (.association a) rfl)
      unfold declareStatement
      mvcgen [hdeclare, -declare_spec]
      case vc2 => exact fun _ _ => trivial
      case vc3 st hst => exact hst ▸ id
    | _ => exact triple_iff_run.2 id

theorem discover_isBare {p : Program}
    (hlaw : ∀ v ∈ p.visits, ∀ tag d, v.2 = .decl tag d → d.KeepsLiterals)
    (hsame : ∀ v ∈ p.visits, ∀ w ∈ p.visits, w.2.id = v.2.id → w.2 = v.2) :
    ((discover p).run {}).2.IsBare p.visits := by
  have hempty : ({} : Session).IsBare p.visits :=
    ⟨fun i e h => by simp at h, List.forall_mem_nil _, List.forall_mem_nil _⟩
  have hpackages := forM_spec (fun s st : Session => s.IsBare p.visits → st.IsBare p.visits) (fun _ => id)
    (fun _ _ _ h h' hs => h' (h hs)) (f := fun v => registerPackage v.1 v.2) (l := p.visits)
    fun v _ s => triple_iff_run.2 fun hs => by
      have hopens := (triple_iff_run.1 (registerPackage_spec v.1 v.2 s)).1
      exact hs.of_eq hopens.entities hopens.declared
  have hdeclare := forM_spec (fun s st : Session => s.IsBare p.visits → st.IsBare p.visits) (fun _ => id)
    (fun _ _ _ h h' hs => h' (h hs)) (f := fun v => declareStatement v.1 v.2) (l := p.visits)
    fun v hv => declareStatement_isBare (hlaw v hv) (hsame v hv)
  exact triple_iff_run.1 (hdeclare _) (triple_iff_run.1 (hpackages {}) hempty)

end Analyze

theorem Program.resolved_keepsLiterals {p : Program}
    (hlaw : ∀ v ∈ p.visits, ∀ tag d, v.2 = .decl tag d → d.KeepsLiterals)
    (hsame : ∀ v ∈ p.visits, ∀ w ∈ p.visits, w.2.id = v.2.id → w.2 = v.2) :
    p.resolved.table.KeepsLiterals := by
  have hbare := Analyze.discover_isBare hlaw hsame
  have hdefine := triple_iff_run.1 (Analyze.define_settles p _) hbare.files hbare.keepsLiterals
  exact (triple_iff_run.1 (Analyze.resolve_settles hlaw _) hdefine.literals).literals

/-! ## Inference -/

/-- Links with literals register an enumeration and do nothing else. -/
def TypeMeaning.IsEnumerating (m : TypeMeaning) : Prop :=
  ∀ l ∈ m.links, l.hints.literals ≠ [] → l.registerOnly = true ∧ l.hints.kind? = some .enumeration

namespace TypeMeaning

theorem IsEnumerating.map {m : TypeMeaning} (h : m.IsEnumerating) {f : TypeLink → TypeLink}
    (hf : ∀ l, (f l).hints = l.hints ∧ (f l).registerOnly = l.registerOnly) :
    { m with links := m.links.map f }.IsEnumerating := by
  intro l hl
  obtain ⟨l', hl', rfl⟩ := List.mem_map.1 hl
  rw [(hf l').1, (hf l').2]
  exact h l' hl'

theorem isKept_isEnumerating : IsKept IsEnumerating where
  value := List.forall_mem_nil _
  plain _ _ := List.forall_mem_singleton.2 fun h => absurd rfl h
  enumerated _ _ _ _ := List.forall_mem_singleton.2 fun _ => ⟨rfl, rfl⟩
  alternatives ms hms := by
    unfold Strategy.alternatives
    split
    · exact List.forall_mem_nil _
    · intro l hl
      obtain ⟨m, hm, hl⟩ := List.mem_flatMap.1 hl
      exact hms m hm l hl
  collect m kind h mult _ := by
    unfold TypeMeaning.collect
    split
    · exact h
    · refine h.map fun l => ?_
      split <;> exact ⟨rfl, rfl⟩
  dependOn m label h := by
    unfold TypeScript.dependOn
    split
    · exact h
    · refine h.map fun l => ?_
      split <;> exact ⟨rfl, rfl⟩

end TypeMeaning

namespace Site

/-- A link with literals finds an implicit entity and adds its literals to that. -/
structure Extends (x : Site) (t : Table) (e : Entity) (m : EntityMember) : Prop where
  reference : x.isReference = true
  target : (x.resolution t).1.fqn = e.fqn
  literal : m.name ∈ x.link.hints.literals
  implied : ∃ old, t.lookup? e.fqn = some old ∧ old.isImplicit = true ∧ old.kind = e.kind

/-- The link registers an enumeration if it has literals. -/
def IsEnumerating (x : Site) : Prop :=
  x.link.hints.literals ≠ [] → x.link.registerOnly = true ∧ x.link.hints.kind? = some .enumeration

theorem literal_next {t : Table} (ht : t.Filed) {x : Site} (hx : x.IsEnumerating) {e : Entity}
    (he : e ∈ (x.next t).entities) {m : EntityMember} (hm : m ∈ e.members) (hkind : e.kind ≠ .enumeration) :
    (∃ old ∈ t.entities, old.Retains e ∧ m ∈ old.members)
      ∨ e.isImplicit = true ∧ x.Extends t e m := by
  have hstays (he : e ∈ t.entities) : ∃ old ∈ t.entities, old.Retains e ∧ m ∈ old.members :=
    ⟨e, he, .refl e, hm⟩
  unfold Site.next at he
  split at he
  swap
  · exact .inl (hstays he)
  rename_i hreference
  obtain htable | ⟨fqn, h, hliterals, hhint, htable, hfqn⟩ :=
    Analyze.resolveEnd_registers x.link.target x.ns x.hints x.member.span { table := t }
  · have htable : (x.resolution t).2 = t := htable
    exact .inl (hstays (htable ▸ he))
  have hxliterals : x.hints.literals = x.link.hints.literals := by
    unfold Site.hints
    split <;> rfl
  rw [hxliterals] at hliterals
  have he : e ∈ (t.registerImplicit fqn h).1.entities := htable ▸ he
  obtain ⟨old, hold, hretains, hmembers⟩ | ⟨-, -, hnew, hmembers⟩ := Table.mem_registerImplicit he
  · obtain hm | ⟨hname, hlookup, himplicit⟩ := hmembers m hm
    · exact .inl ⟨old, hold, hretains, hm⟩
    · have hname' : e.fqn = fqn := hretains.fqn.trans (ht.fqn_of_lookup? hlookup)
      exact .inr ⟨hretains.isImplicit.trans himplicit, hreference, (hfqn ht).trans hname'.symm,
        hliterals ▸ hname, old, hname' ▸ hlookup, himplicit, hretains.kind.symm⟩
  · -- What has literals and is new is an enumeration.
    have hname := hmembers m hm
    rw [hliterals] at hname
    obtain ⟨hregister, henum⟩ := hx (List.ne_nil_of_mem hname)
    have hxhint : x.hints.kind? = x.link.hints.kind? := by
      unfold Site.hints
      rw [hregister, if_neg (by simp)]
    rw [hhint, hxhint, henum] at hnew
    exact absurd hnew hkind

theorem filed_next {t : Table} (ht : t.Filed) (x : Site) : (x.next t).Filed := by
  have hresolve : (x.resolution t).2 = t ∨ ∃ fqn h, (x.resolution t).2 = (t.registerImplicit fqn h).1 :=
    Analyze.resolveEnd_table _ _ _ _ { table := t }
  unfold Site.next
  split
  · obtain htable | ⟨fqn, h, htable⟩ := hresolve
    · rw [htable]
      exact ht
    · rw [htable]
      exact ht.registerImplicit fqn h
  · exact ht

theorem literal_tableAfter {t : Table} (ht : t.Filed) {xs : List Site} (hxs : ∀ x ∈ xs, x.IsEnumerating) {e : Entity}
    (he : e ∈ (tableAfter t xs).entities) {m : EntityMember} (hm : m ∈ e.members)
    (hkind : e.kind ≠ .enumeration) :
    (∃ old ∈ t.entities, old.Retains e ∧ m ∈ old.members)
      ∨ e.isImplicit = true ∧ ∃ turn ∈ turns t xs, turn.2.Extends turn.1 e m := by
  induction xs generalizing t with
  | nil => exact .inl ⟨e, he, .refl e, hm⟩
  | cons x xs ih =>
    obtain ⟨hx, hxs⟩ := List.forall_mem_cons.1 hxs
    obtain ⟨old, hold, hretains, hm⟩ | ⟨himplicit, turn, hturn, hextends⟩ := ih (filed_next ht x) hxs he
    · obtain ⟨older, holder, hretains', hm⟩ | ⟨himplicit, hextends⟩ :=
        literal_next ht hx hold hm (hretains.kind ▸ hkind)
      · exact .inl ⟨older, holder, hretains'.trans hretains, hm⟩
      · refine .inr ⟨hretains.isImplicit.trans himplicit, (t, x), List.mem_cons_self, ?_⟩
        obtain ⟨hreference, htarget, hliteral, himplied⟩ := hextends
        refine ⟨hreference, htarget.trans hretains.fqn.symm, hliteral, ?_⟩
        rw [hretains.fqn, hretains.kind]
        exact himplied
    · exact .inr ⟨himplicit, turn, List.mem_cons_of_mem _ hturn, hextends⟩

end Site

/-! ## Whole files -/

theorem Catalog.parse_literals {name : Bytes} {r : Registry} (h : registry name = .ok r) (file : File)
    (ts : List Token) (maxErrors : Nat) :
    Decl.literalLaw.All ((parse r.grammar file ts maxErrors).reports maxErrors)
      (parse r.grammar file ts maxErrors).program.statements := by
  rcases grammar_of_registry h with hg | hg | hg <;> rw [hg]
  · exact all_of_parse {} Parse.lawful_literals file ts maxErrors
  · exact all_of_parse TypeScript.grammar Parse.lawful_literals file ts maxErrors
  · exact all_of_parse Java.grammar Parse.lawful_literals file ts maxErrors

theorem Catalog.parse_forest {name : Bytes} {r : Registry} (h : registry name = .ok r) (file : File)
    (hsize : file.content.size < 2 ^ 32) (maxErrors : Nat) :
    ∃ a, (parse r.grammar file (Lexer.tokenize file r.matchers).tokens maxErrors).program.IsForest a := by
  have hready : ParseState.Ready
      { stream := .ofTokens (Lexer.tokenize file r.matchers).tokens, file, maxErrors } :=
    ⟨Stream.closed_sound _, Lexer.tokenize_named (matchers_fit h) hsize⟩
  have hbuilds : Parse.Builds {} (Parse.document r.grammar) fun p => .ofStatements p.statements := by
    rcases grammar_of_registry h with hg | hg | hg <;> rw [hg] <;> exact Parse.document_builds
  obtain ⟨-, hsound, -, hstands⟩ := hbuilds _ _ hready Arena.isSound_empty (.refl _) .nothing
  exact ⟨_, Program.isForest hsound hstands⟩

/-- Behind the resolution of a document in which only enumerations have literals, every literal stands in
an enumeration. -/
theorem Program.IsForest.resolved_keepsLiterals {p : Program} {a : Arena} (h : p.IsForest a) {r : Reports}
    (hlaw : Decl.literalLaw.All r p.statements) : p.resolved.table.KeepsLiterals := by
  have hvisits := h.isWalkedOnce.visits
  have hmem {v : Bytes × Statement} (hv : v ∈ p.visits) : v.2 ∈ Statement.flattenAll p.statements :=
    hvisits ▸ List.mem_map_of_mem hv
  refine Program.resolved_keepsLiterals (fun v hv tag d heq => ?_) fun v hv w hw hid => ?_
  · exact hlaw tag d (heq ▸ hmem hv)
  · exact List.inj_on_of_nodup_map h.statements_once (hmem hw) (hmem hv) hid

theorem analyze_sites {name : Bytes} {r : Registry} (h : Catalog.registry name = .ok r) (p : Program) :
    (analyze r.typing p).table.sites r.typing = p.resolved.table.sites r.typing
      ∧ (analyze r.typing p).table
        = Site.tableAfter p.resolved.table (p.resolved.table.sites r.typing) := by
  have hnumbered := p.resolved_sound.table.numbered
  have hinfer := Analyze.infer_infers (Catalog.typing_isProper h) hnumbered
  have hvalidate := Analyze.validate_agrees ((Analyze.infer r.typing).run p.resolved).2
  have htable := hvalidate.table.trans hinfer.table
  rw [← analyze_resolved] at htable
  refine ⟨?_, htable⟩
  rw [htable]
  exact (Table.tableAfter_extends hnumbered _).2.sites r.typing

/-- Inference is the only pass that can give literals to what is no enumeration. -/
theorem Table.KeepsLiterals.analyze {p : Program} (hp : p.resolved.table.KeepsLiterals) {name : Bytes}
    {r : Registry} (h : Catalog.registry name = .ok r) :
    ∀ e ∈ (analyze r.typing p).table.entities, ∀ m ∈ e.members, m.kind = .literal →
      e.kind = .enumeration ∨ e.isImplicit = true
        ∧ ∃ turn ∈ Site.turns p.resolved.table ((Uml.analyze r.typing p).table.sites r.typing),
            turn.2.Extends turn.1 e m := by
  obtain ⟨hsites, htable⟩ := analyze_sites h p
  have henumerating : ∀ x ∈ p.resolved.table.sites r.typing, x.IsEnumerating := by
    intro x hx
    obtain ⟨e, -, hx⟩ := List.mem_flatMap.1 hx
    obtain ⟨m, -, hx⟩ := List.mem_flatMap.1 hx
    obtain ⟨t, -, hx⟩ := List.mem_flatMap.1 hx
    obtain ⟨l, hl, rfl⟩ := List.mem_map.1 hx
    exact Catalog.typing_keeps h TypeMeaning.isKept_isEnumerating e.typeParams t l hl
  intro e he m hm hliteral
  rw [htable] at he
  rw [hsites]
  by_contra hnone
  rw [not_or] at hnone
  obtain ⟨old, hold, hretains, hm⟩ | hextended := Site.literal_tableAfter p.resolved_sound.table.filed henumerating he hm hnone.1
  · exact hnone.1 (hretains.kind.trans (hp.literals old hold m hm hliteral))
  · exact hnone.2 hextended

/-- An entity with a literal is an enumeration, or a type with that literal found it as an implicit
entity of another kind. -/
theorem analyze_literals {name : Bytes} {r : Registry} (h : Catalog.registry name = .ok r) (file : File)
    (hsize : file.content.size < 2 ^ 32) (maxErrors : Nat) :
    let p := (parse r.grammar file (Lexer.tokenize file r.matchers).tokens maxErrors).program
    let s := analyze r.typing p
    ∀ e ∈ s.table.entities, ∀ m ∈ e.members, m.kind = .literal →
      e.kind = .enumeration ∨ e.isImplicit = true
        ∧ ∃ turn ∈ Site.turns p.resolved.table (s.table.sites r.typing), turn.2.Extends turn.1 e m := by
  obtain ⟨a, hforest⟩ := Catalog.parse_forest h file hsize maxErrors
  exact (hforest.resolved_keepsLiterals (Catalog.parse_literals h file _ maxErrors)).analyze h

/-- A class and an enumeration, both implied, that one type each gives literals to. -/
theorem analyze_literals_status :
    let file := File.ofBytes 1 [] (Bytes.ofString
      "class A \x7b x: Status, y: Status(On|Off), z: Size(S|M) \x7d").toArray 0
    let p := (parse {} file (Lexer.tokenize file []).tokens 0).program
    let s := analyze {} p
    Catalog.registry "" = .ok {} ∧ file.content.size < 2 ^ 32
      ∧ (s.table.entities.filter fun e => e.members.any (·.kind = .literal)).map (·.kind)
        = [.cls, .enumeration]
      ∧ ∀ e ∈ s.table.entities, ∀ m ∈ e.members, m.kind = .literal →
        e.kind = .enumeration ∨ e.isImplicit = true
          ∧ ∃ turn ∈ Site.turns p.resolved.table (s.table.sites {}), turn.2.Extends turn.1 e m := by
  have hplain : Catalog.registry "" = .ok {} := rfl
  have hmatchers : ({} : Registry).matchers = [] := rfl
  have hgrammar : ({} : Registry).grammar = {} := rfl
  have htyping : ({} : Registry).typing = {} := rfl
  have hall := fun file hsize => analyze_literals hplain file hsize 0
  rw [hmatchers, hgrammar, htyping] at hall
  refine ⟨hplain, ?size, ?kinds, hall _ ?size⟩
  case size => decide +kernel
  case kinds =>
    simp only [Lexer.tokenize_eq_quick]
    decide +kernel

/-- The second attribute gives literals to the class that the first has implied. -/
theorem analyze_literals_class :
    let file := File.ofBytes 1 [] (Bytes.ofString "class A \x7b x: Status\n y: Status(A|B) \x7d").toArray 0
    let p := (parse {} file (Lexer.tokenize file []).tokens 0).program
    ∃ e ∈ (analyze {} p).table.entities, e.kind = .cls ∧ ∃ m ∈ e.members, m.kind = .literal := by
  simp only [Lexer.tokenize_eq_quick]
  decide +kernel


/-!
## Names of values and inference

What inference does to the table it does for single links of members. A type parameter of the owner changes
nothing, and a name of a value changes nothing unless the type writes it with the values of an enumeration.
-/

namespace Site

theorem mem_sites {typing : Typing} {t : Table} {x : Site} (h : x ∈ t.sites typing) :
    ∃ type ∈ Analyze.inferableTypes x.member, x.link ∈ (typing.meaning x.params type).links := by
  obtain ⟨e, -, hx⟩ := List.mem_flatMap.1 h
  obtain ⟨m, -, hx⟩ := List.mem_flatMap.1 hx
  obtain ⟨type, htype, hx⟩ := List.mem_flatMap.1 hx
  obtain ⟨l, hl, rfl⟩ := List.mem_map.1 hx
  exact ⟨type, htype, hl⟩

theorem next_of_params {x : Site} (h : x.params.contains x.link.target = true) (t : Table) : x.next t = t := by
  rw [next, isReference, h]
  rfl

/-- The name is written with values in a type of the member. -/
def IsEnumerated (x : Site) : Prop := ∃ type ∈ Analyze.inferableTypes x.member, type.Enumerates x.link.target

theorem isEnumerated_of_isPrimitive {name : Bytes} {r : Registry} (h : Catalog.registry name = .ok r) {t : Table}
    {x : Site} (hx : x ∈ t.sites r.typing) (hvalue : r.typing.isPrimitive x.link.target = true) :
    x.link.registerOnly = true ∧ x.IsEnumerated := by
  obtain ⟨type, htype, hlink⟩ := mem_sites hx
  have hname := Catalog.typing_names h x.params type x.link hlink
  split at hname
  · next hregister => exact ⟨hregister, type, htype, hname⟩
  · simp only [TypeScope.isValue, hvalue, Bool.true_or, Bool.true_eq_false] at hname

end Site

/-- Inference changes the table link by link. A link that changes it names no type parameter of its owner, and
what it names is no value in the language, unless the member's type writes it with values. -/
theorem analyze_values {name : Bytes} {r : Registry} (h : Catalog.registry name = .ok r) (p : Program) :
    let s := analyze r.typing p
    let sites := s.table.sites r.typing
    s.table = Site.tableAfter p.resolved.table sites
      ∧ ∀ turn ∈ Site.turns p.resolved.table sites, turn.2.next turn.1 ≠ turn.1 →
        turn.2.params.contains turn.2.link.target = false
          ∧ (r.typing.isPrimitive turn.2.link.target = true → turn.2.link.registerOnly = true ∧ turn.2.IsEnumerated) := by
  intro s sites
  obtain ⟨hsites, htable⟩ := analyze_sites h p
  refine ⟨htable.trans (by rw [← hsites]), ?_⟩
  rintro ⟨t, x⟩ hturn hchange
  refine ⟨?_, Site.isEnumerated_of_isPrimitive h (Session.mem_of_mem_turns hturn)⟩
  by_contra hparam
  exact hchange (Site.next_of_params (by simpa using hparam) t)

/-- A type parameter and a value imply nothing, and a name with values its enumeration. -/
theorem analyze_values_parameter :
    let file := File.ofBytes 1 [] (Bytes.ofString "class A<T> \x7b x: T[], y: int, z: S(U|V) \x7d").toArray 0
    let p := (parse {} file (Lexer.tokenize file []).tokens 0).program
    let s := analyze {} p
    s.table.entities.map (·.fqn) = [Bytes.ofString "A", Bytes.ofString "S"]
      ∧ ∀ turn ∈ Site.turns p.resolved.table (s.table.sites {}), turn.2.next turn.1 ≠ turn.1 →
        turn.2.params.contains turn.2.link.target = false
          ∧ (({} : Typing).isPrimitive turn.2.link.target = true →
            turn.2.link.registerOnly = true ∧ turn.2.IsEnumerated) := by
  have hplain : Catalog.registry "" = .ok {} := rfl
  have htyping : ({} : Registry).typing = {} := rfl
  have hall := fun p => analyze_values hplain p
  rw [htyping] at hall
  refine ⟨?_, (hall _).2⟩
  simp only [Lexer.tokenize_eq_quick]
  decide +kernel

/-- A value that is written with values becomes an enumeration. -/
theorem analyze_values_enumerated :
    let file := File.ofBytes 1 [] (Bytes.ofString "class A \x7b x: String(A|B) \x7d").toArray 0
    let p := (parse {} file (Lexer.tokenize file []).tokens 0).program
    ({} : Typing).isPrimitive "String" = true
      ∧ ∃ e ∈ (analyze {} p).table.entities, e.isImplicit = true ∧ e.fqn = Bytes.ofString "String" := by
  simp only [Lexer.tokenize_eq_quick]
  decide +kernel

end Uml
