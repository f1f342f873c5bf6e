import Mathlib
import Uml.Analysis.Analyze
import Uml.Proofs.State
import Uml.Proofs.Symbol.Growth

/-!
# No reference dangles

Whatever a document says, the model that its analysis ends with is closed: every end of a
relationship, every association class and every anchor of a note is registered. Each step of a
pass keeps what is recorded true while the table grows.
-/
namespace Uml

open Std.Do

set_option mvcgen.warning false

namespace Table

/-- An entity or a namespace has this full name. -/
def Names (t : Table) (fqn : Bytes) : Prop := t.contains fqn ∨ t.isNamespace fqn

/-- Both ends of a relationship exist, a package only takes part in a dependency, and an association
class is declared. -/
structure Joins (t : Table) (r : Relationship) : Prop where
  target : r.toPackage = false → t.contains r.target
  package : r.toPackage → t.isNamespace r.target ∧ r.kind = .dependency
  source : t.contains r.source ∨ t.isNamespace r.source ∧ r.kind = .dependency
  associationClass : r.associationClass ≠ [] →
    ∃ e ∈ t.entities, e.fqn = r.associationClass ∧ e.isImplicit = false

end Table

/-- The model holds everything that it refers to. -/
structure Session.IsClosed (s : Session) : Prop where
  filed : s.table.Filed
  apart : ∀ fqn, ¬ (s.table.contains fqn ∧ s.table.isNamespace fqn)
  housed : ∀ e ∈ s.table.entities, e.isImplicit = false → e.ns = [] ∨ s.table.isNamespace e.ns
  relationships : ∀ r ∈ s.relationships, s.table.Joins r
  anchors : ∀ n ∈ s.notes, ∀ a ∈ n.anchors, s.table.Names a

/-- What every step of a pass keeps: the model is closed, and statement numbers lead to declared
entities. -/
structure Session.Sound (s : Session) : Prop where
  table : s.table.Sound
  relationships : ∀ r ∈ s.relationships, s.table.Joins r
  anchors : ∀ n ∈ s.notes, ∀ a ∈ n.anchors, s.table.Names a
  declared : ∀ p ∈ s.declared, ∃ e, s.table.get? p.2 = some e ∧ e.isImplicit = false

namespace Table

variable {t t' : Table}

theorem Grows.names (h : t.Grows t') {fqn : Bytes} (hn : t.Names fqn) : t'.Names fqn :=
  hn.imp (h.contains fqn) (h.namespaces fqn)

theorem Grows.declared (h : t.Grows t') {id : Nat}
    (hd : ∃ e, t.get? id = some e ∧ e.isImplicit = false) :
    ∃ e, t'.get? id = some e ∧ e.isImplicit = false := by
  obtain ⟨e, he, himp⟩ := hd
  obtain ⟨e', he', hb⟩ := h.entities id e he
  exact ⟨e', he', (hb.2 himp).1⟩

theorem Grows.joins (h : t.Grows t') (ht : t.Sound) {r : Relationship} (hr : t.Joins r) :
    t'.Joins r := by
  refine ⟨fun hp => h.contains _ (hr.target hp), fun hp => ?_, ?_, fun hne => ?_⟩
  · exact (hr.package hp).imp (h.namespaces _) id
  · exact hr.source.imp (h.contains _) fun hs => ⟨h.namespaces _ hs.1, hs.2⟩
  · obtain ⟨e, he, hfqn, himp⟩ := hr.associationClass hne
    obtain ⟨e', he', hb⟩ := h.entities _ e (ht.numbered.get?_of_mem he)
    exact ⟨e', mem_of_get? he', hb.1.trans hfqn, (hb.2 himp).1⟩

end Table

namespace Session

theorem Sound.isClosed {s : Session} (h : s.Sound) : s.IsClosed where
  filed := h.table.filed
  apart := fun fqn ⟨hc, hn⟩ => by
    obtain ⟨e, he, rfl⟩ := h.table.filed.contains_iff.1 hc
    exact h.table.apart e he hn
  housed := h.table.housed
  relationships := h.relationships
  anchors := h.anchors

theorem Sound.withTable {s : Session} (h : s.Sound) {t : Table} (ht : t.Sound)
    (hg : s.table.Grows t) : { s with table := t }.Sound where
  table := ht
  relationships := fun r hr => hg.joins h.table (h.relationships r hr)
  anchors := fun n hn a ha => hg.names (h.anchors n hn a ha)
  declared := fun p hp => hg.declared (h.declared p hp)

/-- How a step may change a session: what is sound stays so, and the table grows. -/
def Leads (s s' : Session) : Prop := s.Sound → s'.Sound ∧ s.table.Grows s'.table

@[grind .] theorem Leads.refl (s : Session) : s.Leads s := fun h => ⟨h, .refl _⟩

@[grind →] theorem Leads.trans {a b c : Session} (h : a.Leads b) (h' : b.Leads c) : a.Leads c := by
  intro ha
  obtain ⟨hb, hg⟩ := h ha
  obtain ⟨hc, hg'⟩ := h' hb
  exact ⟨hc, hg.trans hg'⟩

/-- Both sessions hold the same entities, relationships and notes; findings, members seen,
constraints and config may differ. -/
structure Agrees (s s' : Session) : Prop where
  table : s'.table = s.table
  relationships : s'.relationships = s.relationships
  notes : s'.notes = s.notes
  declared : s'.declared = s.declared

@[grind .] theorem Agrees.refl (s : Session) : s.Agrees s := ⟨rfl, rfl, rfl, rfl⟩

@[grind →] theorem Agrees.trans {a b c : Session} (h : a.Agrees b) (h' : b.Agrees c) : a.Agrees c :=
  ⟨h'.table.trans h.table, h'.relationships.trans h.relationships, h'.notes.trans h.notes,
    h'.declared.trans h.declared⟩

@[grind →] theorem Agrees.leads {s s' : Session} (h : s.Agrees s') : s.Leads s' := by
  intro hs
  refine ⟨⟨h.table ▸ hs.table, ?_, ?_, ?_⟩, h.table ▸ .refl _⟩
  · rw [h.relationships, h.table]
    exact hs.relationships
  · rw [h.notes, h.table]
    exact hs.anchors
  · rw [h.declared, h.table]
    exact hs.declared

end Session

def End.Known (t : Table) : End → Prop
  | .entity e => t.contains e.fqn
  | .package fqn => t.isNamespace fqn

theorem Table.Grows.known {t t' : Table} (h : t.Grows t') {e : End} (hk : e.Known t) :
    e.Known t' := by
  cases e with
  | entity e => exact h.contains _ hk
  | package fqn => exact h.namespaces fqn hk

namespace Analyze

@[spec] theorem report_spec (d : Diagnostic) (s : Session) :
    ⦃fun st => ⌜st = s⌝⦄ report d ⦃⇓ _ st => ⌜s.Agrees st⌝⦄ := by
  mvcgen [report]
  rename_i st hst _
  exact hst ▸ ⟨rfl, rfl, rfl, rfl⟩

@[spec] theorem warnAmbiguous_spec (name : Bytes) (r : Resolution) (span : Span) (s : Session) :
    ⦃fun st => ⌜st = s⌝⦄ warnAmbiguous name r span ⦃⇓ _ st => ⌜s.Agrees st⌝⦄ := by
  mvcgen [warnAmbiguous, warning]
  grind

@[spec] theorem readMult_spec (m : RawMult) (s : Session) :
    ⦃fun st => ⌜st = s⌝⦄ readMult m ⦃⇓ _ st => ⌜s.Agrees st⌝⦄ := by
  unfold readMult
  generalize Multiplicity.parse m.raw = parsed
  mvcgen [error] <;> grind

theorem package?_eq_none {s : Session} {name ns : Bytes} (h : s.package? name ns = none) :
    ¬ s.table.isNamespace (FullName.join ns name) := by
  have hall := List.find?_eq_none.1 h
  by_cases hns : ns = []
  · subst hns
    exact hall name (by simp)
  · refine hall _ (List.mem_append_left _ (List.mem_map_of_mem (FullName.mem_scopes_self hns)))

theorem package?_isNamespace {s : Session} {name ns fqn : Bytes}
    (h : s.package? name ns = some fqn) : s.table.isNamespace fqn :=
  List.find?_some h

theorem resolve_isNew {s : Session} (hs : s.Sound) {name ns : Bytes} (hname : name ≠ [])
    (h : (if (s.table.resolve name ns).isFound then none else s.package? name ns) = none) :
    s.table.contains (s.table.resolve name ns).fqn
      ∨ ¬ s.table.isNamespace (s.table.resolve name ns).fqn := by
  rcases hs.table.filed.resolve_cases hname ns with ⟨-, hc⟩ | ⟨hno, hfqn⟩
  · exact .inl hc
  · rw [hno, if_neg (by simp)] at h
    exact .inr (hfqn ▸ package?_eq_none h)

@[spec] theorem resolveEnd_spec {name : Bytes} (hname : name ≠ []) (ns : Bytes) (h : Hints)
    (span : Span) (s : Session) :
    ⦃fun st => ⌜st = s⌝⦄ resolveEnd name ns h span
    ⦃⇓ e st => ⌜s.Leads st ∧ (s.Sound → e.Known st.table)⌝⦄ := by
  mvcgen [resolveEnd]
  case vc1 st hst _ _ fqn hfqn st' hq =>
    subst hst
    refine ⟨hq.leads, fun _ => ?_⟩
    split at hfqn
    · contradiction
    · rw [hq.table]
      exact package?_isNamespace hfqn
  case vc2 st hst _ _ hnone h' st' hq _ =>
    subst hst
    have hreg := fun hs : st.Sound => hs.table.registerImplicit h' (resolve_isNew hs hname hnone)
    constructor
    · intro hs
      obtain ⟨ht, hg, -, -⟩ := hreg hs
      exact ⟨(hq.leads hs).1.withTable ht (by rw [hq.table]; exact hg), hg⟩
    · intro hs
      obtain ⟨ht, -, hget, -⟩ := hreg hs
      exact ht.filed.contains_of_get? hget

@[spec] theorem lookupReference_spec (name ns : Bytes) (span : Span) (s : Session) :
    ⦃fun st => ⌜st = s⌝⦄ lookupReference name ns span
    ⦃⇓ found st => ⌜s.Agrees st ∧ (s.table.Filed → ∀ e, found = some e → s.table.contains e.fqn)⌝⦄ := by
  mvcgen [lookupReference]
  case vc1 st hst _ _ _ st' hq =>
    subst hst
    refine ⟨hq, fun hs e he => ?_⟩
    rw [hq.table] at he
    exact hs.contains_of_mem (Table.mem_of_lookup? he)
  case vc2 st hst _ _ =>
    subst hst
    exact ⟨.refl _, by simp⟩

/-! ## Relationships -/

theorem Leads.push {s s' : Session} (h : s.Leads s') {r : Relationship}
    (hr : s.Sound → s'.table.Joins r) :
    s.Leads { s' with relationships := s'.relationships ++ [r] } := by
  intro hs
  obtain ⟨hs', hg⟩ := h hs
  refine ⟨⟨hs'.table, fun r' hr' => ?_, hs'.anchors, hs'.declared⟩, hg⟩
  rcases List.mem_append.1 hr' with hr' | hr'
  · exact hs'.relationships r' hr'
  · cases List.mem_singleton.1 hr'
    exact hr hs

/-- A relationship is taken only if its target is right; the rest is up to the caller. -/
@[spec] theorem addRelationship_spec (r : Relationship) (s : Session) :
    ⦃fun st => ⌜st = s⌝⦄ addRelationship r
    ⦃⇓ _ st => ⌜(s.Sound → (r.toPackage → r.kind = .dependency) → s.table.Joins r) → s.Leads st⌝⦄ := by
  mvcgen [addRelationship, error]
  case vc1 st hst _ st' hq =>
    subst hst
    exact fun _ => hq.leads
  case vc2 hkind st hst _ =>
    subst hst
    intro hr
    refine Leads.push (.refl _) fun hs => hr hs fun hp => ?_
    simpa [hp] using hkind

theorem joins_of_known {t : Table} {source target : End} {r : Relationship}
    (hs : source.Known t) (ht : target.Known t) (hsource : r.source = source.fqn)
    (htarget : r.target = target.fqn) (hpackage : r.toPackage = target.isPackage)
    (hfrom : source.isPackage → r.kind = .dependency) (hto : r.toPackage → r.kind = .dependency)
    (hclass : r.associationClass ≠ [] →
      ∃ e ∈ t.entities, e.fqn = r.associationClass ∧ e.isImplicit = false) : t.Joins r := by
  refine ⟨fun hp => ?_, fun hp => ⟨?_, hto hp⟩, ?_, hclass⟩
  · cases target with
    | entity e => exact htarget ▸ ht
    | package fqn => simp [hpackage, End.isPackage] at hp
  · cases target with
    | entity e => simp [hpackage, End.isPackage] at hp
    | package fqn => exact htarget ▸ ht
  · cases source with
    | entity e => exact .inl (hsource ▸ hs)
    | package fqn => exact .inr ⟨hsource ▸ hs, hfrom rfl⟩

@[spec] theorem link_spec (source target : End) (l : Link) (origin : Origin) (s : Session) :
    ⦃fun st => ⌜st = s⌝⦄ link source target l origin
    ⦃⇓ _ st => ⌜(s.Sound → source.Known s.table ∧ target.Known s.table) → s.Leads st⌝⦄ := by
  mvcgen [link, error]
  case vc1 st hst => exact fun _ => hst ▸ .refl _
  case vc2 st hst _ st' => exact fun hq _ => hst ▸ hq.leads
  case vc3 hfrom st hst m₁ st₁ hq₁ m₂ st₂ hq₂ _ st₃ =>
    subst hst
    intro hadd hknown hs
    obtain ⟨hsource, htarget⟩ := hknown hs
    have hq := hq₁.trans hq₂
    refine hq.leads.trans (hadd fun _ hto => ?_) hs
    rw [hq.table]
    refine joins_of_known hsource htarget rfl rfl rfl (fun hp => ?_) hto (absurd rfl)
    simpa [hp] using hfrom

section

variable {α β : Type} {P : Table → Prop}

theorem Leads.trans_of (hP : ∀ t t', t.Sound → t.Grows t' → P t → P t') {a b c : Session}
    (hab : (a.Sound → P a.table) → a.Leads b) (hbc : (b.Sound → P b.table) → b.Leads c)
    (hp : a.Sound → P a.table) : a.Leads c := by
  intro ha
  obtain ⟨-, hg⟩ := hab hp ha
  exact (hab hp).trans (hbc fun _ => hP _ _ ha.table hg (hp ha)) ha

theorem forM_leads (hP : ∀ t t', t.Sound → t.Grows t' → P t → P t') {f : α → Analyze PUnit}
    {l : List α} (h : ∀ a ∈ l, ∀ s, ⦃fun st => ⌜st = s⌝⦄ f a
      ⦃⇓ _ st => ⌜(s.Sound → P s.table) → s.Leads st⌝⦄) (s : Session) :
    ⦃fun st => ⌜st = s⌝⦄ l.forM f ⦃⇓ _ st => ⌜(s.Sound → P s.table) → s.Leads st⌝⦄ :=
  forM_spec (fun s st => (s.Sound → P s.table) → s.Leads st) (fun s _ => .refl s)
    (fun _ _ _ => Leads.trans_of hP) h s

theorem mapM_leads (hP : ∀ t t', t.Sound → t.Grows t' → P t → P t') {f : α → Analyze β}
    {l : List α} (h : ∀ a ∈ l, ∀ s, ⦃fun st => ⌜st = s⌝⦄ f a
      ⦃⇓ _ st => ⌜(s.Sound → P s.table) → s.Leads st⌝⦄) (s : Session) :
    ⦃fun st => ⌜st = s⌝⦄ l.mapM f ⦃⇓ _ st => ⌜(s.Sound → P s.table) → s.Leads st⌝⦄ := by
  have hmap := mapM_spec (fun s st => (s.Sound → P s.table) → s.Leads st) (fun _ _ => True)
    (fun s _ => .refl s) (fun _ _ _ => Leads.trans_of hP) (by simp) (f := f) (l := l)
    fun a ha s => triple_iff_run.2 ⟨triple_iff_run.1 (h a ha s), trivial⟩
  exact triple_iff_run.2 (triple_iff_run.1 (hmap s)).1

end

/-- Resolving a target and linking to it: the target is known from then on. -/
theorem Leads.follow {s s₁ s₂ : Session} {source target : End}
    (htarget : s.Leads s₁ ∧ (s.Sound → target.Known s₁.table))
    (hlink : (s₁.Sound → source.Known s₁.table ∧ target.Known s₁.table) → s₁.Leads s₂)
    (hsource : s.Sound → source.Known s.table) :
    s.Leads s₂ ∧ (s.Sound → target.Known s₂.table) := by
  have hmain : s.Sound → s₁.Sound ∧ s₂.Sound ∧ s.table.Grows s₂.table ∧ target.Known s₂.table := by
    intro hs
    obtain ⟨hs₁, hg₁⟩ := htarget.1 hs
    have hknown := htarget.2 hs
    obtain ⟨hs₂, hg₂⟩ := hlink (fun _ => ⟨hg₁.known (hsource hs), hknown⟩) hs₁
    exact ⟨hs₁, hs₂, hg₁.trans hg₂, hg₂.known hknown⟩
  exact ⟨fun hs => ⟨(hmain hs).2.1, (hmain hs).2.2.1⟩, fun hs => (hmain hs).2.2.2⟩

@[spec] theorem resolveHeaders_spec (ns : Bytes) (source : Entity) (headers : List Link)
    (s : Session) :
    ⦃fun st => ⌜st = s⌝⦄ resolveHeaders ns source headers
    ⦃⇓ _ st => ⌜(s.Sound → s.table.contains source.fqn) → s.Leads st⌝⦄ := by
  unfold resolveHeaders
  refine forM_leads (fun _ _ _ hg => hg.contains _) (fun h _ s => ?_) s
  mvcgen
  case vc1 hname _ _ _ => simpa using hname
  case vc2 _ _ st hst target st₁ hend _ st₂ =>
    subst hst
    exact fun hlink hsource => (Leads.follow hend hlink hsource).1
  case vc3 _ st hst => exact fun _ => hst ▸ .refl _

@[spec] theorem readMults_spec (params : List Param) (s : Session) :
    ⦃fun st => ⌜st = s⌝⦄ params.forM (fun p => discard (readMult p.mult)) ⦃⇓ _ st => ⌜s.Agrees st⌝⦄ := by
  refine forM_spec Session.Agrees .refl (fun _ _ _ => .trans) (fun p _ s => ?_) s
  mvcgen

theorem Leads.addMember {s s' : Session} (h : s.Agrees s') {id : Nat} {e : Entity}
    (he : s.table.get? id = some e) (member : EntityMember) :
    s.Leads { s' with table := s'.table.replace { e with members := e.members ++ [member] } } := by
  intro hs
  obtain ⟨hs', -⟩ := h.leads hs
  have hid := hs.table.numbered.get?_id he
  have hold : s.table.get? { e with members := e.members ++ [member] }.id = some e := by
    simpa [hid] using he
  obtain ⟨ht, hg⟩ := hs.table.replace hold rfl (fun himp => ⟨himp, rfl⟩)
    (hs.table.housed e (Table.mem_of_get? he))
  rw [← h.table] at ht hg
  exact ⟨hs'.withTable ht hg, h.table ▸ hg⟩

@[spec] theorem addMember_spec (id : Nat) (m : Member) (s : Session) :
    ⦃fun st => ⌜st = s⌝⦄ addMember id m ⦃⇓ _ st => ⌜s.Leads st⌝⦄ := by
  mvcgen [addMember, seenKeys, reportDuplicate, error]
  case vc1 st hst _ _ _ _ _ _ _ st₁ =>
    intro hq
    exact hst ▸ Session.Agrees.leads ⟨hq.table, hq.relationships, hq.notes, hq.declared⟩
  case vc2 st hst e he _ _ _ _ st₁ hq _ st₂ hq₂ _ =>
    subst hst
    have hq' := hq.trans hq₂
    exact Leads.addMember (s := st) ⟨hq'.table, hq'.relationships, hq'.notes, hq'.declared⟩ he _
  case vc3 st hst _ _ _ => exact hst ▸ .refl _

theorem forM_leads' {α : Type} {f : α → Analyze PUnit} {l : List α}
    (h : ∀ a ∈ l, ∀ s, ⦃fun st => ⌜st = s⌝⦄ f a ⦃⇓ _ st => ⌜s.Leads st⌝⦄) (s : Session) :
    ⦃fun st => ⌜st = s⌝⦄ l.forM f ⦃⇓ _ st => ⌜s.Leads st⌝⦄ :=
  forM_spec Session.Leads .refl (fun _ _ _ => .trans) h s

@[spec] theorem addMembers_spec (id : Nat) (ms : List Member) (s : Session) :
    ⦃fun st => ⌜st = s⌝⦄ addMembers id ms ⦃⇓ _ st => ⌜s.Leads st⌝⦄ := by
  unfold addMembers
  refine forM_leads' (fun m _ s => ?_) s
  mvcgen
  grind

@[spec] theorem resolveLinks_spec (ns : Bytes) (source : End) (links : List Link) (s : Session) :
    ⦃fun st => ⌜st = s⌝⦄ resolveLinks ns source links
    ⦃⇓ _ st => ⌜(s.Sound → source.Known s.table) → s.Leads st⌝⦄ := by
  induction links generalizing source s with
  | nil =>
    mvcgen [resolveLinks]
    grind
  | cons l rest ih =>
    mvcgen [resolveLinks, ih]
    case vc1 hname _ _ _ => simpa using hname
    case vc2 st hst target st₁ htarget _ _ e _ st₂ hlink _ st₃ hmembers _ st₄ =>
      subst hst
      intro hrest hsource
      obtain ⟨h₂, hknown⟩ := Leads.follow htarget hlink hsource
      have h₃ := h₂.trans hmembers
      intro hs
      have htarget' := (hmembers (h₂ hs).1).2.known (hknown hs)
      exact h₃.trans (hrest fun _ => htarget') hs
    case vc3 st hst target st₁ htarget _ _ _ _ _ st₂ hlink _ st₃ =>
      subst hst
      intro hrest hsource
      obtain ⟨h₂, hknown⟩ := Leads.follow htarget hlink hsource
      exact fun hs => h₂.trans (hrest fun _ => hknown hs) hs
    case vc4 _ st hst => exact fun _ => hst ▸ .refl _

@[spec] theorem resolveChain_spec (ns : Bytes) (head : Endpoint) (links : List Link) (s : Session) :
    ⦃fun st => ⌜st = s⌝⦄ resolveChain ns head links ⦃⇓ _ st => ⌜s.Leads st⌝⦄ := by
  mvcgen [resolveChain]
  case vc1 hname _ _ => simpa using hname
  case vc2 _ st hst source st₁ hsource _ st₂ =>
    subst hst
    exact fun hlinks hs => hsource.1.trans (hlinks fun _ => hsource.2 hs) hs
  case vc3 _ st hst => exact hst ▸ .refl _

theorem declaredEntity?_mem {s : Session} (hs : s.Sound) {id : Nat} {e : Entity}
    (h : s.declaredEntity? id = some e) : e ∈ s.table.entities ∧ e.isImplicit = false := by
  simp only [Session.declaredEntity?, Option.bind_eq_some_iff] at h
  obtain ⟨number, hlookup, hget⟩ := h
  obtain ⟨before, after, hsplit, -⟩ := List.lookup_eq_some_iff.1 hlookup
  obtain ⟨e', he', himp⟩ := hs.declared (id, number) (by simp [hsplit])
  cases hget.symm.trans he'
  exact ⟨Table.mem_of_get? hget, himp⟩

@[spec] theorem resolveAssociation_spec (ns : Bytes) (tag : Tag) (a : AssociationDecl)
    (s : Session) :
    ⦃fun st => ⌜st = s⌝⦄ resolveAssociation ns tag a ⦃⇓ _ st => ⌜s.Leads st⌝⦄ := by
  mvcgen [resolveAssociation, error]
  case vc1 st hst => exact hst ▸ .refl _
  case vc2 hnames _ _ => exact fun h => hnames (by simp [h])
  case vc3 hnames _ _ _ _ _ => exact fun h => hnames (by simp [h])
  case vc4 st hst _ st₁ h₁ _ _ st₂ h₂ _ st₃ h₃ => exact hst ▸ (h₁.1.trans h₂.1).trans h₃.leads
  case vc5 st hst _ st₁ h₁ _ _ _ st₂ h₂ _ st₃ h₃ => exact hst ▸ (h₁.1.trans h₂.1).trans h₃.leads
  case vc6 st hst left st₁ h₁ right hpackage _ st₂ h₂ cls _ st₃ h₃ _ st₄ h₄ _ st₅ =>
    subst hst
    intro hadd hs
    obtain ⟨hs₁, hg₁⟩ := h₁.1 hs
    obtain ⟨hs₂, hg₂⟩ := h₂.1 hs₁
    have hq := h₃.trans h₄
    refine ((h₁.1.trans h₂.1).trans hq.leads).trans (hadd fun _ hto => ?_) hs
    rw [hq.table]
    simp only [Bool.or_eq_true, not_or, Bool.not_eq_true] at hpackage
    refine joins_of_known (hg₂.known (h₁.2 hs)) (h₂.2 hs₁) rfl rfl hpackage.2.symm
      (by simp [hpackage.1]) hto fun hne => ?_
    cases hdecl : st₂.declaredEntity? tag.id with
    | none => simp [cls, hdecl] at hne
    | some e =>
      obtain ⟨hmem, himp⟩ := declaredEntity?_mem hs₂ hdecl
      exact ⟨e, hmem, by simp [cls, hdecl], himp⟩

/-! ## Constraints, notes and config -/

@[spec] theorem addConstraint_spec (c : Constraint) (s : Session) :
    ⦃fun st => ⌜st = s⌝⦄ addConstraint c ⦃⇓ _ st => ⌜s.Agrees st⌝⦄ := by
  mvcgen [addConstraint]
  rename_i st hst t
  subst hst
  show st.Agrees (if st.constraints.any c.agrees then st
    else { st with constraints := st.constraints ++ [c] })
  split
  · exact .refl _
  · exact ⟨rfl, rfl, rfl, rfl⟩

@[spec] theorem constraintTarget_spec (ns kind : Bytes) (r : ConstraintRef) (s : Session) :
    ⦃fun st => ⌜st = s⌝⦄ constraintTarget ns kind r ⦃⇓ _ st => ⌜s.Agrees st⌝⦄ := by
  mvcgen [constraintTarget, warning] <;> grind

@[spec] theorem resolveConstraint_spec (ns : Bytes) (span : Span) (c : ConstraintDecl)
    (s : Session) :
    ⦃fun st => ⌜st = s⌝⦄ resolveConstraint ns span c ⦃⇓ _ st => ⌜s.Leads st⌝⦄ := by
  have htargets := mapM_spec Session.Agrees (fun _ _ => True) .refl (fun _ _ _ => .trans)
    (by simp) (f := constraintTarget ns c.kind) (l := c.targets) fun r _ s => by
      mvcgen
      grind
  mvcgen [resolveConstraint, htargets] <;> grind

@[spec] theorem noteAnchor?_spec (ns : Bytes) (a : Anchor) (s : Session) :
    ⦃fun st => ⌜st = s⌝⦄ noteAnchor? ns a
    ⦃⇓ found st => ⌜s.Agrees st
        ∧ (st.table.Filed → ∀ fqn, found = some fqn → st.table.Names fqn)⌝⦄ := by
  mvcgen [noteAnchor?, warning]
  case vc1 st hst _ e _ st₁ h =>
    subst hst
    refine ⟨h.1, fun hfiled fqn hfqn => ?_⟩
    cases hfqn
    exact .inl (h.1.table ▸ h.2 (h.1.table ▸ hfiled) e rfl)
  case vc2 st hst _ _ _ _ st₁ h fqn hfqn =>
    subst hst
    refine ⟨h.1, fun _ fqn' hfqn' => ?_⟩
    cases hfqn'
    exact .inr (package?_isNamespace hfqn)
  case vc3 st hst _ _ _ _ st₁ h _ _ _ _ st₂ h₂ => exact ⟨hst ▸ h.1.trans h₂, by simp⟩

@[spec] theorem resolveNote_spec (ns : Bytes) (span : Span) (text : Bytes) (anchors : List Anchor)
    (s : Session) :
    ⦃fun st => ⌜st = s⌝⦄ resolveNote ns span text anchors ⦃⇓ _ st => ⌜s.Leads st⌝⦄ := by
  have hanchors := mapM_spec Session.Agrees
    (fun s found => s.table.Filed → ∀ fqn, found = some fqn → s.table.Names fqn) .refl
    (fun _ _ _ => .trans)
    (fun a b h x hx => h.table ▸ hx) (f := noteAnchor? ns) (l := anchors)
    fun a _ => noteAnchor?_spec ns a
  mvcgen [resolveNote, hanchors]
  rename_i st hst found st₁ h _
  subst hst
  intro hs
  obtain ⟨hs₁, hg⟩ := h.1.leads hs
  refine ⟨⟨hs₁.table, hs₁.relationships, fun n hn => ?_, hs₁.declared⟩, hg⟩
  rcases List.mem_append.1 hn with hn | hn
  · exact hs₁.anchors n hn
  · cases List.mem_singleton.1 hn
    intro a ha
    obtain ⟨x, hx, rfl⟩ : ∃ x ∈ found, x = some a := by simpa using ha
    exact h.2 _ hx hs₁.table.filed a rfl

@[spec] theorem collectEntry_spec (e : ConfigEntry) (s : Session) :
    ⦃fun st => ⌜st = s⌝⦄ collectEntry e ⦃⇓ _ st => ⌜s.Agrees st⌝⦄ := by
  mvcgen [collectEntry, warning]
  case vc1 st hst _ _ _ st₁ h _ =>
    exact hst ▸ ⟨h.table, h.relationships, h.notes, h.declared⟩
  case vc2 st hst _ _ => exact hst ▸ ⟨rfl, rfl, rfl, rfl⟩
  case vc3 st hst => exact hst ▸ .refl _

@[spec] theorem resolveStatement_spec (ns : Bytes) (statement : Statement) (s : Session) :
    ⦃fun st => ⌜st = s⌝⦄ resolveStatement ns statement ⦃⇓ _ st => ⌜s.Leads st⌝⦄ := by
  have hconfig := fun entries : List ConfigEntry =>
    forM_spec Session.Agrees .refl (fun _ _ _ => .trans) (f := collectEntry) (l := entries)
      fun e _ => collectEntry_spec e
  mvcgen [resolveStatement, hconfig]
  case vc1 st hst => exact hst ▸ .refl _
  case vc2 st hst source hsource _ st₁ =>
    subst hst
    exact fun h => h fun hs => hs.table.filed.contains_of_mem (declaredEntity?_mem hs hsource).1
  case vc3 st hst _ _ _ => exact hst ▸ .refl _
  case vc8 st hst _ st₁ => exact fun h => hst ▸ h.leads
  case vc9 st hst => exact hst ▸ .refl _

@[spec] theorem resolve_spec (p : Program) (s : Session) :
    ⦃fun st => ⌜st = s⌝⦄ resolve p ⦃⇓ _ st => ⌜s.Leads st⌝⦄ :=
  forM_spec Session.Leads .refl (fun _ _ _ => .trans)
    (fun (ns, statement) _ => resolveStatement_spec ns statement) s

end Analyze
end Uml
