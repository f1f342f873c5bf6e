import Mathlib
import Uml.Proofs.Analysis.Closed
import Uml.Proofs.Parser.Complete

/-!
# Written relationships

Every header, every link of a chain and every association class becomes one relationship, in the order
of the source. A step that would leave one out reports an error, so where none is reported nothing is
lost; and nothing else adds a relationship that counts as written.
-/
namespace Uml

open Std.Do

set_option mvcgen.warning false

/-! ## What a relationship has to say -/

/-- The multiplicity that a text stands for: none if there is no text. -/
def RawMult.Reads (m : RawMult) : Option Multiplicity → Prop
  | none => m.isPresent = false
  | some value => m.isPresent = true ∧ Multiplicity.parse m.raw = .ok value

theorem RawMult.reads_none {m : RawMult} (h : m.isPresent = false) : m.Reads none := h

theorem RawMult.reads_some {m : RawMult} {value : Multiplicity} (h : m.isPresent = true)
    (hparsed : Multiplicity.parse m.raw = .ok value) : m.Reads (some value) :=
  ⟨h, hparsed⟩

/-- A relationship says what a link says. -/
structure Link.Renders (origin : Origin) (l : Link) (r : Relationship) : Prop where
  operator : RelKind.ofOperator? l.op = some (r.kind, r.navigable)
  sourceMult : l.fromMult.Reads r.sourceMult
  targetMult : l.toMult.Reads r.targetMult
  label : r.label = l.label
  origin : r.origin = origin
  span : r.span = l.span

/-- A relationship says what an association class says; it has no place for a label. -/
structure AssociationDecl.Renders (ns : Bytes) (tag : Tag) (a : AssociationDecl) (r : Relationship) :
    Prop where
  operator : RelKind.ofOperator? a.op = some (r.kind, r.navigable)
  sourceMult : a.leftMult.Reads r.sourceMult
  targetMult : a.rightMult.Reads r.targetMult
  label : r.label = []
  associationClass : r.associationClass = FullName.join ns a.name
  origin : r.origin = .associationClass
  span : r.span = tag.span

/-- The relationships of a declaration in namespace `ns`: headers start at the entity, each link of a
chain where the one before it ends. -/
def Decl.Renders (ns : Bytes) (tag : Tag) : Decl → List Relationship → Prop
  | .entity e, rs =>
    List.Forall₂ (Link.Renders .header) e.headers rs ∧ ∀ r ∈ rs, r.source = FullName.join ns e.name
  | .relationship _ links, rs =>
    List.Forall₂ (Link.Renders .statement) links rs ∧ rs.IsChain fun r r' => r'.source = r.target
  | .association a, rs => ∃ r, rs = [r] ∧ a.Renders ns tag r
  | _, rs => rs = []

mutual
/-- The relationships of a statement, those of a package depth first. -/
def Statement.Renders (ns : Bytes) : Statement → List Relationship → Prop
  | .decl tag d, rs => d.Renders ns tag rs
  | .package _ name _ body, rs => Statement.RendersAll (FullName.join ns name) body rs

/-- The relationships of statements, one behind the other. -/
def Statement.RendersAll (ns : Bytes) : List Statement → List Relationship → Prop
  | [], rs => rs = []
  | s :: rest, rs =>
    ∃ front back, rs = front ++ back ∧ s.Renders ns front ∧ Statement.RendersAll ns rest back
end

theorem RelKind.ofOperator?_ne_none {k : Kind} (h : k.isRelationship = true) :
    ofOperator? k ≠ none := by
  cases k <;> simp_all [Kind.isRelationship, ofOperator?]

namespace Session

/-- The relationships that are written, in the order of their recording. -/
def written (s : Session) : List Relationship := s.relationships.filter (·.origin ≠ .member)

def IsClean (s : Session) : Prop := s.findings.toList.any (·.isError) = false

/-- A step takes no error back and leaves the declarations alone. -/
structure Carries (s s' : Session) : Prop where
  clean : s'.IsClean → s.IsClean
  declared : s'.declared = s.declared

/-- A step writes no relationship, either. -/
structure Keeps (s s' : Session) : Prop extends Carries s s' where
  written : s'.written = s.written

@[grind .] theorem Carries.refl (s : Session) : s.Carries s := ⟨id, rfl⟩

@[grind →] theorem Carries.trans {a b c : Session} (h : a.Carries b) (h' : b.Carries c) : a.Carries c :=
  ⟨fun hc => h.clean (h'.clean hc), h'.declared.trans h.declared⟩

@[grind .] theorem Keeps.refl (s : Session) : s.Keeps s := ⟨.refl s, rfl⟩

@[grind →] theorem Keeps.trans {a b c : Session} (h : a.Keeps b) (h' : b.Keeps c) : a.Keeps c :=
  ⟨h.toCarries.trans h'.toCarries, h'.written.trans h.written⟩

@[grind →] theorem Keeps.carries {a b : Session} (h : a.Keeps b) : a.Carries b := h.toCarries

end Session

/-- A declaration that is not refused answers the entity that it made, under its number. -/
theorem Table.Numbered.get?_registerExplicit {t : Table} (ht : t.Numbered) (e : Entity)
    (h : (t.registerExplicit e).2.2 ≠ .duplicate) :
    ∃ kept, (t.registerExplicit e).1.get? (t.registerExplicit e).2.1.id = some kept
      ∧ kept.fqn = e.fqn := by
  unfold Table.registerExplicit at h ⊢
  have hfqn : (if e.name.isEmpty then
      { e with ns := (FullName.split e.fqn).1, name := (FullName.split e.fqn).2 } else e).fqn = e.fqn := by
    split <;> rfl
  generalize (if e.name.isEmpty then
      { e with ns := (FullName.split e.fqn).1, name := (FullName.split e.fqn).2 } else e) = e' at h hfqn ⊢
  cases hold : t.lookup? e'.fqn with
  | none =>
    simp only [hold, get?_append] at h ⊢
    exact ⟨(t.append { e' with isImplicit := false }).2, by simp [Table.append], hfqn⟩
  | some old =>
    have hget := ht.get?_of_mem (mem_of_lookup? hold)
    simp only [hold] at h ⊢
    by_cases himp : old.isImplicit
    · simp only [himp, if_true, ht.get?_replace, hget]
      exact ⟨_, rfl, hfqn⟩
    · simp [himp] at h

namespace Analyze

open Session

theorem isClean_push {s : Session} {d : Diagnostic} :
    IsClean { s with findings := s.findings.push d } ↔ s.IsClean ∧ d.isError = false := by
  simp [IsClean]

@[local spec high] theorem report_keeps (d : Diagnostic) (s : Session) :
    ⦃fun st => ⌜st = s⌝⦄ report d
    ⦃⇓ _ st => ⌜s.Keeps st ∧ (d.isError = true → ¬ st.IsClean)⌝⦄ := by
  refine triple_iff_run.2 ⟨⟨⟨fun hclean => (isClean_push.1 hclean).1, rfl⟩, rfl⟩, fun herror hclean => ?_⟩
  exact absurd ((isClean_push.1 hclean).2.symm.trans herror) (by simp)

@[local spec high] theorem warnAmbiguous_keeps (name : Bytes) (r : Resolution) (span : Span) (s : Session) :
    ⦃fun st => ⌜st = s⌝⦄ warnAmbiguous name r span ⦃⇓ _ st => ⌜s.Keeps st⌝⦄ := by
  unfold warnAmbiguous
  mvcgen [warning] <;> grind

@[local spec high] theorem readMult_reads (m : RawMult) (s : Session) :
    ⦃fun st => ⌜st = s⌝⦄ readMult m
    ⦃⇓ value st => ⌜s.Keeps st ∧ (st.IsClean → m.Reads value)⌝⦄ := by
  rw [triple_iff_run]
  unfold readMult
  generalize hparsed : Multiplicity.parse m.raw = parsed
  by_cases habsent : (!m.isPresent) = true
  · rw [if_pos habsent]
    exact ⟨.refl _, fun _ => RawMult.reads_none (by simpa using habsent)⟩
  · rw [if_neg habsent]
    cases parsed with
    | ok value => exact ⟨.refl _, fun _ => RawMult.reads_some (by simpa using habsent) hparsed⟩
    | error e =>
      obtain ⟨hkeeps, hunclean⟩ := triple_iff_run.1 (report_keeps (.error
        (if e.isBounds then .multiplicityBounds else .multiplicityFormat) m.span e.message) s)
      exact ⟨hkeeps, fun hclean => absurd hclean (hunclean rfl)⟩

theorem resolveEnd_keeps (name ns : Bytes) (h : Hints) (span : Span) (s : Session) :
    ⦃fun st => ⌜st = s⌝⦄ resolveEnd name ns h span ⦃⇓ _ st => ⌜s.Keeps st⌝⦄ := by
  unfold resolveEnd
  mvcgen
  case vc1 st hst _ _ _ _ st₁ hkeeps => exact hst ▸ hkeeps
  case vc2 st hst _ _ _ st₁ hkeeps t => exact hst ▸ hkeeps.trans ⟨⟨id, rfl⟩, rfl⟩

@[local spec high] theorem resolveEnd_leads (name ns : Bytes) (h : Hints) (span : Span) (s : Session) :
    ⦃fun st => ⌜st = s⌝⦄ resolveEnd name ns h span
    ⦃⇓ _ st => ⌜s.Keeps st ∧ (name ≠ [] → s.Leads st)⌝⦄ :=
  triple_iff_run.2 ⟨triple_iff_run.1 (resolveEnd_keeps name ns h span s),
    fun hname => (triple_iff_run.1 (resolveEnd_spec hname ns h span s)).1⟩

@[local spec high] theorem lookupReference_keeps (name ns : Bytes) (span : Span) (s : Session) :
    ⦃fun st => ⌜st = s⌝⦄ lookupReference name ns span ⦃⇓ _ st => ⌜s.Keeps st⌝⦄ := by
  unfold lookupReference
  mvcgen <;> grind

/-! ## Recording -/

theorem written_push (s : Session) (r : Relationship) :
    written { s with relationships := s.relationships ++ [r] }
      = s.written ++ if r.origin = .member then [] else [r] := by
  by_cases h : r.origin = .member <;> simp [written, List.filter_append, h]

@[local spec high] theorem addRelationship_writes (r : Relationship) (s : Session) :
    ⦃fun st => ⌜st = s⌝⦄ addRelationship r
    ⦃⇓ _ st => ⌜s.Carries st ∧ (r.origin = .member → st.written = s.written)
      ∧ (r.origin ≠ .member → st.IsClean → st.written = s.written ++ [r])⌝⦄ := by
  unfold addRelationship
  mvcgen [error]
  case vc1 st hst _ st₁ hreport =>
    exact hst ▸ ⟨hreport.1.carries, fun _ => hreport.1.written,
      fun _ hclean => absurd hclean (hreport.2 rfl)⟩
  case vc2 st hst _ =>
    refine hst ▸ ⟨⟨id, rfl⟩, fun horigin => ?_, fun horigin _ => ?_⟩
    · exact (written_push st r).trans (by simp [horigin])
    · exact (written_push st r).trans (by simp [horigin])

/-- A link between two ends becomes one relationship, unless an error is reported. -/
@[local spec high] theorem link_writes (source target : End) (l : Link) (origin : Origin) (s : Session) :
    ⦃fun st => ⌜st = s⌝⦄ link source target l origin
    ⦃⇓ _ st => ⌜s.Carries st ∧ (l.op.isRelationship = true → origin ≠ .member → st.IsClean →
      ∃ r, st.written = s.written ++ [r] ∧ l.Renders origin r ∧ r.source = source.fqn
        ∧ r.target = target.fqn)⌝⦄ := by
  unfold link
  mvcgen [error]
  case vc1 hnone st hst =>
    exact hst ▸ ⟨.refl _, fun hrel => absurd hnone (RelKind.ofOperator?_ne_none hrel)⟩
  case vc2 st hst _ st₁ =>
    exact fun hkeeps hunclean =>
      hst ▸ ⟨hkeeps.carries, fun _ _ hclean => absurd hclean (hunclean rfl)⟩
  case vc3 kind navigable hop _ st hst sourceMult st₁ h₁ targetMult st₂ h₂ _ st₃ =>
    subst hst
    intro hcarries _ hwritten
    have hkeeps := h₁.1.trans h₂.1
    refine ⟨hkeeps.carries.trans hcarries, fun _ horigin hclean => ?_⟩
    have hclean₂ := hcarries.clean hclean
    refine ⟨_, (hwritten horigin hclean).trans (by rw [hkeeps.written]), ?_, rfl, rfl⟩
    exact ⟨hop, h₁.2 (h₂.1.clean hclean₂), h₂.2 hclean₂, rfl, rfl, rfl⟩

theorem resolveHeaders_writes (ns : Bytes) (source : Entity) {headers : List Link}
    (hcomplete : Link.AllComplete headers) (s : Session) :
    ⦃fun st => ⌜st = s⌝⦄ resolveHeaders ns source headers
    ⦃⇓ _ st => ⌜s.Carries st ∧ (st.IsClean → ∃ rs, st.written = s.written ++ rs
      ∧ List.Forall₂ (Link.Renders .header) headers rs ∧ ∀ r ∈ rs, r.source = source.fqn)⌝⦄ := by
  rw [triple_iff_run]
  induction headers generalizing s with
  | nil => exact ⟨.refl _, fun _ => ⟨[], (List.append_nil _).symm, .nil, List.forall_mem_nil _⟩⟩
  | cons h rest ih =>
    have hh : h.IsComplete := hcomplete h (by simp)
    have hhead : ⦃fun st => ⌜st = s⌝⦄ (do
        if !h.target.name.isEmpty then
          let hints := targetHints h.op (some source) h.target
          let target ← resolveEnd h.target.name ns hints h.target.span
          link (.entity source) target h .header)
        ⦃⇓ _ st => ⌜s.Carries st ∧ (st.IsClean → ∃ r, st.written = s.written ++ [r]
          ∧ h.Renders .header r ∧ r.source = source.fqn)⌝⦄ := by
      mvcgen
      case vc1 _ _ st hst target st₁ hkeeps _ st₂ =>
        subst hst
        intro hcarries hwritten
        refine ⟨hkeeps.1.carries.trans hcarries, fun hclean => ?_⟩
        obtain ⟨r, hr, hrenders, hsource, -⟩ := hwritten hh.op (by decide) hclean
        exact ⟨r, hr.trans (by rw [hkeeps.1.written]), hrenders, hsource⟩
      case vc2 hempty _ _ => exact absurd (by simpa using hempty) hh.target
    obtain ⟨hcarries, hwritten⟩ := triple_iff_run.1 hhead
    obtain ⟨hcarries', hwritten'⟩ := ih (fun l hl => hcomplete l (by simp [hl])) _
    refine ⟨hcarries.trans hcarries', fun hclean => ?_⟩
    obtain ⟨r, hr, hrenders, hsource⟩ := hwritten (hcarries'.clean hclean)
    obtain ⟨rs, hrs, hall, hsources⟩ := hwritten' hclean
    refine ⟨r :: rs, ?_, .cons hrenders hall, List.forall_mem_cons.2 ⟨hsource, hsources⟩⟩
    exact hrs.trans (by rw [hr, List.append_assoc]; rfl)

@[local spec high] theorem addMember_keeps (id : Nat) (m : Member) (s : Session) :
    ⦃fun st => ⌜st = s⌝⦄ addMember id m ⦃⇓ _ st => ⌜s.Keeps st⌝⦄ := by
  have hparams : ∀ s, ⦃fun st => ⌜st = s⌝⦄ m.params.forM (fun p => discard (readMult p.mult))
      ⦃⇓ _ st => ⌜s.Keeps st⌝⦄ := by
    refine forM_spec Session.Keeps .refl (fun _ _ _ => .trans) fun p _ s => ?_
    mvcgen
    grind
  unfold addMember
  mvcgen [seenKeys, reportDuplicate, error, hparams, -readMults_spec]
  case vc1 st hst _ _ _ _ _ seen _ st₁ =>
    intro hkeeps _
    have hseen : st.Keeps seen.2 := ⟨⟨fun h => h, rfl⟩, rfl⟩
    exact hst ▸ hseen.trans hkeeps
  case vc2 st hst _ _ _ _ seen _ st₁ h₁ _ st₂ h₂ added =>
    have hseen : st.Keeps seen.2 := ⟨⟨fun h => h, rfl⟩, rfl⟩
    have hadded : st₂.Keeps added.2 := ⟨⟨fun h => h, rfl⟩, rfl⟩
    exact hst ▸ hseen.trans (h₁.1.trans (h₂.trans hadded))
  case vc3 st hst _ _ _ => exact hst ▸ .refl _

@[local spec high] theorem addMembers_keeps (id : Nat) (ms : List Member) (s : Session) :
    ⦃fun st => ⌜st = s⌝⦄ addMembers id ms ⦃⇓ _ st => ⌜s.Keeps st⌝⦄ := by
  unfold addMembers
  refine forM_spec Session.Keeps .refl (fun _ _ _ => .trans) (fun m _ s => ?_) s
  mvcgen
  grind

@[local spec high] theorem defineStatement_keeps (statement : Statement) (s : Session) :
    ⦃fun st => ⌜st = s⌝⦄ defineStatement statement ⦃⇓ _ st => ⌜s.Keeps st⌝⦄ := by
  unfold defineStatement
  mvcgen [defineStatement.addTo] <;> grind

theorem define_keeps (p : Program) (s : Session) :
    ⦃fun st => ⌜st = s⌝⦄ define p ⦃⇓ _ st => ⌜s.Keeps st⌝⦄ :=
  forM_spec Session.Keeps .refl (fun _ _ _ => .trans)
    (fun (_, statement) _ => defineStatement_keeps statement) s

/-! ## Chains and association classes -/

/-- From `source` on, links become relationships each of which starts where the one before it
ends. -/
def Chained (s : Session) (source : End) (links : List Link) (s' : Session) : Prop :=
  s.Carries s' ∧ (s'.IsClean → ∃ rs, s'.written = s.written ++ rs
    ∧ List.Forall₂ (Link.Renders .statement) links rs ∧ (rs.IsChain fun r r' => r'.source = r.target)
    ∧ ∀ r ∈ rs.head?, r.source = source.fqn)

theorem Chained.nil (s : Session) (source : End) : Chained s source [] s :=
  ⟨.refl _, fun _ => ⟨[], (List.append_nil _).symm, .nil, .nil, by simp⟩⟩

theorem Chained.cons {s s₁ s₂ s' : Session} {source target : End} {l : Link} {links : List Link}
    (hlink : s.Carries s₁) (hr : s₁.IsClean → ∃ r, s₁.written = s.written ++ [r]
      ∧ l.Renders .statement r ∧ r.source = source.fqn ∧ r.target = target.fqn)
    (hkeeps : s₁.Keeps s₂) (h : Chained s₂ target links s') : Chained s source (l :: links) s' := by
  refine ⟨hlink.trans (hkeeps.carries.trans h.1), fun hclean => ?_⟩
  have hclean₂ := h.1.clean hclean
  obtain ⟨r, hwritten, hrenders, hsource, htarget⟩ := hr (hkeeps.clean hclean₂)
  obtain ⟨rs, hwritten', hall, hchain, hhead⟩ := h.2 hclean
  refine ⟨r :: rs, ?_, .cons hrenders hall, ?_, by simpa using hsource⟩
  · rw [hwritten', hkeeps.written, hwritten, List.append_assoc]
    rfl
  · exact List.isChain_cons.2 ⟨fun r' hr' => (hhead r' hr').trans htarget.symm, hchain⟩

theorem resolveLinks_writes (ns : Bytes) (source : End) {links : List Link}
    (hcomplete : Link.AllComplete links) (s : Session) :
    ⦃fun st => ⌜st = s⌝⦄ resolveLinks ns source links ⦃⇓ _ st => ⌜Chained s source links st⌝⦄ := by
  induction links generalizing source s with
  | nil => exact triple_iff_run.2 (.nil s source)
  | cons l rest ih =>
    have hl : l.IsComplete := hcomplete l (by simp)
    have hrest := fun source => ih source fun l hl => hcomplete l (by simp [hl])
    unfold resolveLinks
    mvcgen [hrest, -resolveLinks_spec]
    case vc1 st hst target st₁ h₁ _ _ e _ st₂ h₂ _ st₃ h₃ _ st₄ =>
      subst hst
      intro h₄
      refine .cons (h₁.1.carries.trans h₂.1) (fun hclean => ?_) h₃ h₄
      rw [← h₁.1.written]
      exact h₂.2 hl.op (by decide) hclean
    case vc2 st hst target st₁ h₁ _ _ _ _ _ st₂ h₂ _ st₃ =>
      subst hst
      intro h₃
      refine .cons (h₁.1.carries.trans h₂.1) (fun hclean => ?_) (.refl _) h₃
      rw [← h₁.1.written]
      exact h₂.2 hl.op (by decide) hclean
    case vc3 hempty _ _ => exact absurd (by simpa using hempty) hl.target

theorem resolveChain_writes (ns : Bytes) {head : Endpoint} {links : List Link} (hhead : head.name ≠ [])
    (hcomplete : Link.AllComplete links) (s : Session) :
    ⦃fun st => ⌜st = s⌝⦄ resolveChain ns head links
    ⦃⇓ _ st => ⌜s.Carries st ∧ (st.IsClean → ∃ rs, st.written = s.written ++ rs
      ∧ List.Forall₂ (Link.Renders .statement) links rs
      ∧ rs.IsChain fun r r' => r'.source = r.target)⌝⦄ := by
  have hlinks := fun source => resolveLinks_writes ns source hcomplete
  unfold resolveChain
  mvcgen [hlinks, -resolveLinks_spec]
  case vc1 _ st hst source st₁ h₁ _ st₂ =>
    subst hst
    intro h₂
    refine ⟨h₁.1.carries.trans h₂.1, fun hclean => ?_⟩
    obtain ⟨rs, hwritten, hall, hchain, -⟩ := h₂.2 hclean
    exact ⟨rs, hwritten.trans (by rw [h₁.1.written]), hall, hchain⟩
  case vc2 hempty _ _ => exact absurd (by simpa using hempty) hhead

/-- The declaration with number `id` made an entity of this full name. -/
def Declares (s : Session) (id : Nat) (fqn : Bytes) : Prop :=
  (s.declaredEntity? id).map (·.fqn) = some fqn

/-- An entity keeps its name, and later declarations do not hide it. -/
theorem Declares.leads {s s' : Session} {id : Nat} {fqn : Bytes} (h : Declares s id fqn)
    (hgrows : s.table.Grows s'.table) (hdeclared : ∃ more, s'.declared = s.declared ++ more) :
    Declares s' id fqn := by
  obtain ⟨e, he, rfl⟩ := Option.map_eq_some_iff.1 h
  obtain ⟨n, hlookup, hget⟩ := Option.bind_eq_some_iff.1 he
  obtain ⟨e', hget', hfqn, -⟩ := hgrows.entities n e hget
  obtain ⟨more, hmore⟩ := hdeclared
  have hlookup' : s'.declared.lookup id = some n := by
    rw [hmore, List.lookup_append, hlookup]
    rfl
  exact Option.map_eq_some_iff.2 ⟨e', Option.bind_eq_some_iff.2 ⟨n, hlookup', hget'⟩, hfqn⟩

theorem resolveAssociation_writes (ns : Bytes) (tag : Tag) {a : AssociationDecl}
    (hcomplete : (Decl.association a).IsComplete) {s : Session} (hs : s.Sound)
    (hdeclares : s.IsClean → Declares s tag.id (FullName.join ns a.name)) :
    ⦃fun st => ⌜st = s⌝⦄ resolveAssociation ns tag a
    ⦃⇓ _ st => ⌜s.Carries st ∧ (st.IsClean → ∃ r, st.written = s.written ++ [r]
      ∧ a.Renders ns tag r)⌝⦄ := by
  obtain ⟨-, hleft, hright, hop⟩ := hcomplete
  unfold resolveAssociation
  mvcgen [error]
  case vc1 hempty _ _ => simp [hleft, hright] at hempty
  case vc2 st hst _ st₁ h₁ _ _ st₂ h₂ _ st₃ h₃ =>
    subst hst
    exact ⟨(h₁.1.trans (h₂.1.trans h₃.1)).carries, fun hclean => absurd hclean (h₃.2 rfl)⟩
  case vc3 st hst _ st₁ h₁ _ _ _ st₂ h₂ _ st₃ h₃ =>
    subst hst
    exact ⟨(h₁.1.trans (h₂.1.trans h₃.1)).carries, fun hclean => absurd hclean (h₃.2 rfl)⟩
  case vc4 st hst left st₁ h₁ right _ _ st₂ h₂ sourceMult st₃ h₃ targetMult st₄ h₄ _ st₅ =>
    subst hst
    intro hcarries _ hwritten
    have hends := h₁.1.trans h₂.1
    have hkeeps := hends.trans (h₃.1.trans h₄.1)
    refine ⟨hkeeps.carries.trans hcarries, fun hclean => ?_⟩
    have hclean₄ := hcarries.clean hclean
    refine ⟨_, (hwritten (by decide) hclean).trans (by rw [hkeeps.written]), ?_⟩
    obtain ⟨⟨kind, navigable⟩, hfound⟩ := Option.ne_none_iff_exists'.1 (RelKind.ofOperator?_ne_none hop)
    have hgrows := (((h₁.2 hleft).trans (h₂.2 hright)) hs).2
    have hclass : Declares st₂ tag.id (FullName.join ns a.name) :=
      (hdeclares (hkeeps.clean hclean₄)).leads hgrows ⟨[], by rw [hends.declared, List.append_nil]⟩
    refine ⟨by simp [hfound], h₃.2 (h₄.1.clean hclean₄), h₄.2 hclean₄, rfl, ?_, rfl, rfl⟩
    simp only [Declares] at hclass
    simp [hclass]

/-! ## Other statements -/

@[local spec high] theorem addConstraint_keeps (c : Constraint) (s : Session) :
    ⦃fun st => ⌜st = s⌝⦄ addConstraint c ⦃⇓ _ st => ⌜s.Keeps st⌝⦄ := by
  rw [triple_iff_run]
  show s.Keeps (if s.constraints.any c.agrees then s
    else { s with constraints := s.constraints ++ [c] })
  split
  · exact .refl _
  · exact ⟨⟨id, rfl⟩, rfl⟩

theorem mapM_keeps {α β : Type} {f : α → Analyze β} {l : List α}
    (h : ∀ a ∈ l, ∀ s, ⦃fun st => ⌜st = s⌝⦄ f a ⦃⇓ _ st => ⌜s.Keeps st⌝⦄) (s : Session) :
    ⦃fun st => ⌜st = s⌝⦄ l.mapM f ⦃⇓ _ st => ⌜s.Keeps st⌝⦄ := by
  have hmap := mapM_spec Session.Keeps (fun _ _ => True) .refl (fun _ _ _ => .trans) (by simp)
    (f := f) (l := l) fun a ha s => triple_iff_run.2 ⟨triple_iff_run.1 (h a ha s), trivial⟩
  exact triple_iff_run.2 (triple_iff_run.1 (hmap s)).1

theorem resolveConstraint_keeps (ns : Bytes) (span : Span) (c : ConstraintDecl) (s : Session) :
    ⦃fun st => ⌜st = s⌝⦄ resolveConstraint ns span c ⦃⇓ _ st => ⌜s.Keeps st⌝⦄ := by
  have htargets := mapM_keeps (f := constraintTarget ns c.kind) (l := c.targets) fun r _ s => by
    unfold constraintTarget
    mvcgen [warning] <;> grind
  unfold resolveConstraint
  refine triple_intro fun Q hQ => ?_
  mvcgen [htargets] <;> grind

theorem resolveNote_keeps (ns : Bytes) (span : Span) (text : Bytes) (anchors : List Anchor)
    (s : Session) :
    ⦃fun st => ⌜st = s⌝⦄ resolveNote ns span text anchors ⦃⇓ _ st => ⌜s.Keeps st⌝⦄ := by
  have hanchors := mapM_keeps (f := noteAnchor? ns) (l := anchors) fun a _ s => by
    unfold noteAnchor?
    mvcgen [warning] <;> grind
  unfold resolveNote
  mvcgen [hanchors]
  rename_i st hst found st₁ hkeeps t
  have hnoted : st₁.Keeps t.2 := ⟨⟨fun h => h, rfl⟩, rfl⟩
  exact hst ▸ hkeeps.trans hnoted

theorem collectEntry_keeps (e : ConfigEntry) (s : Session) :
    ⦃fun st => ⌜st = s⌝⦄ collectEntry e ⦃⇓ _ st => ⌜s.Keeps st⌝⦄ := by
  unfold collectEntry
  mvcgen [warning]
  case vc1 st hst _ _ _ st₁ hkeeps t =>
    have hset : st₁.Keeps t.2 := ⟨⟨fun h => h, rfl⟩, rfl⟩
    exact hst ▸ hkeeps.1.trans hset
  case vc2 st hst _ t => exact hst ▸ ⟨⟨fun h => h, rfl⟩, rfl⟩
  case vc3 st hst => exact hst ▸ .refl _

/-- What a declaration needs of the ones that were registered: its own entity. -/
def Decl.IsDeclared (s : Session) (ns : Bytes) (tag : Tag) : Decl → Prop
  | .entity e => Declares s tag.id (FullName.join ns e.name)
  | .association a => Declares s tag.id (FullName.join ns a.name)
  | _ => True

theorem resolveStatement_writes (ns : Bytes) (tag : Tag) {d : Decl} (hcomplete : d.IsComplete)
    {s : Session} (hs : s.Sound) (hdeclared : s.IsClean → Decl.IsDeclared s ns tag d) :
    ⦃fun st => ⌜st = s⌝⦄ resolveStatement ns (.decl tag d)
    ⦃⇓ _ st => ⌜s.Carries st ∧ (st.IsClean → ∃ rs, st.written = s.written ++ rs
      ∧ d.Renders ns tag rs)⌝⦄ := by
  have hquiet : ∀ {x : Analyze Unit}, (⦃fun st => ⌜st = s⌝⦄ x ⦃⇓ _ st => ⌜s.Keeps st⌝⦄) →
      s.Carries (x.run s).2 ∧ ((x.run s).2.IsClean → ∃ rs, (x.run s).2.written = s.written ++ rs
        ∧ rs = []) := fun h =>
    ⟨(triple_iff_run.1 h).carries, fun _ => ⟨[], by simp [(triple_iff_run.1 h).written], rfl⟩⟩
  rw [triple_iff_run]
  cases d with
  | entity e =>
    have hget : (get : Analyze Session).run s = (s, s) := rfl
    simp only [resolveStatement, run_bind, hget]
    cases hsource : s.declaredEntity? tag.id with
    | none =>
      refine ⟨.refl s, fun hclean => ?_⟩
      have hnone := hdeclared hclean
      simp [Decl.IsDeclared, Declares, hsource] at hnone
    | some source =>
      obtain ⟨hcarries, hwritten⟩ :=
        triple_iff_run.1 (resolveHeaders_writes ns source hcomplete.2 s)
      refine ⟨hcarries, fun hclean => ?_⟩
      obtain ⟨rs, hrs, hall, hsources⟩ := hwritten hclean
      have hfqn : Declares s tag.id (FullName.join ns e.name) := hdeclared (hcarries.clean hclean)
      rw [Declares, hsource, Option.map_some, Option.some_inj] at hfqn
      exact ⟨rs, hrs, hall, fun r hr => (hsources r hr).trans hfqn⟩
  | relationship head links =>
    exact triple_iff_run.1 (resolveChain_writes ns hcomplete.1 hcomplete.2 s)
  | association a =>
    obtain ⟨hcarries, hwritten⟩ :=
      triple_iff_run.1 (resolveAssociation_writes ns tag hcomplete hs hdeclared)
    refine ⟨hcarries, fun hclean => ?_⟩
    obtain ⟨r, hr, hrenders⟩ := hwritten hclean
    exact ⟨[r], hr, r, rfl, hrenders⟩
  | constraint c => exact hquiet (resolveConstraint_keeps ns tag.span c s)
  | note text anchors => exact hquiet (resolveNote_keeps ns tag.span text anchors s)
  | config entries =>
    exact hquiet (forM_spec Session.Keeps .refl (fun _ _ _ => .trans) (fun e _ => collectEntry_keeps e) s)
  | comment text isDoc => exact hquiet (x := pure ()) (triple_iff_run.2 (.refl s))

/-! ## Documents -/

/-- A statement that can be resolved: it is complete, and what it declares is registered unless an
error is reported. -/
def IsResolvable (s : Session) (v : Bytes × Statement) : Prop :=
  v.2.IsComplete ∧ (s.IsClean → ∀ tag d, v.2 = .decl tag d → Decl.IsDeclared s v.1 tag d)

theorem IsResolvable.leads {s s' : Session} {v : Bytes × Statement} (h : IsResolvable s v)
    (hgrows : s.table.Grows s'.table) (hclean : s'.IsClean → s.IsClean)
    (hmore : ∃ more, s'.declared = s.declared ++ more) : IsResolvable s' v := by
  refine ⟨h.1, fun hclean' tag d hv => ?_⟩
  have hd := h.2 (hclean hclean') tag d hv
  cases d with
  | entity e => exact Declares.leads hd hgrows hmore
  | association a => exact Declares.leads hd hgrows hmore
  | _ => trivial

def resolveAll (vs : List (Bytes × Statement)) : Analyze Unit :=
  vs.forM fun (ns, statement) => resolveStatement ns statement

theorem resolveAll_leads (vs : List (Bytes × Statement)) (s : Session) :
    s.Leads ((resolveAll vs).run s).2 :=
  triple_iff_run.1 (forM_spec Session.Leads .refl (fun _ _ _ => .trans)
    (fun (ns, statement) _ => resolveStatement_spec ns statement) s)

theorem run_resolveAll_append (us vs : List (Bytes × Statement)) (s : Session) :
    (resolveAll (us ++ vs)).run s = (resolveAll vs).run ((resolveAll us).run s).2 := by
  induction us generalizing s with
  | nil => rfl
  | cons u us ih => exact ih _

/-- The visited statements write the relationships of which `P` holds, unless an error is reported. -/
def Writes (s : Session) (vs : List (Bytes × Statement)) (P : List Relationship → Prop) : Prop :=
  s.Carries ((resolveAll vs).run s).2 ∧ (((resolveAll vs).run s).2.IsClean →
    ∃ rs, ((resolveAll vs).run s).2.written = s.written ++ rs ∧ P rs)

theorem Writes.append {s : Session} {us vs : List (Bytes × Statement)} {P Q : List Relationship → Prop}
    (h : Writes s us P) (h' : Writes ((resolveAll us).run s).2 vs Q) :
    Writes s (us ++ vs) fun rs => ∃ front back, rs = front ++ back ∧ P front ∧ Q back := by
  unfold Writes
  rw [run_resolveAll_append]
  refine ⟨h.1.trans h'.1, fun hclean => ?_⟩
  obtain ⟨front, hfront, hP⟩ := h.2 (h'.1.clean hclean)
  obtain ⟨back, hback, hQ⟩ := h'.2 hclean
  exact ⟨front ++ back, by rw [hback, hfront, List.append_assoc], front, back, rfl, hP, hQ⟩

mutual
theorem visits_write (ns : Bytes) (statement : Statement) {s : Session} (hs : s.Sound)
    (h : ∀ v ∈ statement.visits ns, IsResolvable s v) :
    Writes s (statement.visits ns) (statement.Renders ns) := by
  cases statement with
  | decl tag d =>
    obtain ⟨hcomplete, hdeclared⟩ := h (ns, .decl tag d) (by simp [Statement.visits])
    exact triple_iff_run.1 (resolveStatement_writes ns tag hcomplete hs fun hclean =>
      hdeclared hclean tag d rfl)
  | package tag name span body =>
    have hcomplete : name ≠ [] := (h (ns, .package tag name span body) (by simp [Statement.visits])).1
    have hname : name.isEmpty = false := by simpa using hcomplete
    have hvisits : (Statement.package tag name span body).visits ns
        = (ns, .package tag name span body) :: Statement.visitsOf (FullName.join ns name) body := by
      simp [Statement.visits, hname]
    rw [hvisits] at h ⊢
    exact visitsOf_write (FullName.join ns name) body hs fun v hv => h v (by simp [hv])

theorem visitsOf_write (ns : Bytes) (statements : List Statement) {s : Session} (hs : s.Sound)
    (h : ∀ v ∈ Statement.visitsOf ns statements, IsResolvable s v) :
    Writes s (Statement.visitsOf ns statements) (Statement.RendersAll ns statements) := by
  cases statements with
  | nil => exact ⟨.refl _, fun _ => ⟨[], (List.append_nil _).symm, rfl⟩⟩
  | cons statement rest =>
    have hfront := visits_write ns statement hs fun v hv => h v (by simp [Statement.visitsOf, hv])
    obtain ⟨hs', hgrows⟩ := resolveAll_leads (statement.visits ns) s hs
    refine hfront.append (visitsOf_write ns rest hs' fun v hv => ?_)
    refine (h v (by simp [Statement.visitsOf, hv])).leads hgrows hfront.1.clean ⟨[], ?_⟩
    rw [hfront.1.declared, List.append_nil]
end

/-! ## Declarations -/

/-- A step of the discovery writes no relationship and adds to the declarations only ones with the
numbers `ids`. -/
structure Registers (ids : List Nat) (s s' : Session) : Prop where
  clean : s'.IsClean → s.IsClean
  written : s'.written = s.written
  declared : ∃ more, s'.declared = s.declared ++ more ∧ ∀ p ∈ more, p.1 ∈ ids

theorem Registers.of_keeps {s s' : Session} {ids : List Nat} (h : s.Keeps s') : Registers ids s s' :=
  ⟨h.clean, h.written, [], by simp [h.declared], nofun⟩

theorem Registers.trans {ids ids' : List Nat} {a b c : Session} (h : Registers ids a b)
    (h' : Registers ids' b c) : Registers (ids ++ ids') a c := by
  obtain ⟨more, hmore, hids⟩ := h.declared
  obtain ⟨more', hmore', hids'⟩ := h'.declared
  refine ⟨fun hc => h.clean (h'.clean hc), h'.written.trans h.written, more ++ more', ?_, ?_⟩
  · rw [hmore', hmore, List.append_assoc]
  · simp only [List.mem_append]
    exact fun p hp => hp.imp (hids p) (hids' p)

theorem declare_declares (id : Nat) (e : Entity) (nameSpan : Span) {s : Session}
    (hs : s.table.Numbered) :
    ⦃fun st => ⌜st = s⌝⦄ declare id e nameSpan
    ⦃⇓ _ st => ⌜Registers [id] s st ∧ (st.IsClean → (∀ p ∈ s.declared, p.1 ≠ id) →
      Declares st id e.fqn)⌝⦄ := by
  unfold declare
  mvcgen [error]
  case vc1 st hst _ _ _ st₁ =>
    exact fun hkeeps hunclean => hst ▸ ⟨.of_keeps hkeeps, fun hclean => absurd hclean (hunclean rfl)⟩
  case vc2 st hst _ made _ _ st₁ =>
    intro hkeeps hunclean
    have hmade : st.Keeps made.2 := ⟨⟨fun h => h, rfl⟩, rfl⟩
    exact hst ▸ ⟨.of_keeps (hmade.trans hkeeps), fun hclean => absurd hclean (hunclean rfl)⟩
  case vc3 st hst _ _ hnew _ =>
    subst hst
    refine ⟨⟨fun h => h, rfl, _, rfl, by simp⟩, fun _ hfresh => ?_⟩
    obtain ⟨kept, hget, hfqn⟩ := hs.get?_registerExplicit e hnew
    have hlookup : (st.declared ++ [(id, (st.table.registerExplicit e).2.1.id)]).lookup id
        = some (st.table.registerExplicit e).2.1.id := by
      have hnone : st.declared.lookup id = none :=
        List.lookup_eq_none_iff.2 fun p hp => by simpa using fun h => hfresh p hp h.symm
      simp [List.lookup_append, hnone]
    exact Option.map_eq_some_iff.2 ⟨kept, Option.bind_eq_some_iff.2 ⟨_, hlookup, hget⟩, hfqn⟩

theorem isResolvable_decl {s : Session} {ns : Bytes} {tag : Tag} {d : Decl} (hcomplete : d.IsComplete)
    (h : s.IsClean → Decl.IsDeclared s ns tag d) : IsResolvable s (ns, .decl tag d) := by
  refine ⟨hcomplete, fun hclean tag' d' heq => ?_⟩
  cases heq
  exact h hclean

theorem declareStatement_declares {v : Bytes × Statement} (hcomplete : v.2.IsComplete) {s : Session}
    (hs : s.table.Numbered) :
    ⦃fun st => ⌜st = s⌝⦄ declareStatement v.1 v.2
    ⦃⇓ _ st => ⌜Registers [v.2.id] s st ∧ ((∀ p ∈ s.declared, p.1 ≠ v.2.id) →
      IsResolvable st v)⌝⦄ := by
  obtain ⟨ns, statement⟩ := v
  cases statement with
  | package tag name span body =>
    exact triple_iff_run.2 ⟨.of_keeps (.refl _), fun _ => ⟨hcomplete, nofun⟩⟩
  | decl tag d =>
    cases d with
    | entity e =>
      -- The problems with modifiers are reported first, with the table as it is.
      have hreport : ∀ d s, ⦃fun st => ⌜st = s⌝⦄ report d
          ⦃⇓ _ st => ⌜s.Keeps st ∧ st.table = s.table⌝⦄ :=
        fun d s => triple_iff_run.2 ⟨(triple_iff_run.1 (report_keeps d s)).1, rfl⟩
      have hdeclare := fun made nameSpan s hs => declare_declares tag.id made nameSpan (s := s) hs
      unfold declareStatement
      mvcgen [error, hreport, hdeclare, -report_keeps, -report_spec, -declare_spec]
      case inv1 => exact ⇓_ st => ⌜s.Keeps st ∧ st.table = s.table⌝
      case vc1 h _ _ h' => exact ⟨h.1.trans h'.1, h'.2.trans h.2⟩
      case vc2 _ _ hst => exact hst ▸ ⟨.refl _, rfl⟩
      case vc3 st hst _ st₁ h _ st₂ =>
        replace h : s.Keeps st₁ ∧ st₁.table = s.table := h
        intro hregisters hdeclares
        have hkeeps : Registers [] s st₁ := .of_keeps h.1
        refine ⟨hkeeps.trans hregisters, fun hfresh => isResolvable_decl hcomplete fun hclean => ?_⟩
        exact hdeclares hclean (h.1.declared ▸ hfresh)
      case vc4 =>
        intro st (h : s.Keeps st ∧ st.table = s.table)
        exact h.2 ▸ hs
      case vc5 hempty _ _ => exact absurd (by simpa using hempty) hcomplete.1
    | association a =>
      have hdeclare := fun made nameSpan => declare_declares tag.id made nameSpan hs
      unfold declareStatement
      mvcgen [hdeclare, -declare_spec]
      case vc2 =>
        exact fun hregisters hdeclares =>
          ⟨hregisters, fun hfresh => isResolvable_decl hcomplete fun hclean => hdeclares hclean hfresh⟩
      case vc3 hempty _ _ => exact absurd (by simpa using hempty) hcomplete.1
    | _ => exact triple_iff_run.2 ⟨.of_keeps (.refl _), fun _ => isResolvable_decl hcomplete fun _ => trivial⟩

/-- Every declaration of statements with distinct numbers is registered under its own. -/
theorem declareAll_declares {vs : List (Bytes × Statement)} (hcomplete : ∀ v ∈ vs, v.2.IsComplete)
    (hdistinct : (vs.map (·.2.id)).Nodup) {s : Session} (hs : s.Sound)
    (hhoused : ∀ v ∈ vs, v.1 = [] ∨ s.table.isNamespace v.1)
    (hfresh : ∀ v ∈ vs, ∀ p ∈ s.declared, p.1 ≠ v.2.id) :
    ⦃fun st => ⌜st = s⌝⦄ vs.forM (fun (ns, statement) => declareStatement ns statement)
    ⦃⇓ _ st => ⌜(st.Sound ∧ s.table.Grows st.table) ∧ Registers (vs.map (·.2.id)) s st
      ∧ ∀ v ∈ vs, IsResolvable st v⌝⦄ := by
  rw [triple_iff_run]
  induction vs generalizing s with
  | nil => exact ⟨⟨hs, .refl _⟩, .of_keeps (.refl _), nofun⟩
  | cons v rest ih =>
    simp only [List.map_cons, List.nodup_cons, List.mem_map, not_exists, not_and] at hdistinct
    rw [List.forall_mem_cons] at hcomplete hhoused hfresh
    -- The run of the first statement, after which all that the others need still holds.
    obtain ⟨hs₁, hgrows⟩ :=
      triple_iff_run.1 (declareStatement_spec v.2 (s := s) fun _ => hhoused.1) hs
    obtain ⟨hregisters, hresolvable⟩ :=
      triple_iff_run.1 (declareStatement_declares hcomplete.1 hs.table.numbered)
    generalize hrun : ((declareStatement v.1 v.2).run s).2 = s₁ at hs₁ hgrows hregisters hresolvable
    obtain ⟨more, hmore, hids⟩ := hregisters.declared
    have hfresh₁ : ∀ u ∈ rest, ∀ p ∈ s₁.declared, p.1 ≠ u.2.id := by
      intro u hu p hp heq
      rcases List.mem_append.1 (hmore ▸ hp) with hp | hp
      · exact hfresh.2 u hu p hp heq
      · exact hdistinct.1 u hu (heq.symm.trans (List.mem_singleton.1 (hids p hp)))
    obtain ⟨⟨hs₂, hgrows₂⟩, hregisters₂, hresolvable₂⟩ := ih hcomplete.2 hdistinct.2 hs₁
      (fun u hu => (hhoused.2 u hu).imp_right (hgrows.namespaces _)) hfresh₁
    rw [← hrun] at hs₂ hgrows₂ hregisters₂ hresolvable₂
    rw [← hrun] at hgrows hregisters hresolvable
    refine ⟨⟨hs₂, hgrows.trans hgrows₂⟩, hregisters.trans hregisters₂, ?_⟩
    obtain ⟨more₂, hmore₂, -⟩ := hregisters₂.declared
    have hv := (hresolvable hfresh.1).leads hgrows₂ hregisters₂.clean ⟨more₂, hmore₂⟩
    exact List.forall_mem_cons.2 ⟨hv, hresolvable₂⟩

theorem discover_declares {p : Program} {low high : Nat} (h : Statement.Made low high p.statements) :
    ⦃fun st => ⌜st = {}⌝⦄ discover p
    ⦃⇓ _ st => ⌜st.Sound ∧ st.written = [] ∧ ∀ v ∈ p.visits, IsResolvable st v⌝⦄ := by
  have hflat := Statement.map_visitsOf [] p.statements fun s hs => (h.complete s hs).isTitled
  have hcomplete : ∀ v ∈ p.visits, v.2.IsComplete := fun v hv =>
    h.complete v.2 (hflat ▸ List.mem_map_of_mem hv)
  have hdistinct : (p.visits.map (·.2.id)).Nodup := by
    have hids := h.distinct
    rwa [← hflat, List.map_map] at hids
  have hpackages := forM_establishes Opens IsOpen .refl (fun _ _ _ => .trans)
    (fun a b h v hv tag name span body heq hne => h.namespaces _ (hv tag name span body heq hne))
    (f := fun (ns, statement) => registerPackage ns statement) (l := p.visits)
    fun (ns, statement) _ => registerPackage_spec ns statement
  obtain ⟨hopens, hopen⟩ := triple_iff_run.1 (hpackages {})
  have hdeclared : ∀ v ∈ p.visits, ∀ q ∈ (_ : Session).declared, q.1 ≠ v.2.id := fun v _ q hq => by
    rw [hopens.declared] at hq
    cases hq
  obtain ⟨⟨hs, -⟩, hregisters, hresolvable⟩ := triple_iff_run.1 (declareAll_declares hcomplete hdistinct
    hopens.sound (housed_of_isOpen hopen) hdeclared)
  refine triple_iff_run.2 ⟨hs, hregisters.written.trans ?_, hresolvable⟩
  rw [written, hopens.relationships]
  rfl

/-! ## Inference and validation -/

@[local spec high] theorem inferLink_keeps (e : Entity) (m : EntityMember) (l : TypeLink) (s : Session) :
    ⦃fun st => ⌜st = s⌝⦄ inferLink e m l ⦃⇓ _ st => ⌜s.Keeps st⌝⦄ := by
  unfold inferLink
  mvcgen
  case vc5 st hst _ _ st₁ h₁ _ _ st₂ h₂ =>
    have hadd : st₁.Keeps st₂ := ⟨h₂.1, h₂.2.1⟩
    exact hst ▸ h₁.1.trans hadd
  all_goals grind

@[local spec high] theorem inferType_keeps (typing : Typing) (e : Entity) (m : EntityMember) (t : TypeExpr)
    (s : Session) :
    ⦃fun st => ⌜st = s⌝⦄ inferType typing e m t ⦃⇓ _ st => ⌜s.Keeps st⌝⦄ := by
  have hlinks := fun links : List TypeLink => mapM_keeps (l := links) fun l _ => inferLink_keeps e m l
  unfold inferType
  refine triple_intro fun Q hQ => ?_
  mvcgen [hlinks] <;> grind

@[local spec high] theorem inferEntity_keeps (typing : Typing) (e : Entity) (s : Session) :
    ⦃fun st => ⌜st = s⌝⦄ inferEntity typing e ⦃⇓ _ st => ⌜s.Keeps st⌝⦄ := by
  have hmembers := forM_spec Session.Keeps .refl (fun _ _ _ => .trans) (l := e.members) fun m _ =>
    forM_spec Session.Keeps .refl (fun _ _ _ => .trans) (l := inferableTypes m)
      fun t _ => inferType_keeps typing e m t
  have hgroups := forM_spec Session.Keeps .refl (fun _ _ _ => .trans) (f := addConstraint)
    (l := xorGroups e) fun c _ => addConstraint_keeps c
  unfold inferEntity
  refine triple_intro fun Q hQ => ?_
  mvcgen [hmembers, hgroups]
  grind

theorem inferFrom_keeps (typing : Typing) (n i : Nat) (s : Session) :
    ⦃fun st => ⌜st = s⌝⦄ inferFrom typing n i ⦃⇓ _ st => ⌜s.Keeps st⌝⦄ := by
  induction n generalizing i s with
  | zero => exact triple_iff_run.2 (.refl s)
  | succ n ih =>
    unfold inferFrom
    refine triple_intro fun Q hQ => ?_
    mvcgen [ih, -inferFrom_spec] <;> grind

theorem infer_keeps (typing : Typing) (s : Session) :
    ⦃fun st => ⌜st = s⌝⦄ infer typing ⦃⇓ _ st => ⌜s.Keeps st⌝⦄ :=
  triple_iff_run.2 (triple_iff_run.1 (inferFrom_keeps typing s.table.size 0 s))

theorem validate_keeps (s : Session) :
    ⦃fun st => ⌜st = s⌝⦄ validate ⦃⇓ _ st => ⌜s.Keeps st⌝⦄ := by
  have hreport := fun problems : List Diagnostic =>
    forM_spec Session.Keeps .refl (fun _ _ _ => .trans) (f := report) (l := problems)
      fun d _ s => triple_iff_run.2 (triple_iff_run.1 (report_keeps d s)).1
  unfold validate
  refine triple_intro fun Q hQ => ?_
  mvcgen [hreport]
  grind

end Analyze

theorem analyze_eq (typing : Typing) (p : Program) :
    analyze typing p = (Analyze.validate.run ((Analyze.infer typing).run ((Analyze.resolve p).run
      ((Analyze.define p).run ((Analyze.discover p).run {}).2).2).2).2).2 :=
  rfl

/-- Where the analysis of a document reports no error, the relationships that are not inferred from
members are those that the document writes. -/
theorem analyze_renders (typing : Typing) {p : Program} {low high : Nat}
    (h : Statement.Made low high p.statements) (hclean : (analyze typing p).IsClean) :
    Statement.RendersAll [] p.statements (analyze typing p).written := by
  obtain ⟨hs₁, hwritten₁, hresolvable⟩ := triple_iff_run.1 (Analyze.discover_declares h)
  rw [analyze_eq] at hclean ⊢
  generalize ((Analyze.discover p).run {}).2 = s₁ at *
  have hdefine := triple_iff_run.1 (Analyze.define_keeps p s₁)
  obtain ⟨hs₂, hgrows⟩ := triple_iff_run.1 (Analyze.define_spec p s₁) hs₁
  generalize ((Analyze.define p).run s₁).2 = s₂ at *
  have hmore : ∃ more, s₂.declared = s₁.declared ++ more := ⟨[], by simp [hdefine.declared]⟩
  obtain ⟨-, hrenders⟩ := Analyze.visitsOf_write [] p.statements hs₂ fun v hv =>
    (hresolvable v hv).leads hgrows hdefine.clean hmore
  -- Nothing behind the resolution writes a relationship.
  have hlast := (triple_iff_run.1 (Analyze.infer_keeps typing ((Analyze.resolve p).run s₂).2)).trans
    (triple_iff_run.1 (Analyze.validate_keeps _))
  obtain ⟨rs, hrs, hall⟩ := hrenders (hlast.clean hclean)
  have hwritten : ((Analyze.resolve p).run s₂).2.written = rs := by
    rw [hdefine.written, hwritten₁] at hrs
    exact hrs
  rw [hlast.written, hwritten]
  exact hall

end Uml
