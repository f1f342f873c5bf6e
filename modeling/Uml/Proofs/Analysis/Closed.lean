import Mathlib
import Uml.Proofs.Analysis.References

/-!
# Every analysis ends closed

Packages are registered before anything else, so that each declaration finds the namespace it stands
in. From there on every pass keeps the model closed.
-/
namespace Uml

open Std.Do

set_option mvcgen.warning false

namespace Analyze

/-! ## Declarations and members -/

@[spec] theorem defineStatement_spec (statement : Statement) (s : Session) :
    ⦃fun st => ⌜st = s⌝⦄ defineStatement statement ⦃⇓ _ st => ⌜s.Leads st⌝⦄ := by
  mvcgen [defineStatement, defineStatement.addTo] <;> grind

@[spec] theorem define_spec (p : Program) (s : Session) :
    ⦃fun st => ⌜st = s⌝⦄ define p ⦃⇓ _ st => ⌜s.Leads st⌝⦄ :=
  forM_spec Session.Leads .refl (fun _ _ _ => .trans)
    (fun (_, statement) _ => defineStatement_spec statement) s

theorem namespaceSpan?_eq_none {t : Table} {fqn : Bytes} (h : t.namespaceSpan? fqn = none) :
    ¬ t.isNamespace fqn := by
  rw [Table.namespaceSpan?] at h
  simp [Table.isNamespace, h]

@[spec] theorem declare_spec (id : Nat) {e : Entity} (hname : e.name ≠ []) (nameSpan : Span)
    (s : Session) :
    ⦃fun st => ⌜st = s⌝⦄ declare id e nameSpan
    ⦃⇓ _ st => ⌜(s.Sound → e.ns = [] ∨ s.table.isNamespace e.ns) → s.Leads st⌝⦄ := by
  mvcgen [declare, error]
  case vc1 st hst _ _ _ st₁ => exact fun h _ => hst ▸ h.leads
  case vc2 st hst hfree _ _ _ st₁ =>
    subst hst
    intro hq hns hs
    obtain ⟨ht, hg, -⟩ := hs.table.registerExplicit hname (namespaceSpan?_eq_none hfree) (hns hs)
    obtain ⟨hs₁, hg₁⟩ := hq.leads (hs.withTable ht hg)
    exact ⟨hs₁, hg.trans hg₁⟩
  case vc3 st hst hfree _ hnew _ =>
    subst hst
    intro hns hs
    obtain ⟨ht, hg, hkept⟩ :=
      hs.table.registerExplicit hname (namespaceSpan?_eq_none hfree) (hns hs)
    have hs₁ := hs.withTable ht hg
    refine ⟨⟨ht, hs₁.relationships, hs₁.anchors, fun p hp => ?_⟩, hg⟩
    rcases List.mem_append.1 hp with hp | hp
    · exact hs₁.declared p hp
    · cases List.mem_singleton.1 hp
      exact hkept hnew

theorem declareStatement_spec {ns : Bytes} (statement : Statement) {s : Session}
    (hns : s.Sound → ns = [] ∨ s.table.isNamespace ns) :
    ⦃fun st => ⌜st = s⌝⦄ declareStatement ns statement ⦃⇓ _ st => ⌜s.Leads st⌝⦄ := by
  mvcgen [declareStatement, error]
  case inv1 => exact ⇓_ st => ⌜s.Agrees st⌝
  case vc1 h _ _ h' => exact Session.Agrees.trans h h'
  case vc2 _ _ hst => exact hst ▸ Session.Agrees.refl _
  case vc3 st hst _ st₁ h _ st₂ =>
    subst hst
    replace h : st.Agrees st₁ := h
    intro hdeclare hs
    refine h.leads.trans (hdeclare fun _ => ?_) hs
    rw [h.table]
    exact hns hs
  case vc4 hname _ _ _ => exact fun _ _ => by simpa using hname
  case vc5 st hst => exact hst ▸ .refl _
  case vc6 st hst _ st₁ =>
    subst hst
    exact fun hdeclare => hdeclare hns
  case vc7 hname => exact fun _ _ => by simpa using hname
  case vc8 st hst => exact hst ▸ .refl _
  case vc9 st hst => exact hst ▸ .refl _

/-! ## Discovery -/

mutual
/-- What is visited stands where the visit began or in a package with a name that is visited too. -/
theorem visits_housed (ns : Bytes) (statement : Statement) {v : Bytes × Statement}
    (hv : v ∈ statement.visits ns) :
    v.1 = ns ∨ ∃ outer tag name span body,
      (outer, Statement.package tag name span body) ∈ statement.visits ns ∧ name ≠ []
        ∧ v.1 = FullName.join outer name := by
  cases statement with
  | decl tag d =>
    simp only [Statement.visits, List.mem_singleton] at hv
    exact .inl (hv ▸ rfl)
  | package tag name span body =>
    simp only [Statement.visits, List.mem_cons] at hv ⊢
    rcases hv with rfl | hv
    · exact .inl rfl
    · split at hv
      · cases hv
      · rename_i hname
        have hname' : name ≠ [] := by simpa using hname
        rw [if_neg hname]
        rcases visitsOf_housed (FullName.join ns name) body hv with h | ⟨outer, t, n, sp, b, h⟩
        · exact .inr ⟨ns, tag, name, span, body, .inl rfl, hname', h⟩
        · exact .inr ⟨outer, t, n, sp, b, .inr h.1, h.2⟩

theorem visitsOf_housed (ns : Bytes) (statements : List Statement) {v : Bytes × Statement}
    (hv : v ∈ Statement.visitsOf ns statements) :
    v.1 = ns ∨ ∃ outer tag name span body,
      (outer, Statement.package tag name span body) ∈ Statement.visitsOf ns statements ∧ name ≠ []
        ∧ v.1 = FullName.join outer name := by
  cases statements with
  | nil => cases hv
  | cons statement rest =>
    simp only [Statement.visitsOf, List.mem_append] at hv ⊢
    rcases hv with hv | hv
    · exact (visits_housed ns statement hv).imp_right
        fun ⟨outer, t, n, sp, b, h⟩ => ⟨outer, t, n, sp, b, .inl h.1, h.2⟩
    · exact (visitsOf_housed ns rest hv).imp_right
        fun ⟨outer, t, n, sp, b, h⟩ => ⟨outer, t, n, sp, b, .inr h.1, h.2⟩
end

/-- Sessions that differ in namespaces only, of which none is lost. -/
structure Opens (s s' : Session) : Prop where
  entities : s'.table.entities = s.table.entities
  numbers : s'.table.numbers = s.table.numbers
  relationships : s'.relationships = s.relationships
  notes : s'.notes = s.notes
  declared : s'.declared = s.declared
  namespaces : ∀ ns, s.table.isNamespace ns → s'.table.isNamespace ns

theorem Opens.refl (s : Session) : Opens s s := ⟨rfl, rfl, rfl, rfl, rfl, fun _ h => h⟩

theorem Opens.trans {a b c : Session} (h : Opens a b) (h' : Opens b c) : Opens a c :=
  ⟨h'.entities.trans h.entities, h'.numbers.trans h.numbers, h'.relationships.trans h.relationships,
    h'.notes.trans h.notes, h'.declared.trans h.declared, fun ns hns => h'.namespaces ns (h.namespaces ns hns)⟩

/-- A package with a name is a namespace of its full name. -/
def IsOpen (v : Bytes × Statement) (s : Session) : Prop :=
  ∀ tag name span body, v.2 = .package tag name span body → name ≠ [] →
    s.table.isNamespace (FullName.join v.1 name)

@[spec] theorem registerPackage_spec (ns : Bytes) (statement : Statement) (s : Session) :
    ⦃fun st => ⌜st = s⌝⦄ registerPackage ns statement
    ⦃⇓ _ st => ⌜Opens s st ∧ IsOpen (ns, statement) st⌝⦄ := by
  mvcgen [registerPackage]
  case vc1 hname st hst _ =>
    subst hst
    obtain ⟨hentities, hnumbers, hkept, hnew⟩ :=
      st.table.registerNamespace_spec (FullName.join ns _) _
    refine ⟨⟨hentities, hnumbers, rfl, rfl, rfl, hkept⟩, fun tag name span body h hne => ?_⟩
    cases h
    exact hnew (FullName.join_ne_nil hne)
  case vc2 hname st hst =>
    subst hst
    refine ⟨.refl _, fun tag name span body h hne => ?_⟩
    cases h
    simp [hne] at hname
  case vc3 hno _ st hst => exact ⟨hst ▸ .refl _, fun _ _ _ _ h => (hno _ _ _ _ h).elim⟩

theorem Opens.sound {s : Session} (h : Opens {} s) : s.Sound := by
  obtain ⟨hentities, hnumbers, hrelationships, hnotes, hdeclared, -⟩ := h
  refine ⟨⟨⟨?_, fun fqn id => ?_⟩, ?_, ?_⟩, ?_, ?_, ?_⟩
  · simp [Table.Numbered, hentities]
  · cases id <;> simp [Table.get?, hentities, hnumbers]
  · simp [hentities]
  · simp [hentities]
  · simp [hrelationships]
  · simp [hnotes]
  · simp [hdeclared]

/-- Every statement stands at the top or in a registered namespace. -/
def Housed (p : Program) (t : Table) : Prop := ∀ v ∈ p.visits, v.1 = [] ∨ t.isNamespace v.1

theorem housed_of_isOpen {p : Program} {s : Session} (h : ∀ v ∈ p.visits, IsOpen v s) :
    Housed p s.table := by
  intro v hv
  rcases visitsOf_housed [] p.statements hv with hv | ⟨outer, tag, name, span, body, hp, hname, hv⟩
  · exact .inl hv
  · exact .inr (hv ▸ h _ hp tag name span body rfl hname)

theorem declareAll_spec (p : Program) (s : Session) :
    ⦃fun st => ⌜st = s⌝⦄ p.visits.forM (fun (ns, statement) => declareStatement ns statement)
    ⦃⇓ _ st => ⌜(s.Sound → Housed p s.table) → s.Leads st⌝⦄ := by
  refine forM_leads (fun t t' _ hg h v hv => ?_) (fun (ns, statement) hv s => ?_) s
  · exact (h v hv).imp_right (hg.namespaces _)
  · refine triple_iff_run.2 fun h => ?_
    exact triple_iff_run.1 (declareStatement_spec statement fun hs => h hs _ hv)

theorem discover_spec (p : Program) :
    ⦃fun st => ⌜st = {}⌝⦄ discover p ⦃⇓ _ st => ⌜st.Sound⌝⦄ := by
  have hpackages := forM_establishes Opens IsOpen .refl (fun _ _ _ => .trans)
    (fun a b h v hv tag name span body heq hne => h.namespaces _ (hv tag name span body heq hne))
    (f := fun (ns, statement) => registerPackage ns statement) (l := p.visits)
    fun (ns, statement) _ => registerPackage_spec ns statement
  have hdeclare := declareAll_spec p
  mvcgen [discover, hpackages, hdeclare]
  rename_i st hst _ st₁ h _ st₂
  subst hst
  intro hleads
  exact (hleads (fun _ => housed_of_isOpen h.2) h.1.sound).1

/-! ## Inference -/

@[spec] theorem inferLink_spec (e : Entity) (m : EntityMember) (l : TypeLink) (s : Session) :
    ⦃fun st => ⌜st = s⌝⦄ inferLink e m l
    ⦃⇓ _ st => ⌜(s.Sound → s.table.contains e.fqn) → s.Leads st⌝⦄ := by
  mvcgen [inferLink]
  case vc1 st hst => exact fun _ => hst ▸ .refl _
  case vc2 htarget _ _ _ =>
    intro h
    simp [h] at htarget
  case vc3 st hst _ st₁ h => exact fun _ => hst ▸ h.1
  case vc4 htarget _ _ _ _ =>
    intro h
    simp [h] at htarget
  case vc5 st hst _ _ st₁ h => exact fun _ => hst ▸ h.1
  case vc6 st hst _ _ st₁ h _ => exact fun _ => hst ▸ h.1
  case vc7 st hst target _ st₁ h _ _ st₂ hadd =>
    subst hst
    intro hsource hs
    obtain ⟨-, hg⟩ := h.1 hs
    refine h.1.trans (hadd fun _ hto => ?_) hs
    have hknown : (End.entity e).Known st₁.table := hg.contains _ (hsource hs)
    exact joins_of_known hknown (h.2 hs) rfl rfl rfl (by simp [End.isPackage]) hto (absurd rfl)

@[spec] theorem inferType_spec (typing : Typing) (e : Entity) (m : EntityMember) (t : TypeExpr)
    (s : Session) :
    ⦃fun st => ⌜st = s⌝⦄ inferType typing e m t
    ⦃⇓ _ st => ⌜(s.Sound → s.table.contains e.fqn) → s.Leads st⌝⦄ := by
  have hlinks := fun links : List TypeLink =>
    mapM_leads (P := (·.contains e.fqn)) (fun _ _ _ hg => hg.contains _) (l := links)
      fun l _ => inferLink_spec e m l
  mvcgen [inferType, hlinks]
  case vc1 st hst => exact fun _ => hst ▸ .refl _
  case vc2 st hst _ _ st₁ h _ st₂ => exact fun h' hsource => hst ▸ (h (hst ▸ hsource)).trans h'.leads
  case vc3 st hst _ _ st₁ h => exact hst ▸ h

@[spec] theorem inferEntity_spec (typing : Typing) (e : Entity) (s : Session) :
    ⦃fun st => ⌜st = s⌝⦄ inferEntity typing e
    ⦃⇓ _ st => ⌜(s.Sound → s.table.contains e.fqn) → s.Leads st⌝⦄ := by
  have hkeep : ∀ t t' : Table, t.Sound → t.Grows t' → t.contains e.fqn → t'.contains e.fqn :=
    fun _ _ _ hg => hg.contains _
  have hmembers := forM_leads hkeep (l := e.members) fun m _ =>
    forM_leads hkeep (l := inferableTypes m) fun t _ => inferType_spec typing e m t
  have hgroups := forM_spec Session.Agrees .refl (fun _ _ _ => .trans) (f := addConstraint)
    (l := xorGroups e) fun c _ => addConstraint_spec c
  mvcgen [inferEntity, hmembers, hgroups]
  rename_i st hst _ st₁ h _ st₂
  subst hst
  exact fun h' hsource => (h hsource).trans h'.leads

@[spec] theorem inferFrom_spec (typing : Typing) (n i : Nat) (s : Session) :
    ⦃fun st => ⌜st = s⌝⦄ inferFrom typing n i ⦃⇓ _ st => ⌜s.Leads st⌝⦄ := by
  induction n generalizing i s with
  | zero =>
    mvcgen [inferFrom]
    grind
  | succ n ih =>
    have hrest : ∀ i s, ⦃fun st => ⌜st = s⌝⦄ inferFrom typing n i
        ⦃⇓ _ st => ⌜∀ a : Session, a.Leads s → a.Leads st⌝⦄ :=
      fun i s => triple_iff_run.2 fun a ha => ha.trans (triple_iff_run.1 (ih i s))
    mvcgen [inferFrom, hrest]
    case vc1 st hst e he _ st₁ h _ st₂ =>
      subst hst
      exact fun hrest => hrest _ (h fun hs => hs.table.filed.contains_of_mem (List.mem_of_getElem? he))
    case vc2 st hst _ => exact hst ▸ .refl _

@[spec] theorem infer_spec (typing : Typing) (s : Session) :
    ⦃fun st => ⌜st = s⌝⦄ infer typing ⦃⇓ _ st => ⌜s.Leads st⌝⦄ := by
  mvcgen [infer]

@[spec] theorem validate_spec (s : Session) :
    ⦃fun st => ⌜st = s⌝⦄ validate ⦃⇓ _ st => ⌜s.Leads st⌝⦄ := by
  have hreport := fun problems : List Diagnostic =>
    forM_spec Session.Agrees .refl (fun _ _ _ => .trans) (f := report) (l := problems)
      fun d _ => report_spec d
  mvcgen [validate, hreport]
  rename_i st hst _ _ st₁
  exact fun h => hst ▸ h.leads

end Analyze

/-- Whatever a document says and whatever language its types are written in, its analysis ends with
a model that holds everything it refers to. -/
theorem analyze_isClosed (typing : Typing) (p : Program) : (analyze typing p).IsClosed := by
  have hdiscover := triple_iff_run.1 (Analyze.discover_spec p)
  obtain ⟨hdefine, -⟩ := triple_iff_run.1 (Analyze.define_spec p _) hdiscover
  obtain ⟨hresolve, -⟩ := triple_iff_run.1 (Analyze.resolve_spec p _) hdefine
  obtain ⟨hinfer, -⟩ := triple_iff_run.1 (Analyze.infer_spec typing _) hresolve
  obtain ⟨hvalidate, -⟩ := triple_iff_run.1 (Analyze.validate_spec _) hinfer
  exact hvalidate.isClosed

end Uml
