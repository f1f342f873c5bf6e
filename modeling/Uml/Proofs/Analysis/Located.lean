import Uml.Analysis.Analyze
import Uml.Language.Plugin
import Uml.Proofs.Analysis.Inferred
import Uml.Proofs.Syntax.Located

/-!
# The places an analysis reports

What the passes build from a program that lies in a file lies in the file: entities and members
keep the places of their declarations, and what is inferred has the place of its member.
-/
namespace Uml

variable {file : File}

section

variable {α β : Type} [Located α] [Located β]

instance (p : α × β) [h : Lies file p] : Lies file p.1 := h.fst

instance (p : α × β) [h : Lies file p] : Lies file p.2 := h.snd

instance (l : List α) (p : α → Bool) [h : Lies file l] : Lies file (l.find? p) :=
  ⟨fun a ha => h.isIn a (List.mem_of_find?_eq_some ha)⟩

instance (l : List α) (p : α → Bool) [h : Lies file l] : Lies file (l.filter p) :=
  ⟨fun a ha => h.isIn a (List.mem_of_mem_filter ha)⟩

instance (l : List α) (i : Nat) [h : Lies file l] : Lies file l[i]? :=
  ⟨fun a ha => h.isIn a (List.mem_of_getElem? ha)⟩

instance [BEq α] [LawfulBEq α] (l : List (α × β)) (a : α) [h : Lies file l] :
    Lies file (l.lookup a) := by
  constructor
  intro b hb
  obtain ⟨front, rest, rfl, -⟩ := List.lookup_eq_some_iff.1 hb
  exact (h.isIn (a, b) (by simp)).2

instance (l : List α) [h : Lies file l] : Lies file l.reverse :=
  ⟨fun a ha => h.isIn a (List.mem_reverse.1 ha)⟩

instance (l : List α) (f : α → β) [h : Lies file l] [hf : ∀ a : Inside file α, Lies file (f a.val)] :
    Lies file (l.map f) :=
  ⟨List.forall_mem_map.2 fun a ha => (hf ⟨a, h.isIn a ha⟩).isIn⟩

instance (l : List α) (f : α → List β) [h : Lies file l]
    [hf : ∀ a : Inside file α, Lies file (f a.val)] : Lies file (l.flatMap f) := by
  constructor
  intro b hb
  obtain ⟨a, ha, hb⟩ := List.mem_flatMap.1 hb
  exact (hf ⟨a, h.isIn a ha⟩).isIn b hb

instance (l : List α) (f : α → Option β) [h : Lies file l]
    [hf : ∀ a : Inside file α, Lies file (f a.val)] : Lies file (l.filterMap f) := by
  constructor
  intro b hb
  obtain ⟨a, ha, hb⟩ := List.mem_filterMap.1 hb
  exact (hf ⟨a, h.isIn a ha⟩).isIn b hb

instance (l : List α) (f : β → α → β) (b : β) [hl : Lies file l] [hb : Lies file b]
    [hf : ∀ (b : Inside file β) (a : Inside file α), Lies file (f b.val a.val)] :
    Lies file (l.foldl f b) := by
  obtain ⟨hl⟩ := hl
  induction l generalizing b with
  | nil => exact hb
  | cons a rest ih =>
    obtain ⟨ha, hrest⟩ := List.forall_mem_cons.1 hl
    have := hf ⟨b, hb.isIn⟩ ⟨a, ha⟩
    exact ih (f b a) hrest

instance (a : Option α) (b : α) [ha : Lies file a] [hb : Lies file b] : Lies file (a.getD b) := by
  cases a with
  | none => exact hb
  | some a => exact ha.of_some

instance (a : Option α) [h : Lies file a] : Lies file a.toList :=
  ⟨fun b hb => h.isIn b (Option.mem_toList.1 hb)⟩

instance (a : Option α) (f : α → β) [h : Lies file a] [hf : ∀ a : Inside file α, Lies file (f a.val)] :
    Lies file (a.map f) :=
  ⟨fun _ hb => let ⟨a, ha, hb⟩ := Option.mem_map.1 hb
    hb ▸ (hf ⟨a, h.isIn a ha⟩).isIn⟩

end

/-! ## The model -/

instance : Located MemberKey := .spanless _
instance : Located RelKind := .spanless _
instance : Located Multiplicity := .spanless _
instance : Located Constraint := .spanless _
instance : Located ModelNote := .spanless _
instance : Located Outcome := .spanless _
instance : Located Resolution := .spanless _

instance : Spanless MemberKey := ⟨fun _ _ => trivial⟩
instance : Spanless RelKind := ⟨fun _ _ => trivial⟩
instance : Spanless Multiplicity := ⟨fun _ _ => trivial⟩
instance : Spanless Constraint := ⟨fun _ _ => trivial⟩
instance : Spanless ModelNote := ⟨fun _ _ => trivial⟩
instance : Spanless Outcome := ⟨fun _ _ => trivial⟩
instance : Spanless Resolution := ⟨fun _ _ => trivial⟩

instance (p : Param) [h : Lies file p] : Lies file p.type? := ⟨h.isIn.2.1⟩

instance (p : Param) [h : Lies file p] : Lies file p.mult := ⟨h.isIn.2.2⟩

instance : Located EntityParam := ⟨fun file p => IsIn file p.type?⟩

instance (name typeText mult : Bytes) (t : Option TypeExpr) [h : Lies file t] :
    Lies file (EntityParam.mk name t typeText mult) := ⟨h.isIn⟩

instance (p : EntityParam) [h : Lies file p] : Lies file p.type? := ⟨h.isIn⟩

instance : Located EntityMember :=
  ⟨fun file m => IsIn file m.span ∧ IsIn file m.type? ∧ IsIn file m.params⟩

section

variable (m : EntityMember) [h : Lies file m]

instance : Lies file m.span := ⟨h.isIn.1⟩

instance : Lies file m.type? := ⟨h.isIn.2.1⟩

instance : Lies file m.params := ⟨h.isIn.2.2⟩

end

instance (name typeText label doc : Bytes) (kind : MemberKind) (visibility : Visibility)
    (modifiers : Modifiers) (t : Option TypeExpr) (mult : RawMult) (params : List EntityParam)
    (operator? : Option Kind) (constraints : List InlineConstraint) (span : Span)
    [hspan : Lies file span] [ht : Lies file t] [hparams : Lies file params] :
    Lies file (EntityMember.mk name kind visibility modifiers t typeText mult params operator? label doc
      constraints span) :=
  ⟨hspan.isIn, ht.isIn, hparams.isIn⟩

instance (m : Member) [Lies file m] : Lies file (EntityMember.ofMember m) := by
  unfold EntityMember.ofMember; infer_instance

instance : Located Entity := ⟨fun file e => IsIn file e.span ∧ IsIn file e.members⟩

section

variable (e : Entity) [h : Lies file e]

instance : Lies file e.span := ⟨h.isIn.1⟩

instance : Lies file e.members := ⟨h.isIn.2⟩

end

instance (id : Nat) (fqn name ns doc : Bytes) (kind : EntityKind) (modifiers : Modifiers)
    (isImplicit : Bool) (typeParams : List Bytes) (members : List EntityMember) (span : Span)
    [hspan : Lies file span] [hmembers : Lies file members] :
    Lies file (Entity.mk id fqn name kind modifiers isImplicit ns typeParams members doc span) :=
  ⟨hspan.isIn, hmembers.isIn⟩

instance (e : Entity) (literals : List Bytes) (span : Span) [Lies file e] [Lies file span] :
    Lies file (e.addLiterals literals span) := by
  unfold Entity.addLiterals; infer_instance

instance : Located Hints := ⟨fun file h => IsIn file h.span⟩

instance (modifiers : Modifiers) (kind? : Option EntityKind) (literals : List Bytes) (span : Span)
    [h : Lies file span] : Lies file (Hints.mk modifiers kind? literals span) := ⟨h.isIn⟩

instance (h : Hints) [hh : Lies file h] : Lies file h.span := ⟨hh.isIn⟩

instance : Located Table := ⟨fun file t => IsIn file t.entities ∧ IsIn file t.namespaces⟩

instance (entities : List Entity) (numbers : List (Bytes × Nat)) (namespaces : List (Bytes × Span))
    (order : List Bytes) [h : Lies file entities] [h' : Lies file namespaces] :
    Lies file (Table.mk entities numbers namespaces order) := ⟨h.isIn, h'.isIn⟩

namespace Table

variable (t : Table) [h : Lies file t]

instance : Lies file t.entities := ⟨h.isIn.1⟩

instance : Lies file t.namespaces := ⟨h.isIn.2⟩

instance (id : Nat) : Lies file (t.get? id) := by
  cases id with
  | zero => exact inferInstanceAs (Lies file none)
  | succ n => exact inferInstanceAs (Lies file t.entities[n]?)

instance (fqn : Bytes) : Lies file (t.lookup? fqn) := by
  unfold lookup?
  cases t.numbers.lookup fqn with
  | none => exact inferInstanceAs (Lies file none)
  | some id => exact inferInstanceAs (Lies file (t.get? id))

instance (fqn : Bytes) : Lies file (t.namespaceSpan? fqn) := by unfold namespaceSpan?; infer_instance

instance (e : Entity) [Lies file e] : Lies file (t.replace e) := by unfold replace; infer_instance

instance (e : Entity) [Lies file e] : Lies file (t.append e) := by unfold append; infer_instance

instance (e : Entity) [Lies file e] : Lies file (t.registerExplicit e) := by
  unfold registerExplicit
  extract_lets named declared
  have : Lies file named := inferInstanceAs (Lies file (if e.name.isEmpty then _ else e))
  have : Lies file declared := inferInstanceAs (Lies file { named with isImplicit := false })
  split
  · have happend : Lies file (t.append declared) := inferInstance
    have := happend.fst
    have := happend.snd
    exact inferInstanceAs (Lies file ((t.append declared).1, (t.append declared).2, Outcome.registered))
  · next old hold =>
    have : Lies file old := Lies.of_some (hold ▸ inferInstance)
    infer_instance

instance (fqn : Bytes) (hints : Hints) [Lies file hints] : Lies file (t.registerImplicit fqn hints) := by
  unfold registerImplicit
  split
  · next old hold =>
    have : Lies file old := Lies.of_some (hold ▸ inferInstance)
    infer_instance
  · infer_instance

instance (span : Span) (fqn : Bytes) [Lies file span] : Lies file (t.addNamespace span fqn) := by
  unfold addNamespace; infer_instance

instance (span : Span) (scopes : List Bytes) [Lies file span] : Lies file (t.addScopes span scopes) := by
  induction scopes with
  | nil => exact h
  | cons ns outer ih => unfold addScopes; infer_instance

instance (fqn : Bytes) (span : Span) [Lies file span] : Lies file (t.registerNamespace fqn span).1 := by
  unfold registerNamespace
  split
  · exact h
  · exact inferInstanceAs (Lies file (t.addScopes span (FullName.scopes fqn)))

end Table

instance : Located Relationship := ⟨fun file r => IsIn file r.span⟩

instance (source target label role associationClass : Bytes) (kind : RelKind)
    (navigable toPackage : Bool) (sourceMult targetMult : Option Multiplicity)
    (constraints : List Bytes) (origin : Origin) (span : Span) [h : Lies file span] :
    Lies file (Relationship.mk source target kind navigable sourceMult targetMult label role constraints
      associationClass toPackage origin span) := ⟨h.isIn⟩

instance (r : Relationship) [h : Lies file r] : Lies file r.span := ⟨h.isIn⟩

instance : Located ConfigItem := ⟨fun file item => IsIn file item.span⟩

instance (key value : Bytes) (kind : ValueKind) (span : Span) [h : Lies file span] :
    Lies file (ConfigItem.mk key kind value span) := ⟨h.isIn⟩

instance (item : ConfigItem) [h : Lies file item] : Lies file item.span := ⟨h.isIn⟩

instance : Located End where
  IsIn file
    | .entity e => IsIn file e
    | .package _ => True

instance (e : Entity) [h : Lies file e] : Lies file (End.entity e) := ⟨h.isIn⟩

instance (fqn : Bytes) : Lies file (End.package fqn) := ⟨trivial⟩

instance (e : End) [h : Lies file e] : Lies file e.entity? := by
  cases e with
  | entity e =>
    have : Lies file e := ⟨h.isIn⟩
    exact inferInstanceAs (Lies file (some e))
  | package fqn => exact inferInstanceAs (Lies file none)

instance : Located Session :=
  ⟨fun file s => IsIn file s.table ∧ IsIn file s.relationships ∧ IsIn file s.config
    ∧ IsIn file s.seen ∧ IsIn file s.findings⟩

section

variable (s : Session) [h : Lies file s]

instance : Lies file s.table := ⟨h.isIn.1⟩

instance : Lies file s.relationships := ⟨h.isIn.2.1⟩

instance : Lies file s.config := ⟨h.isIn.2.2.1⟩

instance : Lies file s.seen := ⟨h.isIn.2.2.2.1⟩

instance : Lies file s.findings := ⟨h.isIn.2.2.2.2⟩

end

instance (table : Table) (relationships : List Relationship) (constraints : List Constraint)
    (notes : List ModelNote) (config : List ConfigItem) (declared : List (Nat × Nat))
    (seen : List (Nat × List (MemberKey × Span))) (findings : Array Diagnostic)
    [htable : Lies file table] [hrelationships : Lies file relationships] [hconfig : Lies file config]
    [hseen : Lies file seen] [hfindings : Lies file findings] :
    Lies file (Session.mk table relationships constraints notes config declared seen findings) :=
  ⟨htable.isIn, hrelationships.isIn, hconfig.isIn, hseen.isIn, hfindings.isIn⟩

/-! ## Traversals -/

namespace KeepsTo

variable {α β σ : Type} [Located α] [Located β] [Located σ]

instance (l : List α) (f : α → StateM σ Unit) [hl : Lies file l]
    [hf : ∀ a : Inside file α, KeepsTo file (f a.val)] : KeepsTo file (l.forM f) := by
  obtain ⟨hl⟩ := hl
  induction l with
  | nil => exact inferInstanceAs (KeepsTo file (pure ()))
  | cons a rest ih =>
    obtain ⟨ha, hrest⟩ := List.forall_mem_cons.1 hl
    exact bind (hf ⟨a, ha⟩) fun _ => ih hrest

instance (l : List α) (f : α → StateM σ β) [hl : Lies file l]
    [hf : ∀ a : Inside file α, KeepsTo file (f a.val)] : KeepsTo file (l.mapM f) := by
  obtain ⟨hl⟩ := hl
  induction l with
  | nil => exact inferInstanceAs (KeepsTo file (pure []))
  | cons a rest ih =>
    obtain ⟨ha, hrest⟩ := List.forall_mem_cons.1 hl
    have := hf ⟨a, ha⟩
    have := ih hrest
    rw [List.mapM_cons]
    infer_instance

instance : Located (ForInStep β) := ⟨fun file r => match r with | .yield b | .done b => IsIn file b⟩

instance (b : β) [h : Lies file b] : Lies file (ForInStep.yield b) := ⟨h.isIn⟩

instance (l : List α) (b : β) (f : α → β → StateM σ (ForInStep β)) [hl : Lies file l]
    [hb : Lies file b] [hf : ∀ (a : Inside file α) (b : Inside file β), KeepsTo file (f a.val b.val)] :
    KeepsTo file (forIn l b f : StateM σ β) := by
  obtain ⟨hl⟩ := hl
  induction l generalizing b with
  | nil => exact inferInstanceAs (KeepsTo file (pure b))
  | cons a rest ih =>
    obtain ⟨ha, hrest⟩ := List.forall_mem_cons.1 hl
    rw [List.forIn_cons]
    refine bind (hf ⟨a, ha⟩ ⟨b, hb.isIn⟩) fun ⟨r, hr⟩ => ?_
    cases r with
    | done b =>
      have : Lies file b := ⟨hr⟩
      exact inferInstanceAs (KeepsTo file (pure b))
    | yield b =>
      have : Lies file b := ⟨hr⟩
      exact ih b hrest

end KeepsTo

namespace Analyze

set_option synthInstance.maxSize 1000000000

instance (d : Diagnostic) [Lies file d] : KeepsTo file (report d) := by
  unfold report; infer_instance

section

variable (code : Code) (span : Span) (message : Bytes) (notes : List Note) [Lies file span]
  [Lies file notes]

instance : KeepsTo file (error code span message notes) := by unfold error; infer_instance

instance : KeepsTo file (warning code span message notes) := by unfold warning; infer_instance

end

variable (name ns : Bytes) (span : Span) [Lies file span]

instance (r : Resolution) : KeepsTo file (warnAmbiguous name r span) := by
  unfold warnAmbiguous; infer_instance

instance (h : Hints) [Lies file h] : KeepsTo file (resolveEnd name ns h span) := by
  refine .bind inferInstance fun s => .bind inferInstance fun _ => ?_
  split
  · infer_instance
  · extract_lets hints
    have : Lies file hints := inferInstanceAs (Lies file (if h.span = {} then { h with span } else h))
    have hregister : Lies file
        (s.val.table.registerImplicit (s.val.table.resolve name ns).fqn hints) := inferInstance
    generalize s.val.table.registerImplicit (s.val.table.resolve name ns).fqn hints = found
      at hregister
    obtain ⟨table, e⟩ := found
    have := hregister.fst
    have := hregister.snd
    infer_instance

instance : KeepsTo file (lookupReference name ns span) := by unfold lookupReference; infer_instance

instance (m : RawMult) [Lies file m] : KeepsTo file (readMult m) := by
  refine .ite inferInstance ?_
  split <;> infer_instance

instance (r : Relationship) [Lies file r] : KeepsTo file (addRelationship r) := by
  unfold addRelationship; infer_instance

instance (c : Constraint) : KeepsTo file (addConstraint c) := by unfold addConstraint; infer_instance

instance (id : Nat) (e : Entity) (nameSpan : Span) [Lies file e] [Lies file nameSpan] :
    KeepsTo file (declare id e nameSpan) := by
  refine .bind inferInstance fun s => ?_
  split
  · next place hplace =>
    have : Lies file place := Lies.of_some (hplace ▸ inferInstance)
    infer_instance
  · refine .bind inferInstance fun s => ?_
    have hregister : Lies file (s.val.table.registerExplicit e) := inferInstance
    generalize s.val.table.registerExplicit e = found at hregister
    obtain ⟨table, kept, outcome⟩ := found
    have := hregister.fst
    have := hregister.snd.fst
    infer_instance

theorem lies_of_decl {tag : Tag} {d : Decl} (h : Lies file (Statement.decl tag d)) :
    Lies file tag ∧ Lies file d := by
  obtain ⟨h⟩ := h
  cases h with
  | decl htag hd => exact ⟨⟨htag⟩, ⟨hd⟩⟩

instance (s : Statement) [h : Lies file s] : KeepsTo file (declareStatement ns s) := by
  unfold declareStatement
  split
  · next tag e =>
    obtain ⟨_, hd⟩ := lies_of_decl h
    have : Lies file e := ⟨hd.isIn⟩
    infer_instance
  · next tag a =>
    obtain ⟨_, hd⟩ := lies_of_decl h
    have : Lies file a := ⟨hd.isIn⟩
    infer_instance
  · infer_instance

instance (s : Statement) [h : Lies file s] : KeepsTo file (registerPackage ns s) := by
  unfold registerPackage
  split
  · next tag name nameSpan body =>
    obtain ⟨h⟩ := h
    cases h with
    | package htag hname hbody =>
      have : Lies file nameSpan := ⟨hname⟩
      infer_instance
  · infer_instance

instance (e : Entity) [Lies file e] : Lies file e.literalKeys := by
  unfold Entity.literalKeys; infer_instance

instance (e : Entity) [Lies file e] : KeepsTo file (seenKeys e) := by unfold seenKeys; infer_instance

instance (e : Entity) (m : Member) (first : Span) [Lies file m] [Lies file first] :
    KeepsTo file (reportDuplicate e m first) := by
  unfold reportDuplicate
  split
  all_goals infer_instance

instance (id : Nat) (m : Member) [Lies file m] : KeepsTo file (addMember id m) := by
  refine .bind inferInstance fun s => ?_
  split
  · next e he =>
    have : Lies file e := Lies.of_some (he ▸ inferInstance)
    refine .bind inferInstance fun keys => ?_
    split
    · next first hfirst =>
      have : Lies file first := Lies.of_some (hfirst ▸ inferInstance)
      infer_instance
    · infer_instance
  · infer_instance

instance (id : Nat) (ms : List Member) [Lies file ms] : KeepsTo file (addMembers id ms) := by
  unfold addMembers; infer_instance

instance (tag : Tag) (ms : List Member) [Lies file ms] : KeepsTo file (defineStatement.addTo tag ms) := by
  refine .bind inferInstance fun s => ?_
  split <;> infer_instance

instance (s : Statement) [h : Lies file s] : KeepsTo file (defineStatement s) := by
  unfold defineStatement
  split
  · next tag e =>
    have : Lies file e := ⟨(lies_of_decl h).2.isIn⟩
    infer_instance
  · next tag a =>
    have : Lies file a := ⟨(lies_of_decl h).2.isIn⟩
    infer_instance
  · infer_instance

/-! ## References -/

instance (op : Kind) (source : Option Entity) (target : Endpoint) [Lies file target] :
    Lies file (targetHints op source target) := by
  unfold targetHints; infer_instance

instance (source target : End) (l : Link) (origin : Origin) [Lies file l] :
    KeepsTo file (link source target l origin) := by
  unfold link
  split
  · infer_instance
  · infer_instance

instance (source : Entity) (headers : List Link) [Lies file headers] :
    KeepsTo file (resolveHeaders ns source headers) := by
  unfold resolveHeaders; infer_instance

instance (source : End) (links : List Link) [hlinks : Lies file links] :
    KeepsTo file (resolveLinks ns source links) := by
  obtain ⟨hlinks⟩ := hlinks
  induction links generalizing source with
  | nil => unfold resolveLinks; infer_instance
  | cons l rest ih =>
    obtain ⟨hl, hrest⟩ := List.forall_mem_cons.1 hlinks
    have : Lies file l := ⟨hl⟩
    have (target : End) := ih target hrest
    refine .ite (.bind inferInstance fun target => .bind inferInstance fun _ => ?_) inferInstance
    split <;> infer_instance

instance (head : Endpoint) (links : List Link) [Lies file head] [Lies file links] :
    KeepsTo file (resolveChain ns head links) := by
  unfold resolveChain; infer_instance

instance (tag : Tag) (a : AssociationDecl) [Lies file tag] [Lies file a] :
    KeepsTo file (resolveAssociation ns tag a) := by
  refine .ite inferInstance (.bind inferInstance fun left => .bind inferInstance fun right => ?_)
  refine .ite inferInstance ?_
  split
  refine .ite inferInstance ?_
  infer_instance

instance (kind : Bytes) (r : ConstraintRef) [Lies file r] :
    KeepsTo file (constraintTarget ns kind r) := by
  refine .bind inferInstance fun found => ?_
  split <;> infer_instance

instance (c : ConstraintDecl) [Lies file c] : KeepsTo file (resolveConstraint ns span c) := by
  unfold resolveConstraint; infer_instance

instance (a : Anchor) [Lies file a] : KeepsTo file (noteAnchor? ns a) := by
  refine .bind inferInstance fun found => ?_
  split
  · infer_instance
  · refine .bind inferInstance fun s => ?_
    split <;> infer_instance

instance (text : Bytes) (anchors : List Anchor) [Lies file anchors] :
    KeepsTo file (resolveNote ns span text anchors) := by
  unfold resolveNote; infer_instance

instance (e : ConfigEntry) [Lies file e] : KeepsTo file (collectEntry e) := by
  refine .ite (.bind inferInstance fun s => ?_) inferInstance
  split
  · next first hfirst =>
    have : Lies file first := Lies.of_some (hfirst ▸ inferInstance)
    infer_instance
  · infer_instance

instance (s : Statement) [h : Lies file s] : KeepsTo file (resolveStatement ns s) := by
  cases s with
  | package tag name nameSpan body => unfold resolveStatement; infer_instance
  | decl tag d =>
    obtain ⟨_, hd⟩ := lies_of_decl h
    unfold resolveStatement
    cases d with
    | entity e =>
      have : Lies file e := ⟨hd.isIn⟩
      refine .bind inferInstance fun s => ?_
      split <;> infer_instance
    | relationship head links =>
      have : Lies file head := ⟨hd.isIn.1⟩
      have : Lies file links := ⟨hd.isIn.2⟩
      infer_instance
    | association a =>
      have : Lies file a := ⟨hd.isIn⟩
      infer_instance
    | constraint c =>
      have : Lies file c := ⟨hd.isIn⟩
      infer_instance
    | note text anchors =>
      have : Lies file anchors := ⟨hd.isIn⟩
      infer_instance
    | config entries =>
      have : Lies file entries := ⟨hd.isIn⟩
      infer_instance
    | comment text isDoc => infer_instance

end Analyze

/-! ## What types mean -/

instance : Located TypeLink := ⟨fun file l => IsIn file l.hints⟩

instance (target label : Bytes) (kind : RelKind) (mult : Option Multiplicity) (registerOnly : Bool)
    (hints : Hints) [h : Lies file hints] :
    Lies file (TypeLink.mk target kind mult label registerOnly hints) := ⟨h.isIn⟩

instance (l : TypeLink) [h : Lies file l] : Lies file l.hints := ⟨h.isIn⟩

instance : Located TypeMeaning := ⟨fun file m => IsIn file m.links⟩

instance (isValue isExclusive : Bool) (links : List TypeLink) [h : Lies file links] :
    Lies file (TypeMeaning.mk isValue links isExclusive) := ⟨h.isIn⟩

instance (m : TypeMeaning) [h : Lies file m] : Lies file m.links := ⟨h.isIn⟩

instance : Lies file TypeMeaning.value := inferInstanceAs (Lies file (TypeMeaning.mk true [] false))

instance (m : TypeMeaning) (kind : RelKind) (mult : Multiplicity) [Lies file m] :
    Lies file (m.collect kind mult) := by
  unfold TypeMeaning.collect; infer_instance

instance (label : Bytes) (m : TypeMeaning) [Lies file m] : Lies file (TypeScript.dependOn label m) := by
  unfold TypeScript.dependOn; infer_instance

/-- The strategy gives a meaning that lies in the file to a type that does, if the nested types have
such meanings. -/
class Strategy.KeepsTo (file : File) (s : Strategy) : Prop where
  lies : ∀ scope nested t, (∀ u, Lies file u → Lies file (nested u)) → Lies file t →
    Lies file (s.meaning? scope nested t)

namespace Strategy

instance : primitive.KeepsTo file := by
  constructor
  intro scope nested t hnested ht
  unfold primitive
  dsimp only
  split <;> infer_instance

instance : array.KeepsTo file := by
  constructor
  intro scope nested t hnested ht
  unfold array
  dsimp only
  split
  · next node base =>
    obtain ⟨ht⟩ := ht
    cases ht with
    | array hnode hbase =>
      have := hnested base ⟨hbase⟩
      infer_instance
  · infer_instance

instance (links : List TypeLink) [Lies file links] : Lies file (alternatives links) := by
  unfold alternatives; infer_instance

instance : fallback.KeepsTo file := by
  constructor
  intro scope nested t hnested ht
  unfold fallback
  dsimp only
  split
  · next node ts piped =>
    obtain ⟨ht⟩ := ht
    cases ht with
    | union hnode hts =>
      have : Lies file ts := ⟨hts⟩
      have (u : Inside file TypeExpr) := hnested u.val inferInstance
      infer_instance
  · next node base literals =>
    obtain ⟨ht⟩ := ht
    cases ht with
    | enumerated hnode hbase =>
      have : Lies file node.span := ⟨hnode⟩
      infer_instance
  · infer_instance

theorem lies_of_generic? {t : TypeExpr} {head : Bytes} {first : TypeExpr} {others : List TypeExpr}
    (h : generic? t = some (head, first, others)) (ht : Lies file t) :
    Lies file first ∧ Lies file others := by
  unfold generic? at h
  split at h
  · obtain ⟨-, rfl, rfl⟩ := h
    obtain ⟨ht⟩ := ht
    cases ht with
    | generic hnode hbase hargs =>
      obtain ⟨hfirst, hothers⟩ := List.forall_mem_cons.1 hargs
      exact ⟨⟨hfirst⟩, ⟨hothers⟩⟩
  · cases h

instance (l : List TypeExpr) (t : TypeExpr) [hl : Lies file l] [ht : Lies file t] :
    Lies file (l.getLastD t) := by
  rw [List.getLastD_eq_getLast?]
  have : Lies file l.getLast? := ⟨fun a ha => hl.isIn a (List.mem_of_getLast? ha)⟩
  infer_instance

instance : Java.strategy.KeepsTo file := by
  constructor
  intro scope nested t hnested ht
  unfold Java.strategy
  dsimp only
  cases hgeneric : generic? t with
  | none => exact inferInstanceAs (Lies file none)
  | some parts =>
    obtain ⟨head, first, others⟩ := parts
    obtain ⟨_, _⟩ := lies_of_generic? hgeneric ht
    have := hnested first inferInstance
    have := hnested (others.getLastD first) inferInstance
    simp only [Option.bind_eq_bind, Option.bind_some]
    infer_instance

instance : TypeScript.strategy.KeepsTo file := by
  constructor
  intro scope nested t hnested ht
  unfold TypeScript.strategy
  dsimp only
  cases hgeneric : generic? t with
  | none => exact inferInstanceAs (Lies file none)
  | some parts =>
    obtain ⟨head, first, others⟩ := parts
    obtain ⟨_, _⟩ := lies_of_generic? hgeneric ht
    have := hnested first inferInstance
    have := hnested (others.getLastD first) inferInstance
    simp only [Option.bind_eq_bind, Option.bind_some]
    infer_instance

end Strategy

/-- The strategies of a language keep to the file. -/
class Typing.KeepsTo (file : File) (t : Typing) : Prop where
  extra : ∀ s ∈ t.extra, s.KeepsTo file

theorem Typing.findSome?_lies {strategies : List Strategy} (h : ∀ s ∈ strategies, s.KeepsTo file)
    (scope : TypeScope) {nested : TypeExpr → TypeMeaning} {t : TypeExpr}
    (hnested : ∀ u, Lies file u → Lies file (nested u)) (ht : Lies file t) :
    Lies file (strategies.findSome? fun s => s.meaning? scope nested t) := by
  constructor
  intro m hm
  obtain ⟨s, hs, hm⟩ := List.exists_of_findSome?_eq_some hm
  exact ((h s hs).lies scope nested t hnested ht).isIn m hm

instance (typing : Typing) (scope : TypeScope) (depth : Nat) (t : TypeExpr) [ht : typing.KeepsTo file]
    [h : Lies file t] : Lies file (typing.meaningWithin scope depth t) := by
  have hall : ∀ s ∈ typing.strategies, s.KeepsTo file := by
    intro s hs
    simp only [Typing.strategies, List.cons_append, List.mem_cons, List.mem_append, List.not_mem_nil,
      or_false] at hs
    rcases hs with rfl | hs | rfl | rfl
    · infer_instance
    · exact ht.extra s hs
    · infer_instance
    · infer_instance
  induction depth generalizing t with
  | zero => exact inferInstanceAs (Lies file TypeMeaning.value)
  | succ depth ih =>
    have := Typing.findSome?_lies hall scope (fun u hu => ih u) h
    exact inferInstanceAs (Lies file (Option.getD _ _))

instance (typing : Typing) (params : List Bytes) (t : TypeExpr) [typing.KeepsTo file] [Lies file t] :
    Lies file (typing.meaning params t) := by
  unfold Typing.meaning; infer_instance

namespace Analyze

set_option synthInstance.maxSize 1000000000

variable (typing : Typing) [typing.KeepsTo file]

instance (e : Entity) (m : EntityMember) (l : TypeLink) [Lies file m] [Lies file l] :
    KeepsTo file (inferLink e m l) := by
  refine .ite inferInstance (.ite inferInstance ?_)
  split
  infer_instance

instance (e : Entity) (m : EntityMember) (t : TypeExpr) [Lies file m] [Lies file t] :
    KeepsTo file (inferType typing e m t) := by
  unfold inferType; infer_instance

instance (m : EntityMember) [Lies file m] : Lies file (inferableTypes m) := by
  unfold inferableTypes
  split
  all_goals infer_instance

instance (e : Entity) [Lies file e] : KeepsTo file (inferEntity typing e) := by
  unfold inferEntity; infer_instance

instance (n i : Nat) : KeepsTo file (inferFrom typing n i) := by
  induction n generalizing i with
  | zero => unfold inferFrom; infer_instance
  | succ n ih =>
    refine .bind inferInstance fun s => ?_
    split
    · next e he =>
      have : Lies file e := Lies.of_some (he ▸ inferInstance)
      infer_instance
    · infer_instance

instance : KeepsTo file (infer typing) := by unfold infer; infer_instance

end Analyze

/-! ## Checks -/

instance : Located Cycle.Edge := ⟨fun file e => IsIn file e.span⟩

instance (target : Nat) (span : Span) [h : Lies file span] : Lies file (Cycle.Edge.mk target span) :=
  ⟨h.isIn⟩

instance : Located Cycle.Found := ⟨fun file c => IsIn file c.span⟩

instance (nodes : List Nat) (span : Span) [h : Lies file span] : Lies file (Cycle.Found.mk nodes span) :=
  ⟨h.isIn⟩

instance : Located Cycle.Walk := ⟨fun file w => IsIn file w.found⟩

namespace Cycle

instance (e : Edge) [h : Lies file e] : Lies file e.span := ⟨h.isIn⟩

instance (c : Found) [h : Lies file c] : Lies file c.span := ⟨h.isIn⟩

instance (w : Walk) [h : Lies file w] : Lies file w.found := ⟨h.isIn⟩

instance (colors : List Color) (stack : List Frame) (found : List Found) [h : Lies file found] :
    Lies file (Walk.mk colors stack found) := ⟨h.isIn⟩

instance (w : Walk) (n : Nat) [Lies file w] : Lies file (w.enter n) := by
  unfold Walk.enter; infer_instance

variable (label : List Nat → Bytes) (edges : Nat → List Edge) [hedges : ∀ n, Lies file (edges n)]

instance (found : List Found) (nodes : List Nat) (span : Span) [Lies file found] [Lies file span] :
    Lies file (tell label found nodes span) := by
  unfold tell; infer_instance

instance (w : Walk) [Lies file w] : Lies file (w.step? label edges) := by
  unfold Walk.step?
  split
  · infer_instance
  · next top below _ =>
    split
    · infer_instance
    · next e he =>
      have : Lies file e := ⟨(hedges top.node).isIn e (List.mem_of_getElem? he)⟩
      split <;> infer_instance

instance (fuel : Nat) (w : Walk) [hw : Lies file w] : Lies file (w.runWithin label edges fuel) := by
  induction fuel generalizing w with
  | zero => exact hw
  | succ fuel ih =>
    unfold Walk.runWithin
    split
    · exact hw
    · next w' hstep =>
      have : Lies file w' := Lies.of_some (hstep ▸ inferInstance)
      exact ih w'

instance (count : Nat) : Lies file (search label edges count) := by unfold search; infer_instance

end Cycle

namespace Analyze

variable (t : Table) [Lies file t] (r : Relationship) [Lies file r] (rs : List Relationship)
  [Lies file rs]

instance : Lies file (target? t r) := by unfold target?; infer_instance

instance : Lies file (checkRealization t r) := by
  unfold checkRealization
  split <;> infer_instance

instance : Lies file (checkComposition r) := by
  unfold checkComposition
  split <;> infer_instance

instance (source target : Entity) [Lies file target] : Lies file (checkParent r source target) := by
  unfold checkParent; infer_instance

instance : Lies file (checkInheritance t r) := by
  unfold checkInheritance
  split
  · next source target hsource htarget =>
    have : Lies file target := Lies.of_some (htarget ▸ inferInstance)
    infer_instance
  · infer_instance

instance : Lies file (checkRelationship t r) := by
  unfold checkRelationship
  split <;> infer_instance

instance : Lies file (inheritanceEdges t rs) := by
  unfold inheritanceEdges
  have (r : Inside file Relationship) : Lies file
      (match entityIndex? t r.val.source, entityIndex? t r.val.target with
        | some source, some target => some (source, Cycle.Edge.mk target r.val.span)
        | _, _ => none) := by
    split <;> infer_instance
  infer_instance

instance (edges : List (Nat × Cycle.Edge)) (node : Nat) [Lies file edges] :
    Lies file (edgesFrom edges node) := by
  unfold edgesFrom; infer_instance

instance : Lies file (checkCycles t rs) := by unfold checkCycles; infer_instance

instance : KeepsTo file validate := by unfold validate; infer_instance

end Analyze

/-! ## Passes -/

mutual
theorem Statement.visits_lie (ns : Bytes) : (s : Statement) → Lies file s → Lies file (s.visits ns)
  | .decl tag d, h => by
    unfold Statement.visits
    infer_instance
  | .package tag name nameSpan body, h => by
    have hbody : Lies file body := by
      obtain ⟨h⟩ := h
      cases h with
      | package htag hname hbody => exact ⟨hbody⟩
    have := Statement.visitsOf_lie (FullName.join ns name) body hbody
    unfold Statement.visits
    infer_instance

theorem Statement.visitsOf_lie (ns : Bytes) : (l : List Statement) → Lies file l →
    Lies file (Statement.visitsOf ns l)
  | [], _ => by
    unfold Statement.visitsOf
    infer_instance
  | s :: rest, h => by
    obtain ⟨hs, hrest⟩ := List.forall_mem_cons.1 h.isIn
    have := Statement.visits_lie ns s ⟨hs⟩
    have := Statement.visitsOf_lie ns rest ⟨hrest⟩
    unfold Statement.visitsOf
    infer_instance
end

instance (p : Program) [h : Lies file p] : Lies file p.visits :=
  Statement.visitsOf_lie [] p.statements ⟨h.isIn⟩

namespace Analyze

instance visits_keepTo (p : Program) [Lies file p] (f : Bytes → Statement → Analyze Unit)
    [h : ∀ ns (s : Inside file Statement), KeepsTo file (f ns s.val)] :
    KeepsTo file (p.visits.forM fun (ns, s) => f ns s) := by
  have (v : Inside file (Bytes × Statement)) : KeepsTo file (f v.val.1 v.val.2) :=
    h v.val.1 ⟨v.val.2, v.isIn.2⟩
  exact inferInstanceAs (KeepsTo file (p.visits.forM fun v => f v.1 v.2))

variable (p : Program) [Lies file p]

instance : KeepsTo file (discover p) := by unfold discover; infer_instance

instance : KeepsTo file (define p) :=
  inferInstanceAs (KeepsTo file (p.visits.forM fun (ns, s) => (fun _ => defineStatement) ns s))

instance : KeepsTo file (resolve p) := by unfold resolve; infer_instance

end Analyze

/-- The analysis of a program that lies in the file lies there too, with all that it reports. -/
theorem analyze_lies (typing : Typing) [typing.KeepsTo file] {p : Program} (h : Lies file p) :
    Lies file (analyze typing p) := by
  have hpasses : KeepsTo file (do
      Analyze.discover p
      Analyze.define p
      Analyze.resolve p
      Analyze.infer typing
      Analyze.validate) := inferInstance
  have hnil {α : Type} [Located α] : IsIn file ([] : List α) := List.forall_mem_nil _
  have hstart : IsIn file ({} : Session) :=
    ⟨⟨hnil, hnil⟩, hnil, hnil, hnil, (inferInstance : Lies file (#[] : Array Diagnostic)).isIn⟩
  exact ⟨(hpasses.run_isIn _ hstart).2⟩

end Uml
