import Mathlib
import Uml.Proofs.Parser.Languages
import Uml.Proofs.Parser.Reports
import Uml.Proofs.Parser.Termination
import Uml.Proofs.Syntax.Forest

/-!
# Laws of declarations

A law says something of entities, relationships and association classes, and may refer to what was
reported by the time they were made. A law that the parsers of these three forms obey holds of all
declarations of a document, at every depth and in every language.
-/
namespace Uml

open Std.Do

set_option mvcgen.warning false

def Reports.Grows (r r' : Reports) : Prop := ∃ ds, r' = r.addAll ds

namespace Reports

@[grind .] theorem Grows.refl (r : Reports) : r.Grows r := ⟨[], rfl⟩

@[grind →] theorem Grows.trans {a b c : Reports} (h : a.Grows b) (h' : b.Grows c) : a.Grows c := by
  obtain ⟨ds, rfl⟩ := h
  obtain ⟨es, rfl⟩ := h'
  exact ⟨ds ++ es, (addAll_append a ds es).symm⟩

theorem maxErrors_add (r : Reports) (d : Diagnostic) : (r.add d).maxErrors = r.maxErrors := by
  unfold add
  split
  · split <;> rfl
  · rfl

theorem Grows.maxErrors {r r' : Reports} (h : r.Grows r') : r'.maxErrors = r.maxErrors := by
  obtain ⟨ds, rfl⟩ := h
  induction ds generalizing r with
  | nil => rfl
  | cons d ds ih => exact ih.trans (maxErrors_add r d)

end Reports

def Decl.IsPlain : Decl → Prop
  | .entity _ | .relationship .. | .association _ => False
  | .constraint _ | .note .. | .config _ | .comment .. => True

/-- A property of declarations that later reports keep. -/
structure Decl.Law where
  Holds : Reports → Decl → Prop
  later : ∀ {r r' d}, r.Grows r' → Holds r d → Holds r' d
  plain : ∀ {d}, d.IsPlain → ∀ r, Holds r d

/-- Every declaration among the statements, at every depth, obeys the law. -/
def Decl.Law.All (L : Decl.Law) (r : Reports) (ss : List Statement) : Prop :=
  ∀ tag d, .decl tag d ∈ Statement.flattenAll ss → L.Holds r d

namespace Decl.Law

variable {L : Decl.Law} {r r' : Reports} {ss ss' : List Statement} {tag : Tag}

@[grind .] theorem holds_constraint (c : ConstraintDecl) : L.Holds r (.constraint c) :=
  L.plain (by trivial) r

@[grind .] theorem holds_note (text : Bytes) (anchors : List Anchor) : L.Holds r (.note text anchors) :=
  L.plain (by trivial) r

@[grind .] theorem holds_config (entries : List ConfigEntry) : L.Holds r (.config entries) :=
  L.plain (by trivial) r

@[grind .] theorem holds_comment (text : Bytes) (isDoc : Bool) : L.Holds r (.comment text isDoc) :=
  L.plain (by trivial) r

@[grind .] theorem All.nil : L.All r [] := by
  intro tag d h
  simp [Statement.flattenAll] at h

@[grind →] theorem All.later (h : L.All r ss) (hr : r.Grows r') : L.All r' ss :=
  fun tag d hd => L.later hr (h tag d hd)

theorem All.append (h : L.All r ss) (h' : L.All r ss') : L.All r (ss ++ ss') := by
  intro tag d hd
  rw [Statement.flattenAll_append] at hd
  rcases List.mem_append.1 hd with hd | hd
  · exact h tag d hd
  · exact h' tag d hd

theorem all_decl {d : Decl} : L.All r [.decl tag d] ↔ L.Holds r d := by
  simp [All, Statement.flatten]

theorem all_package {name : Bytes} {span : Span} :
    L.All r [.package tag name span ss] ↔ L.All r ss := by
  simp [All, Statement.flatten]

theorem All.withDoc {s : Statement} (h : L.All r [s]) (doc : Bytes) :
    L.All r [s.withDoc doc] := by
  unfold Statement.withDoc
  split
  · exact h
  · cases s with
    | decl tag d => exact all_decl.2 (all_decl.1 h)
    | package tag name span body => exact all_package.2 (all_package.1 h)

end Decl.Law

namespace ParseState

/-- A step goes on in the stream and takes no report back. -/
structure Onward (s s' : ParseState) : Prop where
  stream : s.stream.Reaches s'.stream
  reports : s.reports.Grows s'.reports

@[grind .] theorem Onward.refl (s : ParseState) : s.Onward s := ⟨.refl _, .refl _⟩

@[grind →] theorem Onward.trans {a b c : ParseState} (h : a.Onward b) (h' : b.Onward c) :
    a.Onward c :=
  ⟨h.stream.trans h'.stream, h.reports.trans h'.reports⟩

@[grind →] theorem Onward.sound {a b : ParseState} (h : a.Onward b) (ha : a.stream.Sound) :
    b.stream.Sound :=
  (h.stream.sound ha).1

end ParseState

namespace Parse

open ParseState

variable {α : Type}

theorem grows_run (p : Parse α) [IsBlind p] (s : ParseState) :
    s.reports.Grows (p.run s).2.reports := by
  obtain ⟨a, st', ds, -, h⟩ := IsBlind.run_eq (p := p) s
  have hrun := h s.reports
  rw [ParseState.withReports_reports] at hrun
  rw [hrun]
  exact ⟨ds, rfl⟩

theorem onward_spec (p : Parse α) [IsBlind p] (h : Forward p) (s : ParseState) :
    ⦃fun st => ⌜st = s⌝⦄ p ⦃⇓ _ st => ⌜s.Onward st⌝⦄ :=
  triple_iff_run.2 ⟨h s, grows_run p s⟩

@[local spec high] theorem advance_onward (s : ParseState) :
    ⦃fun st => ⌜st = s⌝⦄ advance
    ⦃⇓ t st => ⌜t = s.stream.peek ∧ st.stream = s.stream.next.2 ∧ s.Onward st⌝⦄ :=
  triple_iff_run.2 ⟨Stream.next_fst _, rfl, Stream.reaches_next _, .refl _⟩

@[local spec high] theorem advanceRaw_onward (s : ParseState) :
    ⦃fun st => ⌜st = s⌝⦄ advanceRaw ⦃⇓ _ st => ⌜s.Onward st⌝⦄ :=
  triple_iff_run.2 ⟨Stream.reaches_nextRaw _, .refl _⟩

@[local spec high] theorem reset_onward (x : Stream) (s : ParseState) :
    ⦃fun st => ⌜st = s⌝⦄ reset x
    ⦃⇓ _ st => ⌜st.stream = x ∧ s.reports.Grows st.reports⌝⦄ :=
  triple_iff_run.2 ⟨rfl, .refl _⟩

@[local spec high] theorem report_onward (d : Diagnostic) (s : ParseState) :
    ⦃fun st => ⌜st = s⌝⦄ report d ⦃⇓ _ st => ⌜s.Onward st⌝⦄ :=
  onward_spec (report d) (.of_spec fun s => by mvcgen; grind -linarith) s

@[local spec high] theorem reportFailure_onward (f : Failure) (s : ParseState) :
    ⦃fun st => ⌜st = s⌝⦄ reportFailure f ⦃⇓ _ st => ⌜s.Onward st⌝⦄ :=
  onward_spec (reportFailure f) (.of_spec fun s => by mvcgen; grind -linarith) s

variable {L : Decl.Law}

@[local spec high] theorem newDecl_obeys (span : Span) (d : Decl) (s : ParseState) :
    ⦃fun st => ⌜st = s⌝⦄ newDecl span d
    ⦃⇓ r st => ⌜s.Onward st ∧ ∀ L : Decl.Law, L.Holds s.reports d → L.All st.reports [r]⌝⦄ :=
  triple_iff_run.2 ⟨⟨.refl _, .refl _⟩, fun _ hd => Decl.Law.all_decl.2 hd⟩

/-- A parser of statements that goes on and makes what obeys the law. -/
def Obeys (L : Decl.Law) (p : Parse (Option Statement)) : Prop :=
  ∀ s : ParseState, s.Onward (p.run s).2
    ∧ (s.stream.Sound → L.All (p.run s).2.reports (p.run s).1.toList)

theorem Obeys.spec {p : Parse (Option Statement)} (h : Obeys L p) (s : ParseState) :
    ⦃fun st => ⌜st = s⌝⦄ p
    ⦃⇓ r st => ⌜s.Onward st ∧ (s.stream.Sound → L.All st.reports r.toList)⌝⦄ :=
  triple_iff_run.2 (h s)

theorem Obeys.of_spec {p : Parse (Option Statement)} (h : ∀ s, ⦃fun st => ⌜st = s⌝⦄ p
    ⦃⇓ r st => ⌜s.Onward st ∧ (s.stream.Sound → L.All st.reports r.toList)⌝⦄) : Obeys L p :=
  fun s => triple_iff_run.1 (h s)

/-- The same of a statement form, which may fail. -/
def FormObeys (L : Decl.Law) (p : Parse (Except Failure (Option Statement))) : Prop :=
  ∀ s : ParseState, s.Onward (p.run s).2
    ∧ (s.stream.Sound → L.All (p.run s).2.reports (given Option.toList (p.run s).1))

theorem FormObeys.spec {p : Parse (Except Failure (Option Statement))} (h : FormObeys L p)
    (s : ParseState) :
    ⦃fun st => ⌜st = s⌝⦄ p
    ⦃⇓ r st => ⌜s.Onward st ∧ (s.stream.Sound → L.All st.reports (given Option.toList r))⌝⦄ :=
  triple_iff_run.2 (h s)

theorem FormObeys.of_spec {p : Parse (Except Failure (Option Statement))}
    (h : ∀ s, ⦃fun st => ⌜st = s⌝⦄ p
      ⦃⇓ r st => ⌜s.Onward st ∧ (s.stream.Sound → L.All st.reports (given Option.toList r))⌝⦄) :
    FormObeys L p :=
  fun s => triple_iff_run.1 (h s)

@[local spec high] theorem eat?_onward (k : Kind) (s : ParseState) :
    ⦃fun st => ⌜st = s⌝⦄ eat? k ⦃⇓ _ st => ⌜s.Onward st⌝⦄ :=
  onward_spec (eat? k) (.of_and (eat?_spec k)) s

@[local spec high] theorem path?_onward (s : ParseState) :
    ⦃fun st => ⌜st = s⌝⦄ path? ⦃⇓ _ st => ⌜s.Onward st⌝⦄ :=
  onward_spec path? (.of_and path?_spec) s

@[local spec high] theorem closeBrace_onward (opener : Token) (what : Bytes) (s : ParseState) :
    ⦃fun st => ⌜st = s⌝⦄ closeBrace opener what ⦃⇓ _ st => ⌜s.Onward st⌝⦄ :=
  onward_spec (closeBrace opener what) (.of_spec (closeBrace_spec opener what)) s

@[local spec high] theorem configEntry?_onward (s : ParseState) :
    ⦃fun st => ⌜st = s⌝⦄ configEntry? ⦃⇓ _ st => ⌜s.Onward st⌝⦄ :=
  onward_spec configEntry? (.of_and configEntry?_spec) s

theorem config_obeys : FormObeys L config := by
  have hloop := onward_spec (loop #[] configRound) (.of_spec (loop_reaches configRound_spec _))
  refine .of_spec fun s => ?_
  unfold config
  refine triple_intro fun Q hQ => ?_
  mvcgen [hloop]
  grind -linarith

theorem atConfig_obeys : FormObeys L atConfig := by
  refine .of_spec fun s => ?_
  unfold atConfig
  refine triple_intro fun Q hQ => ?_
  mvcgen <;> grind -linarith

theorem constraint_obeys : FormObeys L constraint := by
  have htargets := fun closer =>
    onward_spec (constraintTargets closer) (.of_spec (constraintTargets_spec closer))
  refine .of_spec fun s => ?_
  unfold constraint
  refine triple_intro fun Q hQ => ?_
  mvcgen [htargets, -constraintTargets_spec] <;> grind -linarith

theorem note_obeys : FormObeys L note := by
  have hanchors := onward_spec noteAnchors (.of_spec noteAnchors_spec)
  refine .of_spec fun s => ?_
  unfold note
  refine triple_intro fun Q hQ => ?_
  mvcgen [hanchors, -noteAnchors_spec] <;> grind -linarith

/-! ## Statements -/

section

variable {p : Parse (Option Statement)}

theorem documented_obeys (hp : Obeys L p) : Obeys L (documented p) := by
  have hinner := hp.spec
  refine .of_spec fun s => ?_
  unfold documented
  refine triple_intro fun Q hQ => ?_
  mvcgen [hinner] <;> grind -linarith [Decl.Law.All.withDoc]

theorem commentStatement_obeys : Obeys L commentStatement := by
  refine .of_spec fun s => ?_
  unfold commentStatement
  refine triple_intro fun Q hQ => ?_
  mvcgen
  grind -linarith

@[local spec high] theorem sync_onward (rules : List Rule) (start : Stream) (s : ParseState) :
    ⦃fun st => ⌜st = s⌝⦄ sync rules start ⦃⇓ _ st => ⌜s.Onward st⌝⦄ :=
  onward_spec (sync rules start) (.of_and (sync_spec rules start)) s

/-- What a rule makes that is given up is dropped, and only its reports stay. -/
theorem firstRule_obeys (all : List Rule) {rules : List Rule}
    (h : ∀ r ∈ rules, FormObeys L (r.parse p)) (start : Stream) (s : ParseState) :
    ⦃fun st => ⌜st = s⌝⦄ firstRule all p start rules
    ⦃⇓ r st => ⌜s.stream = start → s.Onward st ∧ (s.stream.Sound → L.All st.reports r.toList)⌝⦄ := by
  induction rules generalizing s with
  | nil =>
    unfold firstRule
    refine triple_intro fun Q hQ => ?_
    mvcgen
    grind -linarith
  | cons rule rules ih =>
    have hrule := (h rule (by simp)).spec
    have hrest := ih fun r hr => h r (by simp [hr])
    unfold firstRule
    refine triple_intro fun Q hQ => ?_
    mvcgen [hrule, hrest] <;> grind -linarith [Onward]

theorem statementRound_obeys (hp : Obeys L p) (nested : Bool) (v : Array Statement)
    (s : ParseState) :
    ⦃fun st => ⌜st = s⌝⦄ statementRound p nested v
    ⦃⇓ r st => ⌜s.Onward st ∧ (s.stream.Sound → L.All s.reports v.toList →
      L.All st.reports r.value.toList)⌝⦄ := by
  have hinner := hp.spec
  unfold statementRound
  refine triple_intro fun Q hQ => ?_
  mvcgen [hinner] <;> grind -linarith [Decl.Law.All.append, Onward]

theorem statements_obey (hp : Obeys L p) (nested : Bool) (s : ParseState) :
    ⦃fun st => ⌜st = s⌝⦄ statements p nested
    ⦃⇓ found st => ⌜s.Onward st ∧ (s.stream.Sound → L.All st.reports found)⌝⦄ := by
  have hloop : ⦃fun st => ⌜st = s⌝⦄ loop #[] (statementRound p nested)
      ⦃⇓ v st => ⌜s.Onward st ∧ (s.stream.Sound → L.All st.reports v.toList)⌝⦄ := by
    refine loop_keeps (fun (v : Array Statement) st => s.Onward st
      ∧ (s.stream.Sound → L.All st.reports v.toList)) (fun v st hI => ?_) ⟨.refl _, fun _ => .nil⟩
    obtain ⟨honward, hall⟩ := triple_iff_run.1 (statementRound_obeys hp nested v st)
    exact triple_iff_run.2 ⟨hI.1.trans honward, fun hs => hall (hI.1.sound hs) (hI.2 hs)⟩
  unfold statements
  mvcgen [hloop]

end

variable {g : Grammar} [g.IsForward] [g.IsBlind]

@[local spec high] theorem expect_onward (k : Kind) (code : Code) (message : Bytes) (s : ParseState) :
    ⦃fun st => ⌜st = s⌝⦄ expect g k code message ⦃⇓ _ st => ⌜s.Onward st⌝⦄ :=
  onward_spec (expect g k code message) (.of_spec (expect_spec k code message)) s

theorem mult_onward (s : ParseState) : ⦃fun st => ⌜st = s⌝⦄ mult ⦃⇓ _ st => ⌜s.Onward st⌝⦄ :=
  onward_spec mult (.of_and mult_spec) s

theorem endpoint?_onward (s : ParseState) :
    ⦃fun st => ⌜st = s⌝⦄ endpoint? ⦃⇓ _ st => ⌜s.Onward st⌝⦄ :=
  onward_spec endpoint? (.of_and endpoint?_spec) s

theorem linkLabel_onward (s : ParseState) :
    ⦃fun st => ⌜st = s⌝⦄ linkLabel ⦃⇓ _ st => ⌜s.Onward st⌝⦄ :=
  onward_spec linkLabel (.of_spec linkLabel_spec) s

theorem typeParams_onward (s : ParseState) :
    ⦃fun st => ⌜st = s⌝⦄ typeParams ⦃⇓ _ st => ⌜s.Onward st⌝⦄ :=
  onward_spec typeParams (.of_spec typeParams_spec) s

theorem entityModifiers_onward (s : ParseState) :
    ⦃fun st => ⌜st = s⌝⦄ entityModifiers ⦃⇓ _ st => ⌜s.Onward st⌝⦄ :=
  onward_spec entityModifiers (.of_spec entityModifiers_spec) s

theorem newPackage_obeys (span : Span) (name : Bytes) (nameSpan : Span) (body : List Statement)
    (s : ParseState) :
    ⦃fun st => ⌜st = s⌝⦄ newStatement (fun id => .package { id, span } name nameSpan body)
    ⦃⇓ r st => ⌜s.Onward st ∧ ∀ L : Decl.Law, L.All s.reports body → L.All st.reports [r]⌝⦄ :=
  triple_iff_run.2 ⟨⟨.refl _, .refl _⟩, fun _ hbody => Decl.Law.all_package.2 hbody⟩

theorem package_obeys {p : Parse (Option Statement)} (hp : Obeys L p) : FormObeys L (package g p) := by
  have hbody := statements_obey hp true
  refine .of_spec fun s => ?_
  unfold package
  refine triple_intro fun Q hQ => ?_
  mvcgen [hbody, newPackage_obeys, -newStatement_spec]
  case vc1 => grind -linarith
  case vc2 => grind -linarith
  case vc3 st hst keyword st₁ h₁ named name nameSpan _ st₂ h₂ opened opener _ st₃ h₃ inside body st₄
      h₄ outside _ st₅ h₅ made st₆ h₆ =>
    have hopen : st₃.Onward inside.2 := ⟨.refl _, .refl _⟩
    have hclose : st₄.Onward outside.2 := ⟨.refl _, .refl _⟩
    have hstart : s.Onward inside.2 := hst ▸ (h₁.2.2.trans (h₂.trans h₃)).trans hopen
    have hend : st₄.Onward st₅ := hclose.trans h₅
    refine hQ _ _ (hstart.trans (h₄.1.trans (hend.trans h₆.1))) fun hs => ?_
    exact h₆.2 L ((h₄.2 (hstart.sound hs)).later hend.reports)

/-- What the three forms with links and members obey in a grammar. -/
structure Lawful (L : Decl.Law) (g : Grammar) : Prop where
  entity : FormObeys L (entity g)
  relationship : FormObeys L (relationship g)
  association : FormObeys L (association g)

theorem builtinRules_obey (h : Lawful L g) {p : Parse (Option Statement)} (hp : Obeys L p) (r : Rule)
    (hr : r ∈ builtinRules g) : FormObeys L (r.parse p) := by
  simp only [builtinRules, List.mem_cons, List.not_mem_nil, or_false] at hr
  rcases hr with rfl | rfl | rfl | rfl | rfl | rfl | rfl | rfl
  · exact config_obeys
  · exact atConfig_obeys
  · exact constraint_obeys
  · exact note_obeys
  · exact h.association
  · exact package_obeys hp
  · exact h.entity
  · exact h.relationship

end Parse

/-- The statement forms that a language adds make nothing but comments themselves. -/
class Grammar.ObeysLaws (g : Grammar) : Prop where
  rules : ∀ L : Decl.Law, ∀ r ∈ g.rules, ∀ p, Parse.Obeys L p → Parse.FormObeys L (r.parse p)

namespace Parse

open ParseState

variable {L : Decl.Law} {g : Grammar} [g.IsForward] [g.IsBlind] [g.ObeysLaws]

theorem statementOver_obeys (h : Lawful L g) {inner : Parse (Option Statement)}
    (hinner : Obeys L inner) : Obeys L (statementOver g inner) := by
  have hrules : ∀ r ∈ allRules g, FormObeys L (r.parse inner) := fun r hr =>
    (List.mem_append.1 hr).elim (fun hr => Grammar.ObeysLaws.rules L r hr inner hinner)
      (builtinRules_obey h hinner r)
  have hdocumented := (documented_obeys hinner).spec
  have hcomment := (commentStatement_obeys (L := L)).spec
  have hfirst := firstRule_obeys (allRules g) hrules
  refine .of_spec fun s => ?_
  unfold statementOver
  refine triple_intro fun Q hQ => ?_
  mvcgen [hdocumented, hcomment, hfirst, -commentStatement_spec] <;> grind -linarith

theorem statementWithin_obeys (h : Lawful L g) (depth : Nat) : Obeys L (statementWithin g depth) := by
  induction depth with
  | zero => exact fun s => ⟨.refl _, fun _ => .nil⟩
  | succ depth ih => exact statementOver_obeys h ih

theorem statement_obeys (h : Lawful L g) : Obeys L (statement g) :=
  fun s => statementWithin_obeys h (s.stream.rest.length + 1) s

end Parse

def Parsed.reports (p : Parsed) (maxErrors : Nat) : Reports := ⟨maxErrors, p.errors, p.findings.toArray⟩

/-- What the forms obey, every declaration of a document obeys. -/
theorem all_of_parse {L : Decl.Law} (g : Grammar) [g.IsForward] [g.IsBlind] [g.ObeysLaws]
    (h : Parse.Lawful L g) (file : File) (ts : List Token) (maxErrors : Nat) :
    L.All ((parse g file ts maxErrors).reports maxErrors) (parse g file ts maxErrors).program.statements := by
  let start : ParseState := { stream := .ofTokens ts, file, maxErrors }
  have hrun := triple_iff_run.1 (Parse.statements_obey (Parse.statement_obeys h) false start)
  have hmax : ((Parse.statements (Parse.statement g) false).run start).2.maxErrors = maxErrors :=
    hrun.1.reports.maxErrors
  have hall := hrun.2 (Stream.closed_sound ts)
  rw [ParseState.reports, hmax] at hall
  exact hall

/-! ## Languages -/

instance : Grammar.ObeysLaws {} where
  rules := by simp

namespace Parse

theorem skipNames_obeys (names : List Bytes) {L : Decl.Law} {p : Parse (Option Statement)}
    (hp : Obeys L p) :
    FormObeys L (do
      skipNames names
      return (.ok (← p) : Except Failure (Option Statement))) := by
  have hnames := onward_spec (skipNames names) (.of_spec (skipNames_spec names))
  have hinner := hp.spec
  refine .of_spec fun s => triple_intro fun Q hQ => ?_
  mvcgen [hnames, hinner, -skipNames_spec]
  grind -linarith

end Parse

namespace Java

open Parse ParseState

variable {L : Decl.Law}

attribute [local spec high] advance_onward eat?_onward newDecl_obeys

theorem keepAsComment_obeys (span : Span) (s : ParseState) :
    ⦃fun st => ⌜st = s⌝⦄ keepAsComment span
    ⦃⇓ r st => ⌜s.Onward st ∧ ∀ L : Decl.Law, L.All st.reports (given Option.toList r)⌝⦄ := by
  unfold keepAsComment
  refine triple_intro fun Q hQ => ?_
  mvcgen
  grind -linarith

theorem importRule_obeys (p : Parse (Option Statement)) : FormObeys L (importRule.parse p) := by
  have hloop : ∀ keyword v s, ⦃fun st => ⌜st = s⌝⦄ loop v (importRound keyword)
      ⦃⇓ _ st => ⌜s.Onward st⌝⦄ := fun keyword v =>
    onward_spec (loop v (importRound keyword)) (.of_spec (loop_reaches (importRound_spec keyword) v))
  refine .of_spec fun s => triple_intro fun Q hQ => ?_
  mvcgen [importRule, hloop, keepAsComment_obeys, -keepAsComment_spec] <;> grind -linarith

theorem annotationRule_obeys {p : Parse (Option Statement)} (hp : Obeys L p) :
    FormObeys L (annotationRule.parse p) := by
  have hsegments := onward_spec skipSegments (.of_spec skipSegments_spec)
  have hgroup := onward_spec skipGroup (.of_spec skipGroup_spec)
  have hinner := hp.spec
  refine .of_spec fun s => triple_intro fun Q hQ => ?_
  mvcgen [annotationRule, hsegments, hgroup, hinner, keepAsComment_obeys, -keepAsComment_spec,
      -skipSegments_spec, -skipGroup_spec] <;>
    grind -linarith

instance : grammar.ObeysLaws where
  rules := by
    simp only [grammar, List.mem_cons, List.not_mem_nil, or_false]
    rintro L r (rfl | rfl | rfl) p hp
    · exact importRule_obeys p
    · exact annotationRule_obeys hp
    · exact skipNames_obeys accessWords hp

end Java

instance : TypeScript.grammar.ObeysLaws where
  rules := by
    simp only [TypeScript.grammar, List.mem_singleton]
    rintro L r rfl p hp
    exact Parse.skipNames_obeys TypeScript.exportWords hp

end Uml
