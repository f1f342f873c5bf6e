import Mathlib.Tactic.Common
import Uml.Language.Java
import Uml.Language.TypeScript
import Uml.Proofs.Syntax.Layout

/-!
# Reading tokens as statements

What a construct says is read off the front of a list of significant tokens; what is left is for the
constructs behind it. A bracket or a string between two ends of a relationship can belong to either
link, so what stands behind it decides whose it is.
-/
namespace Uml

def headKind : List Token → Kind
  | [] => .eof
  | t :: _ => t.kind

@[simp, grind =] theorem headKind_cons (t : Token) (ts : List Token) : headKind (t :: ts) = t.kind := rfl

theorem headKind_append {ts : List Token} (h : ts ≠ []) (us : List Token) :
    headKind (ts ++ us) = headKind ts := by
  cases ts with
  | nil => exact absurd rfl h
  | cons => rfl

/-- The segments of a dotted name behind those read already. -/
inductive ReadsSegments : Bytes × Span → List Token → Bytes × Span → List Token → Prop
  | nil (path : Bytes × Span) (ts : List Token) : ReadsSegments path ts path ts
  | cons {name : Bytes} {span : Span} {dot word : Token} {path : Bytes × Span} {before after : List Token}
    (hdot : dot.kind = .dot) (hword : word.isWord = true)
    (hrest : ReadsSegments (name ++ "." ++ word.text, span.cover word.span) before path after) :
    ReadsSegments (name, span) (dot :: word :: before) path after

theorem ReadsSegments.snoc {path : Bytes × Span} {name : Bytes} {span : Span} {dot word : Token}
    {before after : List Token} (h : ReadsSegments path before (name, span) (dot :: word :: after))
    (hdot : dot.kind = .dot) (hword : word.isWord = true) :
    ReadsSegments path before (name ++ "." ++ word.text, span.cover word.span) after := by
  generalize hlast : (name, span) = last at h
  generalize hrest : dot :: word :: after = rest at h
  induction h with
  | nil =>
    subst hlast hrest
    exact .cons hdot hword (.nil ..)
  | cons hdot' hword' _ ih => exact .cons hdot' hword' (ih hlast hrest)

inductive ReadsPath : List Token → Bytes × Span → List Token → Prop
  | intro {first : Token} {before after : List Token} {path : Bytes × Span} (hfirst : first.kind = .ident)
    (hsegments : ReadsSegments (first.text, first.span) before path after) :
    ReadsPath (first :: before) path after

/-- A name, which a star before it marks as abstract. -/
inductive Endpoint.Reads : List Token → Endpoint → List Token → Prop
  | plain {before after : List Token} {name : Bytes} {span : Span}
    (hpath : ReadsPath before (name, span) after) : Reads before ⟨name, span, {}⟩ after
  | starred {star : Token} {before after : List Token} {name : Bytes} {span : Span}
    (hstar : star.kind = .star) (hpath : ReadsPath before (name, span) after) :
    Reads (star :: before) ⟨name, star.span.cover span, .singleton .abstract⟩ after

/-- A token that can stand in the brackets that `opener` opens. -/
structure Token.IsWithin (opener t : Token) : Prop where
  kind : t.kind ∉ [.lbracket, .rbracket, .lbrace, .rbrace, .eof]
  line : t.position.line ≤ opener.position.line

/-- A multiplicity in quotes or brackets, or none. -/
inductive RawMult.ReadsTokens (file : File) : List Token → RawMult → List Token → Prop
  | none {ts : List Token} (hstring : headKind ts ≠ .string) (hbracket : headKind ts ≠ .lbracket) :
    ReadsTokens file ts {} ts
  | quoted {t : Token} {ts : List Token} (ht : t.kind = .string) :
    ReadsTokens file (t :: ts) ⟨(Literal.value t.text).trim, t.span⟩ ts
  | bracketed {opener closer : Token} {inner ts : List Token} (hopener : opener.kind = .lbracket)
    (hinner : ∀ t ∈ inner, opener.IsWithin t) (hcloser : closer.kind = .rbracket) :
    ReadsTokens file (opener :: (inner ++ closer :: ts))
      ⟨(file.text ⟨opener.span.file, opener.span.stop, closer.span.start⟩).trim,
        opener.span.cover closer.span⟩ ts

/-- The multiplicity of a target: the one before it, or brackets behind it, unless they belong to the
link whose operator follows. Brackets of more tokens than a look ahead passes are not looked through. -/
inductive RawMult.ReadsTarget (file : File) (ahead : RawMult) : List Token → RawMult → List Token → Prop
  | ahead (ts : List Token) : ReadsTarget file ahead ts ahead ts
  | behind {before after : List Token} {mult : RawMult} (hahead : ahead.isPresent = false)
    (hbracket : headKind before = .lbracket) (hmult : RawMult.ReadsTokens file before mult after)
    (hoperator : before.length ≤ after.length + Stream.maxBracket + 1 →
      (headKind after).isRelationship = false) :
    ReadsTarget file ahead before mult after

/-- The label of a link: a string, unless it is the multiplicity of the link whose operator follows. -/
inductive Link.ReadsLabel : List Token → Bytes → List Token → Prop
  | none {ts : List Token} (h : headKind ts = .string → (headKind ts.tail).isRelationship = true) :
    ReadsLabel ts [] ts
  | string {t : Token} {ts : List Token} (ht : t.kind = .string)
    (hoperator : (headKind ts).isRelationship = false) : ReadsLabel (t :: ts) (Literal.value t.text) ts

/-! ## Inside braces -/

/-- The tokens close `depth` brackets that are open, and all that they open. -/
def ClosesAll : Nat → List Token → Prop
  | depth, [] => depth = 0
  | depth, t :: ts =>
    match t.kind with
    | .lbrace | .lparen | .lbracket => ClosesAll (depth + 1) ts
    | .rbrace | .rparen | .rbracket => 0 < depth ∧ ClosesAll (depth - 1) ts
    | _ => ClosesAll depth ts

/-- Braces stand in pairs. An initial value may pair its brackets in another way. -/
inductive IsInside : List Token → Prop
  | nil : IsInside []
  | token {t : Token} (hopen : t.kind ≠ .lbrace) (hclose : t.kind ≠ .rbrace) : IsInside [t]
  | append {ts us : List Token} (h : IsInside ts) (h' : IsInside us) : IsInside (ts ++ us)
  | braces {opener closer : Token} {ts : List Token} (hopener : opener.kind = .lbrace) (h : IsInside ts)
    (hcloser : closer.kind = .rbrace) : IsInside (opener :: (ts ++ [closer]))
  | value {t : Token} {ts : List Token} (ht : t.kind = .assign) (h : ClosesAll 0 ts) : IsInside (t :: ts)

theorem closesAll_append {cs : List Token} (hcs : ∀ t ∈ cs, t.isTrivia = true) (depth : Nat)
    (ts : List Token) : ClosesAll depth (cs ++ ts) ↔ ClosesAll depth ts := by
  induction cs with
  | nil => rfl
  | cons c cs ih =>
    obtain ⟨hc, hcs⟩ := List.forall_mem_cons.1 hcs
    rw [List.cons_append, ClosesAll, ← ih hcs]
    split <;> simp_all [Token.isTrivia, Kind.isTrivia]

theorem closesAll_filter (depth : Nat) (ts : List Token) :
    ClosesAll depth (ts.filter (!·.isTrivia)) ↔ ClosesAll depth ts := by
  induction ts generalizing depth with
  | nil => rfl
  | cons t ts ih =>
    cases htrivia : t.isTrivia with
    | true =>
      rw [List.filter_cons_of_neg (by simp [htrivia]), ih]
      exact (closesAll_append (List.forall_mem_singleton.2 htrivia) depth ts).symm
    | false =>
      rw [List.filter_cons_of_pos (by simp [htrivia]), ClosesAll, ClosesAll]
      split <;> simp [ih]

namespace IsInside

theorem of_forall {ts : List Token} (h : ∀ t ∈ ts, t.kind ≠ .lbrace ∧ t.kind ≠ .rbrace) : IsInside ts := by
  induction ts with
  | nil => exact .nil
  | cons t ts ih =>
    obtain ⟨ht, hts⟩ := List.forall_mem_cons.1 h
    exact .append (.token ht.1 ht.2) (ih hts)

theorem of_trivia {ts : List Token} (h : ∀ t ∈ ts, t.isTrivia = true) : IsInside ts := by
  refine of_forall fun t ht => ?_
  constructor <;> intro hkind <;> simpa [Token.isTrivia, hkind, Kind.isTrivia] using h t ht

theorem filter {ts : List Token} (h : IsInside ts) : IsInside (ts.filter (!·.isTrivia)) := by
  induction h with
  | nil => exact .nil
  | @token t hopen hclose =>
    cases htrivia : t.isTrivia with
    | true => simpa [htrivia] using IsInside.nil
    | false => simpa [htrivia] using IsInside.token hopen hclose
  | append _ _ ih ih' =>
    rw [List.filter_append]
    exact .append ih ih'
  | @braces opener closer ts hopener _ hcloser ih =>
    rw [List.filter_cons_of_pos (by simp [Token.isTrivia, hopener, Kind.isTrivia]), List.filter_append,
      List.filter_cons_of_pos (by simp [Token.isTrivia, hcloser, Kind.isTrivia])]
    exact .braces hopener ih hcloser
  | @value t ts ht h =>
    rw [List.filter_cons_of_pos (by simp [Token.isTrivia, ht, Kind.isTrivia])]
    exact .value ht ((closesAll_filter 0 ts).2 h)

end IsInside

/-- Braces and what they hold, if there are any. -/
inductive ReadsBody : List Token → List Member → List Token → Prop
  | none {ts : List Token} (h : headKind ts ≠ .lbrace) : ReadsBody ts [] ts
  | braces {opener closer : Token} {inner ts : List Token} {members : List Member}
    (hopener : opener.kind = .lbrace) (hinner : IsInside inner) (hcloser : closer.kind = .rbrace) :
    ReadsBody (opener :: (inner ++ closer :: ts)) members ts

/-- A link up to its label: the multiplicity of its source directly before the operator, behind it the
target with its multiplicity, then the label. -/
inductive Link.Reads (file : File) : List Token → Link → List Token → Prop
  | intro {l : Link} {op : Token} {before ts₁ ts₂ ts₃ ts₄ after : List Token} {ahead : RawMult}
    (hfrom : RawMult.ReadsTokens file before l.fromMult (op :: ts₁)) (hoperator : op.isRelationship = true)
    (hop : l.op = op.kind) (hopSpan : l.opSpan = op.span) (hahead : RawMult.ReadsTokens file ts₁ ahead ts₂)
    (htarget : Endpoint.Reads ts₂ l.target ts₃) (hto : RawMult.ReadsTarget file ahead ts₃ l.toMult ts₄)
    (hlabel : ReadsLabel ts₄ l.label after) : Reads file before l after

/-- A link of a header; braces behind it are those of the entity. -/
def Link.ReadsHeader (file : File) (before : List Token) (l : Link) (after : List Token) : Prop :=
  l.Reads file before after ∧ l.members = []

/-- A link of a chain; braces behind it are its own. -/
def Link.ReadsChain (file : File) (before : List Token) (l : Link) (after : List Token) : Prop :=
  ∃ mid, l.Reads file before mid ∧ ReadsBody mid l.members after

/-- Values that are read one behind the other. -/
inductive ReadsEach {α : Type} (reads : List Token → α → List Token → Prop) :
    List Token → List α → List Token → Prop
  | nil (ts : List Token) : ReadsEach reads ts [] ts
  | cons {before mid after : List Token} {a : α} {as : List α} (h : reads before a mid)
    (hrest : ReadsEach reads mid as after) : ReadsEach reads before (a :: as) after

theorem ReadsEach.snoc {α : Type} {reads : List Token → α → List Token → Prop}
    {before mid after : List Token} {as : List α} {a : α} (h : ReadsEach reads before as mid)
    (ha : reads mid a after) : ReadsEach reads before (as ++ [a]) after := by
  induction h with
  | nil => exact .cons ha (.nil _)
  | cons h _ ih => exact .cons h (ih ha)

/-! ## Declarations -/

/-- Type parameters with commas between them in angle brackets; of a `>>` the second half is left. -/
inductive ReadsTypeParams : List Token → List TypeParam → List Token → Prop
  | none {ts : List Token} (h : headKind ts ≠ .lt) : ReadsTypeParams ts [] ts
  | angles {opener closer : Token} {inner ts : List Token} (hopener : opener.kind = .lt)
    (hinner : ∀ t ∈ inner, t.kind = .ident ∨ t.kind = .comma) (hcloser : closer.kind = .gt) :
    ReadsTypeParams (opener :: (inner ++ closer :: ts))
      ((inner.filter (·.kind = .ident)).map fun t => ⟨t.text, t.span⟩) ts
  | half {opener closer : Token} {inner ts : List Token} (hopener : opener.kind = .lt)
    (hinner : ∀ t ∈ inner, t.kind = .ident ∨ t.kind = .comma) (hcloser : closer.kind = .inherit) :
    ReadsTypeParams (opener :: (inner ++ closer :: ts))
      ((inner.filter (·.kind = .ident)).map fun t => ⟨t.text, t.span⟩) (Stream.secondHalf closer :: ts)

def Token.IsNamed (names : List Bytes) (t : Token) : Prop :=
  t.kind = .ident ∧ t.text ∈ names

namespace Java

/-- The name of an annotation goes on behind each dot. -/
inductive IsDotted : List Token → Prop
  | nil : IsDotted []
  | dot {ts : List Token} {dot : Token} (h : IsDotted ts) (hdot : dot.kind = .dot) : IsDotted (ts ++ [dot])
  | segment {ts : List Token} {dot t : Token} (h : IsDotted ts) (hdot : dot.kind = .dot) :
    IsDotted (ts ++ [dot, t])

/-- How many brackets are open behind the tokens. -/
def depthOf (ts : List Token) : Int := ts.foldl (fun depth t => depthBehind depth t.kind) 0

/-- A group ends with the bracket that closes its first one, or at the end of the file. -/
structure IsGroup (ts after : List Token) : Prop where
  opens : headKind ts = .lparen
  inside : ∀ pre, pre <+: ts → pre ≠ [] → pre ≠ ts → 0 < depthOf pre
  closed : depthOf ts ≤ 0 ∨ headKind after = .eof

/-- An at sign, a name, and arguments or none. -/
inductive IsAnnotationText : List Token → List Token → Prop
  | intro {sign word : Token} {segments group after : List Token} (hsign : sign.kind = .atSign)
    (hword : word.isWord = true) (hsegments : IsDotted segments)
    (hgroup : group = [] ∨ IsGroup group after) : IsAnnotationText (sign :: word :: (segments ++ group)) after

/-- An import goes up to a semicolon or to the end of its line. -/
inductive IsImport : List Token → List Token → Prop
  | intro {keyword : Token} {path stop after : List Token} (hkeyword : keyword.IsNamed ["import"])
    (hpath : ∀ t ∈ path, t.kind ≠ .semicolon ∧ t.position.line ≤ keyword.position.line)
    (hstop : ∀ t ∈ stop, t.kind = .semicolon) (hlength : stop.length ≤ 1) :
    IsImport (keyword :: (path ++ stop)) after

end Java

/-- What stands before a statement and is no part of it, if `after` is behind it. -/
inductive Grammar.Drops (g : Grammar) : List Token → List Token → Prop
  | semicolon {t : Token} {after : List Token} (ht : t.kind = .semicolon) : Drops g [t] after
  | exportWords {ts after : List Token} (hrule : TypeScript.exportRule ∈ g.rules)
    (hts : ∀ t ∈ ts, t.IsNamed TypeScript.exportWords) : Drops g ts after
  | accessWords {ts after : List Token} (hrule : Java.accessRule ∈ g.rules)
    (hts : ∀ t ∈ ts, t.IsNamed Java.accessWords) : Drops g ts after
  | annotated {ts after : List Token} (hrule : Java.annotationRule ∈ g.rules)
    (hts : Java.IsAnnotationText ts after) : Drops g ts after

/-- What is kept as a comment, if `after` is behind it. -/
inductive Grammar.Keeps (g : Grammar) : List Token → List Token → Prop
  | import {ts after : List Token} (hrule : Java.importRule ∈ g.rules) (hts : Java.IsImport ts after) :
    Keeps g ts after
  | annotated {ts after : List Token} (hrule : Java.annotationRule ∈ g.rules)
    (hts : Java.IsAnnotationText ts after) : Keeps g ts after

/-- An entity: modifiers, a keyword, a name, and what stands behind it. -/
inductive EntityDecl.Reads (file : File) : List Token → EntityDecl → List Token → Prop
  | intro {e : EntityDecl} {keyword name : Token} {modifiers ts ts₁ ts₂ after : List Token}
    (hmodifiers : ∀ t ∈ modifiers, (Modifier.ofKeyword? t.kind).isSome = true)
    (hset : e.modifiers = .ofList (modifiers.filterMap (Modifier.ofKeyword? ·.kind)))
    (hkeyword : EntityKind.ofKeyword? keyword.kind = some e.kind) (hident : name.kind = .ident)
    (hname : e.name = name.text) (hnameSpan : e.nameSpan = name.span)
    (hparams : ReadsTypeParams ts e.typeParams ts₁)
    (hheaders : ReadsEach (Link.ReadsHeader file) ts₁ e.headers ts₂)
    (hbody : ReadsBody ts₂ e.members after) :
    Reads file (modifiers ++ keyword :: name :: ts) e after

/-- An association class: its operator stands between its ends and their multiplicities. A language
may take `extra` tokens before the parenthesis. -/
inductive AssociationDecl.Reads (g : Grammar) (file : File) :
    List Token → AssociationDecl → List Token → Prop
  | intro {a : AssociationDecl} {keyword name opener op closer : Token}
    {extra ts ts₁ ts₂ ts₃ ts₄ after : List Token}
    (hkeyword : keyword.kind = .kwAssociation) (hident : name.kind = .ident)
    (hname : a.name = name.text) (hnameSpan : a.nameSpan = name.span)
    (hextra : g.unexpected = none → extra = []) (hopener : opener.kind = .lparen)
    (hleft : Endpoint.Reads ts a.left ts₁) (hleftMult : RawMult.ReadsTokens file ts₁ a.leftMult (op :: ts₂))
    (hoperator : op.isRelationship = true) (hop : a.op = op.kind) (hopSpan : a.opSpan = op.span)
    (hrightMult : RawMult.ReadsTokens file ts₂ a.rightMult ts₃)
    (hright : Endpoint.Reads ts₃ a.right (closer :: ts₄)) (hcloser : closer.kind = .rparen)
    (hbody : ReadsBody ts₄ a.members after) :
    Reads g file (keyword :: name :: (extra ++ opener :: ts)) a after

/-- A statement that holds no other statement. Where no relationship can stand, no operator is passed. -/
inductive Decl.Reads (g : Grammar) (file : File) : List Token → Decl → List Token → Prop
  | entity {e : EntityDecl} {before after : List Token} (h : e.Reads file before after) :
    Reads g file before (.entity e) after
  | relationship {head : Endpoint} {links : List Link} {before mid after : List Token}
    (hhead : head.Reads before mid) (hlinks : ReadsEach (Link.ReadsChain file) mid links after) :
    Reads g file before (.relationship head links) after
  | association {a : AssociationDecl} {before after : List Token} (h : a.Reads g file before after) :
    Reads g file before (.association a) after
  | constraint {c : ConstraintDecl} {keyword : Token} {inner after : List Token}
    (hkeyword : keyword.kind = .kwConstraint) (hinner : ∀ t ∈ inner, t.isRelationship = false) :
    Reads g file (keyword :: (inner ++ after)) (.constraint c) after
  | note {text : Bytes} {anchors : List Anchor} {keyword : Token} {inner after : List Token}
    (hkeyword : keyword.kind = .kwNote) (hinner : ∀ t ∈ inner, t.isRelationship = false) :
    Reads g file (keyword :: (inner ++ after)) (.note text anchors) after
  | config {entries : List ConfigEntry} {keyword : Token} {inner after : List Token}
    (hkeyword : keyword.kind = .kwConfig ∨ keyword.kind = .atSign)
    (hinner : ∀ t ∈ inner, t.isRelationship = false) :
    Reads g file (keyword :: (inner ++ after)) (.config entries) after
  | comment {text : Bytes} {isDoc : Bool} (ts : List Token) : Reads g file ts (.comment text isDoc) ts
  | kept {text : Bytes} {ts after : List Token} (h : g.Keeps ts after) :
    Reads g file (ts ++ after) (.comment text false) after

/-- Statements with what is dropped between them, up to what is left. -/
inductive Statement.ReadsAll (g : Grammar) (file : File) :
    List Token → List Statement → List Token → Prop
  | nil (ts : List Token) : ReadsAll g file ts [] ts
  | dropped {ts before after : List Token} {ss : List Statement} (h : g.Drops ts before)
    (hrest : ReadsAll g file before ss after) : ReadsAll g file (ts ++ before) ss after
  | decl {tag : Tag} {d : Decl} {ss : List Statement} {before mid after : List Token}
    (h : d.Reads g file before mid) (hrest : ReadsAll g file mid ss after) :
    ReadsAll g file before (.decl tag d :: ss) after
  | package {tag : Tag} {name : Bytes} {nameSpan : Span} {body ss : List Statement}
    {keyword opener closer : Token} {before extra inner mid after : List Token}
    (hkeyword : keyword.kind = .kwPackage)
    (hname : ReadsPath before (name, nameSpan) (extra ++ opener :: inner))
    (hextra : g.unexpected = none → extra = []) (hopener : opener.kind = .lbrace)
    (hbody : ReadsAll g file inner body (closer :: mid)) (hcloser : closer.kind = .rbrace)
    (hrest : ReadsAll g file mid ss after) :
    ReadsAll g file (keyword :: before) (.package tag name nameSpan body :: ss) after

namespace Statement.ReadsAll

variable {g : Grammar} {file : File} {before mid after : List Token} {ss ss' : List Statement}

theorem append (h : ReadsAll g file before ss mid) (h' : ReadsAll g file mid ss' after) :
    ReadsAll g file before (ss ++ ss') after := by
  induction h with
  | nil => exact h'
  | dropped hts _ ih => exact .dropped hts (ih h')
  | decl hdecl _ ih => exact .decl hdecl (ih h')
  | package hkeyword hname hextra hopener hbody hcloser _ _ ih =>
    exact .package hkeyword hname hextra hopener hbody hcloser (ih h')

/-- Documentation is no significant token. -/
theorem withDoc {s : Statement} (h : ReadsAll g file before (s :: ss) after) (doc : Bytes) :
    ReadsAll g file before (s.withDoc doc :: ss) after := by
  generalize hall : s :: ss = all at h
  induction h with
  | nil => cases hall
  | dropped hts _ ih => exact .dropped hts (ih hall)
  | decl hdecl hrest =>
    cases hall
    unfold Statement.withDoc
    split
    · exact .decl hdecl hrest
    · exact .decl hdecl hrest
  | package hkeyword hname hextra hopener hbody hcloser hrest =>
    cases hall
    unfold Statement.withDoc
    split
    · exact .package hkeyword hname hextra hopener hbody hcloser hrest
    · exact .package hkeyword hname hextra hopener hbody hcloser hrest

end Statement.ReadsAll

/-! ## Streams -/

namespace Stream

/-- The significant tokens ahead; of a half-taken `>>` the second half. -/
def upcoming (s : Stream) : List Token :=
  match s.rest with
  | [] => []
  | t :: tail =>
    if s.half then secondHalf t :: tail.filter (!·.isTrivia) else (t :: tail).filter (!·.isTrivia)

variable {s s' : Stream}

theorem upcoming_eq (hhalf : s.half = false) : s.upcoming = s.rest.filter (!·.isTrivia) := by
  unfold upcoming
  cases s.rest <;> simp [hhalf]

theorem upcoming_atNext (s : Stream) : s.atNext.upcoming = s.upcoming := by
  cases hhalf : s.half with
  | true => simp [atNext, hhalf]
  | false =>
    obtain ⟨comments, hrest, -, hall⟩ := s.atNext_spec
    have hnone : comments.filter (!·.isTrivia) = [] :=
      List.filter_eq_nil_iff.2 fun t ht => by simp [hall t ht]
    rw [upcoming_eq hhalf, upcoming_eq (s.atNext_half.trans hhalf), hrest, List.filter_append, hnone,
      List.nil_append]

theorem exists_upcoming (hs : s.Sound) : ∃ ts, s.upcoming = s.peek :: ts := by
  obtain ⟨t, tail, hrest⟩ := List.exists_cons_of_ne_nil hs.atNext.rest_ne_nil
  have hpeek := s.peek_eq
  have htrivia := hs.peek_not_trivia
  rw [← upcoming_atNext]
  cases hhalf : s.atNext.half with
  | true =>
    simp only [peekRaw, hrest, hhalf, if_true] at hpeek
    exact ⟨_, by simp [upcoming, hrest, hhalf, hpeek]; rfl⟩
  | false =>
    simp only [peekRaw, hrest, hhalf, Bool.false_eq_true, if_false] at hpeek
    rw [hpeek] at htrivia ⊢
    exact ⟨_, by rw [upcoming_eq hhalf, hrest, List.filter_cons_of_pos (by simp [htrivia])]⟩

@[grind →] theorem headKind_upcoming (hs : s.Sound) : headKind s.upcoming = s.peek.kind := by
  obtain ⟨ts, hts⟩ := exists_upcoming hs
  rw [hts, headKind_cons]

theorem upcoming_nextRaw_token (hs : s.Sound) (hkind : s.peekRaw.kind ≠ .eof)
    (htrivia : s.peekRaw.isTrivia = false) : s.upcoming = s.peekRaw :: s.nextRaw.2.upcoming := by
  obtain ⟨t, tail, hrest, -, hnext⟩ := nextRaw_token hs hkind
  have hbehind : s.nextRaw.2.upcoming = tail.filter (!·.isTrivia) := by rw [hnext, upcoming_eq rfl]
  rw [hbehind]
  cases hhalf : s.half with
  | true => simp [upcoming, peekRaw, hrest, hhalf]
  | false =>
    simp only [peekRaw, hrest, hhalf, Bool.false_eq_true, if_false] at htrivia ⊢
    rw [upcoming_eq hhalf, hrest, List.filter_cons_of_pos (by simp [htrivia])]

theorem upcoming_next (hs : s.Sound) (hpeek : s.peek.kind ≠ .eof) :
    s.upcoming = s.peek :: s.next.2.upcoming := by
  have htrivia := hs.peek_not_trivia
  rw [peek_eq] at hpeek htrivia ⊢
  rw [← upcoming_atNext, next_eq]
  exact upcoming_nextRaw_token hs.atNext hpeek htrivia

theorem upcoming_next_eof (hs : s.Sound) (hpeek : s.peek.kind = .eof) : s.next.2.upcoming = s.upcoming := by
  rw [peek_eq] at hpeek
  rw [next_eq, nextRaw_eof hs.atNext hpeek, upcoming_atNext]

theorem upcoming_nextRaw (h : s.peekRaw.isTrivia = true) : s.nextRaw.2.upcoming = s.upcoming := by
  unfold peekRaw at h
  unfold nextRaw
  split
  · rfl
  · rename_i t rest hrest
    cases hhalf : s.half with
    | true => simp [hrest, hhalf, secondHalf, Token.isTrivia, Kind.isTrivia] at h
    | false =>
      simp only [hrest, hhalf, Bool.false_eq_true, if_false] at h ⊢
      have hkind : t.kind ≠ .eof := fun heof => by simp [Token.isTrivia, heof, Kind.isTrivia] at h
      rw [if_neg hkind, upcoming_eq rfl, upcoming_eq hhalf, hrest, List.filter_cons_of_neg (by simp [h])]

/-- Of a `>>` that is split the second half is ahead. -/
theorem upcoming_split {t : Token} (h : s.split? = some (t, s')) :
    ∃ ts, s.upcoming = s.peek :: ts ∧ s.peek.kind = .inherit ∧ s'.upcoming = secondHalf s.peek :: ts := by
  obtain ⟨shr, tail, hhalf, hrest, hkind, -, rfl⟩ := split?_eq_some h
  have hatHalf : s.atNext.half = false := s.atNext_half.trans hhalf
  have hpeek : s.peek = shr := by simp [peek_eq, peekRaw, hrest, hatHalf]
  have htrivia : shr.isTrivia = false := by simp [Token.isTrivia, hkind, Kind.isTrivia]
  refine ⟨tail.filter (!·.isTrivia), ?_, hpeek ▸ hkind, ?_⟩
  · rw [← upcoming_atNext, upcoming_eq hatHalf, hrest, List.filter_cons_of_pos (by simp [htrivia]), hpeek]
  · simp [upcoming, hrest, hpeek]

theorem kindAt_upcoming {pre ts : List Token} (hs : s.Sound) (h : s.upcoming = pre ++ ts)
    (hpre : ∀ t ∈ pre, t.kind ≠ .eof) : s.kindAt pre.length = headKind ts := by
  induction pre generalizing s with
  | nil => exact (headKind_upcoming hs).symm.trans (congrArg headKind h)
  | cons t pre ih =>
    obtain ⟨us, hus⟩ := exists_upcoming hs
    have hpeek : s.peek = t := by
      rw [hus] at h
      exact (List.cons.inj h).1
    have heof : s.peek.kind ≠ .eof := hpeek ▸ hpre t (by simp)
    rw [upcoming_next hs heof] at h
    have hrest := ih ((reaches_next s).sound hs).1 (List.cons.inj h).2 fun u hu => hpre u (by simp [hu])
    exact (congrArg Token.kind (peekAt_next hs heof pre.length)).symm.trans hrest

theorem kindAt_one (hs : s.Sound) (hpeek : s.peek.kind ≠ .eof) :
    s.kindAt 1 = headKind s.upcoming.tail := by
  obtain ⟨ts, hts⟩ := exists_upcoming hs
  rw [hts, List.tail_cons]
  have hsplit : s.upcoming = [s.peek] ++ ts := hts
  exact kindAt_upcoming hs hsplit (by simpa using hpeek)

theorem half_of_peekRaw (hs : s.Sound) (h : s.peekRaw.kind ≠ .gt) : s.half = false := by
  cases hhalf : s.half with
  | false => rfl
  | true =>
    obtain ⟨t, tail, hrest, -⟩ := hs.half hhalf
    simp [peekRaw, hrest, hhalf, secondHalf] at h

theorem half_of_peek (hs : s.Sound) (h : s.peek.kind ≠ .gt) : s.half = false := by
  rw [peek_eq] at h
  rw [← atNext_half]
  exact half_of_peekRaw hs.atNext h

theorem half_next (hs : s.Sound) (hpeek : s.peek.kind ≠ .eof) : s.next.2.half = false := by
  rw [peek_eq] at hpeek
  obtain ⟨t, tail, -, -, hnext⟩ := nextRaw_token hs.atNext hpeek
  rw [next_eq, hnext]

/-- What is passed between two tokens stood before what is ahead now. -/
theorem Reaches.upcoming (h : s.Reaches s') (hs : s.Sound) (hhalf : s.half = false)
    (hhalf' : s'.half = false) : ∃ ts, s.upcoming = ts ++ s'.upcoming := by
  have hlength : s.past.reverse.length ≤ s'.past.reverse.length := by
    simpa [index] using h.index_le hs
  obtain ⟨ts, hpast, hrest⟩ | ⟨ts, hpast, hrest⟩ := List.append_eq_append_iff.1 h.tokens
  · have hnil : ts = [] := by
      rw [hpast, List.length_append] at hlength
      exact List.eq_nil_of_length_eq_zero (by omega)
    subst hnil
    exact ⟨[], by rw [upcoming_eq hhalf, upcoming_eq hhalf', hrest]; rfl⟩
  · exact ⟨ts.filter (!·.isTrivia), by rw [upcoming_eq hhalf, upcoming_eq hhalf', hrest, List.filter_append]⟩

end Stream

/-! ## Where multiplicities stand -/

def Link.mults (l : Link) : List RawMult := [l.fromMult, l.toMult]

def Decl.mults : Decl → List RawMult
  | .entity e => e.headers.flatMap Link.mults
  | .relationship _ links => links.flatMap Link.mults
  | .association a => [a.leftMult, a.rightMult]
  | _ => []

mutual
/-- The multiplicities of the relationships of a statement, those of a package depth first. -/
def Statement.mults : Statement → List RawMult
  | .decl _ d => d.mults
  | .package _ _ _ body => Statement.multsOf body

def Statement.multsOf : List Statement → List RawMult
  | [] => []
  | s :: rest => s.mults ++ Statement.multsOf rest
end

/-! ## What is left -/

/-- Of the tokens `before` those of `after` are left, and perhaps the second half of a `>>`. -/
def ReadsUpTo (before after : List Token) : Prop := (after.filter (·.kind ≠ .gt)).Sublist before

variable {before mid after : List Token} {file : File} {g : Grammar} {m : RawMult}

namespace ReadsUpTo

theorem refl (ts : List Token) : ReadsUpTo ts ts := List.filter_sublist

theorem append (ts after : List Token) : ReadsUpTo (ts ++ after) after :=
  List.filter_sublist.trans (List.sublist_append_right ts after)

theorem cons (t : Token) (after : List Token) : ReadsUpTo (t :: after) after := append [t] after

theorem trans (h : ReadsUpTo before mid) (h' : ReadsUpTo mid after) : ReadsUpTo before after := by
  have hkept := h'.filter (fun t : Token => decide (t.kind ≠ .gt))
  rw [List.filter_filter] at hkept
  simp only [Bool.and_self] at hkept
  exact hkept.trans h

/-- Tokens of any other kind than the half of a `>>` stood there before. -/
theorem sublist {ts : List Token} (h : ReadsUpTo before after) (hts : ts.Sublist after)
    (hkind : ∀ t ∈ ts, t.kind ≠ .gt) : ts.Sublist before := by
  have hkept := hts.filter (fun t : Token => decide (t.kind ≠ .gt))
  rw [List.filter_eq_self.2 fun t ht => decide_eq_true (hkind t ht)] at hkept
  exact hkept.trans h

end ReadsUpTo

/-- Where a multiplicity stands among tokens, if it stands anywhere. -/
inductive RawMult.StandsIn (file : File) (ts : List Token) : RawMult → Prop
  | nowhere : StandsIn file ts {}
  | string {t : Token} (h : [t].Sublist ts) (ht : t.kind = .string) :
    StandsIn file ts ⟨(Literal.value t.text).trim, t.span⟩
  | brackets {opener closer : Token} (h : [opener, closer].Sublist ts) (hopener : opener.kind = .lbracket)
    (hcloser : closer.kind = .rbracket) :
    StandsIn file ts ⟨(file.text ⟨opener.span.file, opener.span.stop, closer.span.start⟩).trim,
      opener.span.cover closer.span⟩

theorem RawMult.StandsIn.mono (h : m.StandsIn file after) (hleft : ReadsUpTo before after) :
    m.StandsIn file before := by
  cases h with
  | nowhere => exact .nowhere
  | string h ht => exact .string (hleft.sublist h (by simp [ht])) ht
  | brackets h hopener hcloser =>
    exact .brackets (hleft.sublist h (by simp [hopener, hcloser])) hopener hcloser

/-- What reads tokens leaves some of them, and its multiplicities stand among them. -/
structure ReadsMults (file : File) (before : List Token) (ms : List RawMult) (after : List Token) : Prop where
  left : ReadsUpTo before after
  stand : ∀ m ∈ ms, m.StandsIn file before

namespace ReadsMults

variable {ms ms' : List RawMult}

theorem of_upTo (h : ReadsUpTo before after) : ReadsMults file before [] after := ⟨h, List.forall_mem_nil _⟩

theorem trans (h : ReadsMults file before ms mid) (h' : ReadsMults file mid ms' after) :
    ReadsMults file before (ms ++ ms') after :=
  ⟨h.left.trans h'.left, List.forall_mem_append.2 ⟨h.stand, fun m hm => (h'.stand m hm).mono h.left⟩⟩

/-- Tokens around what is read hold no multiplicity. -/
theorem behind (hbefore : ReadsUpTo before mid) (h : ReadsMults file mid ms after) :
    ReadsMults file before ms after := by
  simpa using (of_upTo hbefore).trans h

theorem ahead (h : ReadsMults file before ms mid) (hafter : ReadsUpTo mid after) :
    ReadsMults file before ms after := by
  simpa using h.trans (of_upTo hafter)

end ReadsMults

/-! ## Parts of a relationship -/

theorem ReadsSegments.upTo {path path' : Bytes × Span} (h : ReadsSegments path before path' after) :
    ReadsUpTo before after := by
  induction h with
  | nil => exact .refl _
  | cons _ _ _ ih => exact (ReadsUpTo.append [_, _] _).trans ih

theorem ReadsPath.upTo {path : Bytes × Span} (h : ReadsPath before path after) : ReadsUpTo before after := by
  cases h with
  | intro _ hsegments => exact (ReadsUpTo.cons _ _).trans hsegments.upTo

theorem Endpoint.Reads.upTo {e : Endpoint} (h : e.Reads before after) : ReadsUpTo before after := by
  cases h with
  | plain hpath => exact hpath.upTo
  | starred _ hpath => exact (ReadsUpTo.cons _ _).trans hpath.upTo

theorem RawMult.ReadsTokens.mults (h : RawMult.ReadsTokens file before m after) :
    ReadsMults file before [m] after := by
  cases h with
  | none => exact ⟨.refl _, List.forall_mem_singleton.2 .nowhere⟩
  | quoted ht => exact ⟨.cons _ _, List.forall_mem_singleton.2 (.string (by simp) ht)⟩
  | @bracketed opener closer inner _ hopener _ hcloser =>
    refine ⟨?_, List.forall_mem_singleton.2 (.brackets (by simp) hopener hcloser)⟩
    simpa using ReadsUpTo.append (opener :: inner ++ [closer]) after

theorem RawMult.ReadsTarget.mults {ahead : RawMult} (h : RawMult.ReadsTarget file ahead before m after) :
    ReadsUpTo before after ∧ (m = ahead ∨ m.StandsIn file before) := by
  cases h with
  | ahead => exact ⟨.refl _, .inl rfl⟩
  | behind _ _ hmult _ => exact ⟨hmult.mults.left, .inr (hmult.mults.stand _ (by simp))⟩

theorem Link.ReadsLabel.upTo {label : Bytes} (h : Link.ReadsLabel before label after) : ReadsUpTo before after := by
  cases h with
  | none => exact .refl _
  | string => exact .cons _ _

theorem ReadsBody.upTo {members : List Member} (h : ReadsBody before members after) : ReadsUpTo before after := by
  cases h with
  | none => exact .refl _
  | @braces opener closer inner => simpa using ReadsUpTo.append (opener :: inner ++ [closer]) after

theorem Link.Reads.mults {l : Link} (h : l.Reads file before after) : ReadsMults file before l.mults after := by
  obtain ⟨hfrom, -, -, -, hahead, htarget, hto, hlabel⟩ := h
  obtain ⟨hleft, hmult⟩ := hto.mults
  have hop := hfrom.mults.ahead (.cons _ _)
  have hbehind := hahead.mults.ahead htarget.upTo
  refine (hop.trans (?_ : ReadsMults file _ [l.toMult] _)).ahead hlabel.upTo
  refine ⟨hbehind.left.trans hleft, List.forall_mem_singleton.2 ?_⟩
  rcases hmult with heq | hstands
  · exact heq ▸ hbehind.stand _ (by simp)
  · exact hstands.mono hbehind.left

theorem ReadsEach.mults {α : Type} {reads : List Token → α → List Token → Prop} {mults : α → List RawMult}
    (hreads : ∀ {before a after}, reads before a after → ReadsMults file before (mults a) after) {as : List α}
    (h : ReadsEach reads before as after) : ReadsMults file before (as.flatMap mults) after := by
  induction h with
  | nil => exact .of_upTo (.refl _)
  | cons h _ ih =>
    rw [List.flatMap_cons]
    exact (hreads h).trans ih

theorem Link.ReadsChain.mults {l : Link} (h : l.ReadsChain file before after) :
    ReadsMults file before l.mults after := by
  obtain ⟨mid, hlink, hbody⟩ := h
  exact hlink.mults.ahead hbody.upTo

/-! ## Statements -/

theorem ReadsTypeParams.upTo {ps : List TypeParam} (h : ReadsTypeParams before ps after) : ReadsUpTo before after := by
  cases h with
  | none => exact .refl _
  | @angles opener closer inner => simpa using ReadsUpTo.append (opener :: inner ++ [closer]) after
  | @half opener closer inner ts =>
    have hts : ReadsUpTo (opener :: (inner ++ closer :: ts)) ts := by
      simpa using ReadsUpTo.append (opener :: inner ++ [closer]) ts
    rw [ReadsUpTo, List.filter_cons_of_neg (by simp [Stream.secondHalf])]
    exact hts

theorem EntityDecl.Reads.mults {e : EntityDecl} (h : e.Reads file before after) :
    ReadsMults file before (e.headers.flatMap Link.mults) after := by
  obtain ⟨-, -, -, -, -, -, hparams, hheaders, hbody⟩ := h
  refine .behind ((ReadsUpTo.append _ _).trans ((ReadsUpTo.append [_, _] _).trans hparams.upTo)) ?_
  exact (hheaders.mults fun h => h.1.mults).ahead hbody.upTo

theorem AssociationDecl.Reads.mults {a : AssociationDecl} (h : a.Reads g file before after) :
    ReadsMults file before [a.leftMult, a.rightMult] after := by
  obtain ⟨-, -, -, -, -, -, hleft, hleftMult, -, -, -, hrightMult, hright, -, hbody⟩ := h
  have hbehind := (hright.upTo.trans (.cons _ _)).trans hbody.upTo
  have hmults := (hleftMult.mults.ahead (.cons _ _)).trans (hrightMult.mults.ahead hbehind)
  exact .behind ((ReadsUpTo.append [_, _] _).trans (.append _ _)) (.behind ((ReadsUpTo.cons _ _).trans hleft.upTo) hmults)

theorem Decl.Reads.mults {d : Decl} (h : d.Reads g file before after) : ReadsMults file before d.mults after := by
  have hinner (keyword : Token) (inner : List Token) : ReadsMults file (keyword :: (inner ++ after)) [] after :=
    .of_upTo ((ReadsUpTo.cons _ _).trans (.append _ _))
  cases h with
  | entity h => exact h.mults
  | relationship hhead hlinks => exact .behind hhead.upTo (hlinks.mults fun h => Link.ReadsChain.mults h)
  | association h => exact h.mults
  | constraint => exact hinner _ _
  | note => exact hinner _ _
  | config => exact hinner _ _
  | comment => exact .of_upTo (.refl _)
  | kept => exact .of_upTo (.append _ _)

/-- The multiplicities of all relationships stand among the tokens that the statements are read off. -/
theorem Statement.ReadsAll.mults {ss : List Statement} (h : Statement.ReadsAll g file before ss after) :
    ReadsMults file before (Statement.multsOf ss) after := by
  induction h with
  | nil => exact .of_upTo (.refl _)
  | dropped _ _ ih => exact .behind (.append _ _) ih
  | decl h _ ih => exact h.mults.trans ih
  | package _ hname _ _ _ _ _ ih ih' =>
    refine .behind ((ReadsUpTo.cons _ _).trans (hname.upTo.trans ((ReadsUpTo.append _ _).trans (.cons _ _)))) ?_
    exact (ih.ahead (.cons _ _)).trans ih'

end Uml
