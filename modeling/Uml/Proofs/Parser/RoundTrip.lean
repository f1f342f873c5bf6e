import Mathlib
import Uml.Proofs.Parser.Rendered

/-!
# A rendered type is read back

A class with one attribute, whose type is written as types are rendered, lexes and parses without a
diagnostic, and the attribute has the type again.
-/
namespace Uml

open Lexeme

namespace Parse

variable {rest : List Lexeme} {t : TypeExpr}

/-! ## The member -/

theorem memberEnded_looks (ls : List Lexeme) : memberEnded.Looks ls fun _ => True := by
  intro st _
  refine ⟨?_, trivial⟩
  unfold memberEnded
  rw [run_bind]
  split <;> rfl

theorem memberEnded_closed (ls : List Lexeme) : memberEnded.Looks (rbrace :: ls) (· = true) := by
  intro st hs
  have hkind : (peek.run st).1.kind = .rbrace := hs.seen.eq (by decide)
  unfold memberEnded
  rw [run_bind, hkind]
  exact ⟨rfl, rfl⟩

theorem memberModifiers_reads_none {l : Lexeme} (l' : Lexeme) (hl : l.kind ≠ .gt) (heof : l.kind ≠ .eof)
    (h : (∀ token : Token, token.kind = l.kind → token.text = l.text →
      Modifier.ofMemberToken? token = none) ∨ l'.kind.isWord = false ∧ l'.kind ≠ .slash ∧ l'.kind ≠ .gt)
    (ls : List Lexeme) : memberModifiers.Reads [] (l :: l' :: ls) fun _ => True := by
  refine loop_stops (loopsTerminate (g := {})).memberModifiers ?_
  refine .look (peek_looks l _) fun token htoken => .look (peekAt_looks hl heof l' ls) fun next hnext => ?_
  rcases h with hnone | ⟨hword, hslash, hgt⟩
  · rw [hnone token (htoken.1.eq hl) (htoken.2 hl)]
    exact .pure ⟨_, rfl, trivial⟩
  · cases Modifier.ofMemberToken? token with
    | none => exact .pure ⟨_, rfl, trivial⟩
    | some m =>
      have hstops : (!next.isWord && next.kind ≠ .slash) = true := by
        simp [Token.isWord, hnext.eq hgt, hword, hslash]
      simp only [hstops, if_true]
      exact .pure ⟨_, rfl, trivial⟩

/-- A type begins with no modifier: a name that reads like one is a name, with no word behind it. -/
theorem memberModifiers_reads_type (hplain : t.isPlain = true) (rest : List Lexeme) :
    memberModifiers.Reads [] (t.lexemes ++ rbrace :: rest) fun _ => True := by
  obtain ⟨l, l', ls, hls, hl, hl'⟩ := TypeExpr.lexemes_second hplain rbrace rest
  have hkinds : ∀ k ∈ TypeExpr.starts, k ≠ .gt ∧ k ≠ .eof ∧ Modifier.ofKeyword? k = none := by decide
  obtain ⟨hgt, heof, hkeyword⟩ := hkinds _ hl
  rw [hls]
  refine memberModifiers_reads_none l' hgt heof ?_ ls
  by_cases hident : l.kind = .ident
  · right
    rcases hl' hident with hmem | rfl
    · have hmarks : ∀ k ∈ [Kind.dot, .lt, .lbracket, .lparen], k.isWord = false ∧ k ≠ .slash ∧ k ≠ .gt := by
        decide
      exact hmarks _ hmem
    · decide
  · left
    intro token htoken _
    simp [Modifier.ofMemberToken?, htoken, hkeyword, hident]

theorem operator?_reads_none {l : Lexeme} (hgt : l.kind ≠ .gt) (hl : l.kind.isRelationship = false)
    (ls : List Lexeme) : operator?.Reads [] (l :: ls) (· = none) := by
  refine .look (peek_looks l ls) fun token htoken => ?_
  have hno : token.isRelationship = false := by rw [Token.isRelationship, htoken.1.eq hgt, hl]
  rw [hno]
  exact .pure rfl

/-- What is behind the colon of an attribute is its type, where nothing else follows. -/
theorem memberSuffix_reads (hplain : t.isPlain = true) (hfits : t.fitsWithin maxTypeDepth = true)
    (m : Member) : (memberSuffix {} m).Reads t.lexemes (rbrace :: rest)
      fun m' => m'.name = m.name ∧ ∃ t', m'.type? = some t' ∧ t'.bare = t.bare := by
  obtain ⟨first, ls, hls, hfirst⟩ := TypeExpr.lexemes_starts hplain
  have hkinds : ∀ k ∈ TypeExpr.starts, k ≠ .gt ∧ k.isRelationship = false := by decide
  have hoperator := operator?_reads_none (hkinds _ hfirst).1 (hkinds _ hfirst).2 (ls ++ rbrace :: rest)
  have htype := requiredWith_reads rest hplain (typeWithin_reads hplain hfits)
    (l := .rbrace) (by decide) m.name
  have hmodifiers := memberModifiers_reads_type hplain rest
  rw [← List.cons_append, ← hls] at hoperator
  refine .skip hoperator fun _ _ => .skip hmodifiers fun mods _ => ?_
  refine .andThen htype fun t' ht' => .no (isAt_misses (by decide) _) ?_
  refine .skip (P := fun _ => True) (.pure trivial) fun mult _ => ?_
  refine .skip (operator?_reads_none (by decide) (by decide) _) fun _ _ => ?_
  refine .no (isAt_misses (by decide) _) (.skip (P := fun _ => True) (.pure trivial) fun label _ => ?_)
  refine .no (isAt_misses (by decide) _) (.skip (P := fun _ => True) (.pure trivial) fun label _ => ?_)
  exact .pure ⟨rfl, t', rfl, ht'⟩

theorem newMember_reads (m : Member) (rest : List Lexeme) :
    (newMember m).Reads [] rest fun m' => ∃ id, m' = { m with id } :=
  fun _ hs => ⟨hs, rfl, _, rfl⟩

/-- What stands between the braces of the class. -/
def memberLexemes (t : TypeExpr) : List Lexeme := word "x" :: colon :: t.lexemes

def IsAttribute (t : TypeExpr) (m : Member) : Prop :=
  m.name = "x" ∧ ∃ t', m.type? = some t' ∧ t'.bare = t.bare

theorem word_x : word "x" = ⟨.ident, "x"⟩ := by decide

theorem member_reads (hplain : t.isPlain = true) (hfits : t.fitsWithin maxTypeDepth = true) :
    (member {}).Reads (memberLexemes t) (rbrace :: rest) fun r => ∃ m, r = .ok m ∧ IsAttribute t m := by
  rw [memberLexemes, word_x]
  refine .look (peek_looks _ _) fun _ _ => .look (peek_looks _ _) fun mark hmark => ?_
  have hmark : Visibility.ofKind mark.kind = .unstated := by rw [hmark.1.eq (by decide)]; rfl
  simp only [hmark, ne_eq, not_true_eq_false, if_false]
  have hmodifiers := memberModifiers_reads_none (l := ⟨.ident, "x"⟩) colon (by decide) (by decide)
    (.inr (by decide)) (t.lexemes ++ rbrace :: rest)
  refine .skip hmodifiers fun mods _ => ?_
  refine .look (eat_misses (l := ⟨.ident, "x"⟩) (k := .slash) (by decide) _) fun _ _ => ?_
  refine .look (peek_looks _ _) fun name hname => ?_
  have hword : name.isWord = true := by rw [Token.isWord, hname.1.eq (by decide)]; rfl
  simp only [hword, Bool.not_true, Bool.false_eq_true, if_false]
  refine .step (advance_reads (by decide) (by decide) _) fun _ _ => ?_
  refine .no (isAt_misses (by decide) _) (.skip (P := fun m : Member => m.name = ("x" : Bytes))
    (.pure (hname.2 (by decide))) fun m hm => ?_)
  refine .look (isAt_meets (l := colon) (by decide) _) fun found hfound => ?_
  refine .look (memberEnded_looks _) fun ended _ => ?_
  rw [hfound, Bool.not_true, Bool.false_and, if_neg Bool.false_ne_true]
  refine .takes (l := colon) (by decide) (by decide) (.andThen (memberSuffix_reads hplain hfits m) ?_)
  rintro m' ⟨hname', t', htype, ht'⟩
  refine .look (upToLast_looks _ _) fun span _ => .map ((newMember_reads _ _).mono ?_)
  rintro _ ⟨id, rfl⟩
  exact ⟨_, rfl, hname'.trans hm, t', htype, ht'⟩

/-- A name with a colon behind it starts no declaration. -/
theorem atDeclarationStart_looks {l l' : Lexeme} (hl : l.kind = .ident) (hl' : l'.kind = .colon)
    (ls : List Lexeme) : atDeclarationStart.Looks (l :: l' :: ls) (· = false) := by
  intro st hs
  have h0 : st.stream.kindAt 0 = .ident := (hs.seen.eq (by simp [hl])).trans hl
  have h1 : st.stream.kindAt 1 = .colon :=
    (kindAt_one hs (by simp [hl]) (by simp [hl]) (by simp [hl'])).trans hl'
  have hno : st.stream.atDeclaration = false := by
    have hpackage : st.stream.canStartPackage = false := decide_eq_false (by
      show st.stream.kindAt 0 ≠ .kwPackage
      simp [h0])
    have hentity : st.stream.entityKeywordAt? = none := by
      have hscan : st.stream.scanModifiers st.stream.rest.length 0 = 0 := by
        cases st.stream.rest.length <;> simp [Stream.scanModifiers, h0, Kind.isEntityModifier]
      simp [Stream.entityKeywordAt?, hscan, h0, Kind.isEntityKeyword]
    have hpath : st.stream.scanEndpoint 0 = 1 := by
      have hsegments : st.stream.scanSegments st.stream.rest.length 1 = 1 := by
        cases st.stream.rest.length <;> simp [Stream.scanSegments, h1]
      simp [Stream.scanEndpoint, Stream.scanPath, h0, hsegments]
    have hrelation : st.stream.canStartRelationship = false := by
      simp [Stream.canStartRelationship, hpath, Stream.scanMult, h1, Kind.isRelationship]
    simp [Stream.atDeclaration, hpackage, hentity, hrelation]
  refine ⟨rfl, ?_⟩
  show (decide (_ < _) && st.stream.atDeclaration) = false
  rw [hno, Bool.and_false]

/-- A round that reads a member and finds nothing else behind it. -/
theorem run_memberRound {v : Array Member × PendingDoc} {st : ParseState} {m : Member}
    (hkind : st.stream.peekRaw.kind = .ident) (hdecl : atDeclarationStart.run st = (false, st))
    (hm : ((member {}).run st).1 = .ok m)
    (hmoved : ((member {}).run st).2.stream.movedFrom st.stream = true) :
    (memberRound {} false v).run st = (do
        finishMember {} st.stream
        pure (Round.again (v.1.push { m with doc := v.2.text }, { v.2 with text := [] }))).run
      ((member {}).run st).2 := by
  have hraw : (peekRaw.run st).1.kind = .ident := hkind
  unfold memberRound
  rw [run_bind, hraw]
  show StateT.run (atDeclarationStart >>= _) st = _
  rw [run_bind, hdecl]
  simp only [Bool.false_eq_true, if_false, Bool.false_and]
  rw [run_bind, run_bind]
  show StateT.run (member {} >>= _) st = _
  rw [run_bind, hm]
  simp only
  rw [run_bind]
  show StateT.run (if (!((member {}).run st).2.stream.movedFrom st.stream) = true then _ else _) _ = _
  rw [hmoved]
  rfl

theorem finishMember_reads (start : Stream) (rest : List Lexeme) :
    (finishMember {} start).Reads [] (rbrace :: rest) fun _ => True :=
  .yes (memberEnded_closed _) (.pure trivial)

theorem memberRound_reads (hplain : t.isPlain = true) (hfits : t.fitsWithin maxTypeDepth = true)
    (v : Array Member × PendingDoc) : (memberRound {} false v).Reads (memberLexemes t) (rbrace :: rest)
      fun r => ∃ m doc, r = .again (v.1.push m, doc) ∧ doc.text = [] ∧ IsAttribute t m := by
  intro st hs
  obtain ⟨hs', hfindings, m, hm, hattr⟩ := member_reads hplain hfits st hs
  have hmoved := Stream.Shows.movedFrom hs hs' (triple_iff_run.1 (member_spec (g := {}) st)).1 (by simp; omega)
  rw [memberLexemes, word_x] at hs
  have hkind : st.stream.peekRaw.kind = .ident := hs.peekRaw_eq ▸ hs.seen.eq (by decide)
  have hdecl : atDeclarationStart.run st = (false, st) :=
    Prod.ext (atDeclarationStart_looks rfl rfl _ st hs).2 (atDeclarationStart_looks rfl rfl _ st hs).1
  rw [run_memberRound hkind hdecl hm hmoved]
  obtain ⟨hs'', hfindings', -⟩ := finishMember_reads st.stream rest _ hs'
  exact ⟨hs'', hfindings'.trans hfindings, _, _, rfl, rfl, hattr⟩

theorem memberList_reads (hplain : t.isPlain = true) (hfits : t.fitsWithin maxTypeDepth = true) :
    (memberList {} false).Reads (memberLexemes t) (rbrace :: rest)
      fun ms => ∃ m, ms = [m] ∧ IsAttribute t m := by
  have hloop := loop_once (memberLexemes t) [] (rbrace :: rest) (memberRound_terminates (g := {}) false)
    (P := fun v => v.2.text = [] ∧ ∃ m, v.1 = #[m] ∧ IsAttribute t m)
    (Q := fun v => ∃ m, v.1 = #[m] ∧ IsAttribute t m) (v := (#[], {}))
    ((memberRound_reads hplain hfits _).mono ?_) ?_
  · rw [List.append_nil] at hloop
    refine .andThen hloop ?_
    rintro ⟨found, doc⟩ ⟨m, rfl, hm⟩
    exact .pure ⟨m, rfl, hm⟩
  · rintro _ ⟨m, doc, rfl, hdoc, hm⟩
    exact ⟨_, rfl, hdoc, m, rfl, hm⟩
  · rintro ⟨found, doc⟩ ⟨hdoc, hv⟩
    unfold memberRound
    refine .look (peekRaw_looks _ _) fun raw hraw => ?_
    have hkind : raw.kind = .rbrace := hraw.1.eq (by decide)
    simp only [hkind, show doc.text = [] from hdoc, List.isEmpty_nil, Bool.not_true, Bool.false_eq_true, if_false]
    exact .pure ⟨_, rfl, hv⟩

/-! ## The class -/

theorem entityBody_reads (hplain : t.isPlain = true) (hfits : t.fitsWithin maxTypeDepth = true)
    (owner : Bytes) : (entityBody {} .cls owner).Reads (lbrace :: memberLexemes t ++ [rbrace]) rest
      fun ms => ∃ m, ms = [m] ∧ IsAttribute t m := by
  refine .step (advance_reads (by decide) (by decide) _) fun opener _ => ?_
  refine .bind (memberList_reads hplain hfits) fun members hmembers => ?_
  exact .andThen (closeBrace_reads _ _ _) fun _ _ => .pure hmembers

theorem headers_reads_none (ls : List Lexeme) :
    headers.Reads [] (lbrace :: ls) fun r => ∃ links, r = .ok links := by
  refine loop_stops (loopsTerminate (g := {})).headers ?_
  have hnone : atHeader.Looks (lbrace :: ls) (· = false) := by
    intro st hs
    have h0 : st.stream.kindAt 0 = .lbrace := hs.seen.eq (by decide)
    have hpeek : st.stream.peek.kind = .lbrace := h0
    refine ⟨rfl, ?_⟩
    show (st.stream.peek.isRelationship || st.stream.multThenOperator) = false
    simp [Token.isRelationship, hpeek, Kind.isRelationship, Stream.multThenOperator, Stream.scanMult, h0]
  refine .look hnone ?_
  rintro _ rfl
  exact .pure ⟨_, rfl, _, rfl⟩

theorem entityModifiers_reads_none (ls : List Lexeme) :
    entityModifiers.Reads [] (word "class" :: ls) fun _ => True := by
  have hclass : word "class" = ⟨.kwClass, "class"⟩ := by decide
  rw [hclass]
  refine loop_stops (loopsTerminate (g := {})).entityModifiers (.look (peek_looks _ _) fun token htoken => ?_)
  have hnone : Modifier.ofKeyword? token.kind = none := by rw [htoken.1.eq (by decide)]; rfl
  rw [hnone]
  exact .pure ⟨_, rfl, trivial⟩

theorem newDecl_reads (span : Span) (d : Decl) (rest : List Lexeme) :
    (newDecl span d).Reads [] rest fun s => ∃ tag, s = .decl tag d :=
  fun _ hs => ⟨hs, rfl, _, rfl⟩

/-- A class whose only member is an attribute. -/
def classLexemes (t : TypeExpr) : List Lexeme :=
  word "class" :: word "Owner" :: lbrace :: memberLexemes t ++ [rbrace]

def IsOwner (t : TypeExpr) (s : Statement) : Prop :=
  ∃ tag e m, s = .decl tag (.entity e) ∧ e.kind = .cls ∧ e.name = "Owner" ∧ e.members = [m] ∧ IsAttribute t m

theorem entity_reads (hplain : t.isPlain = true) (hfits : t.fitsWithin maxTypeDepth = true) :
    (entity {}).Reads (classLexemes t) rest fun r => ∃ s, r = .ok (some s) ∧ IsOwner t s := by
  have hclass : word "class" = ⟨.kwClass, "class"⟩ := by decide
  have howner : word "Owner" = ⟨.ident, "Owner"⟩ := by decide
  have hmodifiers := entityModifiers_reads_none (word "Owner" :: lbrace :: memberLexemes t ++ [rbrace] ++ rest)
  rw [classLexemes]
  rw [hclass, howner] at hmodifiers ⊢
  refine .look (peek_looks _ _) fun _ _ => .skip hmodifiers fun modifiers _ => ?_
  refine .step (advance_reads (by decide) (by decide) _) fun keyword hkeyword => ?_
  refine .look (peek_looks _ _) fun name hname => ?_
  have hkind : name.kind = .ident := hname.1.eq (by decide)
  simp only [hkind, ne_eq, not_true_eq_false, if_false]
  refine .step (advance_reads (by decide) (by decide) _) fun _ _ => ?_
  refine .no (isAt_misses (by decide) _) (.skip (P := fun _ => True) (.pure trivial) fun params _ => ?_)
  refine .skip (headers_reads_none _) ?_
  rintro _ ⟨links, rfl⟩
  have hcls : (EntityKind.ofKeyword? keyword.kind).getD .cls = .cls := by rw [hkeyword.1]; rfl
  simp only [hcls]
  refine .look (isAt_meets (l := lbrace) (by decide) _) ?_
  rintro _ rfl
  simp only [if_true]
  refine .andThen (entityBody_reads hplain hfits _) ?_
  rintro _ ⟨m, rfl, hm⟩
  refine .look (upToLast_looks _ _) fun span _ => .andThen (newDecl_reads _ _ _) ?_
  rintro _ ⟨tag, rfl⟩
  exact .pure ⟨_, rfl, tag, _, m, rfl, rfl, hname.2 (by decide), rfl, hm⟩

/-- Rules that cannot start here are passed over. -/
theorem firstRule_skips {all before rules : List Rule} {statement : Parse (Option Statement)}
    {st : ParseState} (h : ∀ rule ∈ before, rule.canStart st.stream = false) :
    (firstRule all statement st.stream (before ++ rules)).run st
      = (firstRule all statement st.stream rules).run st := by
  induction before with
  | nil => rfl
  | cons rule before ih =>
    obtain ⟨hrule, hbefore⟩ := List.forall_mem_cons.1 h
    rw [List.cons_append, firstRule, run_bind]
    show StateT.run (if rule.canStart st.stream = true then _ else _) st = _
    rw [hrule]
    exact ih hbefore

/-- A rule that starts here and takes something decides. -/
theorem firstRule_takes (rule : Rule) {all rules : List Rule} {statement : Parse (Option Statement)}
    {st : ParseState} {found : Option Statement} (h : rule.canStart st.stream = true)
    (hfound : ((rule.parse statement).run st).1 = .ok found)
    (hmoved : ((rule.parse statement).run st).2.stream.movedFrom st.stream = true) :
    (firstRule all statement st.stream (rule :: rules)).run st
      = (found, ((rule.parse statement).run st).2) := by
  rw [firstRule, run_bind]
  show StateT.run (if rule.canStart st.stream = true then _ else _) st = _
  rw [h, if_pos rfl, run_bind, hfound]
  simp only
  rw [run_bind]
  show StateT.run (if ((rule.parse statement).run st).2.stream.movedFrom st.stream = true then _ else _) _ = _
  rw [hmoved]
  rfl

theorem canStartEntity_of_keyword {s : Stream} (h : s.peek.kind.isEntityKeyword = true) : s.canStartEntity = true := by
  have h0 : (s.kindAt 0).isEntityKeyword = true := h
  have hplain : (s.kindAt 0).isEntityModifier = false := by
    revert h0
    cases s.kindAt 0 <;> decide
  have hscan : s.scanModifiers s.rest.length 0 = 0 := by
    cases s.rest.length <;> simp [Stream.scanModifiers, hplain]
  simp [Stream.canStartEntity, Stream.entityKeywordAt?, hscan, h0]

/-- At the keyword of an entity, the rule of entities decides. -/
theorem run_statement_entity {st : ParseState} {found : Option Statement} (hraw : st.stream.peekRaw = st.stream.peek)
    (hpeek : st.stream.peek.kind.isEntityKeyword = true) (hok : ((entity {}).run st).1 = .ok found)
    (hmoved : ((entity {}).run st).2.stream.movedFrom st.stream = true) :
    (statement {}).run st = (found, ((entity {}).run st).2) := by
  have hkinds : ∀ k : Kind, k.isEntityKeyword = true → k ≠ .docComment ∧ k ≠ .comment ∧ k ≠ .kwConfig ∧ k ≠ .atSign
      ∧ k ≠ .kwConstraint ∧ k ≠ .kwNote ∧ k ≠ .kwAssociation ∧ k ≠ .kwPackage := by
    intro k
    cases k <;> decide
  obtain ⟨hdoc, hcomment, hconfig, hat, hconstraint, hnote, hassociation, hpackage⟩ := hkinds _ hpeek
  have hpeekRaw : peekRaw.run st = (st.stream.peek, st) := Prod.ext hraw rfl
  have hstream : stream.run st = (st.stream, st) := rfl
  rw [statement, run_bind, hstream]
  dsimp only
  rw [statementWithin]
  generalize statementWithin {} st.stream.rest.length = inner
  rw [statementOver, run_bind, hpeekRaw]
  split
  case h_1 h => exact absurd h hdoc
  case h_2 h => exact absurd h hcomment
  have hrules : allRules {} = builtinRules {} := rfl
  rw [run_bind, hstream, hrules]
  rw [← List.take_append_drop 6 (builtinRules {}), firstRule_skips]
  · exact firstRule_takes ⟨"entity", Stream.canStartEntity, fun _ => entity {}⟩
      (canStartEntity_of_keyword hpeek) hok hmoved
  · -- The rules before that of entities ask for another keyword.
    simp [builtinRules, Stream.canStartConfig, Stream.canStartAtConfig, Stream.canStartConstraint,
      Stream.canStartNote, Stream.canStartAssociation, Stream.canStartPackage, Stream.isAt, hconfig, hat,
      hconstraint, hnote, hassociation, hpackage]

theorem statement_reads (rest : List Lexeme) (hplain : t.isPlain = true) (hfits : t.fitsWithin maxTypeDepth = true) :
    (statement {}).Reads (classLexemes t) rest fun r => ∃ s, r = some s ∧ IsOwner t s := by
  intro st hs
  obtain ⟨hs', hfindings, s, hok, howner⟩ := entity_reads hplain hfits st hs
  have hmoved := Stream.Shows.movedFrom hs hs' (triple_iff_run.1 (entity_spec (g := {}) st)).1 (by simp; omega)
  have hpeek : st.stream.peek.kind = .kwClass := hs.seen.eq (by decide)
  rw [run_statement_entity hs.peekRaw_eq (by rw [hpeek]; rfl) hok hmoved]
  exact ⟨hs', hfindings, s, rfl, howner⟩

def eof : Lexeme := ⟨.eof, []⟩

theorem document_reads (hplain : t.isPlain = true) (hfits : t.fitsWithin maxTypeDepth = true) :
    (document {}).Reads (classLexemes t) [eof] fun p => ∃ s, p.statements = [s] ∧ IsOwner t s := by
  have hclass : word "class" = ⟨.kwClass, "class"⟩ := by decide
  have hstatement := statement_reads [eof] hplain hfits
  have hloop := loop_once (classLexemes t) [] [eof] ((loopsTerminate (g := {})).statements false)
    (P := fun v => ∃ s, v = #[s] ∧ IsOwner t s) (Q := fun v => ∃ s, v = #[s] ∧ IsOwner t s) (v := #[]) ?_ ?_
  · rw [List.append_nil] at hloop
    refine .look (peekRaw_looks (word "class") _) fun first _ => ?_
    refine .andThen (.andThen hloop ?_ : (statements (statement {}) false).Reads _ _
      fun ss => ∃ s, ss = [s] ∧ IsOwner t s) ?_
    · rintro _ ⟨s, rfl, hs⟩
      exact .pure ⟨s, rfl, hs⟩
    · rintro _ ⟨s, rfl, hs⟩
      refine .look (peek_looks eof _) fun _ _ => .pure ⟨s, rfl, hs⟩
  · rw [classLexemes, hclass] at hstatement ⊢
    unfold statementRound
    refine .look (peekRaw_looks _ _) fun raw hraw => ?_
    have hkind : raw.kind = .kwClass := hraw.1.eq (by decide)
    simp only [hkind]
    refine .andThen hstatement ?_
    rintro _ ⟨s, rfl, hs⟩
    exact .pure ⟨_, rfl, s, rfl, hs⟩
  · rintro v hv
    unfold statementRound
    refine .look (peekRaw_looks _ _) fun raw hraw => ?_
    have hkind : raw.kind = .eof := hraw.1.eq (by decide)
    simp only [hkind]
    exact .pure ⟨v, rfl, hv⟩

end Parse

/-! ## The text -/

/-- A class with an attribute of the type, written as types are rendered. -/
def TypeExpr.ownerText (t : TypeExpr) : Bytes := "class Owner \x7b x: " ++ t.render ++ "\n\x7d"

theorem ownerText_spells {t : TypeExpr} (hplain : t.isPlain = true) :
    Spells t.ownerText (Parse.classLexemes t) := by
  have hclose : Spells (0x0A :: [0x7D]) [rbrace] :=
    .blank (.inr rfl) (.mark rfl (by decide) (by decide) .nil)
  have htype := TypeExpr.isPlain_spelled hplain (b := 0x0A) (by decide) rfl hclose
  have hcolon : Spells (0x3A :: 0x20 :: _) (colon :: _) := .mark rfl (by decide) (by decide) htype.space
  have hname := (hcolon.word (w := "x") (by decide) (b := 0x3A) (by decide) rfl).space
  have hopen : Spells (0x7B :: 0x20 :: _) (lbrace :: _) := .mark rfl (by decide) (by decide) hname
  have howner := (hopen.space.word (w := "Owner") (by decide) (b := 0x20) (by decide) rfl).space
  have hclass := howner.word (w := "class") (by decide) (b := 0x20) (by decide) rfl
  exact hclass

theorem Stream.shows_ofTokens {ts : List Token} {ls : List Lexeme} (hts : ts.flatMap Token.lexemes = ls)
    (hls : ∀ l ∈ ls, l.kind.isTrivia = false) {e : Token} (he : e.kind = .eof) (htext : e.text = []) :
    (Stream.ofTokens (ts ++ [e])).Shows (ls ++ [Parse.eof]) := by
  have hrest : (Stream.ofTokens (ts ++ [e])).rest = ts ++ [e] := by simp [ofTokens, closed, he]
  have hplain : ∀ t ∈ ts, t.isTrivia = false := fun t ht => by
    by_cases hinherit : t.kind = .inherit
    · simp [Token.isTrivia, hinherit, Kind.isTrivia]
    · refine hls ⟨t.kind, t.text⟩ (hts ▸ List.mem_flatMap.2 ⟨t, ht, ?_⟩)
      simp [Token.lexemes, hinherit]
  refine ⟨closed_sound _, ?_, ?_⟩
  · rw [hrest]
    refine List.forall_mem_append.2 ⟨hplain, List.forall_mem_singleton.2 ?_⟩
    simp [Token.isTrivia, he, Kind.isTrivia]
  · rw [lexemes, hrest, List.flatMap_append, hts]
    simp [ofTokens, Token.lexemes, he, htext, Parse.eof]

/-- A type that is rendered as the type of an attribute is read back as it was, without a diagnostic, up
to numbers and places. -/
theorem parse_render {t : TypeExpr} (hplain : t.isPlain = true)
    (hfits : t.fitsWithin maxTypeDepth = true) (file : File) (hcontent : file.content.toList = t.ownerText)
    (hsize : file.content.size + 1 < 2 ^ 32) (maxErrors : Nat) :
    (Lexer.tokenize file []).findings = []
      ∧ (parse {} file (Lexer.tokenize file []).tokens maxErrors).findings = []
      ∧ ∃ tag e m t', (parse {} file (Lexer.tokenize file []).tokens maxErrors).program.statements
          = [.decl tag (.entity e)] ∧ e.name = "Owner" ∧ e.members = [m] ∧ m.name = "x"
        ∧ m.type? = some t' ∧ t'.bare = t.bare := by
  have hspells := ownerText_spells hplain
  obtain ⟨hfindings, ts, htokens, hts⟩ := Lexer.tokenize_spells (hcontent ▸ hspells) hsize
  rw [htokens]
  have hshows := Stream.shows_ofTokens hts hspells.significant (e := Lexer.endToken file) rfl rfl
  obtain ⟨-, hnone, s, hs, tag, e, m, rfl, -, hname, hmembers, hm, t', htype, ht'⟩ :=
    Parse.document_reads hplain hfits { stream := .ofTokens (ts ++ [Lexer.endToken file]), file, maxErrors } hshows
  refine ⟨hfindings, ?_, tag, e, m, t', hs, hname, hmembers, hm, htype, ht'⟩
  show (StateT.run (Parse.document {}) _).2.findings.toList = []
  rw [hnone]

/-- Lists of type arguments that close together, around the other forms. -/
def TypeExpr.nestedLists : TypeExpr :=
  let number : TypeExpr := .enumerated {} (.simple {} "enum_of") ["class", "readonly"]
  let shape : TypeExpr := .object {} [(⟨"package", true, {}⟩, .array {} (.array {} (.simple {} "a.on")))]
  .generic {} (.simple {} "readonly") [.union {} [shape, .literal {} "'>>'"] 0,
    .generic {} (.simple {} "List") [.generic {} (.simple {} "Set") [.literal {} "1.5", number]]]

theorem parse_render_nestedLists :
    TypeExpr.nestedLists.isPlain = true ∧ TypeExpr.nestedLists.fitsWithin maxTypeDepth = true
      ∧ ∃ tag e m t', (parse {} (.ofBytes 1 [] TypeExpr.nestedLists.ownerText.toArray 0)
          (Lexer.tokenize (.ofBytes 1 [] TypeExpr.nestedLists.ownerText.toArray 0) []).tokens 0).program.statements
          = [.decl tag (.entity e)] ∧ e.members = [m] ∧ m.type? = some t' ∧ t'.bare = TypeExpr.nestedLists := by
  have hplain : TypeExpr.nestedLists.isPlain = true := by decide
  have hfits : TypeExpr.nestedLists.fitsWithin maxTypeDepth = true := by decide
  obtain ⟨-, -, tag, e, m, t', hs, -, hmembers, -, htype, ht'⟩ :=
    parse_render hplain hfits (.ofBytes 1 [] TypeExpr.nestedLists.ownerText.toArray 0)
      (by decide) (by decide) 0
  exact ⟨hplain, hfits, tag, e, m, t', hs, hmembers, htype, ht'.trans (by rfl)⟩

end Uml
