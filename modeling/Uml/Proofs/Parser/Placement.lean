import Mathlib
import Uml.Proofs.Lexer.Tiling
import Uml.Proofs.Parser.Termination

/-!
# Where statements lie

Statements lie in the program one behind the other, and so do the statements of a package, the links
of a chain and the members of a body in what holds them. This is so for every source text, however
broken: what a statement gives up is not in the tree, and going back never goes behind what is.
-/
namespace Uml

open Std.Do

set_option mvcgen.warning false

namespace Parse

/-- A parser of statements that does not go back, and what it makes lies on its way. -/
def Places (p : Parse (Option Statement)) : Prop :=
  ∀ st : ParseState, st.stream.Reaches (p.run st).2.stream
    ∧ st.stream.Lays (p.run st).2.stream (p.run st).1.toList

/-- A rule that places what it makes, wherever it can start, if nested statements are placed. -/
def PlacesRule (r : Rule) : Prop :=
  ∀ p, Places p → ∀ st : ParseState, st.stream.Reaches ((r.parse p).run st).2.stream
    ∧ (r.canStart st.stream = true →
      st.stream.Lays ((r.parse p).run st).2.stream (given Option.toList ((r.parse p).run st).1))

theorem Places.spec {p : Parse (Option Statement)} (h : Places p) (s : ParseState) :
    ⦃fun st => ⌜st = s⌝⦄ p
    ⦃⇓ r st => ⌜s.stream.Reaches st.stream ∧ s.stream.Lays st.stream r.toList⌝⦄ :=
  triple_iff_run.2 (h s)

theorem Places.of_spec {p : Parse (Option Statement)} (h : ∀ s, ⦃fun st => ⌜st = s⌝⦄ p
    ⦃⇓ r st => ⌜s.stream.Reaches st.stream ∧ s.stream.Lays st.stream r.toList⌝⦄) : Places p :=
  fun s => triple_iff_run.1 (h s)

theorem PlacesRule.spec {r : Rule} (h : PlacesRule r) {p : Parse (Option Statement)} (hp : Places p)
    (s : ParseState) :
    ⦃fun st => ⌜st = s⌝⦄ r.parse p
    ⦃⇓ found st => ⌜s.stream.Reaches st.stream ∧ (r.canStart s.stream = true →
      s.stream.Lays st.stream (given Option.toList found))⌝⦄ :=
  triple_iff_run.2 (h p hp s)

variable {p : Parse (Option Statement)}

theorem documented_places (hp : Places p) (s : ParseState) :
    ⦃fun st => ⌜st = s⌝⦄ documented p
    ⦃⇓ r st => ⌜s.stream.Reaches st.stream ∧ (s.stream.peekRaw.kind ≠ .eof →
      s.stream.Lays st.stream r.toList)⌝⦄ := by
  have hinner := hp.spec
  refine triple_intro fun Q hQ => ?_
  mvcgen [documented, newDecl, hinner] <;>
    grind -linarith [Stream.lays_nextRaw, Stream.Lays.comment, Stream.Lays.mono, Stream.Lays.withDoc]

/-- A skipped statement makes nothing, and each rule is tried where the first one was. -/
theorem firstRule_places (all : List Rule) (hp : Places p) {rules : List Rule}
    (h : ∀ r ∈ rules, PlacesRule r) (start : Stream) (s : ParseState) :
    ⦃fun st => ⌜st = s⌝⦄ firstRule all p start rules
    ⦃⇓ r st => ⌜s.stream = start → start.Reaches st.stream ∧ start.Lays st.stream r.toList⌝⦄ := by
  induction rules generalizing s with
  | nil =>
    refine triple_intro fun Q hQ => ?_
    mvcgen [firstRule]
    grind -linarith
  | cons rule rules ih =>
    have hrule := (h rule (by simp)).spec hp
    have hrest := ih fun r hr => h r (by simp [hr])
    refine triple_intro fun Q hQ => ?_
    mvcgen [firstRule, hrule, hrest] <;> grind -linarith

theorem statementRound_adds (hp : Places p) (nested : Bool) (v : Array Statement) (s : ParseState) :
    ⦃fun st => ⌜st = s⌝⦄ statementRound p nested v
    ⦃⇓ r st => ⌜Adds Array.toList s.stream v r.value st.stream⌝⦄ := by
  have hinner := hp.spec
  refine triple_intro fun Q hQ => ?_
  mvcgen [statementRound, hinner] <;> grind -linarith [Adds.none, Adds.one]

theorem statements_places (hp : Places p) (nested : Bool) (s : ParseState) :
    ⦃fun st => ⌜st = s⌝⦄ statements p nested
    ⦃⇓ found st => ⌜s.stream.Reaches st.stream ∧ s.stream.Lays st.stream found⌝⦄ := by
  have hloop := loop_lays Array.toList (statementRound_adds hp nested) (v := #[]) rfl
  mvcgen [statements, hloop]
  grind -linarith

variable {g : Grammar} [g.IsForward]

theorem package_places (hp : Places p) (s : ParseState) :
    ⦃fun st => ⌜st = s⌝⦄ package g p
    ⦃⇓ r st => ⌜s.stream.Reaches st.stream ∧ (s.stream.peek.kind ≠ .eof →
      s.stream.Lays st.stream (given Option.toList r))⌝⦄ := by
  have hbody := statements_places hp true
  refine triple_intro fun Q hQ => ?_
  mvcgen [package, hbody] <;> grind -linarith [Stream.Takes.lays_package, Stream.Lays.mono]

/-- Where one of these kinds is ahead, the end of the file is not. -/
theorem placesRule_of {r : Rule}
    (hstart : ∀ s : Stream, r.canStart s = true → s.peek.kind ≠ .eof)
    (h : ∀ p, Places p → ∀ s, ⦃fun st => ⌜st = s⌝⦄ r.parse p
      ⦃⇓ found st => ⌜s.stream.Reaches st.stream ∧ (s.stream.peek.kind ≠ .eof →
        s.stream.Lays st.stream (given Option.toList found))⌝⦄) : PlacesRule r :=
  fun p hp st => (triple_iff_run.1 (h p hp st)).imp_right fun hlays hcan => hlays (hstart _ hcan)

theorem placesRule_of_always {r : Rule}
    (h : ∀ p, Places p → ∀ s, ⦃fun st => ⌜st = s⌝⦄ r.parse p
      ⦃⇓ found st => ⌜s.stream.Reaches st.stream
        ∧ s.stream.Lays st.stream (given Option.toList found)⌝⦄) : PlacesRule r :=
  fun p hp st => (triple_iff_run.1 (h p hp st)).imp_right fun hlays _ => hlays

theorem builtinRules_place (r : Rule) (hr : r ∈ builtinRules g) : PlacesRule r := by
  simp only [builtinRules, List.mem_cons, List.not_mem_nil, or_false] at hr
  rcases hr with rfl | rfl | rfl | rfl | rfl | rfl | rfl | rfl
  · refine placesRule_of (fun s hs => ?_) fun _ _ => config_spec
    grind [Stream.canStartConfig, Stream.isAt]
  · refine placesRule_of (fun s hs => ?_) fun _ _ => atConfig_spec
    grind [Stream.canStartAtConfig, Stream.isAt]
  · refine placesRule_of (fun s hs => ?_) fun _ _ => constraint_spec
    grind [Stream.canStartConstraint, Stream.isAt]
  · refine placesRule_of (fun s hs => ?_) fun _ _ => note_spec
    grind [Stream.canStartNote, Stream.isAt]
  · refine placesRule_of (fun s hs => ?_) fun _ _ => association_spec
    grind [Stream.canStartAssociation, Stream.isAt]
  · refine placesRule_of (fun s hs => ?_) fun _ hp => package_places hp
    grind [Stream.canStartPackage, Stream.isAt]
  · exact placesRule_of_always fun _ _ => entity_spec
  · exact placesRule_of_always fun _ _ => relationship_spec

end Parse

/-- The statement forms that a language adds place what they make. -/
class Grammar.IsPlaced (g : Grammar) : Prop where
  rules : ∀ r ∈ g.rules, Parse.PlacesRule r

namespace Parse

variable {g : Grammar} [g.IsForward] [g.IsPlaced]

theorem statementOver_places {inner : Parse (Option Statement)} (h : Places inner) :
    Places (statementOver g inner) := by
  have hrules : ∀ r ∈ allRules g, PlacesRule r := fun r hr =>
    (List.mem_append.1 hr).elim (Grammar.IsPlaced.rules r) (builtinRules_place r)
  have hdocumented := documented_places h
  have hfirst := firstRule_places (allRules g) h hrules
  refine .of_spec fun s => triple_intro fun Q hQ => ?_
  mvcgen [statementOver, hdocumented, hfirst] <;> grind -linarith

theorem statementWithin_places (depth : Nat) : Places (statementWithin g depth) := by
  induction depth with
  | zero => exact fun st => ⟨.refl _, .nil⟩
  | succ depth ih => exact statementOver_places ih

theorem statement_places : Places (statement g) :=
  fun st => statementWithin_places (st.stream.rest.length + 1) st

/-- The tree of a document lies in its file, if the tokens do. -/
theorem document_isNested {file : File} {ts : List Token} (hlaid : (Stream.ofTokens ts).Laid file)
    (maxErrors : Nat) :
    ((document g).run { stream := .ofTokens ts, file, maxErrors }).1.IsNested file := by
  have hrun := triple_iff_run.1 (statements_places (statement_places (g := g)) false
    { stream := .ofTokens ts, file, maxErrors })
  generalize hst : (statements (statement g) false).run { stream := .ofTokens ts, file, maxErrors }
    = done at hrun
  obtain ⟨hreach, hlays⟩ := hrun
  have hdoc : ((document g).run { stream := .ofTokens ts, file, maxErrors }).1
      = ⟨(Stream.ofTokens ts).peekRaw.span.cover done.2.stream.peek.span, done.1⟩ := by
    rw [← hst]
    rfl
  have hext := hreach.extends hlaid
  have hfirst := hlaid.peekRaw_fits
  have hlast := hext.laid.peek_fits
  have hspan : (Stream.ofTokens ts).peekRaw.span.cover done.2.stream.peek.span
      = ⟨file.id, min (Stream.ofTokens ts).peekRaw.span.start done.2.stream.peek.span.start,
        max (Stream.ofTokens ts).peekRaw.span.stop done.2.stream.peek.span.stop⟩ := by
    rw [Span.cover, if_pos (hfirst.file_eq.trans hlast.file_eq.symm), hfirst.file_eq]
  obtain ⟨hholds, hnested⟩ := hlays file hlaid
  rw [hdoc, hspan]
  refine ⟨rfl, ?_, ?_, ⟨fun p hp => ?_, hholds.ordered⟩, hnested⟩
  · have := hfirst.start_le
    simp only
    omega
  · have := hfirst.stop_le
    have := hlast.stop_le
    simp only
    omega
  · obtain ⟨hfile, hstart, hlt, hstop⟩ := hholds.inside p hp
    have hle := hext.laid.last_le
    have hfront := hext.laid.front_le_peek
    have hpeek := hlast.start_le
    simp only [Stream.front] at hfile hstart hstop hle hfront ⊢
    exact ⟨hfile, by omega, hlt, by omega⟩

end Parse

/-! ## Languages -/

instance : Grammar.IsPlaced {} where
  rules := by simp

namespace Parse

theorem skipNames_places (names : List Bytes) {p : Parse (Option Statement)} (hp : Places p)
    (s : ParseState) :
    ⦃fun st => ⌜st = s⌝⦄ (do
      skipNames names
      return (.ok (← p) : Except Failure (Option Statement)))
    ⦃⇓ found st => ⌜s.stream.Reaches st.stream
      ∧ s.stream.Lays st.stream (given Option.toList found)⌝⦄ := by
  have hinner := hp.spec
  refine triple_intro fun Q hQ => ?_
  mvcgen [hinner]
  grind -linarith [Stream.Lays.mono]

end Parse

namespace Java

open Parse

/-- What an import covers, from the token ahead of `start` on. -/
def Covers (start : Stream) (v : Span) (st : ParseState) : Prop :=
  start.Reaches st.stream ∧ (start.peek.kind ≠ .eof → start.Lays st.stream [v])

theorem importRound_covers (keyword : Token) {start : Stream} {v : Span} {s : ParseState}
    (hI : Covers start v s) :
    ⦃fun st => ⌜st = s⌝⦄ importRound keyword v ⦃⇓ r st => ⌜Covers start r.value st⌝⦄ := by
  unfold importRound
  refine triple_intro fun Q hQ => ?_
  mvcgen
  all_goals grind -linarith [Covers, Stream.isAtAny, Stream.Lays.cover_next]

theorem importRule_places : PlacesRule importRule := by
  refine placesRule_of (fun s hs => ?_) fun p hp s => ?_
  · grind [importRule, Stream.nameAt, Stream.peek]
  · have hloop : ∀ keyword v st, Covers s.stream v st → ⦃fun st' => ⌜st' = st⌝⦄
        loop v (importRound keyword) ⦃⇓ v' st' => ⌜Covers s.stream v' st'⌝⦄ :=
      fun keyword v st => loop_keeps (Covers s.stream) fun _ _ => importRound_covers keyword
    refine triple_intro fun Q hQ => ?_
    mvcgen [importRule, hloop]
    all_goals grind -linarith [Covers, Stream.lays_next, Stream.Lays.cover_next, Stream.Lays.comment]

theorem annotationRule_places : PlacesRule annotationRule := by
  refine placesRule_of (fun s hs => ?_) fun p hp s => ?_
  · grind [annotationRule, Stream.isAt]
  · have hinner := hp.spec
    refine triple_intro fun Q hQ => ?_
    mvcgen [annotationRule, hinner]
    all_goals grind -linarith [Stream.Lays.mono, Stream.Takes.lays_cover, Stream.Lays.comment]

instance : grammar.IsPlaced where
  rules := by
    simp only [grammar, List.mem_cons, List.not_mem_nil, or_false]
    rintro r (rfl | rfl | rfl)
    · exact importRule_places
    · exact annotationRule_places
    · exact placesRule_of_always fun _ => skipNames_places accessWords

end Java

instance : TypeScript.grammar.IsPlaced where
  rules := by
    simp only [TypeScript.grammar, List.mem_singleton]
    rintro r rfl
    exact Parse.placesRule_of_always fun _ => Parse.skipNames_places TypeScript.exportWords

/-! ## Files -/

namespace Lexer

theorem endToken_fits (file : File) : (endToken file).Fits file :=
  ⟨rfl, Nat.le_refl _, fun hne => absurd rfl hne, fun _ => rfl, nofun⟩

theorem Tiles.token_fits {file : File} {ps : List Piece}
    (htiles : Tiles file.id 0 ps file.content.size) (hfaithful : ∀ p ∈ ps, p.IsFaithful file)
    {t : Token} (ht : t ∈ ps.filterMap (·.token?)) : t.Fits file := by
  obtain ⟨hfile, -, hlt, hstop⟩ := htiles.mem_token ht
  obtain ⟨p, hp, hpt⟩ := List.mem_filterMap.1 ht
  cases p with
  | gap => simp [Piece.token?] at hpt
  | token u findings =>
    obtain rfl : u = t := by simpa [Piece.token?] using hpt
    obtain ⟨hkind, hshr, -⟩ := hfaithful _ hp
    refine ⟨hfile, hstop, fun _ => hlt, fun heof => absurd heof hkind, fun hkind => ?_⟩
    have hlength := hshr hkind
    unfold Span.length at hlength
    omega

/-- Tokens that end with the end of the file, lie in it and follow one another. -/
theorem laid_ofTokens {file : File} {ts : List Token} (hlast : ts.getLast? = some (endToken file))
    (hfits : ∀ t ∈ ts, t.Fits file) (hordered : ts.Pairwise (·.span.stop ≤ ·.span.start)) :
    (Stream.ofTokens ts).Laid file := by
  have hclosed : Stream.closed ts = ts := by simp [Stream.closed, hlast, endToken]
  refine ⟨Stream.closed_sound _, ?_, ?_, Nat.le_refl _, Nat.zero_le _⟩
  · rw [Stream.ofTokens, hclosed]
    exact hfits
  · rw [Stream.ofTokens, hclosed]
    exact hordered

/-- The tokens of a file lie in it, one behind the other, also where lexing has to stop. -/
theorem tokenize_laid {file : File} {extra : List Matcher} (hextra : ∀ m ∈ extra, m.Fits)
    (hsize : file.content.size < 2 ^ 32) :
    (Stream.ofTokens (tokenize file extra).tokens).Laid file := by
  obtain ⟨ps, hps, htiles, hfaithful⟩ | ⟨-, offset, hstop⟩ := pieces_tile hextra hsize
  · have htiled := tokenize_isTiled hps htiles hfaithful
    refine laid_ofTokens (by simp [htiled.tokens]) (fun t ht => ?_) htiled.ordered
    rw [htiled.tokens] at ht
    obtain ht | ht := List.mem_append.1 ht
    · exact Tiles.token_fits htiles hfaithful ht
    · exact List.mem_singleton.1 ht ▸ endToken_fits file
  · have htokens : (tokenize file extra).tokens = [endToken file] := by
      simp [tokenize, hstop, Except.toOption]
    rw [htokens]
    exact laid_ofTokens rfl (fun t ht => List.mem_singleton.1 ht ▸ endToken_fits file)
      (List.pairwise_singleton ..)

end Lexer

/-- In every language and for every source text: the tree lies in the file, every statement and every
part of one lies in what holds it, parts lie one behind the other, none is empty, and so the check of
the spans finds nothing. A file has fewer than 2³² bytes. -/
theorem parse_isNested {name : Bytes} {r : Registry} (h : Catalog.registry name = .ok r) (file : File)
    (hsize : file.content.size < 2 ^ 32) (maxErrors : Nat) :
    (parse r.grammar file (Lexer.tokenize file r.matchers).tokens maxErrors).program.IsNested file
      ∧ (parse r.grammar file (Lexer.tokenize file r.matchers).tokens maxErrors).program.spanProblem?
        file = none := by
  have hlaid : (Stream.ofTokens (Lexer.tokenize file r.matchers).tokens).Laid file :=
    Lexer.tokenize_laid (Catalog.matchers_fit h) hsize
  have hnested : (parse r.grammar file (Lexer.tokenize file r.matchers).tokens
      maxErrors).program.IsNested file := by
    rcases Catalog.grammar_of_registry h with hg | hg | hg <;> rw [hg]
    · exact Parse.document_isNested hlaid maxErrors
    · exact Parse.document_isNested hlaid maxErrors
    · exact Parse.document_isNested hlaid maxErrors
  exact ⟨hnested, hnested.spanProblem?⟩

/-- A Java document in which an annotation, a doc comment and missing braces come together. -/
theorem parse_isNested_java :
    let file : File :=
      .ofBytes 0 [] "@A package p \x7b class B \x7b x: C<D>> /** d */\nclass E >> F".toUTF8.data 0
    Catalog.registry "java" = .ok (Registry.adopt {} Java.plugin) ∧ file.content.size < 2 ^ 32
      ∧ (parse Java.grammar file (Lexer.tokenize file []).tokens 0).program.IsNested file
      ∧ (parse Java.grammar file (Lexer.tokenize file []).tokens 0).program.spanProblem? file
        = none := by
  have hjava : Catalog.registry "java" = .ok (Registry.adopt {} Java.plugin) := rfl
  exact ⟨hjava, by decide, parse_isNested hjava _ (by decide) 0⟩

end Uml
