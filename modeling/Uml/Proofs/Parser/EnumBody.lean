import Mathlib
import Uml.Proofs.Lexer.Lines
import Uml.Proofs.Lexer.Quick
import Uml.Proofs.Parser.LookAhead
import Uml.Proofs.Parser.RoundTrip
import Uml.Proofs.Text.Bytes

/-!
# Bodies of enumerations

Literals may be divided by commas or by line breaks. Before each line of a body the parser asks whether
a declaration starts there, since then the closing brace is missing. Words that are divided by commas
are literals whatever they are; words on lines of their own are, unless two of them read like the
beginning of a declaration.
-/
namespace Uml

/-! ## Looking ahead among words -/

namespace Stream

variable {s : Stream} {t u v : Token} {us tail : List Token}

theorem ahead_append (tail : List Token) (hus : ∀ u ∈ us, u.isTrivia = false ∧ u.kind ≠ .eof)
    (ht : t.isTrivia = false) : ahead (us ++ t :: tail) us.length = t := by
  induction us with
  | nil =>
    cases tail with
    | nil => rfl
    | cons v tail => simp [ahead, ht]
  | cons u us ih =>
    obtain ⟨⟨hplain, hkind⟩, hus⟩ := List.forall_mem_cons.1 hus
    obtain ⟨v, rest, hrest⟩ : ∃ v rest, us ++ t :: tail = v :: rest := by cases us <;> simp
    rw [List.cons_append, hrest, List.length_cons, ahead, hplain, if_neg Bool.false_ne_true, if_neg hkind,
      ← hrest]
    · exact ih hus
    · simp

theorem isWord_plain (h : u.isWord = true) : u.isTrivia = false ∧ u.kind ≠ .eof := by
  refine ⟨?_, Token.kind_ne_eof_of_isWord h⟩
  unfold Token.isWord at h
  unfold Token.isTrivia
  revert h
  cases u.kind <;> decide

/-- The stream stands before words and a closing brace. -/
structure ShowsWords (s : Stream) (us : List Token) : Prop where
  half : s.half = false
  words : ∀ u ∈ us, u.isWord = true
  closed : ∃ brace tail, s.rest = us ++ brace :: tail ∧ brace.kind = .rbrace

namespace ShowsWords

theorem kindAt_get (h : s.ShowsWords us) {n : Nat} (hn : n < us.length) : s.kindAt n = us[n].kind := by
  obtain ⟨brace, tail, hrest, -⟩ := h.closed
  have hsplit : us = us.take n ++ us[n] :: us.drop (n + 1) := by simp
  have hlen : (us.take n).length = n := by simp; omega
  have hplain : us[n].isTrivia = false := (isWord_plain (h.words _ (by simp))).1
  have hahead := ahead_append (us.drop (n + 1) ++ brace :: tail)
    (fun u (hu : u ∈ us.take n) => isWord_plain (h.words u (List.mem_of_mem_take hu))) hplain
  rw [hlen, ← List.cons_append, ← List.append_assoc, ← hsplit] at hahead
  unfold kindAt peekAt
  rw [h.half, if_neg Bool.false_ne_true, hrest, hahead]

theorem kindAt_length (h : s.ShowsWords us) : s.kindAt us.length = .rbrace := by
  obtain ⟨brace, tail, hrest, hbrace⟩ := h.closed
  have hplain : brace.isTrivia = false := by simp [Token.isTrivia, hbrace, Kind.isTrivia]
  unfold kindAt peekAt
  rw [h.half, if_neg Bool.false_ne_true, hrest,
    ahead_append tail (fun u hu => isWord_plain (h.words u hu)) hplain, hbrace]

/-- Up to the brace a word is seen or the brace. -/
theorem kindAt_cases (h : s.ShowsWords us) {n : Nat} (hn : n ≤ us.length) :
    (n < us.length ∧ (s.kindAt n).isWord = true) ∨ n = us.length ∧ s.kindAt n = .rbrace := by
  rcases Nat.lt_or_eq_of_le hn with hlt | rfl
  · refine .inl ⟨hlt, ?_⟩
    rw [h.kindAt_get hlt]
    exact h.words _ (by simp)
  · exact .inr ⟨rfl, h.kindAt_length⟩

end ShowsWords

/-- Where modifiers end. -/
theorem scanModifiers_spec (s : Stream) (fuel n : Nat) :
    n ≤ s.scanModifiers fuel n
      ∧ ∀ i, n ≤ i → i < s.scanModifiers fuel n → (s.kindAt i).isEntityModifier = true := by
  induction fuel generalizing n with
  | zero => exact ⟨Nat.le_refl _, fun i hi hlt => absurd hi (Nat.not_le.2 hlt)⟩
  | succ fuel ih =>
    unfold scanModifiers
    split
    · next hmodifier =>
      obtain ⟨hle, hall⟩ := ih (n + 1)
      refine ⟨by omega, fun i hi hlt => ?_⟩
      rcases Nat.eq_or_lt_of_le hi with rfl | hi
      · exact hmodifier
      · exact hall i hi hlt
    · exact ⟨Nat.le_refl _, fun i hi hlt => absurd hi (Nat.not_le.2 hlt)⟩

/-- Two words that read like the beginning of a declaration: the second is taken for its name. -/
def Opens (u v : Token) : Prop := (u.kind = .kwPackage ∨ u.kind.isEntityKeyword = true) ∧ v.kind = .ident

namespace ShowsWords

theorem not_isChain {R : Token → Token → Prop} {n : Nat} (hn : n + 1 < us.length)
    (h : R us[n] us[n + 1]) : ¬us.IsChain fun u v => ¬R u v := fun hchain =>
  List.isChain_iff_getElem.1 hchain n hn h

theorem not_canStartRelationship (h : s.ShowsWords us) : s.canStartRelationship = false := by
  have hmarks : ∀ k : Kind, k.isWord = true ∨ k = .rbrace →
      k ≠ .star ∧ k ≠ .dot ∧ k ≠ .string ∧ k ≠ .lbracket ∧ k.isRelationship = false := by
    intro k
    cases k <;> decide
  have hkind : ∀ n ≤ us.length, s.kindAt n ≠ .star ∧ s.kindAt n ≠ .dot ∧ s.kindAt n ≠ .string
      ∧ s.kindAt n ≠ .lbracket ∧ (s.kindAt n).isRelationship = false := fun n hn =>
    hmarks _ ((h.kindAt_cases hn).imp And.right And.right)
  have hpath : s.scanEndpoint 0 ≤ us.length := by
    rw [scanEndpoint, decide_eq_false (hkind 0 (Nat.zero_le _)).1, Bool.false_and, if_neg Bool.false_ne_true,
      scanPath]
    split
    · next hident =>
      have hlt : 0 < us.length := by
        rcases h.kindAt_cases (Nat.zero_le _) with ⟨hlt, -⟩ | ⟨-, hbrace⟩
        · exact hlt
        · simp [hbrace] at hident
      have hsegments : s.scanSegments s.rest.length 1 = 1 := by
        cases s.rest.length with
        | zero => rfl
        | succ k => simp [scanSegments, (hkind 1 hlt).2.1]
      rw [hsegments]
      exact hlt
    · exact Nat.zero_le _
  obtain ⟨-, -, hstring, hbracket, hrelation⟩ := hkind _ hpath
  have hmult : s.scanMult (s.scanEndpoint 0) = s.scanEndpoint 0 := by
    unfold scanMult
    split <;> first | contradiction | rfl
  simp [canStartRelationship, hmult, hrelation]

/-- A declaration is seen only where two of the words read like one. -/
theorem opens_of_atDeclaration (h : s.ShowsWords us) (hdecl : s.atDeclaration = true) :
    ¬us.IsChain fun u v => ¬Opens u v := by
  have hname : ∀ n < us.length, s.namesDeclaration (n + 1) = true →
      (s.kindAt n = .kwPackage ∨ (s.kindAt n).isEntityKeyword = true) →
      ¬us.IsChain fun u v => ¬Opens u v := by
    intro n hn hident hkeyword
    simp only [namesDeclaration, Bool.and_eq_true, decide_eq_true_eq] at hident
    have hlt : n + 1 < us.length := by
      rcases h.kindAt_cases hn with ⟨hlt, -⟩ | ⟨-, hbrace⟩
      · exact hlt
      · simp [hbrace] at hident
    rw [h.kindAt_get hn] at hkeyword
    rw [h.kindAt_get hlt] at hident
    exact not_isChain hlt ⟨hkeyword, hident.1.1⟩
  have hlt : ∀ {n : Nat}, n ≤ us.length → s.kindAt n ≠ .rbrace → n < us.length := fun hn hne =>
    (h.kindAt_cases hn).elim And.left fun hbrace => absurd hbrace.2 hne
  unfold atDeclaration at hdecl
  split at hdecl
  · next hpackage =>
    have hpackage : s.kindAt 0 = .kwPackage := of_decide_eq_true hpackage
    exact hname 0 (hlt (Nat.zero_le _) (by simp [hpackage])) hdecl (.inl hpackage)
  · split at hdecl
    · next n hn =>
      simp only [entityKeywordAt?, Option.ite_none_right_eq_some, Option.some.injEq] at hn
      obtain ⟨hkeyword, rfl⟩ := hn
      obtain ⟨-, hmodifiers⟩ := s.scanModifiers_spec s.rest.length 0
      have hle : s.scanModifiers s.rest.length 0 ≤ us.length := by
        by_contra hgt
        have hbrace := hmodifiers us.length (Nat.zero_le _) (Nat.lt_of_not_le hgt)
        rw [h.kindAt_length] at hbrace
        cases hbrace
      refine hname _ (hlt hle fun hbrace => ?_) hdecl (.inr hkeyword)
      rw [hbrace] at hkeyword
      cases hkeyword
    · rw [h.not_canStartRelationship] at hdecl
      cases hdecl

theorem atDeclaration_of_opens (h : s.ShowsWords (u :: v :: us)) (hopens : Opens u v) :
    s.atDeclaration = true := by
  have h0 : s.kindAt 0 = u.kind := h.kindAt_get (n := 0) (by simp)
  have h1 : s.kindAt 1 = .ident := (h.kindAt_get (n := 1) (by simp)).trans hopens.2
  have h2 : s.kindAt 2 ≠ .colon ∧ s.kindAt 2 ≠ .lparen := by
    have hmarks : ∀ k : Kind, k.isWord = true ∨ k = .rbrace → k ≠ .colon ∧ k ≠ .lparen := by
      intro k
      cases k <;> decide
    exact hmarks _ ((h.kindAt_cases (n := 2) (by simp)).imp And.right And.right)
  have hnames : s.namesDeclaration 1 = true := by simp [namesDeclaration, h1, h2]
  unfold atDeclaration
  split
  · exact hnames
  · next hpackage =>
    have hkeyword : (s.kindAt 0).isEntityKeyword = true := by
      rw [h0]
      refine hopens.1.resolve_left fun hkind => hpackage (decide_eq_true ?_)
      rw [← hkind, ← h0]
      rfl
    have hplain : (s.kindAt 0).isEntityModifier = false := by
      revert hkeyword
      cases s.kindAt 0 <;> decide
    have hscan : s.scanModifiers s.rest.length 0 = 0 := by
      cases s.rest.length <;> simp [scanModifiers, hplain]
    have hat : s.entityKeywordAt? = some 0 := by simp [entityKeywordAt?, hscan, hkeyword]
    simp only [hat]
    exact hnames

end ShowsWords
end Stream

/-! ## Literals -/

namespace Parse

variable {g : Grammar} {file : File} {st : ParseState} {t u v : Token} {us ts : List Token}

/-- A token on a later line than another. -/
def LaterLine (file : File) (t u : Token) : Prop := (file.position t.span.start).line < u.position.line

instance (file : File) (t u : Token) : Decidable (LaterLine file t u) := inferInstanceAs (Decidable (_ < _))

/-- The state stands between the token taken last and the tokens ahead. There are no comments, and
nothing is reported. -/
structure Between (file : File) (st : ParseState) (t : Token) (ts : List Token) : Prop where
  file : st.file = file
  silent : st.findings = #[] ∧ st.errors = 0
  rest : st.stream.rest = ts
  half : st.stream.half = false
  last : st.stream.last = t.span
  lastSignificant : st.stream.lastSignificant = t.span
  plain : ∀ u ∈ ts, u.isTrivia = false
  sound : st.stream.Sound

namespace Between

theorem peekRaw_eq (h : Between file st t (u :: ts)) : st.stream.peekRaw = u := by
  simp [Stream.peekRaw, h.rest, h.half]

theorem peek_eq (h : Between file st t (u :: ts)) : st.stream.peek = u := by
  have hplain := h.plain u (by simp)
  cases ts with
  | nil => simp [Stream.peek, Stream.peekAt, h.half, h.rest, Stream.ahead]
  | cons v ts => simp [Stream.peek, Stream.peekAt, h.half, h.rest, Stream.ahead, hplain]

theorem peekAt_one (h : Between file st t (u :: v :: ts)) (hu : u.kind ≠ .eof) : st.stream.peekAt 1 = v := by
  have hahead := Stream.ahead_append ts (List.forall_mem_singleton.2 ⟨h.plain u (by simp), hu⟩)
    (h.plain v (by simp))
  rw [List.length_singleton] at hahead
  unfold Stream.peekAt
  rw [h.half, if_neg Bool.false_ne_true, h.rest]
  exact hahead

theorem nextRaw_eq (h : Between file st t (u :: ts)) (hu : u.kind ≠ .eof) : st.stream.nextRaw
    = (u, { past := u :: st.stream.past, rest := ts, half := false, last := u.span }) := by
  simp [Stream.nextRaw, h.rest, h.half, hu]

theorem next_eq (h : Between file st t (u :: ts)) : st.stream.next = st.stream.nextRaw := by
  have hskip : Stream.skipTrivia st.stream.past st.stream.rest = (st.stream.past, st.stream.rest) := by
    rw [h.rest]
    cases ts with
    | nil => rfl
    | cons v ts => simp [Stream.skipTrivia, h.plain u (by simp)]
  unfold Stream.next
  rw [if_neg (by simp [h.half]), hskip]

theorem moved (h : Between file st t (u :: ts)) (hu : u.kind ≠ .eof) {st' : ParseState}
    (hstream : st'.stream = st.stream.nextRaw.2) (hfile : st'.file = st.file)
    (hfindings : st'.findings = st.findings) (herrors : st'.errors = st.errors) : Between file st' u ts := by
  have hsound := h.sound.nextRaw
  rw [← hstream] at hsound
  rw [h.nextRaw_eq hu] at hstream
  refine ⟨hfile.trans h.file, by rw [hfindings, herrors]; exact h.silent, ?_, ?_, ?_, ?_,
    fun v hv => h.plain v (by simp [hv]), hsound⟩ <;> rw [hstream]
  simp [Stream.lastSignificant, h.plain u (by simp)]

theorem movedFrom (h : Between file st t (u :: ts)) (hu : u.kind ≠ .eof) :
    st.stream.nextRaw.2.movedFrom st.stream = true := by
  rw [h.nextRaw_eq hu]
  simp [Stream.movedFrom, Stream.index]

theorem run_memberEnded (h : Between file st t (u :: ts))
    (hends : u.kind = .comma ∨ u.kind = .rbrace ∨ LaterLine file t u) : memberEnded.run st = (true, st) := by
  have hpeek : (peek.run st).1 = u := h.peek_eq
  unfold memberEnded
  rw [run_bind, hpeek]
  split
  · rfl
  · rfl
  · rfl
  · rfl
  · next hcomma hbrace _ =>
    have hlater := (hends.resolve_left hcomma).resolve_left hbrace
    show (decide ((st.file.position st.stream.last.start).line < u.position.line), st) = _
    rw [h.file, h.last]
    exact congrArg (·, st) (decide_eq_true hlater)

theorem run_atDeclarationStart (h : Between file st t (u :: ts)) : atDeclarationStart.run st
    = (decide (LaterLine file t u) && st.stream.atDeclaration, st) := by
  show (decide ((st.file.position st.stream.lastSignificant.start).line < st.stream.peek.position.line)
    && st.stream.atDeclaration, st) = _
  rw [h.file, h.lastSignificant, h.peek_eq]
  rfl

end Between

theorem kind_of_isWord (h : u.isWord = true) : u.kind ≠ .rbrace ∧ u.kind ≠ .comment
    ∧ u.kind ≠ .semicolon ∧ u.kind ≠ .comma ∧ u.kind ≠ .docComment := by
  unfold Token.isWord at h
  revert h
  cases u.kind <;> decide

/-- The member that a word makes. -/
def IsLiteral (u : Token) (m : Member) : Prop := m.kind = .literal ∧ m.name = u.text

/-- A word that starts no declaration is a literal, if something ends it. -/
theorem run_memberRound_word (h : Between file st t (u :: v :: ts)) (hword : u.isWord = true)
    (hnext : v.kind ≠ .colon ∧ v.kind ≠ .lparen)
    (hends : v.kind = .comma ∨ v.kind = .rbrace ∨ LaterLine file u v)
    (hdecl : (decide (LaterLine file t u) && st.stream.atDeclaration) = false)
    (found : Array Member) (doc : PendingDoc) :
    ∃ st' m doc', (memberRound g true (found, doc)).run st = (.again (found.push m, doc'), st')
      ∧ Between file st' u (v :: ts) ∧ IsLiteral u m ∧ doc'.text = [] := by
  have hu := Token.kind_ne_eof_of_isWord hword
  have hat := h.run_atDeclarationStart
  rw [hdecl] at hat
  have hliteral : atEnumLiteral.run st = (true, st) := by
    show ((st.stream.peek.isWord && decide ((st.stream.peekAt 1).kind ≠ .colon)
      && decide ((st.stream.peekAt 1).kind ≠ .lparen)), st) = _
    rw [h.peek_eq, h.peekAt_one hu, hword, decide_eq_true hnext.1, decide_eq_true hnext.2]
    rfl
  set m : Member :=
    { kind := .literal, name := u.text, nameSpan := u.span, span := u.span, id := st.members.size + 1 } with hm
  obtain ⟨st', hrun, hst'⟩ : ∃ st', enumLiteral.run st = (m, st') ∧ Between file st' u (v :: ts) := by
    have hadvance : advance.run st = (u, { st with stream := st.stream.nextRaw.2 }) := by
      show (st.stream.next.1, { st with stream := st.stream.next.2 }) = _
      rw [h.next_eq, h.nextRaw_eq hu]
    refine ⟨{ st with stream := st.stream.nextRaw.2, members := st.members.push m }, ?_,
      h.moved hu rfl rfl rfl rfl⟩
    unfold enumLiteral
    rw [run_bind, hadvance]
    rfl
  have hok : (Except.ok <$> enumLiteral : Parse (Except Failure Member)).run st = (.ok m, st') := by
    show (Except.ok (enumLiteral.run st).1, (enumLiteral.run st).2) = _
    rw [hrun]
  have hmoved : (Parse.movedFrom st.stream).run st' = (true, st') := by
    have hstream : st'.stream = st.stream.nextRaw.2 := by
      have hnext : (enumLiteral.run st).2.stream = st.stream.next.2 := rfl
      rw [hrun, h.next_eq] at hnext
      exact hnext
    show (st'.stream.movedFrom st.stream, st') = _
    rw [hstream, h.movedFrom hu]
  have hfinish : (finishMember g st.stream).run st' = ((), st') := by
    unfold finishMember
    rw [run_bind, hst'.run_memberEnded hends]
    rfl
  refine ⟨st', { m with doc := doc.text }, { doc with text := [] }, ?_, hst', ⟨rfl, rfl⟩, rfl⟩
  have hraw : (peekRaw.run st).1 = u := h.peekRaw_eq
  obtain ⟨hbrace, hcomment, hsemicolon, hcomma, hdocComment⟩ := kind_of_isWord hword
  unfold memberRound
  rw [run_bind, hraw]
  split <;> try contradiction
  show StateT.run (atDeclarationStart >>= _) st = _
  rw [run_bind, hat]
  simp only [Bool.false_eq_true, if_false, Bool.true_and]
  rw [run_bind]
  show StateT.run (atEnumLiteral >>= _) st = _
  rw [run_bind, hliteral]
  simp only [if_true]
  rw [run_bind]
  rw [hok]
  simp only
  show StateT.run (Parse.movedFrom st.stream >>= _) st' = _
  rw [run_bind, hmoved]
  simp only [Bool.not_true, Bool.false_eq_true, if_false]
  show (_, ((finishMember g st.stream).run st').2) = _
  rw [hfinish]

theorem run_memberRound_comma (h : Between file st t (u :: ts)) (hu : u.kind = .comma)
    (v : Array Member × PendingDoc) :
    ∃ st', (memberRound g true v).run st = (.again v, st') ∧ Between file st' u ts := by
  have hne : u.kind ≠ .eof := by simp [hu]
  refine ⟨{ st with stream := st.stream.nextRaw.2 }, ?_, h.moved hne rfl rfl rfl rfl⟩
  have hraw : (peekRaw.run st).1 = u := h.peekRaw_eq
  obtain ⟨found, doc⟩ := v
  unfold memberRound
  rw [run_bind, hraw, hu]
  rfl

theorem run_memberRound_close (h : Between file st t (u :: ts)) (hu : u.kind = .rbrace)
    (found : Array Member) {doc : PendingDoc} (hdoc : doc.text = []) :
    (memberRound g true (found, doc)).run st = (.stop (found, doc), st) := by
  have hraw : (peekRaw.run st).1 = u := h.peekRaw_eq
  unfold memberRound
  rw [run_bind, hraw, hu]
  simp only [hdoc]
  rfl

/-- Where a declaration starts a line, the body is left. -/
theorem run_memberRound_declaration (h : Between file st t (u :: ts)) (hword : u.isWord = true)
    (hlater : LaterLine file t u) (hdecl : st.stream.atDeclaration = true) (found : Array Member)
    {doc : PendingDoc} (hdoc : doc.text = []) :
    (memberRound g true (found, doc)).run st = (.stop (found, doc), st) := by
  have hat := h.run_atDeclarationStart
  rw [hdecl, decide_eq_true hlater, Bool.true_and] at hat
  have hraw : (peekRaw.run st).1 = u := h.peekRaw_eq
  obtain ⟨hbrace, hcomment, hsemicolon, hcomma, hdocComment⟩ := kind_of_isWord hword
  have hu := Token.kind_ne_eof_of_isWord hword
  unfold memberRound
  rw [run_bind, hraw]
  split <;> try contradiction
  show StateT.run (atDeclarationStart >>= _) st = _
  rw [run_bind, hat]
  simp only [if_true, hdoc]
  rfl

theorem Ends.of_stop {σ : Type} {round : σ → Parse (Round σ)} {v v' : σ} {st' : ParseState}
    {r : σ × ParseState} (h : Ends round v st r) (hrun : (round v).run st = (.stop v', st')) :
    r = (v', st') := by
  cases h with
  | stop h =>
    rw [hrun] at h
    cases h
    rfl
  | again h =>
    rw [hrun] at h
    cases h

theorem Ends.of_again {σ : Type} {round : σ → Parse (Round σ)} {v v' : σ} {st' : ParseState}
    {r : σ × ParseState} (h : Ends round v st r) (hrun : (round v).run st = (.again v', st')) :
    Ends round v' st' r := by
  cases h with
  | stop h =>
    rw [hrun] at h
    cases h
  | again h _ hrest =>
    rw [hrun] at h
    cases h
    exact hrest

theorem Ends.grows {σ : Type} {round : σ → Parse (Round σ)} [∀ v, IsBlind (round v)] {v : σ}
    {r : σ × ParseState} (h : Ends round v st r) : st.reports.Grows r.2.reports := by
  induction h with
  | @stop v _ st _ h =>
    have hgrows := grows_run (round v) st
    rwa [h] at hgrows
  | @again v _ st _ _ h _ _ ih =>
    have hgrows := grows_run (round v) st
    rw [h] at hgrows
    exact hgrows.trans ih

variable {brace : Token}

/-- Words on lines of their own are literals up to the first line where a declaration is seen. If there
is none, all are literals, and that is so if no two words read like a declaration. -/
theorem memberLoop_lines (hbrace : brace.kind = .rbrace) (hwords : ∀ u ∈ us, u.isWord = true)
    (hlines : (t :: us).IsChain (LaterLine file)) (h : Between file st t (us ++ brace :: ts))
    {found : Array Member} {doc : PendingDoc} (hdoc : doc.text = [])
    {r : (Array Member × PendingDoc) × ParseState} (hends : Ends (memberRound g true) (found, doc) st r) :
    ∃ front back ms t', us = front ++ back ∧ r.1.1.toList = found.toList ++ ms
      ∧ List.Forall₂ IsLiteral front ms ∧ Between file r.2 t' (back ++ brace :: ts)
      ∧ (back = [] ↔ us.IsChain fun u v => ¬Stream.Opens u v) := by
  induction us generalizing t st found doc with
  | nil =>
    obtain rfl := hends.of_stop (run_memberRound_close h hbrace found hdoc)
    exact ⟨[], [], [], t, rfl, by simp, .nil, h, by simp⟩
  | cons u us ih =>
    have hshows : st.stream.ShowsWords (u :: us) := ⟨h.half, hwords, brace, ts, h.rest, hbrace⟩
    obtain ⟨hword, hwords⟩ := List.forall_mem_cons.1 hwords
    obtain ⟨hlater, hlines⟩ := List.isChain_cons_cons.1 hlines
    by_cases hdecl : st.stream.atDeclaration = true
    · obtain rfl := hends.of_stop (run_memberRound_declaration h hword hlater hdecl found hdoc)
      refine ⟨[], u :: us, [], t, rfl, by simp, .nil, h, iff_of_false (by simp) ?_⟩
      exact hshows.opens_of_atDeclaration hdecl
    · have hnext : ∃ v rest, us ++ brace :: ts = v :: rest ∧ (v.kind ≠ .colon ∧ v.kind ≠ .lparen)
          ∧ (v.kind = .comma ∨ v.kind = .rbrace ∨ LaterLine file u v) := by
        cases us with
        | nil => exact ⟨brace, ts, rfl, by simp [hbrace], .inr (.inl hbrace)⟩
        | cons v us =>
          refine ⟨v, us ++ brace :: ts, rfl, ?_, .inr (.inr (List.isChain_cons_cons.1 hlines).1)⟩
          have hv := hwords v (by simp)
          constructor <;> intro hkind <;> simp [Token.isWord, hkind, Kind.isWord, Kind.isKeyword] at hv
      obtain ⟨v, rest, hrest, hcolon, hended⟩ := hnext
      rw [List.cons_append, hrest] at h
      obtain ⟨st', m, doc', hrun, hst', hm, hdoc'⟩ := run_memberRound_word (g := g) h hword hcolon hended
        (by rw [Bool.eq_false_iff.2 hdecl, Bool.and_false]) found doc
      rw [← hrest] at hst'
      obtain ⟨front, back, ms, t', rfl, hfound, hms, hbetween, hback⟩ :=
        ih hwords hlines hst' hdoc' (hends.of_again hrun)
      refine ⟨u :: front, back, m :: ms, t', rfl, by simp [hfound], .cons hm hms, hbetween, hback.trans ?_⟩
      cases hus : front ++ back with
      | nil => simp
      | cons w ws =>
        rw [List.isChain_cons_cons, iff_and_self]
        rw [hus] at hshows
        exact fun _ hopens => hdecl (hshows.atDeclaration_of_opens hopens)

/-- Words with commas between them, all on one line, are literals. -/
theorem memberLoop_commas (hbrace : brace.kind = .rbrace)
    (hus : ∀ u ∈ us, u.isWord = true ∨ u.kind = .comma)
    (hcommas : (us ++ [brace]).IsChain fun u v => u.isWord = true → v.kind = .comma ∨ v.kind = .rbrace)
    (hline : (t :: us).IsChain fun u v => ¬LaterLine file u v) (h : Between file st t (us ++ brace :: ts))
    {found : Array Member} {doc : PendingDoc} (hdoc : doc.text = [])
    {r : (Array Member × PendingDoc) × ParseState} (hends : Ends (memberRound g true) (found, doc) st r) :
    ∃ ms t', r.1.1.toList = found.toList ++ ms ∧ List.Forall₂ IsLiteral (us.filter (·.isWord)) ms
      ∧ Between file r.2 t' (brace :: ts) := by
  induction us generalizing t st found doc with
  | nil =>
    obtain rfl := hends.of_stop (run_memberRound_close h hbrace found hdoc)
    exact ⟨[], t, by simp, .nil, h⟩
  | cons u us ih =>
    obtain ⟨hu, hus⟩ := List.forall_mem_cons.1 hus
    obtain ⟨hlater, hline⟩ := List.isChain_cons_cons.1 hline
    obtain ⟨v, rest, hrest, hcommas, hnext⟩ : ∃ v rest, us ++ brace :: ts = v :: rest
        ∧ (us ++ [brace]).IsChain (fun u v => u.isWord = true → v.kind = .comma ∨ v.kind = .rbrace)
        ∧ (u.isWord = true → v.kind = .comma ∨ v.kind = .rbrace) := by
      cases us with
      | nil => exact ⟨brace, ts, rfl, by simp, fun _ => .inr hbrace⟩
      | cons v us =>
        obtain ⟨hnext, hcommas⟩ := List.isChain_cons_cons.1 hcommas
        exact ⟨v, us ++ brace :: ts, rfl, hcommas, hnext⟩
    rcases hu with hword | hcomma
    · have hmark := hnext hword
      have hcolon : v.kind ≠ .colon ∧ v.kind ≠ .lparen := by
        rcases hmark with hkind | hkind <;> simp [hkind]
      rw [List.cons_append, hrest] at h
      obtain ⟨st', m, doc', hrun, hst', hm, hdoc'⟩ := run_memberRound_word (g := g) h hword hcolon
        (hmark.imp_right .inl) (by rw [decide_eq_false hlater, Bool.false_and]) found doc
      rw [← hrest] at hst'
      obtain ⟨ms, t', hfound, hms, hbetween⟩ := ih hus hcommas hline hst' hdoc' (hends.of_again hrun)
      refine ⟨m :: ms, t', by simp [hfound], ?_, hbetween⟩
      rw [List.filter_cons_of_pos hword]
      exact .cons hm hms
    · obtain ⟨st', hrun, hst'⟩ := run_memberRound_comma (g := g) h hcomma (found, doc)
      obtain ⟨ms, t', hfound, hms, hbetween⟩ := ih hus hcommas hline hst' hdoc (hends.of_again hrun)
      refine ⟨ms, t', hfound, ?_, hbetween⟩
      rw [List.filter_cons_of_neg (by simp [Token.isWord, hcomma, Kind.isWord, Kind.isKeyword])]
      exact hms

/-! ## The enumeration -/

/-- What a body leaves: where words are left, the missing brace is reported. -/
structure LeavesWords (file : File) (brace : Token) (ts back : List Token) (st : ParseState) : Prop where
  closed : back = [] → Between file st brace ts
  reported : back ≠ [] → st.findings ≠ #[]

/-- The number of a statement is of no matter. -/
theorem LeavesWords.counted {back : List Token} (h : LeavesWords file brace ts back st) (n : Nat) :
    LeavesWords file brace ts back { st with statementCount := n } where
  closed hnil :=
    let h := h.closed hnil
    ⟨h.file, h.silent, h.rest, h.half, h.last, h.lastSignificant, h.plain, h.sound⟩
  reported := h.reported

theorem Between.run_advance (h : Between file st t (u :: ts)) (hu : u.kind ≠ .eof) :
    advance.run st = (u, { st with stream := st.stream.nextRaw.2 })
      ∧ Between file { st with stream := st.stream.nextRaw.2 } u ts := by
  refine ⟨?_, h.moved hu rfl rfl rfl rfl⟩
  show (st.stream.next.1, { st with stream := st.stream.next.2 }) = _
  rw [h.next_eq, h.nextRaw_eq hu]

theorem Between.isAt_eq (h : Between file st t (u :: ts)) (k : Kind) :
    st.stream.isAt k = decide (u.kind = k) := by
  rw [Stream.isAt, h.peek_eq]

/-- The first error is within every limit. -/
theorem report_first (d : Diagnostic) (hd : d.severity = .error) (h : st.errors = 0) :
    ((report d).run st).2.findings ≠ #[] := by
  rw [report, StateT.run_modify]
  dsimp only
  rw [if_pos hd, if_neg (by simp [h]; omega)]
  exact Array.push_ne_empty

/-- Behind the words the brace closes the body; before a word it is missing. -/
theorem closeBrace_leaves {back : List Token} (hback : ∀ u ∈ back, u.isWord = true)
    (hbrace : brace.kind = .rbrace) (h : Between file st t (back ++ brace :: ts)) (opener : Token) (what : Bytes) :
    LeavesWords file brace ts back ((closeBrace opener what).run st).2 := by
  unfold closeBrace
  rw [run_bind, run_eat]
  cases back with
  | nil =>
    rw [List.nil_append] at h
    refine ⟨fun _ => ?_, fun hne => absurd rfl hne⟩
    rw [h.isAt_eq, decide_eq_true hbrace, if_pos rfl, h.next_eq]
    exact (h.run_advance (by simp [hbrace])).2
  | cons u us =>
    rw [List.cons_append] at h
    refine ⟨fun hnil => (List.cons_ne_nil _ _ hnil).elim, fun _ => ?_⟩
    rw [h.isAt_eq, decide_eq_false (kind_of_isWord (hback u (by simp))).1, if_neg Bool.false_ne_true]
    exact report_first _ rfl h.silent.2

theorem loop_stops_at {σ : Type} {round : σ → Parse (Round σ)} {v v' : σ}
    (h : (round v).run st = (.stop v', st)) : (loop v round).run st = (v', st) := by
  show (loopWithin round (2 * st.stream.rest.length + 1 + 1) v).run st = _
  rw [loopWithin, run_bind, h]
  rfl

section

variable {opener : Token} {P : List Member → List Token → Prop}

/-- How the members of a body are read: whatever they say, words are left before the brace, or none. -/
def BodyReads (g : Grammar) (file : File) (opener : Token) (us : List Token) (brace : Token) (ts : List Token)
    (P : List Member → List Token → Prop) : Prop :=
  ∀ st r, Between file st opener (us ++ brace :: ts) → Ends (memberRound g true) (#[], {}) st r →
    ∃ back t, (∀ u ∈ back, u.isWord = true) ∧ P r.1.1.toList back
      ∧ Between file r.2 t (back ++ brace :: ts)

theorem entityBody_leaves [g.IsForward] (hreads : BodyReads g file opener us brace ts P)
    (hopener : opener.kind = .lbrace) (hbrace : brace.kind = .rbrace)
    (h : Between file st t (opener :: (us ++ brace :: ts))) (owner : Bytes) :
    ∃ back, P ((entityBody g .enumeration owner).run st).1 back
      ∧ LeavesWords file brace ts back ((entityBody g .enumeration owner).run st).2 := by
  obtain ⟨hadvance, hbehind⟩ := h.run_advance (by simp [hopener])
  generalize hst' : ({ st with stream := st.stream.nextRaw.2 } : ParseState) = st' at hadvance hbehind
  obtain ⟨back, t', hback, hmembers, hleft⟩ := hreads st' _ hbehind
    ((memberRound_terminates true).ends _ _ hbehind.sound)
  have hrun : (entityBody g .enumeration owner).run st
      = (((loop (#[], {}) (memberRound g true)).run st').1.1.toList,
        ((closeBrace opener (owner ++ " body")).run ((loop (#[], {}) (memberRound g true)).run st').2).2) := by
    unfold entityBody
    rw [run_bind, hadvance]
    rfl
  rw [hrun]
  exact ⟨back, hmembers, closeBrace_leaves hback hbrace hleft opener _⟩

def IsEnum (name : Bytes) (P : List Member → Prop) (s : Statement) : Prop :=
  ∃ tag e, s = .decl tag (.entity e) ∧ e.kind = .enumeration ∧ e.name = name ∧ P e.members

theorem entity_leaves [g.IsForward] (hreads : BodyReads g file opener us brace ts P)
    (hopener : opener.kind = .lbrace) (hbrace : brace.kind = .rbrace) {keyword name : Token}
    (hkeyword : keyword.kind = .kwEnum) (hname : name.kind = .ident)
    (h : Between file st t (keyword :: name :: opener :: (us ++ brace :: ts))) :
    ∃ s back, ((entity g).run st).1 = .ok (some s) ∧ ((entity g).run st).2.stream.movedFrom st.stream = true
      ∧ IsEnum name.text (P · back) s ∧ LeavesWords file brace ts back ((entity g).run st).2 := by
  have hpeek : peek.run st = (keyword, st) := Prod.ext h.peek_eq rfl
  have hmodifiers : entityModifiers.run st = ({}, st) := by
    refine loop_stops_at ?_
    unfold entityModifierRound
    rw [run_bind, hpeek, hkeyword]
    rfl
  obtain ⟨hadvance, h₁⟩ := h.run_advance (by simp [hkeyword])
  have hindex : st.stream.nextRaw.2.index = st.stream.index + 1 :=
    Stream.index_nextRaw h.sound (by simp [h.peekRaw_eq, hkeyword])
  generalize hst₁ : ({ st with stream := st.stream.nextRaw.2 } : ParseState) = st₁ at hadvance h₁
  rw [show st.stream.nextRaw.2 = st₁.stream from hst₁ ▸ rfl] at hindex
  have hpeek₁ : peek.run st₁ = (name, st₁) := Prod.ext h₁.peek_eq rfl
  obtain ⟨hadvance₁, h₂⟩ := h₁.run_advance (by simp [hname])
  have hreach : st₁.stream.Reaches st₁.stream.nextRaw.2 := Stream.reaches_nextRaw _
  generalize hst₂ : ({ st₁ with stream := st₁.stream.nextRaw.2 } : ParseState) = st₂ at hadvance₁ h₂
  rw [show st₁.stream.nextRaw.2 = st₂.stream from hst₂ ▸ rfl] at hreach
  have hkind : st₂.stream.kindAt 0 = .lbrace := (congrArg Token.kind h₂.peek_eq).trans hopener
  have hheaders : headers.run st₂ = (.ok [], st₂) := by
    have hat : atHeader.run st₂ = (false, st₂) := by
      show (st₂.stream.peek.isRelationship || st₂.stream.multThenOperator, st₂) = _
      rw [h₂.peek_eq]
      simp [Token.isRelationship, hopener, Kind.isRelationship, Stream.multThenOperator, Stream.scanMult, hkind]
    refine loop_stops_at ?_
    unfold headerRound
    rw [run_bind, hat]
    rfl
  obtain ⟨back, hmembers, hleaves⟩ := entityBody_leaves hreads hopener hbrace h₂ name.text
  have hlt : (isAt .lt).run st₂ = (false, st₂) := by
    show (st₂.stream.isAt .lt, st₂) = _
    rw [h₂.isAt_eq, decide_eq_false (by simp [hopener])]
  have hbody : (isAt .lbrace).run st₂ = (true, st₂) := by
    show (st₂.stream.isAt .lbrace, st₂) = _
    rw [h₂.isAt_eq, decide_eq_true hopener]
  have hcls : (EntityKind.ofKeyword? .kwEnum).getD .cls = .enumeration := rfl
  have hpure : (pure [] : Parse (List TypeParam)).run st₂ = ([], st₂) := rfl
  unfold entity
  simp only [run_bind, hpeek, hmodifiers, hadvance, hpeek₁, hname, ne_eq, not_true_eq_false, if_false,
    hadvance₁, hlt, Bool.false_eq_true, hpure, hheaders, hbody, if_true, hkeyword, hcls]
  refine ⟨_, back, rfl, ?_, ⟨_, _, rfl, rfl, rfl, hmembers⟩, hleaves.counted _⟩
  have hbody := (triple_iff_run.1 (entityBody_spec (g := g) .enumeration name.text st₂)).1
  have hle := (hreach.trans hbody).index_le h₁.sound
  show Stream.movedFrom ((entityBody g .enumeration name.text).run st₂).2.stream st.stream = true
  simp only [Stream.movedFrom, Bool.or_eq_true, decide_eq_true_eq]
  omega

/-- An enumeration is the first statement, and the only one unless something is reported. -/
theorem document_leaves (hreads : BodyReads {} file opener us brace ts P)
    (hopener : opener.kind = .lbrace) (hbrace : brace.kind = .rbrace) {keyword name e : Token}
    (hkeyword : keyword.kind = .kwEnum) (hname : name.kind = .ident) (he : e.kind = .eof) (hts : ts = [e])
    (h : Between file st t (keyword :: name :: opener :: (us ++ brace :: ts))) :
    (∃ s, ((document {}).run st).1.statements = [s] ∧ IsEnum name.text (P · []) s
        ∧ ((document {}).run st).2.findings = #[])
      ∨ (∃ ms back, back ≠ [] ∧ P ms back) ∧ ((document {}).run st).2.findings ≠ #[] := by
  obtain ⟨s, back, hok, hmoved, hs, hleaves⟩ := entity_leaves hreads hopener hbrace hkeyword hname h
  have hkind : st.stream.peek.kind.isEntityKeyword = true := by rw [h.peek_eq, hkeyword]; rfl
  have hstatement := run_statement_entity (h.peekRaw_eq.trans h.peek_eq.symm) hkind hok hmoved
  generalize ((entity {}).run st).2 = st₁ at hleaves hstatement
  have hround : (statementRound (statement {}) false #[]).run st = (.again #[s], st₁) := by
    have hraw : peekRaw.run st = (keyword, st) := Prod.ext h.peekRaw_eq rfl
    unfold statementRound
    simp only [run_bind, hraw, hkeyword, hstatement]
    rfl
  have hends := ((loopsTerminate (g := {})).statements false).ends #[] st h.sound |>.of_again hround
  have hstatements : ((document {}).run st).1.statements
      = ((loop #[] (statementRound (statement {}) false)).run st).1.toList := rfl
  have hstate : ((document {}).run st).2 = ((loop #[] (statementRound (statement {}) false)).run st).2 := rfl
  rw [hstatements, hstate]
  by_cases hback : back = []
  · subst hback
    have hlast := hleaves.closed rfl
    subst hts
    have hstop : (statementRound (statement {}) false #[s]).run st₁ = (.stop #[s], st₁) := by
      have hraw : peekRaw.run st₁ = (e, st₁) := Prod.ext hlast.peekRaw_eq rfl
      unfold statementRound
      simp only [run_bind, hraw, he]
      rfl
    rw [hends.of_stop hstop]
    exact .inl ⟨s, rfl, hs, hlast.silent.1⟩
  · obtain ⟨tag, d, -, -, -, hmembers⟩ := hs
    refine .inr ⟨⟨_, back, hback, hmembers⟩, fun hnone => ?_⟩
    obtain ⟨finding, hfinding⟩ := Array.exists_mem_of_ne_empty _ (hleaves.reported hback)
    have hkept := hends.grows.mem_findings hfinding
    rw [show (_ : Reports).findings = #[] from hnone] at hkept
    exact absurd hkept (Array.not_mem_empty _)

end

end Parse

/-! ## The text -/

open Lexeme

/-- Two words that read like the beginning of a declaration: the keyword of a package or an entity, and a
name. -/
def Bytes.opens (w w' : Bytes) : Bool :=
  (Kind.keyword? w).any (fun k => k = .kwPackage || k.isEntityKeyword) && (Kind.keyword? w').isNone

/-- An enumeration whose literals are divided by commas. -/
def Bytes.listed (name : Bytes) (ws : List Bytes) : Bytes :=
  "enum " ++ name ++ " \x7b " ++ Bytes.join ", " ws ++ " \x7d"

/-- An enumeration whose literals stand on lines of their own. -/
def Bytes.lined (name : Bytes) (ws : List Bytes) : Bytes :=
  "enum " ++ name ++ " \x7b\n" ++ (ws.flatMap (· ++ [0x0A]) : Bytes) ++ "\x7d"

theorem Bytes.join_listed (w v : Bytes) (ws : List Bytes) :
    join ", " (w :: v :: ws) = w ++ 0x2C :: 0x20 :: join ", " (v :: ws) :=
  join_cons_cons ..

theorem Bytes.listed_eq (name : Bytes) (ws : List Bytes) :
    listed name ws = "enum " ++ name ++ " \x7b" ++ (0x20 :: (join ", " ws ++ [0x20, 0x7D]) : Bytes) := by
  have hopen : (" \x7b " : Bytes) = (" \x7b" : Bytes) ++ [0x20] := by decide
  have hclose : (" \x7d" : Bytes) = [0x20, 0x7D] := by decide
  simp [listed, hopen, hclose]

theorem Bytes.lined_eq (name : Bytes) (ws : List Bytes) :
    lined name ws = "enum " ++ name ++ " \x7b" ++ (0x0A :: (ws.flatMap (· ++ [0x0A]) ++ [0x7D]) : Bytes) := by
  have hopen : (" \x7b\n" : Bytes) = (" \x7b" : Bytes) ++ [0x0A] := by decide
  have hclose : ("\x7d" : Bytes) = [0x7D] := by decide
  simp [lined, hopen, hclose]

/-- The file is lexed and parsed without a finding, to one enumeration with these literals. -/
def File.ReadsEnum (file : File) (name : Bytes) (ws : List Bytes) (maxErrors : Nat) : Prop :=
  (Lexer.tokenize file []).findings = []
    ∧ (parse {} file (Lexer.tokenize file []).tokens maxErrors).findings = []
    ∧ ∃ tag e, (parse {} file (Lexer.tokenize file []).tokens maxErrors).program.statements
        = [.decl tag (.entity e)]
      ∧ e.kind = .enumeration ∧ e.name = name
      ∧ e.members.map (fun m => (m.kind, m.name)) = ws.map fun w => (.literal, w)

namespace SpellsAt

variable {s : Bytes} {ls : List (Lexeme × Bytes)}

/-- A line break stands between two places of a text. -/
def Breaks (p q : Lexeme × Bytes) : Prop := ∃ w, p.2 = w ++ q.2 ∧ 0x0A ∈ w

theorem lines {ws : List Bytes} (hws : ∀ w ∈ ws, w.isName = true) (h : SpellsAt s ls) :
    ∃ body, SpellsAt (ws.flatMap (· ++ [0x0A]) ++ s) (body ++ ls) ∧ body.map Prod.fst = ws.map Lexeme.word
      ∧ body.IsChain Breaks ∧ ∀ p ∈ body.head?, p.2 = ws.flatMap (· ++ [0x0A]) ++ s := by
  induction ws with
  | nil => exact ⟨[], h, rfl, .nil, nofun⟩
  | cons w ws ih =>
    obtain ⟨hw, hws⟩ := List.forall_mem_cons.1 hws
    obtain ⟨body, hbody, hlexemes, hbreaks, hhead⟩ := ih hws
    have hline := hbody.newline.word hw (b := 0x0A) (by decide) rfl
    have htext : (w :: ws).flatMap (· ++ [0x0A]) ++ s = w ++ 0x0A :: (ws.flatMap (· ++ [0x0A]) ++ s) := by
      simp
    rw [htext]
    refine ⟨_ :: body, hline, by simp [hlexemes], ?_, fun p hp => by simp at hp; simp [← hp]⟩
    refine List.isChain_cons.2 ⟨fun q hq => ⟨w ++ [0x0A], ?_, by simp⟩, hbreaks⟩
    simp [hhead q hq]

theorem commas {w : Bytes} {ws : List Bytes} (hws : ∀ v ∈ w :: ws, v.isName = true) {b : UInt8}
    (hb : b ∈ breaks) (hs : s.head? = some b) (h : SpellsAt s ls) :
    ∃ body, SpellsAt (Bytes.join ", " (w :: ws) ++ s) (body ++ ls)
      ∧ body.map Prod.fst = Lexeme.words .comma (w :: ws) := by
  induction ws generalizing w with
  | nil =>
    rw [show Bytes.join ", " [w] = w by simp [Bytes.join]]
    exact ⟨[_], h.word (hws w (by simp)) hb hs, rfl⟩
  | cons v ws ih =>
    obtain ⟨hw, hvs⟩ := List.forall_mem_cons.1 hws
    obtain ⟨body, hbody, hlexemes⟩ := ih hvs
    have hmark := (hbody.space.mark (b := 0x2C) rfl (by decide) (by decide)).word hw (b := 0x2C) (by decide) rfl
    rw [Bytes.join_listed, List.append_assoc]
    refine ⟨_ :: _ :: body, hmark, ?_⟩
    rw [List.map_cons, List.map_cons, hlexemes]
    simp [Lexeme.words, Lexeme.comma]

end SpellsAt

/-- A relation between neighbours goes over to a list that says the same. -/
theorem isChain_of_forall₂ {α β : Type} {R : α → β → Prop} {P : β → β → Prop} {Q : α → α → Prop}
    (hPQ : ∀ {a a' b b'}, R a b → R a' b' → P b b' → Q a a') {as : List α} {bs : List β}
    (h : List.Forall₂ R as bs) (hchain : bs.IsChain P) : as.IsChain Q := by
  induction h with
  | nil => exact .nil
  | cons hab hrest ih =>
    obtain ⟨hhead, htail⟩ := List.isChain_cons.1 hchain
    refine List.isChain_cons.2 ⟨fun a' ha' => ?_, ih htail⟩
    cases hrest with
    | nil => cases ha'
    | cons hab' _ =>
      cases ha'
      exact hPQ hab hab' (hhead _ rfl)

theorem map_lexeme {file : File} {ts : List Token} {ls : List (Lexeme × Bytes)}
    (h : List.Forall₂ (Token.StandsAt file) ts ls) : ts.map Token.lexeme = ls.map Prod.fst := by
  have heq : List.Forall₂ (· = ·) (ts.map Token.lexeme) (ls.map Prod.fst) :=
    List.forall₂_map_left_iff.2 (List.forall₂_map_right_iff.2 (h.imp fun _ _ h => h.lexeme))
  rwa [List.forall₂_eq_eq_eq] at heq

namespace File

variable {file : File} {n : Bytes} {ws : List Bytes}

/-- The tokens of an enumeration with such a body. -/
structure IsEnumOf (file : File) (n x : Bytes) (keyword name opener : Token) (us : List Token) (brace : Token)
    (body : List (Lexeme × Bytes)) : Prop where
  silent : (Lexer.tokenize file []).findings = []
  tokens : (Lexer.tokenize file []).tokens = keyword :: name :: opener :: (us ++ [brace, Lexer.endToken file])
  keyword : keyword.kind = .kwEnum
  name : name.kind = .ident ∧ name.text = n
  opener : opener.StandsAt file (lbrace, 0x7B :: x)
  body : List.Forall₂ (Token.StandsAt file) us body
  brace : brace.kind = .rbrace
  plain : ∀ u ∈ us, u.isTrivia = false

theorem exists_isEnumOf (hn : n.isName = true) (hfree : Kind.keyword? n = none) {x : Bytes}
    {body : List (Lexeme × Bytes)} (hx : SpellsAt x (body ++ [(rbrace, [0x7D])]))
    (hcontent : file.content.toList = "enum " ++ n ++ " \x7b" ++ x) (hsize : file.content.size + 1 < 2 ^ 32) :
    ∃ keyword name opener us brace, file.IsEnumOf n x keyword name opener us brace body := by
  have hopen := (hx.mark (b := 0x7B) rfl (by decide) (by decide)).space
  have hname := (hopen.word hn (b := 0x20) (by decide) rfl).space
  have hspells := hname.word (w := "enum") (by decide) (b := 0x20) (by decide) rfl
  have hsignificant := hspells.significant
  have htext : file.content.toList = ("enum" : Bytes) ++ 0x20 :: (n ++ 0x20 :: 0x7B :: x) := by
    have henum : ("enum " : Bytes) = ("enum" : Bytes) ++ [0x20] := by decide
    have hbrace : (" \x7b" : Bytes) = [0x20, 0x7B] := by decide
    rw [hcontent, henum, hbrace]
    simp
  obtain ⟨hsilent, ts, htokens, hts⟩ := Lexer.tokenize_spellsAt (htext ▸ hspells) hsize
  have hplain : ∀ t ∈ ts, t.isTrivia = false := fun t ht => by
    have hmem := List.mem_map_of_mem (f := Token.lexeme) ht
    rw [map_lexeme hts] at hmem
    obtain ⟨p, hp, hlexeme⟩ := List.mem_map.1 hmem
    exact (congrArg (·.kind.isTrivia) hlexeme).symm.trans (hsignificant p (htext ▸ hp))
  rcases hts with _ | ⟨hkeyword, _ | ⟨hname, _ | ⟨hopener, hts⟩⟩⟩
  rename_i keyword name opener ts
  have hbody := List.forall₂_take_append _ _ _ hts
  have hlast := List.forall₂_drop_append _ _ _ hts
  generalize hus : ts.take body.length = us at hbody
  obtain ⟨brace, hbrace, hdrop⟩ :
      ∃ brace, Token.StandsAt file brace (rbrace, [0x7D]) ∧ ts.drop body.length = [brace] := by
    generalize ts.drop body.length = rest at hlast
    rcases hlast with _ | ⟨hbrace, _ | _⟩
    exact ⟨_, hbrace, rfl⟩
  have hts : ts = us ++ [brace] := by rw [← hus, ← hdrop, List.take_append_drop]
  have hword : word n = ⟨.ident, n⟩ := by rw [word, hfree]; rfl
  have hwordEnum : word "enum" = ⟨.kwEnum, "enum"⟩ := by decide
  refine ⟨keyword, name, opener, us, brace, hsilent, by rw [htokens, hts]; simp, ?_, ⟨?_, ?_⟩, hopener,
    hbody, ?_, ?_⟩
  · exact congrArg Lexeme.kind (hkeyword.lexeme.trans hwordEnum)
  · exact congrArg Lexeme.kind (hname.lexeme.trans hword)
  · exact congrArg Lexeme.text (hname.lexeme.trans hword)
  · exact congrArg Lexeme.kind hbrace.lexeme
  · exact fun u hu => hplain u (by simp [hts, hu])

theorem IsEnumOf.between {x : Bytes} {keyword name opener brace : Token} {us : List Token}
    {body : List (Lexeme × Bytes)} (h : file.IsEnumOf n x keyword name opener us brace body)
    (maxErrors : Nat) :
    Parse.Between file { stream := .ofTokens (Lexer.tokenize file []).tokens, file, maxErrors } {}
      (keyword :: name :: opener :: (us ++ brace :: [Lexer.endToken file])) := by
  have hrest : (Stream.ofTokens (Lexer.tokenize file []).tokens).rest
      = keyword :: name :: opener :: (us ++ brace :: [Lexer.endToken file]) := by
    rw [h.tokens]
    simp [Stream.ofTokens, Stream.closed, List.getLast?_cons, Lexer.endToken]
  refine ⟨rfl, ⟨rfl, rfl⟩, hrest, rfl, rfl, rfl, ?_, Stream.closed_sound _⟩
  have hkinds : opener.isTrivia = false := congrArg (·.kind.isTrivia) h.opener.lexeme
  simp only [List.forall_mem_cons, List.forall_mem_append]
  refine ⟨?_, ?_, hkinds, h.plain, ?_, ?_, List.forall_mem_nil _⟩
  · simp [Token.isTrivia, h.keyword, Kind.isTrivia]
  · simp [Token.isTrivia, h.name.1, Kind.isTrivia]
  · simp [Token.isTrivia, h.brace, Kind.isTrivia]
  · rfl

theorem IsEnumOf.reads {x : Bytes} {keyword name opener brace : Token} {us : List Token}
    {body : List (Lexeme × Bytes)} (h : file.IsEnumOf n x keyword name opener us brace body)
    {P : List Member → List Token → Prop} (maxErrors : Nat)
    (hreads : Parse.BodyReads {} file opener us brace [Lexer.endToken file] P)
    (hall : ∀ ms, P ms [] → ms.map (fun m => (m.kind, m.name)) = ws.map fun w => (.literal, w)) :
    (∃ ms, P ms []) ∧ file.ReadsEnum n ws maxErrors
      ∨ (∃ ms back, back ≠ [] ∧ P ms back) ∧ ¬file.ReadsEnum n ws maxErrors := by
  have hopener : opener.kind = .lbrace := congrArg Lexeme.kind h.opener.lexeme
  rcases Parse.document_leaves hreads hopener h.brace h.keyword h.name.1 rfl rfl (h.between maxErrors) with
    ⟨s, hs, ⟨tag, e, rfl, hkind, hname, hmembers⟩, hfindings⟩ | ⟨hleft, hfindings⟩
  · refine .inl ⟨⟨_, hmembers⟩, h.silent, ?_, tag, e, hs, hkind, hname.trans h.name.2, hall _ hmembers⟩
    exact congrArg Array.toList hfindings
  · refine .inr ⟨hleft, fun hreads => hfindings ?_⟩
    exact Array.toList_eq_nil_iff.1 hreads.2.1

theorem literals_of_words {us : List Token} {ms : List Member} (h : List.Forall₂ Parse.IsLiteral us ms)
    (hus : us.map Token.lexeme = ws.map word) :
    ms.map (fun m => (m.kind, m.name)) = ws.map fun w => (.literal, w) := by
  have hms : us.map (fun u => (MemberKind.literal, u.text)) = ms.map fun m => (m.kind, m.name) := by
    have heq := List.forall₂_map_left_iff.2 (List.forall₂_map_right_iff.2
      (h.imp (S := fun u m => (MemberKind.literal, u.text) = (m.kind, m.name))
        fun u m hm => by rw [hm.1, hm.2]))
    rwa [List.forall₂_eq_eq_eq] at heq
  have htexts : us.map (·.text) = ws := by
    have htexts := congrArg (List.map Lexeme.text) hus
    rw [List.map_map, List.map_map] at htexts
    exact htexts.trans (List.map_id ws)
  rw [← hms, ← htexts, List.map_map]
  rfl

theorem isWord_of_lexeme {us : List Token} (hus : us.map Token.lexeme = ws.map word) :
    ∀ u ∈ us, u.isWord = true := by
  intro u hu
  have hmem := List.mem_map_of_mem (f := Token.lexeme) hu
  rw [hus] at hmem
  obtain ⟨w, -, hw⟩ := List.mem_map.1 hmem
  exact (congrArg (·.kind.isWord) hw).symm.trans (isWord_word w)

/-- The words that read like the beginning of a declaration are the tokens that do. -/
theorem opens_word (w w' : Bytes) {u v : Token} (hu : u.lexeme = word w) (hv : v.lexeme = word w') :
    Stream.Opens u v ↔ Bytes.opens w w' = true := by
  have hkind : u.kind = (Kind.keyword? w).getD .ident := congrArg Lexeme.kind hu
  have hkind' : v.kind = (Kind.keyword? w').getD .ident := congrArg Lexeme.kind hv
  have hident : v.kind = .ident ↔ (Kind.keyword? w').isNone = true := by
    rw [hkind']
    cases hk : Kind.keyword? w' with
    | none => simp
    | some k =>
      have hne : k ≠ .ident := fun heq => by
        have := Kind.isKeyword_of_keyword? hk
        simp [heq, Kind.isKeyword] at this
      simp [hne]
  have hkeyword : (u.kind = .kwPackage ∨ u.kind.isEntityKeyword = true)
      ↔ (Kind.keyword? w).any (fun k => k = .kwPackage || k.isEntityKeyword) = true := by
    rw [hkind]
    cases Kind.keyword? w <;> simp [Kind.isEntityKeyword]
  rw [Stream.Opens, hident, hkeyword, Bytes.opens, Bool.and_eq_true]

theorem isChain_opens {us : List Token} (hus : us.map Token.lexeme = ws.map word) :
    us.IsChain (fun u v => ¬Stream.Opens u v) ↔ ws.IsChain fun w w' => ¬Bytes.opens w w' = true := by
  have hforall : List.Forall₂ (fun u w => u.lexeme = word w) us ws := by
    rw [← List.forall₂_eq_eq_eq, List.forall₂_map_left_iff, List.forall₂_map_right_iff] at hus
    exact hus
  constructor
  · exact isChain_of_forall₂ (R := fun w u => Token.lexeme u = word w)
      (fun hw hw' h => (not_congr (opens_word _ _ hw hw')).1 h) hforall.flip
  · exact isChain_of_forall₂ (R := fun u w => Token.lexeme u = word w)
      (fun hu hv h => (not_congr (opens_word _ _ hu hv)).2 h) hforall

end File

/-- Words divided by commas, and what is before and behind each. -/
theorem Lexeme.words_comma (w : Bytes) (ws : List Bytes) :
    (∀ l ∈ words .comma (w :: ws), l.kind.isWord = true ∨ l = .comma)
      ∧ (words .comma (w :: ws)).IsChain (fun l l' => l.kind.isWord = true → l' = .comma)
      ∧ (words .comma (w :: ws)).filter (·.kind.isWord) = (w :: ws).map word := by
  induction ws generalizing w with
  | nil => exact ⟨by simp [words, isWord_word], by simp [words], by simp [words, isWord_word]⟩
  | cons v ws ih =>
    obtain ⟨hkinds, hcommas, hwords⟩ := ih v
    have hcons : words .comma (w :: v :: ws) = word w :: .comma :: words .comma (v :: ws) := by simp [words]
    have hcomma : Lexeme.comma.kind.isWord = false := rfl
    rw [hcons]
    refine ⟨?_, ?_, ?_⟩
    · exact List.forall_mem_cons.2 ⟨.inl (isWord_word w), List.forall_mem_cons.2 ⟨.inr rfl, hkinds⟩⟩
    · refine List.isChain_cons_cons.2 ⟨fun _ => rfl, List.isChain_cons.2 ⟨fun l hl h => ?_, hcommas⟩⟩
      rw [hcomma] at h
      cases h
    · simp [isWord_word, hcomma, hwords]

theorem newline_not_mem_join {ws : List Bytes} (hws : ∀ w ∈ ws, w.isName = true) :
    0x0A ∉ Bytes.join ", " ws := by
  induction ws with
  | nil => simp [Bytes.join]
  | cons w ws ih =>
    obtain ⟨hw, hws⟩ := List.forall_mem_cons.1 hws
    cases ws with
    | nil => simpa [Bytes.join] using newline_not_mem hw
    | cons v ws =>
      rw [Bytes.join_listed]
      simp [newline_not_mem hw, ih hws]

theorem newline_not_mem_listed {n : Bytes} (hn : n.isName = true) {ws : List Bytes}
    (hws : ∀ w ∈ ws, w.isName = true) : 0x0A ∉ Bytes.listed n ws := by
  have htexts : (0x0A : UInt8) ∉ ("enum " : Bytes) ∧ (0x0A : UInt8) ∉ (" \x7b " : Bytes)
      ∧ (0x0A : UInt8) ∉ (" \x7d" : Bytes) := by
    decide
  simp only [Bytes.listed, List.mem_append, not_or]
  exact ⟨⟨⟨⟨htexts.1, newline_not_mem hn⟩, htexts.2.1⟩, newline_not_mem_join hws⟩, htexts.2.2⟩

/-- Literals divided by commas are read whatever words they are. On lines of their own they are read unless
two of them, one behind the other, read like the beginning of a declaration: then the body is left there. -/
theorem parse_enumBody {n : Bytes} (hn : n.isName = true) (hfree : Kind.keyword? n = none) {ws : List Bytes}
    (hne : ws ≠ []) (hws : ∀ w ∈ ws, w.isName = true) (file : File) (hsize : file.content.size + 1 < 2 ^ 32)
    (maxErrors : Nat) :
    (file.content.toList = Bytes.listed n ws → file.ReadsEnum n ws maxErrors)
      ∧ (file.content.toList = Bytes.lined n ws →
        (file.ReadsEnum n ws maxErrors ↔ ws.IsChain fun w w' => ¬Bytes.opens w w' = true)) := by
  have hclose : SpellsAt ([0x7D] : Bytes) [(rbrace, [0x7D])] := .mark rfl (by decide) (by decide) .nil
  constructor
  · intro hcontent
    obtain ⟨w, ws, rfl⟩ := List.exists_cons_of_ne_nil hne
    have hnone : 0x0A ∉ file.content.toList := hcontent ▸ newline_not_mem_listed hn hws
    obtain ⟨body, hbody, hlexemes⟩ := SpellsAt.commas hws (b := 0x20) (by decide) rfl hclose.space
    obtain ⟨keyword, name, opener, us, brace, h⟩ := File.exists_isEnumOf hn hfree hbody.space
      (hcontent.trans (Bytes.listed_eq n (w :: ws))) hsize
    have hreads : Parse.BodyReads {} file opener us brace [Lexer.endToken file] fun ms back =>
        back = [] ∧ ms.map (fun m => (m.kind, m.name)) = (w :: ws).map fun w => (.literal, w) := by
      intro st r hbetween hends
      have hus : us.map Token.lexeme = Lexeme.words .comma (w :: ws) := (map_lexeme h.body).trans hlexemes
      obtain ⟨hkinds, hcommas, hwords⟩ := Lexeme.words_comma w ws
      rw [← hus] at hkinds hcommas hwords
      have hline : (opener :: us).IsChain fun t u => ¬Parse.LaterLine file t u := by
        refine isChain_of_forall₂ (P := fun _ _ => True) (fun {t u p q} ht hu _ => ?_) (.cons h.opener h.body)
          (List.isChain_iff_getElem.2 fun _ _ => trivial)
        rw [Parse.LaterLine, ← ht.position, ht.line_eq_one hnone hsize, hu.line_eq_one hnone hsize]
        exact Nat.lt_irrefl 1
      have hmembers : ∀ u ∈ us, u.isWord = true ∨ u.kind = .comma := fun u hu =>
        (hkinds u.lexeme (List.mem_map_of_mem hu)).imp_right (congrArg Lexeme.kind)
      have hdivided : (us ++ [brace]).IsChain
          fun u v => u.isWord = true → v.kind = .comma ∨ v.kind = .rbrace := by
        refine List.isChain_append.2 ⟨?_, List.isChain_singleton _, fun u _ v hv _ => .inr ?_⟩
        · have hchain := (List.isChain_map Token.lexeme).1 hcommas
          exact hchain.imp fun u v h hu => .inl (congrArg Lexeme.kind (h hu))
        · cases hv
          exact h.brace
      obtain ⟨ms, t, hms, hliterals, hleft⟩ :=
        Parse.memberLoop_commas h.brace hmembers hdivided hline hbetween rfl hends
      refine ⟨[], t, nofun, ⟨rfl, ?_⟩, hleft⟩
      rw [hms]
      rw [List.filter_map] at hwords
      exact File.literals_of_words hliterals hwords
    rcases h.reads maxErrors hreads fun ms hms => hms.2 with
      ⟨-, hyes⟩ | ⟨⟨ms, back, hback, hnil, -⟩, -⟩
    · exact hyes
    · exact absurd hnil hback
  · intro hcontent
    obtain ⟨body, hbody, hlexemes, hbreaks, hhead⟩ := SpellsAt.lines hws hclose
    obtain ⟨keyword, name, opener, us, brace, h⟩ := File.exists_isEnumOf hn hfree hbody.newline
      (hcontent.trans (Bytes.lined_eq n ws)) hsize
    have hus : us.map Token.lexeme = ws.map word := (map_lexeme h.body).trans hlexemes
    have hlines : (opener :: us).IsChain (Parse.LaterLine file) := by
      have hchain : ((lbrace, _) :: body).IsChain SpellsAt.Breaks :=
        List.isChain_cons.2 ⟨fun q hq => ⟨[0x7B, 0x0A], by rw [hhead q hq], by simp⟩, hbreaks⟩
      refine isChain_of_forall₂ (fun {t u p q} ht hu hpq => ?_) (.cons h.opener h.body) hchain
      obtain ⟨w, hw, hbreak⟩ := hpq
      rw [Parse.LaterLine, ← ht.position]
      exact ht.line_lt hu hw hbreak hsize
    have hreads : Parse.BodyReads {} file opener us brace [Lexer.endToken file] fun ms back =>
        (back = [] ↔ ws.IsChain fun w w' => ¬Bytes.opens w w' = true)
          ∧ (back = [] → ms.map (fun m => (m.kind, m.name)) = ws.map fun w => (.literal, w)) := by
      intro st r hbetween hends
      obtain ⟨front, back, ms, t, rfl, hms, hliterals, hleft, hback⟩ :=
        Parse.memberLoop_lines h.brace (File.isWord_of_lexeme hus) hlines hbetween rfl hends
      refine ⟨back, t, fun u hu => File.isWord_of_lexeme hus u (by simp [hu]), ⟨?_, ?_⟩, hleft⟩
      · exact hback.trans (File.isChain_opens hus)
      · rintro rfl
        rw [List.append_nil] at hus
        rw [hms]
        exact File.literals_of_words hliterals hus
    rcases h.reads maxErrors hreads fun ms hms => hms.2 rfl with
      ⟨⟨ms, hchain, -⟩, hyes⟩ | ⟨⟨ms, back, hback, hchain, -⟩, hno⟩
    · exact iff_of_true hyes (hchain.1 rfl)
    · exact iff_of_false hno fun h => hback (hchain.2 h)

/-- Keywords in any order are literals where no name follows them. -/
theorem parse_enumBody_keywords :
    let ws : List Bytes := ["on", "Foo", "abstract", "class", "package"]
    let commas : File := .ofBytes 1 [] (Bytes.listed "E" ws).toArray 0
    let lines : File := .ofBytes 1 [] (Bytes.lined "E" ws).toArray 0
    commas.ReadsEnum "E" ws 0 ∧ lines.ReadsEnum "E" ws 0 := by
  intro ws commas lines
  have hws : ∀ w ∈ ws, w.isName = true := by decide
  have hne : ws ≠ [] := List.cons_ne_nil _ _
  have hname : Bytes.isName "E" = true ∧ Kind.keyword? "E" = none := by decide
  have hchain : ws.IsChain fun w w' => ¬Bytes.opens w w' = true := by decide
  exact ⟨(parse_enumBody hname.1 hname.2 hne hws commas (by decide) 0).1 List.toList_toArray,
    ((parse_enumBody hname.1 hname.2 hne hws lines (by decide) 0).2 List.toList_toArray).2 hchain⟩

/-- Two words that are literals on one line, and leave the body on lines of their own. -/
theorem not_readsEnum_class :
    let ws : List Bytes := ["class", "Foo"]
    (∀ w ∈ ws, w.isName = true)
      ∧ ¬(File.ofBytes 1 [] (Bytes.lined "E" ws).toArray 0).ReadsEnum "E" ws 0 := by
  intro ws
  have hfindings : (parse {} (.ofBytes 1 [] (Bytes.lined "E" ws).toArray 0)
      (Lexer.tokenize (.ofBytes 1 [] (Bytes.lined "E" ws).toArray 0) []).tokens 0).findings.isEmpty = false := by
    rw [Lexer.tokenize_eq_quick]
    decide +kernel
  refine ⟨by decide +kernel, fun hreads => ?_⟩
  rw [hreads.2.1] at hfindings
  cases hfindings

end Uml
