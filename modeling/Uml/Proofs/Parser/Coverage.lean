import Mathlib
import Uml.Proofs.Compile.Relationships
import Uml.Proofs.Lexer.Quick
import Uml.Proofs.Parser.Accepted
import Uml.Proofs.Parser.Placement

/-!
# Nothing is skipped in silence

A statement that is read without errors reaches from the token ahead to the token taken last, so it
takes in everything that is passed on the way. Where a document is read without errors, what stands
between its statements are comments and semicolons.
-/
namespace Uml

open Std.Do

set_option mvcgen.warning false

namespace Stream

variable {file : File} {s s' : Stream}

/-- Every significant token passed ends where the token taken last ends, or before. -/
def Trails (file : File) (s : Stream) : Prop :=
  ∀ t ∈ s.past, t.isTrivia = false → t.span.stop ≤ s.last.stop ∧ s.last.file = file.id

theorem Trails.atNext (h : s.Trails file) : s.atNext.Trails file := by
  obtain ⟨comments, -, hpast, hall⟩ := s.atNext_spec
  intro t ht htrivia
  rw [last_atNext]
  rw [hpast, List.mem_append, List.mem_reverse] at ht
  rcases ht with ht | ht
  · exact absurd (hall t ht) (by simp [htrivia])
  · exact h t ht htrivia

theorem Trails.nextRaw (h : s.Trails file) (hlaid : s.Laid file) : s.nextRaw.2.Trails file := by
  by_cases hkind : s.peekRaw.kind = .eof
  · rw [nextRaw_eof hlaid.toSound hkind]
    exact h
  · obtain ⟨t, tail, hrest, -, hnext⟩ := Stream.nextRaw_token hlaid.toSound hkind
    have hext := hlaid.extends_nextRaw
    have hstop : s.peekRaw.span.stop = t.span.stop := by
      unfold peekRaw
      rw [hrest]
      cases s.half <;> rfl
    intro u hu htrivia
    rw [hnext] at hu
    rcases List.mem_cons.1 hu with rfl | hu
    · rw [hnext]
      exact ⟨Nat.le_of_eq hstop.symm, hlaid.peekRaw_fits.file_eq⟩
    · obtain ⟨hle, hfile⟩ := h u hu htrivia
      exact ⟨Nat.le_trans hle hext.last_stop, hext.last_file hfile⟩

theorem Step.trails (hstep : Step s s') (hlaid : s.Laid file) (h : s.Trails file) : s'.Trails file := by
  cases hstep with
  | raw => exact h.nextRaw hlaid
  | next =>
    rw [next_eq]
    exact h.atNext.nextRaw hlaid.atNext
  | split hsplit =>
    have hext := hlaid.extends_split hsplit
    obtain ⟨shr, tail, -, -, -, -, rfl⟩ := split?_eq_some hsplit
    intro u hu htrivia
    obtain ⟨hle, hfile⟩ := h.atNext u hu htrivia
    rw [last_atNext] at hle hfile
    exact ⟨Nat.le_trans hle hext.last_stop, hext.last_file hfile⟩

theorem Reaches.trails (hreach : s.Reaches s') (hlaid : s.Laid file) (h : s.Trails file) :
    s'.Trails file := by
  induction hreach with
  | refl => exact h
  | tail hreach hstep ih => exact hstep.trails (Reaches.extends hreach hlaid).laid ih

/-- Nothing significant is ahead of the token that a look ahead finds. -/
theorem Laid.peek_start_le (h : s.Laid file) (hhalf : s.half = false) {t : Token} (ht : t ∈ s.rest)
    (htrivia : t.isTrivia = false) : s.peek.span.start ≤ t.span.start := by
  obtain ⟨comments, hrest, -, hall⟩ := s.atNext_spec
  obtain ⟨u, tail, hnext⟩ := List.exists_cons_of_ne_nil h.toSound.atNext.rest_ne_nil
  have hpeek : s.peek = u := by simp [peek_eq, peekRaw, hnext, atNext_half, hhalf]
  have hu := (h.fits u (by simp [hrest, hnext])).start_le
  have hordered := h.ordered
  rw [hrest, hnext, List.pairwise_append, List.pairwise_cons] at hordered
  rw [hrest, hnext, List.mem_append, List.mem_cons] at ht
  rw [hpeek]
  rcases ht with ht | rfl | ht
  · exact absurd (hall t ht) (by simp [htrivia])
  · exact Nat.le_refl _
  · exact Nat.le_trans hu (hordered.2.1.1 t ht)

theorem Reaches.mem_past (h : s.Reaches s') {t : Token} (ht : t ∈ s'.past) : t ∈ s.past ∨ t ∈ s.rest := by
  have hmem : t ∈ s'.tokens := List.mem_append_left _ (List.mem_reverse.2 ht)
  rw [h.tokens, Stream.tokens] at hmem
  simpa using hmem

/-- The span takes in every significant token that is passed on the way from `s` to `s'`. -/
def Fills (s s' : Stream) (x : Span) : Prop :=
  ∀ file : File, s.Laid file → s.Trails file → ∀ t ∈ s'.past,
    t ∈ s.past ∨ t.isTrivia = true ∨ t.span.isInside x = true

theorem Reaches.fills_cover (h : s.Reaches s') (hhalf : s.half = false) :
    s.Fills s' (s.peek.span.cover s'.last) := by
  intro file hlaid htrails t ht
  rcases h.mem_past ht with hpast | hrest
  · exact .inl hpast
  · cases htrivia : t.isTrivia with
    | true => exact .inr (.inl rfl)
    | false =>
      obtain ⟨hstop, hfile⟩ := h.trails hlaid htrails t ht htrivia
      have hstart := hlaid.peek_start_le hhalf hrest htrivia
      refine .inr (.inr ?_)
      rw [Span.cover, if_pos (hlaid.peek_fits.file_eq.trans hfile.symm)]
      simp only [Span.isInside, Bool.and_eq_true, decide_eq_true_eq]
      omega

/-- Of a comment nothing has to be taken in. -/
theorem fills_comment (hs : s.Sound) (h : s.peekRaw.isTrivia = true) (x : Span) : s.Fills s.nextRaw.2 x := by
  have hkind : s.peekRaw.kind ≠ .eof := fun heof => by simp [Token.isTrivia, heof, Kind.isTrivia] at h
  have hgt : s.peekRaw.kind ≠ .gt := fun hgt => by simp [Token.isTrivia, hgt, Kind.isTrivia] at h
  obtain ⟨t, tail, hrest, -, hnext⟩ := Stream.nextRaw_token hs hkind
  have ht : s.peekRaw = t := by simp [peekRaw, hrest, half_of_peekRaw hs hgt]
  intro file _ _ u hu
  rw [hnext] at hu
  rcases List.mem_cons.1 hu with rfl | hu
  · exact .inr (.inl (ht ▸ h))
  · exact .inl hu

theorem Fills.behind_comment {x : Span} (hfills : s.nextRaw.2.Fills s' x) (hs : s.Sound)
    (h : s.peekRaw.isTrivia = true) : s.Fills s' x := by
  intro file hlaid htrails t ht
  rcases hfills file hlaid.extends_nextRaw.laid (htrails.nextRaw hlaid) t ht with ht | ht
  · rcases fills_comment hs h x file hlaid htrails t ht with ht | ht
    · exact .inl ht
    · exact .inr ht
  · exact .inr ht

end Stream

namespace Parse

open ParseState

attribute [local spec high] newDecl_span advance_moves advanceRaw_moves eat?_moves reset_moves report_moves
  reportFailure_moves path?_named endpoint?_named mult_closes linkLabel_moves entityBody_moves
  typeParams_moves entityModifiers_moves expect_moves closeBrace_moves configEntry?_moves sync_moves

variable {g : Grammar} [g.IsForward] [g.IsBlind]

/-! ## Statements -/

theorem firstRule_accepts (all : List Rule) {p : Parse (Option Statement)} (hp : Completes p)
    {rules : List Rule} (h : ∀ r ∈ rules, AcceptsRule r)
    (hstart : ∀ r ∈ rules, ∀ s, r.canStart s = true → s.peek.kind ≠ .gt) (start : Stream)
    (s : ParseState) :
    ⦃fun st => ⌜st = s⌝⦄ firstRule all p start rules
    ⦃⇓ found st => ⌜s.stream = start → s.Moves st ∧ (st.errors = 0 → start.peek.kind ≠ .gt
      ∧ ∃ x, found = some x ∧ x.span = start.peek.span.cover st.stream.last)⌝⦄ := by
  induction rules generalizing s with
  | nil =>
    unfold firstRule
    refine triple_intro fun Q hQ => ?_
    mvcgen
    grind -linarith [Diagnostic.error]
  | cons rule rules ih =>
    have hrule := (h rule (by simp)).spec hp
    have hcan := hstart rule (by simp)
    have hrest := ih (fun r hr => h r (by simp [hr])) fun r hr => hstart r (by simp [hr])
    unfold firstRule
    refine triple_intro fun Q hQ => ?_
    mvcgen [hrule, hrest, reportFailure_reports, -reportFailure_moves, -reportFailure_spec] <;>
      grind -linarith [Moves, Accepts]

/-- Where a statement begins with at most `n` tokens ahead and no error is reported, there is a
statement that takes in what is passed. -/
def Fulfils (n : Nat) (p : Parse (Option Statement)) : Prop :=
  ∀ st : ParseState, st.Ready → st.stream.rest.length ≤ n → (p.run st).2.errors = 0 →
    ∃ x, (p.run st).1 = some x ∧ st.stream.Fills (p.run st).2.stream x.span

/-- A comment that is kept takes in nothing but itself. -/
theorem commentStatement_fulfils {s : ParseState} (hs : s.Ready) (h : s.stream.peekRaw.isTrivia = true) :
    ∃ x, (commentStatement.run s).1 = some x ∧ s.stream.Fills (commentStatement.run s).2.stream x.span :=
  ⟨_, rfl, Stream.fills_comment hs.sound h _⟩

theorem advanceRaw_next (s : ParseState) :
    ⦃fun st => ⌜st = s⌝⦄ advanceRaw
    ⦃⇓ t st => ⌜t = s.stream.peekRaw ∧ st.stream = s.stream.nextRaw.2 ∧ s.Moves st⌝⦄ :=
  triple_iff_run.2 ⟨Stream.nextRaw_fst _, rfl, triple_iff_run.1 (advanceRaw_moves s)⟩

theorem documented_fulfils {n : Nat} {p : Parse (Option Statement)} (hp : Completes p) (h : Fulfils n p)
    {s : ParseState} (hs : s.Ready) (hdoc : s.stream.peekRaw.isTrivia = true)
    (hn : s.stream.rest.length ≤ n + 1) :
    ⦃fun st => ⌜st = s⌝⦄ documented p
    ⦃⇓ found st => ⌜st.errors = 0 → ∃ x, found = some x ∧ s.stream.Fills st.stream x.span⌝⦄ := by
  have hinner : ∀ s, ⦃fun st => ⌜st = s⌝⦄ p
      ⦃⇓ found st => ⌜s.Moves st ∧ (s.Ready → s.stream.rest.length ≤ n → st.errors = 0 →
        ∃ x, found = some x ∧ s.stream.Fills st.stream x.span)⌝⦄ :=
    fun s => triple_iff_run.2 ⟨(hp s).1, h s⟩
  have hfills := Stream.fills_comment hs.sound hdoc
  have hbehind := fun s' x (hx : s.stream.nextRaw.2.Fills s' x) => hx.behind_comment hs.sound hdoc
  have hlength : s.stream.nextRaw.2.rest.length ≤ n := by
    have hkind : s.stream.peekRaw.kind ≠ .eof := fun heof => by
      simp [Token.isTrivia, heof, Kind.isTrivia] at hdoc
    obtain ⟨t, tail, hrest, -, hnext⟩ := Stream.nextRaw_token hs.sound hkind
    rw [hrest, List.length_cons] at hn
    rw [hnext]
    exact Nat.le_of_succ_le_succ hn
  unfold documented
  refine triple_intro fun Q hQ => ?_
  mvcgen [hinner, advanceRaw_next, -advanceRaw_moves, -advanceRaw_spec] <;>
    grind -linarith [Statement.span_withDoc]

theorem statementOver_fulfils {n : Nat} {inner : Parse (Option Statement)} (hinner : Completes inner)
    (h : Fulfils n inner) : Fulfils (n + 1) (statementOver {} inner) := by
  intro s hs hn
  have hdocumented := fun hdoc => documented_fulfils hinner h hs hdoc hn
  have hfirst := firstRule_accepts (allRules {}) hinner (builtinRules_accept (g := {}))
    (fun r hr _ => builtinRules_start hr) s.stream s
  have hpeek : peekRaw.run s = (s.stream.peekRaw, s) := rfl
  have hstream : stream.run s = (s.stream, s) := rfl
  unfold statementOver
  rw [run_bind, hpeek]
  dsimp only
  split
  · rename_i hdoc
    exact triple_iff_run.1 (hdocumented (by simp [Token.isTrivia, hdoc, Kind.isTrivia]))
  · rename_i hcomment
    exact fun _ => commentStatement_fulfils hs (by simp [Token.isTrivia, hcomment, Kind.isTrivia])
  · rw [run_bind, hstream]
    intro herrors
    obtain ⟨hmoves, haccepts⟩ := triple_iff_run.1 hfirst rfl
    obtain ⟨hgt, x, hx, hspan⟩ := haccepts herrors
    refine ⟨x, hx, ?_⟩
    rw [hspan]
    exact hmoves.stream.fills_cover (Stream.half_of_peek hs.sound hgt)

theorem statementWithin_fulfils (n : Nat) : Fulfils n (statementWithin {} (n + 1)) := by
  induction n with
  | zero =>
    exact fun st hs hn => absurd (List.eq_nil_of_length_eq_zero (Nat.le_zero.1 hn)) hs.sound.rest_ne_nil
  | succ n ih => exact statementOver_fulfils (statementWithin_completes (n + 1)) ih

theorem statement_fulfils {s : ParseState} (hs : s.Ready) :
    ⦃fun st => ⌜st = s⌝⦄ statement {}
    ⦃⇓ found st => ⌜s.Moves st ∧ (st.errors = 0 →
      ∃ x, found = some x ∧ s.stream.Fills st.stream x.span)⌝⦄ :=
  triple_iff_run.2 ⟨(statement_completes s).1,
    statementWithin_fulfils s.stream.rest.length s hs (Nat.le_refl _)⟩

/-! ## Documents -/

/-- What is passed is a comment or a semicolon, or it lies in a statement. -/
def Covered (found : List Statement) (s : Stream) : Prop :=
  ∀ t ∈ s.past, t.isTrivia = true ∨ t.kind = .semicolon ∨ ∃ x ∈ found, t.span.isInside x.span = true

theorem Covered.push (found : List Statement) {s : Stream} {file : File} (h : Covered found s)
    (hlaid : s.Laid file) (htrails : s.Trails file) (s' : Stream) (x : Statement) (hx : s.Fills s' x.span) :
    Covered (found ++ [x]) s' := by
  intro t ht
  rcases hx file hlaid htrails t ht with ht | ht | ht
  · refine (h t ht).imp_right (Or.imp_right ?_)
    rintro ⟨y, hy, hinside⟩
    exact ⟨y, List.mem_append_left _ hy, hinside⟩
  · exact .inl ht
  · exact .inr (.inr ⟨x, by simp, ht⟩)

theorem Covered.semicolon (found : List Statement) {s : Stream} (h : Covered found s) (hs : s.Sound)
    (hkind : s.peekRaw.kind = .semicolon) : Covered found s.nextRaw.2 := by
  obtain ⟨u, tail, hrest, -, hnext⟩ := Stream.nextRaw_token hs (by simp [hkind])
  have hu : s.peekRaw = u := by simp [Stream.peekRaw, hrest, Stream.half_of_peekRaw hs (by simp [hkind])]
  intro t ht
  rw [hnext] at ht
  rcases List.mem_cons.1 ht with rfl | ht
  · exact .inr (.inl (hu ▸ hkind))
  · exact h t ht

theorem statementRound_covers {file : File} {s : ParseState} (hs : s.Ready) (hlaid : s.stream.Laid file)
    (htrails : s.stream.Trails file) {v : Array Statement} (hv : s.errors = 0 → Covered v.toList s.stream) :
    ⦃fun st => ⌜st = s⌝⦄ statementRound (statement {}) false v
    ⦃⇓ r st => ⌜s.Moves st ∧ (st.errors = 0 → Covered r.value.toList st.stream)⌝⦄ := by
  have hstatement := statement_fulfils hs
  have hsemicolon := fun h => Covered.semicolon v.toList h hs.sound
  have hpush := fun h s' x hx => Covered.push v.toList h hlaid htrails s' x hx
  unfold statementRound
  refine triple_intro fun Q hQ => ?_
  mvcgen [hstatement, advanceRaw_next, -advanceRaw_moves, -advanceRaw_spec, -statement_spec] <;>
    grind -linarith [Diagnostic.error]

theorem document_covers {file : File} {ts : List Token} (hnamed : (Stream.ofTokens ts).Named)
    (hlaid : (Stream.ofTokens ts).Laid file) (maxErrors : Nat) :
    let run := (document {}).run { stream := .ofTokens ts, file, maxErrors }
    run.2.errors = 0 → Covered run.1.statements run.2.stream ∧ run.2.stream.Laid file := by
  let start : ParseState := { stream := .ofTokens ts, file, maxErrors }
  have hready : start.Ready := ⟨Stream.closed_sound ts, hnamed⟩
  have htrails : start.stream.Trails file := nofun
  have hloop : ⦃fun st => ⌜st = start⌝⦄ loop #[] (statementRound (statement {}) false)
      ⦃⇓ v st => ⌜start.Moves st ∧ (st.errors = 0 → Covered v.toList st.stream)⌝⦄ := by
    refine loop_keeps (fun (v : Array Statement) st => start.Moves st
      ∧ (st.errors = 0 → Covered v.toList st.stream)) (fun v st hI => ?_) ⟨.refl _, fun _ => nofun⟩
    have hround := triple_iff_run.1 (statementRound_covers (hI.1.ready hready)
      (hI.1.stream.extends hlaid).laid (hI.1.stream.trails hlaid htrails) hI.2)
    exact triple_iff_run.2 ⟨hI.1.trans hround.1, hround.2⟩
  obtain ⟨hmoves, hcovered⟩ := triple_iff_run.1 hloop
  intro run herrors
  exact ⟨hcovered herrors, (hmoves.stream.extends hlaid).laid⟩

end Parse

namespace Lexer

theorem eq_endToken {file : File} {extra : List Matcher} (hextra : ∀ m ∈ extra, m.Fits)
    (hsize : file.content.size < 2 ^ 32) {t : Token} (ht : t ∈ (tokenize file extra).tokens)
    (hkind : t.kind = .eof) : t = endToken file := by
  obtain ⟨ts, htokens, hinner⟩ := tokenize_ends hextra hsize
  rw [htokens, List.mem_append, List.mem_singleton] at ht
  exact ht.resolve_left fun h => hinner t h hkind

end Lexer

/-- Of spans that lie one behind the other only one takes in a given one. -/
theorem Statement.filter_isInside {ss : List Statement}
    (hordered : (ss.map (·.span)).Pairwise (·.stop ≤ ·.start)) {p : Span} (hp : p.start < p.stop)
    {x : Statement} (hx : x ∈ ss) (hinside : p.isInside x.span = true) :
    ∃ y, ss.filter (fun s => p.isInside s.span) = [y] := by
  simp only [Span.isInside, Bool.and_eq_true, decide_eq_true_eq] at hinside ⊢
  induction ss with
  | nil => cases hx
  | cons s ss ih =>
    rw [List.map_cons, List.pairwise_cons] at hordered
    by_cases hs : s.span.start ≤ p.start ∧ p.stop ≤ s.span.stop
    · refine ⟨s, ?_⟩
      rw [List.filter_cons_of_pos (by simpa using hs), List.filter_eq_nil_iff.2 fun y hy => ?_]
      have hle := hordered.1 y.span (List.mem_map_of_mem hy)
      simp only [Bool.and_eq_true, decide_eq_true_eq]
      omega
    · rw [List.filter_cons_of_neg (by simpa using hs)]
      refine ih hordered.2 ((List.mem_cons.1 hx).resolve_left ?_)
      rintro rfl
      exact hs hinside

/-- Where a document of the plain notation is read without errors, every token but comments, semicolons
and the end of the file lies in exactly one statement. A file has fewer than 2³² bytes. -/
theorem parse_covers (file : File) (hsize : file.content.size < 2 ^ 32) (maxErrors : Nat)
    (hclean : (parse {} file (Lexer.tokenize file []).tokens maxErrors).findings.any (·.isError) = false) :
    ∀ t ∈ (Lexer.tokenize file []).tokens, t.isTrivia = false → t.kind ≠ .semicolon → t.kind ≠ .eof →
      ∃ s, (parse {} file (Lexer.tokenize file []).tokens maxErrors).program.statements.filter
        (fun s => t.span.isInside s.span) = [s] := by
  have hextra : ∀ m ∈ ([] : List Matcher), m.Fits := nofun
  have hlaid := Lexer.tokenize_laid hextra hsize
  obtain ⟨hcovered, hend⟩ := Parse.document_covers (Lexer.tokenize_named hextra hsize) hlaid
    maxErrors (parse_errors_eq_zero {} hclean)
  have hat := Parse.document_atFirstEnd (g := {}) file (Lexer.tokenize file []).tokens maxErrors
  have hnested := Parse.document_isNested (g := {}) hlaid maxErrors
  intro t ht htrivia hsemicolon hkind
  have hclosed : Stream.closed (Lexer.tokenize file []).tokens = (Lexer.tokenize file []).tokens := by
    simp [Stream.closed, Lexer.tokenize, Lexer.endToken]
  have hfits : t.Fits file := hlaid.fits t (by simpa [Stream.ofTokens, hclosed] using ht)
  generalize ((Parse.document {}).run
    { stream := .ofTokens (Lexer.tokenize file []).tokens, file, maxErrors }).2 = final at hcovered hend hat
  -- What is still ahead is the end of the file alone.
  obtain ⟨e, tail, hrest⟩ := List.exists_cons_of_ne_nil hend.toSound.rest_ne_nil
  have htokens : final.stream.past.reverse ++ e :: tail = (Lexer.tokenize file []).tokens := by
    rw [← hrest, ← hclosed]
    exact hat.tokens
  have he : e = Lexer.endToken file := by
    refine Lexer.eq_endToken hextra hsize (htokens ▸ by simp) ?_
    simpa [Stream.peekRaw, hrest, hat.half] using hat.ahead
  have hpast : t ∈ final.stream.past := by
    rw [← htokens, List.mem_append, List.mem_reverse, List.mem_cons] at ht
    rcases ht with ht | rfl | ht
    · exact ht
    · exact absurd (he ▸ rfl) hkind
    · have hordered := hend.ordered
      rw [hrest, List.pairwise_cons] at hordered
      have hle : file.content.size ≤ t.span.start := by simpa [he, Lexer.endToken] using hordered.1 t ht
      have hlt := hfits.start_lt hkind
      have hstop := hfits.stop_le
      omega
  rcases hcovered t hpast with h | h | ⟨x, hx, hinside⟩
  · exact absurd h (by simp [htrivia])
  · exact absurd h hsemicolon
  · exact Statement.filter_isInside hnested.holds.ordered (hfits.start_lt hkind) hx hinside

/-- Statements with semicolons and comments around them; a `>>` closes two lists of one. -/
theorem parse_covers_shop :
    let file : File := .ofBytes 0 [] "; class A \x7b x: B<C<D>> \x7d // a\n;;\nA -> E;".toUTF8.data 0
    file.content.size < 2 ^ 32
      ∧ (parse {} file (Lexer.tokenize file []).tokens 0).findings.any (·.isError) = false
      ∧ (parse {} file (Lexer.tokenize file []).tokens 0).program.statements.length = 3
      ∧ ∀ t ∈ (Lexer.tokenize file []).tokens, t.isTrivia = false → t.kind ≠ .semicolon → t.kind ≠ .eof →
        ∃ s, (parse {} file (Lexer.tokenize file []).tokens 0).program.statements.filter
          (fun s => t.span.isInside s.span) = [s] := by
  intro file
  have hclean : (parse {} file (Lexer.tokenize file []).tokens 0).findings.any (·.isError) = false
      ∧ (parse {} file (Lexer.tokenize file []).tokens 0).program.statements.length = 3 := by
    rw [Lexer.tokenize_eq_quick]
    decide +kernel
  exact ⟨by decide, hclean.1, hclean.2, parse_covers file (by decide) 0 hclean.1⟩

end Uml
