import Mathlib
import Uml.Proofs.Lexer.Quick
import Uml.Proofs.Parser.Complete
import Uml.Proofs.Parser.Laws

/-!
# Looking ahead and taking

A scan counts the tokens that its parser takes. For names and ends this is so everywhere; for a
multiplicity in brackets unless something between the brackets stands on a later line, where the
parser stops and the scan does not. So the operator of a link is a relationship operator, or brackets
before it are reported.
-/
namespace Uml

open Std.Do

set_option mvcgen.warning false

namespace Stream

def significant (s : Stream) : Nat := s.past.countP (!·.isTrivia)

/-- Taking the next `n` significant tokens leads from one stream to another. -/
inductive Consumes : Stream → Nat → Stream → Prop
  | none (s : Stream) : Consumes s 0 s
  | next {s s' : Stream} {n : Nat} (h : s.peek.kind ≠ .eof) (hrest : Consumes s.next.2 n s') :
    Consumes s (n + 1) s'

theorem consumes_one {s : Stream} (h : s.peek.kind ≠ .eof) : s.Consumes 1 s.next.2 :=
  .next h (.none _)

theorem significant_next {s : Stream} (hs : s.Sound) (h : s.peek.kind ≠ .eof) :
    s.next.2.significant = s.significant + 1 := by
  have hraw : s.atNext.peekRaw.kind ≠ .eof := by rwa [← peek_eq]
  obtain ⟨comments, -, hpast, htrivia⟩ := s.atNext_spec
  obtain ⟨t, tail, hrest, -, hnext⟩ := nextRaw_token hs.atNext hraw
  have ht : t.isTrivia = false := by
    cases hhalf : s.atNext.half with
    | true =>
      obtain ⟨t', tail', hrest', hkind⟩ := hs.atNext.half hhalf
      cases hrest.symm.trans hrest'
      simp [Token.isTrivia, hkind, Kind.isTrivia]
    | false =>
      have hpeek : s.peek = t := by rw [peek_eq, peekRaw, hrest, hhalf]; rfl
      exact hpeek ▸ hs.peek_not_trivia
  have hcomments : comments.reverse.countP (!·.isTrivia) = 0 := by
    rw [List.countP_eq_zero]
    intro u hu
    simp [htrivia u (List.mem_reverse.1 hu)]
  rw [significant, next_eq, hnext]
  simp only [List.countP_cons, hpast, List.countP_append, hcomments, ht, significant]
  simp

theorem Consumes.significant {s s' : Stream} {n : Nat} (h : s.Consumes n s') (hs : s.Sound) :
    s'.significant = s.significant + n := by
  induction h with
  | none => rfl
  | next hpeek hrest ih =>
    rw [ih ((reaches_next _).sound hs).1, significant_next hs hpeek]
    omega

/-! ## Scans behind the next token -/

theorem wordAt_next {s : Stream} (hs : s.Sound) (hpeek : s.peek.kind ≠ .eof) (n : Nat) :
    s.next.2.wordAt n = s.wordAt (n + 1) :=
  congrArg Token.isWord (peekAt_next hs hpeek n)

theorem scanSegments_next {s : Stream} (hs : s.Sound) (hpeek : s.peek.kind ≠ .eof) (fuel n : Nat) :
    s.scanSegments fuel (n + 1) = s.next.2.scanSegments fuel n + 1 := by
  induction fuel generalizing n with
  | zero => rfl
  | succ fuel ih =>
    unfold scanSegments
    rw [kindAt_next hs hpeek, wordAt_next hs hpeek, ih (n + 2)]
    split <;> rfl

theorem scanSegments_length {s : Stream} (hs : s.Sound) {fuel : Nat} (h : s.rest.length ≤ fuel) (n : Nat) :
    s.scanSegments s.rest.length n = s.scanSegments fuel n := by
  obtain ⟨k, rfl⟩ := Nat.exists_eq_add_of_le h
  exact (hs.scansEnd.segments k n).symm

theorem scanPath_next {s : Stream} (hs : s.Sound) (hpeek : s.peek.kind ≠ .eof) (n : Nat) :
    s.scanPath (n + 1) = s.next.2.scanPath n + 1 := by
  have hlength : s.next.2.rest.length ≤ s.rest.length := by
    have := (reaches_next s).length_rest
    have := index_lt_next hs hpeek
    omega
  unfold scanPath
  rw [kindAt_next hs hpeek, scanSegments_length ((reaches_next s).sound hs).1 hlength,
    scanSegments_next hs hpeek]
  split <;> rfl

theorem scanPath_ident {s : Stream} (hs : s.Sound) (h : s.peek.kind = .ident) :
    s.scanPath 0 = s.next.2.scanSegments s.next.2.rest.length 0 + 1 := by
  have hpeek : s.peek.kind ≠ .eof := by simp [h]
  have hlength : s.next.2.rest.length ≤ s.rest.length := by
    have := (reaches_next s).length_rest
    have := index_lt_next hs hpeek
    omega
  rw [scanSegments_length ((reaches_next s).sound hs).1 hlength, ← scanSegments_next hs hpeek]
  exact if_pos h

theorem scanPath_of_ne {s : Stream} (h : s.peek.kind ≠ .ident) : s.scanPath 0 = 0 := if_neg h

theorem scanEndpoint_starred {s : Stream} (hs : s.Sound) (h : (s.isAt .star && s.kindAt 1 = .ident) = true) :
    s.scanEndpoint 0 = s.next.2.scanPath 0 + 1 ∧ 0 < s.next.2.scanPath 0 := by
  obtain ⟨hstar, hident⟩ := Bool.and_eq_true_iff.1 h
  have hpeek : s.peek.kind ≠ .eof := by simp [of_decide_eq_true hstar]
  have hnext : s.next.2.peek.kind = .ident := by
    rw [peek, peekAt_next hs hpeek]
    exact of_decide_eq_true hident
  constructor
  · rw [← scanPath_next hs hpeek]
    exact if_pos h
  · rw [scanPath_ident ((reaches_next s).sound hs).1 hnext]
    exact Nat.succ_pos _

theorem scanEndpoint_plain {s : Stream} (h : ¬(s.isAt .star && s.kindAt 1 = .ident) = true) :
    s.scanEndpoint 0 = s.scanPath 0 := if_neg h

theorem scanBracket_pos {s : Stream} {k i m : Nat} (h : s.scanBracket k i = some m) : i < m := by
  fun_induction scanBracket s k i with
  | case1 => cases h
  | case2 k i hkind => exact Option.some.inj h ▸ Nat.lt_succ_self i
  | case3 | case4 | case5 | case6 => cases h
  | case7 k i _ _ _ _ _ ih => exact (Nat.lt_succ_self i).trans (ih h)

/-- The bracket that a scan finds is ahead, or something else is that may stand between brackets. -/
theorem scanBracket_cases {s : Stream} (hs : s.Sound) {k n : Nat} (h : s.scanBracket k 0 = some (n + 1)) :
    s.peek.kind = .rbracket ∧ n = 0
      ∨ (s.peek.kind ≠ .eof ∧ s.peek.kind ≠ .lbrace ∧ s.peek.kind ≠ .rbrace ∧ s.peek.kind ≠ .lbracket)
        ∧ s.peek.kind ≠ .rbracket ∧ ∃ k' n', n = n' + 1 ∧ s.next.2.scanBracket k' 0 = some (n' + 1) := by
  cases k with
  | zero => cases h
  | succ k =>
    unfold scanBracket at h
    split at h
    · rename_i hkind
      exact .inl ⟨hkind, by simpa using h.symm⟩
    · cases h
    · cases h
    · cases h
    · cases h
    · rename_i hrbracket heof hlbrace hrbrace hlbracket
      rw [scanBracket_next hs heof, Option.map_eq_some_iff] at h
      obtain ⟨m, hm, heq⟩ := h
      obtain rfl : m = n := Nat.succ.inj heq
      obtain ⟨n', rfl⟩ := Nat.exists_eq_add_of_lt (scanBracket_pos hm)
      exact .inr ⟨⟨heof, hlbrace, hrbrace, hlbracket⟩, hrbracket, k, n', by omega, by simpa using hm⟩

theorem Consumes.sound {s s' : Stream} {n : Nat} (h : s.Consumes n s') (hs : s.Sound) : s'.Sound := by
  induction h with
  | none => exact hs
  | next hpeek hrest ih => exact ih ((reaches_next _).sound hs).1

theorem Consumes.peekAt {s s' : Stream} {n : Nat} (h : s.Consumes n s') (hs : s.Sound) (i : Nat) :
    s'.peekAt i = s.peekAt (i + n) := by
  induction h with
  | none => rfl
  | next hpeek hrest ih => exact (ih ((reaches_next _).sound hs).1).trans (peekAt_next hs hpeek _)

/-- The first `n` tokens ahead stand on `line` or before it. -/
def StaysOn (s : Stream) (line n : Nat) : Prop := ∀ i < n, (s.peekAt i).position.line ≤ line

theorem staysOn_succ {s : Stream} (hs : s.Sound) (hpeek : s.peek.kind ≠ .eof) {line n : Nat} :
    s.StaysOn line (n + 1) ↔ s.peek.position.line ≤ line ∧ s.next.2.StaysOn line n := by
  unfold StaysOn
  rw [Nat.forall_lt_succ_left]
  simp only [peekAt_next hs hpeek]
  rfl

end Stream

/-- An opening bracket is reported, and `m` begins with it. -/
def Reports.Unclosed (r : Reports) (m : RawMult) : Prop :=
  0 < r.errors ∧ (r.maxErrors = 0 → ∃ d ∈ r.findings, d.code = .unclosedBracket
    ∧ ∃ last, m.span = d.span.cover last)

namespace Reports

theorem mem_findings_add {r : Reports} {d e : Diagnostic} (h : e ∈ r.findings) :
    e ∈ (r.add d).findings := by
  unfold add
  split
  · split
    · exact h
    · exact Array.mem_push_of_mem _ h
  · exact Array.mem_push_of_mem _ h

theorem Grows.mem_findings {r r' : Reports} (h : r.Grows r') {e : Diagnostic} (he : e ∈ r.findings) :
    e ∈ r'.findings := by
  obtain ⟨ds, rfl⟩ := h
  induction ds generalizing r with
  | nil => exact he
  | cons d ds ih => exact ih (mem_findings_add he)

theorem Grows.errors_le {r r' : Reports} (h : r.Grows r') : r.errors ≤ r'.errors := by
  obtain ⟨ds, rfl⟩ := h
  exact r.errors_le_addAll ds

theorem Unclosed.later {r r' : Reports} {m : RawMult} (h : r.Unclosed m) (hr : r.Grows r') :
    r'.Unclosed m := by
  refine ⟨h.1.trans_le hr.errors_le, fun hmax => ?_⟩
  obtain ⟨d, hd, hcode, hspan⟩ := h.2 (hr.maxErrors ▸ hmax)
  exact ⟨d, hr.mem_findings hd, hcode, hspan⟩

end Reports

namespace Parse

/-! ## Names and ends -/

theorem pathRound_takes (v : Bytes × Span) (s : ParseState) :
    ⦃fun st => ⌜st = s⌝⦄ pathRound v
    ⦃⇓ r st => ⌜Leaves
      (fun _ st => (s.stream.isAt .dot && s.stream.wordAt 1) = true
        ∧ st.stream = s.stream.next.2.next.2)
      (fun _ st => ¬(s.stream.isAt .dot && s.stream.wordAt 1) = true ∧ st.stream = s.stream) r st⌝⦄ := by
  unfold pathRound
  refine triple_intro fun Q hQ => ?_
  mvcgen <;> grind -linarith [Leaves, Stream.isAt, Stream.wordAt]

/-- A loop over segments takes what the scan counts. -/
theorem pathLoop_consumes {v : Bytes × Span} {st : ParseState} {r : (Bytes × Span) × ParseState}
    (h : Ends pathRound v st r) (hs : st.stream.Sound) {fuel : Nat}
    (hfuel : st.stream.rest.length ≤ fuel) :
    st.stream.Consumes (st.stream.scanSegments fuel 0) r.2.stream := by
  induction h generalizing fuel with
  | @stop v v' st st' hrun =>
    have hround := triple_iff_run.1 (pathRound_takes v st)
    simp only [hrun, Leaves] at hround
    obtain ⟨hstop, hstream⟩ := hround
    have hscan : st.stream.scanSegments fuel 0 = 0 := by
      cases fuel with
      | zero => rfl
      | succ fuel =>
        unfold Stream.scanSegments
        exact if_neg hstop
    rw [hscan, hstream]
    exact .none _
  | @again v v₁ st st₁ last hrun hbefore _ ih =>
    have hround := triple_iff_run.1 (pathRound_takes v st)
    simp only [hrun, Leaves] at hround
    obtain ⟨hgo, hstream⟩ := hround
    obtain ⟨hdot, hword⟩ := Bool.and_eq_true_iff.1 hgo
    have hpeek : st.stream.peek.kind ≠ .eof := by simp [of_decide_eq_true hdot]
    have hnext : st.stream.next.2.Sound := ((Stream.reaches_next _).sound hs).1
    have hpeek' : st.stream.next.2.peek.kind ≠ .eof := by
      rw [Stream.peek, Stream.peekAt_next hs hpeek]
      exact Token.kind_ne_eof_of_isWord hword
    have hreach : st.stream.Reaches st₁.stream :=
      hstream ▸ (Stream.reaches_next _).trans (Stream.reaches_next _)
    have hlength := hreach.length_rest
    have hindex := Stream.index_lt_next hs hpeek
    have hindex' := Stream.index_lt_next hnext hpeek'
    rw [← hstream] at hindex'
    cases fuel with
    | zero => exact absurd (List.length_pos_of_ne_nil hs.rest_ne_nil) (by omega)
    | succ fuel =>
      have hscan : st.stream.scanSegments (fuel + 1) 0 = st₁.stream.scanSegments fuel 0 + 1 + 1 := by
        refine (if_pos hgo).trans ?_
        rw [Stream.scanSegments_next hs hpeek, Stream.scanSegments_next hnext hpeek', hstream]
      rw [hscan]
      exact .next hpeek (.next hpeek' (hstream ▸ ih (hreach.sound hs).1 (by omega)))

@[local spec high] theorem path?_consumes (s : ParseState) :
    ⦃fun st => ⌜st = s⌝⦄ path?
    ⦃⇓ found st => ⌜s.stream.Sound → s.stream.Consumes (s.stream.scanPath 0) st.stream
      ∧ (found.isSome = true ↔ 0 < s.stream.scanPath 0)⌝⦄ := by
  have hloop : ∀ v s, ⦃fun st => ⌜st = s⌝⦄ loop v pathRound
      ⦃⇓ _ st => ⌜s.stream.Sound →
        s.stream.Consumes (s.stream.scanSegments s.stream.rest.length 0) st.stream⌝⦄ :=
    fun v s => triple_iff_run.2 fun hs =>
      pathLoop_consumes ((terminates_of_goes pathRound_spec).ends v s hs) hs le_rfl
  unfold path?
  refine triple_intro fun Q hQ => ?_
  mvcgen [hloop]
  case vc1 st hst hkind =>
    subst hst
    refine hQ _ _ fun hs => ?_
    rw [Stream.scanPath_of_ne hkind]
    exact ⟨.none _, by simp⟩
  case vc2 st hst hkind first st₁ h₁ name st₂ =>
    subst hst
    refine fun h₂ => hQ _ _ fun hs => ?_
    have hident : st.stream.peek.kind = .ident := not_not.1 hkind
    have hrest := h₂ (h₁.2.2.1.sound hs).1
    rw [h₁.2.1] at hrest
    rw [Stream.scanPath_ident hs hident]
    exact ⟨.next (by simp [hident]) hrest, by simp⟩

@[local spec high] theorem endpoint?_consumes (s : ParseState) :
    ⦃fun st => ⌜st = s⌝⦄ endpoint?
    ⦃⇓ found st => ⌜s.stream.Sound → s.stream.Consumes (s.stream.scanEndpoint 0) st.stream
      ∧ (found.isSome = true ↔ 0 < s.stream.scanEndpoint 0)⌝⦄ := by
  unfold endpoint?
  refine triple_intro fun Q hQ => ?_
  mvcgen
  case vc1 st hst start starred _ hstar _ st₁ h₁ found hfound st₂ h₂ =>
    subst hst
    refine hQ _ _ fun hs => ?_
    have hpath := h₂ (h₁.2.2.1.sound hs).1
    obtain ⟨hscan, hpos⟩ := Stream.scanEndpoint_starred hs hstar
    rw [h₁.2.1] at hpath
    exact absurd (hpath.2.2 hpos) (by simp)
  case vc2 st hst start starred _ hstar _ st₁ h₁ found name span hfound _ st₂ h₂ =>
    subst hst
    refine hQ _ _ fun hs => ?_
    have hpath := h₂ (h₁.2.2.1.sound hs).1
    obtain ⟨hscan, hpos⟩ := Stream.scanEndpoint_starred hs hstar
    have hpeek : st.stream.peek.kind ≠ .eof := by
      simp [of_decide_eq_true (Bool.and_eq_true_iff.1 hstar).1]
    rw [h₁.2.1] at hpath
    rw [hscan]
    exact ⟨.next hpeek hpath.1, by simp⟩
  case vc4 st hst start starred _ hstar found hfound st₁ h₁ =>
    subst hst
    refine hQ _ _ fun hs => ?_
    rw [Stream.scanEndpoint_plain hstar]
    exact h₁ hs
  case vc6 st hst start starred _ hstar found name span hfound _ st₁ h₁ =>
    subst hst
    refine hQ _ _ fun hs => ?_
    rw [Stream.scanEndpoint_plain hstar]
    exact h₁ hs

/-! ## Multiplicities -/

theorem report_error (d : Diagnostic) (hd : d.severity = .error) (s : ParseState) :
    ⦃fun st => ⌜st = s⌝⦄ report d
    ⦃⇓ _ st => ⌜st.stream = s.stream ∧ 0 < st.reports.errors
      ∧ (st.reports.maxErrors = 0 → d ∈ st.reports.findings)⌝⦄ := by
  rw [triple_iff_run, report, StateT.run_modify]
  dsimp only
  rw [if_pos hd]
  split
  · rename_i hmax
    refine ⟨rfl, Nat.succ_pos _, fun hzero => ?_⟩
    have hzero' : s.maxErrors = 0 := hzero
    simp [hzero'] at hmax
  · exact ⟨rfl, Nat.succ_pos _, fun _ => Array.mem_push_self⟩

theorem unclosedMult_reports (opener : Token) (s : ParseState) :
    ⦃fun st => ⌜st = s⌝⦄ unclosedMult opener
    ⦃⇓ m st => ⌜st.stream = s.stream ∧ st.reports.Unclosed m⌝⦄ := by
  have hreport := report_error (.error .unclosedBracket opener.span "unclosed '[' in multiplicity") rfl
  unfold unclosedMult
  refine triple_intro fun Q hQ => ?_
  mvcgen [error, innerText, hreport, -report_spec]
  case vc1 st hst _ st₁ h₁ =>
    exact hQ _ _ (h₁.1.trans (congrArg _ hst)) ⟨h₁.2.1, fun hmax => ⟨_, h₁.2.2 hmax, rfl, _, rfl⟩⟩

/-- A token between the brackets is passed on the line where they open; the closing bracket is passed
wherever it stands. -/
theorem bracketRound_takes (opener : Token) (m : RawMult) (s : ParseState) :
    ⦃fun st => ⌜st = s⌝⦄ bracketRound opener m
    ⦃⇓ r st => ⌜s.stream.peek.kind ≠ .eof ∧ s.stream.peek.kind ≠ .lbrace
        ∧ s.stream.peek.kind ≠ .rbrace ∧ s.stream.peek.kind ≠ .lbracket → Leaves
      (fun _ st => s.stream.peek.kind ≠ .rbracket ∧ s.stream.peek.position.line ≤ opener.position.line
        ∧ st.stream = s.stream.next.2)
      (fun v st => s.stream.peek.kind = .rbracket ∧ st.stream = s.stream.next.2
        ∨ s.stream.peek.kind ≠ .rbracket ∧ opener.position.line < s.stream.peek.position.line
          ∧ st.stream = s.stream ∧ st.reports.Unclosed v) r st⌝⦄ := by
  have hunclosed := unclosedMult_reports opener
  unfold bracketRound
  refine triple_intro fun Q hQ => ?_
  mvcgen [innerText, hunclosed] <;> grind -linarith [Leaves]

/-- A loop over brackets that a scan has seen closing behind `n` tokens takes these and the closing
one, unless one of the `n` stands on a later line; then it takes fewer and reports the brackets. -/
theorem bracketLoop_consumes {opener : Token} {v : RawMult} {st : ParseState} {r : RawMult × ParseState}
    (h : Ends (bracketRound opener) v st r) (hs : st.stream.Sound) {k n : Nat}
    (hscan : st.stream.scanBracket k 0 = some (n + 1)) :
    ∃ c, st.stream.Consumes c r.2.stream ∧ (c = n + 1 ↔ st.stream.StaysOn opener.position.line n)
      ∧ (c ≠ n + 1 → c ≤ n ∧ r.2.reports.Unclosed r.1) := by
  induction h generalizing k n with
  | @stop v v' st st' hrun =>
    have hround := triple_iff_run.1 (bracketRound_takes opener v st)
    rw [hrun] at hround
    rcases Stream.scanBracket_cases hs hscan with ⟨hkind, rfl⟩ | ⟨hkinds, hkind, k', n', rfl, hscan'⟩
    · rcases hround (by simp [hkind]) with ⟨-, hstream⟩ | ⟨hne, -⟩
      · refine ⟨1, ?_, by simp [Stream.StaysOn], by simp⟩
        rw [hstream]
        exact Stream.consumes_one (by simp [hkind])
      · exact absurd hkind hne
    · rcases hround hkinds with ⟨heq, -⟩ | ⟨-, hline, hstream, hunclosed⟩
      · exact absurd heq hkind
      · refine ⟨0, ?_, ?_, fun _ => ⟨Nat.zero_le _, hunclosed⟩⟩
        · rw [hstream]
          exact .none _
        · rw [Stream.staysOn_succ hs hkinds.1]
          omega
  | @again v v₁ st st₁ last hrun hbefore _ ih =>
    have hround := triple_iff_run.1 (bracketRound_takes opener v st)
    rw [hrun] at hround
    rcases Stream.scanBracket_cases hs hscan with ⟨hkind, rfl⟩ | ⟨hkinds, hkind, k', n', rfl, hscan'⟩
    · exact absurd hkind (hround (by simp [hkind])).1
    · obtain ⟨-, hline, hstream⟩ := hround hkinds
      have hnext : st₁.stream.Sound := hstream ▸ ((Stream.reaches_next _).sound hs).1
      obtain ⟨c, hc, hiff, hfew⟩ := ih hnext (hstream ▸ hscan')
      refine ⟨c + 1, .next hkinds.1 (hstream ▸ hc), ?_, fun hne => ?_⟩
      · rw [Stream.staysOn_succ hs hkinds.1, ← hstream, ← hiff]
        simp [hline]
      · obtain ⟨hle, hunclosed⟩ := hfew (by omega)
        exact ⟨by omega, hunclosed⟩

end Parse

namespace Stream

/-- Between the brackets of the multiplicity ahead, nothing stands on a later line than the opening
bracket; `n` is the number of its tokens. -/
def IsOnOneLine (s : Stream) (n : Nat) : Prop :=
  ∀ i, 0 < i → i + 1 < n → (s.peekAt i).position.line ≤ s.peek.position.line

theorem isOnOneLine_bracket {s : Stream} (hs : s.Sound) (hpeek : s.peek.kind ≠ .eof) {n : Nat} :
    s.IsOnOneLine (n + 2) ↔ s.next.2.StaysOn s.peek.position.line n := by
  unfold IsOnOneLine StaysOn
  simp only [peekAt_next hs hpeek]
  constructor
  · intro h i hi
    exact h (i + 1) (Nat.succ_pos i) (by omega)
  · intro h i hpos hi
    obtain ⟨i, rfl⟩ := Nat.exists_eq_add_of_lt hpos
    simpa using h i (by omega)

theorem scanMult_bracket {s : Stream} (hs : s.Sound) (h : s.peek.kind = .lbracket)
    (hpos : 0 < s.scanMult 0) :
    ∃ n, s.next.2.scanBracket maxBracket 0 = some (n + 1) ∧ s.scanMult 0 = n + 2 := by
  have hzero : s.kindAt 0 = .lbracket := h
  simp only [scanMult, hzero] at hpos ⊢
  cases hscan : s.scanBracket maxBracket (0 + 1) with
  | none => simp [hscan] at hpos
  | some m =>
    rw [scanBracket_next hs (by simp [h]), Option.map_eq_some_iff] at hscan
    obtain ⟨n, hn, rfl⟩ := hscan
    obtain ⟨n', rfl⟩ := Nat.exists_eq_add_of_lt (scanBracket_pos hn)
    exact ⟨n', by simpa using hn, by simp⟩

theorem scanMult_string {s : Stream} (h : s.peek.kind = .string) : s.scanMult 0 = 1 := by
  have hzero : s.kindAt 0 = .string := h
  simp only [scanMult, hzero]

theorem scanMult_none {s : Stream} (hstring : s.peek.kind ≠ .string) (hbracket : s.peek.kind ≠ .lbracket) :
    s.scanMult 0 = 0 := by
  unfold scanMult
  split
  · exact absurd ‹_› hstring
  · exact absurd ‹_› hbracket
  · rfl

end Stream

namespace Parse

/-- A multiplicity that a scan has seen is taken as counted if its brackets are on one line; else
fewer tokens are taken, and the brackets are reported. -/
def TakesMult (s : ParseState) (m : RawMult) (st : ParseState) : Prop :=
  ∃ c, s.stream.Consumes c st.stream
    ∧ (c = s.stream.scanMult 0 ↔ s.stream.IsOnOneLine (s.stream.scanMult 0))
    ∧ (c ≠ s.stream.scanMult 0 → c < s.stream.scanMult 0 ∧ st.reports.Unclosed m)

theorem bracketed_consumes (s : ParseState) :
    ⦃fun st => ⌜st = s⌝⦄ bracketed
    ⦃⇓ m st => ⌜s.stream.Sound → s.stream.peek.kind = .lbracket → 0 < s.stream.scanMult 0 →
      TakesMult s m st⌝⦄ := by
  have hloop : ∀ opener s, ⦃fun st => ⌜st = s⌝⦄ loop {} (bracketRound opener)
      ⦃⇓ m st => ⌜Ends (bracketRound opener) {} s (m, st) ∨ ¬s.stream.Sound⌝⦄ := fun opener s =>
    triple_iff_run.2 <| (em s.stream.Sound).imp_left fun hs =>
      (terminates_of_goes (bracketRound_spec opener)).ends {} s hs
  unfold bracketed
  refine triple_intro fun Q hQ => ?_
  mvcgen [hloop]
  case vc1 st hst opener st₁ h₁ m st₂ =>
    subst hst
    intro h₂
    refine hQ _ _ fun hs hkind hpos => ?_
    obtain ⟨hopener, hnext, hreach, -⟩ := h₁
    have hs₁ := (hreach.sound hs).1
    have hpeek : st.stream.peek.kind ≠ .eof := by simp [hkind]
    have hends := h₂.resolve_right (not_not_intro hs₁)
    obtain ⟨n, hscan, hmult⟩ := Stream.scanMult_bracket hs hkind hpos
    rw [← hnext] at hscan
    obtain ⟨c, hc, hiff, hfew⟩ := bracketLoop_consumes hends hs₁ hscan
    refine ⟨c + 1, .next hpeek (hnext ▸ hc), ?_, fun hne => ?_⟩
    · rw [hmult, Nat.succ_inj, hiff, hopener, hnext, Stream.isOnOneLine_bracket hs hpeek]
    · obtain ⟨hle, hunclosed⟩ := hfew (by omega)
      exact ⟨by omega, hunclosed⟩

theorem mult_consumes (s : ParseState) :
    ⦃fun st => ⌜st = s⌝⦄ mult
    ⦃⇓ m st => ⌜s.stream.Sound → 0 < s.stream.scanMult 0 → TakesMult s m st⌝⦄ := by
  have hbracketed := bracketed_consumes
  unfold mult
  refine triple_intro fun Q hQ => ?_
  mvcgen [hbracketed, -bracketed_spec]
  case vc1 st hst hstring _ st₁ h₁ =>
    subst hst
    refine hQ _ _ fun hs hpos => ⟨1, ?_, ?_, ?_⟩
    · rw [h₁.2.1]
      exact Stream.consumes_one (by simp [hstring])
    all_goals rw [Stream.scanMult_string hstring]
    · simp only [true_iff]
      intro i hpos hi
      omega
    · simp
  case vc2 st hst hbracket m st₁ =>
    subst hst
    exact fun h₁ => hQ _ _ fun hs hpos => h₁ hs hbracket hpos
  case vc3 st hst k hstring hbracket hkind =>
    subst hst
    refine hQ _ _ fun hs hpos => ?_
    rw [Stream.scanMult_none (fun h => hstring (hkind ▸ h)) (fun h => hbracket (hkind ▸ h))] at hpos
    exact absurd hpos (Nat.lt_irrefl 0)

/-! ## Operators -/

open ParseState

/-- Before an operator, or a multiplicity that a scan has seen an operator behind, what is read as a
multiplicity leads to the operator, unless its brackets are reported. -/
theorem mult_leads (s : ParseState) :
    ⦃fun st => ⌜st = s⌝⦄ mult
    ⦃⇓ m st => ⌜s.Onward st ∧ (s.stream.Sound →
      s.stream.peek.isRelationship = true ∨ s.stream.multThenOperator = true →
      st.stream.peek.isRelationship = true ∨ st.reports.Unclosed m)⌝⦄ := by
  have honward := triple_iff_run.1 (onward_spec mult (.of_and mult_spec) s)
  obtain ⟨-, -, hstays⟩ := triple_iff_run.1 (mult_spec s)
  have htakes := triple_iff_run.1 (mult_consumes s)
  refine triple_iff_run.2 ⟨honward, fun hs hahead => ?_⟩
  rcases hahead with hrel | hthen
  · rw [hstays]
    · exact .inl hrel
    all_goals
      intro hkind
      simp [Token.isRelationship, hkind, Kind.isRelationship] at hrel
  · simp only [Stream.multThenOperator, Bool.and_eq_true, decide_eq_true_eq] at hthen
    obtain ⟨c, hc, -, hfew⟩ := htakes hs hthen.1
    by_cases heq : c = s.stream.scanMult 0
    · have hpeek := hc.peekAt hs 0
      rw [Nat.zero_add, heq] at hpeek
      exact .inl ((congrArg Token.isRelationship hpeek).trans hthen.2)
    · exact .inr (hfew heq).2

@[grind →] theorem unclosed_onward {s s' : ParseState} {m : RawMult} (h : s.reports.Unclosed m)
    (hs : s.Onward s') : s'.reports.Unclosed m :=
  h.later hs.reports

/-- The operator of the link stands for a relationship, or brackets at its start are reported. -/
def HasOperator (r : Reports) (l : Link) : Prop := l.op.isRelationship = true ∨ r.Unclosed l.fromMult

def AllHaveOperators (r : Reports) (ls : List Link) : Prop := ∀ l ∈ ls, HasOperator r l

@[grind .] theorem allHaveOperators_nil (r : Reports) : AllHaveOperators r [] := by
  simp [AllHaveOperators]

@[grind →] theorem AllHaveOperators.push {r : Reports} {ls : List Link} {l : Link}
    (h : AllHaveOperators r ls) (hl : HasOperator r l) : AllHaveOperators r (ls ++ [l]) :=
  List.forall_mem_append.2 ⟨h, by simpa using hl⟩

theorem AllHaveOperators.later {r r' : Reports} {ls : List Link} (h : AllHaveOperators r ls)
    (hr : r.Grows r') : AllHaveOperators r' ls :=
  fun l hl => (h l hl).imp_right fun hm => hm.later hr

@[grind →] theorem AllHaveOperators.onward {s s' : ParseState} {ls : List Link}
    (h : AllHaveOperators s.reports ls) (hs : s.Onward s') : AllHaveOperators s'.reports ls :=
  h.later hs.reports

attribute [local spec high] mult_leads advance_onward linkLabel_onward endpoint?_onward

theorem header_operator (s : ParseState) :
    ⦃fun st => ⌜st = s⌝⦄ header
    ⦃⇓ found st => ⌜s.Onward st ∧ (s.stream.Sound →
      s.stream.peek.isRelationship = true ∨ s.stream.multThenOperator = true →
      ∀ l, found = .ok l → HasOperator st.reports l)⌝⦄ := by
  unfold header
  refine triple_intro fun Q hQ => ?_
  mvcgen <;> grind -linarith [HasOperator, Token.isRelationship]

theorem headerRound_operators (v : Except Failure (List Link)) (s : ParseState) :
    ⦃fun st => ⌜st = s⌝⦄ headerRound v
    ⦃⇓ r st => ⌜s.Onward st ∧ (s.stream.Sound → AllHaveOperators s.reports (given id v) →
      AllHaveOperators st.reports (given id r.value))⌝⦄ := by
  have hheader := header_operator
  unfold headerRound
  refine triple_intro fun Q hQ => ?_
  mvcgen [hheader, -header_spec] <;> grind -linarith [id]

@[local spec high] theorem headers_operators (s : ParseState) :
    ⦃fun st => ⌜st = s⌝⦄ headers
    ⦃⇓ found st => ⌜s.Onward st ∧ (s.stream.Sound →
      AllHaveOperators st.reports (given id found))⌝⦄ := by
  refine loop_keeps (fun v st => s.Onward st ∧ (s.stream.Sound →
    AllHaveOperators st.reports (given id v))) (fun v st hI => ?_) ⟨.refl _, fun _ => allHaveOperators_nil _⟩
  obtain ⟨honward, hlinks⟩ := triple_iff_run.1 (headerRound_operators v st)
  exact triple_iff_run.2 ⟨hI.1.trans honward, fun hs => hlinks (hI.1.sound hs) (hI.2 hs)⟩

def AllRelate (ls : List Link) : Prop := ∀ l ∈ ls, l.op.isRelationship = true

@[grind .] theorem allRelate_nil : AllRelate [] := by simp [AllRelate]

@[grind →] theorem AllRelate.push {ls : List Link} {l : Link} (h : AllRelate ls)
    (hl : l.op.isRelationship = true) : AllRelate (ls ++ [l]) :=
  List.forall_mem_append.2 ⟨h, by simpa using hl⟩

end Parse

/-- Every operator of the declaration stands for a relationship. In the header of an entity, brackets
before the operator may be reported instead. -/
def Decl.HasOperators (r : Reports) : Decl → Prop
  | .entity e => Parse.AllHaveOperators r e.headers
  | .relationship _ links => Parse.AllRelate links
  | .association a => a.op.isRelationship = true
  | _ => True

def Decl.operatorLaw : Decl.Law where
  Holds := Decl.HasOperators
  later := by
    intro r r' d hr h
    cases d with
    | entity e => exact Parse.AllHaveOperators.later h hr
    | _ => exact h
  plain := by
    intro d hd r
    cases d with
    | entity | relationship | association => exact hd.elim
    | _ => trivial

@[grind =] theorem Decl.operatorLaw_entity {r : Reports} {e : EntityDecl} :
    operatorLaw.Holds r (.entity e) ↔ Parse.AllHaveOperators r e.headers := .rfl

@[grind =] theorem Decl.operatorLaw_relationship {r : Reports} {head : Endpoint} {links : List Link} :
    operatorLaw.Holds r (.relationship head links) ↔ Parse.AllRelate links := .rfl

@[grind =] theorem Decl.operatorLaw_association {r : Reports} {a : AssociationDecl} :
    operatorLaw.Holds r (.association a) ↔ a.op.isRelationship = true := .rfl

namespace Parse

open ParseState

variable {g : Grammar} [g.IsForward] [g.IsBlind]

@[local spec high] theorem entityBody_onward (kind : EntityKind) (name : Bytes) (s : ParseState) :
    ⦃fun st => ⌜st = s⌝⦄ entityBody g kind name ⦃⇓ _ st => ⌜s.Onward st⌝⦄ :=
  onward_spec (entityBody g kind name) (.of_and (entityBody_spec kind name)) s

attribute [local spec high] advance_onward eat?_onward mult_leads linkLabel_onward endpoint?_onward
  typeParams_onward entityModifiers_onward headers_operators newDecl_obeys report_onward expect_onward

theorem entity_operators : FormObeys Decl.operatorLaw (entity g) := by
  refine .of_spec fun s => ?_
  unfold entity
  refine triple_intro fun Q hQ => ?_
  mvcgen <;> grind -linarith [id]

theorem chainLink_operator (fromMult : RawMult) (s : ParseState) :
    ⦃fun st => ⌜st = s⌝⦄ chainLink g fromMult
    ⦃⇓ found st => ⌜s.Onward st ∧ (s.stream.peek.isRelationship = true →
      ∀ l m, found = .ok (l, m) → l.op.isRelationship = true)⌝⦄ := by
  unfold chainLink
  refine triple_intro fun Q hQ => ?_
  mvcgen <;> grind -linarith [Token.isRelationship]

theorem chainRound_operators (v : Except Failure (List Link × RawMult)) (s : ParseState) :
    ⦃fun st => ⌜st = s⌝⦄ chainRound g v
    ⦃⇓ r st => ⌜s.Onward st ∧ (AllRelate (given Prod.fst v) → AllRelate (given Prod.fst r.value))⌝⦄ := by
  have hlink := chainLink_operator (g := g)
  unfold chainRound
  refine triple_intro fun Q hQ => ?_
  mvcgen [hlink, -chainLink_spec] <;> grind -linarith

@[local spec high] theorem chain_operators (fromMult : RawMult) (s : ParseState) :
    ⦃fun st => ⌜st = s⌝⦄ chain g fromMult
    ⦃⇓ found st => ⌜s.Onward st ∧ AllRelate (given id found)⌝⦄ := by
  have hloop : ⦃fun st => ⌜st = s⌝⦄ loop (.ok ([], fromMult)) (chainRound g)
      ⦃⇓ v st => ⌜s.Onward st ∧ AllRelate (given Prod.fst v)⌝⦄ := by
    refine loop_keeps (fun v st => s.Onward st ∧ AllRelate (given Prod.fst v)) (fun v st hI => ?_)
      ⟨.refl _, allRelate_nil⟩
    obtain ⟨honward, hlinks⟩ := triple_iff_run.1 (chainRound_operators (g := g) v st)
    exact triple_iff_run.2 ⟨hI.1.trans honward, hlinks hI.2⟩
  unfold chain
  refine triple_intro fun Q hQ => ?_
  mvcgen [hloop]
  rename_i found _ _
  cases found <;> grind -linarith [Except.map]

theorem relationship_operators : FormObeys Decl.operatorLaw (relationship g) := by
  refine .of_spec fun s => ?_
  unfold relationship
  refine triple_intro fun Q hQ => ?_
  mvcgen <;> grind -linarith [id]

theorem association_operators : FormObeys Decl.operatorLaw (association g) := by
  refine .of_spec fun s => ?_
  unfold association
  refine triple_intro fun Q hQ => ?_
  mvcgen <;> grind -linarith [Token.isRelationship]

theorem lawful_operators : Lawful Decl.operatorLaw g :=
  ⟨entity_operators, relationship_operators, association_operators⟩

end Parse

/-- Wherever the parser of a source text stands, a name and an end have as many tokens as the scan
counts, and so has a multiplicity that the scan has seen exactly if its brackets are on one line. Every
operator that is read stands for a relationship; only in a header, where a scan decides, brackets before
the operator may be reported instead. -/
theorem Catalog.parse_operators {name : Bytes} {r : Registry} (h : registry name = .ok r) (file : File)
    (maxErrors : Nat) :
    let ts := (Lexer.tokenize file r.matchers).tokens
    let parsed := parse r.grammar file ts maxErrors
    (∀ st : ParseState, (Stream.ofTokens ts).Reaches st.stream →
      (Parse.path?.run st).2.stream.significant = st.stream.significant + st.stream.scanPath 0
      ∧ (Parse.endpoint?.run st).2.stream.significant = st.stream.significant + st.stream.scanEndpoint 0
      ∧ (0 < st.stream.scanMult 0 →
        ((Parse.mult.run st).2.stream.significant = st.stream.significant + st.stream.scanMult 0
          ↔ st.stream.IsOnOneLine (st.stream.scanMult 0))))
    ∧ ∀ tag d, .decl tag d ∈ Statement.flattenAll parsed.program.statements →
      d.HasOperators (parsed.reports maxErrors) := by
  intro ts parsed
  refine ⟨fun st hreach => ?_, ?_⟩
  · have hs : st.stream.Sound := (hreach.sound (Stream.closed_sound ts)).1
    obtain ⟨hpath, -⟩ := triple_iff_run.1 (Parse.path?_consumes st) hs
    obtain ⟨hend, -⟩ := triple_iff_run.1 (Parse.endpoint?_consumes st) hs
    refine ⟨hpath.significant hs, hend.significant hs, fun hpos => ?_⟩
    obtain ⟨c, hc, hiff, -⟩ := triple_iff_run.1 (Parse.mult_consumes st) hs hpos
    rw [hc.significant hs, ← hiff]
    omega
  · have hall : Decl.operatorLaw.All (parsed.reports maxErrors) parsed.program.statements := by
      rcases grammar_of_registry h with hg | hg | hg <;> simp only [parsed, hg]
      · exact all_of_parse {} Parse.lawful_operators file ts maxErrors
      · exact all_of_parse TypeScript.grammar Parse.lawful_operators file ts maxErrors
      · exact all_of_parse Java.grammar Parse.lawful_operators file ts maxErrors
    exact hall

/-- A multiplicity before the operator of a header. -/
theorem Catalog.parse_operators_header :
    let file := File.ofBytes 1 [] (Bytes.ofString "class A [0..1] >> p.B").toArray 0
    let ts := (Lexer.tokenize file []).tokens
    let st : ParseState := { stream := (Stream.ofTokens ts).next.2.next.2, file }
    registry "" = .ok {} ∧ (Stream.ofTokens ts).Reaches st.stream ∧ st.stream.scanMult 0 = 5
      ∧ st.stream.IsOnOneLine 5
      ∧ ∀ tag d, .decl tag d ∈ Statement.flattenAll (parse {} file ts 0).program.statements →
        d.HasOperators ((parse {} file ts 0).reports 0) := by
  have hplain : registry "" = .ok {} := rfl
  have htwo (s : Stream) (file : File) : s.Reaches ({ stream := s.next.2.next.2, file } : ParseState).stream :=
    (Stream.reaches_next s).trans (Stream.reaches_next s.next.2)
  have hmatchers : ({} : Registry).matchers = [] := rfl
  have hgrammar : ({} : Registry).grammar = {} := rfl
  have hoperators := fun file => Catalog.parse_operators hplain file 0
  rw [hmatchers, hgrammar] at hoperators
  have hline {file : File} {st : ParseState}
      (hreach : (Stream.ofTokens (Lexer.tokenize file []).tokens).Reaches st.stream)
      (hscan : st.stream.scanMult 0 = 5)
      (htaken : (Parse.mult.run st).2.stream.significant = st.stream.significant + st.stream.scanMult 0) :
      st.stream.IsOnOneLine 5 := by
    have hscans := ((hoperators file).1 st hreach).2.2 (by omega)
    rw [hscan] at hscans
    exact hscans.1 (hscan ▸ htaken)
  intro file
  refine ⟨hplain, htwo _ _, ?scan, hline (htwo _ _) ?scan ?taken, (hoperators file).2⟩
  case scan =>
    simp only [Lexer.tokenize_eq_quick]
    decide +kernel
  case taken =>
    simp only [Lexer.tokenize_eq_quick]
    decide +kernel

/-- The scan finds a closing bracket on a later line, where the parser has stopped. What stands there
is taken for the operator. -/
theorem Catalog.parse_operators_laterLine :
    let file := File.ofBytes 1 [] (Bytes.ofString "class A [0\n1 B] >> C").toArray 0
    let ts := (Lexer.tokenize file []).tokens
    let st : ParseState := { stream := (Stream.ofTokens ts).next.2.next.2, file }
    st.stream.scanMult 0 = 5 ∧ (Parse.mult.run st).2.stream.significant = st.stream.significant + 2
      ∧ ((parse {} file ts 0).program.statements.flatMap fun
        | .decl _ (.entity e) => e.headers.map (·.op)
        | _ => []) = [.number] ∧ Kind.number.isRelationship = false := by
  simp only [Lexer.tokenize_eq_quick]
  decide +kernel

end Uml
