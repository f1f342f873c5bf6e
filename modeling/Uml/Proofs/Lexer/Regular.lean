import Mathlib
import Uml.Proofs.Lexer.Spelling

/-!
# Regular tokens

The texts that the tokens of each category have when there is nothing to report about them. A token
that is found without a finding is regular, and what is regular is found again wherever its line ends
behind it: no category tells its tokens by more of what follows than that it does not prolong them.
-/
namespace Uml

open Scan Matcher

namespace Bytes

/-- A comment between `/*` and `*/`, without the opening: the first closing is the last. -/
inductive ClosesComment : Bytes → Prop
  | close : ClosesComment [0x2A, 0x2F]
  | byte {b : UInt8} {s : Bytes} (hb : ¬[0x2A, 0x2F] <+: b :: s) (h : ClosesComment s) :
    ClosesComment (b :: s)

theorem ClosesComment.two_le {s : Bytes} (h : ClosesComment s) : 2 ≤ s.length := by
  induction h with
  | close => simp
  | byte _ _ ih => rw [List.length_cons]; omega

end Bytes

def Kind.ofBlock : Bytes → Kind
  | 0x2A :: b :: _ => if b = 0x2F then .comment else .docComment
  | _ => .comment

theorem Kind.ofBlock_append {s : Bytes} (h : 2 ≤ s.length) (t : Bytes) :
    ofBlock (s ++ t) = ofBlock s := by
  obtain ⟨a, b, s, rfl⟩ : ∃ a b u, s = a :: b :: u := by
    rcases s with _ | ⟨a, _ | ⟨b, u⟩⟩ <;> simp_all
  unfold ofBlock
  simp only [List.cons_append]
  split <;> split <;> simp_all

/-- The relationship operators, in the order in which they are tried. -/
def Matcher.operatorForms : List (Bytes × Kind) := [
  (">*|", .composeOpaque), (">+|", .aggregateOpaque), (">>", .inherit), (">|", .implement),
  (">*", .compose), (">+", .aggregate), (">-", .depend), ("<>", .bidirectional), ("->", .directed),
  ("--", .associate)]

/-- What a token can be when there is nothing to report about it. -/
inductive Lexeme.IsRegular : Lexeme → Prop
  | word {w : Bytes} (h : w.isName = true) : IsRegular (.word w)
  | number {w : Bytes} (h : w.isDecimal = true) : IsRegular ⟨.number, w⟩
  | string {w : Bytes} (h : w.isQuoted = true) : IsRegular ⟨.string, w⟩
  | line {w : Bytes} (h : 0x0A ∉ w) : IsRegular ⟨.comment, 0x2F :: 0x2F :: w⟩
  | block {w : Bytes} (h : w.ClosesComment) : IsRegular ⟨.ofBlock w, 0x2F :: 0x2A :: w⟩
  | operator {p : Bytes} {kind : Kind} (h : (p, kind) ∈ operatorForms) : IsRegular ⟨kind, p⟩
  | dots : IsRegular ⟨.dotDot, [0x2E, 0x2E]⟩
  | mark {b : UInt8} {kind : Kind} (h : punctuation? b = some kind) : IsRegular ⟨kind, [b]⟩

/-- A hit on `t` that makes a token, reports nothing and takes only ASCII for a name. -/
structure Hit.IsClean (h : Hit) (t : Bytes) : Prop where
  visible : h.skip = false
  silent : h.findings = []
  ascii : h.kind.isWord = true → t.isAscii = true

/-- The token that a clean hit on `t` makes is regular. -/
def Hit.IsRegular (h : Hit) (t : Bytes) : Prop :=
  h.IsClean t → Lexeme.IsRegular ⟨h.kind, h.text.getD t⟩

/-! ## Operators -/

namespace Matcher

/-- The test reads the text `p` if it comes next, and nothing else. -/
def Tries (y : Scan Bool) (p : Bytes) : Prop :=
  ∀ k : Cursor, k.rest ≠ [] → y.Gives k fun r t c =>
    r = true ∧ t = p ∨ r = false ∧ t = [] ∧ c = k ∧ ¬p <+: k.rest

/-- The tests of `forms` are for the texts of `table`, kind by kind. -/
def Forms (forms : List (Scan Bool × Kind)) (table : List (Bytes × Kind)) : Prop :=
  List.Forall₂ (fun f p => Tries f.1 p.1 ∧ f.2 = p.2) forms table

theorem try2_tries (a b : UInt8) : Tries (try2 a b) [a, b] := fun _ _ => try2_gives a b

theorem try3_tries (a b c : UInt8) : Tries (try3 a b c) [a, b, c] := fun _ => try3_gives a b c

theorem operator_forms : ∃ forms, operator = firstOf forms ∧ Forms forms operatorForms :=
  ⟨_, rfl, .cons ⟨try3_tries _ _ _, rfl⟩ <| .cons ⟨try3_tries _ _ _, rfl⟩ <|
    .cons ⟨try2_tries _ _, rfl⟩ <| .cons ⟨try2_tries _ _, rfl⟩ <| .cons ⟨try2_tries _ _, rfl⟩ <|
    .cons ⟨try2_tries _ _, rfl⟩ <| .cons ⟨try2_tries _ _, rfl⟩ <| .cons ⟨try2_tries _ _, rfl⟩ <|
    .cons ⟨try2_tries _ _, rfl⟩ <| .cons ⟨try2_tries _ _, rfl⟩ .nil⟩

theorem firstOf_takes {forms : List (Scan Bool × Kind)} {table : List (Bytes × Kind)}
    (h : Forms forms table) {p s : Bytes} {kind : Kind} (hmem : (p, kind) ∈ table) (hne : p ≠ [])
    (hfirst : table.Pairwise fun q p => ¬q.1 <+: p.1 ++ s) :
    Scan.Takes (firstOf forms) p s (some { kind }) := by
  intro k hk
  have hrest : k.rest ≠ [] := by simp [hk, hne]
  induction h with
  | nil => exact absurd hmem List.not_mem_nil
  | @cons f q forms table hf _ ih =>
    obtain ⟨htries, hkind⟩ := hf
    obtain ⟨hhead, htail⟩ := List.pairwise_cons.1 hfirst
    rcases List.mem_cons.1 hmem with rfl | hmem
    · refine ((htries k hrest).accepts hk).bind ?_
      rintro _ _ c - ⟨rfl, rfl⟩
      exact .pure ⟨by rw [hkind], List.append_nil _⟩
    · refine ((htries k hrest).declines (hk ▸ hhead _ hmem)).bind ?_
      rintro _ _ _ - ⟨rfl, rfl, rfl⟩
      exact ih hmem htail

theorem firstOf_finds {forms : List (Scan Bool × Kind)} {table : List (Bytes × Kind)}
    (h : Forms forms table) {k : Cursor} (hne : k.rest ≠ []) :
    Scan.Gives (firstOf forms) k fun found t _ =>
      ∀ h ∈ found, (t, h.kind) ∈ table ∧ h.text = none := by
  induction h with
  | nil => exact .pure fun _ h => nomatch h
  | @cons f q forms table hf _ ih =>
    obtain ⟨htries, hkind⟩ := hf
    refine .attempt (htries k hne) (fun c _ => .pure ?_) fun _ => ?_
    · rintro _ ⟨⟩
      rw [List.append_nil, hkind]
      exact ⟨List.mem_cons_self, rfl⟩
    · refine ih.mono fun found t _ _ hfound h hh => ?_
      exact ⟨List.mem_cons_of_mem _ (hfound h hh).1, (hfound h hh).2⟩

/-! ## What is found without a finding -/

/-- What the matcher finds without a finding is regular. -/
def FindsRegular (m : Matcher) : Prop :=
  ∀ k : Cursor, k.rest ≠ [] → Scan.Gives m k fun found t _ => ∀ h ∈ found, h.IsRegular t

variable {k : Cursor} {t : Bytes}

theorem miss_regular : Scan.Gives miss k fun found t _ => ∀ h ∈ found, h.IsRegular t :=
  .pure fun _ h => nomatch h

theorem hit_regular {kind : Kind} (h : Lexeme.IsRegular ⟨kind, t⟩) :
    Scan.Gives (hit kind) k fun found u _ => ∀ h ∈ found, h.IsRegular (t ++ u) := by
  refine .pure ?_
  rintro _ ⟨⟩ -
  rwa [List.append_nil]

/-- What is reported is not clean. -/
theorem hitWith_regular {kind : Kind} {start : UInt32} {code : Code} {message : Bytes} :
    Scan.Gives (hitWith kind start code message) k fun found u _ =>
      ∀ h ∈ found, h.IsRegular (t ++ u) := by
  refine .look (fun _ => rfl) (.pure ?_)
  rintro _ ⟨⟩ hclean
  exact absurd hclean.silent (List.cons_ne_nil _ _)

theorem whitespace_regular : whitespace.FindsRegular := by
  intro k hne
  refine .test (run_ahead _) (fun _ => ?_) fun _ => miss_regular
  refine (skipAll_gives _).bind fun _ t c _ _ => .pure ?_
  rintro _ ⟨⟩ hclean
  exact absurd hclean.visible Bool.true_eq_false_eq_False

theorem bumpLoop_reads {test : Scan Bool} {T : Bytes → Bool}
    (htest : ∀ k : Cursor, k.Sound → test.run k = .ok (T k.rest, k)) (hnil : T [] = false)
    {S : UInt8 → Prop} (hS : ∀ b s, T (b :: s) = true → S b) :
    (loop test (discard bump)).Gives k fun _ t c => (∀ b ∈ t, S b) ∧ T c.rest = false := by
  refine (loop_gives (S := fun t => ∀ b ∈ t, S b) htest fun k hT => ?_).mono ?_
  · obtain ⟨b, s, hrest⟩ : ∃ b s, k.rest = b :: s := by
      cases hrest : k.rest with
      | nil => rw [hrest, hnil] at hT; cases hT
      | cons b s => exact ⟨b, s, rfl⟩
    rw [hrest] at hT
    refine .move (a := ()) (n := 1) run_discard_bump fun _ => ?_
    rw [hrest]
    exact ⟨by simp, by simpa using hS b s hT⟩
  · rintro _ _ c - ⟨⟨ts, rfl, hts⟩, hstop⟩
    refine ⟨fun b hb => ?_, hstop⟩
    obtain ⟨t, ht, hbt⟩ := List.mem_flatten.1 hb
    exact hts t ht b hbt

theorem blockKind_finds : blockKind.Gives k fun kind t c => kind = .ofBlock k.rest ∧ t = [] ∧ c = k := by
  intro hk
  unfold blockKind
  obtain ⟨r, hrun, hr⟩ | ⟨e, hrun, he⟩ := run_peek2 hk
  · rw [run_bind_ok hrun]
    refine Gives.mono (P := fun kind t c => kind = .ofBlock k.rest ∧ t = [] ∧ c = k) ?_ (fun _ _ _ _ h => h) hk
    split
    · next b =>
      obtain ⟨s, hs⟩ := (hr _ _).1 rfl
      refine .pure ⟨?_, rfl, rfl⟩
      rw [← hs]
      rfl
    · next hother =>
      refine .pure ⟨?_, rfl, rfl⟩
      unfold Kind.ofBlock
      split
      · next b s hrest => exact absurd ((hr _ _).2 ⟨s, by simp [hrest]⟩) (hother b)
      · rfl
  · exact .inr ⟨e, run_bind_error hrun, he⟩

theorem closeComment_closes {n : Nat} (hn : k.rest.length < n) :
    (closeComment n).Gives k fun closed t _ => closed = true → t.ClosesComment := by
  induction n generalizing k with
  | zero => omega
  | succ n ih =>
    refine .test run_atEnd (fun _ => .pure nofun) fun hne => ?_
    refine .attempt (try2_gives _ _) (fun c _ => .pure fun _ => .close) fun hno => ?_
    refine bump_gives.bind ?_
    rintro _ _ c hr ⟨-, rfl⟩
    refine (ih (bump_lt hne hn hr)).mono fun closed t d hr' hclosed hyes => ?_
    obtain ⟨b, s, hrest⟩ := List.exists_cons_of_ne_nil (List.isEmpty_eq_false_iff.1 hne)
    have hsplit := (hr.trans hr').rest
    rw [hrest] at hno hsplit ⊢
    refine .byte (fun hprefix => hno ?_) (hclosed hyes)
    rw [hsplit]
    exact hprefix.trans (List.prefix_append _ _)

theorem comment_regular : comment.FindsRegular := by
  intro k hne
  refine .look (fun _ => rfl) ?_
  refine .attempt (try2_gives _ _) (fun c _ => ?_) fun _ => ?_
  · refine (bumpLoop_reads (T := startsInLine) (fun _ => run_lineAhead) rfl (S := (· ≠ 0x0A)) ?_).bind ?_
    · intro b s hT
      simpa [startsInLine] using hT
    · rintro _ t d - ⟨ht, -⟩
      simp only [← List.append_assoc]
      exact hit_regular (.line fun hmem => ht _ hmem rfl)
  · refine .attempt (try2_gives _ _) (fun c _ => ?_) fun _ => miss_regular
    refine blockKind_finds.bind ?_
    rintro kind _ _ - ⟨rfl, rfl, rfl⟩
    refine rounds_gives fun n hn => ?_
    refine (closeComment_closes hn).bind fun closed u d hr hclosed => ?_
    simp only [List.nil_append, ← List.append_assoc]
    cases closed with
    | true =>
      have hblock := hclosed rfl
      rw [if_pos rfl, hr.rest, Kind.ofBlock_append hblock.two_le]
      exact hit_regular (.block hblock)
    | false => exact hitWith_regular

theorem closeQuote_closes {quote : UInt8} {n : Nat} (hn : k.rest.length < n) :
    (closeQuote quote n).Gives k fun closed t _ => closed = true → t.closesWith quote = true := by
  induction n generalizing k with
  | zero => omega
  | succ n ih =>
    refine .test run_atEnd (fun _ => .pure nofun) fun hne => ?_
    obtain ⟨b, s, hrest⟩ := List.exists_cons_of_ne_nil (List.isEmpty_eq_false_iff.1 hne)
    refine bump_gives.bind ?_
    rintro _ _ c hr ⟨rfl, rfl⟩
    have hlt := bump_lt hne hn hr
    rw [hrest, List.headD_cons, List.take_one]
    split
    · next hslash =>
      refine bump_gives.bind ?_
      rintro _ _ d hr' ⟨-, rfl⟩
      have hlen := hr'.length_rest
      refine (ih (k := d) (by omega)).mono fun closed t e hr'' hclosed hyes => ?_
      have hbody := hclosed hyes
      -- the hidden byte is there, as something follows it
      obtain ⟨a, u, hc⟩ : ∃ a u, c.rest = a :: u := by
        refine List.exists_cons_of_ne_nil fun hnil => ?_
        have hempty := (hr'.trans hr'').rest
        rw [hnil] at hempty
        obtain ⟨rfl, -⟩ := List.append_eq_nil_iff.1 (List.append_eq_nil_iff.1 hempty.symm).1 |>.symm
        cases hbody
      rw [hc]
      simpa [Bytes.closesWith, hslash] using hbody
    · next hslash =>
      split
      · next hquote => exact .pure fun _ => by simp [Bytes.closesWith, hquote]
      · next hquote =>
        refine (ih hlt).mono fun closed t d _ hclosed hyes => ?_
        have hbody := hclosed hyes
        obtain ⟨a, u, rfl⟩ : ∃ a u, t = a :: u :=
          List.exists_cons_of_ne_nil (by rintro rfl; cases hbody)
        simpa [Bytes.closesWith, hslash, hquote] using hbody

theorem string_regular : string.FindsRegular := by
  intro k hne
  refine .look run_peek ?_
  split
  · next hquote =>
    obtain ⟨b, s, hrest⟩ := List.exists_cons_of_ne_nil hne
    refine .look (fun _ => rfl) ?_
    refine bump_gives.bind ?_
    rintro _ _ c hr ⟨-, rfl⟩
    refine rounds_gives fun n hn => ?_
    rw [hrest, List.headD_cons] at hquote
    rw [hrest, List.headD_cons, List.take_one]
    refine (closeQuote_closes hn).bind fun closed t d _ hclosed => ?_
    simp only [← List.append_assoc]
    cases closed with
    | true =>
      refine hit_regular (.string ?_)
      simpa [Bytes.isQuoted, hclosed rfl] using hquote
    | false => exact hitWith_regular
  · exact miss_regular

/-! ### Numbers -/

theorem digits_reads (hk : startsInDigit k.rest = true) :
    digits.Gives k fun _ t c => t.isDigits = true ∧ startsInDigit c.rest = false := by
  refine (bumpLoop_reads (fun _ => run_digitAhead) rfl (S := fun b => Bytes.isDigit b = true)
    fun b s => (startsInDigit_cons b s).symm.trans).mono ?_
  rintro _ t c hr ⟨hdigits, hstop⟩
  have hne : t ≠ [] := by
    rintro rfl
    rw [hr.rest, List.nil_append, hstop] at hk
    cases hk
  exact ⟨by simpa [Bytes.isDigits, hne] using hdigits, hstop⟩

theorem fraction_reads :
    fraction.Gives k fun _ t _ => t = [] ∨ ∃ w : Bytes, t = 0x2E :: w ∧ w.isDigits = true := by
  intro hk
  unfold fraction
  obtain ⟨r, hrun, hr⟩ | ⟨e, hrun, he⟩ := run_peek2 hk
  · rw [run_bind_ok hrun]
    split
    · next b =>
      obtain ⟨s, hs⟩ := (hr _ _).1 rfl
      split
      · next hdigit =>
        refine (bump_gives.bind ?_) hk
        rintro _ _ c hr ⟨-, rfl⟩
        have hc : c.rest = b :: s := hr.rest_eq (by rw [← hs]; rfl)
        have hstart : startsInDigit c.rest = true := by
          rw [hc, startsInDigit_cons]
          exact hdigit
        refine (digits_reads hstart).mono ?_
        rintro _ w _ - ⟨hw, -⟩
        exact .inr ⟨w, by rw [← hs]; rfl, hw⟩
      · exact Gives.pure (.inl rfl) hk
    · exact Gives.pure (.inl rfl) hk
  · exact .inr ⟨e, run_bind_error hrun, he⟩

theorem not_mem_of_isDigits {w : Bytes} (hw : w.isDigits = true) : 0x2E ∉ w := by
  intro hmem
  simp only [Bytes.isDigits, Bool.and_eq_true, List.all_eq_true] at hw
  exact absurd (hw.2 _ hmem) (by decide)

theorem number_regular : number.FindsRegular := by
  intro k hne
  refine .test run_digitAhead (fun hstart => ?_) fun _ => miss_regular
  refine .look (fun _ => rfl) ?_
  refine (digits_reads hstart).bind ?_
  rintro _ whole c - ⟨hwhole, -⟩
  refine fraction_reads.bind fun _ tail d _ htail => ?_
  have hdecimal : (whole ++ tail).isDecimal = true := by
    rcases htail with rfl | ⟨w, rfl, hw⟩
    · simpa [Bytes.isDecimal, Bytes.splitByte_of_not_mem (not_mem_of_isDigits hwhole)] using hwhole
    · simp [Bytes.isDecimal, Bytes.splitByte_append (not_mem_of_isDigits hwhole),
        Bytes.splitByte_of_not_mem (not_mem_of_isDigits hw), hwhole, hw]
  refine .test (run_ahead _) (fun _ => ?_) fun _ => ?_
  · refine (skipAll_gives _).bind fun _ u e _ _ => ?_
    simp only [← List.append_assoc]
    exact hitWith_regular
  · simp only [← List.append_assoc]
    exact hit_regular (.number hdecimal)

/-! ### Names -/

theorem isAscii_append {s t : Bytes} : (s ++ t).isAscii = true ↔ s.isAscii = true ∧ t.isAscii = true := by
  simp [Bytes.isAscii]

theorem take_scalar_ascii {s : Bytes} (hne : s.take (Utf8.decodeFirst s).2 ≠ [])
    (h : Bytes.isAscii (s.take (Utf8.decodeFirst s).2) = true) :
    ∃ b, s.take (Utf8.decodeFirst s).2 = [b] ∧ (Utf8.decodeFirst s).1 = b.toNat := by
  obtain ⟨b, u, rfl⟩ : ∃ b u, s = b :: u :=
    List.exists_cons_of_ne_nil (by rintro rfl; simp at hne)
  have hb : b < 0x80 := by
    by_contra hb
    obtain ⟨n, hn⟩ := Nat.exists_eq_succ_of_ne_zero (Utf8.decodeFirst_size_pos (s := b :: u) (by simp)).ne'
    rw [hn] at h
    simp [Bytes.isAscii] at h
    exact hb h.1
  rw [Utf8.decodeFirst_ascii hb]
  exact ⟨b, rfl, rfl⟩

theorem skipAll_reads (p : Nat → Bool) : (skipAll p).Gives k fun _ t _ =>
    t.isAscii = true → ∀ b ∈ t, p b.toNat = true := by
  refine (loop_gives (S := fun t => t.isAscii = true → ∀ b ∈ t, p b.toNat = true)
    (fun k hk => run_ahead p hk) fun k hT => ?_).mono ?_
  · refine bumpScalar_gives.mono ?_
    rintro _ t c - rfl
    have hne := take_ne_nil_of_startsIn hT
    refine ⟨hne, fun hascii => ?_⟩
    obtain ⟨b, htake, hvalue⟩ := take_scalar_ascii hne hascii
    rw [htake, List.forall_mem_singleton, ← hvalue]
    exact (Bool.and_eq_true_iff.1 hT).2
  · rintro _ _ c - ⟨⟨ts, rfl, hts⟩, -⟩ hascii b hb
    obtain ⟨t, ht, hbt⟩ := List.mem_flatten.1 hb
    refine hts t ht ?_ b hbt
    simp only [Bytes.isAscii, List.all_eq_true] at hascii ⊢
    exact fun b hb => hascii b (List.mem_flatten.2 ⟨t, ht, hb⟩)

theorem isName_of_ascii {b : UInt8} {s : Bytes} (hascii : Bytes.isAscii (b :: s) = true)
    (hb : isNameStart b.toNat = true) (hs : ∀ c ∈ s, isNamePart c.toNat = true) :
    Bytes.isName (b :: s) = true := by
  unfold Bytes.isName
  rw [Utf8.scalars_ascii hascii]
  simpa [hb, List.all_eq_true, Normal.text_of_isAscii hascii] using hs

theorem name_regular : name.FindsRegular := by
  intro k hne
  refine .test (run_ahead _) (fun hstart => ?_) fun _ => miss_regular
  refine .look (fun _ => rfl) ?_
  refine bumpScalar_gives.bind ?_
  rintro _ _ c hr rfl
  refine (skipAll_reads _).bind fun _ t d hr' ht => ?_
  refine .look (fun _ => rfl) (.pure ?_)
  have hread := hr.trans hr'
  rw [hread.content, hread.slice, List.append_nil]
  rintro _ ⟨⟩ hclean
  have hword : ∀ w : Bytes, ((Kind.keyword? w).getD .ident).isWord = true := Lexeme.isWord_word
  have hascii := hclean.ascii (hword _)
  obtain ⟨hfirst, hrest⟩ := isAscii_append.1 hascii
  obtain ⟨b, htake, hvalue⟩ := take_scalar_ascii (take_ne_nil_of_startsIn hstart) hfirst
  rw [htake] at hascii ⊢
  rw [List.singleton_append] at hascii ⊢
  have hname : Bytes.isName (b :: t) = true := by
    refine isName_of_ascii hascii ?_ (ht hrest)
    rw [← hvalue]
    exact (Bool.and_eq_true_iff.1 hstart).2
  rw [Normal.text_of_isAscii hascii]
  exact .word hname

theorem operator_regular : operator.FindsRegular := by
  intro k hne
  obtain ⟨forms, hforms, htable⟩ := operator_forms
  rw [hforms]
  refine (firstOf_finds htable hne).mono fun found t _ _ hfound h hh _ => ?_
  obtain ⟨hmem, htext⟩ := hfound h hh
  rw [htext]
  exact .operator hmem

theorem punctuation_regular : punctuation.FindsRegular := by
  intro k hne
  refine .attempt (try2_gives _ _) (fun c _ => hit_regular .dots) fun _ => ?_
  refine .look run_peek ?_
  obtain ⟨b, s, hrest⟩ := List.exists_cons_of_ne_nil hne
  rw [hrest, List.headD_cons]
  split
  · next kind hkind =>
    refine bump_gives.bind ?_
    rintro _ _ c - ⟨-, rfl⟩
    rw [hrest]
    exact hit_regular (.mark hkind)
  · exact miss_regular

theorem builtin_regular : ∀ m ∈ builtin, FindsRegular m := by
  simp only [builtin, List.forall_mem_cons]
  exact ⟨whitespace_regular, comment_regular, string_regular, number_regular, name_regular,
    operator_regular, punctuation_regular, List.forall_mem_nil _⟩

end Matcher

/-! ## What is found again -/

/-- In front of `s` the text is read as one token. -/
structure Lexeme.IsFound (l : Lexeme) (s : Bytes) : Prop where
  ne_nil : l.text ≠ []
  visible : startsIn Category.isSpace (l.text ++ s) = false
  hit : ∃ h : Hit, h.Says l ∧ ∀ k : Cursor, k.rest = l.text ++ s →
    Scan.Gives (Lexer.matchAt k.offset builtin) k fun r u _ => r = some h ∧ u = l.text

namespace Lexeme

theorem IsRead.isFound {l : Lexeme} {s : Bytes} (h : l.IsRead s) : l.IsFound s := by
  obtain ⟨b, t, htext, -⟩ := h.single
  exact ⟨by simp [htext], h.visible, h.hit⟩

/-- The matcher behind `before` finds what those decline. -/
theorem isFound_of_takes (before after : List Matcher) {m : Matcher} (hchain : builtin = before ++ m :: after)
    {kind : Kind} {b : UInt8} {t s : Bytes} (hb : b < 0x80 ∧ Category.isSpace b.toNat = false)
    (hbefore : ∀ m ∈ before, m.Declines (b :: t ++ s))
    (hm : Scan.Takes m (b :: t) s (some { kind })) : IsFound ⟨kind, b :: t⟩ s := by
  refine ⟨by simp, ?_, { kind }, ⟨rfl, rfl, rfl, rfl⟩, fun k hk => ?_⟩
  · rw [List.cons_append, startsIn_ascii _ hb.1]
    exact hb.2
  · rw [hchain]
    exact Lexer.matchAt_takes before after hbefore hm (by simp) hk

end Lexeme

namespace Matcher

/-- A comment begins with two bytes. -/
theorem comment_declines_of_not_prefix {s : Bytes} (hline : ¬[0x2F, 0x2F] <+: s)
    (hblock : ¬[0x2F, 0x2A] <+: s) : comment.Declines s := by
  rintro k rfl
  refine .look (fun _ => rfl) ?_
  refine ((try2_gives _ _).declines hline).bind ?_
  rintro _ _ _ - ⟨rfl, rfl, rfl⟩
  refine ((try2_gives _ _).declines hblock).bind ?_
  rintro _ _ _ - ⟨rfl, rfl, rfl⟩
  exact .pure rfl

theorem line_takes {w : Bytes} (hw : 0x0A ∉ w) (s : Bytes) :
    Scan.Takes comment (0x2F :: 0x2F :: w) (0x0A :: s) (some { kind := .comment }) := by
  have hloop : (loop lineAhead (discard bump)).Takes w (0x0A :: s) () := by
    have htest : ∀ s, lineAhead.Sees s (startsInLine s) := by
      rintro s k hk rfl
      exact run_lineAhead hk
    have hparts : ∀ u ∈ w.map ([·]), u ≠ [] ∧
        ∀ t, startsInLine (u ++ t) = true ∧ (discard bump : Scan Unit).Takes u t () := by
      simp only [List.forall_mem_map]
      intro b hb
      refine ⟨by simp, fun t => ⟨?_, (bump_takes b t).bind (f := fun _ => Pure.pure ()) (.pure () t)⟩⟩
      simpa [startsInLine] using fun heq : b = 0x0A => hw (heq ▸ hb)
    have hall := loop_takes htest hparts (s := 0x0A :: s) rfl
    rwa [← List.flatMap_def, List.flatMap_singleton'] at hall
  intro k hk
  refine .look (fun _ => rfl) ?_
  refine ((try2_gives 0x2F 0x2F).accepts (s := w ++ 0x0A :: s) hk).bind ?_
  rintro _ _ c hr ⟨rfl, rfl⟩
  refine (hloop c (hr.rest_eq hk)).bind ?_
  rintro _ _ d - ⟨-, rfl⟩
  exact .pure ⟨rfl, by simp⟩

theorem closeComment_takes {w : Bytes} (hw : w.ClosesComment) (s : Bytes) {n : Nat} (hn : w.length < n) :
    (closeComment n).Takes w s true := by
  induction hw generalizing n with
  | close =>
    obtain ⟨n, rfl⟩ := Nat.exists_eq_succ_of_ne_zero (Nat.ne_of_gt (Nat.zero_lt_of_lt hn))
    intro k hk
    refine .look (fun hsound => run_atEnd hsound) ?_
    rw [hk, if_neg (by simp)]
    refine ((try2_gives _ _).accepts hk).bind ?_
    rintro _ _ c - ⟨rfl, rfl⟩
    exact .pure ⟨rfl, rfl⟩
  | @byte b w hb hw ih =>
    obtain ⟨n, rfl⟩ := Nat.exists_eq_succ_of_ne_zero (Nat.ne_of_gt (Nat.zero_lt_of_lt hn))
    rw [List.length_cons] at hn
    intro k hk
    have hno : ¬[0x2A, 0x2F] <+: k.rest := fun hprefix => by
      refine hb (List.prefix_of_prefix_length_le hprefix ⟨s, hk.symm⟩ ?_)
      have := hw.two_le
      simp only [List.length_cons, List.length_nil]
      omega
    refine .look (fun hsound => run_atEnd hsound) ?_
    rw [hk, if_neg (by simp)]
    refine ((try2_gives _ _).declines hno).bind ?_
    rintro _ _ _ - ⟨rfl, rfl, rfl⟩
    refine (bump_takes b (w ++ s) _ hk).bind ?_
    rintro _ _ c hr ⟨rfl, rfl⟩
    refine (ih (by omega) c (hr.rest_eq hk)).mono ?_
    rintro _ _ _ - ⟨rfl, rfl⟩
    exact ⟨rfl, rfl⟩

theorem block_takes {w : Bytes} (hw : w.ClosesComment) (s : Bytes) :
    Scan.Takes comment (0x2F :: 0x2A :: w) s (some { kind := .ofBlock w }) := by
  intro k hk
  have hno : ¬[0x2F, 0x2F] <+: k.rest := by
    rintro ⟨t, ht⟩
    rw [hk] at ht
    simp at ht
  refine .look (fun _ => rfl) ?_
  refine ((try2_gives _ _).declines hno).bind ?_
  rintro _ _ _ - ⟨rfl, rfl, rfl⟩
  refine ((try2_gives 0x2F 0x2A).accepts (s := w ++ s) hk).bind ?_
  rintro _ _ c hr ⟨rfl, rfl⟩
  have hc : c.rest = w ++ s := hr.rest_eq hk
  refine blockKind_finds.bind ?_
  rintro kind _ e - ⟨hkind, rfl, rfl⟩
  rw [hc, Kind.ofBlock_append hw.two_le] at hkind
  refine rounds_gives fun n hn => ?_
  rw [hc, List.length_append] at hn
  refine (closeComment_takes hw s (by omega) e hc).bind ?_
  rintro _ _ d - ⟨rfl, rfl⟩
  rw [if_pos rfl, hkind]
  exact .pure ⟨rfl, by simp⟩

theorem operator_takes_form {p : Bytes} {kind : Kind} (hmem : (p, kind) ∈ operatorForms) (s : Bytes) :
    Scan.Takes operator p (0x0A :: s) (some { kind }) := by
  obtain ⟨forms, hforms, htable⟩ := operator_forms
  have hlengths : ∀ q ∈ operatorForms, 2 ≤ q.1.length ∧ q.1.length ≤ 3 := by decide
  have hfirst : operatorForms.Pairwise fun q p => ¬q.1 <+: p.1 ++ [0x0A] := by decide +kernel
  rw [hforms]
  refine firstOf_takes htable hmem (List.ne_nil_of_length_pos ?_) ?_
  · exact Nat.lt_of_lt_of_le Nat.two_pos (hlengths _ hmem).1
  · refine hfirst.imp_of_mem fun {q p} hq hp hno hprefix => hno ?_
    refine List.prefix_of_prefix_length_le hprefix ⟨s, by simp⟩ ?_
    have hq := (hlengths q hq).2
    have hp := (hlengths p hp).1
    rw [List.length_append, List.length_singleton]
    omega

theorem dots_takes (s : Bytes) :
    Scan.Takes punctuation [0x2E, 0x2E] s (some { kind := .dotDot }) := by
  intro k hk
  refine ((try2_gives _ _).accepts hk).bind ?_
  rintro _ _ c - ⟨rfl, rfl⟩
  exact .pure ⟨rfl, rfl⟩

end Matcher

namespace Lexeme

/-- A byte that begins no blank, literal, number or name. -/
def isSymbol (b : UInt8) : Bool :=
  b < 0x80 && !Category.isSpace b.toNat && b ≠ 0x22 && b ≠ 0x27 && !startsInDigit [b]
    && !isNameStart b.toNat

theorem isSymbol_spec {b : UInt8} (h : isSymbol b = true) :
    b < 0x80 ∧ Category.isSpace b.toNat = false := by
  simp only [isSymbol, Bool.and_eq_true, decide_eq_true_eq, Bool.not_eq_true'] at h
  exact h.1.1.1.1

theorem symbol_declines {b : UInt8} (hb : isSymbol b = true) {s : Bytes}
    (hs : b = 0x2F → s.headD 0 = 0x0A) :
    ∀ m ∈ [whitespace, comment, string, number, name], m.Declines (b :: s) := by
  simp only [isSymbol, Bool.and_eq_true, decide_eq_true_eq, Bool.not_eq_true'] at hb
  obtain ⟨⟨⟨⟨⟨hascii, hspace⟩, hquote⟩, hquote'⟩, hdigit⟩, hname⟩ := hb
  have hcomment (c : UInt8) (hc : c ≠ 0x0A) : ¬[0x2F, c] <+: b :: s := by
    rintro ⟨t, ht⟩
    obtain ⟨rfl, rfl⟩ := List.cons.inj ht
    exact hc (hs rfl)
  simp only [List.forall_mem_cons]
  refine ⟨whitespace_declines ?_, comment_declines_of_not_prefix (hcomment _ (by decide))
    (hcomment _ (by decide)), string_declines hquote hquote', number_declines hdigit,
    name_declines ?_, nofun⟩
  · rwa [startsIn_ascii _ hascii]
  · rwa [startsIn_ascii _ hascii]

theorem symbol_declines_operator {b : UInt8} (hb : isSymbol b = true) {s : Bytes}
    (hs : b = 0x2F → s.headD 0 = 0x0A) (hoperator : operator.Declines (b :: s)) :
    ∀ m ∈ [whitespace, comment, string, number, name, operator], m.Declines (b :: s) := by
  have hall := symbol_declines hb hs
  simp only [List.forall_mem_cons] at hall ⊢
  obtain ⟨hblank, hcomment, hstring, hnumber, hname, -⟩ := hall
  exact ⟨hblank, hcomment, hstring, hnumber, hname, hoperator, nofun⟩

theorem isSymbol_of_punctuation? {b : UInt8} {kind : Kind} (h : punctuation? b = some kind) :
    isSymbol b = true := by
  unfold punctuation? at h
  split at h <;> cases h <;> decide +kernel

theorem operator_declines_mark (b : UInt8) (s : Bytes) : operator.Declines (b :: 0x0A :: s) := by
  have hsecond : ∀ p ∈ operatorTexts, 1 < p.length ∧ p[1]? ≠ some 0x0A := by decide
  refine operator_declines (by simp) (List.any_eq_false.2 fun p hp hprefix => ?_)
  obtain ⟨hlen, hne⟩ := hsecond p hp
  obtain ⟨u, hu⟩ := List.isPrefixOf_iff_prefix.1 hprefix
  exact hne (by rw [← List.getElem?_append_left hlen, hu]; rfl)

theorem operator_declines_dot (s : Bytes) : operator.Declines (0x2E :: s) := by
  have hfirst : ∀ p ∈ operatorTexts, p ≠ [] ∧ p.headD 0 ≠ 0x2E := by decide
  refine operator_declines (by simp) (List.any_eq_false.2 fun p hp hprefix => ?_)
  obtain ⟨hne, hdot⟩ := hfirst p hp
  obtain ⟨a, p, rfl⟩ := List.exists_cons_of_ne_nil hne
  obtain ⟨u, hu⟩ := List.isPrefixOf_iff_prefix.1 hprefix
  exact hdot (List.cons.inj hu).1

/-- Whatever is regular is one token at the end of its line. -/
theorem isFound_of_isRegular {l : Lexeme} (h : l.IsRegular) (s : Bytes) : l.IsFound (0x0A :: s) := by
  have hslash : (0x2F : UInt8) < 0x80 ∧ Category.isSpace (0x2F : UInt8).toNat = false := by decide
  have hblank (t : Bytes) : ∀ m ∈ [whitespace], m.Declines (0x2F :: t) :=
    List.forall_mem_singleton.2 (whitespace_declines (by rw [startsIn_ascii _ hslash.1]; exact hslash.2))
  obtain ⟨hpart, -, -⟩ := not_isNamePart_of_breaks (b := 0x0A) (by decide) s
  cases h with
  | word hw => exact (word_isRead hw hpart).isFound
  | @number w hw =>
    have hvalue : value w = ⟨.number, w⟩ := by
      obtain ⟨d, t, rfl, hd⟩ := Bytes.isDecimal_head hw
      have hquoted : Bytes.isQuoted (d :: t) = false := by
        have hd' : d ≠ 0x22 ∧ d ≠ 0x27 := by
          constructor <;> rintro rfl <;> exact absurd hd (by decide)
        simp [Bytes.isQuoted, hd']
      rw [value, hquoted]
      rfl
    exact hvalue ▸ (value_isRead (b := 0x0A) (by simp [hw]) rfl (by decide) (by decide)).isFound
  | @string w hw =>
    have hvalue : value w = ⟨.string, w⟩ := by rw [value, if_pos hw]
    exact hvalue ▸ (value_isRead (b := 0x0A) (by simp [hw]) rfl (by decide) (by decide)).isFound
  | line hw =>
    exact isFound_of_takes [whitespace] _ rfl hslash (hblank _) (line_takes hw s)
  | block hw =>
    exact isFound_of_takes [whitespace] _ rfl hslash (hblank _) (block_takes hw _)
  | @operator p kind hmem =>
    have hforms : ∀ q ∈ operatorForms, q.1 ≠ [] ∧ isSymbol (q.1.headD 0) = true ∧ q.1.headD 0 ≠ 0x2F := by
      decide +kernel
    obtain ⟨hne, hsymbol, hfirst⟩ := hforms _ hmem
    obtain ⟨b, t, rfl⟩ := List.exists_cons_of_ne_nil hne
    exact isFound_of_takes [whitespace, comment, string, number, name] _ rfl (isSymbol_spec hsymbol)
      (symbol_declines hsymbol fun heq => absurd heq hfirst) (operator_takes_form hmem s)
  | dots =>
    have hdot : isSymbol 0x2E = true := isSymbol_of_punctuation? (show punctuation? 0x2E = some .dot from rfl)
    exact isFound_of_takes [whitespace, comment, string, number, name, operator] _ rfl
      (isSymbol_spec hdot) (symbol_declines_operator hdot (by simp) (operator_declines_dot _)) (dots_takes _)
  | @mark b kind hkind =>
    have hsymbol := isSymbol_of_punctuation? hkind
    exact isFound_of_takes [whitespace, comment, string, number, name, operator] _ rfl
      (isSymbol_spec hsymbol) (symbol_declines_operator hsymbol (by simp) (operator_declines_mark b s))
      (punctuation_takes hkind (by simp))

end Lexeme

end Uml
