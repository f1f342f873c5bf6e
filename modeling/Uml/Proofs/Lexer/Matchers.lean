import Mathlib
import Uml.Language.TypeScript
import Uml.Lexer.Matcher
import Uml.Proofs.Lexer.Reading

/-! What each matcher reads, and that what it answers is about what it read. -/
namespace Uml

/-- The text is a row of white-space characters. -/
def Bytes.IsBlank (s : Bytes) : Prop :=
  ∃ parts : List Bytes, s = parts.flatten ∧ ∀ p ∈ parts, ∃ c, Category.isSpace c ∧ p = Utf8.encode c

/-- The kinds of tokens whose text is what was read; a `>>`, which may be split, is two bytes. -/
def Kind.IsPlain (kind : Kind) (text : Bytes) : Prop :=
  kind.isWord = false ∧ kind ≠ .eof ∧ (kind = .inherit → text.length = 2)

instance (kind : Kind) (text : Bytes) : Decidable (kind.IsPlain text) :=
  inferInstanceAs (Decidable (_ ∧ _))

theorem Kind.isPlain {kind : Kind} (h : kind.isWord = false ∧ kind ≠ .eof ∧ kind ≠ .inherit)
    (text : Bytes) : kind.IsPlain text :=
  ⟨h.1, h.2.1, fun hkind => absurd hkind h.2.2⟩

theorem Kind.isKeyword_of_keyword? {word : Bytes} {k : Kind} (h : keyword? word = some k) :
    k.isKeyword := by
  have hall : ∀ p ∈ keywords, p.2.isKeyword := by decide
  obtain ⟨l, r, heq, -⟩ := List.lookup_eq_some_iff.1 h
  exact hall (word, k) (by simp [heq])

/-- What the answer of a matcher that moved from `k` over `text` to `c` says about the text. -/
structure Hit.Fits (k : Cursor) (text : Bytes) (c : Cursor) (h : Hit) : Prop where
  skip : h.skip → text.IsBlank ∧ h.findings = []
  kind : h.kind ≠ .eof
  split : h.kind = .inherit → text.length = 2
  text : h.text = if h.kind.isWord then some (Normal.text text) else none
  findings : ∀ d ∈ h.findings, ∃ code message, code ≠ .unknownChar
    ∧ d = .error code (c.spanFrom k.offset) message

namespace Matcher

variable {k c : Cursor} {s : Bytes}

/-- Wherever there is something to read, what the matcher answers fits what it read. -/
def Fits (m : Matcher) : Prop :=
  ∀ k : Cursor, k.rest ≠ [] → Scan.Gives m k fun found text c => ∀ h ∈ found, h.Fits k text c

theorem miss_gives : Scan.Gives miss c fun found t d => ∀ h ∈ found, h.Fits k (s ++ t) d :=
  .pure fun _ h => nomatch h

theorem hit_gives {kind : Kind} (hkind : kind.IsPlain s) :
    Scan.Gives (hit kind) c fun found t d => ∀ h ∈ found, h.Fits k (s ++ t) d := by
  obtain ⟨hword, heof, hsplit⟩ := hkind
  refine .pure fun h hh => ?_
  obtain rfl := Option.mem_some.1 hh
  rw [List.append_nil]
  exact ⟨nofun, heof, hsplit, by simp [hword], by simp⟩

theorem hitWith_gives {kind : Kind} {code : Code} {message : Bytes} (hkind : kind.IsPlain s)
    (hcode : code ≠ .unknownChar) :
    Scan.Gives (hitWith kind k.offset code message) c
      fun found t d => ∀ h ∈ found, h.Fits k (s ++ t) d := by
  obtain ⟨hword, heof, hsplit⟩ := hkind
  refine .look (fun _ => rfl) (.pure fun h hh => ?_)
  obtain rfl := Option.mem_some.1 hh
  rw [List.append_nil]
  refine ⟨nofun, heof, hsplit, by simp [hword], fun d hd => ?_⟩
  exact ⟨code, message, hcode, List.mem_singleton.1 hd⟩

def startsIn (p : Nat → Bool) (s : Bytes) : Bool :=
  0 < (Utf8.decodeFirst s).2 && p (Utf8.decodeFirst s).1

theorem run_ahead (p : Nat → Bool) (hk : k.Sound) :
    (ahead p).run k = .ok (startsIn p k.rest, k) :=
  Scan.run_bind_ok (Scan.run_peekScalar hk)

theorem take_ne_nil_of_startsIn {p : Nat → Bool} (h : startsIn p s) :
    s.take (Utf8.decodeFirst s).2 ≠ [] := by
  have hle := Utf8.decodeFirst_size_le s
  simp only [startsIn, Bool.and_eq_true, decide_eq_true_eq] at h
  apply List.ne_nil_of_length_pos
  rw [List.length_take]
  omega

theorem skipAll_gives (p : Nat → Bool) : (skipAll p).Gives k fun _ t c =>
    (∃ ts : List Bytes, t = ts.flatten ∧
      ∀ u ∈ ts, ∃ v, p v ∧ (v ≠ Utf8.replacement → u = Utf8.encode v)) ∧ startsIn p c.rest = false := by
  refine Scan.loop_gives (fun k hk => run_ahead p hk) fun k hT => ?_
  refine Scan.bumpScalar_gives.mono ?_
  rintro _ t c - rfl
  have hp := (Bool.and_eq_true_iff.1 hT).2
  exact ⟨take_ne_nil_of_startsIn hT, _, hp, fun hvalue => Utf8.take_decodeFirst (.inl hvalue)⟩

theorem whitespace_fits : whitespace.Fits := by
  intro k hne
  refine .test (run_ahead _) (fun _ => ?_) fun _ => miss_gives (s := [])
  refine (skipAll_gives _).bind ?_
  rintro _ t c - ⟨⟨ts, rfl, hts⟩, -⟩
  refine .pure fun h hh => ?_
  obtain rfl := Option.mem_some.1 hh
  refine ⟨fun _ => ⟨⟨ts, List.append_nil _, fun u hu => ?_⟩, rfl⟩, nofun, nofun, rfl, nofun⟩
  obtain ⟨v, hv, hspell⟩ := hts u hu
  refine ⟨v, hv, hspell ?_⟩
  rintro rfl
  exact absurd hv (by decide)

theorem bump_lt (hne : k.rest.isEmpty = false) {n : Nat} (hn : k.rest.length < n + 1)
    (hr : k.Reads (k.rest.take 1) c) : c.rest.length < n := by
  have hlen := hr.length_rest
  have hpos := List.length_pos_iff.2 (List.isEmpty_eq_false_iff.1 hne)
  rw [List.length_take] at hlen
  omega

theorem closeComment_gives {n : Nat} (hn : k.rest.length < n) :
    (closeComment n).Gives k fun closed _ c => closed = false → c.rest = [] := by
  induction n generalizing k with
  | zero => omega
  | succ n ih =>
    refine .test Scan.run_atEnd (fun hnil => .pure fun _ => List.isEmpty_iff.1 hnil) fun hne => ?_
    refine .attempt (Scan.try2_gives _ _) (fun c _ => .pure nofun) fun _ => ?_
    refine Scan.bump_gives.bind ?_
    rintro _ _ c hr ⟨-, rfl⟩
    exact ih (bump_lt hne hn hr)

def startsInLine (s : Bytes) : Bool := !s.isEmpty && s.headD 0 ≠ 0x0A

theorem run_lineAhead (hk : k.Sound) : lineAhead.run k = .ok (startsInLine k.rest, k) := by
  unfold lineAhead
  rw [Scan.run_bind_ok (Scan.run_atEnd hk), Scan.run_bind_ok (Scan.run_peek hk)]
  rfl

theorem blockKind_gives :
    blockKind.Gives k fun kind _ _ => kind = .comment ∨ kind = .docComment := by
  intro hk
  unfold blockKind
  obtain ⟨r, hrun, -⟩ | ⟨e, hrun, he⟩ := Scan.run_peek2 hk
  · rw [Scan.run_bind_ok hrun]
    split
    · refine Scan.Gives.pure ?_ hk
      split <;> simp
    · exact Scan.Gives.pure (.inl rfl) hk
  · exact .inr ⟨e, Scan.run_bind_error hrun, he⟩

theorem comment_fits : comment.Fits := by
  intro k hne
  refine .look (fun _ => rfl) ?_
  refine .attempt (Scan.try2_gives _ _) (fun c _ => ?_) fun _ => ?_
  · refine (Scan.bumpLoop_gives (T := startsInLine) (fun _ => run_lineAhead) rfl).bind ?_
    intro _ t d _ _
    simp only [← List.append_assoc]
    exact hit_gives (Kind.isPlain (by decide) _)
  · refine .attempt (Scan.try2_gives _ _) (fun c _ => ?_) fun _ => miss_gives (s := [])
    refine blockKind_gives.bind fun kind t d _ hkind => ?_
    have hplain := kind.isPlain (by obtain rfl | rfl := hkind <;> decide)
    refine Scan.rounds_gives fun n hn => ?_
    refine (closeComment_gives hn).bind fun closed u e _ _ => ?_
    simp only [← List.append_assoc]
    cases closed with
    | true => exact hit_gives (hplain _)
    | false => exact hitWith_gives (hplain _) (by decide)

theorem closeQuote_gives (quote : UInt8) {n : Nat} (hn : k.rest.length < n) :
    (closeQuote quote n).Gives k fun closed _ c => closed = false → c.rest = [] := by
  induction n generalizing k with
  | zero => omega
  | succ n ih =>
    refine .test Scan.run_atEnd (fun hnil => .pure fun _ => List.isEmpty_iff.1 hnil) fun hne => ?_
    refine Scan.bump_gives.bind ?_
    rintro b _ c hr ⟨-, rfl⟩
    have hlt := bump_lt hne hn hr
    split
    · refine Scan.bump_gives.bind fun _ _ d hr' _ => ?_
      have hlen := hr'.length_rest
      exact ih (by omega)
    · split
      · exact .pure nofun
      · exact ih hlt

theorem quoted_gives (quote : UInt8) (problem : Bytes) :
    Scan.Gives (quoted quote problem) k fun found t c => ∀ h ∈ found, h.Fits k t c := by
  have hplain := @Kind.isPlain .string (by decide)
  refine .look (fun _ => rfl) ?_
  refine Scan.bump_gives.bind fun _ t c _ _ => ?_
  refine Scan.rounds_gives fun n hn => ?_
  refine (closeQuote_gives quote hn).bind fun closed u d _ _ => ?_
  simp only [← List.append_assoc]
  cases closed with
  | true => exact hit_gives (hplain _)
  | false => exact hitWith_gives (hplain _) (by decide)

theorem string_fits : string.Fits := by
  intro k hne
  refine .look Scan.run_peek ?_
  split
  · exact quoted_gives _ _
  · exact miss_gives (s := [])

def startsInDigit (s : Bytes) : Bool := 0x30 ≤ (s.headD 0).toNat && (s.headD 0).toNat ≤ 0x39

theorem startsInDigit_cons (b : UInt8) (s : Bytes) : startsInDigit (b :: s) = Bytes.isDigit b := by
  simp [startsInDigit, Bytes.isDigit, UInt8.le_iff_toNat_le, Bytes.ascii]

theorem run_digitAhead (hk : k.Sound) : digitAhead.run k = .ok (startsInDigit k.rest, k) :=
  Scan.run_bind_ok (Scan.run_peek hk)

theorem digits_gives : digits.Gives k fun _ _ c => startsInDigit c.rest = false :=
  Scan.bumpLoop_gives (fun _ => run_digitAhead) rfl

theorem fraction_gives : fraction.Gives k fun _ _ _ => True := by
  intro hk
  unfold fraction
  obtain ⟨r, hrun, -⟩ | ⟨e, hrun, he⟩ := Scan.run_peek2 hk
  · rw [Scan.run_bind_ok hrun]
    split
    · split
      · exact (Scan.bump_gives.bind fun _ _ _ _ _ => digits_gives.mono fun _ _ _ _ _ => trivial) hk
      · exact Scan.Gives.pure trivial hk
    · exact Scan.Gives.pure trivial hk
  · exact .inr ⟨e, Scan.run_bind_error hrun, he⟩

theorem number_fits : number.Fits := by
  have hplain := @Kind.isPlain .number (by decide)
  intro k hne
  refine .test run_digitAhead (fun _ => ?_) fun _ => miss_gives (s := [])
  refine .look (fun _ => rfl) ?_
  refine digits_gives.bind fun _ s c _ _ => ?_
  refine fraction_gives.bind fun _ t d _ _ => ?_
  refine .test (run_ahead _) (fun _ => ?_) fun _ => ?_
  · refine (skipAll_gives _).bind fun _ u e _ _ => ?_
    simp only [← List.append_assoc]
    exact hitWith_gives (hplain _) (by decide)
  · simp only [← List.append_assoc]
    exact hit_gives (hplain _)

theorem name_fits : name.Fits := by
  intro k hne
  refine .test (run_ahead _) (fun _ => ?_) fun _ => miss_gives (s := [])
  refine .look (fun _ => rfl) ?_
  refine Scan.bumpScalar_gives.bind fun _ s c hs _ => ?_
  refine (skipAll_gives _).bind fun _ t d ht _ => ?_
  refine .look (fun _ => rfl) (.pure fun h hh => ?_)
  obtain rfl := Option.mem_some.1 hh
  have hread := hs.trans ht
  rw [hread.content, hread.slice, List.append_nil]
  have hword : ((Kind.keyword? (Normal.text (s ++ t))).getD .ident).isWord = true := by
    cases hkey : Kind.keyword? (Normal.text (s ++ t)) with
    | none => rfl
    | some kind => simp [Kind.isWord, Kind.isKeyword_of_keyword? hkey]
  refine ⟨nofun, ?_, ?_, by simp [hword], nofun⟩
  · intro heof
    exact absurd (hword.symm.trans (congrArg Kind.isWord heof)) (by decide)
  · intro hsplit
    exact absurd (hword.symm.trans (congrArg Kind.isWord hsplit)) (by decide)

/-- A fixed text that a test reads, and a kind that stands for it. -/
def Spells (form : Scan Bool × Kind) : Prop :=
  ∃ (p : Bytes) (N : Cursor → Prop), form.2.IsPlain p ∧ ∀ k : Cursor, k.rest ≠ [] →
    form.1.Gives k fun r t c => r = true ∧ t = p ∨ r = false ∧ t = [] ∧ c = k ∧ N k

theorem try2_spells {a b : UInt8} {kind : Kind} (h : kind.IsPlain [a, b]) :
    Spells (Scan.try2 a b, kind) :=
  ⟨_, _, h, fun _ _ => Scan.try2_gives a b⟩

theorem try3_spells {a b c : UInt8} {kind : Kind} (h : kind.IsPlain [a, b, c]) :
    Spells (Scan.try3 a b c, kind) :=
  ⟨_, _, h, fun _ => Scan.try3_gives a b c⟩

theorem firstOf_fits {forms : List (Scan Bool × Kind)} (h : ∀ f ∈ forms, Spells f) :
    (firstOf forms).Fits := by
  intro k hne
  induction forms with
  | nil => exact miss_gives (s := [])
  | cons f rest ih =>
    obtain ⟨p, N, hplain, hf⟩ := h f (by simp)
    refine .attempt (hf k hne) (fun c _ => hit_gives hplain) fun _ => ?_
    exact ih fun g hg => h g (by simp [hg])

theorem operator_fits : operator.Fits := by
  apply firstOf_fits
  simp only [List.forall_mem_cons]
  exact ⟨try3_spells (by decide), try3_spells (by decide), try2_spells (by decide),
    try2_spells (by decide), try2_spells (by decide), try2_spells (by decide),
    try2_spells (by decide), try2_spells (by decide), try2_spells (by decide),
    try2_spells (by decide), nofun⟩

theorem isPlain_of_punctuation? {b : UInt8} {kind : Kind} (h : punctuation? b = some kind)
    (text : Bytes) : kind.IsPlain text := by
  unfold punctuation? at h
  split at h <;> cases h <;> exact Kind.isPlain (by decide) text

theorem punctuation_fits : punctuation.Fits := by
  intro k hne
  refine .attempt (Scan.try2_gives _ _) (fun c _ => hit_gives (Kind.isPlain (by decide) _)) fun _ => ?_
  refine .look Scan.run_peek ?_
  cases hkind : punctuation? (k.rest.headD 0) with
  | none => exact miss_gives (s := [])
  | some kind =>
    exact Scan.bump_gives.bind fun _ s c _ _ => hit_gives (isPlain_of_punctuation? hkind s)

theorem builtin_fits : ∀ m ∈ builtin, Fits m := by
  simp only [builtin, List.forall_mem_cons]
  exact ⟨whitespace_fits, comment_fits, string_fits, number_fits, name_fits, operator_fits,
    punctuation_fits, nofun⟩

end Matcher

theorem TypeScript.template_fits : Matcher.Fits template := by
  intro k hne
  refine .look Scan.run_peek ?_
  split
  · exact Matcher.quoted_gives _ _
  · exact Matcher.miss_gives (s := [])

end Uml
