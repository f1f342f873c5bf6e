import Mathlib
import Uml.Proofs.Parser.Enclosed

/-!
# What a parser makes is what the tokens say

A parser that reports no error has read what it makes off the significant tokens: every bracket and
every string is that of the link which the notation gives it to, and no token is passed unread.
-/
namespace Uml

open Std.Do

set_option mvcgen.warning false

theorem Kind.isEntityKeyword_of_isEntityModifier {k : Kind} (h : k.isEntityModifier = true) :
    k.isEntityKeyword = false := by
  revert h
  cases k <;> decide

namespace Stream

variable {s s' : Stream}

/-! ## Brackets before an operator -/

theorem scanBracket_upcoming {opener closer : Token} {inner ts : List Token} (hs : s.Sound)
    (h : s.upcoming = inner ++ closer :: ts) (hinner : ∀ t ∈ inner, opener.IsWithin t)
    (hcloser : closer.kind = .rbracket) {k : Nat} (hk : inner.length < k) :
    s.scanBracket k 0 = some (inner.length + 1) := by
  obtain ⟨us, hus⟩ := exists_upcoming hs
  obtain ⟨k, rfl⟩ := Nat.exists_eq_succ_of_ne_zero (Nat.ne_zero_of_lt hk)
  induction inner generalizing s k us with
  | nil =>
    have hpeek : s.kindAt 0 = .rbracket := by
      rw [hus] at h
      exact (congrArg Token.kind (List.cons.inj h).1).trans hcloser
    simp [scanBracket, hpeek]
  | cons t inner ih =>
    have hpeek : s.peek = t := by
      rw [hus] at h
      exact (List.cons.inj h).1
    have ht := (hinner t (by simp)).kind
    have heof : s.peek.kind ≠ .eof := fun heof => ht (by simp [← hpeek, heof])
    rw [upcoming_next hs heof] at h
    have hsound := ((reaches_next s).sound hs).1
    obtain ⟨vs, hvs⟩ := exists_upcoming hsound
    obtain ⟨k, rfl⟩ := Nat.exists_eq_succ_of_ne_zero (Nat.ne_of_gt (Nat.lt_of_le_of_lt (Nat.zero_le _) (Nat.lt_of_succ_lt_succ hk)))
    have hrest := ih hsound (List.cons.inj h).2 (fun u hu => hinner u (by simp [hu])) vs hvs k
      (Nat.lt_of_succ_lt_succ hk)
    have hkind : s.kindAt 0 = t.kind := congrArg Token.kind hpeek
    simp only [List.mem_cons, List.not_mem_nil, or_false, not_or] at ht
    rw [scanBracket]
    split
    · simp_all
    · simp_all
    · simp_all
    · simp_all
    · simp_all
    · rw [scanBracket_next hs heof, hrest]
      rfl

/-- Brackets that a look ahead passes have the token behind them ahead of it. -/
theorem multThenOperator_upcoming {opener closer : Token} {inner ts : List Token} (hs : s.Sound)
    (h : s.upcoming = opener :: (inner ++ closer :: ts)) (hopener : opener.kind = .lbracket)
    (hinner : ∀ t ∈ inner, opener.IsWithin t) (hcloser : closer.kind = .rbracket)
    (hlength : inner.length < maxBracket) :
    s.multThenOperator = (headKind ts).isRelationship := by
  obtain ⟨us, hus⟩ := exists_upcoming hs
  have hpeek : s.peek.kind = .lbracket := by
    rw [hus] at h
    exact (List.cons.inj h).1 ▸ hopener
  have heof : s.peek.kind ≠ .eof := by simp [hpeek]
  have hnext : s.next.2.upcoming = inner ++ closer :: ts := by
    rw [upcoming_next hs heof] at h
    exact (List.cons.inj h).2
  have hscan := scanBracket_upcoming ((reaches_next s).sound hs).1 hnext hinner hcloser hlength
  have hmult : s.scanMult 0 = inner.length + 2 := by
    have hzero : s.kindAt 0 = .lbracket := hpeek
    simp only [scanMult, hzero]
    rw [scanBracket_next hs heof, hscan]
    rfl
  have hkind : s.kindAt (inner.length + 2) = headKind ts := by
    have hpre : ∀ t ∈ opener :: (inner ++ [closer]), t.kind ≠ .eof := by
      intro t ht heof
      rcases List.mem_cons.1 ht with rfl | ht
      · simp [hopener] at heof
      rcases List.mem_append.1 ht with ht | ht
      · exact (hinner t ht).kind (by simp [heof])
      · simp [List.mem_singleton.1 ht, hcloser] at heof
    have hsplit : s.upcoming = (opener :: (inner ++ [closer])) ++ ts := by simp [h]
    simpa using kindAt_upcoming hs hsplit hpre
  simp [multThenOperator, hmult, hkind]

/-- Behind modifiers, if there are any, the keyword of an entity is ahead. -/
def LeadsToEntity (s : Stream) : Prop :=
  ∃ fuel, (s.kindAt (s.scanModifiers fuel 0)).isEntityKeyword = true

theorem LeadsToEntity.next (h : s.LeadsToEntity) (hs : s.Sound)
    (hpeek : s.peek.kind.isEntityModifier = true) : s.next.2.LeadsToEntity := by
  obtain ⟨fuel, hfuel⟩ := h
  have hzero : (s.kindAt 0).isEntityModifier = true := hpeek
  have heof : s.peek.kind ≠ .eof := by
    rintro heof
    simp [heof, Kind.isEntityModifier] at hpeek
  cases fuel with
  | zero =>
    rw [scanModifiers, Kind.isEntityKeyword_of_isEntityModifier hzero] at hfuel
    cases hfuel
  | succ fuel =>
    rw [scanModifiers, if_pos hzero, scanModifiers_next hs heof, ← kindAt_next hs heof] at hfuel
    exact ⟨fuel, hfuel⟩

theorem LeadsToEntity.keyword (h : s.LeadsToEntity) (hpeek : s.peek.kind.isEntityModifier = false) :
    s.peek.kind.isEntityKeyword = true := by
  obtain ⟨fuel, hfuel⟩ := h
  have hzero : (s.kindAt 0).isEntityModifier = false := hpeek
  have hscan : s.scanModifiers fuel 0 = 0 := by cases fuel <;> simp [scanModifiers, hzero]
  rwa [hscan] at hfuel

theorem leadsToEntity_of_canStart (h : s.canStartEntity = true) : s.LeadsToEntity := by
  unfold canStartEntity entityKeywordAt? at h
  dsimp only at h
  split at h
  · exact ⟨_, ‹_›⟩
  · cases h

def PassesOnly (p : Token → Prop) (s s' : Stream) : Prop :=
  ∃ ts, s.upcoming = ts ++ s'.upcoming ∧ ∀ t ∈ ts, p t

variable {p : Token → Prop}

@[grind .] theorem PassesOnly.refl (p : Token → Prop) (s : Stream) : s.PassesOnly p s := ⟨[], by simp⟩

@[grind →] theorem PassesOnly.trans {a b c : Stream} (h : a.PassesOnly p b) (h' : b.PassesOnly p c) :
    a.PassesOnly p c := by
  obtain ⟨ts, hts, hall⟩ := h
  obtain ⟨us, hus, hall'⟩ := h'
  exact ⟨ts ++ us, by rw [hts, hus, List.append_assoc], List.forall_mem_append.2 ⟨hall, hall'⟩⟩

theorem PassesOnly.of_cons {t : Token} (h : s.upcoming = t :: s'.upcoming) (ht : p t) : s.PassesOnly p s' :=
  ⟨[t], by simpa using h, by simpa using ht⟩

/-- What is passed is no relationship operator. -/
abbrev PassesPlain (s s' : Stream) : Prop := s.PassesOnly (fun t => t.isRelationship = false) s'

end Stream

/-! ## Names and ends -/

@[grind →] theorem Token.isRelationship_of_isWord {t : Token} (h : t.isWord = true) :
    t.kind.isRelationship = false := by
  unfold isWord Kind.isWord at h
  revert h
  cases t.kind <;> decide

theorem ReadsSegments.passes_plain {path path' : Bytes × Span} {before after : List Token}
    (h : ReadsSegments path before path' after) :
    ∃ ts, before = ts ++ after ∧ ∀ t ∈ ts, t.isRelationship = false := by
  induction h with
  | nil => exact ⟨[], by simp⟩
  | @cons _ _ dot word _ _ _ hdot hword _ ih =>
    obtain ⟨ts, rfl, hall⟩ := ih
    refine ⟨dot :: word :: ts, rfl, List.forall_mem_cons.2 ⟨?_, List.forall_mem_cons.2 ⟨?_, hall⟩⟩⟩
    · simp [Token.isRelationship, hdot, Kind.isRelationship]
    · exact Token.isRelationship_of_isWord hword

theorem ReadsPath.passesPlain {s s' : Stream} {path : Bytes × Span}
    (h : ReadsPath s.upcoming path s'.upcoming) : s.PassesPlain s' := by
  generalize hbefore : s.upcoming = before at h
  cases h with
  | @intro first before _ _ hfirst hsegments =>
    obtain ⟨ts, rfl, hall⟩ := hsegments.passes_plain
    refine ⟨first :: ts, hbefore, List.forall_mem_cons.2 ⟨?_, hall⟩⟩
    simp [Token.isRelationship, hfirst, Kind.isRelationship]

structure ParseState.ReadyIn (file : File) (s : ParseState) : Prop extends s.Ready where
  file_eq : s.file = file

@[grind →] theorem ParseState.Moves.readyIn {file : File} {a b : ParseState} (h : a.Moves b)
    (ha : a.ReadyIn file) : b.ReadyIn file :=
  ⟨h.ready ha.toReady, h.file.trans ha.file_eq⟩

namespace Parse

open ParseState

attribute [local spec high] advanceRaw_moves reset_moves report_moves reportFailure_moves

@[local spec high] theorem advance_sourced (s : ParseState) :
    ⦃fun st => ⌜st = s⌝⦄ advance
    ⦃⇓ t st => ⌜t = s.stream.peek ∧ st.stream = s.stream.next.2 ∧ s.Moves st
      ∧ (s.Ready → t.kind ≠ .eof →
        s.stream.upcoming = t :: st.stream.upcoming ∧ st.stream.half = false)⌝⦄ := by
  obtain ⟨hpeek, hstream, hmoves⟩ := triple_iff_run.1 (advance_moves s)
  refine triple_iff_run.2 ⟨hpeek, hstream, hmoves, fun hs ht => ?_⟩
  rw [hpeek] at ht ⊢
  rw [hstream]
  exact ⟨Stream.upcoming_next hs.sound ht, Stream.half_next hs.sound ht⟩

@[local spec high] theorem eat?_sourced (k : Kind) (s : ParseState) :
    ⦃fun st => ⌜st = s⌝⦄ eat? k
    ⦃⇓ found st => ⌜s.Moves st
      ∧ (found.isSome = true → s.stream.peek.kind = k ∧ found = some s.stream.peek
        ∧ (s.Ready → k ≠ .eof →
          s.stream.upcoming = s.stream.peek :: st.stream.upcoming ∧ st.stream.half = false))
      ∧ (found.isSome = false → s.stream.peek.kind ≠ k ∧ st.stream = s.stream)⌝⦄ := by
  have hmoves := triple_iff_run.1 (eat?_moves k s)
  obtain ⟨-, hsome, hnone⟩ := triple_iff_run.1 (eat?_spec k s)
  refine triple_iff_run.2 ⟨hmoves, fun hfound => ?_, hnone⟩
  obtain ⟨hkind, heq, hstream, -⟩ := hsome hfound
  refine ⟨hkind, heq, fun hs hk => ?_⟩
  rw [hstream]
  exact ⟨Stream.upcoming_next hs.sound (hkind ▸ hk), Stream.half_next hs.sound (hkind ▸ hk)⟩

theorem pathRound_sourced {path : Bytes × Span} {before : List Token} {s : ParseState} (hs : s.Ready)
    (v : Bytes × Span) (h : ReadsSegments path before v s.stream.upcoming) (hhalf : s.stream.half = false) :
    ⦃fun st => ⌜st = s⌝⦄ pathRound v
    ⦃⇓ r st => ⌜Leaves (fun v st => ReadsSegments path before v st.stream.upcoming ∧ st.stream.half = false)
      (fun v st => ReadsSegments path before v st.stream.upcoming ∧ st.stream.half = false) r st⌝⦄ := by
  have hnext := fun hpeek => Stream.peekAt_next hs.sound hpeek 0
  unfold pathRound
  refine triple_intro fun Q hQ => ?_
  mvcgen <;> grind -linarith [Leaves, ReadsSegments.snoc, Stream.isAt, Stream.peek]

@[local spec high] theorem path?_sourced (s : ParseState) :
    ⦃fun st => ⌜st = s⌝⦄ path?
    ⦃⇓ found st => ⌜s.Moves st ∧ (found = none → st.stream = s.stream)
      ∧ (s.Ready → ∀ path, found = some path →
        ReadsPath s.stream.upcoming path st.stream.upcoming ∧ st.stream.half = false)⌝⦄ := by
  have hloop : ∀ v (s : ParseState), ⦃fun st => ⌜st = s⌝⦄ loop v pathRound
      ⦃⇓ v' st => ⌜s.Moves st ∧ (s.Ready → s.stream.half = false →
        ReadsSegments v s.stream.upcoming v' st.stream.upcoming ∧ st.stream.half = false)⌝⦄ := by
    intro v s
    have hreads := triple_iff_run.1 (loop_leaves pathRound_spec
      (fun v' st => ReadsSegments v s.stream.upcoming v' st.stream.upcoming ∧ st.stream.half = false)
      (fun v' st => ReadsSegments v s.stream.upcoming v' st.stream.upcoming ∧ st.stream.half = false) s
      (fun v' st _ hs hI => pathRound_sourced hs v' hI.1 hI.2) v)
    exact triple_iff_run.2 ⟨hreads.1, fun hs hhalf => hreads.2 hs ⟨.nil _ _, hhalf⟩⟩
  unfold path?
  refine triple_intro fun Q hQ => ?_
  mvcgen [hloop] <;> grind -linarith [ReadsPath]

@[local spec high] theorem endpoint?_sourced (s : ParseState) :
    ⦃fun st => ⌜st = s⌝⦄ endpoint?
    ⦃⇓ found st => ⌜s.Moves st ∧ (s.Ready → ∀ e, found = some e →
      e.Reads s.stream.upcoming st.stream.upcoming ∧ st.stream.half = false)⌝⦄ := by
  unfold endpoint?
  refine triple_intro fun Q hQ => ?_
  mvcgen <;> grind -linarith [Endpoint.Reads, Stream.isAt]

/-! ## Multiplicities and labels -/

/-- Behind the tokens of a bracket that is open. -/
def InBrackets (opener : Token) (before : List Token) (s : Stream) : Prop :=
  ∃ inner, before = inner ++ s.upcoming ∧ ∀ t ∈ inner, opener.IsWithin t

theorem InBrackets.next {opener : Token} {before : List Token} {s : Stream} (h : InBrackets opener before s)
    (hs : s.Sound) (hpeek : opener.IsWithin s.peek) : InBrackets opener before s.next.2 := by
  obtain ⟨inner, rfl, hinner⟩ := h
  have heof : s.peek.kind ≠ .eof := fun heof => hpeek.kind (by simp [heof])
  refine ⟨inner ++ [s.peek], by simp [Stream.upcoming_next hs heof], ?_⟩
  exact List.forall_mem_append.2 ⟨hinner, by simpa using hpeek⟩

theorem InBrackets.reads {opener : Token} {before : List Token} {s : Stream} (h : InBrackets opener before s)
    (hs : s.Sound) (hopener : opener.kind = .lbracket) (hpeek : s.peek.kind = .rbracket) (file : File) :
    RawMult.ReadsTokens file (opener :: before)
      ⟨(file.text ⟨opener.span.file, opener.span.stop, s.peek.span.start⟩).trim,
        opener.span.cover s.peek.span⟩ s.next.2.upcoming := by
  obtain ⟨inner, rfl, hinner⟩ := h
  rw [Stream.upcoming_next hs (by simp [hpeek])]
  exact .bracketed hopener hinner hpeek

theorem bracketRound_sourced {opener : Token} (hopener : opener.kind = .lbracket) {before : List Token}
    {file start : File} {s : ParseState} (hs : s.Ready) (hfile : s.file = start) (m : RawMult)
    (h : InBrackets opener before s.stream) :
    ⦃fun st => ⌜st = s⌝⦄ bracketRound opener m
    ⦃⇓ r st => ⌜Leaves (fun _ st => InBrackets opener before st.stream)
      (fun m st => start = file → st.errors = 0 →
        RawMult.ReadsTokens file (opener :: before) m st.stream.upcoming) r st⌝⦄ := by
  have hnext := h.next hs.sound
  have hreads := fun hpeek => h.reads hs.sound hopener hpeek file
  unfold bracketRound
  refine triple_intro fun Q hQ => ?_
  mvcgen [unclosedMult, innerText] <;>
    grind -linarith [Leaves, Diagnostic.error, Token.IsWithin, Moves]

theorem mult_reads_text (file : File) (s : ParseState) :
    ⦃fun st => ⌜st = s⌝⦄ mult
    ⦃⇓ m st => ⌜s.Moves st ∧ (s.ReadyIn file → st.errors = 0 →
      RawMult.ReadsTokens file s.stream.upcoming m st.stream.upcoming)⌝⦄ := by
  have hloop : ∀ opener (s : ParseState), ⦃fun st => ⌜st = s⌝⦄ loop {} (bracketRound opener)
      ⦃⇓ m st => ⌜s.Moves st ∧ (s.ReadyIn file → opener.kind = .lbracket → st.errors = 0 →
        RawMult.ReadsTokens file (opener :: s.stream.upcoming) m st.stream.upcoming)⌝⦄ := by
    intro opener s
    by_cases hopener : opener.kind = .lbracket
    · have hreads := triple_iff_run.1 (loop_leaves (bracketRound_spec opener)
        (fun _ st => InBrackets opener s.stream.upcoming st.stream)
        (fun m st => s.file = file → st.errors = 0 →
          RawMult.ReadsTokens file (opener :: s.stream.upcoming) m st.stream.upcoming) s
        (fun m st hmoves hs hI => bracketRound_sourced hopener hs hmoves.file m hI) {})
      exact triple_iff_run.2 ⟨hreads.1, fun hs _ => hreads.2 hs.toReady ⟨[], by simp⟩ hs.file_eq⟩
    · have hmoves := moves_spec (loop {} (bracketRound opener))
        (.of_spec (loop_reaches (bracketRound_spec opener) _)) s
      exact triple_iff_run.2 ⟨triple_iff_run.1 hmoves, fun _ h => absurd h hopener⟩
  unfold mult bracketed
  refine triple_intro fun Q hQ => ?_
  mvcgen [hloop] <;> grind -linarith [RawMult.ReadsTokens, ReadyIn, Ready]

@[local spec high] theorem mult_sourced (file : File) (s : ParseState) :
    ⦃fun st => ⌜st = s⌝⦄ mult
    ⦃⇓ m st => ⌜s.Moves st
      ∧ (s.ReadyIn file → st.errors = 0 → RawMult.ReadsTokens file s.stream.upcoming m st.stream.upcoming)
      ∧ (s.Ready → s.stream.peek.isRelationship = true ∨ s.stream.multThenOperator = true →
        st.errors = 0 → st.stream.peek.isRelationship = true)⌝⦄ := by
  have hreads := triple_iff_run.1 (mult_reads_text file s)
  exact triple_iff_run.2 ⟨hreads.1, hreads.2, (triple_iff_run.1 (mult_closes s)).2⟩

/-- A bracket behind a target belongs to it, unless an operator follows. -/
theorem readsTarget_behind {file : File} {s s' : Stream} {ahead m : RawMult} (hs : s.Sound)
    (hahead : ahead.isPresent = false) (hbracket : s.peek.kind = .lbracket)
    (hno : s.multThenOperator = false) (hm : RawMult.ReadsTokens file s.upcoming m s'.upcoming) :
    RawMult.ReadsTarget file ahead s.upcoming m s'.upcoming := by
  refine .behind hahead (by rw [Stream.headKind_upcoming hs, hbracket]) hm fun hlength => ?_
  generalize hbefore : s.upcoming = before at hm hlength
  obtain ⟨ts, hts⟩ := Stream.exists_upcoming hs
  cases hm with
  | none _ h => exact absurd (by rw [← hbefore, Stream.headKind_upcoming hs, hbracket]) h
  | quoted ht =>
    rw [hts] at hbefore
    rw [← (List.cons.inj hbefore).1, hbracket] at ht
    cases ht
  | @bracketed opener closer inner _ hopener hinner hcloser =>
    rw [← Stream.multThenOperator_upcoming hs hbefore hopener hinner hcloser, hno]
    simp only [List.length_cons, List.length_append] at hlength
    omega

@[local spec high] theorem linkLabel_sourced (s : ParseState) :
    ⦃fun st => ⌜st = s⌝⦄ linkLabel
    ⦃⇓ label st => ⌜s.Moves st ∧ (s.Ready → Link.ReadsLabel s.stream.upcoming label st.stream.upcoming)⌝⦄ := by
  have hsecond : s.Ready → s.stream.peek.kind = .string →
      s.stream.kindAt 1 = headKind s.stream.upcoming.tail := fun hs hpeek =>
    Stream.kindAt_one hs.sound (by simp [hpeek])
  unfold linkLabel
  refine triple_intro fun Q hQ => ?_
  mvcgen <;> grind -linarith [Link.ReadsLabel, Ready, Stream.isAt]

/-! ## Links -/

variable {file : File} {g : Grammar} [g.IsForward] [g.IsBlind]

@[local spec high] theorem closeBrace_sourced (opener : Token) (what : Bytes) (s : ParseState) :
    ⦃fun st => ⌜st = s⌝⦄ closeBrace opener what
    ⦃⇓ _ st => ⌜s.Moves st ∧ (s.Ready → st.errors = 0 → s.stream.peek.kind = .rbrace
      ∧ s.stream.upcoming = s.stream.peek :: st.stream.upcoming)⌝⦄ := by
  unfold closeBrace
  refine triple_intro fun Q hQ => ?_
  mvcgen <;> grind -linarith [Diagnostic.error]

/-- Between two braces stands what has its own braces in pairs. -/
theorem readsBody_braces {s s' : ParseState} {opener : Token} {members : List Member} {after : List Token}
    (hs : s.Ready) (hhalf : s.stream.half = false) (h : s.Encloses s') (herrors : s'.errors = 0)
    (hopener : opener.kind = .lbrace) (hcloser : s'.stream.peek.kind = .rbrace)
    (hafter : s'.stream.upcoming = s'.stream.peek :: after) :
    ReadsBody (opener :: s.stream.upcoming) members after := by
  have hhalf' := Stream.half_of_peek (h.moves.ready hs).sound (by simp [hcloser])
  obtain ⟨inner, hupcoming, hinner⟩ :=
    (h.inside hs herrors).upcoming hs.sound (by simp [hcloser]) hhalf hhalf'
  rw [hupcoming, hafter]
  exact .braces hopener hinner hcloser

variable [g.IsEnclosed]

@[local spec high] theorem entityBody_sourced (kind : EntityKind) (name : Bytes) (s : ParseState) :
    ⦃fun st => ⌜st = s⌝⦄ entityBody g kind name
    ⦃⇓ members st => ⌜s.Moves st ∧ (s.Ready → s.stream.peek.kind = .lbrace → st.errors = 0 →
      ReadsBody s.stream.upcoming members st.stream.upcoming)⌝⦄ := by
  have hlist := memberList_encloses (g := g)
  unfold entityBody
  refine triple_intro fun Q hQ => ?_
  mvcgen [hlist, -memberList_spec]
  grind -linarith [readsBody_braces, Ready, Moves]

/-- A step over braces and what they hold, if there are any. -/
def TakesBody (s : ParseState) (members : List Member) (st : ParseState) : Prop :=
  s.Moves st ∧ (s.Ready → st.errors = 0 → ReadsBody s.stream.upcoming members st.stream.upcoming)

theorem takesBody_braces (kind : EntityKind) (name : Bytes) {s : ParseState}
    (h : s.stream.isAt .lbrace = true) :
    ⦃fun st => ⌜st = s⌝⦄ entityBody g kind name ⦃⇓ members st => ⌜TakesBody s members st⌝⦄ := by
  have hbody := triple_iff_run.1 (entityBody_sourced (g := g) kind name s)
  exact triple_iff_run.2 ⟨hbody.1, fun hs => hbody.2 hs (of_decide_eq_true h)⟩

theorem takesBody_none {s : ParseState} (h : ¬s.stream.isAt .lbrace = true) : TakesBody s [] s := by
  refine ⟨.refl _, fun hs _ => .none fun hkind => h (decide_eq_true ?_)⟩
  rwa [Stream.headKind_upcoming hs.sound] at hkind

section

variable {α β : Type} {x : Parse α} {f : α → Parse β} {Q : β → ParseState → Prop} {s : ParseState}

theorem triple_bind {P : α → ParseState → Prop}
    (hx : ⦃fun st => ⌜st = s⌝⦄ x ⦃⇓ a st => ⌜P a st⌝⦄)
    (hf : ∀ a st, P a st → ⦃fun st' => ⌜st' = st⌝⦄ f a ⦃⇓ b st' => ⌜Q b st'⌝⦄) :
    ⦃fun st => ⌜st = s⌝⦄ (x >>= f) ⦃⇓ b st => ⌜Q b st⌝⦄ := by
  rw [triple_iff_run, run_bind]
  exact triple_iff_run.1 (hf _ _ (triple_iff_run.1 hx))

theorem triple_look {a : α} (hx : x.run s = (a, s))
    (hf : ⦃fun st => ⌜st = s⌝⦄ f a ⦃⇓ b st => ⌜Q b st⌝⦄) :
    ⦃fun st => ⌜st = s⌝⦄ (x >>= f) ⦃⇓ b st => ⌜Q b st⌝⦄ := by
  rw [triple_iff_run, run_bind, hx]
  exact triple_iff_run.1 hf

/-- A step that is taken on a condition, and what follows either way. -/
theorem triple_optional {c : Prop} [Decidable c] {a : α} {P : α → ParseState → Prop}
    (hx : c → ⦃fun st => ⌜st = s⌝⦄ x ⦃⇓ a st => ⌜P a st⌝⦄) (ha : ¬c → P a s)
    (hf : ∀ a st, P a st → ⦃fun st' => ⌜st' = st⌝⦄ f a ⦃⇓ b st' => ⌜Q b st'⌝⦄) :
    ⦃fun st => ⌜st = s⌝⦄ (if c then x >>= f else pure a >>= f) ⦃⇓ b st => ⌜Q b st⌝⦄ := by
  split
  · exact triple_bind (hx ‹_›) hf
  · exact hf a s (ha ‹_›)

theorem triple_pure {a : α} {R : α → ParseState → Prop} (h : R a s) :
    ⦃fun st => ⌜st = s⌝⦄ (pure a : Parse α) ⦃⇓ a st => ⌜R a st⌝⦄ :=
  triple_iff_run.2 h

end

/-- A link that is read from its operator on, when its source multiplicity is read already. -/
theorem Link.reads_steps {s s₁ s₂ s₃ s₄ s₅ : ParseState} {op : Token} {fromMult ahead toMult : RawMult}
    {target : Endpoint} {label : Bytes} {members : List Member} {span : Span} (hs : s.ReadyIn file)
    (h₁ : op = s.stream.peek ∧ s₁.stream = s.stream.next.2 ∧ s.Moves s₁ ∧ (s.Ready → op.kind ≠ .eof →
      s.stream.upcoming = op :: s₁.stream.upcoming ∧ s₁.stream.half = false))
    (h₂ : s₁.Moves s₂ ∧ (s₁.ReadyIn file → s₂.errors = 0 →
      RawMult.ReadsTokens file s₁.stream.upcoming ahead s₂.stream.upcoming))
    (h₃ : s₂.Moves s₃ ∧ (s₂.Ready → target.Reads s₂.stream.upcoming s₃.stream.upcoming))
    (h₄ : s₃.Moves s₄ ∧ (s₃.ReadyIn file → s₄.errors = 0 →
      RawMult.ReadsTarget file ahead s₃.stream.upcoming toMult s₄.stream.upcoming))
    (h₅ : s₄.Moves s₅ ∧ (s₄.Ready → Link.ReadsLabel s₄.stream.upcoming label s₅.stream.upcoming))
    (hoperator : s.stream.peek.isRelationship = true) (herrors : s₅.errors = 0) {before : List Token}
    (hfrom : RawMult.ReadsTokens file before fromMult s.stream.upcoming) :
    Link.Reads file before
      { op := op.kind, opSpan := op.span, fromMult, toMult, target, label, members, span }
      s₅.stream.upcoming := by
  obtain ⟨rfl, -, hmoves₁, hop⟩ := h₁
  have hs₁ := hmoves₁.readyIn hs
  have hs₂ := h₂.1.readyIn hs₁
  have hs₃ := h₃.1.readyIn hs₂
  have hs₄ := h₄.1.readyIn hs₃
  have herrors₄ := h₅.1.errors_eq herrors
  have herrors₂ := h₃.1.errors_eq (h₄.1.errors_eq herrors₄)
  rw [(hop hs.toReady (Token.kind_ne_eof_of_isRelationship hoperator)).1] at hfrom
  exact .intro hfrom hoperator rfl rfl (h₂.2 hs₁ herrors₂) (h₃.2 hs₂.toReady) (h₄.2 hs₃ herrors₄)
    (h₅.2 hs₄.toReady)

variable (file) in
theorem header_sourced (s : ParseState) :
    ⦃fun st => ⌜st = s⌝⦄ header
    ⦃⇓ found st => ⌜s.Moves st ∧ (s.ReadyIn file → s.stream.peek.isRelationship = true
        ∨ s.stream.multThenOperator = true → st.errors = 0 →
      ∀ l, found = .ok l → Link.ReadsHeader file s.stream.upcoming l st.stream.upcoming)⌝⦄ := by
  unfold header
  refine triple_look (a := s.stream.peek) rfl ?_
  refine triple_bind (mult_sourced file s) fun fromMult s₁ h₁ => ?_
  refine triple_bind (advance_sourced s₁) fun op s₂ h₂ => ?_
  refine triple_bind (mult_sourced file s₂) fun ahead s₃ h₃ => ?_
  refine triple_bind (endpoint?_sourced s₃) fun target s₄ h₄ => ?_
  have hmoves₄ : s.Moves s₄ := h₁.1.trans (h₂.2.2.1.trans (h₃.1.trans h₄.1))
  cases target with
  | none =>
    refine triple_intro fun Q hQ => ?_
    mvcgen
    grind -linarith
  | some target =>
    refine triple_look (a := s₄.stream.isAt .lbracket) rfl ?_
    refine triple_look (a := s₄.stream.peek.isRelationship || s₄.stream.multThenOperator) rfl ?_
    refine triple_optional (P := fun toMult s₅ => s₄.Moves s₅ ∧ (s₄.ReadyIn file → s₅.errors = 0 →
      RawMult.ReadsTarget file ahead s₄.stream.upcoming toMult s₅.stream.upcoming))
      (fun hown => ?_) (fun _ => ⟨.refl _, fun _ _ => .ahead _⟩) fun toMult s₅ h₅ => ?_
    · simp only [Bool.and_eq_true, Bool.not_eq_true', Bool.or_eq_false_iff, Stream.isAt,
        decide_eq_true_eq] at hown
      obtain ⟨⟨hbracket, -, hno⟩, hahead⟩ := hown
      have hmult := triple_iff_run.1 (mult_sourced file s₄)
      exact triple_iff_run.2 ⟨hmult.1, fun hs herrors =>
        readsTarget_behind hs.sound hahead hbracket hno (hmult.2.1 hs herrors)⟩
    · refine triple_bind (linkLabel_sourced s₅) fun label s₆ h₆ => ?_
      refine triple_look (a := s.stream.peek.span.cover s₆.stream.last) rfl (triple_pure ?_)
      refine ⟨hmoves₄.trans (h₅.1.trans h₆.1), fun hs hat herrors l hl => ?_⟩
      obtain rfl := Except.ok.inj hl
      have herrors₁ : s₁.errors = 0 := by grind
      refine ⟨Link.reads_steps (h₁.1.readyIn hs) h₂ ⟨h₃.1, h₃.2.1⟩ ⟨h₄.1, fun hs => (h₄.2 hs _ rfl).1⟩
        h₅ h₆ (h₁.2.2 hs.toReady hat herrors₁) herrors (h₁.2.1 hs herrors₁), rfl⟩

variable (file) in
@[local spec high] theorem headers_sourced (s : ParseState) :
    ⦃fun st => ⌜st = s⌝⦄ headers
    ⦃⇓ found st => ⌜s.Moves st ∧ (s.ReadyIn file → st.errors = 0 → ∀ links, found = .ok links →
      ReadsEach (Link.ReadsHeader file) s.stream.upcoming links st.stream.upcoming)⌝⦄ := by
  have hround : ∀ v (st : ParseState), ⦃fun st' => ⌜st' = st⌝⦄ headerRound v
      ⦃⇓ r st' => ⌜st.Moves st' ∧ ∀ before, st.ReadyIn file → st'.errors = 0 →
        (∀ links, v = .ok links → ReadsEach (Link.ReadsHeader file) before links st.stream.upcoming) →
        ∀ links, r.value = .ok links →
          ReadsEach (Link.ReadsHeader file) before links st'.stream.upcoming⌝⦄ := by
    intro v st
    have hheader := header_sourced file
    unfold headerRound
    refine triple_intro fun Q hQ => ?_
    mvcgen [hheader, -header_spec] <;> grind -linarith [ReadsEach.snoc]
  refine loop_keeps (fun (v : Except Failure (List Link)) st => s.Moves st ∧ (s.ReadyIn file →
    st.errors = 0 → ∀ links, v = .ok links → ReadsEach (Link.ReadsHeader file) s.stream.upcoming links st.stream.upcoming)) (fun v st hI => ?_)
    ⟨.refl _, fun _ _ links hlinks => ?_⟩
  · obtain ⟨hmoves, hreads⟩ := triple_iff_run.1 (hround v st)
    refine triple_iff_run.2 ⟨hI.1.trans hmoves, fun hs herrors => ?_⟩
    exact hreads _ (hI.1.readyIn hs) herrors (hI.2 hs (hmoves.errors_eq herrors))
  · cases hlinks
    exact .nil _

/-- Behind a link nothing is read, or the source multiplicity of the link whose operator is ahead. -/
def Pends (file : File) (before : List Token) (m : RawMult) (s : Stream) : Prop :=
  before = s.upcoming ∧ m = {} ∨ RawMult.ReadsTokens file before m s.upcoming ∧ s.peek.isRelationship = true

theorem Pends.reads {before : List Token} {m : RawMult} {s : Stream} (h : Pends file before m s)
    (hs : s.Sound) (hat : s.peek.isRelationship = true) : RawMult.ReadsTokens file before m s.upcoming := by
  obtain ⟨rfl, rfl⟩ | ⟨h, -⟩ := h
  · have hkind := Stream.headKind_upcoming hs
    refine .none ?_ ?_
    all_goals
      rw [hkind]
      intro heq
      simp [Token.isRelationship, heq, Kind.isRelationship] at hat
  · exact h

theorem Pends.upcoming {before : List Token} {m : RawMult} {s : Stream} (h : Pends file before m s)
    (hat : s.peek.isRelationship = false) : before = s.upcoming := by
  obtain ⟨h, -⟩ | ⟨-, h⟩ := h
  · exact h
  · simp [hat] at h

variable (file) in
theorem chainLink_sourced (fromMult : RawMult) (s : ParseState) :
    ⦃fun st => ⌜st = s⌝⦄ chainLink g fromMult
    ⦃⇓ found st => ⌜s.Moves st ∧ (s.ReadyIn file → s.stream.peek.isRelationship = true →
      st.errors = 0 → ∀ before, RawMult.ReadsTokens file before fromMult s.stream.upcoming →
      ∀ l m, found = .ok (l, m) → ∃ mid, l.ReadsChain file before mid ∧ Pends file mid m st.stream)⌝⦄ := by
  unfold chainLink
  refine triple_bind (advance_sourced s) fun op s₁ h₁ => ?_
  refine triple_bind (mult_sourced file s₁) fun ahead s₂ h₂ => ?_
  refine triple_bind (endpoint?_sourced s₂) fun target s₃ h₃ => ?_
  have hmoves₃ : s.Moves s₃ := h₁.2.2.1.trans (h₂.1.trans h₃.1)
  cases target with
  | none =>
    refine triple_intro fun Q hQ => ?_
    mvcgen
    grind -linarith
  | some target =>
    refine triple_look (a := s₃.stream) rfl ?_
    refine triple_optional (P := fun toMult s₄ => s₃.Moves s₄ ∧ (s₃.ReadyIn file → s₄.errors = 0 →
      RawMult.ReadsTarget file ahead s₃.stream.upcoming toMult s₄.stream.upcoming))
      (fun hown => ?_) (fun _ => ⟨.refl _, fun _ _ => .ahead _⟩) fun toMult s₄ h₄ => ?_
    · simp only [Bool.and_eq_true, Bool.not_eq_true', Stream.isAt, decide_eq_true_eq] at hown
      obtain ⟨⟨⟨hbracket, hahead⟩, -⟩, hno⟩ := hown
      have hmult := triple_iff_run.1 (mult_sourced file s₃)
      exact triple_iff_run.2 ⟨hmult.1, fun hs herrors =>
        readsTarget_behind hs.sound hahead hbracket hno (hmult.2.1 hs herrors)⟩
    refine triple_bind (linkLabel_sourced s₄) fun label s₅ h₅ => ?_
    refine triple_look (a := s₅.stream.isAt .lbrace) rfl ?_
    refine triple_optional (P := TakesBody s₅) (takesBody_braces .cls target.name) takesBody_none
      fun members s₆ h₆ => ?_
    refine triple_look (a := s₆.stream) rfl ?_
    refine triple_optional (P := fun pending s₇ => s₆.Moves s₇ ∧ (s₆.ReadyIn file → s₇.errors = 0 →
      Pends file s₆.stream.upcoming pending s₇.stream))
      (fun hat => ?_) (fun _ => ⟨.refl _, fun _ _ => .inl ⟨rfl, rfl⟩⟩) fun pending s₇ h₇ => ?_
    · have hmult := triple_iff_run.1 (mult_sourced file s₆)
      exact triple_iff_run.2 ⟨hmult.1, fun hs herrors =>
        .inr ⟨hmult.2.1 hs herrors, hmult.2.2 hs.toReady (.inr hat) herrors⟩⟩
    refine triple_look (a := op.span.cover s₇.stream.last) rfl (triple_pure ?_)
    have hmoves₅ : s.Moves s₅ := hmoves₃.trans (h₄.1.trans h₅.1)
    refine ⟨hmoves₅.trans (h₆.1.trans h₇.1), fun hs hat herrors before hfrom l m hl => ?_⟩
    cases hl
    have herrors₆ := h₇.1.errors_eq herrors
    have hs₅ := hmoves₅.readyIn hs
    exact ⟨_, ⟨_, Link.reads_steps hs h₁ ⟨h₂.1, h₂.2.1⟩ ⟨h₃.1, fun hs => (h₃.2 hs _ rfl).1⟩ h₄ h₅ hat
      (h₆.1.errors_eq herrors₆) hfrom, h₆.2 hs₅.toReady herrors₆⟩, h₇.2 (h₆.1.readyIn hs₅) herrors⟩

/-- Links that are read already, and what pends behind them. -/
def ChainReads (file : File) (before : List Token) :
    Except Failure (List Link × RawMult) → ParseState → Prop
  | .ok (links, pending), s => s.errors = 0 → ∃ mid,
    ReadsEach (Link.ReadsChain file) before links mid ∧ Pends file mid pending s.stream
  | .error _, _ => True

theorem chainRound_sourced {before : List Token} {s : ParseState} (hs : s.ReadyIn file)
    (v : Except Failure (List Link × RawMult)) (h : ChainReads file before v s) :
    ⦃fun st => ⌜st = s⌝⦄ chainRound g v
    ⦃⇓ r st => ⌜Leaves (ChainReads file before) (fun v st => st.errors = 0 → ∀ links m, v = .ok (links, m) →
      ReadsEach (Link.ReadsChain file) before links st.stream.upcoming) r st⌝⦄ := by
  obtain why | ⟨links, pending⟩ := v
  · exact triple_iff_run.2 fun _ _ _ hlinks => nomatch hlinks
  · have hlink := chainLink_sourced (g := g) file pending
    unfold chainRound
    refine triple_intro fun Q hQ => ?_
    mvcgen [hlink, -chainLink_spec]
    case vc1 st hst hno =>
      subst hst
      refine hQ _ _ fun herrors links m heq => ?_
      obtain ⟨rfl, rfl⟩ := Prod.mk.inj (Except.ok.inj heq)
      obtain ⟨mid, hlinks, hpends⟩ := h herrors
      rwa [hpends.upcoming (by simpa using hno)] at hlinks
    case vc2 => exact hQ _ _ fun _ _ _ heq => nomatch heq
    case vc3 st hst hat found link pending' hfound st₁ h₁ =>
      subst hst
      have hoperator : st.stream.peek.isRelationship = true := by simpa using hat
      refine hQ _ _ fun herrors => ?_
      obtain ⟨mid, hlinks, hpends⟩ := h (h₁.1.errors_eq herrors)
      obtain ⟨mid', hlink', hpends'⟩ := h₁.2 hs hoperator herrors mid (hpends.reads hs.sound hoperator)
        link pending' rfl
      exact ⟨mid', hlinks.snoc hlink', hpends'⟩

variable (file) in
@[local spec high] theorem chain_sourced (fromMult : RawMult) (s : ParseState) :
    ⦃fun st => ⌜st = s⌝⦄ chain g fromMult
    ⦃⇓ found st => ⌜s.Moves st ∧ (s.ReadyIn file → s.stream.peek.isRelationship = true →
      st.errors = 0 → ∀ before, RawMult.ReadsTokens file before fromMult s.stream.upcoming →
      ∀ links, found = .ok links → ReadsEach (Link.ReadsChain file) before links st.stream.upcoming)⌝⦄ := by
  have hloop : ⦃fun st => ⌜st = s⌝⦄ loop (.ok ([], fromMult)) (chainRound g)
      ⦃⇓ v st => ⌜s.Moves st ∧ (s.ReadyIn file → s.stream.peek.isRelationship = true →
        st.errors = 0 → ∀ before, RawMult.ReadsTokens file before fromMult s.stream.upcoming →
        ∀ links m, v = .ok (links, m) → ReadsEach (Link.ReadsChain file) before links st.stream.upcoming)⌝⦄ := by
    have hmoves := triple_iff_run.1 (moves_spec (loop (.ok ([], fromMult)) (chainRound g))
      (.of_spec (loop_reaches chainRound_goes _)) s)
    refine triple_iff_run.2 ⟨hmoves, fun hs hat herrors before hfrom => ?_⟩
    have hreads := triple_iff_run.1 (loop_leaves (chainRound_goes (g := g)) (ChainReads file before)
      (fun v st => st.errors = 0 → ∀ links m, v = .ok (links, m) →
        ReadsEach (Link.ReadsChain file) before links st.stream.upcoming) s
      (fun v st hmoves _ hI => chainRound_sourced (hmoves.readyIn hs) v hI) (.ok ([], fromMult)))
    exact hreads.2 hs.toReady (fun _ => ⟨before, .nil _, .inr ⟨hfrom, hat⟩⟩) herrors
  unfold chain
  refine triple_intro fun Q hQ => ?_
  mvcgen [hloop]
  rename_i found st h
  refine hQ _ _ h.1 fun hs hat herrors before hfrom links hlinks => ?_
  cases found with
  | error why => cases hlinks
  | ok found => exact h.2 hs hat herrors before hfrom links found.2 (by cases hlinks; rfl)

end Parse
end Uml
