import Mathlib
import Uml.Proofs.Parser.Termination
import Uml.Proofs.Syntax.Layout
import Uml.Proofs.Syntax.Seen

/-!
# Two streams side by side

A text is part of another one, so the tokens of the one stand among the tokens of the other, further back
and on later lines. Where the first text ends, the second one ends too, or it goes on behind a semicolon.
Looking ahead finds the same in both, up to places and up to that end.
-/
namespace Uml

/-- The span `n` bytes further back. -/
def Span.shift (s : Span) (n : Nat) : Span := ⟨s.file, s.start + n, s.stop + n⟩

/-- The token `bytes` further back and `lines` further down. -/
def Token.shift (t : Token) (bytes lines : Nat) : Token :=
  { t with span := t.span.shift bytes, position := { t.position with line := t.position.line + lines } }

/-- What two runs of a parser have to do with each other. -/
structure Twin where
  file : File
  file' : File
  /-- How many bytes further back the second text has the same. -/
  bytes : Nat
  /-- How many lines further down the second text has the same. -/
  lines : Nat
  /-- The tokens of the first text, and its end. -/
  tokens : List Token
  eof : Token
  /-- What the second stream has behind it when the first one starts. -/
  past : List Token
  /-- What the second stream has ahead where the first one ends. -/
  tail : List Token
  /-- How many nodes the second run has made when the first one starts. -/
  statements : Nat
  types : Nat
  members : Nat
  /-- The second text goes on behind a semicolon. The runs are compared up to the first report. -/
  isCut : Prop

namespace Twin

/-- How the second run sees what the first one makes. -/
def view (T : Twin) : View where
  span s := s.shift T.bytes
  mult m := if m = {} then {} else { m with span := m.span.shift T.bytes }
  type n := T.types + n
  -- a member without a number has none in either run
  member n := if n = 0 then 0 else T.members + n
  statement n := T.statements + n

def token (T : Twin) (t : Token) : Token :=
  { t with span := T.view.span t.span, position := { t.position with line := t.position.line + T.lines } }

def rest (T : Twin) (ts : List Token) : List Token := ts.dropLast.map T.token ++ T.tail

def image (T : Twin) (s : Stream) : Stream where
  past := s.past.map T.token ++ T.past
  rest := T.rest s.rest
  half := s.half
  last := T.view.span s.last

/-- The second text holds what the first one does. -/
class Lawful (T : Twin) : Prop where
  line : ∀ n ≤ T.file.content.size, (T.file'.position (n + T.bytes)).line = (T.file.position n).line + T.lines
  text : ∀ s : Span, s.stop ≤ T.file.content.size → T.file'.text (s.shift T.bytes) = T.file.text s
  fits : ∀ t ∈ T.tokens, t.Fits T.file
  kind : ∀ t ∈ T.tokens, t.kind ≠ .eof
  kind_eof : T.eof.kind = .eof
  tail : T.isCut ∧ (∃ t ts, T.tail = t :: ts ∧ t.kind = .semicolon) ∨ ¬T.isCut ∧ T.tail = [T.token T.eof]

/-- Streams that stand at the same place, whatever was taken last. -/
structure Weak (T : Twin) (s s' : Stream) : Prop where
  laid : s.Laid T.file
  tokens : s.tokens = T.tokens ++ [T.eof]
  eq : s' = { T.image s with last := s'.last }

/-- Streams that stand at the same place, behind a token. -/
structure Full (T : Twin) (s s' : Stream) : Prop extends Weak T s s' where
  last : s'.last = T.view.span s.last
  pos : 0 < s.last.stop
  behind : ∃ t ∈ s.past, t.isTrivia = false

/-- A kind of token that neither ends a file nor parts two documents. -/
def isInner (k : Kind) : Bool := k ≠ .eof && k ≠ .semicolon

theorem ne_of_isInner {k : Kind} (h : isInner k = true) : k ≠ .eof ∧ k ≠ .semicolon := by
  simpa [isInner] using h

variable {T : Twin} {s s' u u' : Stream}

@[simp] theorem token_kind (t : Token) : (T.token t).kind = t.kind := rfl

@[simp] theorem token_text (t : Token) : (T.token t).text = t.text := rfl

@[simp] theorem token_span (t : Token) : (T.token t).span = seen T.view t.span := rfl

@[simp] theorem token_describe (t : Token) : (T.token t).describe = t.describe := rfl

@[simp] theorem token_isTrivia (t : Token) : (T.token t).isTrivia = t.isTrivia := rfl

@[simp] theorem token_isWord (t : Token) : (T.token t).isWord = t.isWord := rfl

@[simp] theorem token_isRelationship (t : Token) : (T.token t).isRelationship = t.isRelationship := rfl

theorem secondHalf_token (t : Token) : Stream.secondHalf (T.token t) = T.token (Stream.secondHalf t) := by
  simp [Stream.secondHalf, token, view, Span.shift, Nat.add_right_comm]

theorem firstHalf_token (t : Token) : Stream.firstHalf (T.token t) = T.token (Stream.firstHalf t) := by
  simp [Stream.firstHalf, token, view, Span.shift, Nat.add_right_comm]

@[simp] theorem seen_cover (a b : Span) : seen T.view (a.cover b) = (seen T.view a).cover (seen T.view b) := by
  show (a.cover b).shift _ = (a.shift _).cover (b.shift _)
  unfold Span.cover Span.shift
  split <;> simp [*, Nat.add_min_add_right, Nat.add_max_add_right]

@[simp] theorem seen_noMult : seen T.view ({} : RawMult) = {} := rfl

theorem seen_mult (raw : Bytes) {a : Span} (h : 0 < a.stop) : seen T.view (RawMult.mk raw a) = ⟨raw, seen T.view a⟩ :=
  if_neg fun heq => by
    rw [show a = {} from congrArg RawMult.span heq] at h
    exact Nat.lt_irrefl 0 h

@[simp] theorem isPresent_seen (m : RawMult) : (seen T.view m).isPresent = m.isPresent := by
  show (ite _ _ _ : RawMult).isPresent = _
  split_ifs with h
  · rw [h]
  · rfl

theorem stop_cover_pos {a b : Span} (h : 0 < a.stop) : 0 < (a.cover b).stop := by
  unfold Span.cover
  split
  · exact h.trans_le (Nat.le_max_left _ _)
  · exact h

/-! ## What is ahead -/

theorem rest_cons (t : Token) {ts : List Token} (h : ts ≠ []) : T.rest (t :: ts) = T.token t :: T.rest ts := by
  simp [rest, List.dropLast_cons_of_ne_nil h]

theorem rest_append (cs : List Token) {ts : List Token} (h : ts ≠ []) :
    T.rest (cs ++ ts) = cs.map T.token ++ T.rest ts := by
  simp [rest, List.dropLast_append_of_ne_nil h]

theorem skipTrivia_of_head {t : Token} (h : t.isTrivia = false) (past rest : List Token) :
    Stream.skipTrivia past (t :: rest) = (past, t :: rest) := by
  cases rest <;> simp [Stream.skipTrivia, h]

theorem skipTrivia_append {cs : List Token} (hcs : ∀ t ∈ cs, t.isTrivia = true) {t : Token} (h : t.isTrivia = false)
    (past rest : List Token) :
    Stream.skipTrivia past (cs ++ t :: rest) = (cs.reverse ++ past, t :: rest) := by
  induction cs generalizing past with
  | nil => exact skipTrivia_of_head h past rest
  | cons c cs ih =>
    rw [List.cons_append, Stream.skipTrivia, if_pos (hcs c (by simp)), ih fun t ht => hcs t (by simp [ht])]
    · simp
    · simp

theorem ahead_cons (t : Token) {ts : List Token} (h : ts ≠ []) (n : Nat) :
    Stream.ahead (t :: ts) n = if t.isTrivia then Stream.ahead ts n else if t.kind = .eof then t else
      match n with
      | 0 => t
      | n + 1 => Stream.ahead ts n := by
  cases ts with
  | nil => exact absurd rfl h
  | cons u ts => cases n <;> rfl

section

variable [T.Lawful]

theorem tail_head : ∃ t ts, T.tail = t :: ts ∧ t.isTrivia = false := by
  obtain ⟨-, t, ts, h, hkind⟩ | ⟨-, h⟩ := Lawful.tail (T := T)
  · exact ⟨t, ts, h, by simp [Token.isTrivia, hkind, Kind.isTrivia]⟩
  · exact ⟨_, _, h, by simp [Token.isTrivia, Lawful.kind_eof, Kind.isTrivia]⟩

theorem tail_ne_nil : T.tail ≠ [] := by
  obtain ⟨t, ts, h, -⟩ := tail_head (T := T)
  simp [h]

/-- A look ahead finds the same, up to the end of the first text. -/
theorem ahead_rest {ts : List Token} (h : ∀ t ∈ ts, t.kind ≠ .eof) (n : Nat) :
    (Stream.ahead (ts.map T.token ++ T.tail) n = T.token (Stream.ahead (ts ++ [T.eof]) n)
        ∧ ((Stream.ahead (ts ++ [T.eof]) n).kind ≠ .eof ∨ ¬T.isCut))
      ∨ T.isCut ∧ (Stream.ahead (ts ++ [T.eof]) n).kind = .eof
        ∧ ((∀ m < n, (Stream.ahead (ts ++ [T.eof]) m).kind ≠ .eof) →
          (Stream.ahead (ts.map T.token ++ T.tail) n).kind = .semicolon) := by
  induction ts generalizing n with
  | nil =>
    obtain ⟨hcut, t, ts, htail, hkind⟩ | ⟨hcut, htail⟩ := Lawful.tail (T := T)
    · refine .inr ⟨hcut, Lawful.kind_eof, fun hn => ?_⟩
      obtain rfl : n = 0 := by
        by_contra hpos
        exact hn 0 (Nat.pos_of_ne_zero hpos) Lawful.kind_eof
      have htrivia : t.isTrivia = false := by simp [Token.isTrivia, hkind, Kind.isTrivia]
      cases ts <;> simp [htail, Stream.ahead, htrivia, hkind]
    · exact .inl ⟨by simp [htail, Stream.ahead], .inr hcut⟩
  | cons t ts ih =>
    obtain ⟨hkind, hts⟩ := List.forall_mem_cons.1 h
    have htail : ts.map T.token ++ T.tail ≠ [] := by simp [tail_ne_nil]
    have hend : ts ++ [T.eof] ≠ [] := by simp
    simp only [List.map_cons, List.cons_append, ahead_cons _ htail, ahead_cons _ hend, token_isTrivia, token_kind]
    by_cases htrivia : t.isTrivia = true
    · simpa only [htrivia, if_true] using ih hts n
    · simp only [htrivia, hkind, if_false, Bool.false_eq_true]
      cases n with
      | zero => exact .inl ⟨rfl, .inl hkind⟩
      | succ n =>
        obtain hsame | ⟨hcut, heof, hsemi⟩ := ih hts n
        · exact .inl hsame
        · exact .inr ⟨hcut, heof, fun hn => hsemi fun m hm => hn (m + 1) (by omega)⟩

namespace Weak

omit [T.Lawful] in
theorem sound (h : T.Weak s s') : s.Sound := h.laid.toSound

/-- The end of the first text is the last that is ahead, and no other end is. -/
theorem rest_eq (h : T.Weak s s') : ∃ ts, s.rest = ts ++ [T.eof] ∧ ∀ t ∈ ts, t.kind ≠ .eof := by
  have htokens := h.tokens
  rw [Stream.tokens, ← List.dropLast_append_getLast h.sound.rest_ne_nil, ← List.append_assoc] at htokens
  obtain ⟨hinit, hlast⟩ := List.append_inj' htokens rfl
  refine ⟨s.rest.dropLast, ?_, fun t ht => Lawful.kind (T := T) t (hinit ▸ by simp [ht])⟩
  rw [← List.singleton_inj.1 hlast, List.dropLast_append_getLast]

omit [T.Lawful] in
theorem rest' (h : T.Weak s s') : s'.rest = T.rest s.rest := by rw [h.eq]; rfl

omit [T.Lawful] in
theorem past' (h : T.Weak s s') : s'.past = s.past.map T.token ++ T.past := by rw [h.eq]; rfl

omit [T.Lawful] in
theorem half' (h : T.Weak s s') : s'.half = s.half := by rw [h.eq]; rfl

theorem length_le (h : T.Weak s s') : s.rest.length ≤ s'.rest.length := by
  obtain ⟨ts, hrest, -⟩ := h.rest_eq
  have := List.length_pos_iff.2 (tail_ne_nil (T := T))
  simp [h.rest', hrest, rest]
  omega

/-- The same token, or the end of the first text and a semicolon. -/
theorem peekAt (h : T.Weak s s') (n : Nat) (hn : ∀ m < n, s.kindAt m ≠ .eof) :
    s'.peekAt n = T.token (s.peekAt n) ∧ (s.kindAt n ≠ .eof ∨ ¬T.isCut)
      ∨ T.isCut ∧ s.kindAt n = .eof ∧ s'.kindAt n = .semicolon := by
  obtain ⟨ts, hrest, hts⟩ := h.rest_eq
  have hrest' : s'.rest = ts.map T.token ++ T.tail := by simp [h.rest', hrest, rest]
  unfold Stream.kindAt at hn ⊢
  unfold Stream.peekAt at hn ⊢
  rw [h.half']
  cases hhalf : s.half with
  | false =>
    simp only [hhalf, Bool.false_eq_true, if_false, hrest, hrest'] at hn ⊢
    obtain hsame | ⟨hcut, heof, hsemi⟩ := ahead_rest (T := T) hts n
    · exact .inl hsame
    · exact .inr ⟨hcut, heof, hsemi hn⟩
  | true =>
    obtain ⟨t, more, hshr, hkind⟩ := h.sound.half hhalf
    cases ts with
    | nil =>
      rw [hrest, List.nil_append, List.cons.injEq] at hshr
      exact absurd (hshr.1 ▸ Lawful.kind_eof) (by simp [hkind])
    | cons t ts =>
      simp only [hhalf, if_true, hrest, hrest', List.cons_append, List.map_cons] at hn ⊢
      cases n with
      | zero => exact .inl ⟨secondHalf_token t, .inl (by simp [Stream.secondHalf])⟩
      | succ n =>
        obtain hsame | ⟨hcut, heof, hsemi⟩ := ahead_rest (T := T) (List.forall_mem_cons.1 hts).2 n
        · exact .inl hsame
        · exact .inr ⟨hcut, heof, hsemi fun m hm => hn (m + 1) (by omega)⟩

theorem peek (h : T.Weak s s') : s'.peek = T.token s.peek ∧ (s.peek.kind ≠ .eof ∨ ¬T.isCut)
    ∨ T.isCut ∧ s.peek.kind = .eof ∧ s'.peek.kind = .semicolon :=
  h.peekAt 0 nofun

theorem peek_eq (h : T.Weak s s') (hne : s.peek.kind ≠ .eof) : s'.peek = T.token s.peek :=
  h.peek.elim (·.1) fun ⟨_, heof, _⟩ => absurd heof hne

/-- What does not tell the end of a file from a semicolon is the same. -/
theorem kindAt_congr {α : Type} (h : T.Weak s s') (f : Kind → α) (hf : f .eof = f .semicolon) {n : Nat}
    (hn : ∀ m < n, s.kindAt m ≠ .eof) : f (s'.kindAt n) = f (s.kindAt n) := by
  obtain ⟨heq, -⟩ | ⟨-, heof, hsemi⟩ := h.peekAt n hn
  · rw [Stream.kindAt, heq]
    rfl
  · rw [heof, hsemi, hf]

theorem kindAt_iff (h : T.Weak s s') {k : Kind} {n : Nat} (hn : ∀ m < n, s.kindAt m ≠ .eof)
    (hk : isInner k = true) : s'.kindAt n = k ↔ s.kindAt n = k :=
  iff_of_eq (h.kindAt_congr (· = k) (by simp [(ne_of_isInner hk).1.symm, (ne_of_isInner hk).2.symm]) hn)

theorem wordAt (h : T.Weak s s') {n : Nat} (hn : ∀ m < n, s.kindAt m ≠ .eof) : s'.wordAt n = s.wordAt n :=
  h.kindAt_congr Kind.isWord rfl hn

theorem isAt (h : T.Weak s s') (k : Kind) (hk : isInner k = true) : s'.isAt k = s.isAt k :=
  h.kindAt_congr (fun l => decide (l = k)) (by simp [(ne_of_isInner hk).1.symm, (ne_of_isInner hk).2.symm]) nofun

theorem isAtAny (h : T.Weak s s') (ks : List Kind) (hks : ks.contains .eof = ks.contains .semicolon) :
    s'.isAtAny ks = s.isAtAny ks :=
  h.kindAt_congr ks.contains hks nofun

omit [T.Lawful] in
theorem movedFrom (h : T.Weak s s') (hu : T.Weak u u') : s'.movedFrom u' = s.movedFrom u := by
  have hindex : s'.index ≠ u'.index ↔ s.index ≠ u.index := by simp [Stream.index, h.past', hu.past']
  simp only [Stream.movedFrom, hindex, h.half', hu.half']

theorem peek_of_not_cut (h : T.Weak s s') (hcut : ¬T.isCut) : s'.peek = T.token s.peek :=
  h.peek.elim (·.1) fun hno => absurd hno.1 hcut

omit [T.Lawful] in
theorem mono (h : T.Weak s s') (hreach : s.Reaches u) (heq : u' = { T.image u with last := u'.last }) :
    T.Weak u u' :=
  ⟨(hreach.extends h.laid).laid, hreach.tokens.trans h.tokens, heq⟩

end Weak

/-! ## Taking tokens -/

omit [T.Lawful] in
theorem Weak.nextRaw (h : T.Weak s s') (hne : s.peekRaw.kind ≠ .eof) :
    s'.peekRaw = T.token s.peekRaw ∧ T.Weak s.nextRaw.2 s'.nextRaw.2
      ∧ s'.nextRaw.2.last = T.view.span s.nextRaw.2.last ∧ 0 < s.nextRaw.2.last.stop := by
  obtain ⟨t, more, hrest, hkind, hnext⟩ := Stream.nextRaw_token h.sound hne
  have hsound := h.sound.nextRaw
  have hfits := h.laid.peekRaw_fits.start_lt hne
  rw [hnext] at hsound ⊢
  have hrest' : s'.rest = T.token t :: T.rest more := by rw [h.rest', hrest, rest_cons t hsound.rest_ne_nil]
  have hraw : s'.peekRaw = T.token s.peekRaw := by
    simp only [Stream.peekRaw, hrest, hrest', h.half']
    cases s.half
    · rfl
    · exact secondHalf_token t
  have hnext' : s'.nextRaw = (T.token s.peekRaw,
      { past := T.token t :: s'.past, rest := T.rest more, last := T.view.span s.peekRaw.span }) := by
    rw [← hraw]
    unfold Stream.nextRaw Stream.peekRaw at *
    simp only [hrest', hrest, h.half'] at *
    cases hhalf : s.half <;> simp_all [token]
  refine ⟨hraw, ?_, by rw [hnext'], by dsimp only; omega⟩
  rw [hnext']
  refine h.mono (hnext ▸ Stream.reaches_nextRaw s) ?_
  rw [h.eq]
  rfl

theorem Weak.atNext (h : T.Weak s s') : T.Weak s.atNext s'.atNext := by
  cases hhalf : s.half with
  | true => simpa [Stream.atNext, hhalf, h.half'] using h
  | false =>
    obtain ⟨cs, hrest, hpast, hcs, hhead⟩ := Stream.skipTrivia_spec s.past s.rest
    obtain ⟨more, hmore⟩ := hhead h.sound.rest_ne_nil
    have htrivia : (Stream.ahead s.rest 0).isTrivia = false := Stream.ahead_not_trivia h.sound.ahead
    have hrest' : s'.rest = cs.map T.token ++ T.rest (Stream.ahead s.rest 0 :: more) := by
      have hne : (Stream.skipTrivia s.past s.rest).2 ≠ [] := by simp [hmore]
      rw [h.rest', ← hmore, ← rest_append cs hne, ← hrest]
    obtain ⟨t, ts, hts, ht⟩ : ∃ t ts, T.rest (Stream.ahead s.rest 0 :: more) = t :: ts ∧ t.isTrivia = false := by
      cases more with
      | nil => exact tail_head
      | cons u more => exact ⟨_, _, rest_cons _ (by simp), htrivia⟩
    have hskip : Stream.skipTrivia s'.past (cs.map T.token ++ t :: ts) = _ :=
      skipTrivia_append (by simpa using hcs) ht s'.past ts
    refine ⟨h.laid.atNext, s.tokens_atNext.trans h.tokens, ?_⟩
    simp only [Stream.atNext, hhalf, h.half', Bool.false_eq_true, if_false, hrest', hts, hskip]
    rw [image]
    simp [hmore, hts, hpast, h.past']

theorem Weak.peekRaw_eof (h : T.Weak s s') (heof : s.peekRaw.kind = .eof) :
    s.peek = s.peekRaw ∧ s'.peek = s'.peekRaw := by
  obtain ⟨ts, hts, hkind⟩ := h.rest_eq
  have hhalf : s.half = false := by
    cases hhalf : s.half with
    | false => rfl
    | true =>
      obtain ⟨t, more, hrest, -⟩ := h.sound.half hhalf
      simp [Stream.peekRaw, hrest, hhalf, Stream.secondHalf] at heof
  obtain rfl : ts = [] := by
    cases ts with
    | nil => rfl
    | cons t ts =>
      rw [Stream.peekRaw, hts, hhalf] at heof
      exact absurd heof (hkind t List.mem_cons_self)
  obtain ⟨t, more, htail, htrivia⟩ := tail_head (T := T)
  have hrest' : s'.rest = t :: more := by rw [h.rest', hts, ← htail]; rfl
  have hraw' : s'.peekRaw = t := by rw [Stream.peekRaw, hrest', h.half', hhalf]; rfl
  refine ⟨Stream.peek_eq_peekRaw (by simp [heof]) (by simp [heof]), ?_⟩
  apply Stream.peek_eq_peekRaw <;>
  · rw [hraw']
    exact fun hkind => by simp [Token.isTrivia, hkind, Kind.isTrivia] at htrivia

/-- The token ahead, comments included, or the end of the first text and a semicolon. -/
theorem Weak.peekRaw (h : T.Weak s s') : s'.peekRaw = T.token s.peekRaw ∧ (s.peekRaw.kind ≠ .eof ∨ ¬T.isCut)
    ∨ T.isCut ∧ s.peekRaw.kind = .eof ∧ s'.peekRaw.kind = .semicolon := by
  by_cases heof : s.peekRaw.kind = .eof
  · obtain ⟨hraw, hraw'⟩ := h.peekRaw_eof heof
    rw [← hraw, ← hraw']
    exact h.peek
  · exact .inl ⟨(h.nextRaw heof).1, .inl heof⟩

theorem Weak.next (h : T.Weak s s') (hne : s.peek.kind ≠ .eof) :
    s'.peek = T.token s.peek ∧ T.Full s.next.2 s'.next.2 := by
  have hraw : s.atNext.peekRaw.kind ≠ .eof := by rwa [← Stream.peek_eq]
  obtain ⟨-, hweak, hlast, hpos⟩ := h.atNext.nextRaw hraw
  rw [Stream.next_eq, Stream.next_eq]
  refine ⟨h.peek_eq hne, hweak, hlast, hpos, ?_⟩
  obtain ⟨t, more, hrest, -, hnext⟩ := Stream.nextRaw_token h.sound.atNext hraw
  rw [hnext]
  refine ⟨t, List.mem_cons_self, ?_⟩
  cases hhalf : s.atNext.half with
  | true =>
    obtain ⟨t', more', hshr, hkind⟩ := h.sound.atNext.half hhalf
    cases hrest.symm.trans hshr
    simp [Token.isTrivia, hkind, Kind.isTrivia]
  | false =>
    have hpeek : s.peek = t := by rw [Stream.peek_eq, Stream.peekRaw, hrest, hhalf]; rfl
    exact hpeek ▸ h.sound.peek_not_trivia

namespace Full

omit [T.Lawful] in
theorem nextRaw (h : T.Full s s') (hne : s.peekRaw.kind ≠ .eof) : T.Full s.nextRaw.2 s'.nextRaw.2 := by
  obtain ⟨-, hweak, hlast, hpos⟩ := h.toWeak.nextRaw hne
  refine ⟨hweak, hlast, hpos, ?_⟩
  obtain ⟨t, more, -, -, hnext⟩ := Stream.nextRaw_token h.sound hne
  obtain ⟨u, hu, htrivia⟩ := h.behind
  exact ⟨u, by rw [hnext]; exact List.mem_cons_of_mem _ hu, htrivia⟩

omit [T.Lawful] in
/-- The token passed last that is no comment. -/
theorem lastSignificant (h : T.Full s s') : s'.lastSignificant = T.view.span s.lastSignificant := by
  obtain ⟨t, ht, htrivia⟩ := h.behind
  obtain ⟨u, hu⟩ := Option.isSome_iff_exists.1
    (List.find?_isSome (p := fun t : Token => !t.isTrivia).2 ⟨t, ht, by simp [htrivia]⟩)
  have hu' : (s.past.map T.token ++ T.past).find? (!·.isTrivia) = some (T.token u) := by
    rw [List.find?_append, List.find?_map, show (fun t : Token => !t.isTrivia) ∘ T.token = (!·.isTrivia) from rfl, hu]
    rfl
  rw [Stream.lastSignificant, Stream.lastSignificant, h.past', hu, hu']
  rfl

theorem lastSignificant_le (h : T.Full s s') : s.lastSignificant.start ≤ T.file.content.size := by
  unfold Stream.lastSignificant
  split
  · next t ht =>
    have hmem := List.mem_of_find?_eq_some ht
    have hall : t ∈ T.tokens ++ [T.eof] := h.tokens ▸ by simp [Stream.tokens, hmem]
    have hkind := h.sound.behind t hmem
    have hfits := Lawful.fits (T := T) t (by
      rw [List.mem_append, List.mem_singleton] at hall
      exact hall.resolve_right fun heq => hkind (heq ▸ Lawful.kind_eof))
    exact hfits.start_le.trans hfits.stop_le
  · exact Nat.zero_le _

omit [T.Lawful] in
theorem last_le (h : T.Full s s') : s.last.stop ≤ T.file.content.size :=
  h.laid.last_le.trans (h.laid.peekRaw_fits.start_le.trans h.laid.peekRaw_fits.stop_le)

end Full

theorem split?_eq (s : Stream) : s.split? = if s.half || !s.isAt .inherit then none else
    match s.atNext.rest with
    | [] => none
    | t :: _ => some (Stream.firstHalf t, { s.atNext with half := true, last := (Stream.firstHalf t).span }) := by
  unfold Stream.split? Stream.atNext
  cases s.half <;> rfl

/-- The first half of a `>>` is taken in both streams, or in neither. -/
theorem Full.split (h : T.Full s s') : s.split? = none ∧ s'.split? = none
    ∨ ∃ t u t' u', s.split? = some (t, u) ∧ s'.split? = some (t', u') ∧ T.Full u u' := by
  have hnext := h.toWeak.atNext
  obtain ⟨ts, hts, -⟩ := hnext.rest_eq
  by_cases hno : (s.half || !s.isAt .inherit) = true
  · exact .inl ⟨by rw [split?_eq, if_pos hno], by rw [split?_eq, h.half', h.isAt .inherit rfl, if_pos hno]⟩
  · have hne : s.peek.kind ≠ .eof := by
      intro heof
      simp [Stream.isAt, heof] at hno
    obtain ⟨t, more, hrest, hkind, -⟩ := Stream.nextRaw_token h.sound.atNext (by rwa [← Stream.peek_eq])
    have hmore : more ≠ [] := by
      rintro rfl
      obtain ⟨rfl, hlast⟩ := @List.append_inj' _ [] _ _ _ (hrest.symm.trans hts) rfl
      exact hkind (List.singleton_inj.1 hlast ▸ Lawful.kind_eof)
    have hrest' : s'.atNext.rest = T.token t :: T.rest more := by rw [hnext.rest', hrest, rest_cons t hmore]
    have hsplit : s.split?
        = some (Stream.firstHalf t, { s.atNext with half := true, last := (Stream.firstHalf t).span }) := by
      rw [split?_eq, if_neg hno, hrest]
    refine .inr ⟨_, _, _, _, hsplit, by rw [split?_eq, h.half', h.isAt .inherit rfl, if_neg hno, hrest'], ?_⟩
    have hlaid := (h.laid.extends_split hsplit).laid
    refine ⟨⟨hlaid, (Stream.tokens_split hsplit).trans h.tokens, ?_⟩, ?_, Nat.succ_pos _, ?_⟩
    · rw [hnext.eq]
      simp [image]
    · rw [firstHalf_token]
      rfl
    · obtain ⟨comments, -, hpast, -⟩ := s.atNext_spec
      obtain ⟨u, hu, htrivia⟩ := h.behind
      exact ⟨u, by simp [hpast, hu], htrivia⟩

end
end Twin
end Uml

/-!
# Scans side by side

A scan looks ahead token by token. It finds the same in both streams, except that a bracket that the first
text does not close may be closed behind the semicolon.
-/
namespace Uml.Twin

open Uml.Stream

variable {T : Twin} [T.Lawful] {s s' : Stream}

theorem ahead_eof_of_le {ts : List Token} {m n : Nat} (h : (ahead ts m).kind = .eof) (hmn : m ≤ n) :
    (ahead ts n).kind = .eof := by
  induction ts generalizing m n with
  | nil => exact h
  | cons t ts ih =>
    by_cases hne : ts = []
    · subst hne
      exact h
    · rw [ahead_cons t hne] at h ⊢
      split_ifs at h ⊢ with htrivia hkind
      · exact ih h hmn
      · exact hkind
      · cases m with
        | zero => exact absurd h hkind
        | succ m =>
          obtain ⟨n, rfl⟩ := Nat.exists_eq_add_of_le' (Nat.lt_of_lt_of_le (Nat.succ_pos m) hmn)
          exact ih h (Nat.le_of_succ_le_succ hmn)

theorem kindAt_eof_of_le (hs : s.Sound) {m n : Nat} (h : s.kindAt m = .eof) (hmn : m ≤ n) : s.kindAt n = .eof := by
  unfold kindAt peekAt at h ⊢
  cases hhalf : s.half with
  | false =>
    simp only [hhalf, Bool.false_eq_true, if_false] at h ⊢
    exact ahead_eof_of_le h hmn
  | true =>
    obtain ⟨t, more, hrest, -⟩ := hs.half hhalf
    simp only [hhalf, if_true, hrest] at h ⊢
    cases m with
    | zero => cases h
    | succ m =>
      obtain ⟨n, rfl⟩ := Nat.exists_eq_add_of_le' (Nat.lt_of_lt_of_le (Nat.succ_pos m) hmn)
      exact ahead_eof_of_le h (Nat.le_of_succ_le_succ hmn)

omit [T.Lawful] in
theorem kindAt_of_peekAt {n : Nat} (h : s'.peekAt n = T.token (s.peekAt n)) : s'.kindAt n = s.kindAt n := by
  rw [kindAt, h]
  rfl

/-- The next `n` tokens are neither the end of the file nor a closing brace. -/
def Clear (s : Stream) (n : Nat) : Prop := ∀ m < n, s.kindAt m ≠ .eof ∧ s.kindAt m ≠ .rbrace

/-- No token of kind `k` is ahead. -/
def Lacks (k : Kind) (s : Stream) : Prop := ∀ n, s.kindAt n ≠ k

theorem Clear.ne_eof {n : Nat} (h : Clear s n) : ∀ m < n, s.kindAt m ≠ .eof := fun m hm => (h m hm).1

theorem clear_zero : Clear s 0 := nofun

theorem Clear.succ {n : Nat} (h : Clear s n) (heof : s.kindAt n ≠ .eof) (hbrace : s.kindAt n ≠ .rbrace) :
    Clear s (n + 1) := fun m hm =>
  (Nat.lt_succ_iff_lt_or_eq.1 hm).elim (h m) fun heq => heq ▸ ⟨heof, hbrace⟩

theorem Clear.word {n : Nat} (h : Clear s n) (hword : s.wordAt n = true) : Clear s (n + 1) :=
  h.succ
    (fun heq => by
      simp [wordAt, Token.isWord, show (s.peekAt n).kind = .eof from heq, Kind.isWord, Kind.isKeyword] at hword)
    fun heq => by
      simp [wordAt, Token.isWord, show (s.peekAt n).kind = .rbrace from heq, Kind.isWord, Kind.isKeyword] at hword

theorem Weak.test_behind (h : T.Weak s s') {n : Nat} (hn : Clear s n) (k : Kind) (f : Kind → Bool)
    (hf : f .eof = f .semicolon) (hin : isInner k = true) :
    (decide (s'.kindAt n = k) && f (s'.kindAt (n + 1))) = (decide (s.kindAt n = k) && f (s.kindAt (n + 1))) := by
  rw [decide_eq_decide.2 (h.kindAt_iff hn.ne_eof hin)]
  by_cases hk : s.kindAt n = k
  · rw [h.kindAt_congr f hf fun m hm => ?_]
    rcases Nat.lt_succ_iff_lt_or_eq.1 hm with hm | rfl
    · exact hn.ne_eof m hm
    · exact hk ▸ (ne_of_isInner hin).1
  · simp [hk]

theorem Weak.scanSegments (h : T.Weak s s') {n : Nat} (hn : Clear s n) (fuel : Nat) :
    s'.scanSegments fuel n = s.scanSegments fuel n ∧ Clear s (s.scanSegments fuel n) := by
  induction fuel generalizing n with
  | zero => exact ⟨rfl, hn⟩
  | succ fuel ih =>
    have htest := h.test_behind hn .dot Kind.isWord rfl rfl
    have hcond : (decide (s'.kindAt n = .dot) && s'.wordAt (n + 1))
        = (decide (s.kindAt n = .dot) && s.wordAt (n + 1)) :=
      htest
    unfold Stream.scanSegments
    rw [hcond]
    split
    · next hdot =>
      obtain ⟨hdot, hword⟩ := Bool.and_eq_true_iff.1 hdot
      have hdot := of_decide_eq_true hdot
      exact ih ((hn.succ (by simp [hdot]) (by simp [hdot])).word hword)
    · exact ⟨rfl, hn⟩

/-- The count of tokens of the longer stream does as well. -/
theorem Weak.scanSegments_length (h : T.Weak s s') (n : Nat) :
    s.scanSegments s'.rest.length n = s.scanSegments s.rest.length n := by
  obtain ⟨k, hk⟩ := Nat.exists_eq_add_of_le h.length_le
  rw [hk]
  exact h.sound.scansEnd.segments k n

theorem Weak.scanPath (h : T.Weak s s') {n : Nat} (hn : Clear s n) :
    s'.scanPath n = s.scanPath n ∧ Clear s (s.scanPath n) := by
  unfold Stream.scanPath
  simp only [h.kindAt_iff (k := .ident) hn.ne_eof rfl]
  split
  · next hident =>
    have hsucc : Clear s (n + 1) := hn.succ (by simp [hident]) (by simp [hident])
    obtain ⟨heq, -⟩ := h.scanSegments hsucc s'.rest.length
    exact ⟨heq.trans (h.scanSegments_length _), (h.scanSegments hsucc _).2⟩
  · exact ⟨rfl, hn⟩

theorem Weak.scanEndpoint (h : T.Weak s s') : s'.scanEndpoint 0 = s.scanEndpoint 0 ∧ Clear s (s.scanEndpoint 0) := by
  have hcond := h.test_behind clear_zero .star (fun k => decide (k = .ident)) rfl rfl
  unfold Stream.scanEndpoint
  rw [hcond]
  split
  · next hstar =>
    have hstar := of_decide_eq_true (Bool.and_eq_true_iff.1 hstar).1
    exact h.scanPath (clear_zero.succ (by simp [hstar]) (by simp [hstar]))
  · exact h.scanPath clear_zero

/-- The closing bracket is found in both streams or in neither, unless the first text does not close it. -/
theorem Weak.scanBracket (h : T.Weak s s') {i : Nat} (hi : Clear s i) (k : Nat) :
    (s'.scanBracket k i = s.scanBracket k i ∧ ∀ m, s.scanBracket k i = some m → Clear s m)
      ∨ T.isCut ∧ s.scanBracket k i = none ∧ Lacks .rbrace s ∧ ∀ m ≥ i, s.kindAt m ≠ .rbracket := by
  induction k generalizing i with
  | zero => exact .inl ⟨rfl, nofun⟩
  | succ k ih =>
    unfold Stream.scanBracket
    obtain ⟨heq, -⟩ | ⟨hcut, heof, -⟩ := h.peekAt i hi.ne_eof
    · rw [kindAt_of_peekAt heq]
      split
      · next hclose =>
        refine .inl ⟨rfl, fun m hm => ?_⟩
        cases hm
        exact hi.succ (by simp [hclose]) (by simp [hclose])
      · exact .inl ⟨rfl, nofun⟩
      · exact .inl ⟨rfl, nofun⟩
      · exact .inl ⟨rfl, nofun⟩
      · exact .inl ⟨rfl, nofun⟩
      · next hclose heof _ hbrace _ =>
        refine (ih (hi.succ heof hbrace)).imp_right fun ⟨hcut, hnone, hlacks, hopen⟩ =>
          ⟨hcut, hnone, hlacks, fun m hm => ?_⟩
        rcases hm.eq_or_lt with rfl | hm
        · exact hclose
        · exact hopen m hm
    · have hend (m : Nat) (hm : m ≥ i) : s.kindAt m = .eof := kindAt_eof_of_le h.sound heof hm
      refine .inr ⟨hcut, by rw [heof], fun n => ?_, fun m hm => by simp [hend m hm]⟩
      rcases Nat.lt_or_ge n i with hn | hn
      · exact (hi n hn).2
      · simp [hend n hn]

theorem Weak.scanMult (h : T.Weak s s') {n : Nat} (hn : Clear s n) :
    (s'.scanMult n = s.scanMult n ∧ Clear s (s.scanMult n))
      ∨ T.isCut ∧ s.kindAt n = .lbracket ∧ s.scanMult n = n ∧ Lacks .rbrace s ∧ ∀ m > n, s.kindAt m ≠ .rbracket := by
  unfold Stream.scanMult
  obtain ⟨heq, -⟩ | ⟨-, heof, hsemi⟩ := h.peekAt n hn.ne_eof
  · rw [kindAt_of_peekAt heq]
    split
    · next hstring => exact .inl ⟨rfl, hn.succ (by simp [hstring]) (by simp [hstring])⟩
    · next hbracket =>
      have hsucc : Clear s (n + 1) := hn.succ (by simp [hbracket]) (by simp [hbracket])
      obtain ⟨heq, hclear⟩ | ⟨hcut, hnone, hlacks⟩ := h.scanBracket hsucc maxBracket
      · rw [heq]
        refine .inl ⟨rfl, ?_⟩
        cases hfound : s.scanBracket maxBracket (n + 1) with
        | none => exact hn
        | some m => exact hclear m hfound
      · exact .inr ⟨hcut, hbracket, by rw [hnone]; rfl, hlacks⟩
    · exact .inl ⟨rfl, hn⟩
  · rw [heof, hsemi]
    exact .inl ⟨rfl, hn⟩

/-- A bracket is ahead that the first text does not close. -/
structure Stuck (s : Stream) : Prop where
  kind : s.peek.kind = .lbracket
  scan : s.scanMult 0 = 0
  isOpen : Lacks .rbracket s

omit [T.Lawful] in
theorem Stuck.multThenOperator (h : Stuck s) : s.multThenOperator = false := by
  simp [Stream.multThenOperator, h.scan]

theorem Weak.mult_ahead (h : T.Weak s s') :
    (s'.scanMult 0 = s.scanMult 0 ∧ s'.multThenOperator = s.multThenOperator) ∨ T.isCut ∧ Stuck s := by
  obtain ⟨heq, hclear⟩ | ⟨hcut, hkind, hscan, -, hopen⟩ := h.scanMult clear_zero
  · refine .inl ⟨heq, ?_⟩
    unfold Stream.multThenOperator
    dsimp only
    rw [heq, h.kindAt_congr Kind.isRelationship rfl hclear.ne_eof]
  · refine .inr ⟨hcut, hkind, hscan, fun n => ?_⟩
    cases n with
    | zero => simp [hkind]
    | succ n => exact hopen _ n.succ_pos

theorem Weak.canStartRelationship (h : T.Weak s s') :
    s'.canStartRelationship = s.canStartRelationship
      ∨ T.isCut ∧ s.canStartRelationship = false ∧ Lacks .rbrace s := by
  obtain ⟨hend, hclear⟩ := h.scanEndpoint
  unfold Stream.canStartRelationship
  dsimp only
  rw [hend]
  obtain ⟨heq, hclear⟩ | ⟨hcut, hkind, hscan, hlacks, -⟩ := h.scanMult hclear
  · rw [heq, h.kindAt_congr Kind.isRelationship rfl hclear.ne_eof]
    exact .inl rfl
  · exact .inr ⟨hcut, by simp [hscan, hkind, Kind.isRelationship], hlacks⟩

theorem Weak.scanModifiers (h : T.Weak s s') {n : Nat} (hn : Clear s n) (fuel : Nat) :
    s'.scanModifiers fuel n = s.scanModifiers fuel n ∧ Clear s (s.scanModifiers fuel n) := by
  induction fuel generalizing n with
  | zero => exact ⟨rfl, hn⟩
  | succ fuel ih =>
    unfold Stream.scanModifiers
    rw [h.kindAt_congr Kind.isEntityModifier rfl hn.ne_eof]
    split
    · next hmod =>
      exact ih (hn.succ (fun heq => by simp [heq, Kind.isEntityModifier] at hmod)
        fun heq => by simp [heq, Kind.isEntityModifier] at hmod)
    · exact ⟨rfl, hn⟩

theorem Weak.entityKeywordAt? (h : T.Weak s s') : s'.entityKeywordAt? = s.entityKeywordAt?
    ∧ ∀ n, s.entityKeywordAt? = some n → Clear s (n + 1) := by
  obtain ⟨k, hk⟩ := Nat.exists_eq_add_of_le h.length_le
  obtain ⟨heq, -⟩ := h.scanModifiers clear_zero s'.rest.length
  obtain ⟨-, hclear⟩ := h.scanModifiers clear_zero s.rest.length
  rw [hk, h.sound.scansEnd.modifiers k 0, ← hk] at heq
  unfold Stream.entityKeywordAt?
  dsimp only
  rw [heq, h.kindAt_congr Kind.isEntityKeyword rfl hclear.ne_eof]
  refine ⟨rfl, fun n hn => ?_⟩
  simp only [Option.ite_none_right_eq_some, Option.some.injEq] at hn
  obtain ⟨hkeyword, rfl⟩ := hn
  exact hclear.succ (fun heq => by simp [heq, Kind.isEntityKeyword] at hkeyword)
    fun heq => by simp [heq, Kind.isEntityKeyword] at hkeyword

theorem Weak.canStartEntity (h : T.Weak s s') : s'.canStartEntity = s.canStartEntity := by
  unfold Stream.canStartEntity
  rw [h.entityKeywordAt?.1]

theorem Weak.namesDeclaration (h : T.Weak s s') {n : Nat} (hn : Clear s n) :
    s'.namesDeclaration n = s.namesDeclaration n := by
  have htest := h.test_behind hn .ident (fun k => decide (k ≠ .colon) && decide (k ≠ .lparen)) rfl rfl
  simpa [Stream.namesDeclaration, Bool.and_assoc] using htest

/-- A declaration is ahead of both streams or of neither, unless it has brackets that the first text does not
close. -/
theorem Weak.atDeclaration (h : T.Weak s s') : s'.atDeclaration = s.atDeclaration
    ∨ T.isCut ∧ s.atDeclaration = false ∧ Lacks .rbrace s := by
  have hpackage : s'.canStartPackage = s.canStartPackage := h.isAt .kwPackage rfl
  unfold Stream.atDeclaration
  rw [hpackage, h.entityKeywordAt?.1]
  split
  · next hat =>
    have hkind : s.kindAt 0 = .kwPackage := of_decide_eq_true hat
    exact .inl (h.namesDeclaration (clear_zero.succ (by simp [hkind]) (by simp [hkind])))
  · cases hkey : s.entityKeywordAt? with
    | some n => exact .inl (h.namesDeclaration (h.entityKeywordAt?.2 n hkey))
    | none => exact h.canStartRelationship

theorem Weak.canStartConfig (h : T.Weak s s') : s'.canStartConfig = s.canStartConfig :=
  h.test_behind clear_zero .kwConfig (fun k => decide (k = .lbrace)) rfl rfl

theorem Weak.canStartAtConfig (h : T.Weak s s') : s'.canStartAtConfig = s.canStartAtConfig :=
  h.test_behind clear_zero .atSign Kind.isWord rfl rfl

theorem Weak.canStartNote (h : T.Weak s s') : s'.canStartNote = s.canStartNote :=
  h.test_behind clear_zero .kwNote (fun k => decide (k = .string)) rfl rfl

theorem Weak.canStartAssociation (h : T.Weak s s') : s'.canStartAssociation = s.canStartAssociation :=
  h.test_behind clear_zero .kwAssociation (fun k => decide (k = .ident)) rfl rfl

/-! ## What is not ahead -/

theorem exists_ahead {ts : List Token} {e t : Token} (hts : ∀ t ∈ ts, t.kind ≠ .eof) (ht : t ∈ ts ++ [e])
    (htrivia : t.isTrivia = false) : ∃ n, ahead (ts ++ [e]) n = t := by
  induction ts with
  | nil => exact ⟨0, (List.mem_singleton.1 ht).symm⟩
  | cons u ts ih =>
    obtain ⟨hu, hts⟩ := List.forall_mem_cons.1 hts
    have hcons (n : Nat) := @ahead_cons u (ts ++ [e]) (by simp) n
    rcases List.mem_cons.1 ht with rfl | ht
    · exact ⟨0, by simp [hcons, htrivia]⟩
    · obtain ⟨n, hn⟩ := ih hts ht
      by_cases htriv : u.isTrivia = true
      · exact ⟨n, by simp [hcons, htriv, hn]⟩
      · exact ⟨n + 1, by simp [hcons, htriv, hu, hn]⟩

def Bare (k : Kind) (s : Stream) : Prop := ∀ t ∈ s.rest, t.kind ≠ k

theorem Weak.bare (h : T.Weak s s') {k : Kind} (hs : Lacks k s) (hk : k.isTrivia = false)
    (hhalf : k ≠ .inherit) : Bare k s := by
  rintro t ht rfl
  obtain ⟨ts, hrest, hts⟩ := h.rest_eq
  cases hs' : s.half with
  | false =>
    obtain ⟨n, hn⟩ := exists_ahead hts (hrest ▸ ht) hk
    exact hs n (by simp [kindAt, Stream.peekAt, hs', hrest, hn])
  | true =>
    obtain ⟨u, more, hmore, hu⟩ := h.sound.half hs'
    cases ts with
    | nil =>
      rw [hrest, List.nil_append, List.cons.injEq] at hmore
      exact absurd (hmore.1 ▸ Lawful.kind_eof) (by simp [hu])
    | cons v ts =>
      have huv : v = u := (List.cons.inj (hrest.symm.trans hmore)).1
      rw [hrest, List.cons_append] at ht
      rcases List.mem_cons.1 ht with rfl | ht
      · exact hhalf (huv ▸ hu)
      · obtain ⟨n, hn⟩ := exists_ahead (List.forall_mem_cons.1 hts).2 ht hk
        exact hs (n + 1) (by simp [kindAt, Stream.peekAt, hs', hrest, hn])

omit [T.Lawful] in
theorem Weak.lacks_eof (h : T.Weak s s') (heof : s.peek.kind = .eof) {k : Kind} (hk : k ≠ .eof) :
    Lacks k s := fun n => by
  rw [kindAt_eof_of_le h.sound heof (Nat.zero_le n)]
  exact hk.symm

theorem Bare.peek_ne {k : Kind} (h : Bare k s) (hs : s.rest ≠ []) (hk : k ≠ .gt) : s.peek.kind ≠ k := by
  unfold Stream.peek peekAt
  cases hhalf : s.half with
  | false => exact h _ (ahead_mem hs 0)
  | true =>
    obtain ⟨t, ts, hrest⟩ := List.exists_cons_of_ne_nil hs
    simpa [hrest, secondHalf] using hk.symm

theorem Bare.reaches {k : Kind} (h : Bare k s) (hs : s.Sound) {u : Stream} (hu : s.Reaches u) : Bare k u := by
  have hlen := hu.length_rest
  have hindex := hu.index_le hs
  have hsuffix : u.rest <:+ s.rest :=
    List.suffix_of_suffix_length_le (hu.tokens ▸ List.suffix_append _ _ : u.rest <:+ s.tokens) (List.suffix_append _ _)
      (by omega)
  exact fun t ht => h t (hsuffix.subset ht)

end Uml.Twin
