import Mathlib
import Uml.Proofs.Lexer.Spelling
import Uml.Proofs.Parser.Termination

/-!
# What a parser takes from a stream of lexemes

A stream without comments shows lexemes, of which a `>>` shows two. A parser reads some of them if it
takes exactly these, whatever state it starts in, and reports nothing.
-/
namespace Uml

/-- A lexeme can show itself by a token of this kind: a closing angle also by half a `>>`. -/
def Lexeme.Seen (l : Lexeme) (k : Kind) : Prop := k = l.kind ∨ l = .gt ∧ k = .inherit

instance (l : Lexeme) (k : Kind) : Decidable (l.Seen k) := inferInstanceAs (Decidable (_ ∨ _))

theorem Lexeme.Seen.eq {l : Lexeme} {k : Kind} (h : l.Seen k) (hl : l.kind ≠ .gt) : k = l.kind :=
  h.resolve_right fun ⟨hgt, _⟩ => hl (hgt ▸ rfl)

namespace Stream

/-- What is ahead, token by token; the half that is taken is left out. -/
def lexemes (s : Stream) : List Lexeme :=
  (s.rest.flatMap Token.lexemes).drop s.half.toNat

/-- The stream stands before these lexemes, with no comment between them. -/
structure Shows (s : Stream) (ls : List Lexeme) : Prop where
  sound : s.Sound
  plain : ∀ t ∈ s.rest, t.isTrivia = false
  lexemes : s.lexemes = ls

namespace Shows

variable {s : Stream} {l : Lexeme} {ls : List Lexeme}

theorem peekRaw_eq (h : s.Shows ls) : s.peekRaw = s.peek := by
  obtain ⟨t, tail, hrest⟩ := List.exists_cons_of_ne_nil h.sound.rest_ne_nil
  have ht : t.isTrivia = false := h.plain t (by simp [hrest])
  unfold peek peekAt peekRaw
  cases hhalf : s.half with
  | true => simp [hrest]
  | false =>
    cases tail with
    | nil => simp [hrest, ahead]
    | cons u tail => simp [hrest, ahead, ht]

theorem atNext_eq (h : s.Shows ls) : s.atNext = s := by
  obtain ⟨t, tail, hrest⟩ := List.exists_cons_of_ne_nil h.sound.rest_ne_nil
  have ht : t.isTrivia = false := h.plain t (by simp [hrest])
  unfold atNext
  split
  · rfl
  · have hskip : skipTrivia s.past s.rest = (s.past, s.rest) := by
      cases tail with
      | nil => rw [hrest, skipTrivia]
      | cons u tail => simp [hrest, skipTrivia, ht]
    rw [hskip]

/-- The token ahead tells the first lexeme. -/
theorem seen (h : s.Shows (l :: ls)) : l.Seen s.peek.kind := by
  obtain ⟨t, tail, hrest⟩ := List.exists_cons_of_ne_nil h.sound.rest_ne_nil
  have hlexemes := h.lexemes
  rw [← h.peekRaw_eq]
  unfold Stream.lexemes at hlexemes
  unfold peekRaw
  cases hhalf : s.half with
  | true =>
    obtain ⟨t', tail', hrest', hkind⟩ := h.sound.half hhalf
    simp only [hrest', hhalf, List.flatMap_cons, Token.lexemes, hkind, if_true, Bool.toNat_true,
      List.cons_append, List.drop_succ_cons, List.drop_zero, List.nil_append] at hlexemes
    obtain ⟨rfl, -⟩ := List.cons.inj hlexemes
    simp only [hrest']
    exact .inl rfl
  | false =>
    simp only [hrest, hhalf, List.flatMap_cons, Bool.toNat_false, List.drop_zero, Token.lexemes] at hlexemes
    simp only [hrest]
    split at hlexemes
    · next hkind =>
      obtain ⟨rfl, -⟩ := List.cons.inj hlexemes
      exact .inr ⟨rfl, hkind⟩
    · obtain ⟨rfl, -⟩ := List.cons.inj hlexemes
      exact .inl rfl

/-- Any other lexeme than a closing angle is the token ahead, and taking it shows the rest. -/
theorem next (h : s.Shows (l :: ls)) (hl : l.kind ≠ .gt) :
    s.peek.text = l.text ∧ (l.kind ≠ .eof → s.next.2.Shows ls) := by
  obtain ⟨t, tail, hrest⟩ := List.exists_cons_of_ne_nil h.sound.rest_ne_nil
  have hlexemes := h.lexemes
  have hkind := h.seen.eq hl
  rw [next_eq, h.atNext_eq, ← h.peekRaw_eq]
  rw [← h.peekRaw_eq] at hkind
  unfold Stream.lexemes at hlexemes
  cases hhalf : s.half with
  | true =>
    refine absurd ?_ hl
    rw [← hkind, peekRaw, hrest, hhalf]
    rfl
  | false =>
    rw [hrest, hhalf, List.flatMap_cons, Bool.toNat_false, List.drop_zero] at hlexemes
    have hpeek : s.peekRaw = t := by simp [peekRaw, hrest, hhalf]
    rw [hpeek] at hkind ⊢
    have hshown : t.lexemes = [⟨t.kind, t.text⟩] := by
      refine if_neg fun hinherit => hl ?_
      rw [Token.lexemes, if_pos hinherit] at hlexemes
      rw [← (List.cons.inj hlexemes).1]
      rfl
    rw [hshown] at hlexemes
    obtain ⟨rfl, hls⟩ := List.cons.inj hlexemes
    refine ⟨rfl, fun heof => ?_⟩
    obtain ⟨t', tail', hrest', hne, hnext⟩ := nextRaw_token h.sound (by rwa [hpeek])
    obtain ⟨rfl, rfl⟩ := List.cons.inj (hrest.symm.trans hrest')
    refine ⟨h.sound.nextRaw, ?_, ?_⟩
    · rw [hnext]
      exact fun u hu => h.plain u (by simp [hrest, hu])
    · rw [hnext]
      exact hls

theorem seenAt (h : s.Shows (l :: ls)) (hl : l.kind ≠ .gt) (heof : l.kind ≠ .eof) {n : Nat} :
    s.kindAt (n + 1) = s.next.2.kindAt n := by
  have hkind := h.seen.eq hl
  rw [kindAt, kindAt, peekAt_next h.sound (by rwa [hkind])]

theorem isAt_eq_false {k : Kind} (h : s.Shows (l :: ls)) (hk : ¬l.Seen k) : s.isAt k = false :=
  decide_eq_false fun heq => hk (heq ▸ h.seen)

theorem isAt_eq_true (h : s.Shows (l :: ls)) (hl : l.kind ≠ .gt) : s.isAt l.kind = true :=
  decide_eq_true (h.seen.eq hl)

theorem isAtAny_eq_false {ks : List Kind} (h : s.Shows (l :: ls)) (hks : ∀ k ∈ ks, ¬l.Seen k) :
    s.isAtAny ks = false :=
  Bool.eq_false_iff.2 fun hany => hks _ (List.contains_iff_mem.1 hany) h.seen

theorem isAtAny_eq_true {ks : List Kind} (h : s.Shows (l :: ls)) (hl : l.kind ∈ ks)
    (hgt : l = .gt → .inherit ∈ ks) : s.isAtAny ks = true := by
  refine List.contains_iff_mem.2 ?_
  rcases h.seen with hkind | ⟨heq, hkind⟩
  · rwa [hkind]
  · rw [hkind]
    exact hgt heq

theorem split (h : s.Shows (.gt :: ls)) (hkind : s.peek.kind ≠ .gt) :
    ∃ t s', s.split? = some (t, s') ∧ s'.Shows ls := by
  have hinherit : s.peek.kind = .inherit := (h.seen.resolve_left hkind).2
  have hraw := h.peekRaw_eq
  obtain ⟨t, tail, hrest⟩ := List.exists_cons_of_ne_nil h.sound.rest_ne_nil
  have hhalf : s.half = false := by
    cases hhalf : s.half with
    | false => rfl
    | true =>
      refine absurd ?_ hkind
      rw [← hraw, peekRaw, hrest, hhalf]
      rfl
  have hpeek : s.peek = t := by rw [← hraw, peekRaw, hrest, hhalf]; rfl
  rw [hpeek] at hinherit
  have hskip : skipTrivia s.past s.rest = (s.past, t :: tail) := by
    have hnext := h.atNext_eq
    rw [atNext, hhalf] at hnext
    have hpast := congrArg Stream.past hnext
    have hrest' := congrArg Stream.rest hnext
    exact Prod.ext hpast (hrest'.trans hrest)
  refine ⟨firstHalf t, { past := s.past, rest := t :: tail, half := true, last := (firstHalf t).span }, ?_, ?_⟩
  · rw [split?, hskip]
    simp [hhalf, isAt, hpeek, hinherit]
  · have hlexemes := h.lexemes
    rw [Stream.lexemes, hrest, hhalf, List.flatMap_cons, Token.lexemes, if_pos hinherit] at hlexemes
    refine ⟨⟨hrest ▸ h.sound.ahead, h.sound.behind, fun _ => ⟨t, tail, rfl, hinherit⟩⟩,
      hrest ▸ h.plain, ?_⟩
    rw [Stream.lexemes, List.flatMap_cons, Token.lexemes, if_pos hinherit]
    exact (List.cons.inj hlexemes).2

/-- The second half of a `>>`, or an angle of its own, is taken like any token. -/
theorem next_angle (h : s.Shows (.gt :: ls)) (hkind : s.peek.kind = .gt) : s.next.2.Shows ls := by
  obtain ⟨t, tail, hrest⟩ := List.exists_cons_of_ne_nil h.sound.rest_ne_nil
  have hlexemes := h.lexemes
  rw [next_eq, h.atNext_eq]
  rw [← h.peekRaw_eq] at hkind
  obtain ⟨t', tail', hrest', hne, hnext⟩ := nextRaw_token h.sound (by simp [hkind])
  obtain ⟨rfl, rfl⟩ := List.cons.inj (hrest.symm.trans hrest')
  refine ⟨h.sound.nextRaw, ?_, ?_⟩
  · rw [hnext]
    exact fun u hu => h.plain u (by simp [hrest, hu])
  · rw [hnext]
    unfold Stream.lexemes at hlexemes ⊢
    rw [hrest, List.flatMap_cons] at hlexemes
    cases hhalf : s.half with
    | true =>
      obtain ⟨u, tail', hrest', hu⟩ := h.sound.half hhalf
      obtain ⟨rfl, rfl⟩ := List.cons.inj (hrest.symm.trans hrest')
      rw [hhalf, Token.lexemes, if_pos hu] at hlexemes
      exact (List.cons.inj hlexemes).2
    | false =>
      have ht : t.kind = .gt := by simpa [peekRaw, hrest, hhalf] using hkind
      rw [hhalf, Token.lexemes, if_neg (by simp [ht])] at hlexemes
      exact (List.cons.inj hlexemes).2

/-- A stream that took lexemes has moved. -/
theorem movedFrom {s' : Stream} (h : s.Shows (l :: ls)) {rest : List Lexeme} (h' : s'.Shows rest)
    (hreach : s.Reaches s') (hlt : rest.length < (l :: ls).length) : s'.movedFrom s = true := by
  by_contra hmoved
  obtain ⟨hrest, hhalf⟩ := hreach.rest_eq (Bool.eq_false_iff.2 hmoved)
  have heq : rest = l :: ls := by
    rw [← h'.lexemes, ← h.lexemes, Stream.lexemes, Stream.lexemes, hrest, hhalf]
  exact absurd hlt (by rw [heq]; exact Nat.lt_irrefl _)

end Shows
end Stream

namespace Parse

variable {α β : Type}

/-- Where the stream shows `ls` and then `rest`, the parser takes `ls`, reports nothing and answers
as `Q` says. -/
def Reads (p : Parse α) (ls rest : List Lexeme) (Q : α → Prop) : Prop :=
  ∀ st : ParseState, st.stream.Shows (ls ++ rest) →
    (p.run st).2.stream.Shows rest ∧ (p.run st).2.findings = st.findings ∧ Q (p.run st).1

/-- Where the stream shows `ls`, the parser changes nothing and answers as `Q` says. -/
def Looks (p : Parse α) (ls : List Lexeme) (Q : α → Prop) : Prop :=
  ∀ st : ParseState, st.stream.Shows ls → (p.run st).2 = st ∧ Q (p.run st).1

namespace Reads

variable {p : Parse α} {f : α → Parse β} {ls ls' rest : List Lexeme} {P : α → Prop} {Q : β → Prop}

protected theorem pure {a : α} (h : P a) : Reads (pure a) [] rest P := fun _ hs => ⟨hs, rfl, h⟩

theorem mono {P' : α → Prop} (h : p.Reads ls rest P) (hP : ∀ a, P a → P' a) : p.Reads ls rest P' :=
  fun st hs => ⟨(h st hs).1, (h st hs).2.1, hP _ (h st hs).2.2⟩

theorem bind (hp : p.Reads ls (ls' ++ rest) P) (hf : ∀ a, P a → (f a).Reads ls' rest Q) :
    (p >>= f).Reads (ls ++ ls') rest Q := by
  intro st hs
  rw [List.append_assoc] at hs
  obtain ⟨hs', hfindings, ha⟩ := hp st hs
  obtain ⟨hs'', hfindings', hb⟩ := hf _ ha _ hs'
  exact ⟨hs'', hfindings'.trans hfindings, hb⟩

theorem skip (hp : p.Reads [] (ls ++ rest) P) (hf : ∀ a, P a → (f a).Reads ls rest Q) :
    (p >>= f).Reads ls rest Q :=
  hp.bind hf

theorem map {g : α → β} (hp : p.Reads ls rest fun a => Q (g a)) : Reads (g <$> p) ls rest Q := hp

theorem andThen (hp : p.Reads ls rest P) (hf : ∀ a, P a → (f a).Reads [] rest Q) :
    (p >>= f).Reads ls rest Q := by
  rw [← List.append_nil ls]
  exact hp.bind hf

theorem step {l : Lexeme} (hp : p.Reads [l] (ls' ++ rest) P) (hf : ∀ a, P a → (f a).Reads ls' rest Q) :
    (p >>= f).Reads (l :: ls') rest Q :=
  hp.bind hf

theorem of_looks (hp : p.Looks rest P) : p.Reads [] rest P := by
  intro st hs
  obtain ⟨hst, ha⟩ := hp st hs
  rw [hst]
  exact ⟨hs, rfl, ha⟩

theorem look (hp : p.Looks (ls ++ rest) P) (hf : ∀ a, P a → (f a).Reads ls rest Q) :
    (p >>= f).Reads ls rest Q := by
  intro st hs
  obtain ⟨hst, ha⟩ := hp st hs
  have hrun := hf _ ha st hs
  rw [run_bind, hst]
  exact hrun

theorem no {test : Parse Bool} {x y : Parse β} (h : test.Looks (ls ++ rest) (· = false))
    (hy : y.Reads ls rest Q) : Reads (do if ← test then x else y) ls rest Q :=
  .look h (by rintro _ rfl; exact hy)

theorem yes {test : Parse Bool} {x y : Parse β} (h : test.Looks (ls ++ rest) (· = true))
    (hx : x.Reads ls rest Q) : Reads (do if ← test then x else y) ls rest Q :=
  .look h (by rintro _ rfl; exact hx)

/-- A parser that takes something is seen to have moved. -/
theorem moved {l : Lexeme} {f : Stream → α → Bool → Parse β} (hforward : Forward p)
    (hp : p.Reads (l :: ls) rest P) (hf : ∀ mark a, P a → (f mark a true).Reads [] rest Q) :
    Reads (do let mark ← stream; let a ← p; f mark a (← movedFrom mark)) (l :: ls) rest Q := by
  intro st hs
  obtain ⟨hs', hfindings, ha⟩ := hp st hs
  have hmoved : (p.run st).2.stream.movedFrom st.stream = true :=
    Stream.Shows.movedFrom hs hs' (hforward st) (by simp)
  obtain ⟨hs'', hfindings', hb⟩ := hf st.stream _ ha _ hs'
  rw [← hmoved] at hs'' hfindings' hb
  exact ⟨hs'', hfindings'.trans hfindings, hb⟩

end Reads

/-! ## Single steps -/

section

variable {l l' : Lexeme} {ls rest : List Lexeme} {k : Kind}

theorem peek_looks (l : Lexeme) (ls : List Lexeme) :
    peek.Looks (l :: ls) fun t => l.Seen t.kind ∧ (l.kind ≠ .gt → t.text = l.text) :=
  fun _ hs => ⟨rfl, hs.seen, fun hl => (hs.next hl).1⟩

theorem peekRaw_looks (l : Lexeme) (ls : List Lexeme) :
    peekRaw.Looks (l :: ls) fun t => l.Seen t.kind ∧ (l.kind ≠ .gt → t.text = l.text) := by
  intro st hs
  refine ⟨rfl, ?_⟩
  change l.Seen st.stream.peekRaw.kind ∧ (l.kind ≠ .gt → st.stream.peekRaw.text = l.text)
  rw [hs.peekRaw_eq]
  exact ⟨hs.seen, fun hl => (hs.next hl).1⟩

theorem peekAt_looks (hl : l.kind ≠ .gt) (heof : l.kind ≠ .eof) (l' : Lexeme) (ls : List Lexeme) :
    (peekAt 1).Looks (l :: l' :: ls) fun t => l'.Seen t.kind := by
  intro st hs
  refine ⟨rfl, ?_⟩
  have hnext := ((hs.next hl).2 heof).seen
  change l'.Seen (st.stream.kindAt 1)
  rw [hs.seenAt hl heof]
  exact hnext

/-- Asking for a kind that the next lexeme cannot have. -/
theorem isAt_misses (h : ¬l.Seen k) (ls : List Lexeme) : (isAt k).Looks (l :: ls) (· = false) :=
  fun _ hs => ⟨rfl, hs.isAt_eq_false h⟩

theorem isAt_meets (hl : l.kind ≠ .gt) (ls : List Lexeme) : (isAt l.kind).Looks (l :: ls) (· = true) :=
  fun _ hs => ⟨rfl, hs.isAt_eq_true hl⟩

theorem isAtAny_misses {ks : List Kind} (h : ∀ k ∈ ks, ¬l.Seen k) (ls : List Lexeme) :
    (isAtAny ks).Looks (l :: ls) (· = false) :=
  fun _ hs => ⟨rfl, hs.isAtAny_eq_false h⟩

theorem isAtAny_meets {ks : List Kind} (h : l.kind ∈ ks) (hgt : l = .gt → .inherit ∈ ks)
    (ls : List Lexeme) : (isAtAny ks).Looks (l :: ls) (· = true) :=
  fun _ hs => ⟨rfl, hs.isAtAny_eq_true h hgt⟩

theorem upToLast_looks (s : Span) (ls : List Lexeme) : (upToLast s).Looks ls fun _ => True :=
  fun _ _ => ⟨rfl, trivial⟩

theorem advance_reads (hl : l.kind ≠ .gt) (heof : l.kind ≠ .eof) (rest : List Lexeme) :
    advance.Reads [l] rest fun t => t.kind = l.kind ∧ t.text = l.text := by
  intro st hs
  obtain ⟨htext, hnext⟩ := hs.next hl
  refine ⟨hnext heof, rfl, ?_⟩
  change st.stream.next.1.kind = l.kind ∧ st.stream.next.1.text = l.text
  rw [Stream.next_fst]
  exact ⟨hs.seen.eq hl, htext⟩

theorem newType_reads (span : Span) (make : Node → TypeExpr) (rest : List Lexeme) :
    (newType span make).Reads [] rest fun t => ∃ node, t = make node :=
  fun _ hs => ⟨hs, rfl, _, rfl⟩

theorem run_eat (k : Kind) (st : ParseState) :
    (eat k).run st = (st.stream.isAt k,
      if st.stream.isAt k then { st with stream := st.stream.next.2 } else st) := by
  have heat : (stream.run st).1.eat? k = if st.stream.isAt k then some st.stream.next else none := rfl
  unfold eat eat?
  rw [run_bind, run_bind, heat]
  cases st.stream.isAt k <;> rfl

theorem eat_misses (h : ¬l.Seen k) (ls : List Lexeme) : (eat k).Looks (l :: ls) (· = false) := by
  intro st hs
  have hno : st.stream.isAt k = false := hs.isAt_eq_false h
  rw [run_eat, hno]
  exact ⟨rfl, rfl⟩

theorem eat_reads (hl : l.kind ≠ .gt) (heof : l.kind ≠ .eof) (rest : List Lexeme) :
    (eat l.kind).Reads [l] rest (· = true) := by
  intro st hs
  have hyes : st.stream.isAt l.kind = true := Stream.Shows.isAt_eq_true hs hl
  rw [run_eat, hyes]
  exact ⟨(hs.next hl).2 heof, rfl, rfl⟩

/-- A test that takes the next lexeme. -/
theorem Reads.takes {x y : Parse α} {Q : α → Prop} (hl : l.kind ≠ .gt) (heof : l.kind ≠ .eof)
    (hx : x.Reads ls rest Q) : Reads (do if ← eat l.kind then x else y) (l :: ls) rest Q :=
  .step (eat_reads hl heof _) (by rintro _ rfl; exact hx)

theorem run_split (st : ParseState) : split.run st = match st.stream.split? with
    | some (_, s) => (true, { st with stream := s })
    | none => (false, st) := by
  have hrun : split.run st = (match st.stream.split? with
      | some (_, s) => do
        reset s
        pure true
      | none => pure false : Parse Bool).run st := rfl
  rw [hrun]
  cases st.stream.split? <;> rfl

/-- A list in angle brackets is closed by an angle or by half a `>>`. -/
theorem closeAngle_reads (opener : Token) (place : Bytes) (rest : List Lexeme) :
    (closeAngle opener place).Reads [.gt] rest fun _ => True := by
  intro st hs
  unfold closeAngle
  by_cases hkind : st.stream.peek.kind = .gt
  · have hat : st.stream.isAt .gt = true := decide_eq_true hkind
    rw [run_bind, run_eat, hat]
    exact ⟨hs.next_angle hkind, rfl, trivial⟩
  · have hat : st.stream.isAt .gt = false := decide_eq_false hkind
    obtain ⟨t, s', hsplit, hs'⟩ := Stream.Shows.split hs hkind
    rw [run_bind, run_eat, hat, if_neg Bool.false_ne_true, if_neg Bool.false_ne_true, run_bind,
      run_split, hsplit]
    exact ⟨hs', rfl, trivial⟩

theorem closeBrace_reads (opener : Token) (what : Bytes) (rest : List Lexeme) :
    (closeBrace opener what).Reads [.rbrace] rest fun _ => True := by
  exact .takes (l := .rbrace) (by decide) (by decide) (.pure trivial)

end

/-! ## Loops -/

section

variable {σ : Type} {round : σ → Parse (Round σ)} {rest last : List Lexeme}

/-- A loop reads one chunk in each round and `last` in the round that stops; `V` tells what is left to
read and what the loop has made so far. -/
theorem loop_reads (last rest : List Lexeme) (cs : List (List Lexeme)) (v : σ)
    (hterm : Terminates round) (V : List (List Lexeme) → σ → Prop) {Q : σ → Prop}
    (hagain : ∀ c cs v, V (c :: cs) v →
      (round v).Reads c (cs.flatten ++ (last ++ rest)) fun r => ∃ v', r = .again v' ∧ V cs v')
    (hstop : ∀ v, V [] v → (round v).Reads last rest fun r => ∃ v', r = .stop v' ∧ Q v')
    (hv : V cs v) : (loop v round).Reads (cs.flatten ++ last) rest Q := by
  intro st hs
  rw [List.append_assoc] at hs
  have hends := hterm.ends v st hs.sound
  generalize (loop v round).run st = r at hends ⊢
  induction hends generalizing cs with
  | @stop v v' st st' hround =>
    cases cs with
    | nil =>
      obtain ⟨hs', hfindings, v'', hv'', hq⟩ := hstop v hv st hs
      rw [hround] at hs' hfindings hv''
      cases hv''
      exact ⟨hs', hfindings, hq⟩
    | cons c cs =>
      rw [List.flatten_cons, List.append_assoc] at hs
      obtain ⟨-, -, v'', hv'', -⟩ := hagain c cs v hv st hs
      rw [hround] at hv''
      cases hv''
  | @again v v₁ st st₁ _ hround _ _ ih =>
    cases cs with
    | nil =>
      obtain ⟨-, -, v'', hv'', -⟩ := hstop v hv st hs
      rw [hround] at hv''
      cases hv''
    | cons c cs =>
      rw [List.flatten_cons, List.append_assoc] at hs
      obtain ⟨hs', hfindings, v'', hv'', hV⟩ := hagain c cs v hv st hs
      rw [hround] at hs' hfindings hv''
      cases hv''
      obtain ⟨hs'', hfindings', hq⟩ := ih _ hV hs'
      exact ⟨hs'', hfindings'.trans hfindings, hq⟩

theorem loop_stops (hterm : Terminates round) {Q : σ → Prop} {v : σ}
    (hstop : (round v).Reads last rest fun r => ∃ v', r = .stop v' ∧ Q v') :
    (loop v round).Reads last rest Q := by
  refine loop_reads last rest [] v hterm (fun cs v' => cs = [] ∧ v' = v) ?_ ?_ ⟨rfl, rfl⟩
  · rintro c cs v' ⟨hcs, -⟩
    cases hcs
  · rintro v' ⟨-, rfl⟩
    exact hstop

theorem loop_once (ls last rest : List Lexeme) (hterm : Terminates round) {P Q : σ → Prop} {v : σ}
    (hagain : (round v).Reads ls (last ++ rest) fun r => ∃ v', r = .again v' ∧ P v')
    (hstop : ∀ v', P v' → (round v').Reads last rest fun r => ∃ v'', r = .stop v'' ∧ Q v'') :
    (loop v round).Reads (ls ++ last) rest Q := by
  have hloop := loop_reads last rest [ls] v (Q := Q) hterm
    (fun cs v' => cs = [ls] ∧ v' = v ∨ cs = [] ∧ P v') ?_ ?_ (.inl ⟨rfl, rfl⟩)
  · simpa using hloop
  · rintro c cs v' (⟨hcs, rfl⟩ | ⟨hcs, -⟩)
    · obtain ⟨rfl, rfl⟩ := List.cons.inj hcs
      refine hagain.mono ?_
      rintro _ ⟨v'', rfl, hv⟩
      exact ⟨v'', rfl, .inr ⟨rfl, hv⟩⟩
    · cases hcs
  · rintro v' (⟨hcs, -⟩ | ⟨-, hv⟩)
    · cases hcs
    · exact hstop v' hv

/-- A loop reads items with dividers between them; `W` tells what the loop has made of the items that
it has read. Behind an item comes a divider or what ends the list. -/
theorem separated_reads {α : Type} (last rest : List Lexeme) (divider : Lexeme) (xs : List α) (v : σ)
    (hterm : Terminates round) (item : α → List Lexeme) (W : List α → σ → Prop) {Q : σ → Prop}
    (hitem : ∀ done x v ls, W done v → x ∈ xs → (ls = last ++ rest ∨ ∃ tail, ls = divider :: tail) →
      (round v).Reads (item x) ls fun r => ∃ v', r = .again v' ∧ W (done ++ [x]) v')
    (hdivider : ∀ done v ls, W done v →
      (round v).Reads [divider] ls fun r => ∃ v', r = .again v' ∧ W done v')
    (hstop : ∀ v, W xs v → (round v).Reads last rest fun r => ∃ v', r = .stop v' ∧ Q v')
    (hv : W [] v) : (loop v round).Reads ([divider].intercalate (xs.map item) ++ last) rest Q := by
  -- Before a round either an item or a divider is ahead.
  let V (cs : List (List Lexeme)) (v : σ) : Prop := ∃ done todo, xs = done ++ todo ∧ W done v
    ∧ (cs = (todo.map item).intersperse [divider]
      ∨ todo ≠ [] ∧ cs = [divider] :: (todo.map item).intersperse [divider])
  refine loop_reads last rest _ v hterm V ?_ ?_ ⟨[], xs, rfl, hv, .inl rfl⟩
  · rintro c cs v ⟨done, todo, rfl, hw, hcs | ⟨hne, hcs⟩⟩
    · rcases todo with _ | ⟨x, _ | ⟨y, todo⟩⟩
      · cases hcs
      · obtain ⟨rfl, rfl⟩ := List.cons.inj hcs
        refine (hitem done x v _ hw (by simp) (.inl rfl)).mono ?_
        rintro _ ⟨v', rfl, hw'⟩
        exact ⟨v', rfl, done ++ [x], [], by simp, hw', .inl rfl⟩
      · obtain ⟨rfl, rfl⟩ := List.cons.inj hcs
        refine (hitem done x v _ hw (by simp) (.inr ⟨_, rfl⟩)).mono ?_
        rintro _ ⟨v', rfl, hw'⟩
        exact ⟨v', rfl, done ++ [x], y :: todo, by simp, hw', .inr ⟨by simp, rfl⟩⟩
    · obtain ⟨rfl, rfl⟩ := List.cons.inj hcs
      refine (hdivider done v _ hw).mono ?_
      rintro _ ⟨v', rfl, hw'⟩
      exact ⟨v', rfl, done, todo, rfl, hw', .inl rfl⟩
  · rintro v ⟨done, todo, rfl, hw, hcs | ⟨-, hcs⟩⟩
    · rcases todo with _ | ⟨x, _ | ⟨y, todo⟩⟩
      · exact hstop v (by simpa using hw)
      · cases hcs
      · cases hcs
    · cases hcs

end

end Parse
end Uml
