import Mathlib
import Uml.Proofs.Parser.Accepted
import Uml.Proofs.Syntax.Reading

/-!
# Braces stand in pairs

What a body holds closes the braces that it opens, where no error is reported: types and members take
braces in pairs, so the brace that ends a body is none of theirs.
-/
namespace Uml

open Std.Do

set_option mvcgen.warning false

@[grind →] theorem Token.not_brace_of_isWord {t : Token} (h : t.isWord = true) :
    t.kind ≠ .lbrace ∧ t.kind ≠ .rbrace := by
  constructor <;> intro hkind <;> simp [isWord, Kind.isWord, Kind.isKeyword, hkind] at h

@[grind →] theorem Token.not_brace_of_isRelationship {t : Token} (h : t.isRelationship = true) :
    t.kind ≠ .lbrace ∧ t.kind ≠ .rbrace := by
  constructor <;> intro hkind <;> simp [isRelationship, Kind.isRelationship, hkind] at h

@[grind →] theorem Modifier.not_brace_of_ofMemberToken? {t : Token} {m : Modifier}
    (h : ofMemberToken? t = some m) : t.kind ≠ .lbrace ∧ t.kind ≠ .rbrace := by
  constructor <;> intro hkind <;> simp [ofMemberToken?, ofKeyword?, hkind] at h

theorem Visibility.not_brace_of_ofKind {k : Kind} (h : ofKind k ≠ .unstated) :
    k ≠ .lbrace ∧ k ≠ .rbrace ∧ k ≠ .eof := by
  refine ⟨?_, ?_, ?_⟩ <;> rintro rfl <;> exact h rfl

namespace Stream

variable {s s' : Stream}

/-- The end of the file stays ahead. -/
theorem Reaches.peek_eof (h : s.Reaches s') (hs : s.Sound) (hpeek : s.peek.kind = .eof) :
    s'.peek.kind = .eof := by
  induction h with
  | refl => exact hpeek
  | @tail m s' hreach hstep ih =>
    have hm := (Reaches.sound hreach hs).1
    cases hstep with
    | raw =>
      cases htrivia : m.peekRaw.isTrivia with
      | true => rwa [hm.peek_nextRaw htrivia]
      | false =>
        have hraw : m.peek = m.peekRaw := by
          refine peek_eq_peekRaw ?_ ?_ <;>
          · intro hkind
            simp [Token.isTrivia, hkind, Kind.isTrivia] at htrivia
        rwa [nextRaw_eof hm (hraw ▸ ih)]
    | next =>
      have hraw : m.atNext.peekRaw.kind = .eof := Stream.peek_eq m ▸ ih
      rwa [next_eq, nextRaw_eof hm.atNext hraw, hm.peek_atNext]
    | split h =>
      obtain ⟨ts, -, hkind, -⟩ := upcoming_split h
      rw [ih] at hkind
      cases hkind

/-- A token is taken with the comments before it; of a `>>` the second half may be left to take. -/
theorem past_next (hs : s.Sound) (hpeek : s.peek.kind ≠ .eof) :
    ∃ (comments : List Token) (t : Token), s.next.2.past = t :: (comments.reverse ++ s.past) ∧ (∀ c ∈ comments, c.isTrivia = true)
      ∧ (t = s.peek ∨ t.kind = .inherit ∧ s.peek.kind = .gt) := by
  obtain ⟨comments, -, hpast, hall⟩ := s.atNext_spec
  have hraw : s.atNext.peekRaw.kind ≠ .eof := peek_eq s ▸ hpeek
  obtain ⟨t, tail, hrest, -, hnext⟩ := nextRaw_token hs.atNext hraw
  refine ⟨comments, t, by rw [next_eq, hnext, hpast], hall, ?_⟩
  rw [peek_eq]
  cases hhalf : s.atNext.half with
  | true =>
    obtain ⟨t', tail', hrest', hkind⟩ := hs.atNext.half hhalf
    cases hrest.symm.trans hrest'
    exact .inr ⟨hkind, by simp [peekRaw, hrest, hhalf, secondHalf]⟩
  | false => exact .inl (by simp [peekRaw, hrest, hhalf])

/-- What is passed on the way has its braces in pairs, if the end of the file is not reached. -/
structure Encloses (s s' : Stream) : Prop where
  reaches : s.Reaches s'
  inside : s.Sound → s'.peek.kind ≠ .eof → ∃ new, s'.past = new ++ s.past ∧ IsInside new.reverse

theorem Encloses.refl (s : Stream) : s.Encloses s := ⟨.refl s, fun _ _ => ⟨[], rfl, .nil⟩⟩

theorem Encloses.trans {a b c : Stream} (h : a.Encloses b) (h' : b.Encloses c) : a.Encloses c := by
  refine ⟨h.reaches.trans h'.reaches, fun hs hpeek => ?_⟩
  have hb := (h.reaches.sound hs).1
  obtain ⟨new, hnew, hinside⟩ := h.inside hs fun heof => hpeek (h'.reaches.peek_eof hb heof)
  obtain ⟨new', hnew', hinside'⟩ := h'.inside hb hpeek
  refine ⟨new' ++ new, by rw [hnew', hnew, List.append_assoc], ?_⟩
  rw [List.reverse_append]
  exact .append hinside hinside'

theorem encloses_next (hopen : s.peek.kind ≠ .lbrace) (hclose : s.peek.kind ≠ .rbrace) :
    s.Encloses s.next.2 := by
  refine ⟨reaches_next s, fun hs hpeek => ?_⟩
  obtain ⟨comments, t, hpast, hall, ht⟩ := past_next hs fun heof =>
    hpeek ((reaches_next s).peek_eof hs heof)
  refine ⟨t :: comments.reverse, hpast, ?_⟩
  rw [List.reverse_cons, List.reverse_reverse]
  refine .append (.of_trivia hall) (.token ?_ ?_)
  · rcases ht with rfl | ⟨ht, -⟩
    · exact hopen
    · simp [ht]
  · rcases ht with rfl | ⟨ht, -⟩
    · exact hclose
    · simp [ht]

/-- The second token is the one that a look ahead finds. -/
theorem encloses_next_next (hs : s.Sound) (heof : s.peek.kind ≠ .eof) (hopen : s.peek.kind ≠ .lbrace)
    (hclose : s.peek.kind ≠ .rbrace) (hopen' : (s.peekAt 1).kind ≠ .lbrace)
    (hclose' : (s.peekAt 1).kind ≠ .rbrace) : s.Encloses s.next.2.next.2 := by
  have hpeek : s.next.2.peek = s.peekAt 1 := peekAt_next hs heof 0
  exact (encloses_next hopen hclose).trans (encloses_next (hpeek ▸ hopen') (hpeek ▸ hclose'))

theorem encloses_nextRaw (hopen : s.peekRaw.kind ≠ .lbrace) (hclose : s.peekRaw.kind ≠ .rbrace) :
    s.Encloses s.nextRaw.2 := by
  refine ⟨reaches_nextRaw s, fun hs _ => ?_⟩
  by_cases heof : s.peekRaw.kind = .eof
  · exact ⟨[], by rw [nextRaw_eof hs heof]; rfl, .nil⟩
  obtain ⟨t, tail, hrest, -, hnext⟩ := nextRaw_token hs heof
  refine ⟨[t], by rw [hnext]; rfl, ?_⟩
  cases hhalf : s.half with
  | true =>
    obtain ⟨t', tail', hrest', hkind⟩ := hs.half hhalf
    cases hrest.symm.trans hrest'
    exact .token (by simp [hkind]) (by simp [hkind])
  | false =>
    have ht : s.peekRaw = t := by simp [peekRaw, hrest, hhalf]
    exact .token (ht ▸ hopen) (ht ▸ hclose)

theorem encloses_split {t : Token} (h : s.split? = some (t, s')) : s.Encloses s' := by
  refine ⟨(passes_split h).reaches, fun _ _ => ?_⟩
  obtain ⟨shr, tail, -, -, -, -, rfl⟩ := split?_eq_some h
  obtain ⟨comments, -, hpast, hall⟩ := s.atNext_spec
  exact ⟨comments.reverse, hpast, by rw [List.reverse_reverse]; exact .of_trivia hall⟩

/-- A brace, what stands in pairs behind it, and the brace that closes it. -/
theorem encloses_braces (hopener : s.peek.kind = .lbrace) (h : s.next.2.Encloses s')
    (hcloser : s'.peek.kind = .rbrace) : s.Encloses s'.next.2 := by
  have hreach := (reaches_next s).trans h.reaches
  refine ⟨hreach.trans (reaches_next s'), fun hs _ => ?_⟩
  obtain ⟨new, hnew, hinside⟩ := h.inside ((reaches_next s).sound hs).1 (by simp [hcloser])
  obtain ⟨cs, t, hpast, hcs, ht⟩ := past_next hs (by simp [hopener])
  obtain ⟨cs', t', hpast', hcs', ht'⟩ := past_next (hreach.sound hs).1 (by simp [hcloser])
  obtain rfl : t = s.peek := ht.resolve_right fun h => by simp [hopener] at h
  obtain rfl : t' = s'.peek := ht'.resolve_right fun h => by simp [hcloser] at h
  refine ⟨s'.peek :: (cs'.reverse ++ (new ++ (s.peek :: cs.reverse))), ?_, ?_⟩
  · rw [hpast', hnew, hpast]
    simp
  · have hbraces := IsInside.braces hopener (.append hinside (.of_trivia hcs')) hcloser
    have hall := IsInside.append (.of_trivia hcs) hbraces
    simpa using hall

/-- Among the significant tokens, too, the braces are in pairs. -/
theorem Encloses.upcoming (h : s.Encloses s') (hs : s.Sound) (hpeek : s'.peek.kind ≠ .eof)
    (hhalf : s.half = false) (hhalf' : s'.half = false) :
    ∃ ts, s.upcoming = ts ++ s'.upcoming ∧ IsInside ts := by
  obtain ⟨new, hnew, hinside⟩ := h.inside hs hpeek
  have htokens : s'.past.reverse ++ s'.rest = s.past.reverse ++ s.rest := h.reaches.tokens
  rw [hnew, List.reverse_append, List.append_assoc, List.append_cancel_left_eq] at htokens
  refine ⟨new.reverse.filter (!·.isTrivia), ?_, hinside.filter⟩
  rw [upcoming_eq hhalf, upcoming_eq hhalf', ← htokens, List.filter_append]

end Stream

/-- A step that takes braces in pairs where it reports no error. -/
structure ParseState.Encloses (s s' : ParseState) : Prop where
  moves : s.Moves s'
  inside : s.Ready → s'.errors = 0 → s.stream.Encloses s'.stream

namespace ParseState

variable {a b c : ParseState}

@[grind .] theorem Encloses.refl (s : ParseState) : s.Encloses s := ⟨.refl s, fun _ _ => .refl _⟩

@[grind →] theorem Encloses.trans (h : a.Encloses b) (h' : b.Encloses c) : a.Encloses c :=
  ⟨h.moves.trans h'.moves, fun hs herrors =>
    (h.inside hs (h'.moves.errors_eq herrors)).trans (h'.inside (h.moves.ready hs) herrors)⟩

attribute [grind →] Encloses.moves

theorem Encloses.of_errors (h : a.Moves b) (herrors : b.errors ≠ 0) : a.Encloses b :=
  ⟨h, fun _ hnone => absurd hnone herrors⟩

theorem Encloses.of_not_ready (h : a.Moves b) (hs : ¬a.Ready) : a.Encloses b :=
  ⟨h, fun hs' => absurd hs' hs⟩

theorem Encloses.of_stream (h : a.Moves b) (hstream : a.stream.Encloses b.stream) : a.Encloses b :=
  ⟨h, fun _ _ => hstream⟩

theorem Encloses.of_braces (hopener : a.stream.peek.kind = .lbrace) {m e : ParseState}
    (hm : m.stream = a.stream.next.2) (hmoves : a.Moves m) (h : m.Encloses e) (hb : e.Moves b)
    (hcloser : b.errors = 0 → e.stream.peek.kind = .rbrace ∧ b.stream = e.stream.next.2) : a.Encloses b := by
  refine ⟨hmoves.trans (h.moves.trans hb), fun hs herrors => ?_⟩
  obtain ⟨hkind, hstream⟩ := hcloser herrors
  rw [hstream]
  exact Stream.encloses_braces hopener (hm ▸ h.inside (hmoves.ready hs) (hb.errors_eq herrors)) hkind

end ParseState

namespace Parse

open ParseState

variable {α : Type}

def Encloses (p : Parse α) : Prop := ∀ s : ParseState, s.Encloses (p.run s).2

theorem Encloses.spec {p : Parse α} (h : Encloses p) (s : ParseState) :
    ⦃fun st => ⌜st = s⌝⦄ p ⦃⇓ _ st => ⌜s.Encloses st⌝⦄ :=
  triple_iff_run.2 (h s)

theorem Encloses.of_spec {p : Parse α}
    (h : ∀ s, ⦃fun st => ⌜st = s⌝⦄ p ⦃⇓ _ st => ⌜s.Encloses st⌝⦄) : Encloses p :=
  fun s => triple_iff_run.1 (h s)

/-- What a form takes where it can start has its braces in pairs. -/
def EnclosesWhere (p : Parse α) (canStart : Stream → Bool) : Prop :=
  ∀ s : ParseState, s.Moves (p.run s).2 ∧ (canStart s.stream = true → s.Encloses (p.run s).2)

theorem EnclosesWhere.of_spec {p : Parse α} {canStart : Stream → Bool}
    (h : ∀ s, ⦃fun st => ⌜st = s⌝⦄ p
      ⦃⇓ _ st => ⌜s.Moves st ∧ (canStart s.stream = true → s.Encloses st)⌝⦄) : EnclosesWhere p canStart :=
  fun s => triple_iff_run.1 (h s)

theorem EnclosesWhere.spec {p : Parse α} {canStart : Stream → Bool} (h : EnclosesWhere p canStart)
    (s : ParseState) : ⦃fun st => ⌜st = s⌝⦄ p
    ⦃⇓ _ st => ⌜s.Moves st ∧ (canStart s.stream = true → s.Encloses st)⌝⦄ :=
  triple_iff_run.2 (h s)

theorem loop_encloses {σ : Type} {round : σ → Parse (Round σ)} (h : ∀ v, Encloses (round v)) (v : σ)
    (s : ParseState) : ⦃fun st => ⌜st = s⌝⦄ loop v round ⦃⇓ _ st => ⌜s.Encloses st⌝⦄ :=
  loop_keeps (fun _ st => s.Encloses st) (fun v st hI => triple_iff_run.2 (hI.trans (h v st))) (.refl s)

end Parse

/-- The type forms that a language adds take braces in pairs, and so does what is not expected. -/
class Grammar.IsEnclosed (g : Grammar) : Prop where
  primaries : ∀ f ∈ g.primaries, ∀ p, Parse.Encloses p → Parse.EnclosesWhere (f.parse p) f.canStart
  suffixes : ∀ f ∈ g.suffixes, ∀ p base, Parse.Encloses p →
    Parse.EnclosesWhere (f.apply p base) (f.canApply · base)
  unexpected : ∀ take, g.unexpected = some take → Parse.Encloses take

namespace Parse

open ParseState

/-! ## Steps -/

@[local spec high] theorem advance_encloses (s : ParseState) :
    ⦃fun st => ⌜st = s⌝⦄ advance
    ⦃⇓ t st => ⌜t = s.stream.peek ∧ st.stream = s.stream.next.2 ∧ s.Moves st
      ∧ (s.stream.peek.kind ≠ .lbrace → s.stream.peek.kind ≠ .rbrace → s.Encloses st)⌝⦄ := by
  obtain ⟨hpeek, hstream, hmoves⟩ := triple_iff_run.1 (advance_moves s)
  exact triple_iff_run.2 ⟨hpeek, hstream, hmoves, fun hopen hclose =>
    ⟨hmoves, fun _ _ => hstream ▸ Stream.encloses_next hopen hclose⟩⟩

@[local spec high] theorem advanceRaw_encloses (s : ParseState) :
    ⦃fun st => ⌜st = s⌝⦄ advanceRaw
    ⦃⇓ _ st => ⌜s.Moves st
      ∧ (s.stream.peekRaw.kind ≠ .lbrace → s.stream.peekRaw.kind ≠ .rbrace → s.Encloses st)⌝⦄ := by
  have hmoves := triple_iff_run.1 (advanceRaw_moves s)
  exact triple_iff_run.2 ⟨hmoves, fun hopen hclose =>
    ⟨hmoves, fun _ _ => Stream.encloses_nextRaw hopen hclose⟩⟩

@[local spec high] theorem eat?_encloses (k : Kind) (s : ParseState) :
    ⦃fun st => ⌜st = s⌝⦄ eat? k
    ⦃⇓ found st => ⌜s.Moves st ∧ (found.isSome = true → s.stream.peek.kind = k ∧ st.stream = s.stream.next.2)
      ∧ (k ≠ .lbrace → k ≠ .rbrace → s.Encloses st)⌝⦄ := by
  have hmoves := triple_iff_run.1 (eat?_moves k s)
  obtain ⟨-, hsome, hnone⟩ := triple_iff_run.1 (eat?_spec k s)
  refine triple_iff_run.2 ⟨hmoves, fun h => ⟨(hsome h).1, (hsome h).2.2.1⟩, fun hopen hclose =>
    ⟨hmoves, fun _ _ => ?_⟩⟩
  cases hfound : ((eat? k).run s).1.isSome with
  | true =>
    obtain ⟨hkind, -, hstream, -⟩ := hsome hfound
    rw [hstream]
    exact Stream.encloses_next (hkind ▸ hopen) (hkind ▸ hclose)
  | false =>
    rw [(hnone hfound).2]
    exact .refl _

@[local spec high] theorem split_encloses (s : ParseState) :
    ⦃fun st => ⌜st = s⌝⦄ split ⦃⇓ _ st => ⌜s.Encloses st⌝⦄ := by
  have hmoves := triple_iff_run.1 (moves_spec split (.of_and split_spec) s)
  obtain ⟨-, hsome, hnone⟩ := triple_iff_run.1 (split_spec s)
  refine triple_iff_run.2 ⟨hmoves, fun _ _ => ?_⟩
  cases hfound : (split.run s).1 with
  | true =>
    obtain ⟨t, ht⟩ := hsome hfound
    exact Stream.encloses_split ht
  | false =>
    rw [hnone hfound]
    exact .refl _

@[local spec high] theorem report_encloses (d : Diagnostic) (s : ParseState) :
    ⦃fun st => ⌜st = s⌝⦄ report d
    ⦃⇓ _ st => ⌜s.Encloses st ∧ st.stream = s.stream ∧ (d.severity = .error → st.errors ≠ 0)⌝⦄ := by
  obtain ⟨hmoves, hstream, herrors⟩ := triple_iff_run.1 (report_moves d s)
  exact triple_iff_run.2 ⟨⟨hmoves, fun _ _ => hstream ▸ .refl _⟩, hstream, herrors⟩

@[local spec high] theorem newType_encloses (span : Span) (make : Node → TypeExpr) (s : ParseState) :
    ⦃fun st => ⌜st = s⌝⦄ newType span make ⦃⇓ _ st => ⌜s.Encloses st ∧ st.stream = s.stream⌝⦄ :=
  triple_iff_run.2 ⟨⟨⟨.refl _, le_refl _, le_refl _, rfl⟩, fun _ _ => .refl _⟩, rfl⟩

@[local spec high] theorem newMember_encloses (m : Member) (s : ParseState) :
    ⦃fun st => ⌜st = s⌝⦄ newMember m ⦃⇓ _ st => ⌜s.Encloses st ∧ st.stream = s.stream⌝⦄ :=
  triple_iff_run.2 ⟨⟨⟨.refl _, le_refl _, le_refl _, rfl⟩, fun _ _ => .refl _⟩, rfl⟩

@[local spec high] theorem reset_encloses (x : Stream) (s : ParseState) :
    ⦃fun st => ⌜st = s⌝⦄ reset x
    ⦃⇓ _ st => ⌜∀ a : ParseState, a.Moves s → a.stream = x → a.Encloses st⌝⦄ :=
  triple_iff_run.2 fun _ hmoves hstream =>
    ⟨⟨hstream ▸ .refl _, hmoves.errors, hmoves.count, hmoves.file⟩, fun _ _ => hstream ▸ .refl _⟩

variable {g : Grammar} [g.IsEnclosed]

theorem offerWithin_encloses {take : Parse Bool} (htake : Encloses take) (want : Kind) (n : Nat)
    (taken : Bool) (s : ParseState) :
    ⦃fun st => ⌜st = s⌝⦄ offerWithin take want n taken ⦃⇓ _ st => ⌜s.Encloses st⌝⦄ := by
  have htake' := htake.spec
  induction n generalizing taken s with
  | zero =>
    mvcgen [offerWithin]
    grind -linarith
  | succ n ih =>
    refine triple_intro fun Q hQ => ?_
    mvcgen [offerWithin, htake', ih] <;> grind -linarith

@[local spec high] theorem offer_encloses (want : Kind) (s : ParseState) :
    ⦃fun st => ⌜st = s⌝⦄ offer g want ⦃⇓ _ st => ⌜s.Encloses st⌝⦄ := by
  unfold offer
  split
  · mvcgen
    grind -linarith
  · rename_i take htake
    exact offerWithin_encloses (Grammar.IsEnclosed.unexpected take htake) want maxOffers false s

@[local spec high] theorem expect_encloses (k : Kind) (code : Code) (message : Bytes) (s : ParseState) :
    ⦃fun st => ⌜st = s⌝⦄ expect g k code message
    ⦃⇓ found st => ⌜s.Moves st ∧ (k ≠ .lbrace → k ≠ .rbrace → s.Encloses st)
      ∧ (found = none → st.errors ≠ 0)⌝⦄ := by
  unfold expect
  refine triple_intro fun Q hQ => ?_
  mvcgen [-offer_spec] <;> grind -linarith [Stream.isAt, Diagnostic.error]

@[local spec high] theorem closeBrace_encloses (opener : Token) (what : Bytes) (s : ParseState) :
    ⦃fun st => ⌜st = s⌝⦄ closeBrace opener what
    ⦃⇓ _ st => ⌜s.Moves st ∧ (st.errors = 0 → s.stream.peek.kind = .rbrace
      ∧ st.stream = s.stream.next.2)⌝⦄ := by
  unfold closeBrace
  refine triple_intro fun Q hQ => ?_
  mvcgen [-closeBrace_spec] <;> grind -linarith [Diagnostic.error]

theorem loop_leaves {σ : Type} {round : σ → Parse (Round σ)} [∀ v, IsBlind (round v)]
    (hgoes : ∀ v s, ⦃fun st => ⌜st = s⌝⦄ round v ⦃⇓ r st => ⌜Goes s.stream r st.stream⌝⦄)
    (I Q : σ → ParseState → Prop) (s : ParseState)
    (h : ∀ v st, s.Moves st → st.Ready → I v st →
      ⦃fun st' => ⌜st' = st⌝⦄ round v ⦃⇓ r st => ⌜Leaves I Q r st⌝⦄) (v : σ) :
    ⦃fun st => ⌜st = s⌝⦄ loop v round ⦃⇓ v' st => ⌜s.Moves st ∧ (s.Ready → I v s → Q v' st)⌝⦄ := by
  have hmoves := triple_iff_run.1 (moves_spec _ (.of_spec (loop_reaches hgoes v)) s)
  refine triple_iff_run.2 ⟨hmoves, fun hs hI => ?_⟩
  refine Ends.leaves (fun v st => (s.Moves st ∧ st.Ready) ∧ I v st) Q (fun v st hv => ?_)
    ((terminates_of_goes hgoes).ends v s hs.sound) ⟨⟨.refl _, hs⟩, hI⟩
  have hround : st.Moves ((round v).run st).2 := by
    refine triple_iff_run.1 (moves_spec (round v) (.of_spec fun s => ?_) st)
    have hgo := triple_iff_run.1 (hgoes v s)
    refine triple_iff_run.2 ?_
    revert hgo
    cases ((round v).run s).1 with
    | again => exact fun hpasses => hpasses.1
    | stop => exact id
  have hleaves := triple_iff_run.1 (h v st hv.1.1 hv.1.2 hv.2)
  revert hleaves
  cases ((round v).run st).1 with
  | again v' => exact fun hI' => ⟨⟨hv.1.1.trans hround, hround.ready hv.1.2⟩, hI'⟩
  | stop v' => exact id

theorem pathRound_encloses (v : Bytes × Span) (s : ParseState) :
    ⦃fun st => ⌜st = s⌝⦄ pathRound v ⦃⇓ _ st => ⌜s.Encloses st⌝⦄ := by
  unfold pathRound
  refine triple_intro fun Q hQ => ?_
  rcases em s.Ready with hs | hs
  all_goals mvcgen
  all_goals grind -linarith [Encloses.of_not_ready, Encloses.of_stream, Stream.encloses_next_next, Stream.isAt,
    Stream.wordAt, Ready]

@[local spec high] theorem path?_encloses (s : ParseState) :
    ⦃fun st => ⌜st = s⌝⦄ path?
    ⦃⇓ found st => ⌜s.Encloses st ∧ (found = none → st.stream = s.stream)⌝⦄ := by
  have hloop := loop_encloses fun v => .of_spec (pathRound_encloses v)
  unfold path?
  refine triple_intro fun Q hQ => ?_
  mvcgen [hloop, -path?_spec] <;> grind -linarith

theorem bracketRound_encloses (opener : Token) (m : RawMult) (s : ParseState) :
    ⦃fun st => ⌜st = s⌝⦄ bracketRound opener m ⦃⇓ _ st => ⌜s.Encloses st⌝⦄ := by
  unfold bracketRound unclosedMult innerText
  refine triple_intro fun Q hQ => ?_
  mvcgen <;> grind -linarith

@[local spec high] theorem mult_encloses (s : ParseState) :
    ⦃fun st => ⌜st = s⌝⦄ mult ⦃⇓ _ st => ⌜s.Encloses st⌝⦄ := by
  have hloop := fun opener => loop_encloses fun v => .of_spec (bracketRound_encloses opener v)
  unfold mult bracketed
  refine triple_intro fun Q hQ => ?_
  mvcgen [hloop, -mult_spec, -bracketed_spec] <;> grind -linarith

/-! ## Types -/

theorem requiredWith_encloses {type : Parse TypeExpr} (htype : Encloses type) (what : Bytes) :
    Encloses (requiredWith type what) := by
  have htype' := htype.spec
  unfold requiredWith
  refine .of_spec fun s => triple_intro fun Q hQ => ?_
  mvcgen [htype'] <;> grind -linarith

theorem xorRound_encloses {type : Parse TypeExpr} (htype : Encloses type) (v : Array TypeExpr) :
    Encloses (xorRound type v) := by
  have htype' := htype.spec
  unfold xorRound
  refine .of_spec fun s => triple_intro fun Q hQ => ?_
  mvcgen [htype'] <;> grind -linarith [Stream.isAtAny]

theorem fieldRound_encloses {type : Parse TypeExpr} (htype : Encloses type)
    (v : Array (FieldName × TypeExpr)) : Encloses (fieldRound g type v) := by
  have hinner := fun what => (requiredWith_encloses htype what).spec
  unfold fieldRound
  refine .of_spec fun s => triple_intro fun Q hQ => ?_
  mvcgen [hinner, -expect_spec] <;> grind -linarith [Stream.isAtAny]

theorem objectType_encloses {type : Parse TypeExpr} (htype : Encloses type) (s : ParseState) :
    ⦃fun st => ⌜st = s⌝⦄ objectType g type
    ⦃⇓ _ st => ⌜s.Moves st ∧ (s.stream.isAt .lbrace = true → s.Encloses st)⌝⦄ := by
  have hloop := loop_encloses (fieldRound_encloses (g := g) htype)
  unfold objectType
  refine triple_intro fun Q hQ => ?_
  mvcgen [hloop, -closeBrace_spec]
  grind -linarith [Encloses.of_braces, Stream.isAt]

/-- The brace is the second token. -/
theorem xorType_encloses {type : Parse TypeExpr} (htype : Encloses type) (s : ParseState) :
    ⦃fun st => ⌜st = s⌝⦄ xorType type
    ⦃⇓ _ st => ⌜s.Moves st
      ∧ ((s.stream.isAt .kwXor && s.stream.kindAt 1 = .lbrace) = true → s.Encloses st)⌝⦄ := by
  have hloop := loop_encloses (xorRound_encloses htype)
  have hsecond : s.stream.Sound → s.stream.peek.kind ≠ .eof → s.stream.next.2.peek.kind = s.stream.kindAt 1 :=
    fun hs hpeek => Stream.kindAt_next hs hpeek 0
  unfold xorType
  refine triple_intro fun Q hQ => ?_
  mvcgen [hloop, -closeBrace_spec]
  case vc1 st hst keyword s₁ h₁ opener s₂ h₂ alternatives s₃ h₃ _ s₄ h₄ t s₅ =>
    subst hst
    intro h₅ _
    have hmoves : st.Moves s₅ := h₁.2.2.1.trans (h₂.2.2.1.trans (h₃.moves.trans (h₄.1.trans h₅.moves)))
    refine hQ _ _ hmoves fun hstart => ⟨hmoves, fun hs herrors => ?_⟩
    simp only [Stream.isAt, Bool.and_eq_true, decide_eq_true_eq] at hstart
    have hopener : s₁.stream.peek.kind = .lbrace := by
      rw [h₁.2.1, hsecond hs.sound (by simp [hstart.1])]
      exact hstart.2
    have hbraces : s₁.Encloses s₄ := .of_braces hopener h₂.2.1 h₂.2.2.1 h₃ h₄.1 h₄.2
    have hkeyword : st.Encloses s₁ := h₁.2.2.2 (by simp [hstart.1]) (by simp [hstart.1])
    exact (hkeyword.trans (hbraces.trans h₅)).inside hs herrors

@[local spec high] theorem pathType_encloses (s : ParseState) :
    ⦃fun st => ⌜st = s⌝⦄ pathType ⦃⇓ _ st => ⌜s.Encloses st⌝⦄ := by
  unfold pathType
  refine triple_intro fun Q hQ => ?_
  mvcgen [-pathType_spec] <;> grind -linarith

@[local spec high] theorem closeAngle_encloses (opener : Token) (place : Bytes) (s : ParseState) :
    ⦃fun st => ⌜st = s⌝⦄ closeAngle opener place ⦃⇓ _ st => ⌜s.Encloses st⌝⦄ := by
  unfold closeAngle
  refine triple_intro fun Q hQ => ?_
  mvcgen [-closeAngle_spec] <;> grind -linarith

theorem argumentRound_encloses {type : Parse TypeExpr} (htype : Encloses type) (v : Array TypeExpr) :
    Encloses (argumentRound type v) := by
  have htype' := htype.spec
  unfold argumentRound
  refine .of_spec fun s => triple_intro fun Q hQ => ?_
  mvcgen [htype'] <;> grind -linarith [Stream.isAtAny]

theorem typeArguments_encloses {type : Parse TypeExpr} (htype : Encloses type) (base : TypeExpr)
    (s : ParseState) :
    ⦃fun st => ⌜st = s⌝⦄ typeArguments type base
    ⦃⇓ _ st => ⌜s.Moves st ∧ (s.stream.isAt .lt = true → s.Encloses st)⌝⦄ := by
  have hloop := loop_encloses (argumentRound_encloses htype)
  unfold typeArguments typeSpan
  refine triple_intro fun Q hQ => ?_
  mvcgen [hloop, -closeAngle_spec]
  grind -linarith [Stream.isAt]

theorem valueRound_encloses (opener : Token) (v : Array Bytes) : Encloses (valueRound opener v) := by
  unfold valueRound
  refine .of_spec fun s => triple_intro fun Q hQ => ?_
  mvcgen <;> grind -linarith

theorem enumeratedValues_encloses (base : TypeExpr) (s : ParseState) :
    ⦃fun st => ⌜st = s⌝⦄ enumeratedValues base
    ⦃⇓ _ st => ⌜s.Moves st ∧ (s.stream.isAt .lparen = true → s.Encloses st)⌝⦄ := by
  have hloop := fun opener => loop_encloses (valueRound_encloses opener)
  unfold enumeratedValues typeSpan
  refine triple_intro fun Q hQ => ?_
  mvcgen [hloop, -enumeratedValues_spec]
  grind -linarith [Stream.isAt]

theorem emptyBrackets_encloses (base : TypeExpr) (s : ParseState) :
    ⦃fun st => ⌜st = s⌝⦄ emptyBrackets base
    ⦃⇓ _ st => ⌜s.Moves st
      ∧ ((s.stream.isAt .lbracket && s.stream.kindAt 1 = .rbracket) = true → s.Encloses st)⌝⦄ := by
  have hsecond : s.stream.Sound → s.stream.peek.kind ≠ .eof → s.stream.next.2.peek.kind = s.stream.kindAt 1 :=
    fun hs hpeek => Stream.kindAt_next hs hpeek 0
  unfold emptyBrackets typeSpan
  rcases em s.Ready with hs | hs
  all_goals refine triple_intro fun Q hQ => ?_
  all_goals mvcgen [-emptyBrackets_spec]
  all_goals grind -linarith [Encloses.of_not_ready, Stream.isAt, Ready]

theorem builtinPrimaries_enclose (f : TypePrimary) (hf : f ∈ builtinPrimaries g) {p : Parse TypeExpr}
    (hp : Encloses p) : EnclosesWhere (f.parse p) f.canStart := by
  simp only [builtinPrimaries, List.mem_cons, List.not_mem_nil, or_false] at hf
  rcases hf with rfl | rfl | rfl
  · exact .of_spec (xorType_encloses hp)
  · exact .of_spec (objectType_encloses hp)
  · exact fun s => ⟨(triple_iff_run.1 (pathType_encloses s)).moves,
      fun _ => triple_iff_run.1 (pathType_encloses s)⟩

theorem builtinSuffixes_enclose (f : TypeSuffix) (hf : f ∈ builtinSuffixes) {p : Parse TypeExpr}
    (base : TypeExpr) (hp : Encloses p) : EnclosesWhere (f.apply p base) (f.canApply · base) := by
  simp only [builtinSuffixes, List.mem_cons, List.not_mem_nil, or_false] at hf
  rcases hf with rfl | rfl | rfl
  · exact .of_spec (typeArguments_encloses hp base)
  · refine .of_spec fun s => triple_iff_run.2 ?_
    obtain ⟨hmoves, hencloses⟩ := triple_iff_run.1 (enumeratedValues_encloses base s)
    exact ⟨hmoves, fun hstart => hencloses (Bool.and_eq_true_iff.1 hstart).1⟩
  · exact .of_spec (emptyBrackets_encloses base)

theorem firstPrimary_encloses {type : Parse TypeExpr} {forms : List TypePrimary}
    (h : ∀ f ∈ forms, EnclosesWhere (f.parse type) f.canStart) : Encloses (firstPrimary type forms) := by
  refine .of_spec fun s => ?_
  induction forms generalizing s with
  | nil =>
    mvcgen [firstPrimary]
    grind -linarith
  | cons form forms ih =>
    have hform := (h form (by simp)).spec
    have hrest := ih fun f hf => h f (by simp [hf])
    refine triple_intro fun Q hQ => ?_
    mvcgen [firstPrimary, hform, hrest] <;> grind -linarith

theorem firstSuffix_encloses {type : Parse TypeExpr} {base : TypeExpr} {forms : List TypeSuffix}
    (h : ∀ f ∈ forms, EnclosesWhere (f.apply type base) (f.canApply · base)) :
    Encloses (firstSuffix type base forms) := by
  refine .of_spec fun s => ?_
  induction forms generalizing s with
  | nil =>
    mvcgen [firstSuffix]
    grind -linarith
  | cons form forms ih =>
    have hform := (h form (by simp)).spec
    have hrest := ih fun f hf => h f (by simp [hf])
    refine triple_intro fun Q hQ => ?_
    mvcgen [firstSuffix, hform, hrest] <;> grind -linarith

theorem suffixes_enclose {type : Parse TypeExpr} {forms : List TypeSuffix}
    (h : ∀ f ∈ forms, ∀ base, EnclosesWhere (f.apply type base) (f.canApply · base)) (n : Nat)
    (base : TypeExpr) : Encloses (suffixes type forms n base) := by
  refine .of_spec fun s => ?_
  induction n generalizing base s with
  | zero =>
    mvcgen [suffixes]
    grind -linarith
  | succ n ih =>
    have hfirst := (firstSuffix_encloses fun f hf => h f hf base).spec
    refine triple_intro fun Q hQ => ?_
    mvcgen [suffixes, hfirst, ih] <;> grind -linarith

theorem typeOver_encloses {inner : Parse TypeExpr} (h : Encloses inner) : Encloses (typeOver g inner) := by
  have hprimary := (firstPrimary_encloses fun f (hf : f ∈ g.primaries ++ builtinPrimaries g) =>
    (List.mem_append.1 hf).elim (fun hf => Grammar.IsEnclosed.primaries f hf _ h)
      fun hf => builtinPrimaries_enclose f hf h).spec
  have hsuffix := fun n base => (suffixes_enclose
    (fun f (hf : f ∈ builtinSuffixes ++ g.suffixes) base => (List.mem_append.1 hf).elim (fun hf => builtinSuffixes_enclose f hf base h)
      fun hf => Grammar.IsEnclosed.suffixes f hf _ base h) n base).spec
  unfold typeOver unknownType
  refine .of_spec fun s => triple_intro fun Q hQ => ?_
  mvcgen [hprimary, hsuffix] <;> grind -linarith

theorem typeWithin_encloses (depth : Nat) : Encloses (typeWithin g depth) := by
  induction depth with
  | zero =>
    refine .of_spec fun s => triple_intro fun Q hQ => ?_
    mvcgen [typeWithin, unknownType]
    grind -linarith
  | succ depth ih => exact typeOver_encloses ih

@[local spec high] theorem requiredType_encloses (what : Bytes) (s : ParseState) :
    ⦃fun st => ⌜st = s⌝⦄ requiredType g what ⦃⇓ _ st => ⌜s.Encloses st⌝⦄ :=
  (requiredWith_encloses (typeWithin_encloses maxTypeDepth) what).spec s

/-! ## Initial values -/

/-- Inside an initial value that began at `start`, `depth` brackets are open. -/
def InValue (start : Stream) (depth : Nat) (s : Stream) : Prop :=
  ∃ new, s.past = new ++ start.past ∧ ∀ ts, ClosesAll depth ts → ClosesAll 0 (new.reverse ++ ts)

theorem InValue.next {start s : Stream} {depth depth' : Nat} (h : InValue start depth s) (hs : s.Sound)
    (hpeek : s.peek.kind ≠ .eof)
    (hopen : ∀ t : Token, (t = s.peek ∨ t.kind = .inherit ∧ s.peek.kind = .gt) → ∀ ts,
      ClosesAll depth' ts → ClosesAll depth (t :: ts)) : InValue start depth' s.next.2 := by
  obtain ⟨new, hnew, hall⟩ := h
  obtain ⟨comments, t, hpast, hcomments, ht⟩ := Stream.past_next hs hpeek
  refine ⟨t :: (comments.reverse ++ new), by rw [hpast, hnew]; simp, fun ts hts => ?_⟩
  have hbehind := hall _ ((closesAll_append hcomments depth (t :: ts)).2 (hopen t ht ts hts))
  simpa using hbehind

theorem InValue.opener {start s : Stream} {depth : Nat} (h : InValue start depth s) (hs : s.Sound)
    (hpeek : s.peek.kind = .lbrace ∨ s.peek.kind = .lparen ∨ s.peek.kind = .lbracket) :
    InValue start (depth + 1) s.next.2 := by
  refine h.next hs (by rintro heof; simp [heof] at hpeek) fun t ht ts hts => ?_
  obtain rfl : t = s.peek := ht.resolve_right fun hhalf => by simp [hhalf.2] at hpeek
  rcases hpeek with hkind | hkind | hkind <;> simpa [ClosesAll, hkind] using hts

theorem InValue.closer {start s : Stream} {depth : Nat} (h : InValue start depth s) (hs : s.Sound)
    (hdepth : depth ≠ 0)
    (hpeek : s.peek.kind = .rbrace ∨ s.peek.kind = .rparen ∨ s.peek.kind = .rbracket) :
    InValue start (depth - 1) s.next.2 := by
  refine h.next hs (by rintro heof; simp [heof] at hpeek) fun t ht ts hts => ?_
  obtain rfl : t = s.peek := ht.resolve_right fun hhalf => by simp [hhalf.2] at hpeek
  rcases hpeek with hkind | hkind | hkind <;>
    simpa [ClosesAll, hkind] using ⟨Nat.pos_of_ne_zero hdepth, hts⟩

theorem InValue.plain {start s : Stream} {depth : Nat} (h : InValue start depth s) (hs : s.Sound)
    (heof : s.peek.kind ≠ .eof) (hbrace : s.peek.kind ≠ .lbrace) (hparen : s.peek.kind ≠ .lparen)
    (hbracket : s.peek.kind ≠ .lbracket) (hbrace' : s.peek.kind ≠ .rbrace) (hparen' : s.peek.kind ≠ .rparen)
    (hbracket' : s.peek.kind ≠ .rbracket) : InValue start depth s.next.2 := by
  refine h.next hs heof fun t ht ts hts => ?_
  have hkind : t.kind ∉ [.lbrace, .lparen, .lbracket, .rbrace, .rparen, .rbracket] := by
    rcases ht with rfl | ⟨hkind, -⟩
    · simp [hbrace, hparen, hbracket, hbrace', hparen', hbracket']
    · simp [hkind]
  rw [ClosesAll]
  split <;> simp_all

theorem initializerRound_values {start : Stream} {s : ParseState} (hs : s.Ready) (depth : Nat)
    (h : InValue start depth s.stream) :
    ⦃fun st => ⌜st = s⌝⦄ initializerRound depth
    ⦃⇓ r st => ⌜Leaves (fun depth st => InValue start depth st.stream)
      (fun _ st => st.stream.peek.kind ≠ .eof → InValue start 0 st.stream) r st⌝⦄ := by
  unfold initializerRound
  refine triple_intro fun Q hQ => ?_
  mvcgen <;> grind -linarith [Leaves, InValue.opener, InValue.closer, InValue.plain, Stream.isAt, Ready]

theorem skipInitializer_values (s : ParseState) :
    ⦃fun st => ⌜st = s⌝⦄ skipInitializer
    ⦃⇓ _ st => ⌜s.Moves st ∧ (s.Ready → st.stream.peek.kind ≠ .eof → InValue s.stream 0 st.stream)⌝⦄ := by
  have hloop := loop_leaves initializerRound_spec (fun depth st => InValue s.stream depth st.stream)
    (fun _ st => st.stream.peek.kind ≠ .eof → InValue s.stream 0 st.stream) s
    (fun depth st _ hst hI => initializerRound_values hst depth hI) 0
  obtain ⟨hmoves, hvalue⟩ := triple_iff_run.1 hloop
  exact triple_iff_run.2 ⟨hmoves, fun hs => hvalue hs ⟨[], rfl, fun _ hts => hts⟩⟩

theorem encloses_value {a m b : ParseState} (hassign : a.stream.peek.kind = .assign)
    (hm : m.stream = a.stream.next.2) (hmoves : a.Moves m) (hb : m.Moves b)
    (hvalue : m.Ready → b.stream.peek.kind ≠ .eof → InValue m.stream 0 b.stream) :
    ParseState.Encloses a b := by
  refine ⟨hmoves.trans hb, fun hs _ => ⟨(hmoves.trans hb).stream, fun _ hpeek => ?_⟩⟩
  obtain ⟨new, hnew, hall⟩ := hvalue (hmoves.ready hs) hpeek
  obtain ⟨comments, t, hpast, hcomments, ht⟩ := Stream.past_next hs.sound (by simp [hassign])
  obtain rfl : t = a.stream.peek := ht.resolve_right fun h => by simp [hassign] at h
  refine ⟨new ++ a.stream.peek :: comments.reverse, by rw [hnew, hm, hpast]; simp, ?_⟩
  have hclosed : ClosesAll 0 new.reverse := by simpa using hall [] rfl
  have hinside := IsInside.append (.of_trivia hcomments) (.value hassign hclosed)
  simpa using hinside

@[local spec high] theorem skipInitializer_encloses (s : ParseState) :
    ⦃fun st => ⌜st = s⌝⦄ skipInitializer
    ⦃⇓ _ st => ⌜∀ a : ParseState, a.stream.peek.kind = .assign → s.stream = a.stream.next.2 → a.Moves s →
      a.Encloses st⌝⦄ := by
  obtain ⟨hmoves, hvalue⟩ := triple_iff_run.1 (skipInitializer_values s)
  exact triple_iff_run.2 fun _ hassign hstream ha => encloses_value hassign hstream ha hmoves hvalue

/-! ## Members -/

@[local spec high] theorem memberEnded_encloses (s : ParseState) :
    ⦃fun st => ⌜st = s⌝⦄ memberEnded ⦃⇓ _ st => ⌜st = s⌝⦄ := memberEnded_spec s

theorem memberModifierRound_encloses (v : Modifiers) : Encloses (memberModifierRound v) := by
  unfold memberModifierRound
  refine .of_spec fun s => triple_intro fun Q hQ => ?_
  mvcgen <;> grind -linarith

@[local spec high] theorem memberModifiers_encloses (s : ParseState) :
    ⦃fun st => ⌜st = s⌝⦄ memberModifiers ⦃⇓ _ st => ⌜s.Encloses st⌝⦄ :=
  loop_encloses memberModifierRound_encloses _ s

theorem param_encloses (s : ParseState) :
    ⦃fun st => ⌜st = s⌝⦄ param g
    ⦃⇓ _ st => ⌜s.Moves st ∧ (s.stream.peek.isWord = true → s.Encloses st)⌝⦄ := by
  unfold param
  refine triple_intro fun Q hQ => ?_
  mvcgen [-memberModifiers_spec, -requiredType_spec, -mult_spec] <;> grind -linarith

theorem paramRound_encloses (opener : Token) (v : Array Param) : Encloses (paramRound g opener v) := by
  have hparam := param_encloses (g := g)
  unfold paramRound
  refine .of_spec fun s => triple_intro fun Q hQ => ?_
  mvcgen [hparam, -param_spec] <;> grind -linarith

@[local spec high] theorem params_encloses (s : ParseState) :
    ⦃fun st => ⌜st = s⌝⦄ params g
    ⦃⇓ _ st => ⌜s.Moves st ∧ (s.stream.peek.kind = .lparen → s.Encloses st)⌝⦄ := by
  have hloop := fun opener => loop_encloses (paramRound_encloses (g := g) opener)
  unfold params
  refine triple_intro fun Q hQ => ?_
  mvcgen [hloop, -params_spec]
  grind -linarith

@[local spec high] theorem constraintArg_encloses (c : InlineConstraint) (s : ParseState) :
    ⦃fun st => ⌜st = s⌝⦄ constraintArg c ⦃⇓ _ st => ⌜s.Encloses st⌝⦄ := by
  unfold constraintArg
  refine triple_intro fun Q hQ => ?_
  mvcgen [-constraintArg_spec] <;> grind -linarith

theorem inlineConstraintRound_encloses (v : Array InlineConstraint) : Encloses (inlineConstraintRound v) := by
  unfold inlineConstraintRound
  refine .of_spec fun s => triple_intro fun Q hQ => ?_
  mvcgen [-constraintArg_spec] <;> grind -linarith [Encloses.of_errors, Diagnostic.error]

@[local spec high] theorem inlineConstraints_encloses (s : ParseState) :
    ⦃fun st => ⌜st = s⌝⦄ inlineConstraints
    ⦃⇓ _ st => ⌜s.Moves st ∧ (s.stream.peek.kind = .lbrace → s.Encloses st)⌝⦄ := by
  have hloop := loop_encloses inlineConstraintRound_encloses
  unfold inlineConstraints
  refine triple_intro fun Q hQ => ?_
  mvcgen [hloop, -inlineConstraints_spec, -closeBrace_spec]
  grind -linarith [Encloses.of_braces]

@[local spec high] theorem operator?_encloses (s : ParseState) :
    ⦃fun st => ⌜st = s⌝⦄ operator? ⦃⇓ _ st => ⌜s.Encloses st⌝⦄ := by
  unfold operator?
  refine triple_intro fun Q hQ => ?_
  mvcgen [-operator?_spec] <;> grind -linarith

@[local spec high] theorem memberSuffix_encloses (m : Member) (s : ParseState) :
    ⦃fun st => ⌜st = s⌝⦄ memberSuffix g m ⦃⇓ _ st => ⌜s.Encloses st⌝⦄ := by
  unfold memberSuffix
  refine triple_intro fun Q hQ => ?_
  mvcgen [-memberSuffix_spec, -operator?_spec, -memberModifiers_spec, -requiredType_spec, -mult_spec,
      -inlineConstraints_spec] <;>
    grind -linarith [Stream.isAt]

theorem movedFrom_of_passes {s s' : Stream} (hs : s.Sound) (h : s.Passes s') : s'.movedFrom s = true := by
  have hbefore := Stream.before_iff.1 (h.2 hs)
  by_contra hmoved
  simp only [Stream.movedFrom, ne_eq, decide_not, Bool.or_eq_true, Bool.not_eq_true', not_or,
    Bool.not_eq_false, decide_eq_true_eq] at hmoved
  unfold Stream.place at hbefore
  rw [hmoved.1, hmoved.2] at hbefore
  exact lt_irrefl _ hbefore

omit [g.IsEnclosed] in
theorem member_passes [g.IsForward] (s : ParseState) :
    ⦃fun st => ⌜st = s⌝⦄ member g ⦃⇓ r st => ⌜∀ m, r = .ok m → s.stream.Passes st.stream⌝⦄ := by
  unfold member
  refine triple_intro fun Q hQ => ?_
  mvcgen [-member_spec, -advance_encloses, -eat?_encloses, -offer_encloses, -newMember_encloses,
      -memberModifiers_encloses, -params_encloses, -memberSuffix_encloses] <;>
    grind -linarith

/-- What is wrong with a member that is not read is not told yet. -/
theorem member_encloses (s : ParseState) :
    ⦃fun st => ⌜st = s⌝⦄ member g ⦃⇓ r st => ⌜s.Encloses st ∧ r ≠ .error .reported⌝⦄ := by
  unfold member
  refine triple_intro fun Q hQ => ?_
  mvcgen [-member_spec, -memberModifiers_spec, -params_spec, -memberSuffix_spec, -offer_spec] <;>
    grind -linarith [Visibility.not_brace_of_ofKind, Stream.isAt]

@[local spec high] theorem enumLiteral_encloses (s : ParseState) :
    ⦃fun st => ⌜st = s⌝⦄ enumLiteral
    ⦃⇓ _ st => ⌜s.Moves st ∧ (s.stream.peek.isWord = true → s.Encloses st ∧ s.stream.Passes st.stream)⌝⦄ := by
  unfold enumLiteral
  refine triple_intro fun Q hQ => ?_
  mvcgen [-enumLiteral_spec]
  grind -linarith

@[local spec high] theorem finishMember_encloses [g.IsForward] [g.IsBlind] (start : Stream) (s : ParseState) :
    ⦃fun st => ⌜st = s⌝⦄ finishMember g start ⦃⇓ _ st => ⌜s.Encloses st⌝⦄ := by
  have hsync := moves_spec (syncMember start) (.of_and (syncMember_spec start))
  unfold finishMember
  refine triple_intro fun Q hQ => ?_
  mvcgen [hsync, -syncMember_spec, -offer_spec] <;> grind -linarith [Encloses.of_errors, Diagnostic.error]

/-- A list of members may end at the comment that waits for its member. -/
theorem memberRound_encloses [g.IsForward] [g.IsBlind] (isEnum : Bool) (v : Array Member × PendingDoc)
    (s : ParseState) :
    ⦃fun st => ⌜st = s⌝⦄ memberRound g isEnum v
    ⦃⇓ r st => ⌜match r with
      | .again v' => s.Encloses st ∧ (v'.2.mark = v.2.mark ∨ v'.2.mark = some s.stream)
      | .stop _ => s.Encloses st ∨ ∃ mark, v.2.mark = some mark ∧ st = { s with stream := mark }⌝⦄ := by
  have hmember : ∀ s, ⦃fun st => ⌜st = s⌝⦄ member g
      ⦃⇓ r st => ⌜(s.Encloses st ∧ r ≠ .error .reported)
        ∧ ∀ m, r = .ok m → s.stream.Passes st.stream⌝⦄ := fun s =>
    triple_iff_run.2 ⟨triple_iff_run.1 (member_encloses s), triple_iff_run.1 (member_passes s)⟩
  have hreset : ∀ x s, ⦃fun st => ⌜st = s⌝⦄ reset x ⦃⇓ _ st => ⌜st = { s with stream := x }⌝⦄ :=
    fun x s => triple_iff_run.2 rfl
  have hsync := fun start => moves_spec (syncMember start) (.of_and (syncMember_spec start))
  unfold memberRound
  refine triple_intro fun Q hQ => ?_
  rcases em s.Ready with hs | hs
  all_goals mvcgen [hmember, hreset, hsync, reportFailure_reports, -reportFailure_spec, -member_spec, -syncMember_spec,
    -reset_spec, -reset_encloses]
  all_goals grind -linarith [Encloses.of_errors, Encloses.of_not_ready, movedFrom_of_passes, Stream.peek_eq_peekRaw, Ready]

/-- What a list of members that began at `start` holds; the comment that waits is behind the start, too. -/
structure EnclosesFrom (start : ParseState) (v : Array Member × PendingDoc) (st : ParseState) : Prop where
  encloses : start.Encloses st
  mark : ∀ mark, v.2.mark = some mark → start.Encloses { st with stream := mark }

/-- Errors that come later do not matter to a stream that waits. -/
theorem encloses_mark {start st st' : ParseState} {mark : Stream}
    (h : ParseState.Encloses start { st with stream := mark }) (hmoves : st.Moves st') :
    ParseState.Encloses start { st' with stream := mark } :=
  ⟨⟨h.moves.stream, h.moves.errors.trans hmoves.errors, h.moves.count.trans hmoves.count,
      hmoves.file.trans h.moves.file⟩,
    fun hs herrors => h.inside hs (hmoves.errors_eq herrors)⟩

variable [g.IsForward] [g.IsBlind]

@[local spec high] theorem memberList_encloses (isEnum : Bool) (s : ParseState) :
    ⦃fun st => ⌜st = s⌝⦄ memberList g isEnum ⦃⇓ _ st => ⌜s.Encloses st⌝⦄ := by
  have hloop : ∀ v, v.2.mark = none →
      ⦃fun st => ⌜st = s⌝⦄ loop v (memberRound g isEnum) ⦃⇓ _ st => ⌜s.Encloses st⌝⦄ := by
    intro v hv
    refine loop_spec (EnclosesFrom s) (fun _ st => s.Encloses st) (fun _ _ hI => hI.encloses)
      (fun v st hI => ?_) ⟨.refl _, by simp [hv]⟩
    have hround := triple_iff_run.1 (memberRound_encloses (g := g) isEnum v st)
    refine triple_iff_run.2 ?_
    revert hround
    cases ((memberRound g isEnum v).run st).1 with
    | again v' =>
      rintro ⟨hencloses, hmark⟩
      refine ⟨hI.encloses.trans hencloses, fun mark hsome => ?_⟩
      rcases hmark with hmark | hmark
      · exact encloses_mark (hI.mark mark (hmark ▸ hsome)) hencloses.moves
      · obtain rfl : st.stream = mark := Option.some.inj (hmark.symm.trans hsome)
        exact encloses_mark hI.encloses hencloses.moves
    | stop v' =>
      rintro (hencloses | ⟨mark, hmark, hst⟩)
      · exact hI.encloses.trans hencloses
      · exact hst ▸ hI.mark mark hmark
  unfold memberList
  refine triple_intro fun Q hQ => ?_
  mvcgen [hloop, -memberList_spec]
  grind -linarith

end Parse

open Parse ParseState

attribute [local spec high] advance_encloses eat?_encloses newType_encloses skipInitializer_encloses

theorem Stream.kind_of_nameAt {s : Stream} {names : List Bytes} {n : Nat} (h : s.nameAt names n = true) :
    (s.peekAt n).kind = .ident :=
  of_decide_eq_true (Bool.and_eq_true_iff.1 h).1

theorem Stream.peek_of_nameAt {s : Stream} {names : List Bytes} (h : s.nameAt names 0 = true) :
    s.peek.kind = .ident := kind_of_nameAt h

instance : Grammar.IsEnclosed {} where
  primaries := by simp
  suffixes := by simp
  unexpected := by simp

namespace TypeScript

theorem typeOperator_encloses {p : Parse TypeExpr} (hp : Encloses p) :
    EnclosesWhere (typeOperator.parse p) typeOperator.canStart := by
  have hp' := hp.spec
  unfold typeOperator
  refine .of_spec fun s => triple_intro fun Q hQ => ?_
  mvcgen [hp'] <;> grind -linarith [Stream.peek_of_nameAt]

theorem nullable_encloses (p : Parse TypeExpr) (base : TypeExpr) :
    EnclosesWhere (nullable.apply p base) (nullable.canApply · base) := by
  unfold nullable
  refine .of_spec fun s => ?_
  have hsecond : s.stream.Sound → s.stream.peek.kind ≠ .eof → s.stream.next.2.peek = s.stream.peekAt 1 :=
    fun hs hpeek => Stream.peekAt_next hs hpeek 0
  rcases em s.Ready with hs | hs
  all_goals refine triple_intro fun Q hQ => ?_
  all_goals mvcgen
  all_goals grind -linarith [Encloses.of_not_ready, Stream.isAt, Stream.kind_of_nameAt, Ready]

theorem takeUnexpected_encloses : Encloses takeUnexpected := by
  unfold takeUnexpected
  refine .of_spec fun s => triple_intro fun Q hQ => ?_
  mvcgen <;> grind -linarith

instance : grammar.IsEnclosed where
  primaries f hf p hp := by
    obtain rfl := List.mem_singleton.1 hf
    exact typeOperator_encloses hp
  suffixes f hf p base hp := by
    obtain rfl := List.mem_singleton.1 hf
    exact nullable_encloses p base
  unexpected take htake := by
    obtain rfl := Option.some.inj htake
    exact takeUnexpected_encloses

end TypeScript

namespace Java

theorem wildcard_encloses {p : Parse TypeExpr} (hp : Encloses p) :
    EnclosesWhere (wildcard.parse p) wildcard.canStart := by
  have hp' := hp.spec
  unfold wildcard
  refine .of_spec fun s => triple_intro fun Q hQ => ?_
  mvcgen [hp'] <;> grind -linarith [Stream.peek_of_nameAt, Stream.isAt]

theorem thrownSegmentRound_encloses (v : Unit) : Encloses (thrownSegmentRound v) := by
  unfold thrownSegmentRound
  refine .of_spec fun s => ?_
  rcases em s.Ready with hs | hs
  all_goals refine triple_intro fun Q hQ => ?_
  all_goals mvcgen
  all_goals grind -linarith [Encloses.of_not_ready, Encloses.of_stream, Stream.encloses_next_next, Stream.isAt,
    Stream.wordAt, Ready]

theorem thrownRound_encloses (v : Unit) : Encloses (thrownRound v) := by
  have hloop := loop_encloses thrownSegmentRound_encloses
  unfold thrownRound
  refine .of_spec fun s => triple_intro fun Q hQ => ?_
  mvcgen [hloop] <;> grind -linarith [Stream.isAt]

theorem takeUnexpected_encloses : Encloses takeUnexpected := by
  have hthrows := loop_encloses thrownRound_encloses
  unfold takeUnexpected skipThrows
  refine .of_spec fun s => triple_intro fun Q hQ => ?_
  mvcgen [hthrows] <;> grind -linarith [Stream.isAt, Stream.peek_of_nameAt]

instance : grammar.IsEnclosed where
  primaries f hf p hp := by
    obtain rfl := List.mem_singleton.1 hf
    exact wildcard_encloses hp
  suffixes := by simp [grammar]
  unexpected take htake := by
    obtain rfl := Option.some.inj htake
    exact takeUnexpected_encloses

end Java
end Uml
