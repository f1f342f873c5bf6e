import Mathlib
import Uml.Proofs.Lexer.Quick
import Uml.Proofs.Parser.Declarations
import Uml.Proofs.Parser.Enclosed
import Uml.Proofs.Parser.LookAhead

/-!
# Skipping a broken statement

Inside a package a skip ends at the level of braces at which it began, or at the end of the file. It
begins where the rule gave up, which for most rules is before the first brace.
-/
namespace Uml

open Std.Do

set_option mvcgen.warning false

/-- A brace leads one level up or down. -/
def Token.brace (t : Token) : Int :=
  match t.kind with
  | .lbrace => 1
  | .rbrace => -1
  | _ => 0

theorem Token.brace_eq_zero {t : Token} (hopen : t.kind ≠ .lbrace) (hclose : t.kind ≠ .rbrace) :
    t.brace = 0 := by
  unfold brace
  split <;> simp_all

theorem Token.brace_open {t : Token} (h : t.kind = .lbrace) : t.brace = 1 := by
  simp [brace, h]

theorem Token.brace_close {t : Token} (h : t.kind = .rbrace) : t.brace = -1 := by
  simp [brace, h]

theorem Token.not_brace_of_isKey {t : Token} (h : (!t.isWord && !decide (t.kind = .string)) = false) :
    t.kind ≠ .lbrace ∧ t.kind ≠ .rbrace := by
  constructor <;> intro hkind <;> simp [isWord, Kind.isWord, Kind.isKeyword, hkind] at h

@[grind →] theorem Modifier.not_brace_of_ofKeyword? {k : Kind} {m : Modifier}
    (h : ofKeyword? k = some m) : k ≠ .lbrace ∧ k ≠ .rbrace := by
  constructor <;> rintro rfl <;> simp [ofKeyword?] at h

theorem Token.brace_of_isTrivia {t : Token} (h : t.isTrivia = true) : t.brace = 0 := by
  apply brace_eq_zero <;> intro hkind <;> simp [isTrivia, hkind, Kind.isTrivia] at h

namespace Stream

/-- How many more braces are opened than closed among the tokens passed. -/
def level (s : Stream) : Int := (s.past.map Token.brace).sum

theorem level_atNext (s : Stream) : s.atNext.level = s.level := by
  obtain ⟨comments, -, hpast, htrivia⟩ := s.atNext_spec
  have hzero : ((comments.reverse).map Token.brace).sum = 0 := by
    refine List.sum_eq_zero fun x hx => ?_
    obtain ⟨t, ht, rfl⟩ := List.mem_map.1 hx
    exact Token.brace_of_isTrivia (htrivia t (List.mem_reverse.1 ht))
  rw [level, hpast, List.map_append, List.sum_append, hzero, zero_add, level]

theorem level_nextRaw {s : Stream} (hs : s.Sound) :
    s.nextRaw.2.level = s.level + s.peekRaw.brace := by
  by_cases heof : s.peekRaw.kind = .eof
  · rw [nextRaw_eof hs heof, Token.brace_eq_zero (by simp [heof]) (by simp [heof]), add_zero]
  · obtain ⟨t, tail, hrest, -, hnext⟩ := nextRaw_token hs heof
    have hbrace : t.brace = s.peekRaw.brace := by
      cases hhalf : s.half with
      | true =>
        obtain ⟨t', tail', hrest', hkind⟩ := hs.half hhalf
        cases hrest.symm.trans hrest'
        simp [peekRaw, hrest, hhalf, Token.brace, secondHalf, hkind]
      | false => simp [peekRaw, hrest, hhalf]
    rw [hnext]
    simp only [level, List.map_cons, List.sum_cons, hbrace]
    exact add_comm _ _

theorem level_next {s : Stream} (hs : s.Sound) : s.next.2.level = s.level + s.peek.brace := by
  rw [next_eq, level_nextRaw hs.atNext, level_atNext, peek_eq]

theorem level_split {s s' : Stream} {t : Token} (h : s.split? = some (t, s')) : s'.level = s.level := by
  obtain ⟨shr, tail, -, -, -, -, rfl⟩ := split?_eq_some h
  exact level_atNext s

theorem Reaches.past_eq {s s' : Stream} (h : s.Reaches s') (hs : s.Sound) :
    ∃ new, s'.past = new ++ s.past := by
  have hindex := h.index_le hs
  have hlead : s.past.reverse <+: s'.past.reverse := by
    refine List.prefix_of_prefix_length_le (List.prefix_append _ s.rest) ?_ (by simpa [index] using hindex)
    exact (show s'.past.reverse ++ s'.rest = s.past.reverse ++ s.rest from h.tokens) ▸ List.prefix_append _ _
  obtain ⟨new, hnew⟩ := hlead
  refine ⟨new.reverse, ?_⟩
  have hreverse := congrArg List.reverse hnew
  simpa using hreverse.symm

theorem not_brace_of_isAtAny {s : Stream} (h : s.isAtAny [.colon, .assign] = true) :
    s.peek.kind ≠ .lbrace ∧ s.peek.kind ≠ .rbrace := by
  constructor <;> intro hkind <;> simp [isAtAny, hkind] at h

/-- The way from one stream to another leads to the level where it began. -/
structure KeepsLevel (s s' : Stream) : Prop where
  reaches : s.Reaches s'
  level : s.Sound → s'.level = s.level

@[grind .] theorem KeepsLevel.refl (s : Stream) : s.KeepsLevel s := ⟨.refl s, fun _ => rfl⟩

@[grind →] theorem KeepsLevel.trans {a b c : Stream} (h : a.KeepsLevel b) (h' : b.KeepsLevel c) :
    a.KeepsLevel c :=
  ⟨h.reaches.trans h'.reaches, fun hs => (h'.level (h.reaches.sound hs).1).trans (h.level hs)⟩

attribute [grind →] KeepsLevel.reaches

theorem KeepsLevel.of_sound {s s' : Stream} (h : s.Reaches s') (hlevel : s.Sound → s.KeepsLevel s') :
    s.KeepsLevel s' :=
  ⟨h, fun hs => (hlevel hs).level hs⟩

theorem keepsLevel_next {s : Stream} (hopen : s.peek.kind ≠ .lbrace) (hclose : s.peek.kind ≠ .rbrace) :
    s.KeepsLevel s.next.2 :=
  ⟨reaches_next s, fun hs => by rw [level_next hs, Token.brace_eq_zero hopen hclose, add_zero]⟩

/-- The second token taken is the one that a look ahead has found behind the first. -/
theorem keepsLevel_next_next {s : Stream} (heof : s.peek.kind ≠ .eof) (hopen : s.peek.kind ≠ .lbrace)
    (hclose : s.peek.kind ≠ .rbrace) (hopen' : (s.peekAt 1).kind ≠ .lbrace)
    (hclose' : (s.peekAt 1).kind ≠ .rbrace) : s.KeepsLevel s.next.2.next.2 := by
  refine ⟨(reaches_next s).trans (reaches_next _), fun hs => ?_⟩
  have hpeek : s.next.2.peek = s.peekAt 1 := peekAt_next hs heof 0
  have hsecond := keepsLevel_next (s := s.next.2) (hpeek ▸ hopen') (hpeek ▸ hclose')
  exact ((keepsLevel_next hopen hclose).trans hsecond).level hs

/-- An entity stays ahead while its modifiers are taken. -/
theorem canStartEntity_next {s : Stream} (hs : s.Sound) (hmod : s.peek.kind.isEntityModifier = true) :
    s.next.2.canStartEntity = s.canStartEntity := by
  have hpeek : s.peek.kind ≠ .eof := by
    intro heof
    simp [heof, Kind.isEntityModifier] at hmod
  have hs' := ((reaches_next s).sound hs).1
  obtain ⟨n, hn⟩ : ∃ n, s.rest.length = s.next.2.rest.length + n + 1 := by
    have := (reaches_next s).length_rest
    have := index_lt_next hs hpeek
    exact ⟨s.rest.length - s.next.2.rest.length - 1, by omega⟩
  have hscan : s.scanModifiers s.rest.length 0 = s.next.2.scanModifiers s.next.2.rest.length 0 + 1 := by
    rw [hn]
    refine (if_pos hmod).trans ?_
    rw [scanModifiers_next hs hpeek, hs'.scansEnd.modifiers]
  unfold canStartEntity entityKeywordAt?
  dsimp only
  rw [hscan, kindAt_next hs hpeek]
  split <;> rfl

/-- Where an entity starts, a modifier or the keyword of one is ahead. -/
theorem kind_of_canStartEntity {s : Stream} (h : s.canStartEntity = true) :
    s.peek.kind ≠ .eof ∧ s.peek.kind ≠ .lbrace ∧ s.peek.kind ≠ .rbrace := by
  by_contra hno
  have hzero : s.kindAt 0 = .eof ∨ s.kindAt 0 = .lbrace ∨ s.kindAt 0 = .rbrace := by
    have : s.kindAt 0 = s.peek.kind := rfl
    rw [this]
    by_contra hall
    exact hno (by simpa only [not_or] using hall)
  have hscan : s.scanModifiers s.rest.length 0 = 0 := by
    rcases hzero with hkind | hkind | hkind <;>
      cases s.rest.length <;> simp [scanModifiers, hkind, Kind.isEntityModifier]
  rcases hzero with hkind | hkind | hkind <;>
    simp [canStartEntity, entityKeywordAt?, hscan, hkind, Kind.isEntityKeyword] at h

/-- No brace stands between the brackets that a scan has seen. -/
theorem scanBracket_not_brace {s : Stream} {k i m : Nat} (h : s.scanBracket k i = some m) :
    ∀ j, i ≤ j → j < m → s.kindAt j ≠ .lbrace ∧ s.kindAt j ≠ .rbrace := by
  fun_induction scanBracket s k i with
  | case1 | case3 | case4 | case5 | case6 => cases h
  | case2 k i hkind =>
    intro j hle hlt
    obtain rfl : j = i := by have := Option.some.inj h; omega
    simp [hkind]
  | case7 k i hrbracket heof hlbrace hrbrace hlbracket ih =>
    intro j hle hlt
    rcases Nat.eq_or_lt_of_le hle with rfl | hlt'
    · exact ⟨hlbrace, hrbrace⟩
    · exact ih h j hlt' hlt

/-- Nor in a multiplicity, which also begins with none. -/
theorem scanMult_not_brace {s : Stream} {j : Nat} (h : j < s.scanMult 0) :
    s.kindAt j ≠ .lbrace ∧ s.kindAt j ≠ .rbrace := by
  unfold scanMult at h
  split at h
  · rename_i hkind
    obtain rfl : j = 0 := by omega
    simp [hkind]
  · rename_i hkind
    cases hscan : s.scanBracket maxBracket (0 + 1) with
    | none => simp [hscan] at h
    | some m =>
      rcases Nat.eq_zero_or_pos j with rfl | hpos
      · simp [hkind]
      · exact scanBracket_not_brace hscan j hpos (by simpa [hscan] using h)
  · omega

end Stream

namespace Parse

/-! ## Parsers that take no brace -/

@[local spec high] theorem advance_level (s : ParseState) :
    ⦃fun st => ⌜st = s⌝⦄ advance
    ⦃⇓ t st => ⌜t = s.stream.peek ∧ st.stream = s.stream.next.2 ∧ s.stream.Reaches st.stream
      ∧ (s.stream.peek.kind ≠ .eof → s.stream.Passes st.stream)
      ∧ (s.stream.peek.kind ≠ .lbrace → s.stream.peek.kind ≠ .rbrace → s.stream.KeepsLevel st.stream)⌝⦄ :=
  triple_iff_run.2
    ⟨Stream.next_fst _, rfl, Stream.reaches_next _, Stream.passes_next, Stream.keepsLevel_next⟩

@[local spec high] theorem eat?_level (k : Kind) (s : ParseState) :
    ⦃fun st => ⌜st = s⌝⦄ eat? k
    ⦃⇓ _ st => ⌜s.stream.Reaches st.stream
      ∧ (k ≠ .lbrace → k ≠ .rbrace → s.stream.KeepsLevel st.stream)⌝⦄ := by
  have hrun := triple_iff_run.1 (eat?_spec k s)
  refine triple_iff_run.2 ⟨hrun.1, fun hopen hclose => ?_⟩
  cases hfound : ((eat? k).run s).1.isSome with
  | true =>
    obtain ⟨hkind, -, hstream, -⟩ := hrun.2.1 hfound
    rw [hstream]
    exact Stream.keepsLevel_next (by rwa [hkind]) (by rwa [hkind])
  | false =>
    rw [(hrun.2.2 hfound).2]
    exact .refl _

@[local spec high] theorem split_level (s : ParseState) :
    ⦃fun st => ⌜st = s⌝⦄ split ⦃⇓ _ st => ⌜s.stream.KeepsLevel st.stream⌝⦄ := by
  obtain ⟨hreach, hsome, hnone⟩ := triple_iff_run.1 (split_spec s)
  refine triple_iff_run.2 ?_
  cases hfound : (split.run s).1 with
  | true =>
    obtain ⟨t, ht⟩ := hsome hfound
    exact ⟨hreach, fun _ => Stream.level_split ht⟩
  | false =>
    rw [hnone hfound]
    exact .refl _

theorem loop_keepsLevel {σ : Type} {round : σ → Parse (Round σ)}
    (h : ∀ v s, ⦃fun st => ⌜st = s⌝⦄ round v ⦃⇓ _ st => ⌜s.stream.KeepsLevel st.stream⌝⦄)
    (v : σ) (s : ParseState) :
    ⦃fun st => ⌜st = s⌝⦄ loop v round ⦃⇓ _ st => ⌜s.stream.KeepsLevel st.stream⌝⦄ := by
  refine loop_keeps (fun _ st => s.stream.KeepsLevel st.stream) (fun v st hI => ?_) (.refl _)
  exact triple_iff_run.2 (hI.trans (triple_iff_run.1 (h v st)))

/-- The word behind a dot is the one that a look ahead has found. -/
theorem pathRound_level (v : Bytes × Span) (s : ParseState) :
    ⦃fun st => ⌜st = s⌝⦄ pathRound v ⦃⇓ _ st => ⌜s.stream.KeepsLevel st.stream⌝⦄ := by
  have hround := triple_iff_run.1 (pathRound_takes v s)
  refine triple_iff_run.2 ?_
  cases hrun : (pathRound v).run s with
  | mk r st =>
    rw [hrun] at hround
    cases r with
    | stop v' => exact hround.2 ▸ .refl _
    | again v' =>
      obtain ⟨hat, hstream⟩ := hround
      obtain ⟨hdot, hword⟩ := Bool.and_eq_true_iff.1 hat
      have hkind : s.stream.peek.kind = .dot := of_decide_eq_true hdot
      obtain ⟨hopen, hclose⟩ := Token.not_brace_of_isWord hword
      exact hstream ▸ Stream.keepsLevel_next_next (by simp [hkind]) (by simp [hkind]) (by simp [hkind])
        hopen hclose

@[local spec high] theorem path?_level (s : ParseState) :
    ⦃fun st => ⌜st = s⌝⦄ path? ⦃⇓ _ st => ⌜s.stream.KeepsLevel st.stream⌝⦄ := by
  have hloop := loop_keepsLevel pathRound_level
  refine triple_intro fun Q hQ => ?_
  mvcgen [path?, hloop, -path?_spec] <;> grind -linarith

@[local spec high] theorem mult_level (s : ParseState) :
    ⦃fun st => ⌜st = s⌝⦄ mult ⦃⇓ _ st => ⌜s.stream.KeepsLevel st.stream⌝⦄ := by
  have hloop := fun opener => @loop_keepsLevel _ (bracketRound opener) fun v s => by
    refine triple_intro fun Q hQ => ?_
    mvcgen [bracketRound, unclosedMult, innerText, -bracketRound_spec] <;> grind -linarith
  refine triple_intro fun Q hQ => ?_
  mvcgen [mult, bracketed, hloop, -mult_spec, -bracketed_spec] <;> grind -linarith

@[local spec high] theorem endpoint?_level (s : ParseState) :
    ⦃fun st => ⌜st = s⌝⦄ endpoint? ⦃⇓ _ st => ⌜s.stream.KeepsLevel st.stream⌝⦄ := by
  refine triple_intro fun Q hQ => ?_
  mvcgen [endpoint?, -endpoint?_spec] <;> grind -linarith [Stream.isAt]

/-- The plain notation takes nothing that was not expected. -/
@[local spec high] theorem expect_level (k : Kind) (code : Code) (message : Bytes) (s : ParseState) :
    ⦃fun st => ⌜st = s⌝⦄ expect {} k code message
    ⦃⇓ found st => ⌜s.stream.Reaches st.stream ∧ (found = none → s.stream.KeepsLevel st.stream)
      ∧ (k ≠ .lbrace → k ≠ .rbrace → s.stream.KeepsLevel st.stream)⌝⦄ := by
  refine triple_intro fun Q hQ => ?_
  mvcgen [expect, offer, -expect_spec] <;> grind -linarith [Stream.isAt]

@[local spec high] theorem linkLabel_level (s : ParseState) :
    ⦃fun st => ⌜st = s⌝⦄ linkLabel ⦃⇓ _ st => ⌜s.stream.KeepsLevel st.stream⌝⦄ := by
  refine triple_intro fun Q hQ => ?_
  mvcgen [linkLabel, -linkLabel_spec] <;> grind -linarith [Stream.isAt]

@[local spec high] theorem typeParams_level (s : ParseState) :
    ⦃fun st => ⌜st = s⌝⦄ typeParams
    ⦃⇓ _ st => ⌜s.stream.peek.kind = .lt → s.stream.KeepsLevel st.stream⌝⦄ := by
  have hloop := @loop_keepsLevel _ typeParamRound fun v s => by
    refine triple_intro fun Q hQ => ?_
    mvcgen [typeParamRound, -typeParamRound_spec] <;> grind -linarith
  refine triple_intro fun Q hQ => ?_
  mvcgen [typeParams, closeAngle, hloop, -typeParams_spec, -closeAngle_spec] <;> grind -linarith

theorem isEntityModifier_of_ofKeyword? {k : Kind} {m : Modifier} (h : Modifier.ofKeyword? k = some m) :
    k.isEntityModifier = true := by
  unfold Modifier.ofKeyword? at h
  split at h <;> first | rfl | cases h

/-- Behind the modifiers of an entity its keyword is ahead. -/
@[local spec high] theorem entityModifiers_level (s : ParseState) :
    ⦃fun st => ⌜st = s⌝⦄ entityModifiers
    ⦃⇓ _ st => ⌜s.stream.KeepsLevel st.stream
      ∧ (s.stream.Sound → s.stream.canStartEntity = true → st.stream.canStartEntity = true)⌝⦄ := by
  have hround : ∀ v s, ⦃fun st => ⌜st = s⌝⦄ entityModifierRound v
      ⦃⇓ _ st => ⌜s.stream.KeepsLevel st.stream
        ∧ (s.stream.Sound → st.stream.canStartEntity = s.stream.canStartEntity)⌝⦄ := fun v s => by
    refine triple_intro fun Q hQ => ?_
    mvcgen [entityModifierRound, -entityModifierRound_spec] <;>
      grind -linarith [Stream.canStartEntity_next, → isEntityModifier_of_ofKeyword?]
  refine loop_keeps (fun _ st => s.stream.KeepsLevel st.stream ∧ (s.stream.Sound →
    s.stream.canStartEntity = true → st.stream.canStartEntity = true)) (fun v st hI => ?_)
    ⟨.refl _, fun _ h => h⟩
  obtain ⟨hlevel, hstart⟩ := triple_iff_run.1 (hround v st)
  exact triple_iff_run.2 ⟨hI.1.trans hlevel, fun hs h =>
    (hstart (hI.1.reaches.sound hs).1).trans (hI.2 hs h)⟩

/-! ## What gives up -/

/-- A step that keeps the level and does not say that another rule applies. -/
structure Tries {α : Type} (s s' : Stream) (r : Except Failure α) : Prop where
  keepsLevel : s.KeepsLevel s'
  applies : r ≠ .error .noMatch

theorem loop_tries {α : Type} {round : Except Failure α → Parse (Round (Except Failure α))}
    (h : ∀ v s, ⦃fun st => ⌜st = s⌝⦄ round v
      ⦃⇓ r st => ⌜v ≠ .error .noMatch → Tries s.stream st.stream r.value⌝⦄)
    {v : Except Failure α} (hv : v ≠ .error .noMatch) (s : ParseState) :
    ⦃fun st => ⌜st = s⌝⦄ loop v round ⦃⇓ v' st => ⌜Tries s.stream st.stream v'⌝⦄ := by
  refine loop_keeps (fun v st => Tries s.stream st.stream v) (fun v st hI => ?_) ⟨.refl _, hv⟩
  have hround := triple_iff_run.1 (h v st) hI.applies
  exact triple_iff_run.2 ⟨hI.keepsLevel.trans hround.keepsLevel, hround.applies⟩

@[local spec high] theorem configEntry?_level (s : ParseState) :
    ⦃fun st => ⌜st = s⌝⦄ configEntry? ⦃⇓ _ st => ⌜s.stream.KeepsLevel st.stream⌝⦄ := by
  refine triple_intro fun Q hQ => ?_
  mvcgen [ configEntry?, configValue?, -configEntry?_spec, -configValue?_spec] <;>
    grind -linarith [→ Stream.not_brace_of_isAtAny, → Token.not_brace_of_isKey,
      Stream.keepsLevel_next_next]

@[local spec high] theorem constraintTargets_tries (closer : Kind) (s : ParseState) :
    ⦃fun st => ⌜st = s⌝⦄ constraintTargets closer ⦃⇓ r st => ⌜Tries s.stream st.stream r⌝⦄ := by
  refine loop_tries (fun v s => ?_) (by simp) s
  unfold targetRound
  refine triple_intro fun Q hQ => ?_
  mvcgen <;> grind -linarith [Tries]

@[local spec high] theorem noteAnchors_tries (s : ParseState) :
    ⦃fun st => ⌜st = s⌝⦄ noteAnchors ⦃⇓ r st => ⌜Tries s.stream st.stream r⌝⦄ := by
  refine loop_tries (fun v s => ?_) (by simp) s
  unfold anchorRound
  refine triple_intro fun Q hQ => ?_
  mvcgen <;> grind -linarith [Tries]

/-- Where an operator is expected behind a multiplicity, no brace is. -/
theorem mult_leads_not_brace (s : ParseState) :
    ⦃fun st => ⌜st = s⌝⦄ mult
    ⦃⇓ _ st => ⌜s.stream.KeepsLevel st.stream ∧ (s.stream.Sound →
      s.stream.peek.isRelationship = true ∨ s.stream.multThenOperator = true →
      st.stream.peek.kind ≠ .lbrace ∧ st.stream.peek.kind ≠ .rbrace)⌝⦄ := by
  obtain ⟨-, -, hstays⟩ := triple_iff_run.1 (mult_spec s)
  have htakes := triple_iff_run.1 (mult_consumes s)
  refine triple_iff_run.2 ⟨triple_iff_run.1 (mult_level s), fun hs hahead => ?_⟩
  rcases hahead with hrel | hthen
  · rw [hstays]
    · exact Token.not_brace_of_isRelationship hrel
    all_goals
      intro hkind
      simp [Token.isRelationship, hkind, Kind.isRelationship] at hrel
  · simp only [Stream.multThenOperator, Bool.and_eq_true, decide_eq_true_eq] at hthen
    obtain ⟨c, hc, -, hfew⟩ := htakes hs hthen.1
    have hpeek : (mult.run s).2.stream.peek = s.stream.peekAt c :=
      (hc.peekAt hs 0).trans (by rw [Nat.zero_add])
    rw [hpeek]
    by_cases heq : c = s.stream.scanMult 0
    · exact Token.not_brace_of_isRelationship (heq ▸ hthen.2)
    · exact Stream.scanMult_not_brace (hfew heq).1

theorem header_tries (s : ParseState) :
    ⦃fun st => ⌜st = s⌝⦄ header
    ⦃⇓ r st => ⌜s.stream.peek.isRelationship = true ∨ s.stream.multThenOperator = true →
      Tries s.stream st.stream r⌝⦄ := by
  unfold header
  refine triple_intro fun Q hQ => ?_
  rcases em s.stream.Sound with hs | hs
  all_goals mvcgen [mult_leads_not_brace, -mult_level, -mult_spec]
  all_goals grind -linarith [Tries, Stream.KeepsLevel.of_sound]

@[local spec high] theorem headers_tries (s : ParseState) :
    ⦃fun st => ⌜st = s⌝⦄ headers ⦃⇓ r st => ⌜Tries s.stream st.stream r⌝⦄ := by
  have hheader : ∀ s : ParseState, ⦃fun st => ⌜st = s⌝⦄ header
      ⦃⇓ r st => ⌜(!(s.stream.peek.isRelationship || s.stream.multThenOperator)) = false →
        Tries s.stream st.stream r⌝⦄ := fun s => by
    simpa only [Bool.not_eq_false', Bool.or_eq_true] using header_tries s
  refine loop_tries (fun v s => ?_) (by simp) s
  unfold headerRound
  refine triple_intro fun Q hQ => ?_
  mvcgen [hheader, -header_spec] <;> grind -linarith [Tries]

@[local spec high] theorem chain_applies (fromMult : RawMult) (s : ParseState) :
    ⦃fun st => ⌜st = s⌝⦄ chain {} fromMult
    ⦃⇓ r st => ⌜s.stream.Reaches st.stream ∧ r ≠ .error .noMatch⌝⦄ := by
  have hloop : ∀ s, ⦃fun st => ⌜st = s⌝⦄ loop (.ok ([], fromMult)) (chainRound {})
      ⦃⇓ r st => ⌜s.stream.Reaches st.stream ∧ r ≠ .error .noMatch⌝⦄ := fun s => by
    refine loop_keeps (fun (r : Except Failure (List Link × RawMult)) st => s.stream.Reaches st.stream
      ∧ r ≠ .error .noMatch) (fun v st hI => ?_) ⟨.refl _, by simp⟩
    unfold chainRound chainLink
    refine triple_intro fun Q hQ => ?_
    mvcgen <;> grind -linarith
  unfold chain
  refine triple_intro fun Q hQ => ?_
  mvcgen [hloop]
  rename_i found _ _
  cases found <;> grind -linarith [Except.map]

/-- What a rule may have opened when it gives up. -/
inductive Opened where
  | nothing
  /-- The braces around targets. -/
  | targets
  /-- Bodies with members, and whatever braces are in them. -/
  | bodies

/-- The change of level that goes with it. -/
def Opened.Allows : Opened → Int → Prop
  | .nothing, d => d = 0
  | .targets, d => d = 0 ∨ d = 1
  | .bodies, _ => True

/-- A rule at its start takes something and answers a statement, or it fails for good. -/
structure Breaks (o : Opened) (s s' : Stream) (r : Except Failure (Option Statement)) : Prop where
  passes : s.Passes s'
  applies : r ≠ .error .noMatch
  answers : r ≠ .ok none
  level : ∀ f, r = .error f → s.Sound → o.Allows (s'.level - s.level)

@[grind .] theorem Breaks.answer {o : Opened} {s s' : Stream} {x : Statement} (h : s.Passes s') :
    Breaks o s s' (.ok (some x)) :=
  ⟨h, by simp, by simp, by simp⟩

@[grind .] theorem Breaks.of_keepsLevel {s s' : Stream} {f : Failure} (h : s.Passes s') (hf : f ≠ .noMatch)
    (hlevel : s.KeepsLevel s') : Breaks .nothing s s' (.error f) :=
  ⟨h, by simpa using hf, by simp, fun _ _ hs => sub_eq_zero.2 (hlevel.level hs)⟩

@[grind .] theorem Breaks.of_reaches {s s' : Stream} {f : Failure} (h : s.Passes s') (hf : f ≠ .noMatch) :
    Breaks .bodies s s' (.error f) :=
  ⟨h, by simpa using hf, by simp, fun _ _ _ => trivial⟩

@[grind .] theorem Breaks.of_outside {s s' : Stream} {f : Failure} (h : s.Passes s') (hf : f ≠ .noMatch)
    (hlevel : s.KeepsLevel s') : Breaks .targets s s' (.error f) :=
  ⟨h, by simpa using hf, by simp, fun _ _ hs => .inl (sub_eq_zero.2 (hlevel.level hs))⟩

/-- What is given up behind an opening brace is given up one level above. -/
@[grind .] theorem Breaks.of_inside {s m m' s' : Stream} {f : Failure} (h : s.Passes s') (hf : f ≠ .noMatch)
    (hbefore : s.KeepsLevel m) (hopen : m.peek.kind = .lbrace) (hnext : m' = m.next.2)
    (hbehind : m'.KeepsLevel s') : Breaks .targets s s' (.error f) := by
  refine ⟨h, by simpa using hf, by simp, fun _ _ hs => .inr ?_⟩
  have hm := (hbefore.reaches.sound hs).1
  rw [hbehind.level (hnext ▸ ((Stream.reaches_next m).sound hm).1), hnext, Stream.level_next hm,
    Token.brace_open hopen, hbefore.level hs, add_sub_cancel_left]

theorem config_breaks (s : ParseState) (h : s.stream.peek.kind ≠ .eof) :
    ⦃fun st => ⌜st = s⌝⦄ config ⦃⇓ r st => ⌜Breaks .nothing s.stream st.stream r⌝⦄ := by
  have hloop := loop_reaches configRound_spec
  unfold config newDecl
  refine triple_intro fun Q hQ => ?_
  mvcgen [hloop]
  grind -linarith

theorem atConfig_breaks (s : ParseState) (h : s.stream.peek.kind = .atSign) :
    ⦃fun st => ⌜st = s⌝⦄ atConfig ⦃⇓ r st => ⌜Breaks .nothing s.stream st.stream r⌝⦄ := by
  unfold atConfig newDecl
  refine triple_intro fun Q hQ => ?_
  mvcgen <;> grind -linarith

theorem note_breaks (s : ParseState) (h : s.stream.peek.kind = .kwNote) (hnext : (s.stream.peekAt 1).kind = .string) :
    ⦃fun st => ⌜st = s⌝⦄ note ⦃⇓ r st => ⌜Breaks .nothing s.stream st.stream r⌝⦄ := by
  unfold note newDecl
  refine triple_intro fun Q hQ => ?_
  mvcgen <;> grind -linarith [Stream.keepsLevel_next_next, Tries]

theorem association_breaks (s : ParseState) (h : s.stream.peek.kind = .kwAssociation)
    (hnext : (s.stream.peekAt 1).kind = .ident) :
    ⦃fun st => ⌜st = s⌝⦄ association {} ⦃⇓ r st => ⌜Breaks .nothing s.stream st.stream r⌝⦄ := by
  unfold association newDecl
  refine triple_intro fun Q hQ => ?_
  mvcgen <;> grind -linarith [Stream.keepsLevel_next_next]

theorem package_breaks {p : Parse (Option Statement)} (hp : Forward p) (s : ParseState)
    (h : s.stream.peek.kind = .kwPackage) :
    ⦃fun st => ⌜st = s⌝⦄ package {} p ⦃⇓ r st => ⌜Breaks .nothing s.stream st.stream r⌝⦄ := by
  have hbody := statements_spec hp true
  unfold package
  refine triple_intro fun Q hQ => ?_
  mvcgen [hbody] <;> grind -linarith

theorem entity_breaks (s : ParseState) (hs : s.stream.Sound) (h : s.stream.canStartEntity = true) :
    ⦃fun st => ⌜st = s⌝⦄ entity {} ⦃⇓ r st => ⌜Breaks .nothing s.stream st.stream r⌝⦄ := by
  unfold entity newDecl
  refine triple_intro fun Q hQ => ?_
  mvcgen <;> grind -linarith [Tries, Stream.isAt, → Stream.kind_of_canStartEntity]

theorem kind_of_isOpener {t : Token}
    (h : (!decide (t.kind = .lbrace) && !decide (t.kind = .lparen)) = false) :
    t.kind = .lbrace ∨ t.kind = .lparen := by
  simpa only [Bool.and_eq_false_iff, Bool.not_eq_false', decide_eq_true_eq] using h

/-- Targets in braces are given up inside the braces. -/
theorem constraint_breaks (s : ParseState) (h : s.stream.peek.kind = .kwConstraint) :
    ⦃fun st => ⌜st = s⌝⦄ constraint
    ⦃⇓ r st => ⌜Breaks .targets s.stream st.stream r⌝⦄ := by
  unfold constraint newDecl
  refine triple_intro fun Q hQ => ?_
  mvcgen <;> grind -linarith [Tries, → kind_of_isOpener]

theorem relationship_breaks (s : ParseState) (hs : s.stream.Sound) (h : 0 < s.stream.scanEndpoint 0) :
    ⦃fun st => ⌜st = s⌝⦄ relationship {} ⦃⇓ r st => ⌜Breaks .bodies s.stream st.stream r⌝⦄ := by
  have hendpoint : ∀ s : ParseState, ⦃fun st => ⌜st = s⌝⦄ endpoint?
      ⦃⇓ found st => ⌜s.stream.Reaches st.stream ∧ (found.isSome → s.stream.Passes st.stream)
        ∧ (s.stream.Sound → (found.isSome = true ↔ 0 < s.stream.scanEndpoint 0))⌝⦄ := fun s => by
    obtain ⟨hreach, htakes⟩ := triple_iff_run.1 (endpoint?_spec s)
    have hconsumes := triple_iff_run.1 (endpoint?_consumes s)
    exact triple_iff_run.2 ⟨hreach, fun hfound => (htakes hfound).passes, fun hs => (hconsumes hs).2⟩
  unfold relationship newDecl
  refine triple_intro fun Q hQ => ?_
  mvcgen [hendpoint, -endpoint?_level, -endpoint?_spec] <;> grind -linarith

/-! ## Skipping -/

section

variable {rules : List Rule}

theorem advanceRaw_level (s : ParseState) :
    ⦃fun st => ⌜st = s⌝⦄ advanceRaw
    ⦃⇓ t st => ⌜t = s.stream.peekRaw ∧ st.stream = s.stream.nextRaw.2 ∧ st.depth = s.depth
      ∧ s.stream.Reaches st.stream ∧ (s.stream.Sound → st.stream.level = s.stream.level + s.stream.peekRaw.brace)⌝⦄ :=
  triple_iff_run.2 ⟨Stream.nextRaw_fst _, rfl, rfl, Stream.reaches_nextRaw _, Stream.level_nextRaw⟩

/-- Inside a package, `v` counts the levels above the one where the skip began. -/
theorem syncRound_level (v : Nat) (s : ParseState) (hs : s.stream.Sound) (hdepth : s.depth ≠ 0) :
    ⦃fun st => ⌜st = s⌝⦄ syncRound rules v
    ⦃⇓ r st => ⌜Leaves (fun (v' : Nat) st => st.stream.level - v' = s.stream.level - v)
      (fun _ st => st.stream.peekRaw.kind ≠ .eof → st.stream.level = s.stream.level - v) r st⌝⦄ := by
  have hraw := advanceRaw_level
  unfold syncRound
  refine triple_intro fun Q hQ => ?_
  mvcgen [hraw, -advanceRaw_spec] <;>
    grind [Leaves, Token.brace_open, Token.brace_close, Token.brace_eq_zero]

theorem syncLoop_level {v : Nat} {st : ParseState} {r : Nat × ParseState}
    (h : Ends (syncRound rules) v st r) (hs : st.stream.Sound) (hdepth : st.depth ≠ 0)
    (hstop : r.2.stream.peekRaw.kind ≠ .eof) : r.2.stream.level = st.stream.level - v := by
  induction h with
  | @stop v v' st st' hrun =>
    have hround := triple_iff_run.1 (@syncRound_level rules v st hs hdepth)
    rw [hrun] at hround
    exact hround hstop
  | @again v v₁ st st₁ last hrun hbefore _ ih =>
    have hround := triple_iff_run.1 (@syncRound_level rules v st hs hdepth)
    have hgoes := triple_iff_run.1 (syncRound_spec rules v st)
    have hkept := depth_run (syncRound rules v) st
    rw [hrun] at hround hgoes hkept
    have hlast := ih (hgoes.reaches.sound hs).1 (by rwa [hkept]) hstop
    rw [hlast]
    exact hround

/-- A skip that was given nothing takes the token ahead, whatever it is. From there on, inside a
package, it comes back to the level at which it is, unless it runs to the end of the file. -/
theorem sync_level {start : Stream} (s : ParseState) (hs : s.stream.Sound) (hdepth : s.depth ≠ 0) :
    ⦃fun st => ⌜st = s⌝⦄ sync rules start
    ⦃⇓ _ st => ⌜st.stream.peekRaw.kind ≠ .eof → st.stream.level
      = (if s.stream.movedFrom start = true then s.stream else s.stream.nextRaw.2).level⌝⦄ := by
  have hraw := advanceRaw_level
  have hloop : ∀ s, ⦃fun st => ⌜st = s⌝⦄ loop 0 (syncRound rules)
      ⦃⇓ _ st => ⌜s.stream.Sound → s.depth ≠ 0 → st.stream.peekRaw.kind ≠ .eof →
        st.stream.level = s.stream.level⌝⦄ := fun s => triple_iff_run.2 fun hs hdepth hstop => by
    have hends := (terminates_of_goes (syncRound_spec rules)).ends 0 s hs
    simpa using syncLoop_level hends hs hdepth hstop
  have hnext := (Stream.reaches_nextRaw s.stream).sound hs
  unfold sync
  refine triple_intro fun Q hQ => ?_
  mvcgen [hraw, hloop, -advanceRaw_spec] <;> grind -linarith

end

/-! ## Broken statements -/

theorem allRules_break {p : Parse (Option Statement)} (hp : Forward p) (r : Rule) (hr : r ∈ allRules {})
    (s : ParseState) (hs : s.stream.Sound) (h : r.canStart s.stream = true) :
    ∃ o, Breaks o s.stream ((r.parse p).run s).2.stream ((r.parse p).run s).1
      ∧ (o = .targets → s.stream.canStartConstraint = true)
      ∧ (o = .bodies → s.stream.canStartRelationship = true) := by
  simp only [allRules, builtinRules, List.nil_append, List.mem_cons, List.not_mem_nil, or_false] at hr
  have hnothing : ∀ {st : ParseState} {x : Except Failure (Option Statement)}, Breaks .nothing s.stream st.stream x →
      ∃ o, Breaks o s.stream st.stream x ∧ (o = .targets → s.stream.canStartConstraint = true)
        ∧ (o = .bodies → s.stream.canStartRelationship = true) := fun hbreak =>
    ⟨.nothing, hbreak, by simp, by simp⟩
  rcases hr with rfl | rfl | rfl | rfl | rfl | rfl | rfl | rfl
  · have hkind : s.stream.peek.kind = .kwConfig := of_decide_eq_true (Bool.and_eq_true_iff.1 h).1
    exact hnothing (triple_iff_run.1 (config_breaks s (by simp [hkind])))
  · have hkind : s.stream.peek.kind = .atSign := of_decide_eq_true (Bool.and_eq_true_iff.1 h).1
    exact hnothing (triple_iff_run.1 (atConfig_breaks s hkind))
  · exact ⟨.targets, triple_iff_run.1 (constraint_breaks s (of_decide_eq_true h)), fun _ => h, by simp⟩
  · obtain ⟨hkind, hnext⟩ := Bool.and_eq_true_iff.1 h
    exact hnothing (triple_iff_run.1 (note_breaks s (of_decide_eq_true hkind) (of_decide_eq_true hnext)))
  · obtain ⟨hkind, hnext⟩ := Bool.and_eq_true_iff.1 h
    exact hnothing
      (triple_iff_run.1 (association_breaks s (of_decide_eq_true hkind) (of_decide_eq_true hnext)))
  · exact hnothing (triple_iff_run.1 (package_breaks hp s (of_decide_eq_true h)))
  · exact hnothing (triple_iff_run.1 (entity_breaks s hs h))
  · have hscan : 0 < s.stream.scanEndpoint 0 := of_decide_eq_true (Bool.and_eq_true_iff.1 h).1
    exact ⟨.bodies, triple_iff_run.1 (relationship_breaks s hs hscan), by simp, fun _ => h⟩

/-- Rules that take something and apply leave no statement only if the first that can start fails, or if
none can start. -/
theorem firstRule_none {p : Parse (Option Statement)} (all : List Rule) {rules : List Rule} {st st' : ParseState}
    (hs : st.stream.Sound) (h : ∀ r ∈ rules, r.canStart st.stream = true →
      ∃ o, Breaks o st.stream ((r.parse p).run st).2.stream ((r.parse p).run st).1)
    (hrun : (firstRule all p st.stream rules).run st = (none, st')) :
    (∃ r f m, rules.find? (·.canStart st.stream) = some r ∧ (r.parse p).run st = (.error f, m)
        ∧ st' = ((sync all st.stream).run ((reportFailure f).run m).2).2)
      ∨ rules.find? (·.canStart st.stream) = none
        ∧ ∃ d, st' = ((sync all st.stream).run ((report d).run st).2).2 := by
  induction rules with
  | nil => exact .inr ⟨rfl, _, (congrArg Prod.snd hrun).symm⟩
  | cons rule rules ih =>
    cases hcan : rule.canStart st.stream with
    | false =>
      have hrest : (firstRule all p st.stream (rule :: rules)).run st
          = (firstRule all p st.stream rules).run st := by
        show (if rule.canStart st.stream = true then _ else firstRule all p st.stream rules).run st = _
        rw [hcan]
        rfl
      rw [List.find?_cons_of_neg (by simp [hcan])]
      exact ih (fun r hr => h r (List.mem_cons_of_mem _ hr)) (hrest ▸ hrun)
    | true =>
      obtain ⟨o, hbreaks⟩ := h rule List.mem_cons_self hcan
      cases hparse : (rule.parse p).run st with
      | mk result m =>
        rw [hparse] at hbreaks
        have hstream : stream.run st = (st.stream, st) := rfl
        have hmoved : (movedFrom st.stream).run m = (true, m) :=
          congrArg (·, m) (movedFrom_of_passes hs hbreaks.passes)
        cases result with
        | ok found =>
          simp only [firstRule, run_bind, hstream, hcan, if_true, hparse, hmoved] at hrun
          exact absurd (congrArg Except.ok (congrArg Prod.fst hrun)) hbreaks.answers
        | error f =>
          refine .inl ⟨rule, f, m, by simp [hcan], hparse, ?_⟩
          cases f with
          | noMatch => exact absurd rfl hbreaks.applies
          | reported | syntaxError =>
            simp only [firstRule, run_bind, hstream, hcan, if_true, hparse] at hrun
            exact (congrArg Prod.snd hrun).symm

/-- Where a statement of the plain notation is given up, before anything is skipped: where the first rule
that can start fails, or, if none can, behind the token ahead. -/
inductive GivesUp (inner : Parse (Option Statement)) (st : ParseState) : Stream → Prop
  | fails {r : Rule} {f : Failure} {m : ParseState}
    (hfirst : (allRules {}).find? (·.canStart st.stream) = some r)
    (hrun : (r.parse inner).run st = (.error f, m)) : GivesUp inner st m.stream
  | unknown (hnone : (allRules {}).find? (·.canStart st.stream) = none) :
    GivesUp inner st st.stream.nextRaw.2

theorem documented_answers (p : Parse (Option Statement)) (s : ParseState) :
    ⦃fun st => ⌜st = s⌝⦄ documented p ⦃⇓ r _ => ⌜r ≠ none⌝⦄ := by
  have hp : ∀ s, ⦃fun st => ⌜st = s⌝⦄ p ⦃⇓ _ _ => ⌜True⌝⦄ := fun s => triple_iff_run.2 trivial
  unfold documented newDecl
  refine triple_intro fun Q hQ => ?_
  mvcgen [hp] <;> grind -linarith

/-- A comment is always kept. -/
theorem run_statementOver_none {inner : Parse (Option Statement)} {st st' : ParseState}
    (hrun : (statementOver {} inner).run st = (none, st')) :
    (firstRule (allRules {}) inner st.stream (allRules {})).run st = (none, st') := by
  have hraw : peekRaw.run st = (st.stream.peekRaw, st) := rfl
  have hstream : stream.run st = (st.stream, st) := rfl
  simp only [statementOver, run_bind, hraw] at hrun
  split at hrun
  · exact absurd (congrArg Prod.fst hrun) (triple_iff_run.1 (documented_answers inner st))
  · exact absurd (congrArg Prod.fst hrun) nofun
  · simpa only [run_bind, hstream] using hrun

/-- Inside a package, the skip behind a broken statement ends at the level of braces where the statement
was given up, unless it runs to the end of the file. That is the level where the statement begins, so what
follows stays in the package, with three exceptions: the statement begins with a brace, it is a constraint
whose targets are given up inside their braces, or it is a relationship that is given up behind a brace. -/
theorem broken_level (n : Nat) {st st' : ParseState} (hs : st.stream.Sound) (hdepth : st.depth ≠ 0)
    (hclose : st.stream.peekRaw.kind ≠ .rbrace)
    (hrun : (statementWithin {} (n + 1)).run st = (none, st'))
    (hstop : st'.stream.peekRaw.kind ≠ .eof) :
    ∃ m, GivesUp (statementWithin {} n) st m ∧ st'.stream.level = m.level
      ∧ (m.level = st.stream.level
        ∨ m.level = st.stream.level + 1
          ∧ (st.stream.peekRaw.kind = .lbrace ∨ st.stream.canStartConstraint = true)
        ∨ st.stream.canStartRelationship = true
          ∧ ∃ new, m.past = new ++ st.stream.past ∧ ∃ t ∈ new, t.brace ≠ 0) := by
  have hforward := statementWithin_forward (g := {}) n
  have hbreaks := fun r hr => allRules_break hforward r hr st hs
  rcases firstRule_none (allRules {}) hs (fun r hr hcan => (hbreaks r hr hcan).imp fun _ h => h.1)
    (run_statementOver_none hrun) with ⟨r, f, m, hfirst, hparse, rfl⟩ | ⟨hnone, d, rfl⟩
  · have hr := List.mem_of_find?_eq_some hfirst
    have hcan := List.find?_some hfirst
    obtain ⟨o, hbreak, htargets, hbodies⟩ := hbreaks r hr hcan
    have := allRules_isBlind (g := {}) (statementWithin {} n) r hr
    have hkept := depth_run (r.parse (statementWithin {} n)) st
    rw [hparse] at hbreak hkept
    have hreach := hbreak.passes.reaches
    have hstream : ((reportFailure f).run m).2.stream = m.stream := triple_iff_run.1 (reportFailure_spec f m)
    have hlevel := triple_iff_run.1 (@sync_level (allRules {}) st.stream
      ((reportFailure f).run m).2 (hstream ▸ (hreach.sound hs).1)
      (by rw [depth_run (reportFailure f) m, hkept]; exact hdepth)) hstop
    rw [hstream, if_pos (movedFrom_of_passes hs hbreak.passes)] at hlevel
    refine ⟨m.stream, .fails hfirst hparse, hlevel, ?_⟩
    have hallows := hbreak.level f rfl hs
    cases o with
    | nothing => exact .inl (sub_eq_zero.1 hallows)
    | targets =>
      exact hallows.imp sub_eq_zero.1 fun hone => .inl ⟨sub_eq_iff_eq_add'.1 hone, .inr (htargets rfl)⟩
    | bodies =>
      obtain ⟨new, hnew⟩ := hreach.past_eq hs
      by_cases hbrace : ∃ t ∈ new, t.brace ≠ 0
      · exact .inr (.inr ⟨hbodies rfl, new, hnew, hbrace⟩)
      · refine .inl ?_
        have hzero : (new.map Token.brace).sum = 0 := List.sum_eq_zero fun x hx => by
          obtain ⟨t, ht, rfl⟩ := List.mem_map.1 hx
          exact not_not.1 fun hne => hbrace ⟨t, ht, hne⟩
        rw [Stream.level, hnew, List.map_append, List.sum_append, hzero, zero_add, Stream.level]
  · have hstream : ((report d).run st).2.stream = st.stream := triple_iff_run.1 (report_spec d st)
    have hlevel := triple_iff_run.1 (@sync_level (allRules {}) st.stream
      ((report d).run st).2 (hstream ▸ hs) (by rw [depth_run (report d) st]; exact hdepth)) hstop
    have hstays : st.stream.movedFrom st.stream = false := by simp [Stream.movedFrom]
    rw [hstream, hstays, if_neg Bool.false_ne_true] at hlevel
    refine ⟨st.stream.nextRaw.2, .unknown hnone, hlevel, ?_⟩
    rw [Stream.level_nextRaw hs]
    by_cases hopen : st.stream.peekRaw.kind = .lbrace
    · exact .inr (.inl ⟨by rw [Token.brace_open hopen], .inl hopen⟩)
    · exact .inl (by rw [Token.brace_eq_zero hopen hclose, add_zero])

/-- A class without a name gives up before its braces, and the skip passes them both. -/
theorem broken_level_class :
    let mark (kind : Kind) : Token := { kind, span := {} }
    let st : ParseState :=
      { stream := .ofTokens [mark .kwClass, mark .lbrace, mark .rbrace, mark .rbrace, mark .eof],
        file := .ofBytes 1 [] #[] 0, depth := 1 }
    let st' := ((statementWithin {} 2).run st).2
    st'.stream.peekRaw.kind = .rbrace ∧ st'.stream.index = 3 ∧ ∃ m, GivesUp (statementWithin {} 1) st m
      ∧ st'.stream.level = m.level
      ∧ (m.level = st.stream.level
        ∨ m.level = st.stream.level + 1
          ∧ (st.stream.peekRaw.kind = .lbrace ∨ st.stream.canStartConstraint = true)
        ∨ st.stream.canStartRelationship = true
          ∧ ∃ new, m.past = new ++ st.stream.past ∧ ∃ t ∈ new, t.brace ≠ 0) := by
  intro mark st st'
  have hsound : st.stream.Sound := Stream.closed_sound _
  have hskip : st'.stream.peekRaw.kind = .rbrace ∧ st'.stream.index = 3
      ∧ ((statementWithin {} 2).run st).1.isNone = true := by
    decide
  obtain ⟨hstop, hindex, hnone⟩ := hskip
  have hrun : (statementWithin {} 2).run st = (none, st') :=
    Prod.ext (Option.isNone_iff_eq_none.1 hnone) rfl
  refine ⟨hstop, hindex, ?_⟩
  exact broken_level 1 hsound (by decide) (by decide) hrun (by rw [hstop]; decide)

/-- A constraint that is given up inside its braces: the brace that closes them is taken for that of the
package, and the class behind it stands in no package. -/
theorem broken_level_constraint :
    let file := File.ofBytes 1 [] (Bytes.ofString "package p\x7bconstraint x\x7b5\x7dclass B\x7b\x7d\x7d").toArray 0
    let out := parse {} file (Lexer.tokenize file []).tokens 0
    out.program.visits.map (·.1) = [[], []] := by
  simp only [Lexer.tokenize_eq_quick]
  decide +kernel

end Parse
end Uml
