import Mathlib
import Uml.Proofs.Parser.Accepted
import Uml.Proofs.Parser.Reading

/-!
# Statements are what the tokens say

Every statement form takes the tokens of the statement that it makes, and between two statements only
what the notation drops is passed.
-/
namespace Uml

open Std.Do

set_option mvcgen.warning false

namespace Parse

open ParseState

attribute [local spec high] advanceRaw_moves reset_moves report_moves reportFailure_moves advance_sourced
  eat?_sourced path?_sourced endpoint?_sourced linkLabel_sourced closeBrace_sourced entityBody_sourced headers_sourced
  mult_sourced chain_sourced

/-- What a form makes is what the tokens say that it takes. -/
def Makes (g : Grammar) (file : File) (before : List Token) (r : Except Failure (Option Statement))
    (after : List Token) : Prop :=
  ∀ found, r = .ok found → ∃ x, found = some x ∧ Statement.ReadsAll g file before [x] after

@[grind .] theorem makes_error {g : Grammar} {file : File} (before after : List Token) (why : Failure) :
    Makes g file before (.error why) after :=
  nofun

@[grind .] theorem makes_decl {g : Grammar} {file : File} {before after : List Token} {d : Decl}
    (h : d.Reads g file before after) (tag : Tag) : Makes g file before (.ok (some (.decl tag d))) after :=
  fun _ hfound => ⟨_, (Except.ok.inj hfound).symm, .decl h (.nil _)⟩

theorem reads_config {g : Grammar} {file : File} {s s₁ st : Stream} {keyword : Token}
    (h : s.upcoming = keyword :: s₁.upcoming) (hkeyword : keyword.kind = .kwConfig ∨ keyword.kind = .atSign)
    (hpasses : s₁.PassesPlain st) (entries : List ConfigEntry) :
    Decl.Reads g file s.upcoming (.config entries) st.upcoming := by
  obtain ⟨inner, hinner, hplain⟩ := hpasses
  rw [h, hinner]
  exact .config hkeyword hplain

theorem reads_constraint {g : Grammar} {file : File} {s s₁ st : Stream} {keyword : Token}
    (h : s.upcoming = keyword :: s₁.upcoming) (hkeyword : keyword.kind = .kwConstraint)
    (hpasses : s₁.PassesPlain st) (c : ConstraintDecl) :
    Decl.Reads g file s.upcoming (.constraint c) st.upcoming := by
  obtain ⟨inner, hinner, hplain⟩ := hpasses
  rw [h, hinner]
  exact .constraint hkeyword hplain

theorem reads_note {g : Grammar} {file : File} {s s₁ st : Stream} {keyword : Token}
    (h : s.upcoming = keyword :: s₁.upcoming) (hkeyword : keyword.kind = .kwNote)
    (hpasses : s₁.PassesPlain st) (text : Bytes) (anchors : List Anchor) :
    Decl.Reads g file s.upcoming (.note text anchors) st.upcoming := by
  obtain ⟨inner, hinner, hplain⟩ := hpasses
  rw [h, hinner]
  exact .note hkeyword hplain

variable {file : File} {g : Grammar} [g.IsForward] [g.IsBlind] [g.IsEnclosed]

/-! ## Statement forms -/

@[local spec high] theorem newDecl_makes (span : Span) (d : Decl) (s : ParseState) :
    ⦃fun st => ⌜st = s⌝⦄ newDecl span d
    ⦃⇓ r st => ⌜s.Moves st ∧ st.stream = s.stream ∧ ∃ tag, r = .decl tag d⌝⦄ :=
  triple_iff_run.2 ⟨⟨.refl _, le_refl _, Nat.le_succ _, rfl⟩, rfl, _, rfl⟩

theorem relationship_sourced (s : ParseState) :
    ⦃fun st => ⌜st = s⌝⦄ relationship g
    ⦃⇓ r st => ⌜s.Moves st ∧ (s.ReadyIn file → st.errors = 0 →
      Makes g file s.stream.upcoming r st.stream.upcoming)⌝⦄ := by
  have hmult := mult_sourced file
  have hchain := chain_sourced (g := g) file
  unfold relationship
  refine triple_intro fun Q hQ => ?_
  mvcgen [hmult, hchain, -mult_spec, -chain_spec] <;> grind -linarith [Decl.Reads.relationship, ReadyIn]

/-- Behind the names and commas of type parameters. -/
def InAngles (before : List Token) (found : Array TypeParam) (s : Stream) : Prop :=
  ∃ inner, before = inner ++ s.upcoming ∧ (∀ t ∈ inner, t.kind = .ident ∨ t.kind = .comma)
    ∧ found.toList = (inner.filter (·.kind = .ident)).map fun t => ⟨t.text, t.span⟩

theorem InAngles.name {before : List Token} {found : Array TypeParam} {s s' : Stream}
    (h : InAngles before found s) (hnext : s.upcoming = s.peek :: s'.upcoming)
    (hpeek : s.peek.kind = .ident) :
    InAngles before (found.push ⟨s.peek.text, s.peek.span⟩) s' := by
  obtain ⟨inner, rfl, hinner, hfound⟩ := h
  refine ⟨inner ++ [s.peek], by simp [hnext], ?_, by simp [hpeek, hfound]⟩
  exact List.forall_mem_append.2 ⟨hinner, by simp [hpeek]⟩

theorem InAngles.comma {before : List Token} {found : Array TypeParam} {s s' : Stream}
    (h : InAngles before found s) (hnext : s.upcoming = s.peek :: s'.upcoming)
    (hpeek : s.peek.kind = .comma) : InAngles before found s' := by
  obtain ⟨inner, rfl, hinner, hfound⟩ := h
  refine ⟨inner ++ [s.peek], by simp [hnext], ?_, by simp [hpeek, hfound]⟩
  exact List.forall_mem_append.2 ⟨hinner, by simp [hpeek]⟩

theorem typeParamRound_sourced {before : List Token} {s : ParseState} (hs : s.Ready) (v : Array TypeParam)
    (h : InAngles before v s.stream) :
    ⦃fun st => ⌜st = s⌝⦄ typeParamRound v
    ⦃⇓ r st => ⌜Leaves (fun v st => InAngles before v st.stream)
      (fun v st => InAngles before v st.stream) r st⌝⦄ := by
  unfold typeParamRound
  refine triple_intro fun Q hQ => ?_
  mvcgen
  case vc1 => grind -linarith [Leaves]
  case vc2 st hst hident name found st₁ h₁ comma st₂ h₂ =>
    subst hst
    have hkind : st.stream.peek.kind = .ident := by simpa using hident
    have hname : InAngles before found st₁.stream := h.name (by grind) hkind
    cases hcomma : comma.isSome with
    | true =>
      obtain ⟨hat, -, hnext⟩ := h₂.2.1 hcomma
      exact hQ _ _ (hname.comma (hnext (h₁.2.2.1.ready hs) (by decide)).1 hat)
    | false => exact hQ _ _ (show InAngles before found st₂.stream from (h₂.2.2 hcomma).2 ▸ hname)

theorem InAngles.reads {before after : List Token} {found : Array TypeParam} {s : Stream} {opener : Token}
    (h : InAngles before found s) (hopener : opener.kind = .lt) (hpeek : s.peek.kind = .gt)
    (hafter : s.upcoming = s.peek :: after) : ReadsTypeParams (opener :: before) found.toList after := by
  obtain ⟨inner, rfl, hinner, hfound⟩ := h
  rw [hafter, hfound]
  exact .angles hopener hinner hpeek

theorem InAngles.reads_half {before : List Token} {found : Array TypeParam} {s s' : Stream}
    {opener t : Token} (h : InAngles before found s) (hopener : opener.kind = .lt)
    (hsplit : s.split? = some (t, s')) : ReadsTypeParams (opener :: before) found.toList s'.upcoming := by
  obtain ⟨inner, rfl, hinner, hfound⟩ := h
  obtain ⟨ts, hts, hpeek, hafter⟩ := Stream.upcoming_split hsplit
  rw [hts, hafter, hfound]
  exact .half hopener hinner hpeek

theorem split_sourced (s : ParseState) :
    ⦃fun st => ⌜st = s⌝⦄ split
    ⦃⇓ found st => ⌜s.Moves st ∧ (found = true → ∃ t, s.stream.split? = some (t, st.stream))⌝⦄ := by
  have hmoves := triple_iff_run.1 (moves_spec split (.of_and split_spec) s)
  exact triple_iff_run.2 ⟨hmoves, (triple_iff_run.1 (split_spec s)).2.1⟩

theorem typeParams_sourced (s : ParseState) :
    ⦃fun st => ⌜st = s⌝⦄ typeParams
    ⦃⇓ found st => ⌜s.Moves st ∧ (s.Ready → s.stream.peek.kind = .lt → st.errors = 0 →
      ReadsTypeParams s.stream.upcoming found st.stream.upcoming)⌝⦄ := by
  have hloop : ∀ s : ParseState, ⦃fun st => ⌜st = s⌝⦄ loop #[] typeParamRound
      ⦃⇓ v st => ⌜s.Moves st ∧ (s.Ready → InAngles s.stream.upcoming v st.stream)⌝⦄ := by
    intro s
    have hreads := triple_iff_run.1 (loop_leaves typeParamRound_spec
      (fun v st => InAngles s.stream.upcoming v st.stream)
      (fun v st => InAngles s.stream.upcoming v st.stream) s
      (fun v st _ hs hI => typeParamRound_sourced hs v hI) #[])
    exact triple_iff_run.2 ⟨hreads.1, fun hs => hreads.2 hs ⟨[], by simp⟩⟩
  unfold typeParams closeAngle
  refine triple_intro fun Q hQ => ?_
  mvcgen [hloop, split_sourced, -split_spec] <;>
    grind -linarith [InAngles.reads, InAngles.reads_half, Diagnostic.error]

theorem isSome_modifier (k : Kind) : (Modifier.ofKeyword? k).isSome = k.isEntityModifier := by
  cases k <;> rfl

theorem isSome_entityKind (k : Kind) : (EntityKind.ofKeyword? k).isSome = k.isEntityKeyword := by
  cases k <;> rfl

/-- Behind modifiers that are collected already. -/
structure InModifiers (before : List Token) (mods : Modifiers) (s : Stream) : Prop where
  words : ∃ words, before = words ++ s.upcoming
    ∧ (∀ t ∈ words, (Modifier.ofKeyword? t.kind).isSome = true)
    ∧ mods = .ofList (words.filterMap (Modifier.ofKeyword? ·.kind))
  leads : s.LeadsToEntity

theorem InModifiers.next {before : List Token} {mods : Modifiers} {m : Modifier} {s : Stream}
    (h : InModifiers before mods s) (hs : s.Sound) (hpeek : Modifier.ofKeyword? s.peek.kind = some m) :
    InModifiers before (mods.insert m) s.next.2 := by
  obtain ⟨words, rfl, hwords, rfl⟩ := h.words
  have hkind : s.peek.kind.isEntityModifier = true := by rw [← isSome_modifier, hpeek]; rfl
  have heof : s.peek.kind ≠ .eof := Modifier.ne_eof_of_ofKeyword? hpeek
  refine ⟨⟨words ++ [s.peek], by simp [Stream.upcoming_next hs heof], ?_, ?_⟩, h.leads.next hs hkind⟩
  · exact List.forall_mem_append.2 ⟨hwords, by simp [hpeek]⟩
  · simp [Modifiers.ofList, hpeek]

theorem entityModifierRound_sourced {before : List Token} {s : ParseState} (hs : s.Ready) (mods : Modifiers)
    (h : InModifiers before mods s.stream) :
    ⦃fun st => ⌜st = s⌝⦄ entityModifierRound mods
    ⦃⇓ r st => ⌜Leaves (fun mods st => InModifiers before mods st.stream)
      (fun mods st => InModifiers before mods st.stream
        ∧ st.stream.peek.kind.isEntityKeyword = true) r st⌝⦄ := by
  have hnext := fun m => h.next (m := m) hs.sound
  have hkeyword : Modifier.ofKeyword? s.stream.peek.kind = none →
      s.stream.peek.kind.isEntityKeyword = true := fun hnone =>
    h.leads.keyword (by rw [← isSome_modifier, hnone]; rfl)
  unfold entityModifierRound
  refine triple_intro fun Q hQ => ?_
  mvcgen <;> grind -linarith [Leaves]

theorem entityModifiers_sourced (s : ParseState) :
    ⦃fun st => ⌜st = s⌝⦄ entityModifiers
    ⦃⇓ mods st => ⌜s.Moves st ∧ (s.Ready → s.stream.canStartEntity = true →
      InModifiers s.stream.upcoming mods st.stream ∧ st.stream.peek.kind.isEntityKeyword = true)⌝⦄ := by
  have hreads := triple_iff_run.1 (loop_leaves entityModifierRound_spec
    (fun mods st => InModifiers s.stream.upcoming mods st.stream)
    (fun mods st => InModifiers s.stream.upcoming mods st.stream
      ∧ st.stream.peek.kind.isEntityKeyword = true) s
    (fun mods st _ hs hI => entityModifierRound_sourced hs mods hI) {})
  exact triple_iff_run.2 ⟨hreads.1, fun hs hstart =>
    hreads.2 hs ⟨⟨[], by simp, by simp, rfl⟩, Stream.leadsToEntity_of_canStart hstart⟩⟩

theorem entity_sourced (s : ParseState) :
    ⦃fun st => ⌜st = s⌝⦄ entity g
    ⦃⇓ r st => ⌜s.Moves st ∧ (s.ReadyIn file → s.stream.canStartEntity = true → st.errors = 0 →
      Makes g file s.stream.upcoming r st.stream.upcoming)⌝⦄ := by
  unfold entity
  refine triple_look (a := s.stream.peek) rfl ?_
  refine triple_bind (entityModifiers_sourced s) fun modifiers s₁ h₁ => ?_
  refine triple_bind (advance_sourced s₁) fun keyword s₂ h₂ => ?_
  refine triple_look (a := s₂.stream.peek) rfl ?_
  have hmoves₂ : s.Moves s₂ := h₁.1.trans h₂.2.2.1
  split
  · refine triple_intro fun Q hQ => ?_
    mvcgen
    grind -linarith
  · rename_i hident
    have hident : s₂.stream.peek.kind = .ident := by simpa using hident
    refine triple_bind (advance_sourced s₂) fun _ s₃ h₃ => ?_
    refine triple_look (a := s₃.stream.isAt .lt) rfl ?_
    refine triple_optional (P := fun found s₄ => s₃.Moves s₄ ∧ (s₃.Ready → s₄.errors = 0 →
      ReadsTypeParams s₃.stream.upcoming found s₄.stream.upcoming))
      (fun hat => ?_) (fun hat => ⟨.refl _, fun hs _ => ?_⟩) fun typeParams s₄ h₄ => ?_
    · have hparams := triple_iff_run.1 (typeParams_sourced s₃)
      exact triple_iff_run.2 ⟨hparams.1, fun hs => hparams.2 hs (of_decide_eq_true hat)⟩
    · refine .none fun hkind => hat (decide_eq_true ?_)
      rwa [Stream.headKind_upcoming hs.sound] at hkind
    refine triple_bind (headers_sourced file s₄) fun found s₅ h₅ => ?_
    have hmoves₅ : s.Moves s₅ := hmoves₂.trans (h₃.2.2.1.trans (h₄.1.trans h₅.1))
    cases found with
    | error why => exact triple_pure ⟨hmoves₅, fun _ _ _ => makes_error _ _ _⟩
    | ok headers =>
      refine triple_look (a := s₅.stream.isAt .lbrace) rfl ?_
      refine triple_optional (P := TakesBody s₅) (takesBody_braces _ s₂.stream.peek.text) takesBody_none
        fun members s₆ h₆ => ?_
      refine triple_look (a := s.stream.peek.span.cover s₆.stream.last) rfl ?_
      refine triple_bind (newDecl_makes _ _ s₆) fun r s₇ h₇ => ?_
      refine triple_pure ?_
      refine ⟨hmoves₅.trans (h₆.1.trans h₇.1), fun hs hstart herrors => ?_⟩
      obtain ⟨hmoves₇, hstream, tag, rfl⟩ := h₇
      rw [hstream]
      refine makes_decl (.entity ?_) tag
      have herrors₆ := hmoves₇.errors_eq herrors
      have herrors₅ := h₆.1.errors_eq herrors₆
      have hs₄ := h₄.1.readyIn (h₃.2.2.1.readyIn (hmoves₂.readyIn hs))
      obtain ⟨⟨⟨words, hbefore, hwords, hset⟩, -⟩, hkeyword⟩ := h₁.2 hs.toReady hstart
      obtain ⟨kind, hkind⟩ := Option.isSome_iff_exists.1 ((isSome_entityKind _).trans hkeyword)
      have heof : keyword.kind ≠ .eof := by
        rintro heof
        simp [← h₂.1, heof, Kind.isEntityKeyword] at hkeyword
      have hnext := (h₂.2.2.2 (h₁.1.ready hs.toReady) heof).1
      have hnext' := (h₃.2.2.2 (hmoves₂.ready hs.toReady) (by simp [h₃.1, hident])).1
      rw [hbefore, hnext, hnext', h₂.1, h₃.1]
      exact .intro hwords hset (by simp [hkind]) hident rfl rfl
        (h₄.2 (h₃.2.2.1.ready (hmoves₂.ready hs.toReady)) (h₅.1.errors_eq herrors₅))
        (h₅.2 hs₄ herrors₅ headers rfl) (h₆.2 (h₅.1.ready hs₄.toReady) herrors₆)

theorem eat_sourced (k : Kind) (s : ParseState) :
    ⦃fun st => ⌜st = s⌝⦄ eat k
    ⦃⇓ taken st => ⌜s.Moves st ∧ (taken = true → s.stream.peek.kind = k ∧ (s.Ready → k ≠ .eof →
      s.stream.upcoming = s.stream.peek :: st.stream.upcoming ∧ st.stream.half = false))⌝⦄ := by
  unfold eat
  refine triple_intro fun Q hQ => ?_
  mvcgen
  grind -linarith

omit [g.IsEnclosed] in
theorem expect_sourced (k : Kind) (code : Code) (message : Bytes) (hk : k ≠ .gt ∧ k ≠ .eof) (s : ParseState) :
    ⦃fun st => ⌜st = s⌝⦄ expect g k code message
    ⦃⇓ found st => ⌜s.Moves st ∧ (found = none → st.errors ≠ 0) ∧ (s.Ready → s.stream.half = false →
      ∀ t, found = some t → t.kind = k ∧ ∃ extra, s.stream.upcoming = extra ++ t :: st.stream.upcoming
        ∧ (g.unexpected = none → extra = []))⌝⦄ := by
  have hoffer : ∀ s : ParseState, ⦃fun st => ⌜st = s⌝⦄ offer g k
      ⦃⇓ taken st => ⌜s.Moves st ∧ (taken = true → g.unexpected ≠ none)⌝⦄ := by
    intro s
    refine triple_iff_run.2 ⟨triple_iff_run.1 (moves_spec (offer g k) (.of_spec (offer_spec k)) s), ?_⟩
    intro htaken hnone
    simp [offer, hnone] at htaken
  have hpassed : ∀ s₁ : ParseState, s.Ready → s.stream.half = false → s.Moves s₁ → s₁.stream.peek.kind = k →
      ∃ extra, s.stream.upcoming = extra ++ s₁.stream.upcoming := fun s₁ hs hhalf hmoves hat =>
    hmoves.stream.upcoming hs.sound hhalf
      (Stream.half_of_peek (hmoves.ready hs).sound (by rw [hat]; exact hk.1))
  unfold expect
  refine triple_intro fun Q hQ => ?_
  mvcgen [hoffer, -offer_spec]
  case vc1 st hst hat t st₁ h₁ =>
    subst hst
    have hat : st.stream.peek.kind = k := of_decide_eq_true hat
    refine hQ _ _ h₁.2.2.1 nofun fun hs _ u hu => ?_
    obtain rfl := Option.some.inj hu
    exact ⟨h₁.1 ▸ hat, [], (h₁.2.2.2 hs (by rw [h₁.1, hat]; exact hk.2)).1, fun _ => rfl⟩
  case vc2 st hst hat taken st₁ h₁ hoffered t st₂ h₂ =>
    subst hst
    simp only [Bool.and_eq_true, Stream.isAt, decide_eq_true_eq] at hoffered
    obtain ⟨htaken, hat₁⟩ := hoffered
    refine hQ _ _ (h₁.1.trans h₂.2.2.1) nofun fun hs hhalf u hu => ?_
    obtain rfl := Option.some.inj hu
    obtain ⟨extra, hextra⟩ := hpassed st₁ hs hhalf h₁.1 hat₁
    have hnext := (h₂.2.2.2 (h₁.1.ready hs) (by rw [h₂.1, hat₁]; exact hk.2)).1
    exact ⟨h₂.1 ▸ hat₁, extra, hnext ▸ hextra, fun hnone => absurd hnone (h₁.2 htaken)⟩
  case vc3 => grind -linarith [Diagnostic.error]

theorem association_sourced (s : ParseState) :
    ⦃fun st => ⌜st = s⌝⦄ association g
    ⦃⇓ r st => ⌜s.Moves st ∧ (s.ReadyIn file → s.stream.canStartAssociation = true → st.errors = 0 →
      Makes g file s.stream.upcoming r st.stream.upcoming)⌝⦄ := by
  unfold association
  refine triple_bind (advance_sourced s) fun keyword s₁ h₁ => ?_
  refine triple_bind (advance_sourced s₁) fun name s₂ h₂ => ?_
  refine triple_bind (expect_sourced _ _ _ (by decide) s₂) fun found s₃ h₃ => ?_
  have hmoves₃ : s.Moves s₃ := h₁.2.2.1.trans (h₂.2.2.1.trans h₃.1)
  cases found with
  | none => exact triple_pure ⟨hmoves₃, fun _ _ _ => makes_error _ _ _⟩
  | some opener =>
    refine triple_bind (endpoint?_sourced s₃) fun left s₄ h₄ => ?_
    have hmoves₄ := hmoves₃.trans h₄.1
    cases left with
    | none =>
      refine triple_intro fun Q hQ => ?_
      mvcgen
      grind -linarith
    | some left =>
      refine triple_bind (mult_sourced file s₄) fun leftMult s₅ h₅ => ?_
      refine triple_look (a := s₅.stream.peek) rfl ?_
      have hmoves₅ := hmoves₄.trans h₅.1
      split
      · refine triple_intro fun Q hQ => ?_
        mvcgen
        grind -linarith
      · rename_i hoperator
        refine triple_bind (advance_sourced s₅) fun _ s₆ h₆ => ?_
        refine triple_bind (mult_sourced file s₆) fun rightMult s₇ h₇ => ?_
        refine triple_bind (endpoint?_sourced s₇) fun right s₈ h₈ => ?_
        have hmoves₈ := hmoves₅.trans (h₆.2.2.1.trans (h₇.1.trans h₈.1))
        cases right with
        | none =>
          refine triple_intro fun Q hQ => ?_
          mvcgen
          grind -linarith
        | some right =>
          refine triple_bind (eat_sourced .rparen s₈) fun closed s₉ h₉ => ?_
          cases closed with
          | false =>
            refine triple_intro fun Q hQ => ?_
            mvcgen <;> grind -linarith [Diagnostic.error]
          | true =>
            refine triple_look (a := s₉.stream.isAt .lbrace) rfl ?_
            refine triple_optional (P := TakesBody s₉) (takesBody_braces _ _) takesBody_none
              fun members s₁₀ h₁₀ => ?_
            refine triple_look (a := keyword.span.cover s₁₀.stream.last) rfl ?_
            refine triple_bind (newDecl_makes _ _ s₁₀) fun r s₁₁ h₁₁ => triple_pure ?_
            refine ⟨hmoves₈.trans (h₉.1.trans (h₁₀.1.trans h₁₁.1)), fun hs hstart herrors => ?_⟩
            obtain ⟨hmoves₁₁, hstream, tag, rfl⟩ := h₁₁
            rw [hstream]
            refine makes_decl (.association ?_) tag
            have herrors₁₀ := hmoves₁₁.errors_eq herrors
            have herrors₇ := h₈.1.errors_eq (h₉.1.errors_eq (h₁₀.1.errors_eq herrors₁₀))
            have herrors₅ := h₆.2.2.1.errors_eq (h₇.1.errors_eq herrors₇)
            have hs₁ := h₁.2.2.1.readyIn hs
            have hs₂ := h₂.2.2.1.readyIn hs₁
            have hs₅ := hmoves₅.readyIn hs
            have hs₆ := h₆.2.2.1.readyIn hs₅
            have hs₈ := hmoves₈.readyIn hs
            simp only [Stream.canStartAssociation, Stream.isAt, Bool.and_eq_true, decide_eq_true_eq] at hstart
            have hident : s₁.stream.peek.kind = .ident := by
              rw [h₁.2.1]
              exact (Stream.kindAt_next hs.sound (by simp [hstart.1]) 0).trans hstart.2
            have hrel : s₅.stream.peek.isRelationship = true := by simpa using hoperator
            have hnext₁ := (h₁.2.2.2 hs.toReady (by simp [h₁.1, hstart.1])).1
            obtain ⟨hnext₂, hhalf⟩ := h₂.2.2.2 hs₁.toReady (by simp [h₂.1, hident])
            obtain ⟨hopener, extra, hnext₃, hextra⟩ := h₃.2.2 hs₂.toReady hhalf opener rfl
            have hleftMult := h₅.2.1 (hmoves₄.readyIn hs) herrors₅
            rw [(h₆.2.2.2 hs₅.toReady (h₆.1 ▸ Token.kind_ne_eof_of_isRelationship hrel)).1, h₆.1] at hleftMult
            have hright := (h₈.2 (h₇.1.ready hs₆.toReady) right rfl).1
            obtain ⟨hcloser, hnext₉⟩ := h₉.2 rfl
            rw [(hnext₉ hs₈.toReady (by decide)).1] at hright
            rw [hnext₁, hnext₂, hnext₃]
            exact .intro (h₁.1 ▸ hstart.1) (h₂.1 ▸ hident) rfl rfl hextra hopener
              (h₄.2 (hmoves₃.ready hs.toReady) left rfl).1 hleftMult hrel rfl rfl
              (h₇.2.1 hs₆ herrors₇) hright hcloser (h₁₀.2 (h₉.1.ready hs₈.toReady) herrors₁₀)

/-! ## Forms without links -/

theorem passesPlain_token {s s' : Stream} {t : Token} (h : s.upcoming = t :: s'.upcoming)
    (ht : t.kind.isRelationship = false) : s.PassesPlain s' :=
  .of_cons h ht

theorem configValue?_sourced (s : ParseState) :
    ⦃fun st => ⌜st = s⌝⦄ configValue?
    ⦃⇓ found st => ⌜s.Moves st ∧ (s.Ready → st.errors = 0 →
      found.isSome = true ∧ s.stream.PassesPlain st.stream)⌝⦄ := by
  have hsecond : s.Ready → s.stream.peek.kind ≠ .eof → s.stream.next.2.peek = s.stream.peekAt 1 :=
    fun hs hpeek => Stream.peekAt_next hs.sound hpeek 0
  unfold configValue?
  refine triple_intro fun Q hQ => ?_
  mvcgen
  case vc3 st hst _ hminus hnumber minus st₁ h₁ number st₂ h₂ =>
    subst hst
    refine hQ _ _ (h₁.2.2.1.trans h₂.2.2.1) fun hs _ => ⟨rfl, ?_⟩
    have hkind : number.kind = .number := by
      rw [h₂.1, h₁.2.1, hsecond hs (by simp [hminus])]
      exact hnumber
    have hfirst := (h₁.2.2.2 hs (by simp [h₁.1, hminus])).1
    have hlast := (h₂.2.2.2 (h₁.2.2.1.ready hs) (by simp [hkind])).1
    exact (passesPlain_token hfirst (by simp [h₁.1, hminus, Kind.isRelationship])).trans
      (passesPlain_token hlast (by simp [hkind, Kind.isRelationship]))
  all_goals
    grind -linarith [Diagnostic.error, → passesPlain_token, Kind.isRelationship, ReadsPath.passesPlain]

theorem configEntry?_sourced (s : ParseState) :
    ⦃fun st => ⌜st = s⌝⦄ configEntry?
    ⦃⇓ found st => ⌜s.Moves st ∧ (s.Ready → st.errors = 0 →
      found.isSome = true ∧ s.stream.PassesPlain st.stream)⌝⦄ := by
  have hvalue := configValue?_sourced
  unfold configEntry?
  refine triple_intro fun Q hQ => ?_
  mvcgen [hvalue, -configValue?_spec] <;>
    grind -linarith [Diagnostic.error, → passesPlain_token, Kind.isRelationship, Stream.isAtAny]

theorem configRound_sourced (v : Array ConfigEntry) (s : ParseState) :
    ⦃fun st => ⌜st = s⌝⦄ configRound v
    ⦃⇓ _ st => ⌜s.Moves st ∧ (s.Ready → st.errors = 0 → s.stream.PassesPlain st.stream)⌝⦄ := by
  have hentry := configEntry?_sourced
  have hsync := moves_spec syncEntry (.of_and syncEntry_spec)
  unfold configRound
  refine triple_intro fun Q hQ => ?_
  mvcgen [hentry, hsync, -configEntry?_spec, -syncEntry_spec] <;>
    grind -linarith [→ passesPlain_token, Kind.isRelationship]

theorem loop_passesOnly {p : Token → Prop} {σ : Type} {round : σ → Parse (Round σ)}
    (h : ∀ v s, ⦃fun st => ⌜st = s⌝⦄ round v
      ⦃⇓ _ st => ⌜s.Moves st ∧ (s.Ready → st.errors = 0 → s.stream.PassesOnly p st.stream)⌝⦄) (v : σ)
    (s : ParseState) :
    ⦃fun st => ⌜st = s⌝⦄ loop v round
    ⦃⇓ _ st => ⌜s.Moves st ∧ (s.Ready → st.errors = 0 → s.stream.PassesOnly p st.stream)⌝⦄ := by
  refine loop_keeps (fun _ st => s.Moves st ∧ (s.Ready → st.errors = 0 → s.stream.PassesOnly p st.stream))
    (fun v st hI => ?_) ⟨.refl _, fun _ _ => .refl _ _⟩
  obtain ⟨hmoves, hpasses⟩ := triple_iff_run.1 (h v st)
  exact triple_iff_run.2 ⟨hI.1.trans hmoves, fun hs herrors =>
    (hI.2 hs (hmoves.errors_eq herrors)).trans (hpasses (hI.1.ready hs) herrors)⟩

omit [g.IsForward] [g.IsBlind] [g.IsEnclosed] in
theorem config_sourced (s : ParseState) :
    ⦃fun st => ⌜st = s⌝⦄ config
    ⦃⇓ r st => ⌜s.Moves st ∧ (s.ReadyIn file → s.stream.canStartConfig = true → st.errors = 0 →
      Makes g file s.stream.upcoming r st.stream.upcoming)⌝⦄ := by
  have hloop := loop_passesOnly configRound_sourced
  have hsecond : s.Ready → s.stream.peek.kind ≠ .eof → s.stream.next.2.peek.kind = s.stream.kindAt 1 :=
    fun hs hpeek => Stream.kindAt_next hs.sound hpeek 0
  unfold config
  refine triple_intro fun Q hQ => ?_
  mvcgen [hloop]
  grind -linarith [reads_config, → passesPlain_token, Kind.isRelationship, Stream.canStartConfig, Stream.isAt,
    ReadyIn]

omit [g.IsForward] [g.IsBlind] [g.IsEnclosed] in
theorem atConfig_sourced (s : ParseState) :
    ⦃fun st => ⌜st = s⌝⦄ atConfig
    ⦃⇓ r st => ⌜s.Moves st ∧ (s.ReadyIn file → s.stream.canStartAtConfig = true → st.errors = 0 →
      Makes g file s.stream.upcoming r st.stream.upcoming)⌝⦄ := by
  have hentry := configEntry?_sourced
  unfold atConfig
  refine triple_intro fun Q hQ => ?_
  mvcgen [hentry, -configEntry?_spec] <;>
    grind -linarith [reads_config, Stream.canStartAtConfig, Stream.isAt, ReadyIn]

theorem targetRound_sourced (closer : Kind) (v : Except Failure (List ConstraintRef)) (s : ParseState) :
    ⦃fun st => ⌜st = s⌝⦄ targetRound closer v
    ⦃⇓ _ st => ⌜s.Moves st ∧ (s.Ready → st.errors = 0 → s.stream.PassesPlain st.stream)⌝⦄ := by
  unfold targetRound
  refine triple_intro fun Q hQ => ?_
  mvcgen <;> grind -linarith [→ passesPlain_token, Kind.isRelationship, ReadsPath.passesPlain]

omit [g.IsForward] [g.IsBlind] [g.IsEnclosed] in
theorem constraint_sourced (s : ParseState) :
    ⦃fun st => ⌜st = s⌝⦄ constraint
    ⦃⇓ r st => ⌜s.Moves st ∧ (s.ReadyIn file → s.stream.canStartConstraint = true → st.errors = 0 →
      Makes g file s.stream.upcoming r st.stream.upcoming)⌝⦄ := by
  have htargets := fun closer => loop_passesOnly (targetRound_sourced closer) (.ok [])
  unfold constraint constraintTargets
  refine triple_intro fun Q hQ => ?_
  mvcgen [htargets] <;>
    grind -linarith [reads_constraint, → passesPlain_token, Kind.isRelationship, Stream.canStartConstraint,
      Stream.isAt, ReadyIn, Diagnostic.error]

theorem anchorRound_sourced (v : Except Failure (List Anchor)) (s : ParseState) :
    ⦃fun st => ⌜st = s⌝⦄ anchorRound v
    ⦃⇓ _ st => ⌜s.Moves st ∧ (s.Ready → st.errors = 0 → s.stream.PassesPlain st.stream)⌝⦄ := by
  unfold anchorRound
  refine triple_intro fun Q hQ => ?_
  mvcgen
  case vc3 anchors _ st hst found name span found' _ st₁ h₁ comma st₂ h₂ =>
    subst hst
    refine hQ _ _ (h₁.1.trans h₂.1) fun hs _ => ?_
    have hname : st.stream.PassesPlain st₁.stream := (h₁.2.2 hs _ rfl).1.passesPlain
    cases hcomma : comma.isSome with
    | true =>
      obtain ⟨hat, -, hnext⟩ := h₂.2.1 hcomma
      have hnext := (hnext (h₁.1.ready hs) (by decide)).1
      exact hname.trans (passesPlain_token hnext (by simp [hat, Kind.isRelationship]))
    | false => exact (h₂.2.2 hcomma).2 ▸ hname
  all_goals grind -linarith

omit [g.IsForward] [g.IsBlind] [g.IsEnclosed] in
theorem note_sourced (s : ParseState) :
    ⦃fun st => ⌜st = s⌝⦄ note
    ⦃⇓ r st => ⌜s.Moves st ∧ (s.ReadyIn file → s.stream.canStartNote = true → st.errors = 0 →
      Makes g file s.stream.upcoming r st.stream.upcoming)⌝⦄ := by
  have hanchors := loop_passesOnly anchorRound_sourced (.ok [])
  have hsecond : s.Ready → s.stream.peek.kind ≠ .eof → s.stream.next.2.peek.kind = s.stream.kindAt 1 :=
    fun hs hpeek => Stream.kindAt_next hs.sound hpeek 0
  unfold note noteAnchors
  refine triple_intro fun Q hQ => ?_
  mvcgen [hanchors] <;>
    grind -linarith [reads_note, → passesPlain_token, Kind.isRelationship, Stream.canStartNote, Stream.isAt,
      ReadyIn]

/-! ## Statements -/

/-- Where at most `n` tokens are ahead and no error is reported, there is a statement, and it is what the
tokens say that it takes. -/
def ReadsWithin (g : Grammar) (n : Nat) (p : Parse (Option Statement)) : Prop :=
  ∀ (file : File) (s : ParseState), s.ReadyIn file → s.stream.rest.length ≤ n → (p.run s).2.errors = 0 →
    ∃ x, (p.run s).1 = some x ∧ Statement.ReadsAll g file s.stream.upcoming [x] (p.run s).2.stream.upcoming

variable (file) in
omit [g.IsForward] [g.IsBlind] [g.IsEnclosed] in
theorem ReadsWithin.spec {n : Nat} {p : Parse (Option Statement)} (h : ReadsWithin g n p)
    (hp : Completes p) (s : ParseState) :
    ⦃fun st => ⌜st = s⌝⦄ p
    ⦃⇓ found st => ⌜s.Moves st ∧ (s.ReadyIn file → s.stream.rest.length ≤ n → st.errors = 0 →
      ∃ x, found = some x ∧ Statement.ReadsAll g file s.stream.upcoming [x] st.stream.upcoming)⌝⦄ :=
  triple_iff_run.2 ⟨(hp s).1, h file s⟩

/-- A rule makes what the tokens say that it takes, if nested statements do. -/
def ReadsRule (g : Grammar) (r : Rule) : Prop :=
  ∀ (n : Nat) (p : Parse (Option Statement)), Completes p → ReadsWithin g n p →
    ∀ (file : File) (s : ParseState), s.ReadyIn file → s.stream.rest.length ≤ n + 1 →
      r.canStart s.stream = true → ((r.parse p).run s).2.errors = 0 →
      ((r.parse p).run s).1 ≠ .error .reported
        ∧ Makes g file s.stream.upcoming ((r.parse p).run s).1 ((r.parse p).run s).2.stream.upcoming

variable (file) in
omit [g.IsForward] [g.IsBlind] [g.IsEnclosed] in
theorem ReadsRule.spec {r : Rule} (h : ReadsRule g r) (hr : CompletesRule r) {n : Nat}
    {p : Parse (Option Statement)} (hp : Completes p) (hn : ReadsWithin g n p) (s : ParseState) :
    ⦃fun st => ⌜st = s⌝⦄ r.parse p
    ⦃⇓ found st => ⌜s.Moves st ∧ (s.ReadyIn file → s.stream.rest.length ≤ n + 1 →
      r.canStart s.stream = true → st.errors = 0 → found ≠ .error .reported
        ∧ Makes g file s.stream.upcoming found st.stream.upcoming)⌝⦄ :=
  triple_iff_run.2 ⟨(hr p hp s).1, h n p hp hn file s⟩

omit [g.IsForward] [g.IsBlind] [g.IsEnclosed] in
theorem readsRule_of {r : Rule} (haccepts : AcceptsRule r)
    (h : ∀ (file : File) (n : Nat) (p : Parse (Option Statement)), Completes p → ReadsWithin g n p → ∀ s,
      ⦃fun st => ⌜st = s⌝⦄ r.parse p
      ⦃⇓ found st => ⌜s.Moves st ∧ (s.ReadyIn file → s.stream.rest.length ≤ n + 1 →
        r.canStart s.stream = true → st.errors = 0 →
        Makes g file s.stream.upcoming found st.stream.upcoming)⌝⦄) : ReadsRule g r :=
  fun n p hp hn file s hs hlength hstart herrors =>
    ⟨((haccepts p hp s).2 herrors).told, (triple_iff_run.1 (h file n p hp hn s)).2 hs hlength hstart herrors⟩

theorem advanceRaw_sourced (s : ParseState) :
    ⦃fun st => ⌜st = s⌝⦄ advanceRaw
    ⦃⇓ t st => ⌜t = s.stream.peekRaw ∧ s.Moves st
      ∧ (s.Ready → t.isTrivia = true → st.stream.upcoming = s.stream.upcoming)
      ∧ (s.Ready → t.kind ≠ .eof → t.isTrivia = false → s.stream.upcoming = t :: st.stream.upcoming)
      ∧ (s.Ready → t.kind ≠ .eof → st.stream.rest.length < s.stream.rest.length)⌝⦄ := by
  refine triple_iff_run.2 ⟨Stream.nextRaw_fst _, triple_iff_run.1 (advanceRaw_moves s), ?_⟩
  have hraw : (advanceRaw.run s).1 = s.stream.peekRaw := Stream.nextRaw_fst _
  rw [hraw]
  refine ⟨fun hs ht => Stream.upcoming_nextRaw ht, fun hs heof ht =>
    Stream.upcoming_nextRaw_token hs.sound heof ht, fun hs heof => ?_⟩
  have hlength := (Stream.reaches_nextRaw s.stream).length_rest
  have hindex := Stream.index_nextRaw hs.sound heof
  show s.stream.nextRaw.2.rest.length < _
  omega

omit [g.IsForward] [g.IsBlind] [g.IsEnclosed] in
theorem reads_semicolon {before mid : List Token} {ss : List Statement} {t : Token} {after : List Token}
    (h : Statement.ReadsAll g file before ss mid) (hmid : mid = t :: after) (ht : t.kind = .semicolon) :
    Statement.ReadsAll g file before ss after := by
  subst hmid
  have hdropped : Statement.ReadsAll g file ([t] ++ after) [] after := .dropped (.semicolon ht) (.nil _)
  simpa using h.append hdropped

omit [g.IsForward] [g.IsBlind] [g.IsEnclosed] in
theorem statementRound_sourced {n : Nat} {p : Parse (Option Statement)} (hp : Completes p)
    (h : ReadsWithin g n p) {s : ParseState} (hs : s.ReadyIn file) (hlength : s.stream.rest.length ≤ n)
    {before : List Token} (nested : Bool) (v : Array Statement)
    (hv : s.errors = 0 → Statement.ReadsAll g file before v.toList s.stream.upcoming) :
    ⦃fun st => ⌜st = s⌝⦄ statementRound p nested v
    ⦃⇓ r st => ⌜s.Moves st ∧ (st.errors = 0 →
      Statement.ReadsAll g file before r.value.toList st.stream.upcoming)⌝⦄ := by
  have hinner := h.spec file hp
  have hsemicolon : ∀ after, s.errors = 0 → s.stream.peekRaw.kind = .semicolon →
      s.stream.upcoming = s.stream.peekRaw :: after → Statement.ReadsAll g file before v.toList after :=
    fun after herrors hkind hafter => reads_semicolon (hv herrors) hafter hkind
  have happend : ∀ x after, s.errors = 0 → Statement.ReadsAll g file s.stream.upcoming [x] after →
      Statement.ReadsAll g file before (v.toList ++ [x]) after :=
    fun x after herrors hx => (hv herrors).append hx
  unfold statementRound
  refine triple_intro fun Q hQ => ?_
  mvcgen [hinner, advanceRaw_sourced, -advanceRaw_moves, -advanceRaw_spec] <;>
    grind -linarith [Diagnostic.error, ReadyIn, Token.isTrivia, Kind.isTrivia]

theorem length_rest_le {s s' : ParseState} (h : s.Moves s') (hs : s.Ready) :
    s'.stream.rest.length ≤ s.stream.rest.length := by
  have := h.stream.length_rest
  have := h.stream.index_le hs.sound
  omega

omit [g.IsForward] [g.IsBlind] [g.IsEnclosed] in
variable (file) in
theorem statements_sourced {n : Nat} {p : Parse (Option Statement)} (hp : Completes p)
    (h : ReadsWithin g n p) (nested : Bool) (s : ParseState) :
    ⦃fun st => ⌜st = s⌝⦄ statements p nested
    ⦃⇓ found st => ⌜s.Moves st ∧ (s.ReadyIn file → s.stream.rest.length ≤ n → st.errors = 0 →
      Statement.ReadsAll g file s.stream.upcoming found st.stream.upcoming)⌝⦄ := by
  have hmoves := triple_iff_run.1 (statements_complete hp nested s)
  refine triple_iff_run.2 ⟨hmoves.1, fun hs hlength => ?_⟩
  have hloop : ⦃fun st => ⌜st = s⌝⦄ loop #[] (statementRound p nested)
      ⦃⇓ v st => ⌜s.Moves st ∧ (st.errors = 0 →
        Statement.ReadsAll g file s.stream.upcoming v.toList st.stream.upcoming)⌝⦄ := by
    refine loop_keeps (fun (v : Array Statement) st => s.Moves st ∧ (st.errors = 0 →
      Statement.ReadsAll g file s.stream.upcoming v.toList st.stream.upcoming)) (fun v st hI => ?_)
      ⟨.refl _, fun _ => .nil _⟩
    have hround := triple_iff_run.1 (statementRound_sourced hp h (hI.1.readyIn hs)
      ((length_rest_le hI.1 hs.toReady).trans hlength) nested v hI.2)
    exact triple_iff_run.2 ⟨hI.1.trans hround.1, hround.2⟩
  exact (triple_iff_run.1 hloop).2

theorem newPackage_makes (span : Span) (name : Bytes) (nameSpan : Span) (body : List Statement)
    (s : ParseState) :
    ⦃fun st => ⌜st = s⌝⦄ newStatement (fun id => .package { id, span } name nameSpan body)
    ⦃⇓ r st => ⌜s.Moves st ∧ st.stream = s.stream ∧ ∃ tag, r = .package tag name nameSpan body⌝⦄ :=
  triple_iff_run.2 ⟨⟨.refl _, le_refl _, Nat.le_succ _, rfl⟩, rfl, _, rfl⟩

theorem length_rest_lt {s s' : ParseState} (hs : s.Ready) (hpeek : s.stream.peek.kind ≠ .eof)
    (hnext : s'.stream = s.stream.next.2) : s'.stream.rest.length < s.stream.rest.length := by
  have hlength := (Stream.reaches_next s.stream).length_rest
  have hindex := Stream.index_lt_next hs.sound hpeek
  rw [hnext]
  omega

omit [g.IsEnclosed] in
theorem package_sourced {n : Nat} {p : Parse (Option Statement)} (hp : Completes p) (h : ReadsWithin g n p)
    (s : ParseState) :
    ⦃fun st => ⌜st = s⌝⦄ package g p
    ⦃⇓ r st => ⌜s.Moves st ∧ (s.ReadyIn file → s.stream.rest.length ≤ n + 1 →
      s.stream.canStartPackage = true → st.errors = 0 →
      Makes g file s.stream.upcoming r st.stream.upcoming)⌝⦄ := by
  unfold package
  refine triple_bind (advance_sourced s) fun keyword s₁ h₁ => ?_
  refine triple_bind (path?_sourced s₁) fun found s₂ h₂ => ?_
  have hmoves₂ := h₁.2.2.1.trans h₂.1
  cases found with
  | none =>
    refine triple_intro fun Q hQ => ?_
    mvcgen
    grind -linarith
  | some path =>
    obtain ⟨name, nameSpan⟩ := path
    refine triple_bind (expect_sourced _ _ _ (by decide) s₂) fun opener s₃ h₃ => ?_
    have hmoves₃ := hmoves₂.trans h₃.1
    cases opener with
    | none => exact triple_pure ⟨hmoves₃, fun _ _ _ _ => makes_error _ _ _⟩
    | some opener =>
      refine triple_bind (P := fun _ st => s₃.Moves st ∧ st.stream = s₃.stream)
        (triple_iff_run.2 ⟨⟨.refl _, le_refl _, le_refl _, rfl⟩, rfl⟩) fun _ s₄ h₄ => ?_
      refine triple_bind (statements_sourced file hp h true s₄) fun body s₅ h₅ => ?_
      refine triple_bind (P := fun _ st => s₅.Moves st ∧ st.stream = s₅.stream)
        (triple_iff_run.2 ⟨⟨.refl _, le_refl _, le_refl _, rfl⟩, rfl⟩) fun _ s₆ h₆ => ?_
      refine triple_bind (closeBrace_sourced _ _ s₆) fun _ s₇ h₇ => ?_
      refine triple_look (a := keyword.span.cover s₇.stream.last) rfl ?_
      refine triple_bind (newPackage_makes _ _ _ _ s₇) fun r s₈ h₈ => triple_pure ?_
      have hmoves₄ := hmoves₃.trans h₄.1
      have hmoves₆ := hmoves₄.trans (h₅.1.trans h₆.1)
      refine ⟨hmoves₆.trans (h₇.1.trans h₈.1), fun hs hlength hstart herrors found hfound => ?_⟩
      obtain rfl := Except.ok.inj hfound
      obtain ⟨hmoves₈, hstream, tag, rfl⟩ := h₈
      refine ⟨_, rfl, ?_⟩
      have hkeyword : s.stream.peek.kind = .kwPackage := of_decide_eq_true hstart
      have hpeek : s.stream.peek.kind ≠ .eof := by simp [hkeyword]
      have herrors₇ := hmoves₈.errors_eq herrors
      have hs₁ := h₁.2.2.1.readyIn hs
      have hs₂ := hmoves₂.readyIn hs
      have hs₄ := hmoves₄.readyIn hs
      obtain ⟨hname, hhalf⟩ := h₂.2.2 hs₁.toReady _ rfl
      obtain ⟨hopener, extra, hextra, hnone⟩ := h₃.2.2 hs₂.toReady hhalf opener rfl
      obtain ⟨hcloser, hnext₇⟩ := h₇.2 (hmoves₆.ready hs.toReady) herrors₇
      have hlength₄ : s₄.stream.rest.length ≤ n := by
        have hlt := length_rest_lt hs.toReady hpeek h₁.2.1
        have hle := length_rest_le (h₂.1.trans (h₃.1.trans h₄.1)) hs₁.toReady
        omega
      have hbody := h₅.2 hs₄ hlength₄ (h₆.1.errors_eq (h₇.1.errors_eq herrors₇))
      rw [h₄.2, ← h₆.2, hnext₇] at hbody
      rw [hextra] at hname
      rw [(h₁.2.2.2 hs.toReady (h₁.1 ▸ hpeek)).1, hstream]
      exact .package (h₁.1 ▸ hkeyword) hname hnone hopener hbody hcloser (.nil _)

omit [g.IsForward] [g.IsBlind] [g.IsEnclosed] in
theorem readsRule_of_form {r : Rule} (haccepts : AcceptsRule r)
    (h : ∀ (file : File) (p : Parse (Option Statement)) (s : ParseState), ⦃fun st => ⌜st = s⌝⦄ r.parse p
      ⦃⇓ found st => ⌜s.Moves st ∧ (s.ReadyIn file → r.canStart s.stream = true → st.errors = 0 →
        Makes g file s.stream.upcoming found st.stream.upcoming)⌝⦄) : ReadsRule g r :=
  readsRule_of haccepts fun file _ p _ _ s => triple_iff_run.2
    ((triple_iff_run.1 (h file p s)).imp_right fun hmakes hs _ => hmakes hs)

theorem builtinRules_read (r : Rule) (hr : r ∈ builtinRules g) : ReadsRule g r := by
  have haccepts := builtinRules_accept r hr
  simp only [builtinRules, List.mem_cons, List.not_mem_nil, or_false] at hr
  rcases hr with rfl | rfl | rfl | rfl | rfl | rfl | rfl | rfl
  · exact readsRule_of_form haccepts fun _ _ => config_sourced
  · exact readsRule_of_form haccepts fun _ _ => atConfig_sourced
  · exact readsRule_of_form haccepts fun _ _ => constraint_sourced
  · exact readsRule_of_form haccepts fun _ _ => note_sourced
  · exact readsRule_of_form haccepts fun _ _ => association_sourced
  · exact readsRule_of haccepts fun _ _ _ hp hn => package_sourced hp hn
  · exact readsRule_of_form haccepts fun _ _ => entity_sourced
  · exact readsRule_of_form haccepts fun _ _ s => triple_iff_run.2
      ((triple_iff_run.1 (relationship_sourced s)).imp_right fun hmakes hs _ => hmakes hs)

omit [g.IsForward] [g.IsBlind] [g.IsEnclosed] in
/-- A rule that does not apply leaves the tokens to the next. -/
theorem firstRule_sourced (all : List Rule) {n : Nat} {p : Parse (Option Statement)} (hp : Completes p)
    (hn : ReadsWithin g n p) {rules : List Rule} (hcompletes : ∀ r ∈ rules, CompletesRule r)
    (h : ∀ r ∈ rules, ReadsRule g r) (start : Stream) (s : ParseState) :
    ⦃fun st => ⌜st = s⌝⦄ firstRule all p start rules
    ⦃⇓ found st => ⌜s.stream = start → s.Moves st ∧ (s.ReadyIn file → start.rest.length ≤ n + 1 →
      st.errors = 0 →
      ∃ x, found = some x ∧ Statement.ReadsAll g file start.upcoming [x] st.stream.upcoming)⌝⦄ := by
  induction rules generalizing s with
  | nil =>
    unfold firstRule
    refine triple_intro fun Q hQ => ?_
    have hsync := sync_moves
    mvcgen [hsync, -sync_spec]
    grind -linarith [Diagnostic.error]
  | cons rule rules ih =>
    have hrule := (h rule (by simp)).spec file (hcompletes rule (by simp)) hp hn
    have hrest := ih (fun r hr => hcompletes r (by simp [hr])) fun r hr => h r (by simp [hr])
    have hsync := sync_moves
    unfold firstRule
    refine triple_intro fun Q hQ => ?_
    mvcgen [hrule, hrest, hsync, reportFailure_reports, -sync_spec, -reportFailure_moves,
        -reportFailure_spec] <;>
      grind -linarith [Moves, ReadyIn, Ready, Makes]

omit [g.IsForward] [g.IsBlind] [g.IsEnclosed] in
theorem reads_comment (ts : List Token) (tag : Tag) (text : Bytes) (isDoc : Bool) :
    Statement.ReadsAll g file ts [.decl tag (.comment text isDoc)] ts :=
  .decl (.comment ts) (.nil ts)

omit [g.IsForward] [g.IsBlind] [g.IsEnclosed] in
theorem commentStatement_sourced (s : ParseState) :
    ⦃fun st => ⌜st = s⌝⦄ commentStatement
    ⦃⇓ found st => ⌜s.Moves st ∧ (s.ReadyIn file → s.stream.peekRaw.isTrivia = true →
      ∃ x, found = some x ∧ Statement.ReadsAll g file s.stream.upcoming [x] st.stream.upcoming)⌝⦄ := by
  unfold commentStatement
  refine triple_intro fun Q hQ => ?_
  mvcgen [advanceRaw_sourced, -advanceRaw_moves, -advanceRaw_spec]
  grind -linarith [reads_comment, ReadyIn]

omit [g.IsForward] [g.IsBlind] [g.IsEnclosed] in
theorem documented_sourced {n : Nat} {p : Parse (Option Statement)} (hp : Completes p)
    (hn : ReadsWithin g n p) (s : ParseState) :
    ⦃fun st => ⌜st = s⌝⦄ documented p
    ⦃⇓ found st => ⌜s.Moves st ∧ (s.ReadyIn file → s.stream.peekRaw.isTrivia = true →
      s.stream.rest.length ≤ n + 1 → st.errors = 0 →
      ∃ x, found = some x ∧ Statement.ReadsAll g file s.stream.upcoming [x] st.stream.upcoming)⌝⦄ := by
  have hinner := hn.spec file hp
  unfold documented
  refine triple_intro fun Q hQ => ?_
  mvcgen [hinner, advanceRaw_sourced, -advanceRaw_moves, -advanceRaw_spec] <;>
    grind -linarith [reads_comment, Statement.ReadsAll.withDoc, ReadyIn, Token.isTrivia, Kind.isTrivia]

end Parse

/-- The statement forms that a language adds make what the tokens say that they take. -/
class Grammar.IsSourced (g : Grammar) : Prop where
  rules : ∀ r ∈ g.rules, Parse.ReadsRule g r

namespace Parse

open ParseState

variable {g : Grammar} [g.IsForward] [g.IsBlind] [g.IsEnclosed] [g.IsComplete] [g.IsSourced]

theorem statementOver_sourced {n : Nat} {p : Parse (Option Statement)} (hp : Completes p)
    (hn : ReadsWithin g n p) : ReadsWithin g (n + 1) (statementOver g p) := by
  intro file s hs hlength herrors
  have hcompletes : ∀ r ∈ allRules g, CompletesRule r := fun r hr =>
    (List.mem_append.1 hr).elim (Grammar.IsComplete.rules r) (builtinRules_complete r)
  have hreads : ∀ r ∈ allRules g, ReadsRule g r := fun r hr =>
    (List.mem_append.1 hr).elim (Grammar.IsSourced.rules r) (builtinRules_read r)
  have hpeek : peekRaw.run s = (s.stream.peekRaw, s) := rfl
  have hstream : stream.run s = (s.stream, s) := rfl
  unfold statementOver at herrors ⊢
  rw [run_bind, hpeek] at herrors ⊢
  dsimp only at herrors ⊢
  split at herrors
  · rename_i hdoc
    exact (triple_iff_run.1 (documented_sourced hp hn s)).2 hs (by simp [Token.isTrivia, hdoc, Kind.isTrivia])
      hlength herrors
  · rename_i hcomment
    exact (triple_iff_run.1 (commentStatement_sourced s)).2 hs
      (by simp [Token.isTrivia, hcomment, Kind.isTrivia])
  · rw [run_bind, hstream] at herrors ⊢
    exact ((triple_iff_run.1 (firstRule_sourced (allRules g) hp hn hcompletes hreads s.stream s)) rfl).2 hs
      hlength herrors

theorem statementWithin_sourced (n : Nat) : ReadsWithin g n (statementWithin g (n + 1)) := by
  induction n with
  | zero =>
    exact fun file s hs hn => absurd (List.eq_nil_of_length_eq_zero (Nat.le_zero.1 hn)) hs.sound.rest_ne_nil
  | succ n ih => exact statementOver_sourced (statementWithin_completes (n + 1)) ih

theorem statement_sourced (n : Nat) : ReadsWithin g n (statement g) :=
  fun file s hs _ => statementWithin_sourced s.stream.rest.length file s hs (Nat.le_refl _)

end Parse

/-- The statements of a document that is parsed without errors are what its tokens say, up to the end of
the file. -/
theorem reads_of_parse (g : Grammar) [g.IsForward] [g.IsBlind] [g.IsEnclosed] [g.IsComplete]
    [g.IsSourced] {file : File} {ts : List Token} (hnamed : (Stream.ofTokens ts).Named) {maxErrors : Nat}
    (h : (parse g file ts maxErrors).errors = 0) :
    Statement.ReadsAll g file (Stream.ofTokens ts).upcoming (parse g file ts maxErrors).program.statements
      ((Parse.document g).run { stream := .ofTokens ts, file, maxErrors }).2.stream.upcoming := by
  have hrun := triple_iff_run.1 (Parse.statements_sourced file Parse.statement_completes
    (Parse.statement_sourced (g := g) (Stream.ofTokens ts).rest.length) false { stream := .ofTokens ts, file, maxErrors })
  exact hrun.2 ⟨⟨Stream.closed_sound ts, hnamed⟩, rfl⟩ (Nat.le_refl _) h

/-! ## Languages -/

instance : Grammar.IsSourced {} where
  rules := by simp

namespace Parse

open ParseState

attribute [local spec high] advance_sourced eat?_sourced

variable {file : File} {g : Grammar}

/-- What stands before a statement and is dropped, is no part of it. -/
theorem makes_dropped {ts before after : List Token} {found : Option Statement} (hts : g.Drops ts before)
    (h : ∃ x, found = some x ∧ Statement.ReadsAll g file before [x] after) :
    Makes g file (ts ++ before) (.ok found) after := by
  rintro _ ⟨⟩
  obtain ⟨x, hx, hreads⟩ := h
  exact ⟨x, hx, .dropped hts hreads⟩

theorem nameRound_sourced (names : List Bytes) (v : Unit) (s : ParseState) :
    ⦃fun st => ⌜st = s⌝⦄ nameRound names v
    ⦃⇓ _ st => ⌜s.Moves st
      ∧ (s.Ready → st.errors = 0 → s.stream.PassesOnly (Token.IsNamed names) st.stream)⌝⦄ := by
  unfold nameRound
  refine triple_intro fun Q hQ => ?_
  mvcgen <;> grind -linarith [Stream.nameAt, Stream.peek, Stream.PassesOnly.of_cons, Token.IsNamed]

theorem skipNames_sourced (names : List Bytes) (s : ParseState) :
    ⦃fun st => ⌜st = s⌝⦄ skipNames names
    ⦃⇓ _ st => ⌜s.Moves st
      ∧ (s.Ready → st.errors = 0 → s.stream.PassesOnly (Token.IsNamed names) st.stream)
      ∧ (s.Ready → s.stream.namesThenEntity names = true →
        st.stream.rest.length < s.stream.rest.length)⌝⦄ := by
  obtain ⟨hmoves, hpasses⟩ := triple_iff_run.1 (loop_passesOnly (nameRound_sourced names) () s)
  refine triple_iff_run.2 ⟨hmoves, hpasses, fun hs hstart => ?_⟩
  have hlt := index_lt_skipNames hs.sound (nameAt_of_namesThenEntity hstart)
  have hlength := hmoves.stream.length_rest
  simp only [skipNames] at hlt ⊢
  omega

theorem readsRule_of_spec {r : Rule}
    (h : ∀ (file : File) (n : Nat) (p : Parse (Option Statement)), Completes p → ReadsWithin g n p → ∀ s,
      ⦃fun st => ⌜st = s⌝⦄ r.parse p
      ⦃⇓ found st => ⌜s.ReadyIn file → s.stream.rest.length ≤ n + 1 → r.canStart s.stream = true →
        st.errors = 0 →
        found ≠ .error .reported ∧ Makes g file s.stream.upcoming found st.stream.upcoming⌝⦄) :
    ReadsRule g r :=
  fun n p hp hn file s => triple_iff_run.1 (h file n p hp hn s)

theorem readsRule_of_names {r : Rule} {names : List Bytes} (hstart : r.canStart = (·.namesThenEntity names))
    (hparse : r.parse = fun p => do
      skipNames names
      return (.ok (← p) : Except Failure (Option Statement)))
    (hdrops : ∀ ts after, (∀ t ∈ ts, t.IsNamed names) → g.Drops ts after) : ReadsRule g r := by
  refine readsRule_of_spec fun file n p hp hn s => ?_
  rw [hparse, hstart]
  refine triple_bind (skipNames_sourced names s) fun _ s₁ h₁ => ?_
  refine triple_bind (hn.spec file hp s₁) fun found s₂ h₂ => triple_pure ?_
  refine fun hs hlength hstart herrors => ⟨by simp, ?_⟩
  have hlt := h₁.2.2 hs.toReady hstart
  obtain ⟨ts, hts, hnamed⟩ := h₁.2.1 hs.toReady (h₂.1.errors_eq herrors)
  rw [hts]
  exact makes_dropped (hdrops ts _ hnamed) (h₂.2 (h₁.1.readyIn hs) (by omega) herrors)

end Parse

namespace Java

open Parse ParseState

attribute [local spec high] advance_sourced eat?_sourced newDecl_makes

variable {file : File}

@[local spec high] theorem keepAsComment_makes (span : Span) (s : ParseState) :
    ⦃fun st => ⌜st = s⌝⦄ keepAsComment span
    ⦃⇓ r st => ⌜s.Moves st ∧ st.stream = s.stream
      ∧ ∃ tag text, r = .ok (some (.decl tag (.comment text false)))⌝⦄ := by
  unfold keepAsComment
  refine triple_intro fun Q hQ => ?_
  mvcgen
  grind -linarith

theorem makes_kept {ts before after : List Token} {r : Except Failure (Option Statement)}
    (hts : grammar.Keeps ts after) (hbefore : before = ts ++ after)
    (h : ∃ tag text, r = .ok (some (.decl tag (.comment text false)))) :
    r ≠ .error .reported ∧ Makes grammar file before r after := by
  obtain ⟨tag, text, rfl⟩ := h
  rw [hbefore]
  exact ⟨by simp, makes_decl (.kept hts) tag⟩

theorem importRound_sourced (keyword : Token) (v : Span) (s : ParseState) :
    ⦃fun st => ⌜st = s⌝⦄ importRound keyword v
    ⦃⇓ _ st => ⌜s.Moves st ∧ (s.Ready → st.errors = 0 → s.stream.PassesOnly
      (fun t => t.kind ≠ .semicolon ∧ t.position.line ≤ keyword.position.line) st.stream)⌝⦄ := by
  unfold importRound
  refine triple_intro fun Q hQ => ?_
  mvcgen <;> grind -linarith [Stream.isAtAny, Stream.isOnNewLine, Stream.PassesOnly.of_cons]

theorem importRule_sourced : ReadsRule grammar importRule := by
  refine readsRule_of_spec fun file n p hp hn s => ?_
  refine triple_bind (advance_sourced s) fun keyword s₁ h₁ => ?_
  refine triple_bind (loop_passesOnly (importRound_sourced keyword) keyword.span s₁) fun span s₂ h₂ => ?_
  refine triple_bind (eat?_sourced .semicolon s₂) fun stop s₃ h₃ => ?_
  have hmoves₃ := h₁.2.2.1.trans (h₂.1.trans h₃.1)
  have himport : s.Ready → importRule.canStart s.stream = true → s₃.errors = 0 →
      ∃ ts, s.stream.upcoming = ts ++ s₃.stream.upcoming ∧ IsImport ts s₃.stream.upcoming := by
    intro hs hstart herrors
    have hkeyword : s.stream.peek.IsNamed ["import"] := by
      simp only [importRule, Stream.nameAt, Bool.and_eq_true, decide_eq_true_eq, List.contains_iff_mem] at hstart
      exact hstart.1
    have hs₁ := h₁.2.2.1.ready hs
    obtain ⟨path, hpath, hall⟩ := h₂.2 hs₁ (h₃.1.errors_eq herrors)
    have hfirst := (h₁.2.2.2 hs (by simp [h₁.1, hkeyword.1])).1
    cases stop with
    | none =>
      rw [(h₃.2.2 rfl).2]
      exact ⟨_, by rw [hfirst, hpath, List.append_nil]; rfl, .intro (h₁.1 ▸ hkeyword) hall (by simp) (by simp)⟩
    | some stop =>
      obtain ⟨hkind, heq, hnext⟩ := h₃.2.1 rfl
      have hlast := (hnext (h₂.1.ready hs₁) (by decide)).1
      refine ⟨keyword :: (path ++ [s₂.stream.peek]), by rw [hfirst, hpath, hlast]; simp, ?_⟩
      exact .intro (h₁.1 ▸ hkeyword) hall (by simpa using hkind) (by simp)
  have hkeep : ∀ span, ⦃fun st => ⌜st = s₃⌝⦄ keepAsComment span
      ⦃⇓ found st => ⌜s.ReadyIn file → s.stream.rest.length ≤ n + 1 → importRule.canStart s.stream = true →
        st.errors = 0 →
        found ≠ .error .reported ∧ Makes grammar file s.stream.upcoming found st.stream.upcoming⌝⦄ := by
    intro span
    obtain ⟨hmoves, hstream, hmakes⟩ := triple_iff_run.1 (keepAsComment_makes span s₃)
    refine triple_iff_run.2 fun hs _ hstart herrors => ?_
    obtain ⟨ts, hts, hreads⟩ := himport hs.toReady hstart (hmoves.errors_eq herrors)
    rw [hstream]
    exact makes_kept (.import (by simp [grammar]) hreads) hts hmakes
  cases stop with
  | none => exact hkeep _
  | some stop => exact hkeep _

/-- Behind some segments of a name. -/
def InName (before : List Token) (s : Stream) : Prop :=
  ∃ ts, before = ts ++ s.upcoming ∧ IsDotted ts

theorem segmentRound_sourced {before : List Token} {s : ParseState} (hs : s.Ready) (v : Unit)
    (h : InName before s.stream) :
    ⦃fun st => ⌜st = s⌝⦄ segmentRound v
    ⦃⇓ r st => ⌜Leaves (fun _ st => InName before st.stream) (fun _ st => InName before st.stream) r st⌝⦄ := by
  obtain ⟨ts, rfl, hts⟩ := h
  unfold segmentRound
  refine triple_look (a := s.stream.isAt .dot) rfl ?_
  split
  · rename_i hdot
    have hkind : s.stream.peek.kind = .dot := of_decide_eq_true hdot
    refine triple_bind (advance_sourced s) fun dot s₁ h₁ => ?_
    refine triple_bind (advance_sourced s₁) fun t s₂ h₂ => triple_pure ?_
    have hs₁ := h₁.2.2.1.ready hs
    have hdot : dot.kind = .dot := h₁.1 ▸ hkind
    rw [(h₁.2.2.2 hs (by simp [hdot])).1]
    by_cases heof : t.kind = .eof
    · refine ⟨ts ++ [dot], ?_, hts.dot hdot⟩
      rw [h₂.2.1, Stream.upcoming_next_eof hs₁.sound (h₂.1 ▸ heof)]
      simp
    · refine ⟨ts ++ [dot, t], ?_, hts.segment hdot⟩
      rw [(h₂.2.2.2 hs₁ heof).1]
      simp
  · exact triple_pure ⟨ts, rfl, hts⟩

theorem skipSegments_sourced (s : ParseState) :
    ⦃fun st => ⌜st = s⌝⦄ skipSegments
    ⦃⇓ _ st => ⌜s.Moves st ∧ (s.Ready → InName s.stream.upcoming st.stream)⌝⦄ := by
  have hreads := triple_iff_run.1 (loop_leaves segmentRound_spec
    (fun _ st => InName s.stream.upcoming st.stream) (fun _ st => InName s.stream.upcoming st.stream) s
    (fun v st _ hs hI => segmentRound_sourced hs v hI) ())
  exact triple_iff_run.2 ⟨hreads.1, fun hs => hreads.2 hs ⟨[], rfl, .nil⟩⟩

/-- Inside a group that is not closed yet. -/
structure InGroup (before : List Token) (depth : Int) (s : Stream) (ts : List Token) : Prop where
  tokens : before = ts ++ s.upcoming
  depth_eq : depthOf ts = depth
  inside : ∀ pre, pre <+: ts → pre ≠ [] → 0 < depthOf pre

theorem groupRound_sourced {before : List Token} {s : ParseState} (hs : s.Ready)
    (hparen : headKind before = .lparen) (depth : Int)
    (h : ∃ ts, InGroup before depth s.stream ts) :
    ⦃fun st => ⌜st = s⌝⦄ groupRound depth
    ⦃⇓ r st => ⌜Leaves (fun depth st => ∃ ts, InGroup before depth st.stream ts)
      (fun _ st => ∃ ts, before = ts ++ st.stream.upcoming ∧ IsGroup ts st.stream.upcoming) r st⌝⦄ := by
  obtain ⟨ts, htokens, rfl, hinside⟩ := h
  unfold groupRound
  refine triple_look (a := s.stream.isAt .eof) rfl ?_
  split
  · rename_i heof
    have hkind : headKind s.stream.upcoming = .eof :=
      (Stream.headKind_upcoming hs.sound).trans (of_decide_eq_true heof)
    refine triple_pure ⟨ts, htokens, ?_, fun pre hpre hne _ => hinside pre hpre hne, .inr hkind⟩
    rw [← headKind_append _ s.stream.upcoming, ← htokens, hparen]
    rintro rfl
    simp [htokens, hkind] at hparen
  · rename_i heof
    refine triple_bind (advance_sourced s) fun t s₁ h₁ => ?_
    have hkind : t.kind ≠ .eof := fun h => heof (decide_eq_true (h₁.1 ▸ h))
    have hnext := (h₁.2.2.2 hs hkind).1
    have htokens' : before = (ts ++ [t]) ++ s₁.stream.upcoming := by simp [htokens, hnext]
    have hdepth : depthOf (ts ++ [t]) = depthBehind (depthOf ts) t.kind := by simp [depthOf]
    have hprefix : ∀ pre, pre <+: ts ++ [t] → pre ≠ [] → pre ≠ ts ++ [t] → 0 < depthOf pre := by
      intro pre hpre hne hlast
      rcases List.prefix_concat_iff.1 hpre with h | h
      · exact absurd h hlast
      · exact hinside pre h hne
    by_cases hopen : depthBehind (depthOf ts) t.kind ≤ 0
    · dsimp only
      rw [if_pos hopen]
      refine triple_pure ⟨ts ++ [t], htokens', ?_, hprefix, .inl (hdepth ▸ hopen)⟩
      rw [← headKind_append (by simp) s₁.stream.upcoming, ← htokens', hparen]
    · dsimp only
      rw [if_neg hopen]
      refine triple_pure ⟨ts ++ [t], htokens', hdepth, fun pre hpre hne => ?_⟩
      by_cases hlast : pre = ts ++ [t]
      · rw [hlast, hdepth]
        omega
      · exact hprefix pre hpre hne hlast

theorem skipGroup_sourced (s : ParseState) :
    ⦃fun st => ⌜st = s⌝⦄ skipGroup
    ⦃⇓ _ st => ⌜s.Moves st ∧ (s.Ready → s.stream.peek.kind = .lparen →
      ∃ ts, s.stream.upcoming = ts ++ st.stream.upcoming ∧ IsGroup ts st.stream.upcoming)⌝⦄ := by
  have hmoves := triple_iff_run.1 (moves_spec skipGroup (.of_spec skipGroup_spec) s)
  refine triple_iff_run.2 ⟨hmoves, fun hs hparen => ?_⟩
  have hhead : headKind s.stream.upcoming = .lparen := (Stream.headKind_upcoming hs.sound).trans hparen
  have hreads := triple_iff_run.1 (loop_leaves groupRound_spec _ _ s
    (fun depth st _ hst hI => groupRound_sourced hst hhead depth hI) 0)
  refine hreads.2 hs ⟨[], rfl, rfl, fun pre hpre hne => absurd (List.prefix_nil.1 hpre) hne⟩

theorem annotationRule_sourced : ReadsRule grammar annotationRule := by
  refine readsRule_of_spec fun file n p hp hn s => ?_
  refine triple_bind (advance_sourced s) fun sign s₁ h₁ => ?_
  refine triple_bind (advance_sourced s₁) fun word s₂ h₂ => ?_
  refine triple_bind (skipSegments_sourced s₂) fun _ s₃ h₃ => ?_
  refine triple_look (a := s₃.stream.isAt .lparen) rfl ?_
  refine triple_optional (a := ()) (P := fun _ s₄ => s₃.Moves s₄ ∧ (s₃.Ready → ∃ group,
    s₃.stream.upcoming = group ++ s₄.stream.upcoming
      ∧ (group = [] ∨ IsGroup group s₄.stream.upcoming))) (fun hparen => ?_)
    (fun _ => ⟨.refl _, fun _ => ⟨[], rfl, .inl rfl⟩⟩) fun _ s₄ h₄ => ?_
  · obtain ⟨hmoves, hgroup⟩ := triple_iff_run.1 (skipGroup_sourced s₃)
    refine triple_iff_run.2 ⟨hmoves, fun hs => ?_⟩
    obtain ⟨group, hupcoming, hall⟩ := hgroup hs (of_decide_eq_true hparen)
    exact ⟨group, hupcoming, .inr hall⟩
  have hmoves₂ := h₁.2.2.1.trans h₂.2.2.1
  have hmoves₄ := hmoves₂.trans (h₃.1.trans h₄.1)
  have hannotated : s.Ready → annotationRule.canStart s.stream = true →
      ∃ ts, s.stream.upcoming = ts ++ s₄.stream.upcoming ∧ IsAnnotationText ts s₄.stream.upcoming
        ∧ s₄.stream.rest.length < s.stream.rest.length := by
    intro hs hstart
    simp only [annotationRule, Bool.and_eq_true] at hstart
    have hsign : sign.kind = .atSign := h₁.1 ▸ of_decide_eq_true hstart.1.1
    have hpeek : s.stream.peek.kind ≠ .eof := by simp [← h₁.1, hsign]
    have hword : word.isWord = true := by
      rw [h₂.1, h₁.2.1, show s.stream.next.2.peek = s.stream.peekAt 1 from
        Stream.peekAt_next hs.sound hpeek 0]
      exact hstart.1.2
    have hs₁ := h₁.2.2.1.ready hs
    have hfirst := (h₁.2.2.2 hs (by simp [hsign])).1
    have hsecond := (h₂.2.2.2 hs₁ (Token.kind_ne_eof_of_isWord hword)).1
    obtain ⟨segments, hsegments, hdotted⟩ := h₃.2 (hmoves₂.ready hs)
    obtain ⟨group, hgroup, hall⟩ := h₄.2 ((hmoves₂.trans h₃.1).ready hs)
    refine ⟨sign :: word :: (segments ++ group), ?_, .intro hsign hword hdotted hall, ?_⟩
    · rw [hfirst, hsecond, hsegments, hgroup]
      simp
    · have hlt := length_rest_lt hs hpeek h₁.2.1
      have hle := length_rest_le (h₂.2.2.1.trans (h₃.1.trans h₄.1)) hs₁
      omega
  refine triple_look (a := s₄.stream.isAtAny [.eof, .rbrace]) rfl ?_
  split
  · refine triple_look (a := sign.span.cover s₄.stream.last) rfl ?_
    obtain ⟨hmoves, hstream, hmakes⟩ := triple_iff_run.1 (keepAsComment_makes
      (sign.span.cover s₄.stream.last) s₄)
    refine triple_iff_run.2 fun hs _ hstart _ => ?_
    obtain ⟨ts, hts, hreads, -⟩ := hannotated hs.toReady hstart
    rw [hstream]
    exact makes_kept (.annotated (by simp [grammar]) hreads) hts hmakes
  · refine triple_bind (hn.spec file hp s₄) fun found s₅ h₅ => triple_pure ?_
    refine fun hs hlength hstart herrors => ⟨by simp, ?_⟩
    obtain ⟨ts, hts, hreads, hlt⟩ := hannotated hs.toReady hstart
    rw [hts]
    exact makes_dropped (.annotated (by simp [grammar]) hreads)
      (h₅.2 (hmoves₄.readyIn hs) (by omega) herrors)

instance : grammar.IsSourced where
  rules := by
    simp only [grammar, List.mem_cons, List.not_mem_nil, or_false]
    rintro r (rfl | rfl | rfl)
    · exact importRule_sourced
    · exact annotationRule_sourced
    · exact readsRule_of_names rfl rfl fun ts after hts => .accessWords (by simp) hts

end Java

instance : TypeScript.grammar.IsSourced where
  rules := by
    simp only [TypeScript.grammar, List.mem_singleton]
    rintro r rfl
    exact Parse.readsRule_of_names rfl rfl fun ts after hts => .exportWords (by simp) hts

/-! ## Files -/

/-- Where the tokens end with the only end of file, it alone is left. -/
theorem Stream.AtFirstEnd.upcoming {ts : List Token} {e : Token} {s : Stream}
    (h : s.AtFirstEnd (ts ++ [e])) (hts : ∀ t ∈ ts, t.kind ≠ .eof) (he : e.kind = .eof) :
    s.upcoming = [e] := by
  have hclosed : closed (ts ++ [e]) = ts ++ [e] := by simp [closed, he]
  have hfind : ts.findIdx (·.kind = .eof) = ts.length := by
    simpa [List.findIdx_eq_length] using hts
  have hindex : s.past.reverse.length = ts.length := by
    have := h.index
    rw [hclosed, List.findIdx_append, hfind, if_neg (Nat.lt_irrefl _)] at this
    simpa [Stream.index, he] using this
  have htokens : s.past.reverse ++ s.rest = ts ++ [e] := hclosed ▸ h.tokens
  rw [upcoming_eq h.half, (List.append_inj htokens hindex).2]
  simp [Token.isTrivia, he, Kind.isTrivia]

/-- In every language, the statements of a source text that is parsed without errors are what its
significant tokens say, up to the end of the file. -/
theorem Catalog.reads_of_parse {name : Bytes} {r : Registry} (h : registry name = .ok r) {file : File}
    (hsize : file.content.size < 2 ^ 32) {maxErrors : Nat}
    (herrors : (parse r.grammar file (Lexer.tokenize file r.matchers).tokens maxErrors).errors = 0) :
    Statement.ReadsAll r.grammar file ((Lexer.tokenize file r.matchers).tokens.filter (!·.isTrivia))
      (parse r.grammar file (Lexer.tokenize file r.matchers).tokens maxErrors).program.statements
      [Lexer.endToken file] := by
  have hnamed := Lexer.tokenize_named (matchers_fit h) hsize
  obtain ⟨ts, hts, hinner⟩ := Lexer.tokenize_ends (matchers_fit h) hsize
  generalize (Lexer.tokenize file r.matchers).tokens = tokens at *
  subst hts
  have hstart : (Stream.ofTokens (ts ++ [Lexer.endToken file])).upcoming
      = (ts ++ [Lexer.endToken file]).filter (!·.isTrivia) := by
    rw [Stream.upcoming_eq rfl]
    simp [Stream.ofTokens, Stream.closed, Lexer.endToken]
  have hreads : ∀ (g : Grammar) [g.IsForward] [g.IsBlind] [g.IsEnclosed] [g.IsComplete] [g.IsSourced],
      (parse g file (ts ++ [Lexer.endToken file]) maxErrors).errors = 0 →
      Statement.ReadsAll g file ((ts ++ [Lexer.endToken file]).filter (!·.isTrivia))
        (parse g file (ts ++ [Lexer.endToken file]) maxErrors).program.statements
        [Lexer.endToken file] := by
    intro g _ _ _ _ _ hnone
    have hall := Uml.reads_of_parse g hnamed hnone
    rwa [(Parse.document_atFirstEnd (g := g) file _ maxErrors).upcoming hinner rfl, hstart] at hall
  rcases grammar_of_registry h with hg | hg | hg <;> rw [hg] at herrors ⊢
  · exact hreads {} herrors
  · exact hreads TypeScript.grammar herrors
  · exact hreads Java.grammar herrors

end Uml
