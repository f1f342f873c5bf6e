import Mathlib
import Uml.Proofs.Parser.LookAhead
import Uml.Proofs.Parser.Recovery
import Uml.Proofs.Twin.Bodies

/-! Statement forms are read alike by two runs side by side. -/
set_option synthInstance.maxSize 1000000000

namespace Uml.Twin

open Uml.Parse

variable {T : Twin} [T.Lawful] {α β : Type} {s s' u u' : Stream}

/-! ## Configuration -/

/-- Both have read the same, and nothing is missing up to a cut. -/
def Reads (T : Twin) [Seen α] (a : Option α) (u : Stream) (a' : Option α) (u' : Stream) : Prop :=
  T.Both a u a' u' ∧ (a = none → ¬T.isCut)

theorem configValue?_sim (h : T.Full s s') : T.Sim never T.Reads s s' configValue? configValue? := by
  unfold configValue?
  refine .peek h.toWeak (fun _ _ => ?_) fun hcut heof _ => .lost hcut ?_
  · have hrefuse {w w' : Stream} (hw : T.Full w w') : T.Sim never T.Reads w w'
        (do
          error .badConfigValue s.peek.span
            ("config values must be strings, numbers, booleans or identifiers, got " ++ s.peek.describe)
          pure (none : Option (ValueKind × Bytes × Span)))
        (do
          error .badConfigValue (T.token s.peek).span
            ("config values must be strings, numbers, booleans or identifiers, got " ++ (T.token s.peek).describe)
          pure none) :=
      .reported (fun _ => rfl) fun hcut => .pure ⟨⟨rfl, hw⟩, fun _ => hcut⟩
    have htake (hne : s.peek.kind ≠ .eof) {a a' : ValueKind × Bytes × Span} (ha : a' = seen T.view a) :
        T.Sim never T.Reads s s' (do let _ ← advance; return some a) (do let _ ← advance; return some a') :=
      .advance h.toWeak hne fun hu => .pure ⟨⟨congrArg some ha, hu⟩, nofun⟩
    simp only [token_kind]
    split
    · next hk => exact htake (by simp [hk]) rfl
    · next hk => exact htake (by simp [hk]) rfl
    · next hk =>
      have hne : s.peek.kind ≠ .eof := by simp [hk]
      refine .looks (looks_peekAt 1) (looks_peekAt 1) ?_
      obtain ⟨heq, -⟩ | ⟨-, heof, hsemi⟩ := h.peekAt 1 fun m hm => by rwa [Nat.lt_one_iff.1 hm]
      · rw [heq]
        refine .ite .rfl (fun hnumber => .advance h.toWeak hne fun hu => .advance hu.toWeak ?_ fun hw => ?_)
          fun _ => hrefuse h
        · rw [Stream.peek, Stream.peekAt_next h.sound hne]
          simp [hnumber]
        · exact .pure ⟨⟨by rw [token_span, token_span, ← seen_cover]; rfl, hw⟩, nofun⟩
      · unfold Stream.kindAt at heof hsemi
        refine .ite (by simp [heof, hsemi]) (fun hnumber => ?_) fun _ => hrefuse h
        simp [heof] at hnumber
    · next hk => exact htake (by simp [hk]) rfl
    · next hk => exact htake (by simp [hk]) rfl
    · refine .bind_never (path?_sim h.toWeak) ?_ fun found => ?_
      · rintro (_ | ⟨name, span⟩) w _ w' ⟨rfl, hnone, hsome⟩
        · obtain ⟨rfl, rfl⟩ := hnone rfl
          exact hrefuse h
        · exact .pure ⟨⟨rfl, hsome nofun⟩, nofun⟩
      · cases found <;> infer_instance
    · exact hrefuse h
  · rw [heof]
    exact .report hcut

theorem configEntry?_sim (h : T.Full s s') (hne : s.peek.kind ≠ .eof) :
    T.Sim never T.Reads s s' configEntry? configEntry? := by
  unfold configEntry?
  refine .look looks_peek ?_
  rw [h.peek_eq hne]
  refine .ite .rfl (fun _ => .reported (fun _ => rfl) fun hcut => .pure ⟨⟨rfl, h⟩, fun _ => hcut⟩) fun _ => ?_
  refine .advance h.toWeak hne fun hu => .look (looks_isAtAny _) ?_
  refine .test (congrArg (!·) (hu.toWeak.isAtAny [.colon, .assign] rfl)) (fun _ => ?_) fun hat => ?_
  · refine .looks looks_here looks_here (.reported (fun hcut => ?_) fun hcut => .pure ⟨⟨rfl, hu⟩, fun _ => hcut⟩)
    rw [hu.place hcut]
    rfl
  · refine .advance hu.toWeak ?_ fun hw => ?_
    · intro heof
      simp [Stream.isAtAny, heof] at hat
    · refine .bind_never (configValue?_sim hw) ?_ fun found => ?_
      · rintro (_ | ⟨kind, value, span⟩) x _ x' ⟨⟨rfl, hx⟩, hnone⟩
        · exact .pure ⟨⟨rfl, hx⟩, fun _ => hnone rfl⟩
        · exact .pure ⟨⟨rfl, hx⟩, fun hno => absurd hno (Option.some_ne_none _)⟩
      · cases found <;> infer_instance

theorem syncEntryRound_sim (h : T.Full s s') (v : Unit) :
    T.Sim (Ended never T.ended) T.Both s s' (syncEntryRound v) (syncEntryRound v) := by
  unfold syncEntryRound
  refine .untilClose h (by decide) rfl fun hne => ?_
  exact .advance h.toWeak hne fun hu => .pure ⟨rfl, hu⟩

theorem syncEntry_sim (h : T.Full s s') : T.Sim T.ended T.Both s s' syncEntry syncEntry := by
  unfold syncEntry
  exact .loop_full (takes_of_goes syncEntryRound_goes) (fun v _ _ hu => syncEntryRound_sim hu v) h rfl

theorem configRound_sim (h : T.Full s s') (v : Array ConfigEntry) :
    T.Sim (Ended never T.ended) T.Both s s' (configRound v) (configRound (seen T.view v)) := by
  unfold configRound
  refine .untilClose h (by decide) rfl fun hne => ?_
  have hat (k : Kind) : s'.isAt k = s.isAt k := by rw [Stream.isAt, h.peek_eq hne]; rfl
  refine .eat h.toWeak .comma (hat _) (by decide) (fun _ hu => Sim.pure ⟨rfl, hu⟩) fun _ => ?_
  refine .eat h.toWeak .semicolon (hat _) (by decide) (fun _ hu => Sim.pure ⟨rfl, hu⟩) fun _ => ?_
  refine .bind_never (configEntry?_sim h hne) ?_ fun found => ?_
  · rintro (_ | e) u _ u' ⟨⟨rfl, hu⟩, hnone⟩
    · exact .bind ((syncEntry_sim hu).uncut (M := never) (hnone rfl)) (fun _ _ _ hlost => hlost.elim)
        fun _ w _ w' hw => .pure ⟨rfl, hw.2⟩
    · exact .pure ⟨by simp, hu⟩
  · cases found <;> infer_instance

theorem config_sim (h : T.Weak s s') (hat : s.canStartConfig = true) : T.Sim fails T.Both s s' config config := by
  obtain ⟨hne, hbrace⟩ := h.peek_second hat (by decide)
  unfold config
  refine .advance h hne fun hu => .advance hu.toWeak (by simp [hbrace]) fun hw => ?_
  refine .bind (Sim.loop_full (takes_of_goes configRound_spec) (fun v _ _ hu => configRound_sim hu v) hw (by simp))
    (fun a u hcut hend => .closeBrace hcut (not_closed hend) _ _) ?_
  rintro a u _ u' ⟨rfl, hu⟩
  refine .follow (closeBrace_follows hu _ _) fun _ v v' hv => .looks (looks_upToLast _) (looks_upToLast _) ?_
  refine .follow (Follows.newDecl hv (upToLast_cover hv _) ?_) fun _ _ _ hw => .pure ⟨rfl, hw⟩
  exact congrArg Decl.config (seen_toList a).symm

omit [T.Lawful] in
theorem Weak.word_second (h : T.Weak s s') {k : Kind} (hat : (s.isAt k && s.wordAt 1) = true)
    (hk : k ≠ .eof) : s.peek.kind ≠ .eof ∧ s.next.2.peek.isWord = true := by
  obtain ⟨hkind, hword⟩ := Bool.and_eq_true_iff.1 hat
  have hne : s.peek.kind ≠ .eof := of_decide_eq_true hkind ▸ hk
  exact ⟨hne, by rw [Stream.peek, Stream.peekAt_next h.sound hne]; exact hword⟩

theorem atConfig_sim (h : T.Weak s s') (hat : s.canStartAtConfig = true) :
    T.Sim fails T.Both s s' atConfig atConfig := by
  obtain ⟨hne, hword⟩ := h.word_second hat (by decide)
  unfold atConfig
  refine .advance h hne fun hu => ?_
  refine .bind_never (configEntry?_sim hu (Token.kind_ne_eof_of_isWord hword)) ?_
    fun found => ?_
  · rintro (_ | e) w _ w' ⟨⟨rfl, hw⟩, hnone⟩
    · exact .fail hw fun _ => rfl
    · refine .looks (looks_upToLast _) (looks_upToLast _) ?_
      exact .follow (Follows.newDecl hw (upToLast_cover hw _) rfl) fun _ _ _ hx => .pure ⟨rfl, hx⟩
  · cases found <;> infer_instance

/-! ## Constraints and notes -/

omit [T.Lawful] in
theorem constraintRef_seen (path : Bytes) (span : Span) :
    constraintRef path (seen T.view span) = seen T.view (constraintRef path span) := by
  unfold constraintRef
  cases path.cutLast? 0x2E <;> rfl

/-- The first run gives up, or ends at the end of its text. -/
def endsOrFails (T : Twin) (r : Except Failure α) (u : Stream) : Prop :=
  fails r u ∨ (∃ a, r = .ok a) ∧ T.ended () u

theorem targetRound_sim (h : T.Full s s') (closer : Kind) (v : Except Failure (List ConstraintRef)) :
    T.Sim (Ended never T.endsOrFails) T.Both s s' (targetRound closer v) (targetRound closer (seen T.view v)) := by
  unfold targetRound
  cases v with
  | error why => exact .pure ⟨rfl, h⟩
  | ok targets =>
    refine .atClose h.toWeak (by simp) (fun _ heof => .pure (.inr ⟨⟨_, rfl⟩, heof, _, h.toWeak⟩)) (.pure ⟨rfl, h⟩)
      fun hne => ?_
    refine .eat h.toWeak .comma (h.isAt _ rfl) (by decide) (fun _ hu => Sim.pure ⟨rfl, hu⟩) fun _ => ?_
    refine .bind_never (path?_sim h.toWeak) ?_ fun found => ?_
    · rintro (_ | ⟨path, span⟩) u _ u' ⟨rfl, hnone, hsome⟩
      · obtain ⟨rfl, rfl⟩ := hnone rfl
        refine .looks looks_peek looks_peek ?_
        rw [h.peek_eq hne]
        exact .failing h (fun _ => rfl) (fun _ _ => .pure (.inl ⟨_, _, _, rfl⟩)) fun _ => .pure ⟨rfl, h⟩
      · exact .pure ⟨by simp [constraintRef_seen], hsome nofun⟩
    · cases found <;> infer_instance

theorem constraintTargets_sim (h : T.Full s s') (closer : Kind) :
    T.Sim T.endsOrFails T.Both s s' (constraintTargets closer) (constraintTargets closer) := by
  unfold constraintTargets
  exact .loop_full (takes_of_goes (targetRound_spec closer)) (fun v _ _ hu => targetRound_sim hu closer v) h rfl

def finishConstraint (keyword kind opener : Token) (targets : List ConstraintRef) :
    Parse (Except Failure (Option Statement)) := do
  if opener.kind = .lbrace then closeBrace opener "constraint"
  else if !(← eat .rparen) then
    error .unclosedParen opener.span "unclosed '(' in constraint"
  let span ← upToLast keyword.span
  if targets.isEmpty then
    warning .emptyConstraint span ("constraint " ++ kind.text ++ " has no targets")
  return .ok (some (← newDecl span (.constraint ⟨kind.text, kind.span, targets⟩)))

instance finishConstraint_isBlind (keyword kind opener : Token) (targets : List ConstraintRef) :
    IsBlind (finishConstraint keyword kind opener targets) := by
  unfold finishConstraint
  infer_instance

theorem finishConstraint_sim (h : T.Full s s') (keyword kind opener : Token) (targets : List ConstraintRef) :
    T.Sim fails T.Both s s' (finishConstraint keyword kind opener targets)
      (finishConstraint (T.token keyword) (T.token kind) (T.token opener) (seen T.view targets)) := by
  have hmade {u u' : Stream} (hu : T.Full u u') : T.Sim fails T.Both u u'
      (do
        let span ← upToLast keyword.span
        if targets.isEmpty then
          warning .emptyConstraint span ("constraint " ++ kind.text ++ " has no targets")
        return .ok (some (← newDecl span (.constraint ⟨kind.text, kind.span, targets⟩))))
      (do
        let span ← upToLast (T.token keyword).span
        if (seen T.view targets).isEmpty then
          warning .emptyConstraint span ("constraint " ++ kind.text ++ " has no targets")
        return .ok (some (← newDecl span (.constraint ⟨kind.text, (T.token kind).span, seen T.view targets⟩)))) := by
    have hempty : (seen T.view targets).isEmpty = targets.isEmpty := by cases targets <;> rfl
    have hdecl {u u' : Stream} (hu : T.Full u u') (span : Span) : T.Sim fails T.Both u u'
        (do return .ok (some (← newDecl span (.constraint ⟨kind.text, kind.span, targets⟩))))
        (do return .ok (some (← newDecl (seen T.view span)
          (.constraint ⟨kind.text, (T.token kind).span, seen T.view targets⟩)))) :=
      .follow (Follows.newDecl hu rfl rfl) fun _ _ _ hw => .pure ⟨rfl, hw⟩
    refine .looks (looks_upToLast _) (looks_upToLast _) ?_
    rw [token_span, upToLast_cover hu]
    refine .test hempty (fun _ => ?_) fun _ => hdecl hu _
    exact .reported (fun _ => rfl) fun _ => hdecl hu _
  unfold finishConstraint
  refine .ite .rfl (fun _ => .follow (closeBrace_follows h _ _) fun _ _ _ hu => hmade hu) fun _ => ?_
  refine .eaten h .rparen rfl fun b u u' hu => .ite .rfl (fun _ => ?_) fun _ => hmade hu
  exact .reported (fun _ => rfl) fun _ => hmade hu

omit [T.Lawful] in
/-- At the end of the text a closing brace or parenthesis is missing. -/
theorem finishConstraint_dooms (hcut : T.isCut) (hs : s.peek.kind = .eof) (keyword kind opener : Token)
    (targets : List ConstraintRef) : T.Dooms fails s (finishConstraint keyword kind opener targets) := by
  unfold finishConstraint
  refine .ite (fun _ => .closeBrace hcut (by simp [hs]) _ _) fun _ => ?_
  have hno : ¬s.isAt .rparen = true := by simp [Stream.isAt, hs]
  refine .eat_not hno (.ite (fun _ => .report hcut) fun hcontra => absurd rfl hcontra)

theorem constraint_sim (h : T.Weak s s') (hat : s.canStartConstraint = true) :
    T.Sim fails T.Both s s' constraint constraint := by
  have hne : s.peek.kind ≠ .eof := of_decide_eq_true hat ▸ nofun
  unfold constraint
  refine .advance h hne fun hu => .peek hu.toWeak (fun _ _ => ?_) fun hcut heof _ => .lost hcut ?_
  · refine .ite .rfl (fun _ => .fail hu fun _ => rfl) fun hword => ?_
    refine .advance hu.toWeak (Token.kind_ne_eof_of_isWord (by simpa using hword)) fun hw => ?_
    refine .peek hw.toWeak (fun _ _ => ?_) fun hcut heof _ => .lost hcut ?_
    · refine .ite .rfl (fun _ => .fail hw fun _ => rfl) fun hopen => ?_
      refine .advance hw.toWeak (fun heof => by simp [heof] at hopen) fun hx => ?_
      refine .bind_of (constraintTargets_sim hx _) (fun r x hcut hend => ?_) ?_ fun r => ?_
      · obtain ⟨code, span, message, rfl⟩ | ⟨⟨targets, rfl⟩, hend⟩ := hend
        · exact .pure ⟨_, _, _, rfl⟩
        · exact finishConstraint_dooms hcut hend.1 _ _ _ targets
      · rintro (why | targets) y _ y' ⟨rfl, hy⟩
        · exact .pure ⟨rfl, hy⟩
        · exact finishConstraint_sim hy _ _ _ targets
      · cases r with
        | error why => infer_instance
        | ok targets => exact finishConstraint_isBlind _ _ _ targets
    · refine .ite (fun _ => .look (looks_failure _ _) (.pure ⟨_, _, _, rfl⟩)) fun hno => ?_
      simp [heof] at hno
  · refine .ite (fun _ => .look (looks_failure _ _) (.pure ⟨_, _, _, rfl⟩)) fun hno => ?_
    exact absurd heof (Token.kind_ne_eof_of_isWord (by simpa using hno))

theorem anchorRound_sim (h : T.Full s s') (v : Except Failure (List Anchor)) :
    T.Sim (Ended never fails) T.Both s s' (anchorRound v) (anchorRound (seen T.view v)) := by
  unfold anchorRound
  cases v with
  | error why => exact .pure ⟨rfl, h⟩
  | ok anchors =>
    refine .follow_of (path?_follows h) (fun found u u' hu => ?_) fun found => ?_
    · cases found with
      | none =>
        refine .looks looks_peek looks_peek (.failing hu (fun hcut => ?_) (fun _ _ => .pure ⟨_, _, _, rfl⟩)
          fun _ => .pure ⟨rfl, hu⟩)
        rw [hu.describe hcut]
      | some found =>
        refine .eaten hu .comma rfl fun more w w' hw => .pure ⟨?_, hw⟩
        cases more <;> simp <;> rfl
    · cases found <;> infer_instance

theorem noteAnchors_sim (h : T.Full s s') : T.Sim fails T.Both s s' noteAnchors noteAnchors := by
  unfold noteAnchors
  exact .loop_full (takes_of_goes anchorRound_spec) (fun v _ _ hu => anchorRound_sim hu v) h rfl

def finishNote (keyword text : Token) : Except Failure (List Anchor) → Parse (Except Failure (Option Statement))
  | .error why => return .error why
  | .ok anchors => do
    return .ok (some (← newDecl (← upToLast keyword.span) (.note (Literal.value text.text) anchors)))

omit [T.Lawful] in
theorem finishNote_sim (h : T.Full s s') (keyword text : Token) (anchors : Except Failure (List Anchor)) :
    T.Sim fails T.Both s s' (finishNote keyword text anchors)
      (finishNote (T.token keyword) (T.token text) (seen T.view anchors)) := by
  cases anchors with
  | error why => exact .pure ⟨rfl, h⟩
  | ok anchors =>
    refine .looks (looks_upToLast _) (looks_upToLast _) ?_
    exact .follow (Follows.newDecl h (upToLast_cover h _) rfl) fun _ _ _ hu => .pure ⟨rfl, hu⟩

theorem note_sim (h : T.Weak s s') (hat : s.canStartNote = true) : T.Sim fails T.Both s s' note note := by
  obtain ⟨hne, hstring⟩ := h.peek_second hat (by decide)
  unfold note
  refine .advance h hne fun hu => .advance hu.toWeak (by simp [hstring]) fun hw => ?_
  refine .eaten hw .kwOn rfl fun b x x' hx => ?_
  refine .ite .rfl (fun _ => .bind_of (noteAnchors_sim hx) (fun r y hcut hfails => ?_) ?_ fun r => ?_)
    fun _ => finishNote_sim hx s.peek s.next.2.peek (.ok [])
  · obtain ⟨code, span, message, rfl⟩ := hfails
    exact .pure ⟨_, _, _, rfl⟩
  · rintro r y _ y' ⟨rfl, hy⟩
    exact finishNote_sim hy s.peek s.next.2.peek r
  · cases r <;> infer_instance

/-! ## Association classes -/

theorem optionalBody_follows (h : T.Full s s') (kind : EntityKind) (owner : Bytes) {N : β → Stream → Prop}
    {R : β → Stream → β → Stream → Prop} {f g : List Member → Parse β}
    (hf : ∀ members u u', T.Full u u' → T.Sim N R u u' (f members) (g (seen T.view members)))
    [∀ members, IsBlind (f members)] :
    T.Sim N R s s'
      (isAt .lbrace >>= fun b => if b then entityBody {} kind owner >>= f else pure [] >>= f)
      (isAt .lbrace >>= fun b => if b then entityBody {} kind owner >>= g else pure [] >>= g) := by
  refine .look (looks_isAt _) ?_
  rw [h.isAt .lbrace rfl]
  exact .optional h (fun hat => entityBody_follows h (of_decide_eq_true hat ▸ nofun) kind owner) rfl hf

def missingEnd : Parse (Except Failure (Option Statement)) := do
  return .error (← failure .expectIdentifier ("expected association end, got " ++ (← peek).describe))

instance : IsBlind missingEnd := by unfold missingEnd; infer_instance

theorem missingEnd_sim (h : T.Full s s') : T.Sim fails T.Both s s' missingEnd missingEnd := by
  unfold missingEnd
  refine .looks looks_peek looks_peek (.fail h fun hcut => ?_)
  rw [h.describe hcut]

/-- What is read of an association class behind its second end, where `decl` holds what is known. -/
def finishAssociation (keyword opener : Token) (decl : AssociationDecl) :
    Option Endpoint → Parse (Except Failure (Option Statement))
  | none => missingEnd
  | some right => do
    if !(← eat .rparen) then
      error .unclosedParen opener.span ("unclosed '(' in association " ++ decl.name)
    let members ← if ← isAt .lbrace then entityBody {} .cls ("association " ++ decl.name) else pure []
    return .ok (some (← newDecl (← upToLast keyword.span) (.association { decl with right, members })))

def secondEnd (keyword name opener : Token) : Option Endpoint → Parse (Except Failure (Option Statement))
  | none => missingEnd
  | some left => do
    let leftMult ← mult
    let op ← peek
    if !op.isRelationship then
      return .error (← failure .expectRelationship
        ("expected relationship operator in association, got " ++ op.describe))
    let _ ← advance
    let rightMult ← mult
    finishAssociation keyword opener
      { name := name.text, nameSpan := name.span, left, leftMult, op := op.kind, opSpan := op.span, rightMult,
        right := {} }
      (← endpoint?)

instance (keyword opener : Token) (decl : AssociationDecl) (right : Option Endpoint) :
    IsBlind (finishAssociation keyword opener decl right) := by
  cases right <;> simp only [finishAssociation] <;> infer_instance

instance (keyword name opener : Token) (left : Option Endpoint) : IsBlind (secondEnd keyword name opener left) := by
  cases left <;> simp only [secondEnd] <;> infer_instance

theorem finishAssociation_sim (h : T.Full s s') (keyword opener : Token) (decl : AssociationDecl)
    (right : Option Endpoint) : T.Sim fails T.Both s s' (finishAssociation keyword opener decl right)
      (finishAssociation (T.token keyword) (T.token opener) (seen T.view decl) (seen T.view right)) := by
  cases right with
  | none => exact missingEnd_sim h
  | some right =>
    have hmade {u u' : Stream} (hu : T.Full u u') := optionalBody_follows hu .cls ("association " ++ decl.name)
      (N := fails) (R := T.Both)
      (f := fun members => do
        return .ok (some (← newDecl (← upToLast keyword.span) (.association { decl with right, members }))))
      (g := fun members => do
        return .ok (some (← newDecl (← upToLast (T.token keyword).span)
          (.association { seen T.view decl with right := seen T.view right, members }))))
      fun members w w' hw => .looks (looks_upToLast _) (looks_upToLast _)
        (.follow (Follows.newDecl hw (upToLast_cover hw _) rfl) fun _ _ _ hx => .pure ⟨rfl, hx⟩)
    refine .eaten h .rparen rfl fun b u u' hu => .ite .rfl (fun _ => ?_) fun _ => hmade hu
    exact .reported (fun _ => rfl) fun _ => hmade hu

theorem secondEnd_sim (h : T.Full s s') (keyword name opener : Token) (left : Option Endpoint) :
    T.Sim fails T.Both s s' (secondEnd keyword name opener left)
      (secondEnd (T.token keyword) (T.token name) (T.token opener) (seen T.view left)) := by
  cases left with
  | none => exact missingEnd_sim h
  | some left =>
    refine .follow (mult_follows h) fun leftMult u u' hu => ?_
    refine .peek hu.toWeak (fun _ _ => ?_) fun hcut heof _ => .lost hcut ?_
    · refine .ite .rfl (fun _ => .fail hu fun _ => rfl) fun hrel => ?_
      refine .advance hu.toWeak (Token.kind_ne_eof_of_isRelationship (by simpa using hrel)) fun hw => ?_
      refine .follow (mult_follows hw) fun rightMult x x' hx => .follow (endpoint?_follows hx) fun right y y' hy => ?_
      exact finishAssociation_sim hy keyword opener _ right
    · refine .ite (fun _ => .look (looks_failure _ _) (.pure ⟨_, _, _, rfl⟩)) fun hno => ?_
      exact absurd heof (Token.kind_ne_eof_of_isRelationship (by simpa using hno))

theorem association_sim (h : T.Weak s s') (hat : s.canStartAssociation = true) :
    T.Sim fails T.Both s s' (association {}) (association {}) := by
  obtain ⟨hne, hname⟩ := h.peek_second hat (by decide)
  unfold association
  refine .advance h hne fun hu => .advance hu.toWeak (by simp [hname]) fun hw => ?_
  refine .bind_never (expect_follows hw _ _ rfl) ?_ fun found => ?_
  · rintro (_ | opener) x _ x' ⟨rfl, hx⟩
    · exact .pure ⟨rfl, hx⟩
    · exact .follow (f := secondEnd s.peek s.next.2.peek opener) (endpoint?_follows hx)
        fun left y y' hy => secondEnd_sim hy _ _ _ left
  · cases found with
    | none => infer_instance
    | some opener => exact .bind inferInstance fun left => inferInstanceAs (IsBlind (secondEnd _ _ opener left))

/-! ## Headers -/

theorem typeParamRound_follows (h : T.Full s s') (v : Array TypeParam) :
    T.Follows s s' (typeParamRound v) (typeParamRound (seen T.view v)) := by
  unfold typeParamRound
  refine .peek h.toWeak (fun _ _ => ?_) fun _ heof hsemi => ?_
  · refine .ite .rfl (fun _ => .pure ⟨rfl, h⟩) fun hident => ?_
    have hne : s.peek.kind ≠ .eof := by simp [not_not.1 hident]
    refine .advance h.toWeak hne fun hu => .eaten hu .comma rfl fun more w w' hw => .pure ⟨?_, hw⟩
    cases more <;> simp <;> rfl
  · simp only [heof, hsemi]
    exact .pure ⟨rfl, h⟩

theorem typeParams_follows (h : T.Full s s') (hne : s.peek.kind ≠ .eof) : T.Follows s s' typeParams typeParams := by
  unfold typeParams
  refine .advance h.toWeak hne fun hu => ?_
  refine .follow (Follows.loop (takes_of_goes typeParamRound_spec) (fun v _ _ hw => typeParamRound_follows hw v) hu
    (by simp)) fun v w w' hw => .follow (closeAngle_follows hw _ _) fun _ _ _ hx => .pure ⟨by simp, hx⟩

/-- The first run has read something up to a bracket that the first text does not close. -/
def Blocked (r : Except Failure α) (u : Stream) : Prop := (∃ a, r = .ok a) ∧ u.Sound ∧ Stuck u

/-- The first run gives up, or ends before such a bracket. -/
def Stalls (r : Except Failure α) (u : Stream) : Prop := fails r u ∨ Blocked r u

omit [T.Lawful] in
theorem Stuck.stalls (h : Stuck s) (hs : s.Sound) (a : α) : Stalls (.ok a) s := .inr ⟨⟨a, rfl⟩, hs, h⟩

theorem linkLabel_follows (h : T.Full s s') : T.Follows s s' linkLabel linkLabel := by
  unfold linkLabel
  refine .look (looks_isAt _) (.look (looks_kindAt _) ?_)
  refine .test (h.test_behind clear_zero .string (!·.isRelationship) rfl rfl) (fun hat => ?_) fun _ => .pure ⟨rfl, h⟩
  have hkind := of_decide_eq_true (Bool.and_eq_true_iff.1 hat).1
  exact .advance h.toWeak (by simp [hkind]) fun hu => .pure ⟨rfl, hu⟩

omit [T.Lawful] in
theorem Dooms.linkLabel {f : Bytes → Parse β} {N : β → Stream → Prop} (hs : s.peek.kind ≠ .string)
    (h : T.Dooms N s (f [])) : T.Dooms N s (linkLabel >>= f) := by
  rintro st rfl
  have hrun : Parse.linkLabel.run st = ([], st) := by
    show StateT.run (if (st.stream.isAt .string && !(st.stream.kindAt 1).isRelationship) = true then _ else _) st = _
    rw [if_neg (by simp [Stream.isAt, hs])]
    rfl
  rw [run_bind, hrun]
  exact h st rfl

omit [T.Lawful] in
theorem looks_missingTarget (op : Token) : Looks (missingTarget op) fun s => .syntaxError .expectIdentifier (place s)
    ("expected relationship target after '" ++ op.text ++ "', got " ++ s.peek.describe) := fun _ => rfl

theorem missingTarget_sim [Seen α] (h : T.Full s s') (op : Token) : T.Sim fails T.Both s s'
    (do return (.error (← missingTarget op) : Except Failure α)) (do return .error (← missingTarget (T.token op))) := by
  refine .looks (looks_missingTarget op) (looks_missingTarget _) ?_
  by_cases hcut : T.isCut
  · exact .lost hcut (.pure ⟨_, _, _, rfl⟩)
  · refine .pure ⟨?_, h⟩
    rw [h.place hcut, h.describe hcut]
    rfl

omit [T.Lawful] in
theorem Stuck.atHeader (h : Stuck s) : (s.peek.isRelationship || s.multThenOperator) = false := by
  rw [h.multThenOperator, Token.isRelationship, h.kind]
  rfl

omit [T.Lawful] in
theorem looks_atHeader : Looks atHeader fun s => s.peek.isRelationship || s.multThenOperator := fun _ => rfl

/-- Where a relationship is ahead, its operator is ahead behind the multiplicity. -/
theorem headerMult_sim (h : T.Full s s') (hat : (s.peek.isRelationship || s.multThenOperator) = true) :
    T.Sim never (fun a u a' u' => u.peek.kind ≠ .eof ∧ T.Both a u a' u') s s' mult mult := by
  refine Sim.and_runs (P := fun _ u => u.peek.kind ≠ .eof) (mult_follows h) ?_
  rintro st rfl
  obtain ⟨-, -, hstays⟩ := triple_iff_run.1 (mult_spec st)
  rcases Bool.or_eq_true_iff.1 hat with hrel | hthen
  · rw [hstays]
    · exact Token.kind_ne_eof_of_isRelationship hrel
    all_goals
      intro hkind
      simp [Token.isRelationship, hkind, Kind.isRelationship] at hrel
  · simp only [Stream.multThenOperator, Bool.and_eq_true, decide_eq_true_eq] at hthen
    obtain ⟨c, hc, -, hfew⟩ := triple_iff_run.1 (mult_consumes st) h.sound hthen.1
    have hpeek : (mult.run st).2.stream.peek = st.stream.peekAt c :=
      (hc.peekAt h.sound 0).trans (by rw [Nat.zero_add])
    obtain ⟨-, hclear⟩ | ⟨-, -, hzero, -⟩ := h.scanMult clear_zero
    · by_cases heq : c = st.stream.scanMult 0
      · exact Token.kind_ne_eof_of_isRelationship (t := (mult.run st).2.stream.peek) (by rw [hpeek, heq]; exact hthen.2)
      · rw [hpeek]
        exact (hclear c (hfew heq).1).1
    · simp [hzero] at hthen

omit [T.Lawful] in
/-- Brackets that the first text does not close are reported. -/
theorem bracketRound_dooms (hcut : T.isCut) (opener : Token) (v : RawMult) (hs : s.Sound) (hbare : Bare .rbracket s) :
    T.Dooms (Ended (fun _ u => u.Sound ∧ Bare .rbracket u) never) s (bracketRound opener v) := by
  have hunclosed : T.Dooms (Ended (fun _ u => u.Sound ∧ Bare .rbracket u) never) s
      (do return .stop (← unclosedMult opener) : Parse (Round RawMult)) :=
    (unclosedMult_dooms hcut opener).bind fun _ _ hlost => hlost.elim
  unfold bracketRound
  refine .look looks_peek ?_
  split
  · next hk => exact absurd hk (hbare.peek_ne hs.rest_ne_nil (by decide))
  · exact hunclosed
  · exact hunclosed
  · exact hunclosed
  · exact hunclosed
  · refine .ite (fun _ => hunclosed) fun _ => .advance (.pure ?_)
    have hreach := Stream.reaches_next s
    exact ⟨(hreach.sound hs).1, hbare.reaches hs hreach⟩

theorem Stuck.mult_dooms (hs : Stuck s) (hcut : T.isCut) (h : T.Weak s s') : T.Dooms never s mult := by
  have hbare : Bare .rbracket s := h.bare hs.isOpen rfl (by decide)
  have hreach := Stream.reaches_next s
  have hbracketed : T.Dooms never s bracketed := by
    unfold bracketed
    refine .advance (Dooms.loop (K := fun _ u => u.Sound ∧ Bare .rbracket u) (takes_of_goes (bracketRound_spec _))
      (fun _ _ hu => hu.1) (fun v u hu => bracketRound_dooms hcut _ v hu.1 hu.2) ⟨(hreach.sound h.sound).1, ?_⟩)
    exact hbare.reaches h.sound hreach
  unfold mult
  refine .look looks_peek ?_
  rw [hs.kind]
  exact hbracketed

/-- What is read of a header behind its target, where `link` holds what is known. -/
def finishHeader (start : Span) (link : Link) : Parse (Except Failure Link) := do
  let toMult ← if (← isAt .lbracket) && !(← atHeader) && !link.toMult.isPresent then mult else pure link.toMult
  let label ← linkLabel
  return .ok { link with toMult, label, span := ← upToLast start }

instance (start : Span) (link : Link) : IsBlind (finishHeader start link) := by
  unfold finishHeader
  infer_instance

theorem finishHeader_sim (h : T.Full s s') (start : Span) (link : Link) :
    T.Sim Stalls T.Both s s' (finishHeader start link) (finishHeader (seen T.view start) (seen T.view link)) := by
  unfold finishHeader
  obtain ⟨-, hmult⟩ | ⟨hcut, hstuck⟩ := h.mult_ahead
  · have hmade {u u' : Stream} (hu : T.Full u u') (toMult : RawMult) : T.Sim Stalls T.Both u u'
        (do
          let label ← linkLabel
          return .ok { link with toMult, label, span := ← upToLast start })
        (do
          let label ← linkLabel
          return .ok
            { seen T.view link with toMult := seen T.view toMult, label, span := ← upToLast (seen T.view start) }) := by
      refine .follow (linkLabel_follows hu) fun label w w' hw => .looks (looks_upToLast _) (looks_upToLast _)
        (.pure ⟨?_, hw⟩)
      rw [upToLast_cover hw]
      rfl
    refine .looks (looks_isAt _) (looks_isAt _) (.looks looks_atHeader looks_atHeader
      (.test ?_ (fun hat => ?_) fun _ => ?_))
    · rw [h.isAt .lbracket rfl, hmult, show s'.peek.isRelationship = s.peek.isRelationship from
        h.kindAt_congr Kind.isRelationship rfl nofun,
        show (seen T.view link).toMult.isPresent = link.toMult.isPresent from isPresent_seen _]
    · exact .follow (mult_follows h) fun toMult u u' hu => hmade hu toMult
    · exact hmade h _
  · refine .lost hcut (.look (looks_isAt _) (.look looks_atHeader (.ite (fun _ => ?_) fun _ => ?_)))
    · exact (hstuck.mult_dooms hcut h.toWeak).bind fun _ _ hlost => hlost.elim
    · have hlabel : s.peek.kind ≠ .string := by simp [hstuck.kind]
      refine .still (fun _ => rfl) fun toMult => .linkLabel hlabel ?_
      exact .look (looks_upToLast _) (.pure (hstuck.stalls h.sound _))

theorem header_sim (h : T.Full s s') (hat : (s.peek.isRelationship || s.multThenOperator) = true) :
    T.Sim Stalls T.Both s s' header header := by
  have hne : s.peek.kind ≠ .eof := by
    rintro heof
    rcases Bool.or_eq_true_iff.1 hat with hrel | hthen
    · exact Token.kind_ne_eof_of_isRelationship hrel heof
    · simpa [heof] using kind_of_multThenOperator hthen
  unfold header
  refine .look looks_peek ?_
  rw [h.peek_eq hne]
  refine .bind_never (headerMult_sim h hat) ?_ fun fromMult => ?_
  · rintro fromMult u _ u' ⟨hop, rfl, hu⟩
    refine .advance hu.toWeak hop fun hw => .follow_of (mult_follows hw) (fun toMult x x' hx => ?_) fun toMult => ?_
    · refine .follow_of (endpoint?_follows hx) (fun target y y' hy => ?_) fun target => ?_
      · cases target with
        | none => exact (missingTarget_sim hy _).mono (fun _ _ hfails => .inl hfails) fun _ _ _ _ h => h
        | some target =>
          exact finishHeader_sim hy s.peek.span
            { op := u.peek.kind, opSpan := u.peek.span, fromMult, toMult, target, span := {} }
      · cases target <;> infer_instance
    · refine .bind inferInstance fun target => ?_
      cases target <;> infer_instance
  · refine .bind inferInstance fun op => .bind inferInstance fun toMult => .bind inferInstance fun target => ?_
    cases target <;> infer_instance

omit [T.Lawful] in
theorem headerRound_dooms {v : Except Failure (List Link)} (h : Blocked v s) :
    T.Dooms (Ended Blocked Stalls) s (headerRound v) := by
  obtain ⟨⟨links, rfl⟩, hs, hstuck⟩ := h
  refine .look looks_atHeader ?_
  rw [hstuck.atHeader]
  exact .pure (hstuck.stalls hs links)

theorem headerRound_sim (h : T.Full s s') (v : Except Failure (List Link)) :
    T.Sim (Ended Blocked Stalls) (Rounds T.Both T.Both) s s' (headerRound v) (headerRound (seen T.view v)) := by
  cases v with
  | error why => exact .pure ⟨rfl, h⟩
  | ok links =>
    obtain ⟨-, hmult⟩ | ⟨hcut, hstuck⟩ := h.mult_ahead
    · refine .looks looks_atHeader looks_atHeader (.test ?_ (fun _ => .pure ⟨rfl, h⟩) fun hat => ?_)
      · rw [hmult, show s'.peek.isRelationship = s.peek.isRelationship from
          h.kindAt_congr Kind.isRelationship rfl nofun]
      · refine .bind_of (header_sim h ((Bool.not_eq_false' _).mp hat)) (fun r u hcut hend => ?_) ?_ fun r => ?_
        · obtain ⟨code, span, message, rfl⟩ | ⟨⟨link, rfl⟩, hs, hstuck⟩ := hend
          · exact .pure (.inl ⟨_, _, _, rfl⟩)
          · exact .pure ⟨⟨_, rfl⟩, hs, hstuck⟩
        · rintro (why | link) u _ u' ⟨rfl, hu⟩
          · exact .pure ⟨rfl, hu⟩
          · exact .pure ⟨by simp, hu⟩
        · cases r <;> infer_instance
    · exact .lost hcut (headerRound_dooms ⟨⟨links, rfl⟩, h.sound, hstuck⟩)

theorem headers_sim (h : T.Full s s') : T.Sim Stalls T.Both s s' headers headers := by
  unfold headers
  refine Sim.loop (K := Blocked) (I := T.Both) (takes_of_goes headerRound_spec) (fun _ _ _ _ hI => hI.2.toWeak)
    (fun _ _ hK => hK.2.1) (fun _ _ _ hK => headerRound_dooms hK) ?_ ⟨rfl, h⟩
  rintro v u _ u' ⟨rfl, hu⟩
  exact headerRound_sim hu v

/-! ## Entities -/

theorem entityModifierRound_sim (h : T.Weak s s') (hat : s.canStartEntity = true) (mods : Modifiers) :
    T.Sim never (Rounds (fun v u v' u' => v' = v ∧ T.Weak u u' ∧ u.canStartEntity = true)
      (fun v u v' u' => v' = v ∧ T.Weak u u' ∧ u.canStartEntity = true)) s s' (entityModifierRound mods)
      (entityModifierRound mods) := by
  have hne : s.peek.kind ≠ .eof := (Stream.kind_of_canStartEntity hat).1
  unfold entityModifierRound
  refine .look looks_peek ?_
  rw [h.peek_eq hne, token_kind]
  cases hm : Modifier.ofKeyword? s.peek.kind with
  | none => exact .pure ⟨rfl, h, hat⟩
  | some m =>
    have hnext : s.next.2.canStartEntity = true :=
      (Stream.canStartEntity_next h.sound (isEntityModifier_of_ofKeyword? hm)).trans hat
    refine .advance h hne fun hu => .ite .rfl (fun _ => ?_) fun _ => .pure ⟨rfl, hu.toWeak, hnext⟩
    exact .reported (fun _ => rfl) fun _ => .pure ⟨rfl, hu.toWeak, hnext⟩

theorem entityModifiers_sim (h : T.Weak s s') (hat : s.canStartEntity = true) :
    T.Sim never (fun v u v' u' => v' = v ∧ T.Weak u u' ∧ u.canStartEntity = true) s s' entityModifiers
      entityModifiers := by
  unfold entityModifiers
  refine Sim.loop (K := never) (I := fun v u v' u' => v' = v ∧ T.Weak u u' ∧ u.canStartEntity = true)
    (takes_of_goes entityModifierRound_spec) (fun _ _ _ _ hI => hI.2.1) (fun _ _ hK => hK.elim)
    (fun _ _ _ hK => hK.elim) ?_ ⟨rfl, h, hat⟩
  rintro _ u v u' ⟨rfl, hu, hstart⟩
  exact (entityModifierRound_sim hu hstart v).mono (fun _ _ hlost => hlost.elim) fun _ _ _ _ h => h

/-- What is read of an entity behind its header, where `decl` holds what is known. -/
def finishEntity (start : Span) (decl : EntityDecl) :
    Except Failure (List Link) → Parse (Except Failure (Option Statement))
  | .error why => return .error why
  | .ok headers => do
    let hasBody ← isAt .lbrace
    let members ← if hasBody then entityBody {} decl.kind decl.name else pure []
    return .ok (some (← newDecl (← upToLast start) (.entity { decl with headers, members, hasBody })))

instance (start : Span) (decl : EntityDecl) (headers : Except Failure (List Link)) :
    IsBlind (finishEntity start decl headers) := by
  cases headers <;> simp only [finishEntity] <;> infer_instance

theorem finishEntity_sim (h : T.Full s s') (start : Span) (decl : EntityDecl) (headers : Except Failure (List Link)) :
    T.Sim Stalls T.Both s s' (finishEntity start decl headers)
      (finishEntity (seen T.view start) (seen T.view decl) (seen T.view headers)) := by
  cases headers with
  | error why => exact .pure ⟨rfl, h⟩
  | ok headers =>
    refine .look (looks_isAt _) ?_
    rw [h.isAt .lbrace rfl]
    refine .optional h (fun hat => entityBody_follows h (of_decide_eq_true hat ▸ nofun) decl.kind decl.name) rfl
      fun members u u' hu => .looks (looks_upToLast _) (looks_upToLast _) ?_
    exact .follow (Follows.newDecl hu (upToLast_cover hu _) rfl) fun _ _ _ hw => .pure ⟨rfl, hw⟩

omit [T.Lawful] in
/-- Before a bracket an entity ends without a body. -/
theorem finishEntity_dooms (start : Span) (decl : EntityDecl) {headers : Except Failure (List Link)}
    (h : Stalls headers s) : T.Dooms Stalls s (finishEntity start decl headers) := by
  obtain ⟨code, span, message, rfl⟩ | ⟨⟨links, rfl⟩, hs, hstuck⟩ := h
  · exact .pure (.inl ⟨_, _, _, rfl⟩)
  · refine .look (looks_isAt _) (.ite (fun hat => ?_) fun _ => .still (fun _ => rfl) fun _ => ?_)
    · simp [Stream.isAt, hstuck.kind] at hat
    · exact .look (looks_upToLast _) (.still (fun _ => rfl) fun _ => .pure (hstuck.stalls hs _))

theorem entity_sim (h : T.Weak s s') (hat : s.canStartEntity = true) :
    T.Sim Stalls T.Both s s' (entity {}) (entity {}) := by
  have hne : s.peek.kind ≠ .eof := (Stream.kind_of_canStartEntity hat).1
  unfold entity
  refine .look looks_peek ?_
  rw [h.peek_eq hne]
  refine .bind_never (entityModifiers_sim h hat) ?_ ?_
  · rintro _ u modifiers u' ⟨rfl, hu, hstart⟩
    refine .advance hu (Stream.kind_of_canStartEntity hstart).1 fun hw => .peek hw.toWeak (fun _ _ => ?_)
      fun hcut heof _ => .lost hcut ?_
    · refine .ite .rfl (fun _ => ?_) fun hident => ?_
      · exact (Sim.fail hw fun _ => rfl).mono (fun _ _ hfails => .inl hfails) fun _ _ _ _ h => h
      · refine .advance hw.toWeak (by simp [not_not.1 hident]) fun hx => .look (looks_isAt _) ?_
        rw [hx.isAt .lt rfl]
        refine .optional_of hx (fun hat => typeParams_follows hx (of_decide_eq_true hat ▸ nofun)) rfl
          (fun typeParams y y' hy => ?_) ?_
        · let decl : EntityDecl :=
            { kind := (EntityKind.ofKeyword? u.peek.kind).getD .cls, name := u.next.2.peek.text
              nameSpan := u.next.2.peek.span, modifiers, typeParams }
          refine .bind (f := finishEntity s.peek.span decl)
            (g := finishEntity (seen T.view s.peek.span) (seen T.view decl))
            (headers_sim hy) (fun r z hcut hend => finishEntity_dooms _ decl hend) ?_
          rintro r z _ z' ⟨rfl, hz⟩
          exact finishEntity_sim hz _ decl r
        · refine fun typeParams => .bind inferInstance fun r => ?_
          cases r <;> infer_instance
    · refine .ite (fun _ => .look (looks_failure _ _) (.pure (.inl ⟨_, _, _, rfl⟩))) fun hno => ?_
      exact absurd (not_not.1 hno) (by simp [heof])
  · refine fun modifiers => .bind inferInstance fun _ => .bind inferInstance fun _ => .ite inferInstance ?_
    refine .bind inferInstance fun _ => .bind inferInstance fun _ => .ite ?_ ?_
    all_goals
      refine .bind inferInstance fun typeParams => .bind inferInstance fun r => ?_
      cases r <;> infer_instance

/-! ## Relationships -/

/-- What is read at the end of a link: the multiplicity of the link behind it. -/
def pendingMult (link : Link) : Parse (Except Failure (Link × RawMult)) := do
  let pending ← if (← stream).multThenOperator then mult else pure {}
  return .ok ({ link with span := ← upToLast link.opSpan }, pending)

/-- What is read of a link behind its target, where `link` holds what is known. -/
def finishLink (link : Link) : Parse (Except Failure (Link × RawMult)) := do
  let s ← stream
  let own := s.isAt .lbracket && !link.toMult.isPresent && 0 < s.scanMult 0 && !s.multThenOperator
  let toMult ← if own then mult else pure link.toMult
  let label ← linkLabel
  let members ← if ← isAt .lbrace then entityBody {} .cls link.target.name else pure []
  pendingMult { link with toMult, label, members }

instance (link : Link) : IsBlind (pendingMult link) := by
  unfold pendingMult
  infer_instance

instance (link : Link) : IsBlind (finishLink link) := by
  unfold finishLink
  infer_instance

omit [T.Lawful] in
theorem pendingMult_dooms (hs : s.Sound) (hstuck : Stuck s) (link : Link) : T.Dooms Stalls s (pendingMult link) := by
  refine .look looks_stream (.ite (fun hat => ?_) fun _ => .still (fun _ => rfl) fun _ => ?_)
  · simp [hstuck.multThenOperator] at hat
  · exact .look (looks_upToLast _) (.pure (hstuck.stalls hs _))

theorem pendingMult_sim (h : T.Full s s') (link : Link) :
    T.Sim Stalls T.Both s s' (pendingMult link) (pendingMult (seen T.view link)) := by
  obtain ⟨-, hmult⟩ | ⟨hcut, hstuck⟩ := h.mult_ahead
  · unfold pendingMult
    refine .stream ?_
    rw [hmult]
    refine .optional h (fun _ => mult_follows h) rfl fun pending u u' hu => .looks (looks_upToLast _)
      (looks_upToLast _) ?_
    refine .pure ⟨?_, hu⟩
    have hspan : (seen T.view link).opSpan.cover u'.last = seen T.view (link.opSpan.cover u.last) := upToLast_cover hu _
    rw [hspan]
    rfl
  · exact .lost hcut (pendingMult_dooms h.sound hstuck link)

theorem finishLink_sim (h : T.Full s s') (link : Link) :
    T.Sim Stalls T.Both s s' (finishLink link) (finishLink (seen T.view link)) := by
  unfold finishLink
  obtain ⟨hscan, hmult⟩ | ⟨hcut, hstuck⟩ := h.mult_ahead
  · refine .stream ?_
    rw [h.isAt .lbracket rfl, hscan, hmult,
      show (seen T.view link).toMult.isPresent = link.toMult.isPresent from isPresent_seen _]
    refine .optional h (fun _ => mult_follows h) rfl fun toMult u u' hu => ?_
    refine .follow (linkLabel_follows hu) fun label w w' hw => ?_
    exact optionalBody_follows hw .cls link.target.name fun members x x' hx =>
      pendingMult_sim hx { link with toMult, label, members }
  · refine .lost hcut (.look looks_stream (.ite (fun hown => ?_) fun _ => .still (fun _ => rfl) fun toMult => ?_))
    · simp [hstuck.scan] at hown
    · have hlabel : s.peek.kind ≠ .string := by simp [hstuck.kind]
      refine .linkLabel hlabel (.look (looks_isAt _) (.ite (fun hat => ?_) fun _ => .still (fun _ => rfl) fun _ => ?_))
      · simp [Stream.isAt, hstuck.kind] at hat
      · exact pendingMult_dooms h.sound hstuck _

theorem chainLink_sim (h : T.Full s s') (hne : s.peek.kind ≠ .eof) (fromMult : RawMult) :
    T.Sim Stalls T.Both s s' (chainLink {} fromMult) (chainLink {} (seen T.view fromMult)) := by
  unfold chainLink
  refine .advance h.toWeak hne fun hu => .follow_of (mult_follows hu) (fun toMult x x' hx => ?_) fun toMult => ?_
  · refine .follow_of (endpoint?_follows hx) (fun target y y' hy => ?_) fun target => ?_
    · cases target with
      | none => exact (missingTarget_sim hy _).mono (fun _ _ hfails => .inl hfails) fun _ _ _ _ h => h
      | some target =>
        exact finishLink_sim hy { op := s.peek.kind, opSpan := s.peek.span, fromMult, toMult, target }
    · cases target with
      | none => infer_instance
      | some target =>
        exact inferInstanceAs (IsBlind (finishLink
          { op := s.peek.kind, opSpan := s.peek.span, fromMult, toMult, target }))
  · refine .bind inferInstance fun target => ?_
    cases target <;> infer_instance

omit [T.Lawful] in
theorem chainRound_dooms {v : Except Failure (List Link × RawMult)} (h : Blocked v s) :
    T.Dooms (Ended Blocked Stalls) s (chainRound {} v) := by
  obtain ⟨⟨found, rfl⟩, hs, hstuck⟩ := h
  have hrel : s.peek.isRelationship = false := by rw [Token.isRelationship, hstuck.kind]; rfl
  refine .look looks_peek ?_
  rw [hrel]
  exact .pure (hstuck.stalls hs found)

theorem chainRound_sim (h : T.Full s s') (v : Except Failure (List Link × RawMult)) :
    T.Sim (Ended Blocked Stalls) (Rounds T.Both T.Both) s s' (chainRound {} v) (chainRound {} (seen T.view v)) := by
  cases v with
  | error why => exact .pure ⟨rfl, h⟩
  | ok found =>
    obtain ⟨links, pending⟩ := found
    have hrel : s'.peek.isRelationship = s.peek.isRelationship := h.kindAt_congr Kind.isRelationship rfl nofun
    refine .looks looks_peek looks_peek (.test (congrArg (!·) hrel) (fun _ => .pure ⟨rfl, h⟩) fun hat => ?_)
    have hne : s.peek.kind ≠ .eof := Token.kind_ne_eof_of_isRelationship ((Bool.not_eq_false' _).mp hat)
    refine .bind_of (chainLink_sim h hne pending) (fun r u hcut hend => ?_) ?_ fun r => ?_
    · obtain ⟨code, span, message, rfl⟩ | ⟨⟨link, rfl⟩, hs, hstuck⟩ := hend
      · exact .pure (.inl ⟨_, _, _, rfl⟩)
      · exact .pure ⟨⟨_, rfl⟩, hs, hstuck⟩
    · rintro (why | link) u _ u' ⟨rfl, hu⟩
      · exact .pure ⟨rfl, hu⟩
      · exact .pure ⟨by simp, hu⟩
    · cases r <;> infer_instance

theorem chain_sim (h : T.Full s s') (fromMult : RawMult) :
    T.Sim Stalls T.Both s s' (chain {} fromMult) (chain {} (seen T.view fromMult)) := by
  unfold chain
  refine .bind (Sim.loop (K := Blocked) (I := T.Both) (Q := T.Both) (takes_of_goes chainRound_goes)
    (fun _ _ _ _ hI => hI.2.toWeak)
    (fun _ _ hK => hK.2.1) (fun _ _ _ hK => chainRound_dooms hK) ?_ ⟨rfl, h⟩) (fun r u hcut hend => ?_) ?_
  · rintro v u _ u' ⟨rfl, hu⟩
    exact chainRound_sim hu v
  · obtain ⟨code, span, message, rfl⟩ | ⟨⟨found, rfl⟩, hs, hstuck⟩ := hend
    · exact .pure (.inl ⟨_, _, _, rfl⟩)
    · exact .pure (hstuck.stalls hs _)
  · rintro (why | found) u _ u' ⟨rfl, hu⟩ <;> exact .pure ⟨rfl, hu⟩

def finishRelationship (start : Span) (head : Endpoint) :
    Except Failure (List Link) → Parse (Except Failure (Option Statement))
  | .error why => return .error why
  | .ok links => do return .ok (some (← newDecl (← upToLast start) (.relationship head links)))

instance (start : Span) (head : Endpoint) (links : Except Failure (List Link)) :
    IsBlind (finishRelationship start head links) := by
  cases links <;> simp only [finishRelationship] <;> infer_instance

omit [T.Lawful] in
theorem finishRelationship_sim (h : T.Full s s') (start : Span) (head : Endpoint) (links : Except Failure (List Link)) :
    T.Sim Stalls T.Both s s' (finishRelationship start head links)
      (finishRelationship (seen T.view start) (seen T.view head) (seen T.view links)) := by
  cases links with
  | error why => exact .pure ⟨rfl, h⟩
  | ok links =>
    refine .looks (looks_upToLast _) (looks_upToLast _) ?_
    exact .follow (Follows.newDecl h (upToLast_cover h _) rfl) fun _ _ _ hw => .pure ⟨rfl, hw⟩

omit [T.Lawful] in
theorem finishRelationship_dooms (start : Span) (head : Endpoint) {links : Except Failure (List Link)}
    (h : Stalls links s) : T.Dooms Stalls s (finishRelationship start head links) := by
  obtain ⟨code, span, message, rfl⟩ | ⟨⟨links, rfl⟩, hs, hstuck⟩ := h
  · exact .pure (.inl ⟨_, _, _, rfl⟩)
  · exact .look (looks_upToLast _) (.still (fun _ => rfl) fun _ => .pure (hstuck.stalls hs _))

def linksFrom (start : Span) (head : Endpoint) : Parse (Except Failure (Option Statement)) := do
  let pending ← mult
  if !(← peek).isRelationship then
    return .error (← failure .expectRelationship
      ("expected relationship operator after " ++ head.name ++ ", got " ++ (← peek).describe))
  finishRelationship start head (← chain {} pending)

instance (start : Span) (head : Endpoint) : IsBlind (linksFrom start head) := by
  unfold linksFrom
  infer_instance

theorem linksFrom_sim (h : T.Full s s') (start : Span) (head : Endpoint) :
    T.Sim Stalls T.Both s s' (linksFrom start head) (linksFrom (seen T.view start) (seen T.view head)) := by
  unfold linksFrom
  refine .follow (mult_follows h) fun pending u u' hu => ?_
  have hrel : u'.peek.isRelationship = u.peek.isRelationship := hu.kindAt_congr Kind.isRelationship rfl nofun
  refine .looks looks_peek looks_peek (.test (congrArg (!·) hrel) (fun _ => ?_) fun _ => ?_)
  · refine .looks looks_peek looks_peek ?_
    refine (Sim.fail hu fun hcut => ?_).mono (fun _ _ hfails => .inl hfails) fun _ _ _ _ h => h
    rw [hu.describe hcut]
    rfl
  · refine .bind (chain_sim hu pending) (fun r w hcut hend => finishRelationship_dooms _ _ hend) ?_
    rintro r w _ w' ⟨rfl, hw⟩
    exact finishRelationship_sim hw _ _ r

/-- Both rules have made the same. A rule that is not meant has taken nothing. -/
def Ruled (T : Twin) (s s' : Stream) (r : Except Failure (Option Statement)) (u : Stream)
    (r' : Except Failure (Option Statement)) (u' : Stream) : Prop :=
  r' = seen T.view r ∧ (r = .error .noMatch ∧ u = s ∧ u' = s' ∨ T.Full u u')

theorem relationship_sim (h : T.Weak s s') (hat : s.canStartRelationship = true) :
    T.Sim Stalls (T.Ruled s s') s s' (relationship {}) (relationship {}) := by
  have hne : s.peek.kind ≠ .eof := by
    intro heof
    have hzero : s.kindAt 0 = .eof := heof
    simp [Stream.canStartRelationship, Stream.scanEndpoint, Stream.scanPath, hzero] at hat
  unfold relationship
  refine .look looks_peek ?_
  rw [h.peek_eq hne]
  refine .bind_never (endpoint?_sim h) ?_ fun head => ?_
  · rintro (_ | head) u _ u' ⟨rfl, hstays⟩
    · exact .pure ⟨rfl, hstays.imp_left fun hstays => ⟨rfl, hstays.2⟩⟩
    · have hu : T.Full u u' := hstays.resolve_left fun hno => absurd hno.1 (by simp)
      exact (linksFrom_sim hu s.peek.span head).mono (fun _ _ h => h) fun _ _ _ _ h => ⟨h.1, .inr h.2⟩
  · cases head with
    | none => infer_instance
    | some head => exact inferInstanceAs (IsBlind (linksFrom _ head))

end Uml.Twin
