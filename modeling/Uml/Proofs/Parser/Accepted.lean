import Mathlib
import Uml.Proofs.Parser.Complete

/-!
# Statement forms that accept

A form of the plain notation that is read without errors answers a statement, from the token ahead to
the token taken last.
-/
namespace Uml

open Std.Do

set_option mvcgen.warning false

namespace Parse

open ParseState

/-- A form answers a statement from the token ahead to the token taken last; else it says that it does
not apply, or what is wrong. -/
structure Accepts (s s' : Stream) (r : Except Failure (Option Statement)) : Prop where
  told : r ≠ .error .reported
  span : ∀ found, r = .ok found → ∃ x, found = some x ∧ x.span = s.peek.span.cover s'.last

@[grind .] theorem accepts_some {s s' : Stream} {x : Statement} (h : x.span = s.peek.span.cover s'.last) :
    Accepts s s' (.ok (some x)) :=
  ⟨nofun, fun _ hfound => ⟨x, (Except.ok.inj hfound).symm, h⟩⟩

@[grind .] theorem accepts_error {s s' : Stream} {f : Failure} (h : f ≠ .reported) :
    Accepts s s' (.error f) :=
  ⟨fun heq => h (Except.error.inj heq), nofun⟩

attribute [local spec high] advance_moves advanceRaw_moves eat?_moves reset_moves report_moves
  reportFailure_moves path?_named endpoint?_named mult_closes linkLabel_moves entityBody_moves
  typeParams_moves entityModifiers_moves expect_moves closeBrace_moves configEntry?_moves sync_moves

@[local spec high] theorem newDecl_span (span : Span) (d : Decl) (s : ParseState) :
    ⦃fun st => ⌜st = s⌝⦄ newDecl span d
    ⦃⇓ r st => ⌜s.Moves st ∧ st.stream = s.stream ∧ r.span = span⌝⦄ :=
  triple_iff_run.2 ⟨⟨.refl _, le_refl _, Nat.le_succ _, rfl⟩, rfl, rfl⟩

theorem loop_told {α : Type} (round : Except Failure α → Parse (Round (Except Failure α)))
    (h : ∀ v s, ⦃fun st => ⌜st = s⌝⦄ round v
      ⦃⇓ r st => ⌜s.Moves st ∧ (v ≠ .error .reported → r.value ≠ .error .reported)⌝⦄)
    {v : Except Failure α} (hv : v ≠ .error .reported) (s : ParseState) :
    ⦃fun st => ⌜st = s⌝⦄ loop v round ⦃⇓ v' st => ⌜s.Moves st ∧ v' ≠ .error .reported⌝⦄ := by
  refine loop_keeps (fun (v : Except Failure α) st => s.Moves st ∧ v ≠ .error .reported)
    (fun v st hI => ?_) ⟨.refl _, hv⟩
  obtain ⟨hmoves, htold⟩ := triple_iff_run.1 (h v st)
  exact triple_iff_run.2 ⟨hI.1.trans hmoves, htold hI.2⟩

theorem header_told (s : ParseState) :
    ⦃fun st => ⌜st = s⌝⦄ header ⦃⇓ found st => ⌜s.Moves st ∧ found ≠ .error .reported⌝⦄ := by
  unfold header
  refine triple_intro fun Q hQ => ?_
  mvcgen <;> grind -linarith

@[local spec high] theorem headers_told (s : ParseState) :
    ⦃fun st => ⌜st = s⌝⦄ headers ⦃⇓ found st => ⌜s.Moves st ∧ found ≠ .error .reported⌝⦄ := by
  refine loop_told headerRound (fun v s => ?_) (v := .ok []) (by simp) s
  unfold headerRound
  refine triple_intro fun Q hQ => ?_
  mvcgen [header_told, -header_spec] <;> grind -linarith

@[local spec high] theorem constraintTargets_told (closer : Kind) (s : ParseState) :
    ⦃fun st => ⌜st = s⌝⦄ constraintTargets closer
    ⦃⇓ found st => ⌜s.Moves st ∧ found ≠ .error .reported⌝⦄ := by
  refine loop_told (targetRound closer) (fun v s => ?_) (v := .ok []) (by simp) s
  unfold targetRound
  refine triple_intro fun Q hQ => ?_
  mvcgen <;> grind -linarith

@[local spec high] theorem noteAnchors_told (s : ParseState) :
    ⦃fun st => ⌜st = s⌝⦄ noteAnchors ⦃⇓ found st => ⌜s.Moves st ∧ found ≠ .error .reported⌝⦄ := by
  refine loop_told anchorRound (fun v s => ?_) (v := .ok []) (by simp) s
  unfold anchorRound
  refine triple_intro fun Q hQ => ?_
  mvcgen <;> grind -linarith

variable {g : Grammar} [g.IsForward] [g.IsBlind]

theorem chainLink_told (fromMult : RawMult) (s : ParseState) :
    ⦃fun st => ⌜st = s⌝⦄ chainLink g fromMult
    ⦃⇓ found st => ⌜s.Moves st ∧ found ≠ .error .reported⌝⦄ := by
  unfold chainLink
  refine triple_intro fun Q hQ => ?_
  mvcgen <;> grind -linarith

@[local spec high] theorem chain_told (fromMult : RawMult) (s : ParseState) :
    ⦃fun st => ⌜st = s⌝⦄ chain g fromMult ⦃⇓ found st => ⌜s.Moves st ∧ found ≠ .error .reported⌝⦄ := by
  have hlink := chainLink_told (g := g)
  have hloop := loop_told (chainRound g) (fun v s => by
    unfold chainRound
    refine triple_intro fun Q hQ => ?_
    mvcgen [hlink, -chainLink_spec] <;> grind -linarith) (v := .ok ([], fromMult)) (by simp)
  unfold chain
  refine triple_intro fun Q hQ => ?_
  mvcgen [hloop]
  rename_i found _ _
  cases found <;> grind -linarith [Except.map]

theorem config_accepts (s : ParseState) :
    ⦃fun st => ⌜st = s⌝⦄ config
    ⦃⇓ r st => ⌜s.Moves st ∧ Accepts s.stream st.stream r⌝⦄ := by
  have hloop := moves_spec (loop #[] configRound) (.of_spec (loop_reaches configRound_spec _))
  unfold config
  refine triple_intro fun Q hQ => ?_
  mvcgen [hloop]
  grind -linarith

theorem atConfig_accepts (s : ParseState) :
    ⦃fun st => ⌜st = s⌝⦄ atConfig
    ⦃⇓ r st => ⌜s.Moves st ∧ Accepts s.stream st.stream r⌝⦄ := by
  unfold atConfig
  refine triple_intro fun Q hQ => ?_
  mvcgen <;> grind -linarith

theorem constraint_accepts (s : ParseState) :
    ⦃fun st => ⌜st = s⌝⦄ constraint
    ⦃⇓ r st => ⌜s.Moves st ∧ Accepts s.stream st.stream r⌝⦄ := by
  unfold constraint
  refine triple_intro fun Q hQ => ?_
  mvcgen <;> grind -linarith

theorem note_accepts (s : ParseState) :
    ⦃fun st => ⌜st = s⌝⦄ note
    ⦃⇓ r st => ⌜s.Moves st ∧ Accepts s.stream st.stream r⌝⦄ := by
  unfold note
  refine triple_intro fun Q hQ => ?_
  mvcgen <;> grind -linarith

theorem entity_accepts (s : ParseState) :
    ⦃fun st => ⌜st = s⌝⦄ entity g
    ⦃⇓ r st => ⌜s.Moves st ∧ Accepts s.stream st.stream r⌝⦄ := by
  unfold entity
  refine triple_intro fun Q hQ => ?_
  mvcgen <;> grind -linarith

theorem relationship_accepts (s : ParseState) :
    ⦃fun st => ⌜st = s⌝⦄ relationship g
    ⦃⇓ r st => ⌜s.Moves st ∧ Accepts s.stream st.stream r⌝⦄ := by
  unfold relationship
  refine triple_intro fun Q hQ => ?_
  mvcgen <;> grind -linarith

theorem expect_reports (k : Kind) (code : Code) (message : Bytes) (s : ParseState) :
    ⦃fun st => ⌜st = s⌝⦄ expect g k code message
    ⦃⇓ found st => ⌜s.Moves st ∧ (found = none → st.errors ≠ 0)⌝⦄ := by
  have hoffer := moves_spec (offer g k) (.of_spec (offer_spec k))
  unfold expect
  refine triple_intro fun Q hQ => ?_
  mvcgen [hoffer, -offer_spec] <;> grind -linarith [Diagnostic.error]

theorem association_accepts (s : ParseState) :
    ⦃fun st => ⌜st = s⌝⦄ association g
    ⦃⇓ r st => ⌜s.Moves st ∧ (st.errors = 0 → Accepts s.stream st.stream r)⌝⦄ := by
  have hexpect := expect_reports (g := g)
  unfold association
  refine triple_intro fun Q hQ => ?_
  mvcgen [hexpect, -expect_moves, -expect_spec] <;> grind -linarith

theorem newPackage_span (span : Span) (name : Bytes) (nameSpan : Span) (body : List Statement)
    (s : ParseState) :
    ⦃fun st => ⌜st = s⌝⦄ newStatement (fun id => .package { id, span } name nameSpan body)
    ⦃⇓ r st => ⌜s.Moves st ∧ st.stream = s.stream ∧ r.span = span⌝⦄ :=
  triple_iff_run.2 ⟨⟨.refl _, le_refl _, Nat.le_succ _, rfl⟩, rfl, rfl⟩

theorem package_accepts {p : Parse (Option Statement)} (hp : Completes p) (s : ParseState) :
    ⦃fun st => ⌜st = s⌝⦄ package g p
    ⦃⇓ r st => ⌜s.Moves st ∧ (st.errors = 0 → Accepts s.stream st.stream r)⌝⦄ := by
  have hbody := statements_complete hp true
  have hexpect := expect_reports (g := g)
  unfold package
  refine triple_intro fun Q hQ => ?_
  mvcgen [hbody, hexpect, newPackage_span, -newStatement_spec, -expect_moves, -expect_spec]
  case vc3 st hst keyword st₁ h₁ named name nameSpan _ st₂ h₂ opened opener _ st₃ h₃ inside body st₄
      h₄ outside _ st₅ h₅ made st₆ h₆ =>
    have hopen : st₃.Moves inside.2 := ⟨.refl _, le_refl _, le_refl _, rfl⟩
    have hclose : st₄.Moves outside.2 := ⟨.refl _, le_refl _, le_refl _, rfl⟩
    grind -linarith
  all_goals grind -linarith

/-- A rule that accepts what it reads without errors, if nested statements are complete. -/
def AcceptsRule (r : Rule) : Prop :=
  ∀ p, Completes p → ∀ s : ParseState, s.Moves ((r.parse p).run s).2
    ∧ (((r.parse p).run s).2.errors = 0 → Accepts s.stream ((r.parse p).run s).2.stream
      ((r.parse p).run s).1)

theorem AcceptsRule.spec {r : Rule} (h : AcceptsRule r) {p : Parse (Option Statement)}
    (hp : Completes p) (s : ParseState) :
    ⦃fun st => ⌜st = s⌝⦄ r.parse p
    ⦃⇓ found st => ⌜s.Moves st ∧ (st.errors = 0 → Accepts s.stream st.stream found)⌝⦄ :=
  triple_iff_run.2 (h p hp s)

theorem acceptsRule_of {r : Rule} (h : ∀ p s, ⦃fun st => ⌜st = s⌝⦄ r.parse p
    ⦃⇓ found st => ⌜s.Moves st ∧ Accepts s.stream st.stream found⌝⦄) : AcceptsRule r :=
  fun p _ s => (triple_iff_run.1 (h p s)).imp_right fun haccepts _ => haccepts

theorem builtinRules_accept (r : Rule) (hr : r ∈ builtinRules g) : AcceptsRule r := by
  simp only [builtinRules, List.mem_cons, List.not_mem_nil, or_false] at hr
  rcases hr with rfl | rfl | rfl | rfl | rfl | rfl | rfl | rfl
  · exact acceptsRule_of fun _ => config_accepts
  · exact acceptsRule_of fun _ => atConfig_accepts
  · exact acceptsRule_of fun _ => constraint_accepts
  · exact acceptsRule_of fun _ => note_accepts
  · exact fun _ _ s => triple_iff_run.1 (association_accepts s)
  · exact fun _ hp s => triple_iff_run.1 (package_accepts hp s)
  · exact acceptsRule_of fun _ => entity_accepts
  · exact acceptsRule_of fun _ => relationship_accepts

omit [g.IsForward] [g.IsBlind] in
/-- No statement begins with the half of a `>>`. -/
theorem builtinRules_start {r : Rule} (hr : r ∈ builtinRules g) {s : Stream} (hs : r.canStart s = true) :
    s.peek.kind ≠ .gt := by
  intro hgt
  have hzero : s.kindAt 0 = .gt := hgt
  simp only [builtinRules, List.mem_cons, List.not_mem_nil, or_false] at hr
  rcases hr with rfl | rfl | rfl | rfl | rfl | rfl | rfl | rfl
  · simp [Stream.canStartConfig, Stream.isAt, hgt] at hs
  · simp [Stream.canStartAtConfig, Stream.isAt, hgt] at hs
  · simp [Stream.canStartConstraint, Stream.isAt, hgt] at hs
  · simp [Stream.canStartNote, Stream.isAt, hgt] at hs
  · simp [Stream.canStartAssociation, Stream.isAt, hgt] at hs
  · simp [Stream.canStartPackage, Stream.isAt, hgt] at hs
  · have hscan : s.scanModifiers s.rest.length 0 = 0 := by
      cases s.rest.length with
      | zero => rfl
      | succ n => simp [Stream.scanModifiers, hzero, Kind.isEntityModifier]
    simp [Stream.canStartEntity, Stream.entityKeywordAt?, hscan, hzero, Kind.isEntityKeyword] at hs
  · simp [Stream.canStartRelationship, Stream.scanEndpoint, Stream.scanPath, hzero] at hs

theorem reportFailure_reports (f : Failure) (s : ParseState) :
    ⦃fun st => ⌜st = s⌝⦄ reportFailure f
    ⦃⇓ _ st => ⌜s.Moves st ∧ (f ≠ .reported → st.errors ≠ 0)⌝⦄ := by
  unfold reportFailure
  refine triple_intro fun Q hQ => ?_
  mvcgen <;> grind -linarith [Diagnostic.error]

end Parse
end Uml
