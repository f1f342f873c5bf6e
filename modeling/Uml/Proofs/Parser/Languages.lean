import Mathlib
import Uml.Language.Catalog
import Uml.Proofs.Parser.Declarations

/-! The notations of the host languages go on. -/
namespace Uml

open Std.Do

set_option mvcgen.warning false

namespace Parse

@[spec] theorem nameRound_spec (names : List Bytes) (v : Unit) (s : ParseState) :
    ⦃fun st => ⌜st = s⌝⦄ nameRound names v
    ⦃⇓ r st => ⌜Goes s.stream r st.stream ∧ (s.stream.nameAt names 0 = true → r = .again ())⌝⦄ := by
  refine triple_intro fun Q hQ => ?_
  mvcgen [nameRound] <;> grind -linarith [Stream.nameAt, Stream.peek]

theorem nameRound_goes (names : List Bytes) (v : Unit) (s : ParseState) :
    ⦃fun st => ⌜st = s⌝⦄ nameRound names v ⦃⇓ r st => ⌜Goes s.stream r st.stream⌝⦄ :=
  triple_iff_run.2 (triple_iff_run.1 (nameRound_spec names v s)).1

@[spec] theorem skipNames_spec (names : List Bytes) (s : ParseState) :
    ⦃fun st => ⌜st = s⌝⦄ skipNames names ⦃⇓ _ st => ⌜s.stream.Reaches st.stream⌝⦄ :=
  loop_reaches (nameRound_goes names) () s

end Parse

namespace Java

open Parse

@[spec] theorem keepAsComment_spec (span : Span) (s : ParseState) :
    ⦃fun st => ⌜st = s⌝⦄ keepAsComment span
    ⦃⇓ r st => ⌜st.stream = s.stream
      ∧ ∃ tag text, tag.span = span ∧ r = .ok (some (.decl tag (.comment text false)))⌝⦄ := by
  refine triple_intro fun Q hQ => ?_
  mvcgen [keepAsComment, newDecl]
  grind -linarith

@[spec] theorem importRound_spec (keyword : Token) (v : Span) (s : ParseState) :
    ⦃fun st => ⌜st = s⌝⦄ importRound keyword v ⦃⇓ r st => ⌜Goes s.stream r st.stream⌝⦄ := by
  refine triple_intro fun Q hQ => ?_
  mvcgen [importRound] <;> grind -linarith [Stream.isAtAny]

@[spec] theorem groupRound_spec (v : Int) (s : ParseState) :
    ⦃fun st => ⌜st = s⌝⦄ groupRound v ⦃⇓ r st => ⌜Goes s.stream r st.stream⌝⦄ := by
  refine triple_intro fun Q hQ => ?_
  mvcgen [groupRound] <;> grind -linarith [Stream.isAt]

@[spec] theorem skipGroup_spec (s : ParseState) :
    ⦃fun st => ⌜st = s⌝⦄ skipGroup ⦃⇓ _ st => ⌜s.stream.Reaches st.stream⌝⦄ := by
  have hloop := loop_reaches groupRound_spec
  refine triple_intro fun Q hQ => ?_
  mvcgen [skipGroup, hloop]
  grind -linarith

@[spec] theorem segmentRound_spec (v : Unit) (s : ParseState) :
    ⦃fun st => ⌜st = s⌝⦄ segmentRound v ⦃⇓ r st => ⌜Goes s.stream r st.stream⌝⦄ := by
  refine triple_intro fun Q hQ => ?_
  mvcgen [segmentRound] <;> grind -linarith [Stream.isAt]

@[spec] theorem skipSegments_spec (s : ParseState) :
    ⦃fun st => ⌜st = s⌝⦄ skipSegments ⦃⇓ _ st => ⌜s.stream.Reaches st.stream⌝⦄ := by
  have hloop := loop_reaches segmentRound_spec
  refine triple_intro fun Q hQ => ?_
  mvcgen [skipSegments, hloop]
  grind -linarith

@[spec] theorem thrownSegmentRound_spec (v : Unit) (s : ParseState) :
    ⦃fun st => ⌜st = s⌝⦄ thrownSegmentRound v ⦃⇓ r st => ⌜Goes s.stream r st.stream⌝⦄ := by
  refine triple_intro fun Q hQ => ?_
  mvcgen [thrownSegmentRound] <;> grind -linarith [Stream.isAt]

@[spec] theorem thrownRound_spec (v : Unit) (s : ParseState) :
    ⦃fun st => ⌜st = s⌝⦄ thrownRound v ⦃⇓ r st => ⌜Goes s.stream r st.stream⌝⦄ := by
  have hloop := loop_reaches thrownSegmentRound_spec
  refine triple_intro fun Q hQ => ?_
  mvcgen [thrownRound, hloop] <;> grind -linarith

@[spec] theorem skipThrows_spec (s : ParseState) :
    ⦃fun st => ⌜st = s⌝⦄ skipThrows ⦃⇓ _ st => ⌜s.stream.Reaches st.stream⌝⦄ := by
  have hloop := loop_reaches thrownRound_spec
  refine triple_intro fun Q hQ => ?_
  mvcgen [skipThrows, hloop]
  grind -linarith

@[spec] theorem takeUnexpected_spec (s : ParseState) :
    ⦃fun st => ⌜st = s⌝⦄ takeUnexpected ⦃⇓ _ st => ⌜s.stream.Reaches st.stream⌝⦄ := by
  refine triple_intro fun Q hQ => ?_
  mvcgen [takeUnexpected] <;> grind -linarith

theorem importRule_forward (p : Parse (Option Statement)) : Forward (importRule.parse p) := by
  have hloop := fun keyword => loop_reaches (importRound_spec keyword)
  refine .of_spec fun s => triple_intro fun Q hQ => ?_
  mvcgen [importRule, hloop] <;> grind -linarith

theorem annotationRule_forward {p : Parse (Option Statement)} (hp : Forward p) :
    Forward (annotationRule.parse p) := by
  have hp' := hp.spec
  refine .of_spec fun s => triple_intro fun Q hQ => ?_
  mvcgen [annotationRule, hp'] <;> grind -linarith

theorem accessRule_forward {p : Parse (Option Statement)} (hp : Forward p) :
    Forward (accessRule.parse p) := by
  have hp' := hp.spec
  refine .of_spec fun s => triple_intro fun Q hQ => ?_
  mvcgen [accessRule, hp']
  grind -linarith

theorem wildcard_forward {p : Parse TypeExpr} (hp : Forward p) : Forward (wildcard.parse p) := by
  have hp' := hp.spec
  refine .of_spec fun s => triple_intro fun Q hQ => ?_
  mvcgen [wildcard, hp'] <;> grind -linarith

instance : grammar.IsForward where
  rules := by
    simp only [grammar, List.mem_cons, List.not_mem_nil, or_false]
    rintro r (rfl | rfl | rfl) p hp
    · exact importRule_forward p
    · exact annotationRule_forward hp
    · exact accessRule_forward hp
  primaries := by
    simp only [grammar, List.mem_singleton]
    rintro f rfl p hp
    exact wildcard_forward hp
  suffixes := by simp [grammar]
  unexpected := by
    rintro take ⟨⟩
    exact .of_spec takeUnexpected_spec

end Java

namespace TypeScript

open Parse

@[spec] theorem takeUnexpected_spec (s : ParseState) :
    ⦃fun st => ⌜st = s⌝⦄ takeUnexpected ⦃⇓ _ st => ⌜s.stream.Reaches st.stream⌝⦄ := by
  refine triple_intro fun Q hQ => ?_
  mvcgen [takeUnexpected] <;> grind -linarith

theorem exportRule_forward {p : Parse (Option Statement)} (hp : Forward p) :
    Forward (exportRule.parse p) := by
  have hp' := hp.spec
  refine .of_spec fun s => triple_intro fun Q hQ => ?_
  mvcgen [exportRule, hp']
  grind -linarith

theorem typeOperator_forward {p : Parse TypeExpr} (hp : Forward p) :
    Forward (typeOperator.parse p) := by
  have hp' := hp.spec
  refine .of_spec fun s => triple_intro fun Q hQ => ?_
  mvcgen [typeOperator, hp'] <;> grind -linarith

theorem nullable_forward (p : Parse TypeExpr) (base : TypeExpr) : Forward (nullable.apply p base) := by
  refine .of_spec fun s => triple_intro fun Q hQ => ?_
  mvcgen [nullable]
  grind -linarith

instance : grammar.IsForward where
  rules := by
    simp only [grammar, List.mem_singleton]
    rintro r rfl p hp
    exact exportRule_forward hp
  primaries := by
    simp only [grammar, List.mem_singleton]
    rintro f rfl p hp
    exact typeOperator_forward hp
  suffixes := by
    simp only [grammar, List.mem_singleton]
    rintro f rfl p base -
    exact nullable_forward p base
  unexpected := by
    rintro take ⟨⟩
    exact .of_spec takeUnexpected_spec

end TypeScript
end Uml
