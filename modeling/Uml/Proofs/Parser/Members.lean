import Mathlib
import Uml.Parser.Member
import Uml.Proofs.Parser.Types

/-!
# Members go on

A body is read forwards, too, although a list of members may go back to a comment that it has
passed: never behind its own start.
-/
namespace Uml

open Std.Do

set_option mvcgen.warning false

namespace Parse

variable {g : Grammar} [g.IsForward]

attribute [spec] atEnumLiteral atDeclarationStart

@[spec] theorem memberEnded_spec (s : ParseState) :
    ⦃fun st => ⌜st = s⌝⦄ memberEnded ⦃⇓ _ st => ⌜st = s⌝⦄ := by
  mvcgen [memberEnded]

@[spec] theorem initializerRound_spec (v : Nat) (s : ParseState) :
    ⦃fun st => ⌜st = s⌝⦄ initializerRound v ⦃⇓ r st => ⌜Goes s.stream r st.stream⌝⦄ := by
  refine triple_intro fun Q hQ => ?_
  mvcgen [initializerRound] <;> grind -linarith [Stream.isAt]

@[spec] theorem skipInitializer_spec (s : ParseState) :
    ⦃fun st => ⌜st = s⌝⦄ skipInitializer ⦃⇓ _ st => ⌜s.stream.Reaches st.stream⌝⦄ := by
  have hloop := loop_reaches initializerRound_spec
  refine triple_intro fun Q hQ => ?_
  mvcgen [skipInitializer, hloop]
  grind -linarith

@[spec] theorem memberModifierRound_spec (v : Modifiers) (s : ParseState) :
    ⦃fun st => ⌜st = s⌝⦄ memberModifierRound v ⦃⇓ r st => ⌜Goes s.stream r st.stream⌝⦄ := by
  refine triple_intro fun Q hQ => ?_
  mvcgen [memberModifierRound] <;> grind -linarith

@[spec] theorem memberModifiers_spec (s : ParseState) :
    ⦃fun st => ⌜st = s⌝⦄ memberModifiers ⦃⇓ _ st => ⌜s.stream.Reaches st.stream⌝⦄ := by
  have hloop := loop_reaches memberModifierRound_spec
  refine triple_intro fun Q hQ => ?_
  mvcgen [memberModifiers, hloop]
  grind -linarith

@[spec] theorem param_spec (s : ParseState) :
    ⦃fun st => ⌜st = s⌝⦄ param g
    ⦃⇓ _ st => ⌜s.stream.Reaches st.stream ∧ (s.stream.peek.kind ≠ .eof → s.stream.Passes st.stream)⌝⦄ := by
  refine triple_intro fun Q hQ => ?_
  mvcgen [param] <;> grind -linarith

@[spec] theorem paramRound_spec (opener : Token) (v : Array Param) (s : ParseState) :
    ⦃fun st => ⌜st = s⌝⦄ paramRound g opener v ⦃⇓ r st => ⌜Goes s.stream r st.stream⌝⦄ := by
  refine triple_intro fun Q hQ => ?_
  mvcgen [paramRound] <;> grind -linarith

@[spec] theorem params_spec (s : ParseState) :
    ⦃fun st => ⌜st = s⌝⦄ params g ⦃⇓ _ st => ⌜s.stream.Reaches st.stream⌝⦄ := by
  have hloop := fun opener => loop_reaches (paramRound_spec (g := g) opener)
  refine triple_intro fun Q hQ => ?_
  mvcgen [params, hloop]
  grind -linarith

@[spec] theorem constraintArg_spec (c : InlineConstraint) (s : ParseState) :
    ⦃fun st => ⌜st = s⌝⦄ constraintArg c ⦃⇓ _ st => ⌜s.stream.Reaches st.stream⌝⦄ := by
  refine triple_intro fun Q hQ => ?_
  mvcgen [constraintArg] <;> grind -linarith

@[spec] theorem inlineConstraintRound_spec (v : Array InlineConstraint) (s : ParseState) :
    ⦃fun st => ⌜st = s⌝⦄ inlineConstraintRound v ⦃⇓ r st => ⌜Goes s.stream r st.stream⌝⦄ := by
  refine triple_intro fun Q hQ => ?_
  mvcgen [inlineConstraintRound] <;> grind -linarith [Stream.isAtAny]

@[spec] theorem inlineConstraints_spec (s : ParseState) :
    ⦃fun st => ⌜st = s⌝⦄ inlineConstraints ⦃⇓ _ st => ⌜s.stream.Reaches st.stream⌝⦄ := by
  have hloop := loop_reaches inlineConstraintRound_spec
  refine triple_intro fun Q hQ => ?_
  mvcgen [inlineConstraints, hloop]
  grind -linarith

@[spec] theorem operator?_spec (s : ParseState) :
    ⦃fun st => ⌜st = s⌝⦄ operator? ⦃⇓ _ st => ⌜s.stream.Reaches st.stream⌝⦄ := by
  refine triple_intro fun Q hQ => ?_
  mvcgen [operator?] <;> grind -linarith

@[spec] theorem memberSuffix_spec (m : Member) (s : ParseState) :
    ⦃fun st => ⌜st = s⌝⦄ memberSuffix g m ⦃⇓ _ st => ⌜s.stream.Reaches st.stream⌝⦄ := by
  refine triple_intro fun Q hQ => ?_
  mvcgen [memberSuffix] <;> grind -linarith

@[spec] theorem member_spec (s : ParseState) :
    ⦃fun st => ⌜st = s⌝⦄ member g
    ⦃⇓ r st => ⌜s.stream.Reaches st.stream ∧ s.stream.Lays st.stream (given ([·]) r)⌝⦄ := by
  refine triple_intro fun Q hQ => ?_
  mvcgen [member] <;> grind -linarith [Stream.Takes.lays_cover, Stream.Lays.member]

@[spec] theorem enumLiteral_spec (s : ParseState) :
    ⦃fun st => ⌜st = s⌝⦄ enumLiteral
    ⦃⇓ m st => ⌜s.stream.Reaches st.stream
      ∧ (s.stream.peek.kind ≠ .eof → s.stream.Lays st.stream [m])⌝⦄ := by
  refine triple_intro fun Q hQ => ?_
  mvcgen [enumLiteral]
  grind -linarith [Stream.lays_next, Stream.Lays.member]

@[spec] theorem syncMemberRound_spec (v : Nat) (s : ParseState) :
    ⦃fun st => ⌜st = s⌝⦄ syncMemberRound v ⦃⇓ r st => ⌜Goes s.stream r st.stream⌝⦄ := by
  refine triple_intro fun Q hQ => ?_
  mvcgen [syncMemberRound] <;> grind -linarith

@[spec] theorem syncMember_spec (start : Stream) (s : ParseState) :
    ⦃fun st => ⌜st = s⌝⦄ syncMember start
    ⦃⇓ _ st => ⌜s.stream.Reaches st.stream ∧ (start.Reaches s.stream →
      start.peek.kind ≠ .rbrace → start.peek.kind ≠ .eof → start.Passes st.stream)⌝⦄ := by
  have hloop := loop_reaches syncMemberRound_spec
  refine triple_intro fun Q hQ => ?_
  mvcgen [syncMember, hloop] <;> grind -linarith [Stream.isAtAny, Stream.Reaches.peek_eq]

@[spec] theorem finishMember_spec (start : Stream) (s : ParseState) :
    ⦃fun st => ⌜st = s⌝⦄ finishMember g start ⦃⇓ _ st => ⌜s.stream.Reaches st.stream⌝⦄ := by
  refine triple_intro fun Q hQ => ?_
  mvcgen [finishMember] <;> grind -linarith

/-- A round of a list of members goes on, and adds at most one member, which lies behind the start of
the round. A comment that waits is given up as soon as a member is read. -/
structure MemberStep (s : Stream) (v v' : Array Member × PendingDoc) (s' : Stream) : Prop where
  passes : s.Passes s'
  found : v'.1 = v.1 ∨ v'.2.text = [] ∧ ∃ m, v'.1 = v.1.push m ∧ s.Lays s' [m]
  mark : v'.2.mark = v.2.mark ∧ (v'.2.text = v.2.text ∨ v'.2.text = [])
    ∨ v'.1 = v.1 ∧ v'.2.mark = some s

theorem MemberStep.push {s m s' : Stream} {x : Member} {found : Array Member} {doc : PendingDoc}
    (hlays : s.Lays m [x]) (hs : s.Reaches m) (hm : m.Reaches s') (hpasses : s.Passes s') :
    MemberStep s (found, doc) (found.push { x with doc := doc.text }, { doc with text := [] }) s' where
  passes := hpasses
  found := .inr ⟨rfl, { x with doc := doc.text }, rfl, .member (hlays.mono (.refl s) hs hm).span⟩
  mark := .inl ⟨rfl, .inr rfl⟩

/-- A list of members may end at the comment that waits for its member. -/
@[spec] theorem memberRound_spec (isEnum : Bool) (v : Array Member × PendingDoc) (s : ParseState) :
    ⦃fun st => ⌜st = s⌝⦄ memberRound g isEnum v
    ⦃⇓ r st => ⌜match r with
      | .again v' => MemberStep s.stream v v' st.stream
      | .stop v' => v'.1 = v.1 ∧ (s.stream.Reaches st.stream
          ∨ v.2.text ≠ [] ∧ v.2.mark = some st.stream)⌝⦄ := by
  refine triple_intro fun Q hQ => ?_
  mvcgen [memberRound] <;> grind -linarith [Stream.peek_eq_peekRaw, MemberStep, MemberStep.push]

/-- The list of members that began at `start` may go back to the comment that waits, which lies
behind `start` and behind all members. -/
structure HoldsFrom (start : Stream) (v : Array Member × PendingDoc) (st : ParseState) : Prop where
  reaches : start.Reaches st.stream
  lays : start.Lays st.stream v.1.toList
  mark : ∀ mark, v.2.mark = some mark →
    start.Reaches mark ∧ (v.2.text ≠ [] → start.Lays mark v.1.toList)

theorem HoldsFrom.step {start : Stream} {v v' : Array Member × PendingDoc} {st st' : ParseState}
    (hI : HoldsFrom start v st) (h : MemberStep st.stream v v' st'.stream) :
    HoldsFrom start v' st' := by
  have hreach := h.passes.reaches
  refine ⟨hI.reaches.trans hreach, ?_, ?_⟩
  · rcases h.found with hfound | ⟨-, m, hfound, hm⟩
    · rw [hfound]
      exact hI.lays.mono (.refl _) hI.reaches hreach
    · rw [hfound, Array.toList_push]
      exact hI.lays.append hm hI.reaches hreach
  · intro mark hmark
    rcases h.mark with ⟨hsame, htext⟩ | ⟨hfound, hhere⟩
    · obtain ⟨hstart, hlays⟩ := hI.mark mark (hsame ▸ hmark)
      refine ⟨hstart, fun hne => ?_⟩
      rcases h.found with hfound | ⟨hempty, -⟩
      · rw [hfound]
        exact hlays (htext.resolve_right hne ▸ hne)
      · contradiction
    · obtain rfl : st.stream = mark := Option.some.inj (hhere.symm.trans hmark)
      rw [hfound]
      exact ⟨hI.reaches, fun _ => hI.lays⟩

@[spec] theorem memberList_spec (isEnum : Bool) (s : ParseState) :
    ⦃fun st => ⌜st = s⌝⦄ memberList g isEnum
    ⦃⇓ members st => ⌜s.stream.Reaches st.stream ∧ s.stream.Lays st.stream members⌝⦄ := by
  have hround : ∀ v st, HoldsFrom s.stream v st → ⦃fun st' => ⌜st' = st⌝⦄ memberRound g isEnum v
      ⦃⇓ r st' => ⌜Leaves (HoldsFrom s.stream)
        (fun v st' => s.stream.Reaches st'.stream ∧ s.stream.Lays st'.stream v.1.toList) r st'⌝⦄ := by
    intro v st hI
    refine triple_intro fun Q hQ => ?_
    mvcgen
    grind -linarith [HoldsFrom, HoldsFrom.step, Leaves, Stream.Lays.mono]
  have hloop := loop_spec (HoldsFrom s.stream) _
    (fun _ _ hI => ⟨hI.reaches, hI.lays⟩) hround (v := (#[], {})) ⟨.refl _, .nil, by simp⟩
  mvcgen [memberList, hloop]

@[spec] theorem entityBody_spec (kind : EntityKind) (owner : Bytes) (s : ParseState) :
    ⦃fun st => ⌜st = s⌝⦄ entityBody g kind owner
    ⦃⇓ members st => ⌜s.stream.Reaches st.stream ∧ s.stream.Lays st.stream members⌝⦄ := by
  refine triple_intro fun Q hQ => ?_
  mvcgen [entityBody]
  grind -linarith [Stream.Lays.mono]

end Parse
end Uml
