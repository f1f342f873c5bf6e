import Mathlib
import Uml.Parser.TypeExpr
import Uml.Proofs.Parser.Basic

/-!
# Types go on

No parser for names, multiplicities and types goes back, and every round of their loops that asks
for another one has taken something.
-/
namespace Uml

open Std.Do

set_option mvcgen.warning false

class Grammar.IsForward (g : Grammar) : Prop where
  rules : ∀ r ∈ g.rules, ∀ p, Parse.Forward p → Parse.Forward (r.parse p)
  primaries : ∀ f ∈ g.primaries, ∀ p, Parse.Forward p → Parse.Forward (f.parse p)
  suffixes : ∀ f ∈ g.suffixes, ∀ p base, Parse.Forward p → Parse.Forward (f.apply p base)
  unexpected : ∀ take, g.unexpected = some take → Parse.Forward take

namespace Parse

variable {g : Grammar} [g.IsForward]

theorem offerWithin_spec {take : Parse Bool} (htake : Forward take) (want : Kind) (n : Nat)
    (taken : Bool) (s : ParseState) :
    ⦃fun st => ⌜st = s⌝⦄ offerWithin take want n taken
    ⦃⇓ _ st => ⌜s.stream.Reaches st.stream⌝⦄ := by
  have htake' := htake.spec
  induction n generalizing taken s with
  | zero =>
    mvcgen [offerWithin]
    grind -linarith
  | succ n ih =>
    refine triple_intro fun Q hQ => ?_
    mvcgen [offerWithin, htake', ih] <;> grind -linarith

@[spec] theorem offer_spec (want : Kind) (s : ParseState) :
    ⦃fun st => ⌜st = s⌝⦄ offer g want ⦃⇓ _ st => ⌜s.stream.Reaches st.stream⌝⦄ := by
  unfold offer
  split
  · mvcgen
    grind -linarith
  · rename_i take htake
    exact offerWithin_spec (Grammar.IsForward.unexpected take htake) want maxOffers false s

@[spec] theorem expect_spec (k : Kind) (code : Code) (message : Bytes) (s : ParseState) :
    ⦃fun st => ⌜st = s⌝⦄ expect g k code message ⦃⇓ _ st => ⌜s.stream.Reaches st.stream⌝⦄ := by
  refine triple_intro fun Q hQ => ?_
  mvcgen [expect] <;> grind -linarith

@[spec] theorem closeBrace_spec (opener : Token) (what : Bytes) (s : ParseState) :
    ⦃fun st => ⌜st = s⌝⦄ closeBrace opener what ⦃⇓ _ st => ⌜s.stream.Reaches st.stream⌝⦄ := by
  refine triple_intro fun Q hQ => ?_
  mvcgen [closeBrace] <;> grind -linarith

@[spec] theorem pathRound_spec (v : Bytes × Span) (s : ParseState) :
    ⦃fun st => ⌜st = s⌝⦄ pathRound v ⦃⇓ r st => ⌜Goes s.stream r st.stream⌝⦄ := by
  refine triple_intro fun Q hQ => ?_
  mvcgen [pathRound] <;> grind -linarith [Stream.isAt]

@[spec] theorem path?_spec (s : ParseState) :
    ⦃fun st => ⌜st = s⌝⦄ path?
    ⦃⇓ found st => ⌜s.stream.Reaches st.stream ∧ (found.isSome → s.stream.Takes st.stream)⌝⦄ := by
  have hloop := loop_reaches pathRound_spec
  refine triple_intro fun Q hQ => ?_
  mvcgen [path?, hloop] <;> grind -linarith

@[spec] theorem bracketRound_spec (opener : Token) (m : RawMult) (s : ParseState) :
    ⦃fun st => ⌜st = s⌝⦄ bracketRound opener m ⦃⇓ r st => ⌜Goes s.stream r st.stream⌝⦄ := by
  refine triple_intro fun Q hQ => ?_
  mvcgen [bracketRound, unclosedMult, innerText] <;> grind -linarith

@[spec] theorem bracketed_spec (s : ParseState) :
    ⦃fun st => ⌜st = s⌝⦄ bracketed
    ⦃⇓ _ st => ⌜s.stream.Reaches st.stream
      ∧ (s.stream.peek.kind ≠ .eof → s.stream.Passes st.stream)⌝⦄ := by
  have hloop := fun opener => loop_reaches (bracketRound_spec opener)
  refine triple_intro fun Q hQ => ?_
  mvcgen [bracketed, hloop]
  grind -linarith

@[spec] theorem mult_spec (s : ParseState) :
    ⦃fun st => ⌜st = s⌝⦄ mult
    ⦃⇓ _ st => ⌜s.stream.Reaches st.stream
      ∧ (s.stream.peek.kind = .string ∨ s.stream.peek.kind = .lbracket → s.stream.Passes st.stream)
      ∧ (s.stream.peek.kind ≠ .string → s.stream.peek.kind ≠ .lbracket → st.stream = s.stream)⌝⦄ := by
  refine triple_intro fun Q hQ => ?_
  mvcgen [mult] <;> grind -linarith

@[spec] theorem endpoint?_spec (s : ParseState) :
    ⦃fun st => ⌜st = s⌝⦄ endpoint?
    ⦃⇓ found st => ⌜s.stream.Reaches st.stream ∧ (found.isSome → s.stream.Takes st.stream)⌝⦄ := by
  refine triple_intro fun Q hQ => ?_
  mvcgen [endpoint?] <;> grind -linarith

/-! ## Types -/

@[spec] theorem unknownType_spec (s : ParseState) :
    ⦃fun st => ⌜st = s⌝⦄ unknownType ⦃⇓ _ st => ⌜s.stream.Reaches st.stream⌝⦄ := by
  refine triple_intro fun Q hQ => ?_
  mvcgen [unknownType]
  grind -linarith

theorem requiredWith_spec {type : Parse TypeExpr} (htype : Forward type) (what : Bytes) (s : ParseState) :
    ⦃fun st => ⌜st = s⌝⦄ requiredWith type what ⦃⇓ _ st => ⌜s.stream.Reaches st.stream⌝⦄ := by
  have htype' := htype.spec
  refine triple_intro fun Q hQ => ?_
  mvcgen [requiredWith, htype'] <;> grind -linarith

theorem xorRound_spec {type : Parse TypeExpr} (htype : Forward type) (v : Array TypeExpr) (s : ParseState) :
    ⦃fun st => ⌜st = s⌝⦄ xorRound type v ⦃⇓ r st => ⌜Goes s.stream r st.stream⌝⦄ := by
  have htype' := htype.spec
  refine triple_intro fun Q hQ => ?_
  mvcgen [xorRound, htype'] <;> grind -linarith [Stream.isAtAny]

theorem xorType_spec {type : Parse TypeExpr} (htype : Forward type) (s : ParseState) :
    ⦃fun st => ⌜st = s⌝⦄ xorType type ⦃⇓ _ st => ⌜s.stream.Reaches st.stream⌝⦄ := by
  have hloop := loop_reaches (xorRound_spec htype)
  refine triple_intro fun Q hQ => ?_
  mvcgen [xorType, hloop]
  grind -linarith

theorem fieldRound_spec {type : Parse TypeExpr} (htype : Forward type) (v : Array (FieldName × TypeExpr)) (s : ParseState) :
    ⦃fun st => ⌜st = s⌝⦄ fieldRound g type v ⦃⇓ r st => ⌜Goes s.stream r st.stream⌝⦄ := by
  have hinner := requiredWith_spec htype
  refine triple_intro fun Q hQ => ?_
  mvcgen [fieldRound, hinner] <;> grind -linarith [Stream.isAtAny]

theorem objectType_spec {type : Parse TypeExpr} (htype : Forward type) (s : ParseState) :
    ⦃fun st => ⌜st = s⌝⦄ objectType g type ⦃⇓ _ st => ⌜s.stream.Reaches st.stream⌝⦄ := by
  have hloop := loop_reaches (fieldRound_spec (g := g) htype)
  refine triple_intro fun Q hQ => ?_
  mvcgen [objectType, hloop]
  grind -linarith

@[spec] theorem pathType_spec (s : ParseState) :
    ⦃fun st => ⌜st = s⌝⦄ pathType ⦃⇓ _ st => ⌜s.stream.Reaches st.stream⌝⦄ := by
  refine triple_intro fun Q hQ => ?_
  mvcgen [pathType] <;> grind -linarith

@[spec] theorem closeAngle_spec (opener : Token) (place : Bytes) (s : ParseState) :
    ⦃fun st => ⌜st = s⌝⦄ closeAngle opener place ⦃⇓ _ st => ⌜s.stream.Reaches st.stream⌝⦄ := by
  refine triple_intro fun Q hQ => ?_
  mvcgen [closeAngle] <;> grind -linarith

theorem argumentRound_spec {type : Parse TypeExpr} (htype : Forward type) (v : Array TypeExpr) (s : ParseState) :
    ⦃fun st => ⌜st = s⌝⦄ argumentRound type v ⦃⇓ r st => ⌜Goes s.stream r st.stream⌝⦄ := by
  have htype' := htype.spec
  refine triple_intro fun Q hQ => ?_
  mvcgen [argumentRound, htype'] <;> grind -linarith [Stream.isAtAny]

theorem typeArguments_spec {type : Parse TypeExpr} (htype : Forward type) (base : TypeExpr) (s : ParseState) :
    ⦃fun st => ⌜st = s⌝⦄ typeArguments type base ⦃⇓ _ st => ⌜s.stream.Reaches st.stream⌝⦄ := by
  have hloop := loop_reaches (argumentRound_spec htype)
  refine triple_intro fun Q hQ => ?_
  mvcgen [typeArguments, typeSpan, hloop]
  grind -linarith

@[spec] theorem valueRound_spec (opener : Token) (v : Array Bytes) (s : ParseState) :
    ⦃fun st => ⌜st = s⌝⦄ valueRound opener v ⦃⇓ r st => ⌜Goes s.stream r st.stream⌝⦄ := by
  refine triple_intro fun Q hQ => ?_
  mvcgen [valueRound] <;> grind -linarith

@[spec] theorem enumeratedValues_spec (base : TypeExpr) (s : ParseState) :
    ⦃fun st => ⌜st = s⌝⦄ enumeratedValues base ⦃⇓ _ st => ⌜s.stream.Reaches st.stream⌝⦄ := by
  have hloop := fun opener => loop_reaches (valueRound_spec opener)
  refine triple_intro fun Q hQ => ?_
  mvcgen [enumeratedValues, typeSpan, hloop]
  grind -linarith

@[spec] theorem emptyBrackets_spec (base : TypeExpr) (s : ParseState) :
    ⦃fun st => ⌜st = s⌝⦄ emptyBrackets base ⦃⇓ _ st => ⌜s.stream.Reaches st.stream⌝⦄ := by
  refine triple_intro fun Q hQ => ?_
  mvcgen [emptyBrackets, typeSpan]
  grind -linarith

theorem builtinPrimaries_forward (f : TypePrimary) (hf : f ∈ builtinPrimaries g) {p : Parse TypeExpr}
    (hp : Forward p) : Forward (f.parse p) := by
  simp only [builtinPrimaries, List.mem_cons, List.not_mem_nil, or_false] at hf
  rcases hf with rfl | rfl | rfl
  · exact .of_spec (xorType_spec hp)
  · exact .of_spec (objectType_spec hp)
  · exact .of_spec pathType_spec

theorem builtinSuffixes_forward (f : TypeSuffix) (hf : f ∈ builtinSuffixes) {p : Parse TypeExpr}
    (base : TypeExpr) (hp : Forward p) : Forward (f.apply p base) := by
  simp only [builtinSuffixes, List.mem_cons, List.not_mem_nil, or_false] at hf
  rcases hf with rfl | rfl | rfl
  · exact .of_spec (typeArguments_spec hp base)
  · exact .of_spec (enumeratedValues_spec base)
  · exact .of_spec (emptyBrackets_spec base)

theorem firstPrimary_spec {type : Parse TypeExpr} {forms : List TypePrimary}
    (h : ∀ f ∈ forms, Forward (f.parse type)) (s : ParseState) :
    ⦃fun st => ⌜st = s⌝⦄ firstPrimary type forms
    ⦃⇓ _ st => ⌜s.stream.Reaches st.stream⌝⦄ := by
  induction forms generalizing s with
  | nil =>
    mvcgen [firstPrimary]
    grind -linarith
  | cons form forms ih =>
    have hform := (h form (by simp)).spec
    have hrest := ih fun f hf => h f (by simp [hf])
    refine triple_intro fun Q hQ => ?_
    mvcgen [firstPrimary, hform, hrest] <;> grind -linarith

theorem firstSuffix_spec {type : Parse TypeExpr} {base : TypeExpr} {forms : List TypeSuffix}
    (h : ∀ f ∈ forms, Forward (f.apply type base)) (s : ParseState) :
    ⦃fun st => ⌜st = s⌝⦄ firstSuffix type base forms
    ⦃⇓ _ st => ⌜s.stream.Reaches st.stream⌝⦄ := by
  induction forms generalizing s with
  | nil =>
    mvcgen [firstSuffix]
    grind -linarith
  | cons form forms ih =>
    have hform := (h form (by simp)).spec
    have hrest := ih fun f hf => h f (by simp [hf])
    refine triple_intro fun Q hQ => ?_
    mvcgen [firstSuffix, hform, hrest] <;> grind -linarith

theorem suffixes_spec {type : Parse TypeExpr} {forms : List TypeSuffix}
    (h : ∀ f ∈ forms, ∀ base, Forward (f.apply type base)) (n : Nat) (base : TypeExpr)
    (s : ParseState) :
    ⦃fun st => ⌜st = s⌝⦄ suffixes type forms n base ⦃⇓ _ st => ⌜s.stream.Reaches st.stream⌝⦄ := by
  induction n generalizing base s with
  | zero =>
    mvcgen [suffixes]
    grind -linarith
  | succ n ih =>
    have hfirst := firstSuffix_spec fun f hf => h f hf base
    refine triple_intro fun Q hQ => ?_
    mvcgen [suffixes, hfirst, ih] <;> grind -linarith

theorem primaries_forward (f : TypePrimary) (hf : f ∈ g.primaries ++ builtinPrimaries g)
    {p : Parse TypeExpr} (hp : Forward p) : Forward (f.parse p) := by
  rcases List.mem_append.1 hf with hf | hf
  · exact Grammar.IsForward.primaries f hf _ hp
  · exact builtinPrimaries_forward f hf hp

theorem suffixes_forward (f : TypeSuffix) (hf : f ∈ builtinSuffixes ++ g.suffixes)
    (base : TypeExpr) {p : Parse TypeExpr} (hp : Forward p) : Forward (f.apply p base) := by
  rcases List.mem_append.1 hf with hf | hf
  · exact builtinSuffixes_forward f hf base hp
  · exact Grammar.IsForward.suffixes f hf _ base hp

theorem typeOver_spec {inner : Parse TypeExpr} (h : Forward inner) (s : ParseState) :
    ⦃fun st => ⌜st = s⌝⦄ typeOver g inner ⦃⇓ _ st => ⌜s.stream.Reaches st.stream⌝⦄ := by
  have hprimary := firstPrimary_spec fun f (hf : f ∈ g.primaries ++ builtinPrimaries g) =>
    primaries_forward f hf h
  have hsuffix := suffixes_spec fun f (hf : f ∈ builtinSuffixes ++ g.suffixes) base =>
    suffixes_forward f hf base h
  refine triple_intro fun Q hQ => ?_
  mvcgen [typeOver, hprimary, hsuffix] <;> grind -linarith

/-- However deep types nest, reading one does not go back. -/
theorem typeWithin_forward (depth : Nat) : Forward (typeWithin g depth) := by
  induction depth with
  | zero =>
    refine .of_spec fun s => triple_intro fun Q hQ => ?_
    mvcgen [typeWithin]
    grind -linarith
  | succ depth ih => exact .of_spec (typeOver_spec ih)

@[spec] theorem requiredType_spec (what : Bytes) (s : ParseState) :
    ⦃fun st => ⌜st = s⌝⦄ requiredType g what ⦃⇓ _ st => ⌜s.stream.Reaches st.stream⌝⦄ :=
  requiredWith_spec (typeWithin_forward maxTypeDepth) what s

end Parse
end Uml
