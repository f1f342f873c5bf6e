import Mathlib
import Uml.Proofs.Parser.Laws

/-!
# Where literals are read

A member that stands without a type is a literal in the body of an enumeration only.
-/
namespace Uml

open Std.Do

set_option mvcgen.warning false

def Member.NoLiterals (ms : List Member) : Prop := ∀ m ∈ ms, m.kind ≠ .literal

@[grind .] theorem Member.noLiterals_nil : NoLiterals [] := by simp [NoLiterals]

@[grind =] theorem Member.noLiterals_push {ms : List Member} {m : Member} :
    NoLiterals (ms ++ [m]) ↔ NoLiterals ms ∧ m.kind ≠ .literal := by
  simp [NoLiterals, or_imp, forall_and]

def Link.NoLiterals (ls : List Link) : Prop := ∀ l ∈ ls, Member.NoLiterals l.members

@[grind .] theorem Link.noLiterals_nil : NoLiterals [] := by simp [NoLiterals]

@[grind =] theorem Link.noLiterals_push {ls : List Link} {l : Link} :
    NoLiterals (ls ++ [l]) ↔ NoLiterals ls ∧ Member.NoLiterals l.members := by
  simp [NoLiterals, or_imp, forall_and]

def Decl.KeepsLiterals : Decl → Prop
  | .entity e => e.kind ≠ .enumeration → Member.NoLiterals e.members
  | .relationship _ links => Link.NoLiterals links
  | .association a => Member.NoLiterals a.members
  | _ => True

def Decl.literalLaw : Decl.Law where
  Holds _ d := d.KeepsLiterals
  later := fun _ h => h
  plain := by
    intro d hd r
    cases d with
    | entity | relationship | association => exact hd.elim
    | _ => trivial

@[grind =] theorem Decl.literalLaw_entity {r : Reports} {e : EntityDecl} :
    literalLaw.Holds r (.entity e) ↔ (e.kind ≠ .enumeration → Member.NoLiterals e.members) := .rfl

@[grind =] theorem Decl.literalLaw_relationship {r : Reports} {head : Endpoint} {links : List Link} :
    literalLaw.Holds r (.relationship head links) ↔ Link.NoLiterals links := .rfl

@[grind =] theorem Decl.literalLaw_association {r : Reports} {a : AssociationDecl} :
    literalLaw.Holds r (.association a) ↔ Member.NoLiterals a.members := .rfl

/-- Without a body an entity has no literals. -/
@[grind .] theorem Decl.literalLaw_bare {r : Reports} {e : EntityDecl} (h : e.members = []) :
    literalLaw.Holds r (.entity e) := by
  rw [literalLaw_entity, h]
  exact fun _ => Member.noLiterals_nil

@[grind .] theorem Decl.literalLaw_bareAssociation {r : Reports} {a : AssociationDecl} (h : a.members = []) :
    literalLaw.Holds r (.association a) := by
  rw [literalLaw_association, h]
  exact Member.noLiterals_nil

namespace Parse

open ParseState

variable {g : Grammar} [g.IsForward]

/-! ## Members -/

theorem memberSuffix_kind (m : Member) (s : ParseState) :
    ⦃fun st => ⌜st = s⌝⦄ memberSuffix g m ⦃⇓ m' _ => ⌜m'.kind = m.kind⌝⦄ := by
  unfold memberSuffix
  refine triple_intro fun Q hQ => ?_
  mvcgen <;> grind -linarith

theorem member_kind (s : ParseState) :
    ⦃fun st => ⌜st = s⌝⦄ member g
    ⦃⇓ found _ => ⌜∀ m, found = .ok m → m.kind ≠ .literal⌝⦄ := by
  have hsuffix := memberSuffix_kind (g := g)
  unfold member
  refine triple_intro fun Q hQ => ?_
  mvcgen [hsuffix, -memberSuffix_spec] <;> grind -linarith

theorem memberRound_kind (v : Array Member × PendingDoc) (s : ParseState) :
    ⦃fun st => ⌜st = s⌝⦄ memberRound g false v
    ⦃⇓ r _ => ⌜Member.NoLiterals v.1.toList → Member.NoLiterals r.value.1.toList⌝⦄ := by
  have hmember := member_kind (g := g)
  unfold memberRound
  refine triple_intro fun Q hQ => ?_
  mvcgen [hmember, -member_spec] <;> grind -linarith [Array.toList_push]

theorem memberList_kind (s : ParseState) :
    ⦃fun st => ⌜st = s⌝⦄ memberList g false ⦃⇓ ms _ => ⌜Member.NoLiterals ms⌝⦄ := by
  have hloop : ⦃fun st => ⌜st = s⌝⦄ loop (#[], {}) (memberRound g false)
      ⦃⇓ v _ => ⌜Member.NoLiterals v.1.toList⌝⦄ := by
    refine loop_keeps (fun (v : Array Member × PendingDoc) _ => Member.NoLiterals v.1.toList)
      (fun v st hI => ?_) Member.noLiterals_nil
    exact triple_iff_run.2 (triple_iff_run.1 (memberRound_kind (g := g) v st) hI)
  unfold memberList
  mvcgen [hloop]

theorem entityBody_kind {kind : EntityKind} (hkind : kind ≠ .enumeration) (name : Bytes) (s : ParseState) :
    ⦃fun st => ⌜st = s⌝⦄ entityBody g kind name ⦃⇓ ms _ => ⌜Member.NoLiterals ms⌝⦄ := by
  have hlist := memberList_kind (g := g)
  unfold entityBody
  rw [decide_eq_false hkind]
  refine triple_intro fun Q hQ => ?_
  mvcgen [hlist, -memberList_spec]
  grind -linarith

variable [g.IsBlind]

@[local spec high] theorem entityBody_literals (kind : EntityKind) (name : Bytes) (s : ParseState) :
    ⦃fun st => ⌜st = s⌝⦄ entityBody g kind name
    ⦃⇓ ms st => ⌜s.Onward st ∧ (kind ≠ .enumeration → Member.NoLiterals ms)⌝⦄ :=
  triple_iff_run.2 ⟨triple_iff_run.1 (onward_spec _ (.of_and (entityBody_spec kind name)) s),
    fun hkind => triple_iff_run.1 (entityBody_kind hkind name s)⟩

/-! ## Forms with members -/

@[local spec high] theorem headers_onward (s : ParseState) :
    ⦃fun st => ⌜st = s⌝⦄ headers ⦃⇓ _ st => ⌜s.Onward st⌝⦄ :=
  onward_spec headers (.of_spec headers_spec) s

attribute [local spec high] advance_onward eat?_onward mult_onward linkLabel_onward
  endpoint?_onward typeParams_onward entityModifiers_onward newDecl_obeys report_onward expect_onward

theorem entity_literals : FormObeys Decl.literalLaw (entity g) := by
  refine .of_spec fun s => ?_
  unfold entity
  refine triple_intro fun Q hQ => ?_
  mvcgen <;> grind -linarith

theorem chainLink_literals (fromMult : RawMult) (s : ParseState) :
    ⦃fun st => ⌜st = s⌝⦄ chainLink g fromMult
    ⦃⇓ found st => ⌜s.Onward st ∧ ∀ l m, found = .ok (l, m) → Member.NoLiterals l.members⌝⦄ := by
  unfold chainLink
  refine triple_intro fun Q hQ => ?_
  mvcgen <;> grind -linarith

theorem chainRound_literals (v : Except Failure (List Link × RawMult)) (s : ParseState) :
    ⦃fun st => ⌜st = s⌝⦄ chainRound g v
    ⦃⇓ r st => ⌜s.Onward st
      ∧ (Link.NoLiterals (given Prod.fst v) → Link.NoLiterals (given Prod.fst r.value))⌝⦄ := by
  have hlink := chainLink_literals (g := g)
  unfold chainRound
  refine triple_intro fun Q hQ => ?_
  mvcgen [hlink, -chainLink_spec] <;> grind -linarith

@[local spec high] theorem chain_literals (fromMult : RawMult) (s : ParseState) :
    ⦃fun st => ⌜st = s⌝⦄ chain g fromMult
    ⦃⇓ found st => ⌜s.Onward st ∧ Link.NoLiterals (given id found)⌝⦄ := by
  have hloop : ⦃fun st => ⌜st = s⌝⦄ loop (.ok ([], fromMult)) (chainRound g)
      ⦃⇓ v st => ⌜s.Onward st ∧ Link.NoLiterals (given Prod.fst v)⌝⦄ := by
    refine loop_keeps (fun v st => s.Onward st ∧ Link.NoLiterals (given Prod.fst v)) (fun v st hI => ?_)
      ⟨.refl _, Link.noLiterals_nil⟩
    obtain ⟨honward, hlinks⟩ := triple_iff_run.1 (chainRound_literals (g := g) v st)
    exact triple_iff_run.2 ⟨hI.1.trans honward, hlinks hI.2⟩
  unfold chain
  refine triple_intro fun Q hQ => ?_
  mvcgen [hloop]
  rename_i found _ _
  cases found <;> grind -linarith [Except.map]

theorem relationship_literals : FormObeys Decl.literalLaw (relationship g) := by
  refine .of_spec fun s => ?_
  unfold relationship
  refine triple_intro fun Q hQ => ?_
  mvcgen <;> grind -linarith [id]

theorem association_literals : FormObeys Decl.literalLaw (association g) := by
  refine .of_spec fun s => ?_
  unfold association
  refine triple_intro fun Q hQ => ?_
  mvcgen <;> grind -linarith

theorem lawful_literals : Lawful Decl.literalLaw g :=
  ⟨entity_literals, relationship_literals, association_literals⟩

end Parse
end Uml
