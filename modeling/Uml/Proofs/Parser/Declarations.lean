import Mathlib
import Uml.Parser.Declaration
import Uml.Parser.Statement
import Uml.Proofs.Parser.Members

/-! Statement forms go on. -/
namespace Uml

open Std.Do

set_option mvcgen.warning false

namespace Parse

variable {g : Grammar} [g.IsForward]

/-- What a multiplicity before an operator begins with. -/
theorem kind_of_multThenOperator {s : Stream} (h : s.multThenOperator = true) :
    s.peek.kind = .string ∨ s.peek.kind = .lbracket := by
  by_contra hno
  rw [not_or] at hno
  have hscan : s.scanMult 0 = 0 := by
    unfold Stream.scanMult
    split <;> simp_all [Stream.kindAt, Stream.peek]
  simp [Stream.multThenOperator, hscan] at h

@[spec] theorem configValue?_spec (s : ParseState) :
    ⦃fun st => ⌜st = s⌝⦄ configValue? ⦃⇓ _ st => ⌜s.stream.Reaches st.stream⌝⦄ := by
  refine triple_intro fun Q hQ => ?_
  mvcgen [configValue?] <;> grind -linarith

@[spec] theorem configEntry?_spec (s : ParseState) :
    ⦃fun st => ⌜st = s⌝⦄ configEntry?
    ⦃⇓ found st => ⌜s.stream.Reaches st.stream ∧ (found.isSome → s.stream.Passes st.stream)
      ∧ (st.stream ≠ s.stream → s.stream.Passes st.stream)⌝⦄ := by
  refine triple_intro fun Q hQ => ?_
  mvcgen [ configEntry?] <;> grind -linarith

@[spec] theorem syncEntryRound_spec (v : Unit) (s : ParseState) :
    ⦃fun st => ⌜st = s⌝⦄ syncEntryRound v
    ⦃⇓ r st => ⌜Goes s.stream r st.stream
      ∧ (s.stream.isAtAny [.comma, .semicolon, .rbrace, .eof] = false → r = .again ())⌝⦄ := by
  refine triple_intro fun Q hQ => ?_
  mvcgen [syncEntryRound] <;> grind -linarith [Stream.isAtAny]

theorem syncEntryRound_goes (v : Unit) (s : ParseState) :
    ⦃fun st => ⌜st = s⌝⦄ syncEntryRound v ⦃⇓ r st => ⌜Goes s.stream r st.stream⌝⦄ :=
  triple_iff_run.2 (triple_iff_run.1 (syncEntryRound_spec v s)).1

@[spec] theorem syncEntry_spec (s : ParseState) :
    ⦃fun st => ⌜st = s⌝⦄ syncEntry
    ⦃⇓ _ st => ⌜s.stream.Reaches st.stream
      ∧ (s.stream.isAtAny [.comma, .semicolon, .rbrace, .eof] = false →
        s.stream.Passes st.stream)⌝⦄ := by
  refine triple_iff_run.2 ⟨triple_iff_run.1 (loop_reaches syncEntryRound_goes () s), fun hat => ?_⟩
  have hfirst := (triple_iff_run.1 (syncEntryRound_spec () s)).2 hat
  exact triple_iff_run.1 (loop_passes syncEntryRound_goes ⟨(), hfirst⟩)

@[spec] theorem configRound_spec (v : Array ConfigEntry) (s : ParseState) :
    ⦃fun st => ⌜st = s⌝⦄ configRound v ⦃⇓ r st => ⌜Goes s.stream r st.stream⌝⦄ := by
  refine triple_intro fun Q hQ => ?_
  mvcgen [configRound] <;> grind -linarith [Stream.isAtAny]

@[spec] theorem config_spec (s : ParseState) :
    ⦃fun st => ⌜st = s⌝⦄ config
    ⦃⇓ r st => ⌜s.stream.Reaches st.stream
      ∧ (s.stream.peek.kind ≠ .eof → s.stream.Lays st.stream (given Option.toList r))⌝⦄ := by
  have hloop := loop_reaches configRound_spec
  refine triple_intro fun Q hQ => ?_
  mvcgen [config, newDecl, hloop]
  grind -linarith [Stream.Takes.lays_decl, Decl.IsNested]

@[spec] theorem atConfig_spec (s : ParseState) :
    ⦃fun st => ⌜st = s⌝⦄ atConfig
    ⦃⇓ r st => ⌜s.stream.Reaches st.stream
      ∧ (s.stream.peek.kind ≠ .eof → s.stream.Lays st.stream (given Option.toList r))⌝⦄ := by
  refine triple_intro fun Q hQ => ?_
  mvcgen [atConfig, newDecl] <;> grind -linarith [Stream.Takes.lays_decl, Decl.IsNested]

@[spec] theorem targetRound_spec (closer : Kind) (v : Except Failure (List ConstraintRef))
    (s : ParseState) :
    ⦃fun st => ⌜st = s⌝⦄ targetRound closer v ⦃⇓ r st => ⌜Goes s.stream r st.stream⌝⦄ := by
  refine triple_intro fun Q hQ => ?_
  mvcgen [targetRound] <;> grind -linarith

@[spec] theorem constraintTargets_spec (closer : Kind) (s : ParseState) :
    ⦃fun st => ⌜st = s⌝⦄ constraintTargets closer ⦃⇓ _ st => ⌜s.stream.Reaches st.stream⌝⦄ := by
  have hloop := loop_reaches (targetRound_spec closer)
  refine triple_intro fun Q hQ => ?_
  mvcgen [constraintTargets, hloop]
  grind -linarith

@[spec] theorem constraint_spec (s : ParseState) :
    ⦃fun st => ⌜st = s⌝⦄ constraint
    ⦃⇓ r st => ⌜s.stream.Reaches st.stream
      ∧ (s.stream.peek.kind ≠ .eof → s.stream.Lays st.stream (given Option.toList r))⌝⦄ := by
  refine triple_intro fun Q hQ => ?_
  mvcgen [constraint, newDecl] <;> grind -linarith [Stream.Takes.lays_decl, Decl.IsNested]

@[spec] theorem anchorRound_spec (v : Except Failure (List Anchor)) (s : ParseState) :
    ⦃fun st => ⌜st = s⌝⦄ anchorRound v ⦃⇓ r st => ⌜Goes s.stream r st.stream⌝⦄ := by
  refine triple_intro fun Q hQ => ?_
  mvcgen [anchorRound] <;> grind -linarith

@[spec] theorem noteAnchors_spec (s : ParseState) :
    ⦃fun st => ⌜st = s⌝⦄ noteAnchors ⦃⇓ _ st => ⌜s.stream.Reaches st.stream⌝⦄ := by
  have hloop := loop_reaches anchorRound_spec
  refine triple_intro fun Q hQ => ?_
  mvcgen [noteAnchors, hloop]
  grind -linarith

@[spec] theorem note_spec (s : ParseState) :
    ⦃fun st => ⌜st = s⌝⦄ note
    ⦃⇓ r st => ⌜s.stream.Reaches st.stream
      ∧ (s.stream.peek.kind ≠ .eof → s.stream.Lays st.stream (given Option.toList r))⌝⦄ := by
  refine triple_intro fun Q hQ => ?_
  mvcgen [note, newDecl] <;> grind -linarith [Stream.Takes.lays_decl, Decl.IsNested]

@[spec] theorem association_spec (s : ParseState) :
    ⦃fun st => ⌜st = s⌝⦄ association g
    ⦃⇓ r st => ⌜s.stream.Reaches st.stream
      ∧ (s.stream.peek.kind ≠ .eof → s.stream.Lays st.stream (given Option.toList r))⌝⦄ := by
  refine triple_intro fun Q hQ => ?_
  mvcgen [association, newDecl] <;> grind -linarith [Stream.Takes.lays_association, Stream.Takes.lays_association_bare]

@[spec] theorem typeParamRound_spec (v : Array TypeParam) (s : ParseState) :
    ⦃fun st => ⌜st = s⌝⦄ typeParamRound v ⦃⇓ r st => ⌜Goes s.stream r st.stream⌝⦄ := by
  refine triple_intro fun Q hQ => ?_
  mvcgen [typeParamRound] <;> grind -linarith

@[spec] theorem typeParams_spec (s : ParseState) :
    ⦃fun st => ⌜st = s⌝⦄ typeParams ⦃⇓ _ st => ⌜s.stream.Reaches st.stream⌝⦄ := by
  have hloop := loop_reaches typeParamRound_spec
  refine triple_intro fun Q hQ => ?_
  mvcgen [typeParams, hloop]
  grind -linarith

@[spec] theorem linkLabel_spec (s : ParseState) :
    ⦃fun st => ⌜st = s⌝⦄ linkLabel ⦃⇓ _ st => ⌜s.stream.Reaches st.stream⌝⦄ := by
  refine triple_intro fun Q hQ => ?_
  mvcgen [linkLabel] <;> grind -linarith

attribute [spec] atHeader missingTarget

@[spec] theorem header_spec (s : ParseState) :
    ⦃fun st => ⌜st = s⌝⦄ header
    ⦃⇓ _ st => ⌜s.stream.Reaches st.stream
      ∧ (s.stream.peek.isRelationship = true ∨ s.stream.multThenOperator = true →
        s.stream.Passes st.stream)⌝⦄ := by
  refine triple_intro fun Q hQ => ?_
  mvcgen [header] <;> grind -linarith [kind_of_multThenOperator, Token.isRelationship, Kind.isRelationship]

@[spec] theorem headerRound_spec (v : Except Failure (List Link)) (s : ParseState) :
    ⦃fun st => ⌜st = s⌝⦄ headerRound v ⦃⇓ r st => ⌜Goes s.stream r st.stream⌝⦄ := by
  refine triple_intro fun Q hQ => ?_
  mvcgen [headerRound] <;> grind -linarith

@[spec] theorem headers_spec (s : ParseState) :
    ⦃fun st => ⌜st = s⌝⦄ headers ⦃⇓ _ st => ⌜s.stream.Reaches st.stream⌝⦄ := by
  have hloop := loop_reaches headerRound_spec
  refine triple_intro fun Q hQ => ?_
  mvcgen [headers, hloop]
  grind -linarith

@[spec] theorem entityModifierRound_spec (v : Modifiers) (s : ParseState) :
    ⦃fun st => ⌜st = s⌝⦄ entityModifierRound v ⦃⇓ r st => ⌜Goes s.stream r st.stream⌝⦄ := by
  refine triple_intro fun Q hQ => ?_
  mvcgen [entityModifierRound] <;> grind -linarith

@[spec] theorem entityModifiers_spec (s : ParseState) :
    ⦃fun st => ⌜st = s⌝⦄ entityModifiers ⦃⇓ _ st => ⌜s.stream.Reaches st.stream⌝⦄ := by
  have hloop := loop_reaches entityModifierRound_spec
  refine triple_intro fun Q hQ => ?_
  mvcgen [entityModifiers, hloop]
  grind -linarith

@[spec] theorem entity_spec (s : ParseState) :
    ⦃fun st => ⌜st = s⌝⦄ entity g
    ⦃⇓ r st => ⌜s.stream.Reaches st.stream
      ∧ s.stream.Lays st.stream (given Option.toList r)⌝⦄ := by
  refine triple_intro fun Q hQ => ?_
  mvcgen [entity, newDecl] <;>
    grind -linarith [Stream.Takes.lays_entity, Stream.Takes.lays_entity_bare]

@[spec] theorem chainLink_spec (fromMult : RawMult) (s : ParseState) :
    ⦃fun st => ⌜st = s⌝⦄ chainLink g fromMult
    ⦃⇓ r st => ⌜s.stream.Reaches st.stream ∧ (s.stream.peek.kind ≠ .eof →
      s.stream.Takes st.stream ∧ s.stream.Lays st.stream (given ([·.1]) r))⌝⦄ := by
  refine triple_intro fun Q hQ => ?_
  mvcgen [chainLink] <;>
    grind -linarith [Stream.Takes.lays_link, Stream.Takes.lays_link_bare]

@[spec] theorem chainRound_spec (v : Except Failure (List Link × RawMult)) (s : ParseState) :
    ⦃fun st => ⌜st = s⌝⦄ chainRound g v
    ⦃⇓ r st => ⌜Goes s.stream r st.stream ∧ Adds (given Prod.fst) s.stream v r.value st.stream⌝⦄ := by
  refine triple_intro fun Q hQ => ?_
  mvcgen [chainRound] <;> grind -linarith [Adds, Adds.none, Adds.one]

theorem chainRound_goes (v : Except Failure (List Link × RawMult)) (s : ParseState) :
    ⦃fun st => ⌜st = s⌝⦄ chainRound g v ⦃⇓ r st => ⌜Goes s.stream r st.stream⌝⦄ :=
  triple_iff_run.2 (triple_iff_run.1 (chainRound_spec v s)).1

theorem chainRound_adds (v : Except Failure (List Link × RawMult)) (s : ParseState) :
    ⦃fun st => ⌜st = s⌝⦄ chainRound g v
    ⦃⇓ r st => ⌜Adds (given Prod.fst) s.stream v r.value st.stream⌝⦄ :=
  triple_iff_run.2 (triple_iff_run.1 (chainRound_spec v s)).2

@[spec] theorem chain_spec (fromMult : RawMult) (s : ParseState) :
    ⦃fun st => ⌜st = s⌝⦄ chain g fromMult
    ⦃⇓ r st => ⌜s.stream.Reaches st.stream ∧ s.stream.Lays st.stream (given id r)⌝⦄ := by
  have hloop := loop_lays (given Prod.fst) (chainRound_adds (g := g)) (v := .ok ([], fromMult)) rfl
  refine triple_intro fun Q hQ => ?_
  mvcgen [chain, hloop]
  rename_i found _ _
  cases found <;> grind -linarith [Except.map]

@[spec] theorem relationship_spec (s : ParseState) :
    ⦃fun st => ⌜st = s⌝⦄ relationship g
    ⦃⇓ r st => ⌜s.stream.Reaches st.stream
      ∧ s.stream.Lays st.stream (given Option.toList r)⌝⦄ := by
  refine triple_intro fun Q hQ => ?_
  mvcgen [relationship, newDecl] <;> grind -linarith [Stream.Takes.lays_relationship]

end Parse

/-!
## Statements go on

A statement that no rule can read is skipped, so that every statement takes something unless the end
of the file is ahead.
-/

open Std.Do

set_option mvcgen.warning false

namespace Parse

variable {g : Grammar} [g.IsForward]

@[spec] theorem commentStatement_spec (s : ParseState) :
    ⦃fun st => ⌜st = s⌝⦄ commentStatement
    ⦃⇓ r st => ⌜s.stream.Reaches st.stream ∧ (s.stream.peekRaw.kind ≠ .eof →
      s.stream.Passes st.stream ∧ s.stream.Lays st.stream r.toList)⌝⦄ := by
  refine triple_intro fun Q hQ => ?_
  mvcgen [commentStatement, newDecl]
  grind -linarith [Stream.lays_nextRaw, Stream.Lays.comment]

theorem documented_spec {statement : Parse (Option Statement)} (h : Forward statement)
    (s : ParseState) :
    ⦃fun st => ⌜st = s⌝⦄ documented statement
    ⦃⇓ _ st => ⌜s.stream.Reaches st.stream
      ∧ (s.stream.peekRaw.kind ≠ .eof → s.stream.Passes st.stream)⌝⦄ := by
  have hinner := h.spec
  refine triple_intro fun Q hQ => ?_
  mvcgen [documented, newDecl, hinner] <;> grind -linarith

@[spec] theorem syncRound_spec (rules : List Rule) (v : Nat) (s : ParseState) :
    ⦃fun st => ⌜st = s⌝⦄ syncRound rules v ⦃⇓ r st => ⌜Goes s.stream r st.stream⌝⦄ := by
  refine triple_intro fun Q hQ => ?_
  mvcgen [syncRound] <;> grind -linarith

@[spec] theorem sync_spec (rules : List Rule) (start : Stream) (s : ParseState) :
    ⦃fun st => ⌜st = s⌝⦄ sync rules start
    ⦃⇓ _ st => ⌜s.stream.Reaches st.stream ∧ (start.Reaches s.stream →
      start.peekRaw.kind ≠ .eof → start.Passes st.stream)⌝⦄ := by
  have hloop := loop_reaches (syncRound_spec rules)
  refine triple_intro fun Q hQ => ?_
  mvcgen [sync, hloop] <;> grind -linarith [Stream.Reaches.peekRaw_eq]

/-- Whichever rule is the first to accept, something is taken. -/
theorem firstRule_spec (all : List Rule) {statement : Parse (Option Statement)} {rules : List Rule}
    (h : ∀ r ∈ rules, Forward (r.parse statement)) (start : Stream) (s : ParseState) :
    ⦃fun st => ⌜st = s⌝⦄ firstRule all statement start rules
    ⦃⇓ _ st => ⌜s.stream = start → start.Reaches st.stream
      ∧ (start.peekRaw.kind ≠ .eof → start.Passes st.stream)⌝⦄ := by
  induction rules generalizing s with
  | nil =>
    refine triple_intro fun Q hQ => ?_
    mvcgen [firstRule]
    grind -linarith
  | cons rule rules ih =>
    have hrule := (h rule (by simp)).spec
    have hrest := ih fun r hr => h r (by simp [hr])
    refine triple_intro fun Q hQ => ?_
    mvcgen [firstRule, hrule, hrest] <;> grind -linarith

theorem statementRound_spec {statement : Parse (Option Statement)} (h : Forward statement)
    (nested : Bool) (v : Array Statement) (s : ParseState) :
    ⦃fun st => ⌜st = s⌝⦄ statementRound statement nested v
    ⦃⇓ _ st => ⌜s.stream.Reaches st.stream⌝⦄ := by
  have hinner := h.spec
  refine triple_intro fun Q hQ => ?_
  mvcgen [statementRound, hinner] <;> grind -linarith

theorem statements_spec {statement : Parse (Option Statement)} (h : Forward statement)
    (nested : Bool) (s : ParseState) :
    ⦃fun st => ⌜st = s⌝⦄ statements statement nested ⦃⇓ _ st => ⌜s.stream.Reaches st.stream⌝⦄ := by
  have hloop := fun s => loop_forward (statementRound_spec h nested) #[] s
  mvcgen [statements, hloop]
  grind -linarith

theorem package_spec {statement : Parse (Option Statement)} (h : Forward statement)
    (s : ParseState) :
    ⦃fun st => ⌜st = s⌝⦄ package g statement ⦃⇓ _ st => ⌜s.stream.Reaches st.stream⌝⦄ := by
  have hbody := statements_spec h true
  refine triple_intro fun Q hQ => ?_
  mvcgen [package, hbody] <;> grind -linarith

theorem builtinRules_forward (r : Rule) (hr : r ∈ builtinRules g) {p : Parse (Option Statement)}
    (hp : Forward p) : Forward (r.parse p) := by
  simp only [builtinRules, List.mem_cons, List.not_mem_nil, or_false] at hr
  rcases hr with rfl | rfl | rfl | rfl | rfl | rfl | rfl | rfl
  · exact .of_and config_spec
  · exact .of_and atConfig_spec
  · exact .of_and constraint_spec
  · exact .of_and note_spec
  · exact .of_and association_spec
  · exact .of_spec (package_spec hp)
  · exact .of_and entity_spec
  · exact .of_and relationship_spec

theorem allRules_forward (r : Rule) (hr : r ∈ allRules g) {p : Parse (Option Statement)}
    (hp : Forward p) : Forward (r.parse p) := by
  rcases List.mem_append.1 hr with hr | hr
  · exact Grammar.IsForward.rules r hr p hp
  · exact builtinRules_forward r hr hp

/-- A statement takes something unless the end of the file is ahead, as long as those that it holds
do not go back. -/
theorem statementOver_spec {inner : Parse (Option Statement)} (h : Forward inner) (s : ParseState) :
    ⦃fun st => ⌜st = s⌝⦄ statementOver g inner
    ⦃⇓ _ st => ⌜s.stream.Reaches st.stream
      ∧ (s.stream.peekRaw.kind ≠ .eof → s.stream.Passes st.stream)⌝⦄ := by
  have hdocumented := documented_spec h
  have hrules := firstRule_spec (allRules g) fun r (hr : r ∈ allRules g) =>
    allRules_forward r hr h
  refine triple_intro fun Q hQ => ?_
  mvcgen [statementOver, hdocumented, hrules] <;> grind -linarith

theorem statementWithin_forward (depth : Nat) : Forward (statementWithin g depth) := by
  induction depth with
  | zero => exact fun s => .refl _
  | succ depth ih => exact .of_and (statementOver_spec ih)

@[spec] theorem statement_spec (s : ParseState) :
    ⦃fun st => ⌜st = s⌝⦄ statement g
    ⦃⇓ _ st => ⌜s.stream.Reaches st.stream
      ∧ (s.stream.peekRaw.kind ≠ .eof → s.stream.Passes st.stream)⌝⦄ := by
  have hwithin := fun depth =>
    statementOver_spec (g := g) (statementWithin_forward (g := g) depth)
  refine triple_intro fun Q hQ => ?_
  mvcgen [statement, statementWithin, hwithin]
  grind -linarith

/-- Every round of a list of statements takes something, or the list ends. -/
theorem statementRound_goes (nested : Bool) (v : Array Statement) (s : ParseState) :
    ⦃fun st => ⌜st = s⌝⦄ statementRound (statement g) nested v
    ⦃⇓ r st => ⌜Goes s.stream r st.stream⌝⦄ := by
  refine triple_intro fun Q hQ => ?_
  mvcgen [statementRound] <;> grind -linarith

end Parse
end Uml
