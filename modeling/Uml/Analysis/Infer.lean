import Uml.Analysis.Session

/-!
# Inferred relationships

A member's type implies relationships, unless one between the same ends is written. Attributes
keep the kind that their type implies; the types of operations become dependencies.
-/
namespace Uml.Analyze

/-- The kind of constraint whose targets exclude each other. -/
def xor : Bytes := "xor"

/-- The kind of an inferred relationship and whether it is navigable: an operator at the member
wins, an operation depends, and an attribute follows its type. -/
def inferredKind (m : EntityMember) (l : TypeLink) : RelKind × Bool :=
  match m.operator?.bind RelKind.ofOperator? with
  | some found => found
  | none => (if m.kind = .operation then .dependency else l.kind, true)

/-- The multiplicity at the target: that of an attribute as written, if it is valid, else that of
the type. -/
def inferredMult (m : EntityMember) (l : TypeLink) : Option Multiplicity :=
  if m.kind = .operation || !m.mult.isPresent then l.mult
  else match Multiplicity.parse m.mult.raw with
    | .ok value => some value
    | .error _ => l.mult

/-- Records what one link of a member's type implies; answers the target of a new relationship. -/
def inferLink (e : Entity) (m : EntityMember) (l : TypeLink) : Analyze (Option Bytes) := do
  if l.target.isEmpty || e.hasTypeParam l.target then return none
  if l.registerOnly then
    discard <| resolveEnd l.target e.ns l.hints m.span
    return none
  let (kind, navigable) := inferredKind m l
  let hints := if kind = .implementation then { l.hints with kind? := some .interface } else l.hints
  let target ← resolveEnd l.target e.ns hints m.span
  if target.isPackage && kind ≠ .dependency then return none
  if (← get).joinsExplicitly e.fqn target.fqn then return none
  let taken ← addRelationship
    { source := e.fqn, target := target.fqn, kind, navigable, targetMult := inferredMult m l,
      label := if m.label.isEmpty then l.label else m.label, role := m.name,
      constraints := (m.constraints.filter (·.name ≠ xor)).map (·.name),
      toPackage := target.isPackage, origin := .member, span := m.span }
  return if taken then some target.fqn else none

/-- Infers from one type of a member. Alternatives that became several relationships exclude each
other. -/
def inferType (typing : Typing) (e : Entity) (m : EntityMember) (t : TypeExpr) : Analyze Unit := do
  let meaning := typing.meaning e.typeParams t
  if meaning.isValue then return
  let targets ← meaning.links.mapM (inferLink e m)
  if meaning.isExclusive && 1 < (targets.filterMap id).length then
    addConstraint { kind := xor, targets := targets.filterMap id, span := m.span }

def inferableTypes (m : EntityMember) : List TypeExpr :=
  match m.kind with
  | .literal => []
  | .attr => m.type?.toList
  | .operation => m.type?.toList ++ m.params.filterMap (·.type?)

/-- The groups that members of one entity exclude each other in, in order of their first member:
name, members and the place of the first mark. -/
def xorGroups (e : Entity) : List Constraint :=
  let marks := (e.members.filter (·.kind ≠ .literal)).flatMap fun m =>
    (m.constraints.filter fun c => c.name = xor && !c.arg.isEmpty).map fun c => (c, m.name)
  (marks.map (·.1.arg)).eraseDups.map fun group =>
    let members := marks.filter (·.1.arg = group)
    { kind := xor, targets := members.map fun (_, name) => e.fqn ++ "." ++ name,
      span := (members.head?.map (·.1.span)).getD {} }

/-- Infers from all members that an entity has when its turn comes. -/
def inferEntity (typing : Typing) (e : Entity) : Analyze Unit := do
  e.members.forM fun m => (inferableTypes m).forM (inferType typing e m)
  (xorGroups e).forM addConstraint

/-- Infers for entities from index `i` on, at most `n` of them. -/
def inferFrom (typing : Typing) : Nat → Nat → Analyze Unit
  | 0, _ => pure ()
  | n + 1, i => do
    match (← get).table.entities[i]? with
    | some e =>
      inferEntity typing e
      inferFrom typing n (i + 1)
    | none => pure ()

/-- Infers for every entity. Those that appear on the way have literals only, from which nothing
is inferred. -/
def infer (typing : Typing) : Analyze Unit := do inferFrom typing (← get).table.size 0

end Uml.Analyze
