import Uml.Model.Multiplicity
import Uml.Source.Span
import Uml.Syntax.Statement

/-! Relationships, constraints, notes and config, as the analysis of a document finds them. -/
namespace Uml

inductive RelKind where
  | association | inheritance | implementation | composition | aggregation | dependency
  | bidirectional
  deriving DecidableEq, Repr, Inhabited

namespace RelKind

def name : RelKind → Bytes
  | association => "Association"
  | inheritance => "Inheritance"
  | implementation => "Implementation"
  | composition => "Composition"
  | aggregation => "Aggregation"
  | dependency => "Dependency"
  | bidirectional => "Bidirectional"

/-- The relationship that an operator stands for, and whether its target can be navigated to. -/
def ofOperator? : Kind → Option (RelKind × Bool)
  | .inherit => some (inheritance, true)
  | .implement => some (implementation, true)
  | .compose => some (composition, true)
  | .composeOpaque => some (composition, false)
  | .aggregate => some (aggregation, true)
  | .aggregateOpaque => some (aggregation, false)
  | .depend => some (dependency, true)
  | .bidirectional => some (bidirectional, true)
  | .directed => some (association, true)
  | .associate => some (association, false)
  | _ => none

end RelKind

/-- The construct that a relationship was written as. -/
inductive Origin where
  | statement | header | associationClass | member
  deriving DecidableEq, Repr, Inhabited

def Origin.name : Origin → Bytes
  | statement => "statement"
  | header => "header"
  | associationClass => "association-class"
  | member => "member"

structure Relationship where
  source : Bytes
  target : Bytes
  kind : RelKind
  navigable : Bool
  sourceMult : Option Multiplicity := none
  targetMult : Option Multiplicity := none
  label : Bytes := []
  /-- The member that an inferred relationship comes from. -/
  role : Bytes := []
  constraints : List Bytes := []
  associationClass : Bytes := []
  toPackage : Bool := false
  origin : Origin
  span : Span
  deriving DecidableEq, Repr, Inhabited

/-- A constraint over entities and members, named by their full names. -/
structure Constraint where
  kind : Bytes
  targets : List Bytes
  span : Span
  deriving DecidableEq, Repr, Inhabited

structure ModelNote where
  text : Bytes
  anchors : List Bytes
  span : Span
  deriving DecidableEq, Repr, Inhabited

/-- A config key with the place of its first value and the text of its last. -/
structure ConfigItem where
  key : Bytes
  kind : ValueKind
  value : Bytes
  span : Span
  deriving DecidableEq, Repr, Inhabited

end Uml
