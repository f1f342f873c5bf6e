import Uml.Diagram.Value
import Uml.Model.Relationship

/-!
# Diagrams

The finished form of a model: everything is a text, a number or a list of such. A list that is not
given at all differs from an empty one, since a diagram can be read from a document that leaves it
out.
-/
namespace Uml

/-- The bounds of a multiplicity; an upper bound of minus one stands for no bound. -/
structure Bounds where
  lower : Int := 0
  upper : Int := 0
  deriving DecidableEq, Repr, Inhabited

namespace Bounds

def unbounded : Int := -1

def ofMultiplicity (m : Multiplicity) : Bounds :=
  ⟨m.lower, match m.upper with | some u => u | none => unbounded⟩

def render (b : Bounds) : Bytes :=
  if b.upper = unbounded then
    if b.lower = 0 then "*" else Bytes.ofInt b.lower ++ "..*"
  else if b.upper = b.lower then Bytes.ofInt b.lower
  else Bytes.ofInt b.lower ++ ".." ++ Bytes.ofInt b.upper

end Bounds

/-- The multiplicity of a member: a single value stays as written, a range is its bounds. -/
inductive MemberBounds where
  | single (text : Bytes)
  | range (b : Bounds)
  deriving DecidableEq, Repr, Inhabited

namespace MemberBounds

def render : MemberBounds → Bytes
  | single text => text
  | range b => b.render

/-- A valid multiplicity as a member has it; blank or wrong text is none. -/
def ofText? (raw : Bytes) : Option MemberBounds :=
  let raw := raw.trim
  if raw.isEmpty then none
  else match Multiplicity.parse raw with
  | .error _ => none
  | .ok m =>
    if m.isSingle || m = .many then some (single m.render) else some (range (.ofMultiplicity m))

end MemberBounds

structure Location where
  file : Bytes := []
  line : Nat := 0
  column : Nat := 0
  deriving DecidableEq, Repr, Inhabited

structure Diagram.Param where
  name : Bytes := []
  type : Bytes := []
  multiplicity : Option MemberBounds := none
  deriving DecidableEq, Repr, Inhabited

structure Diagram.Member where
  name : Bytes := []
  kind : Bytes := []
  visibility : Bytes := []
  modifiers : List Bytes := []
  type : Bytes := []
  multiplicity : Option MemberBounds := none
  params : List Diagram.Param := []
  label : Bytes := []
  doc : Bytes := []
  constraints : List Bytes := []
  location : Option Location := none
  deriving DecidableEq, Repr, Inhabited

structure Diagram.Entity where
  fqn : Bytes := []
  name : Bytes := []
  kind : Bytes := []
  ns : Bytes := []
  modifiers : List Bytes := []
  isImplicit : Bool := false
  typeParams : List Bytes := []
  doc : Bytes := []
  members : Option (List Diagram.Member) := none
  location : Option Location := none
  deriving DecidableEq, Repr, Inhabited

structure Diagram.Relationship where
  source : Bytes := []
  target : Bytes := []
  kind : Bytes := []
  navigable : Bool := false
  sourceMult : Option Bounds := none
  targetMult : Option Bounds := none
  label : Bytes := []
  role : Bytes := []
  constraints : List Bytes := []
  associationClass : Bytes := []
  toPackage : Bool := false
  isInferred : Bool := false
  location : Option Location := none
  deriving DecidableEq, Repr, Inhabited

structure Diagram.Constraint where
  kind : Bytes := []
  targets : Option (List Bytes) := none
  deriving DecidableEq, Repr, Inhabited

structure Diagram.Note where
  text : Bytes := []
  anchors : List Bytes := []
  deriving DecidableEq, Repr, Inhabited

structure Diagram where
  entities : Option (List Diagram.Entity) := none
  relationships : Option (List Diagram.Relationship) := none
  constraints : Option (List Diagram.Constraint) := none
  notes : List Diagram.Note := []
  config : Option Config := none
  deriving Inhabited

end Uml
