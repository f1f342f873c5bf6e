import Uml.Model.Relationship
import Uml.Symbol.Entity

/-!
# What a type means for its owner

A member's type is either a plain value or implies links to the entities it names. Strategies are
asked in turn; the first that knows the form of the type decides.
-/
namespace Uml

/-- One relationship that a type implies. -/
structure TypeLink where
  /-- The name as written. -/
  target : Bytes
  kind : RelKind := .association
  mult : Option Multiplicity := none
  label : Bytes := []
  /-- The target shall exist, but is not linked to. -/
  registerOnly : Bool := false
  hints : Hints := {}
  deriving Inhabited

structure TypeMeaning where
  /-- A value type, which implies nothing. -/
  isValue : Bool := false
  links : List TypeLink := []
  /-- The links are alternatives, of which one holds. -/
  isExclusive : Bool := false
  deriving Inhabited

namespace TypeMeaning

def value : TypeMeaning := { isValue := true }

/-- The meaning of a collection of such elements: what was a plain association becomes `kind`, and
a link without a multiplicity gets `mult`. -/
def collect (m : TypeMeaning) (kind : RelKind) (mult : Multiplicity) : TypeMeaning :=
  if m.isValue then m
  else
    { m with
      links := m.links.map fun l =>
        if l.registerOnly then l
        else
          { l with
            kind := if l.kind = .association then kind else l.kind
            mult := l.mult <|> some mult } }

end TypeMeaning

/-- The names that stand for values. -/
structure TypeScope where
  isPrimitive : Bytes → Bool
  /-- Type parameters of the owner. -/
  isParam : Bytes → Bool

def TypeScope.isValue (s : TypeScope) (name : Bytes) : Bool := s.isPrimitive name || s.isParam name

/-- One way to read a type; nested types are handed to the function that it is given. -/
structure Strategy where
  name : Bytes
  meaning? : TypeScope → (TypeExpr → TypeMeaning) → TypeExpr → Option TypeMeaning

namespace Strategy

/-- Value types, type parameters, and forms that name nothing. -/
def primitive : Strategy where
  name := "primitive"
  meaning? scope _
    | .simple _ name => if scope.isValue name then some .value else none
    | .absent | .unknown _ | .literal .. | .object .. => some .value
    | _ => none

/-- An array aggregates any number of its elements. -/
def array : Strategy where
  name := "array"
  meaning? _ nested
    | .array _ base => some ((nested base).collect .aggregation .many)
    | _ => none

/-- The meaning of alternatives; none that links is a value. -/
def alternatives (links : List TypeLink) : TypeMeaning :=
  if links.isEmpty then .value else { links, isExclusive := 1 < links.length }

/-- Whatever names an entity is an association with it. Enumerated values register their
enumeration. -/
def fallback : Strategy where
  name := "fallback"
  meaning? scope nested
    | .union _ ts _ => some (alternatives (ts.flatMap fun t => (nested t).links))
    | .enumerated node base literals =>
      let target := base.head
      if target.isEmpty then some .value
      else
        let hints : Hints := { kind? := some .enumeration, literals, span := node.span }
        some { links := [{ target, registerOnly := true, hints }] }
    | t =>
      let target := t.head
      if target.isEmpty || scope.isValue target then some .value else some { links := [{ target }] }

/-- The argument that a generic type of a language is about: its head and its first argument with
all arguments. -/
def generic? : TypeExpr → Option (Bytes × TypeExpr × List TypeExpr)
  | .generic _ base (arg :: args) => some (base.head, arg, args)
  | _ => none

end Strategy

/-- The values and strategies in force for a document. -/
structure Typing where
  /-- What the host language adds to the primitives: its name for one, and the common name. -/
  primitives : Option (Bytes → Option Bytes) := none
  /-- Tried between the check for values and the array form. -/
  extra : List Strategy := []

namespace Typing

/-- Value types in every language. -/
def commonPrimitives : List Bytes := [
  "Boolean", "Integer", "Real", "String", "UnlimitedNatural", "boolean", "bool", "int", "integer",
  "float", "double", "real", "string", "char", "byte", "long", "short", "void", "any", "number",
  "date", "Date", "DateTime"]

def isPrimitive (t : Typing) (name : Bytes) : Bool :=
  commonPrimitives.contains name
    || match t.primitives with
      | some map => (map name).isSome
      | none => false

def strategies (t : Typing) : List Strategy :=
  .primitive :: t.extra ++ [.array, .fallback]

/-- How deep types are looked into; what lies deeper counts as a value. -/
def maxDepth : Nat := 32

def meaningWithin (t : Typing) (scope : TypeScope) : Nat → TypeExpr → TypeMeaning
  | 0, _ => .value
  | depth + 1, e =>
    (t.strategies.findSome? fun s => s.meaning? scope (meaningWithin t scope depth) e).getD .value

/-- The meaning of a type for an owner with the given type parameters. -/
def meaning (t : Typing) (params : List Bytes) (e : TypeExpr) : TypeMeaning :=
  t.meaningWithin { isPrimitive := t.isPrimitive, isParam := params.contains } maxDepth e

end Typing
end Uml
