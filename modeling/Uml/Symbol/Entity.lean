import Uml.Syntax.Statement

/-!
# Entities

Classes, interfaces, enumerations and data types, known by their dotted full name. An entity that
is only referred to is implicit.
-/
namespace Uml

/-! Dotted names. -/
namespace FullName

def dot : UInt8 := 0x2E

def join (ns name : Bytes) : Bytes := if ns.isEmpty then name else ns ++ dot :: name

def split (fqn : Bytes) : Bytes × Bytes := (fqn.cutLast? dot).getD ([], fqn)

def parent (ns : Bytes) : Bytes := (split ns).1

def scopesWithin : Nat → Bytes → List Bytes
  | 0, _ => []
  | n + 1, ns => if ns.isEmpty then [] else ns :: scopesWithin n (parent ns)

/-- A namespace and all that enclose it, innermost first, without the top. -/
def scopes (ns : Bytes) : List Bytes := scopesWithin ns.length ns

end FullName

structure EntityParam where
  name : Bytes
  type? : Option TypeExpr := none
  typeText : Bytes := []
  mult : Bytes := []
  deriving Inhabited

structure EntityMember where
  name : Bytes
  kind : MemberKind := .attr
  visibility : Visibility := .unstated
  modifiers : Modifiers := {}
  type? : Option TypeExpr := none
  typeText : Bytes := []
  mult : RawMult := {}
  params : List EntityParam := []
  operator? : Option Kind := none
  label : Bytes := []
  doc : Bytes := []
  constraints : List InlineConstraint := []
  span : Span := {}
  deriving Inhabited

structure Entity where
  /-- One more than its place in the table. -/
  id : Nat := 0
  fqn : Bytes
  name : Bytes := []
  kind : EntityKind := .cls
  modifiers : Modifiers := {}
  isImplicit : Bool := false
  ns : Bytes := []
  typeParams : List Bytes := []
  members : List EntityMember := []
  doc : Bytes := []
  span : Span := {}
  deriving Inhabited

namespace Entity

def hasTypeParam (e : Entity) (name : Bytes) : Bool := e.typeParams.contains name

def member? (e : Entity) (name : Bytes) : Option EntityMember :=
  e.members.find? (·.name = name)

/-- Adds literals that no member is named after. -/
def addLiterals (e : Entity) (literals : List Bytes) (span : Span) : Entity :=
  literals.foldl (fun e literal =>
    if (e.member? literal).isSome then e
    else { e with members := e.members ++ [{ name := literal, kind := .literal, span }] }) e

end Entity

/-- What a reference tells about an entity that it may create. -/
structure Hints where
  modifiers : Modifiers := {}
  kind? : Option EntityKind := none
  literals : List Bytes := []
  span : Span := {}
  deriving DecidableEq, Repr, Inhabited


/-!
## Visiting statements

The statements of a document in source order, a package before its body, each with the namespace
it stands in. Package names nest; what a package without a name holds is not visited.
-/

mutual
def Statement.visits (ns : Bytes) : Statement → List (Bytes × Statement)
  | .decl tag d => [(ns, .decl tag d)]
  | .package tag name nameSpan body =>
    (ns, .package tag name nameSpan body)
      :: if name.isEmpty then [] else Statement.visitsOf (FullName.join ns name) body

def Statement.visitsOf (ns : Bytes) : List Statement → List (Bytes × Statement)
  | [] => []
  | s :: rest => s.visits ns ++ Statement.visitsOf ns rest
end

/-- Every statement of a document with its namespace. -/
def Program.visits (p : Program) : List (Bytes × Statement) := Statement.visitsOf [] p.statements

end Uml
