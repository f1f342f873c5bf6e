import Uml.Syntax.Modifier
import Uml.Syntax.TypeExpr

/-!
# Statements

The tree of one document. Statements and members carry the number they got when they were made;
a package is made after its body.
-/
namespace Uml

/-- A multiplicity as written, without brackets or quotes; an empty text means there is none. -/
structure RawMult where
  raw : Bytes := []
  span : Span := {}
  deriving DecidableEq, Repr, Inhabited

def RawMult.isPresent (m : RawMult) : Bool := !m.raw.isEmpty

inductive MemberKind where
  | attr | operation | literal
  deriving DecidableEq, Repr, Inhabited

def MemberKind.name : MemberKind → Bytes
  | attr => "attribute"
  | operation => "method"
  | literal => "literal"

structure Param where
  name : Bytes
  span : Span
  type? : Option TypeExpr := none
  mult : RawMult := {}
  deriving Inhabited

structure InlineConstraint where
  name : Bytes
  arg : Bytes := []
  span : Span
  deriving DecidableEq, Repr, Inhabited

/-- An attribute, an operation or an enumeration literal; the type of an operation is that of its
result. -/
structure Member where
  id : Nat := 0
  kind : MemberKind := .attr
  name : Bytes := []
  nameSpan : Span := {}
  span : Span := {}
  doc : Bytes := []
  visibility : Visibility := .unstated
  modifiers : Modifiers := {}
  params : List Param := []
  type? : Option TypeExpr := none
  mult : RawMult := {}
  /-- The relationship operator before the type. -/
  preOp : Option Kind := none
  /-- The relationship operator behind the type. -/
  postOp : Option Kind := none
  label : Bytes := []
  constraints : List InlineConstraint := []
  deriving Inhabited

/-- The relationship that a member asks for; an operator before the type wins. -/
def Member.operator? (m : Member) : Option Kind := m.preOp <|> m.postOp

structure Endpoint where
  name : Bytes := []
  span : Span := {}
  hints : Modifiers := {}
  deriving DecidableEq, Repr, Inhabited

/-- A relationship from whatever stands before it: in the header of an entity or in a chain. -/
structure Link where
  op : Kind
  opSpan : Span
  fromMult : RawMult := {}
  toMult : RawMult := {}
  target : Endpoint
  label : Bytes := []
  members : List Member := []
  span : Span := {}
  deriving Inhabited

structure TypeParam where
  name : Bytes
  span : Span
  deriving DecidableEq, Repr, Inhabited

structure EntityDecl where
  kind : EntityKind
  name : Bytes
  nameSpan : Span
  modifiers : Modifiers := {}
  typeParams : List TypeParam := []
  headers : List Link := []
  members : List Member := []
  hasBody : Bool := false
  deriving Inhabited

structure AssociationDecl where
  name : Bytes
  nameSpan : Span
  left : Endpoint
  leftMult : RawMult
  op : Kind
  opSpan : Span
  rightMult : RawMult
  right : Endpoint
  members : List Member := []
  deriving Inhabited

/-- An entity, or a member of one. -/
structure ConstraintRef where
  entity : Bytes
  member : Bytes := []
  span : Span
  deriving DecidableEq, Repr, Inhabited

structure ConstraintDecl where
  kind : Bytes
  kindSpan : Span
  targets : List ConstraintRef
  deriving Inhabited

structure Anchor where
  name : Bytes
  span : Span
  deriving DecidableEq, Repr, Inhabited

inductive ValueKind where
  | string | number | bool | ident
  deriving DecidableEq, Repr, Inhabited

def ValueKind.name : ValueKind → Bytes
  | string => "string"
  | number => "number"
  | bool => "bool"
  | ident => "ident"

structure ConfigEntry where
  key : Bytes
  keySpan : Span
  valueKind : ValueKind
  value : Bytes
  valueSpan : Span
  deriving DecidableEq, Repr, Inhabited

inductive Decl where
  | entity (e : EntityDecl)
  | relationship (head : Endpoint) (links : List Link)
  | association (a : AssociationDecl)
  | constraint (c : ConstraintDecl)
  | note (text : Bytes) (anchors : List Anchor)
  | config (entries : List ConfigEntry)
  | comment (text : Bytes) (isDoc : Bool)
  deriving Inhabited

/-- What every statement carries. -/
structure Tag where
  id : Nat := 0
  span : Span := {}
  doc : Bytes := []
  deriving DecidableEq, Repr, Inhabited

inductive Statement where
  | package (tag : Tag) (name : Bytes) (nameSpan : Span) (body : List Statement)
  | decl (tag : Tag) (decl : Decl)
  deriving Inhabited

namespace Statement

def tag : Statement → Tag
  | package tag .. => tag
  | decl tag _ => tag

def id (s : Statement) : Nat := s.tag.id

def span (s : Statement) : Span := s.tag.span

def doc (s : Statement) : Bytes := s.tag.doc

def withDoc (s : Statement) (doc : Bytes) : Statement :=
  if !s.doc.isEmpty then s
  else match s with
  | package tag name nameSpan body => package { tag with doc } name nameSpan body
  | decl tag d => decl { tag with doc } d

def kindName : Statement → Bytes
  | package .. => "Package"
  | decl _ d =>
    match d with
    | .entity _ => "Entity"
    | .relationship .. => "Relationship"
    | .association _ => "AssociationClass"
    | .constraint _ => "Constraint"
    | .note .. => "Note"
    | .config _ => "Config"
    | .comment .. => "Comment"

end Statement

structure Program where
  span : Span := {}
  statements : List Statement := []
  deriving Inhabited

end Uml
