import Uml.Source.Span

/-!
# Type expressions

Types as written: names, type arguments, arrays, alternatives, enumerated values and object
shapes. Every node carries the number it got when it was made and the span it was read from.
-/
namespace Uml

/-- The number and the place of a tree node. -/
structure Node where
  id : Nat := 0
  span : Span := {}
  deriving DecidableEq, Repr, Inhabited

structure FieldName where
  name : Bytes
  isOptional : Bool := false
  span : Span := {}
  deriving DecidableEq, Repr, Inhabited

inductive TypeExpr where
  /-- A slot that names no node. -/
  | absent
  /-- A place where a type was expected and none was found. -/
  | unknown (node : Node)
  /-- A dotted name. -/
  | simple (node : Node) (name : Bytes)
  | generic (node : Node) (base : TypeExpr) (args : List TypeExpr)
  | array (node : Node) (base : TypeExpr)
  /-- Alternatives, of which the last `piped` were written behind a bar. -/
  | union (node : Node) (alternatives : List TypeExpr) (piped : Nat)
  /-- A name with its values. -/
  | enumerated (node : Node) (base : TypeExpr) (literals : List Bytes)
  | object (node : Node) (fields : List (FieldName × TypeExpr))
  /-- A string or number that stands for a type. -/
  | literal (node : Node) (text : Bytes)
  deriving Repr, Inhabited

namespace TypeExpr

def node : TypeExpr → Node
  | absent => {}
  | unknown n | simple n _ | generic n _ _ | array n _ | union n _ _ | enumerated n _ _ | object n _
  | literal n _ => n

def span (t : TypeExpr) : Span := t.node.span

def isUnknown : TypeExpr → Bool
  | absent | unknown _ => true
  | _ => false

def kindName : TypeExpr → Bytes
  | absent | unknown _ => "unknown"
  | simple .. => "simple"
  | generic .. => "generic"
  | array .. => "array"
  | union .. => "union"
  | enumerated .. => "enum-literal"
  | object .. => "object"
  | literal .. => "literal"

/-- How many nodes a search for the head looks at. -/
def maxHeadDepth : Nat := 64

def headWithin : Nat → TypeExpr → Bytes
  | 0, _ => []
  | n + 1, t =>
    match t with
    | simple _ name => name
    | generic _ base _ | array _ base | enumerated _ base _ => headWithin n base
    | _ => []

/-- The name that a type is built on: that of its innermost base. Empty if there is none. -/
def head (t : TypeExpr) : Bytes := headWithin maxHeadDepth t

/-- A union whose last `piped` alternatives follow a bar; at least one stands before the bars. -/
def pipedUnion (node : Node) (alternatives : List TypeExpr) (piped : Nat) : TypeExpr :=
  union node alternatives (min piped (alternatives.length - 1))

mutual
def render : TypeExpr → Bytes
  | absent => []
  | unknown _ => "?"
  | simple _ name => name
  | literal _ text => text
  | generic _ base args => render base ++ "<" ++ renderList args ++ ">"
  | array _ base => render base ++ "[]"
  | union _ alternatives piped =>
    let plain := alternatives.length - piped
    if 0 < piped && plain = 1 then renderPiped alternatives 0
    else "xor\x7b" ++ renderPlain alternatives plain
  | enumerated _ base literals => render base ++ "(" ++ Bytes.join "|" literals ++ ")"
  | object _ fields => "\x7b " ++ renderFields fields ++ " \x7d"

def renderList : List TypeExpr → Bytes
  | [] => []
  | [t] => render t
  | t :: ts => render t ++ ", " ++ renderList ts

/-- The alternatives inside braces, of which `plain` are left, then the others behind bars. -/
def renderPlain : List TypeExpr → Nat → Bytes
  | [], _ => "\x7d"
  | t :: ts, 0 => "\x7d | " ++ render t ++ renderPiped ts 1
  | t :: ts, 1 => render t ++ renderPlain ts 0
  | t :: ts, n + 2 => render t ++ ", " ++ renderPlain ts (n + 1)

/-- Alternatives divided by bars; a bar stands before the first unless none came before. -/
def renderPiped : List TypeExpr → Nat → Bytes
  | [], _ => []
  | t :: ts, 0 => render t ++ renderPiped ts 1
  | t :: ts, _ => " | " ++ render t ++ renderPiped ts 1

def renderFields : List (FieldName × TypeExpr) → Bytes
  | [] => []
  | [(f, t)] => renderName f ++ render t
  | (f, t) :: rest => renderName f ++ render t ++ ", " ++ renderFields rest

def renderName (f : FieldName) : Bytes := f.name ++ if f.isOptional then "?: " else ": "
end

end TypeExpr
end Uml
