import Uml.Token.Basic

/-! Kinds of entities, their modifiers, and visibility of members. -/
namespace Uml

inductive EntityKind where
  | cls | interface | enumeration | datatype
  deriving DecidableEq, Repr, Inhabited

namespace EntityKind

def all : List EntityKind := [cls, interface, enumeration, datatype]

def name : EntityKind → Bytes
  | cls => "class"
  | interface => "interface"
  | enumeration => "enum"
  | datatype => "datatype"

def ofName? (s : Bytes) : Option EntityKind := all.find? (·.name = s)

def ofKeyword? : Kind → Option EntityKind
  | .kwClass => some cls
  | .kwInterface => some interface
  | .kwEnum => some enumeration
  | .kwDatatype => some datatype
  | _ => none

end EntityKind

inductive Modifier where
  | abstract | static | active | leaf | final | root | readonly | derived
  deriving DecidableEq, Repr, Inhabited

namespace Modifier

/-- Every modifier, in the order in which sets of them are listed. -/
def all : List Modifier := [abstract, static, active, leaf, final, root, readonly, derived]

def name : Modifier → Bytes
  | abstract => "abstract"
  | static => "static"
  | active => "active"
  | leaf => "leaf"
  | final => "final"
  | root => "root"
  | readonly => "readonly"
  | derived => "derived"

def ofName? (s : Bytes) : Option Modifier := all.find? (·.name = s)

/-- The modifier that a keyword before an entity stands for. -/
def ofKeyword? : Kind → Option Modifier
  | .kwAbstract => some abstract
  | .kwStatic => some static
  | .kwActive => some active
  | .kwLeaf => some leaf
  | .kwFinal => some final
  | .kwRoot => some root
  | _ => none

/-- The modifier that a token before a member stands for; `readonly` is no keyword. -/
def ofMemberToken? (t : Token) : Option Modifier :=
  match ofKeyword? t.kind with
  | some m => if [abstract, static, final, leaf].contains m then some m else none
  | none => if t.kind = .ident && t.text = "readonly" then some readonly else none

end Modifier

def Modifier.index : Modifier → Nat
  | abstract => 0
  | static => 1
  | active => 2
  | leaf => 3
  | final => 4
  | root => 5
  | readonly => 6
  | derived => 7

/-- A set of modifiers; bit `i` stands for the `i`-th of the listing order. -/
structure Modifiers where
  bits : Nat := 0
  deriving DecidableEq, Repr, Inhabited

namespace Modifiers

def has (ms : Modifiers) (m : Modifier) : Bool := ms.bits.testBit m.index

def toList (ms : Modifiers) : List Modifier := Modifier.all.filter ms.has

def names (ms : Modifiers) : List Bytes := ms.toList.map (·.name)

def isEmpty (ms : Modifiers) : Bool := ms.toList.isEmpty

def union (ms ns : Modifiers) : Modifiers := ⟨ms.bits ||| ns.bits⟩

def singleton (m : Modifier) : Modifiers := ⟨1 <<< m.index⟩

def insert (ms : Modifiers) (m : Modifier) : Modifiers := ms.union (singleton m)

def ofList (l : List Modifier) : Modifiers := l.foldl insert {}

end Modifiers

inductive Visibility where
  | unstated | everyone | owner | heirs | package
  deriving DecidableEq, Repr, Inhabited

namespace Visibility

def name : Visibility → Bytes
  | unstated => ""
  | everyone => "public"
  | owner => "private"
  | heirs => "protected"
  | package => "package"

/-- The visibility that a mark before a member stands for. -/
def ofKind : Kind → Visibility
  | .plus => everyone
  | .minus => owner
  | .hash => heirs
  | .tilde => package
  | _ => unstated

end Visibility
end Uml
