import Uml.Symbol.Entity

/-!
# Symbol tables

Entities keep the order and the place of their registration: an implicit entity that is declared
later is replaced where it stands. A second index leads from a full name to a number. Namespaces are
filed with their places and listed apart, parents first.
-/
namespace Uml

structure Table where
  entities : List Entity := []
  /-- The numbers that full names are filed under, the latest first. -/
  numbers : List (Bytes × Nat) := []
  /-- Where namespaces were first declared, the latest first. -/
  namespaces : List (Bytes × Span) := []
  /-- Namespaces in order of registration. -/
  order : List Bytes := []
  deriving Inhabited

/-- What an explicit registration did. -/
inductive Outcome where
  | registered | promoted | duplicate
  deriving DecidableEq, Repr

def Outcome.name : Outcome → Bytes
  | registered => "registered"
  | promoted => "promoted"
  | duplicate => "duplicate"

namespace Table

def size (t : Table) : Nat := t.entities.length

def get? (t : Table) (id : Nat) : Option Entity :=
  match id with
  | 0 => none
  | n + 1 => t.entities[n]?

def lookup? (t : Table) (fqn : Bytes) : Option Entity := (t.numbers.lookup fqn).bind t.get?

def contains (t : Table) (fqn : Bytes) : Bool := (t.numbers.lookup fqn).isSome

/-- Puts an entity in the place of the one with its number. -/
def replace (t : Table) (e : Entity) : Table :=
  { t with entities := t.entities.map fun old => if old.id = e.id then e else old }

/-- Appends an entity, which gets the next number and is filed under its full name. -/
def append (t : Table) (e : Entity) : Table × Entity :=
  let e := { e with id := t.size + 1 }
  ({ t with entities := t.entities ++ [e], numbers := (e.fqn, e.id) :: t.numbers }, e)

/-- Records a declared entity. An implicit entity of that name is replaced and hands its members
on; a declared one stays and is the answer. -/
def registerExplicit (t : Table) (e : Entity) : Table × Entity × Outcome :=
  let e := if e.name.isEmpty then
      { e with ns := (FullName.split e.fqn).1, name := (FullName.split e.fqn).2 }
    else e
  let e := { e with isImplicit := false }
  match t.lookup? e.fqn with
  | none =>
    let (t, e) := t.append e
    (t, e, .registered)
  | some old =>
    if old.isImplicit then
      let e := { e with id := old.id, members := e.members ++ old.members }
      (t.replace e, e, .promoted)
    else (t, old, .duplicate)

/-- Makes sure that an entity of that name exists. Hints shape a new entity; an implicit one that
exists only takes modifiers and literals from them. -/
def registerImplicit (t : Table) (fqn : Bytes) (h : Hints) : Table × Entity :=
  match t.lookup? fqn with
  | some old =>
    if old.isImplicit then
      let e := { old with modifiers := old.modifiers.union h.modifiers }.addLiterals h.literals h.span
      (t.replace e, e)
    else (t, old)
  | none =>
    let (ns, name) := FullName.split fqn
    let e : Entity :=
      { fqn, name, ns, isImplicit := true, modifiers := h.modifiers, span := h.span,
        kind := h.kind?.getD .cls }
    t.append (e.addLiterals h.literals h.span)

def isNamespace (t : Table) (fqn : Bytes) : Bool := (t.namespaces.lookup fqn).isSome

/-- Where a namespace was first declared. -/
def namespaceSpan? (t : Table) (fqn : Bytes) : Option Span := t.namespaces.lookup fqn

def addNamespace (t : Table) (span : Span) (fqn : Bytes) : Table :=
  { t with namespaces := (fqn, span) :: t.namespaces, order := t.order ++ [fqn] }

/-- Records the first of nested namespaces behind those around it, unless it is known. -/
def addScopes (t : Table) (span : Span) : List Bytes → Table
  | [] => t
  | ns :: outer => if t.isNamespace ns then t else (t.addScopes span outer).addNamespace span ns

/-- Records a namespace and all that enclose it; answers whether it is new. -/
def registerNamespace (t : Table) (fqn : Bytes) (span : Span) : Table × Bool :=
  if fqn.isEmpty || t.isNamespace fqn then (t, false)
  else (t.addScopes span (FullName.scopes fqn), true)

end Table
end Uml
