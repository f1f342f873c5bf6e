import Uml.Diagnostic.Basic
import Uml.Model.Relationship
import Uml.Symbol.Entity
import Uml.Symbol.Resolve
import Uml.Typing.Meaning

/-!
# Analysis state

What the passes of one analysis build up. A pass never fails: it reports and goes on, and the
model is usable at the end.
-/
namespace Uml

/-- What tells members of one entity apart: overloads of an operation differ in the types of their
parameters. -/
inductive MemberKey where
  | literal (name : Bytes)
  | operation (name signature : Bytes)
  | attr (name : Bytes)
  deriving DecidableEq, Repr

structure Session where
  table : Table := {}
  relationships : List Relationship := []
  constraints : List Constraint := []
  notes : List ModelNote := []
  config : List ConfigItem := []
  /-- The entity that each accepted declaration made, by statement number. -/
  declared : List (Nat × Nat) := []
  /-- The members accepted so far, by entity number, each with the place of its name. -/
  seen : List (Nat × List (MemberKey × Span)) := []
  findings : Array Diagnostic := #[]
  deriving Inhabited

abbrev Analyze := StateM Session

inductive End where
  | entity (e : Entity)
  | package (fqn : Bytes)

namespace End

def fqn : End → Bytes
  | entity e => e.fqn
  | package fqn => fqn

def entity? : End → Option Entity
  | entity e => some e
  | package _ => none

def isPackage : End → Bool
  | entity _ => false
  | package _ => true

end End

namespace Session

/-- The entity that a declaration made; none if the declaration was refused. -/
def declaredEntity? (s : Session) (statement : Nat) : Option Entity :=
  (s.declared.lookup statement).bind s.table.get?

def package? (s : Session) (name ns : Bytes) : Option Bytes :=
  ((FullName.scopes ns).map (FullName.join · name) ++ [name]).find? s.table.isNamespace

/-- Whether some relationship other than an inferred one joins two ends. -/
def joinsExplicitly (s : Session) (source target : Bytes) : Bool :=
  s.relationships.any fun r => r.origin ≠ .member && r.source = source && r.target = target

end Session

/-- Two constraints with the same kind and the same targets in any order say the same. -/
def Constraint.agrees (c d : Constraint) : Bool :=
  c.kind = d.kind && c.targets.mergeSort Bytes.le = d.targets.mergeSort Bytes.le

namespace Analyze

def report (d : Diagnostic) : Analyze Unit := modify fun s => { s with findings := s.findings.push d }

def error (code : Code) (span : Span) (message : Bytes) (notes : List Note := []) : Analyze Unit :=
  report (.error code span message notes)

def warning (code : Code) (span : Span) (message : Bytes) (notes : List Note := []) :
    Analyze Unit :=
  report (.warning code span message notes)

def warnAmbiguous (name : Bytes) (r : Resolution) (span : Span) : Analyze Unit := do
  if r.isAmbiguous then
    warning .ambiguousReference span
      ("ambiguous reference " ++ Quoted.text name ++ ": candidates "
        ++ Bytes.join ", " r.candidates ++ "; using " ++ r.fqn)

/-- Resolves one end of a relationship. What no entity and no package is named becomes an implicit
entity. -/
def resolveEnd (name ns : Bytes) (h : Hints) (span : Span) : Analyze End := do
  let s ← get
  let r := s.table.resolve name ns
  warnAmbiguous name r span
  match if r.isFound then none else s.package? name ns with
  | some fqn => return .package fqn
  | none =>
    let h := if h.span = {} then { h with span } else h
    let (table, e) := s.table.registerImplicit r.fqn h
    modify fun s => { s with table }
    return .entity e

def lookupReference (name ns : Bytes) (span : Span) : Analyze (Option Entity) := do
  let r := (← get).table.resolve name ns
  if r.isFound then
    warnAmbiguous name r span
    return (← get).table.lookup? r.fqn
  return none

/-- Reads a written multiplicity; a wrong one is reported and counts as none. -/
def readMult (m : RawMult) : Analyze (Option Multiplicity) := do
  if !m.isPresent then return none
  match Multiplicity.parse m.raw with
  | .ok value => return some value
  | .error e =>
    error (if e.isBounds then .multiplicityBounds else .multiplicityFormat) m.span e.message
    return none

/-- Records a relationship; a package can only be depended on. Answers whether it was taken. -/
def addRelationship (r : Relationship) : Analyze Bool := do
  if r.toPackage && r.kind ≠ .dependency then
    error .packageTarget r.span
      ("package " ++ r.target ++ " can only be the target of a dependency, not " ++ r.kind.name)
    return false
  modify fun s => { s with relationships := s.relationships ++ [r] }
  return true

/-- Records a constraint unless one that says the same is there. -/
def addConstraint (c : Constraint) : Analyze Unit :=
  modify fun s =>
    if s.constraints.any c.agrees then s else { s with constraints := s.constraints ++ [c] }

end Analyze
end Uml
