import Uml.Analysis.Cycle
import Uml.Analysis.Declare
import Uml.Analysis.Infer
import Uml.Analysis.Relate

/-!
# The analysis of a document

The passes in order. The last one checks the finished relationships; what is invalid is reported and
stays in the model.
-/
namespace Uml.Analyze

def target? (t : Table) (r : Relationship) : Option Entity :=
  if r.toPackage then none else t.lookup? r.target

/-- What is realized must be an interface. -/
def checkRealization (t : Table) (r : Relationship) : List Diagnostic :=
  match target? t r with
  | none => []
  | some target =>
    if target.kind = .interface then []
    else
      [.error .realizationTarget r.span
        (r.source ++ " realizes " ++ r.target ++ ", which is a " ++ target.kind.name
          ++ ", not an interface")]

/-- A part belongs to one whole at most. -/
def checkComposition (r : Relationship) : List Diagnostic :=
  match r.sourceMult with
  | none => []
  | some m =>
    if m.upperAtMost 1 then []
    else
      [.error .compositionWholeUpper r.span
        ("composition " ++ r.source ++ " -> " ++ r.target ++ ": whole end multiplicity " ++ m.render
          ++ " allows more than one owner")]

/-- What is wrong when `source` inherits from another entity that is no enumeration. -/
def checkParent (r : Relationship) (source target : Entity) : List Diagnostic :=
  let sealing := (target.modifiers.toList.filter leafOrFinal.has).map (·.name)
  (if source.kind = target.kind then []
    else
      [.error .inheritanceKind r.span
        (source.kind.name ++ " " ++ source.fqn ++ " cannot inherit from " ++ target.kind.name ++ " "
          ++ target.fqn)])
  ++ (if sealing.isEmpty then []
    else
      [.error .extendsLeaf r.span
        (source.fqn ++ " cannot extend " ++ Bytes.join " " sealing ++ " " ++ target.fqn)
        (if target.isImplicit then [] else [⟨target.span, "declared here"⟩])])
  ++ (if source.modifiers.has .root then
      [.error .rootSpecializes r.span
        ("root " ++ source.kind.name ++ " " ++ source.fqn ++ " cannot have a parent")]
    else [])

def checkInheritance (t : Table) (r : Relationship) : List Diagnostic :=
  match t.lookup? r.source, target? t r with
  | some source, some target =>
    if source.fqn = target.fqn then
      [.error .selfInheritance r.span (source.fqn ++ " inherits from itself")]
    else if source.kind = .enumeration || target.kind = .enumeration then
      [.error .enumInheritance r.span
        ("enumeration cannot take part in inheritance: " ++ source.fqn ++ " -> " ++ target.fqn)]
    else checkParent r source target
  | _, _ => []

def checkRelationship (t : Table) (r : Relationship) : List Diagnostic :=
  match r.kind with
  | .implementation => checkRealization t r
  | .composition => checkComposition r
  | .inheritance => checkInheritance t r
  | _ => []

def entityIndex? (t : Table) (fqn : Bytes) : Option Nat := t.entities.findIdx? (·.fqn = fqn)

/-- The inheritance edges with the index of the entity that each leaves; self-loops are no edges. -/
def inheritanceEdges (t : Table) (rs : List Relationship) : List (Nat × Cycle.Edge) :=
  rs.filterMap fun r =>
    if r.kind ≠ .inheritance || r.toPackage || r.source = r.target then none
    else
      match entityIndex? t r.source, entityIndex? t r.target with
      | some source, some target => some (source, ⟨target, r.span⟩)
      | _, _ => none

def edgesFrom (edges : List (Nat × Cycle.Edge)) (node : Nat) : List Cycle.Edge :=
  (edges.filter (·.1 = node)).map (·.2)

def cycleText (t : Table) (nodes : List Nat) : Bytes :=
  let names := nodes.map fun n => (t.entities[n]?.map (·.fqn)).getD []
  Bytes.join " -> " (names ++ names.take 1)

def checkCycles (t : Table) (rs : List Relationship) : List Diagnostic :=
  let edges := inheritanceEdges t rs
  (Cycle.search (cycleText t) (edgesFrom edges) t.size).map fun c =>
    .error .inheritanceCycle c.span ("inheritance cycle: " ++ cycleText t c.nodes)

def validate : Analyze Unit := do
  let s ← get
  let problems := s.relationships.flatMap (checkRelationship s.table)
  (problems ++ checkCycles s.table s.relationships).forM report

end Uml.Analyze

namespace Uml

structure Pass where
  name : Bytes
  run : Analyze Unit

def passes (typing : Typing) (p : Program) : List Pass := [
  ⟨"discovery", Analyze.discover p⟩,
  ⟨"definition", Analyze.define p⟩,
  ⟨"resolution", Analyze.resolve p⟩,
  ⟨"inference", Analyze.infer typing⟩,
  ⟨"validate", Analyze.validate⟩]

def passStates (typing : Typing) (p : Program) : List (Bytes × Session) :=
  let step := fun (s, done) (pass : Pass) =>
    let s := (pass.run.run s).2
    (s, done ++ [(pass.name, s)])
  ((passes typing p).foldl step (({} : Session), [])).2

def analyze (typing : Typing) (p : Program) : Session :=
  ((passStates typing p).getLast?.map (·.2)).getD {}

end Uml
