import Uml.Analysis.Session
import Uml.Diagram.Basic
import Uml.Source.File

/-! From the analysis of a document to its diagram. -/
namespace Uml.Diagram

/-- Where a span starts; the zero span stands for no place. -/
def locate (fs : FileSet) (s : Span) : Option Location :=
  if s = {} then none
  else (fs.get? s.file).map fun f =>
    let p := f.position s.start
    ⟨fs.displayPath f, p.line, p.column⟩

def constraintText (c : InlineConstraint) : Bytes :=
  if c.arg.isEmpty then c.name else c.name ++ ": " ++ c.arg

def Member.ofEntityMember (fs : FileSet) (m : EntityMember) : Member where
  name := m.name
  kind := m.kind.name
  visibility := m.visibility.name
  modifiers := m.modifiers.names
  type := m.typeText
  multiplicity := MemberBounds.ofText? m.mult.raw
  params := m.params.map fun p =>
    { name := p.name, type := p.typeText, multiplicity := MemberBounds.ofText? p.mult }
  label := m.label
  doc := m.doc
  constraints := m.constraints.map constraintText
  location := locate fs m.span

/-- An implicit entity has no place. -/
def Entity.ofEntity (fs : FileSet) (e : Uml.Entity) : Entity where
  fqn := e.fqn
  name := e.name
  kind := e.kind.name
  ns := e.ns
  modifiers := e.modifiers.names
  isImplicit := e.isImplicit
  typeParams := e.typeParams
  doc := e.doc
  members := some (e.members.map (.ofEntityMember fs))
  location := if e.isImplicit then none else locate fs e.span

def Relationship.ofRelationship (fs : FileSet) (r : Uml.Relationship) : Relationship where
  source := r.source
  target := r.target
  kind := r.kind.name
  navigable := r.navigable
  sourceMult := r.sourceMult.map .ofMultiplicity
  targetMult := r.targetMult.map .ofMultiplicity
  label := r.label
  role := r.role
  constraints := r.constraints
  associationClass := r.associationClass
  toPackage := r.toPackage
  isInferred := r.origin = .member
  location := locate fs r.span

/-- The diagram of an analysed document. Config that the document does not set is taken from
`defaults`. -/
def assemble (s : Session) (fs : FileSet) (defaults : Config) : Diagram where
  entities := some (s.table.entities.map (.ofEntity fs))
  relationships := some (s.relationships.map (.ofRelationship fs))
  constraints := some (s.constraints.map fun c => { kind := c.kind, targets := some c.targets })
  notes := s.notes.map fun n => { text := n.text, anchors := n.anchors }
  config := some ((Config.setAll [] defaults).setAll
    (s.config.map fun c => (c.key, .ofLiteral c.kind c.value)))

end Uml.Diagram
