import Uml.Diagram.Basic

/-! A diagram as text: one line for each entity, member and relationship. -/
namespace Uml.Diagram

def sigil (visibility : Bytes) : Bytes :=
  ([("public", "+"), ("private", "-"), ("protected", "#"), ("package", "~")] :
    List (Bytes × Bytes)).lookup visibility |>.getD []

/-- Items in braces, unless there are none. -/
def braced (items : List Bytes) : Bytes :=
  .when (!items.isEmpty) (" \x7b" ++ Bytes.join ", " items ++ "\x7d")

def Param.text (p : Param) : Bytes := p.name ++ ": " ++ p.type

def memberBounds : Option MemberBounds → Bytes
  | some b => " [" ++ b.render ++ "]"
  | none => []

def Member.line (m : Member) : Bytes :=
  "  " ++ sigil m.visibility ++ m.name
    ++ .when (m.kind = MemberKind.operation.name) ("(" ++ Bytes.join ", " (m.params.map (·.text)) ++ ")")
    ++ .when (!m.type.isEmpty) (": " ++ m.type)
    ++ memberBounds m.multiplicity ++ braced m.constraints ++ "\n"

def Entity.lines (e : Entity) : Bytes :=
  Bytes.concat (e.modifiers.map (· ++ [0x20])) ++ e.kind ++ " " ++ e.fqn
    ++ .when (!e.typeParams.isEmpty) ("<" ++ Bytes.join ", " e.typeParams ++ ">")
    ++ .when e.isImplicit " (implicit)" ++ "\n"
    ++ Bytes.concat ((e.members.getD []).map (·.line))

def bounds : Option Bounds → Bytes
  | some b => " [" ++ b.render ++ "]"
  | none => []

def Relationship.line (r : Relationship) : Bytes :=
  r.source ++ bounds r.sourceMult ++ " " ++ r.kind ++ .when (!r.navigable) "(opaque)"
    ++ bounds r.targetMult ++ " " ++ r.target
    ++ .when (!r.role.isEmpty) (" via " ++ r.role)
    ++ .when (!r.label.isEmpty) (" " ++ Quoted.text r.label)
    ++ .when (!r.associationClass.isEmpty) (" class " ++ r.associationClass) ++ "\n"

def Constraint.line (c : Constraint) : Bytes :=
  "constraint " ++ c.kind ++ " \x7b" ++ Bytes.join ", " (c.targets.getD []) ++ "\x7d\n"

def Note.line (n : Note) : Bytes :=
  "note " ++ Quoted.text n.text
    ++ .when (!n.anchors.isEmpty) (" on " ++ Bytes.join ", " n.anchors) ++ "\n"

def configLine (entry : Bytes × Value) : Bytes :=
  "  " ++ entry.1 ++ " = " ++ entry.2.render ++ "\n"

def configLines (c : Config) : Bytes :=
  .when (!c.isEmpty) ("\nconfig\n" ++ Bytes.concat (c.map configLine))

def dump (d : Diagram) : Bytes :=
  let relationships := d.relationships.getD []
  Bytes.concat ((d.entities.getD []).map (·.lines))
    ++ .when (!relationships.isEmpty) "\n"
    ++ Bytes.concat (relationships.map (·.line))
    ++ Bytes.concat ((d.constraints.getD []).map (·.line))
    ++ Bytes.concat (d.notes.map (·.line))
    ++ configLines (d.config.getD [])

end Uml.Diagram
