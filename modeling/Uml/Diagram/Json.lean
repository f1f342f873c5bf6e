import Uml.Diagram.Basic
import Uml.Json.Record

/-!
# Diagrams in JSON

Empty texts and lists are left out where a reader can do without them. Reading accepts what
writing produces, and documents that leave fields out.
-/
namespace Uml.Diagram

open Uml.Json (always given text texts)

/-- A list that may be missing altogether. -/
def listJson {α : Type} (toJson : α → Json) : Option (List α) → Json
  | none => .null
  | some l => .array (l.map toJson)

def optionField {α : Type} (name : String) (toJson : α → Json) : Option α → List (Bytes × Json)
  | none => []
  | some a => always name (toJson a)

def boundsJson (b : Bounds) : Json :=
  .object (always "lower" (.int b.lower)
    ++ always "upper" (if b.upper = Bounds.unbounded then .string "*" else .int b.upper))

def memberBoundsJson : MemberBounds → Json
  | .single s => .string s
  | .range b => boundsJson b

def locationJson (l : Location) : Json :=
  .object (text "file" l.file ++ always "line" (.nat l.line) ++ always "column" (.nat l.column))

def Param.toJson (p : Param) : Json :=
  .object (always "name" (.string p.name) ++ text "type" p.type
    ++ optionField "multiplicity" memberBoundsJson p.multiplicity)

def Member.toJson (m : Member) : Json :=
  .object (always "name" (.string m.name) ++ always "kind" (.string m.kind)
    ++ text "visibility" m.visibility ++ texts "modifiers" m.modifiers ++ text "type" m.type
    ++ optionField "multiplicity" memberBoundsJson m.multiplicity
    ++ given "params" (!m.params.isEmpty) (.array (m.params.map (·.toJson)))
    ++ text "label" m.label ++ text "doc" m.doc ++ texts "constraints" m.constraints
    ++ optionField "loc" locationJson m.location)

def Entity.toJson (e : Entity) : Json :=
  .object (always "fqn" (.string e.fqn) ++ always "name" (.string e.name)
    ++ always "kind" (.string e.kind) ++ text "namespace" e.ns ++ texts "modifiers" e.modifiers
    ++ given "implicit" e.isImplicit (.bool true) ++ texts "typeParams" e.typeParams
    ++ text "doc" e.doc ++ always "members" (listJson (·.toJson) e.members)
    ++ optionField "loc" locationJson e.location)

def Relationship.toJson (r : Relationship) : Json :=
  .object (always "from" (.string r.source) ++ always "to" (.string r.target)
    ++ always "kind" (.string r.kind) ++ always "navigable" (.bool r.navigable)
    ++ optionField "fromMultiplicity" boundsJson r.sourceMult
    ++ optionField "toMultiplicity" boundsJson r.targetMult
    ++ text "label" r.label ++ text "role" r.role ++ texts "constraints" r.constraints
    ++ text "associationClass" r.associationClass ++ given "toPackage" r.toPackage (.bool true)
    ++ given "inferred" r.isInferred (.bool true) ++ optionField "loc" locationJson r.location)

def Constraint.toJson (c : Constraint) : Json :=
  .object (always "kind" (.string c.kind) ++ always "targets" (listJson .string c.targets))

def Note.toJson (n : Note) : Json :=
  .object (always "text" (.string n.text) ++ texts "anchors" n.anchors)

def configJson? : Option Config → Option Json
  | none => some .null
  | some c => (Value.entriesToJson? c).map .object

/-- The JSON form of a diagram; there is none if its config holds a number without one. -/
def toJson? (d : Diagram) : Option Json := do
  let config ← configJson? d.config
  return .object (always "entities" (listJson (·.toJson) d.entities)
    ++ always "relationships" (listJson (·.toJson) d.relationships)
    ++ always "constraints" (listJson (·.toJson) d.constraints)
    ++ given "notes" (!d.notes.isEmpty) (.array (d.notes.map (·.toJson)))
    ++ always "config" config)

open Uml.Json (Field readRecord readPointer readList readText readFlag readInt readWord)

/-- A list that counts as empty when it is missing. -/
def readPlainList {σ : Type} (read : σ → Json → Option σ) (zero : σ) (old : List σ) (v : Json) :
    Option (List σ) :=
  (readList read zero (some old) v).map (·.getD [])

def readTexts (old : List Bytes) (v : Json) : Option (List Bytes) := readPlainList readText [] old v

/-- An upper bound: a number, or a star for none. -/
def readUpper : Json → Option Int
  | .string s => if s = Bytes.ofString "*" then some Bounds.unbounded else none
  | .number text => Bytes.toInt64? text
  | _ => none

def readBounds : Bounds → Json → Option Bounds := readRecord [
  ⟨"lower", fun b v => (readInt b.lower v).map ({ b with lower := · })⟩,
  ⟨"upper", fun b v => (readUpper v).map ({ b with upper := · })⟩]

/-- A member's multiplicity starts anew whatever was there. -/
def readMemberBounds (_ : MemberBounds) : Json → Option MemberBounds
  | .string s => some (.single s)
  | v => (readBounds {} v).map .range

def readLocation : Location → Json → Option Location := readRecord [
  ⟨"file", fun l v => (readText l.file v).map ({ l with file := · })⟩,
  ⟨"line", fun l v => (readWord l.line v).map ({ l with line := · })⟩,
  ⟨"column", fun l v => (readWord l.column v).map ({ l with column := · })⟩]

def readParam : Param → Json → Option Param := readRecord [
  ⟨"name", fun p v => (readText p.name v).map ({ p with name := · })⟩,
  ⟨"type", fun p v => (readText p.type v).map ({ p with type := · })⟩,
  ⟨"multiplicity", fun p v =>
    (readPointer readMemberBounds default p.multiplicity v).map ({ p with multiplicity := · })⟩]

def readMember : Member → Json → Option Member := readRecord [
  ⟨"name", fun m v => (readText m.name v).map ({ m with name := · })⟩,
  ⟨"kind", fun m v => (readText m.kind v).map ({ m with kind := · })⟩,
  ⟨"visibility", fun m v => (readText m.visibility v).map ({ m with visibility := · })⟩,
  ⟨"modifiers", fun m v => (readTexts m.modifiers v).map ({ m with modifiers := · })⟩,
  ⟨"type", fun m v => (readText m.type v).map ({ m with type := · })⟩,
  ⟨"multiplicity", fun m v =>
    (readPointer readMemberBounds default m.multiplicity v).map ({ m with multiplicity := · })⟩,
  ⟨"params", fun m v => (readPlainList readParam {} m.params v).map ({ m with params := · })⟩,
  ⟨"label", fun m v => (readText m.label v).map ({ m with label := · })⟩,
  ⟨"doc", fun m v => (readText m.doc v).map ({ m with doc := · })⟩,
  ⟨"constraints", fun m v => (readTexts m.constraints v).map ({ m with constraints := · })⟩,
  ⟨"loc", fun m v => (readPointer readLocation {} m.location v).map ({ m with location := · })⟩]

def readEntity : Entity → Json → Option Entity := readRecord [
  ⟨"fqn", fun e v => (readText e.fqn v).map ({ e with fqn := · })⟩,
  ⟨"name", fun e v => (readText e.name v).map ({ e with name := · })⟩,
  ⟨"kind", fun e v => (readText e.kind v).map ({ e with kind := · })⟩,
  ⟨"namespace", fun e v => (readText e.ns v).map ({ e with ns := · })⟩,
  ⟨"modifiers", fun e v => (readTexts e.modifiers v).map ({ e with modifiers := · })⟩,
  ⟨"implicit", fun e v => (readFlag e.isImplicit v).map ({ e with isImplicit := · })⟩,
  ⟨"typeParams", fun e v => (readTexts e.typeParams v).map ({ e with typeParams := · })⟩,
  ⟨"doc", fun e v => (readText e.doc v).map ({ e with doc := · })⟩,
  ⟨"members", fun e v => (readList readMember {} e.members v).map ({ e with members := · })⟩,
  ⟨"loc", fun e v => (readPointer readLocation {} e.location v).map ({ e with location := · })⟩]

def readRelationship : Relationship → Json → Option Relationship := readRecord [
  ⟨"from", fun r v => (readText r.source v).map ({ r with source := · })⟩,
  ⟨"to", fun r v => (readText r.target v).map ({ r with target := · })⟩,
  ⟨"kind", fun r v => (readText r.kind v).map ({ r with kind := · })⟩,
  ⟨"navigable", fun r v => (readFlag r.navigable v).map ({ r with navigable := · })⟩,
  ⟨"fromMultiplicity", fun r v =>
    (readPointer readBounds {} r.sourceMult v).map ({ r with sourceMult := · })⟩,
  ⟨"toMultiplicity", fun r v =>
    (readPointer readBounds {} r.targetMult v).map ({ r with targetMult := · })⟩,
  ⟨"label", fun r v => (readText r.label v).map ({ r with label := · })⟩,
  ⟨"role", fun r v => (readText r.role v).map ({ r with role := · })⟩,
  ⟨"constraints", fun r v => (readTexts r.constraints v).map ({ r with constraints := · })⟩,
  ⟨"associationClass", fun r v =>
    (readText r.associationClass v).map ({ r with associationClass := · })⟩,
  ⟨"toPackage", fun r v => (readFlag r.toPackage v).map ({ r with toPackage := · })⟩,
  ⟨"inferred", fun r v => (readFlag r.isInferred v).map ({ r with isInferred := · })⟩,
  ⟨"loc", fun r v => (readPointer readLocation {} r.location v).map ({ r with location := · })⟩]

def readConstraint : Constraint → Json → Option Constraint := readRecord [
  ⟨"kind", fun c v => (readText c.kind v).map ({ c with kind := · })⟩,
  ⟨"targets", fun c v => (readList readText [] c.targets v).map ({ c with targets := · })⟩]

def readNote : Note → Json → Option Note := readRecord [
  ⟨"text", fun n v => (readText n.text v).map ({ n with text := · })⟩,
  ⟨"anchors", fun n v => (readTexts n.anchors v).map ({ n with anchors := · })⟩]

/-- Config is added to what is there. -/
def readConfig (old : Option Config) : Json → Option (Option Config)
  | .null => some none
  | .object ms => (Value.membersOfJson? ms).map fun entries =>
      some (Config.setAll (old.getD []) entries)
  | _ => none

def readDiagram : Diagram → Json → Option Diagram := readRecord [
  ⟨"entities", fun d v => (readList readEntity {} d.entities v).map ({ d with entities := · })⟩,
  ⟨"relationships", fun d v =>
    (readList readRelationship {} d.relationships v).map ({ d with relationships := · })⟩,
  ⟨"constraints", fun d v =>
    (readList readConstraint {} d.constraints v).map ({ d with constraints := · })⟩,
  ⟨"notes", fun d v => (readPlainList readNote {} d.notes v).map ({ d with notes := · })⟩,
  ⟨"config", fun d v => (readConfig d.config v).map ({ d with config := · })⟩]

def ofJson? (v : Json) : Option Diagram := readDiagram {} v

end Uml.Diagram
