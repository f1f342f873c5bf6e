import Uml.Diagram.Basic
import Uml.MessagePack.Reader

/-!
# Diagrams in MessagePack

Records are maps in a fixed order of fields; empty texts and lists are left out where a reader can
do without them. Lines and columns are words of 32 bits.
-/
namespace Uml

mutual
def Value.toMsg : Value → Msg
  | .null => .nil
  | .bool b => .bool b
  | .int n => .int64 n
  | .double d => .double d
  | .string s => .str s
  | .list items => .array (Value.itemsToMsg items)
  | .table entries => .map (Value.entriesToMsg entries)

def Value.itemsToMsg : List Value → List Msg
  | [] => []
  | v :: vs => v.toMsg :: Value.itemsToMsg vs

def Value.entriesToMsg : List (Bytes × Value) → List (Bytes × Msg)
  | [] => []
  | (k, v) :: rest => (k, v.toMsg) :: Value.entriesToMsg rest
end

mutual
def Value.ofMsg? : Msg → Option Value
  | .nil => some .null
  | .bool b => some (.bool b)
  | .int n => some (.int n)
  | .double d => some (.double d)
  | .str s => some (.string s)
  | .array items => (Value.itemsOfMsg? items).map .list
  | .map entries => (Value.entriesOfMsg? entries).map .table
  | _ => none

def Value.itemsOfMsg? : List Msg → Option (List Value)
  | [] => some []
  | m :: ms => do return (← Value.ofMsg? m) :: (← Value.itemsOfMsg? ms)

def Value.entriesOfMsg? : List (Bytes × Msg) → Option (List (Bytes × Value))
  | [] => some []
  | (k, m) :: rest => do return (k, ← Value.ofMsg? m) :: (← Value.entriesOfMsg? rest)
end

namespace Packed

def always (name : String) (m : Msg) : List (Bytes × Msg) := [(Bytes.ofString name, m)]

def whenGiven (name : String) (given : Bool) (m : Msg) : List (Bytes × Msg) :=
  if given then always name m else []

def text (name : String) (s : Bytes) : List (Bytes × Msg) := whenGiven name (!s.isEmpty) (.str s)

def texts (name : String) (l : List Bytes) : List (Bytes × Msg) :=
  whenGiven name (!l.isEmpty) (.array (l.map .str))

def flag (name : String) (b : Bool) : List (Bytes × Msg) := whenGiven name b (.bool true)

def list {α : Type} (f : α → Msg) : Option (List α) → Msg
  | none => .nil
  | some l => .array (l.map f)

def option {α : Type} (name : String) (f : α → Msg) : Option α → List (Bytes × Msg)
  | none => []
  | some a => always name (f a)

def bounds (b : Bounds) : Msg := .map (always "lower" (.int b.lower) ++ always "upper" (.int b.upper))

def memberBounds : MemberBounds → Msg
  | .single s => .map (text "text" s)
  | .range b => .map (always "range" (bounds b))

def location (l : Location) : Msg :=
  .map (text "file" l.file ++ always "line" (.uint32 l.line) ++ always "column" (.uint32 l.column))

def param (p : Diagram.Param) : Msg :=
  .map (always "name" (.str p.name) ++ text "type" p.type
    ++ option "multiplicity" memberBounds p.multiplicity)

def member (m : Diagram.Member) : Msg :=
  .map (always "name" (.str m.name) ++ always "kind" (.str m.kind) ++ text "visibility" m.visibility
    ++ texts "modifiers" m.modifiers ++ text "type" m.type
    ++ option "multiplicity" memberBounds m.multiplicity
    ++ whenGiven "params" (!m.params.isEmpty) (.array (m.params.map param))
    ++ text "label" m.label ++ text "doc" m.doc ++ texts "constraints" m.constraints
    ++ option "loc" location m.location)

def entity (e : Diagram.Entity) : Msg :=
  .map (always "fqn" (.str e.fqn) ++ always "name" (.str e.name) ++ always "kind" (.str e.kind)
    ++ text "namespace" e.ns ++ texts "modifiers" e.modifiers ++ flag "implicit" e.isImplicit
    ++ texts "type_params" e.typeParams ++ text "doc" e.doc
    ++ always "members" (list member e.members) ++ option "loc" location e.location)

def relationship (r : Diagram.Relationship) : Msg :=
  .map (always "from" (.str r.source) ++ always "to" (.str r.target) ++ always "kind" (.str r.kind)
    ++ always "navigable" (.bool r.navigable) ++ option "from_mult" bounds r.sourceMult
    ++ option "to_mult" bounds r.targetMult ++ text "label" r.label ++ text "role" r.role
    ++ texts "constraints" r.constraints ++ text "association_class" r.associationClass
    ++ flag "to_package" r.toPackage ++ flag "inferred" r.isInferred
    ++ option "loc" location r.location)

def constraint (c : Diagram.Constraint) : Msg :=
  .map (always "kind" (.str c.kind) ++ always "targets" (list .str c.targets))

def note (n : Diagram.Note) : Msg :=
  .map (always "text" (.str n.text) ++ texts "anchors" n.anchors)

def config : Option Config → Msg
  | none => .nil
  | some c => .map (Value.entriesToMsg c)

end Packed

def Diagram.toMsg (d : Diagram) : Msg :=
  .map (Packed.always "entities" (Packed.list Packed.entity d.entities)
    ++ Packed.always "relationships" (Packed.list Packed.relationship d.relationships)
    ++ Packed.always "constraints" (Packed.list Packed.constraint d.constraints)
    ++ Packed.whenGiven "notes" (!d.notes.isEmpty) (.array (d.notes.map Packed.note))
    ++ Packed.always "config" (Packed.config d.config))

namespace Unpacked

def text? : Msg → Option Bytes
  | .str s => some s
  | _ => none

def flag? : Msg → Option Bool
  | .bool b => some b
  | _ => none

def int? : Msg → Option Int
  | .int n => some n
  | _ => none

def nat? (m : Msg) : Option Nat := (int? m).map Int.toNat

def items? {α : Type} (f : Msg → Option α) : Msg → Option (List α)
  | .array l => l.mapM f
  | _ => none

def list? {α : Type} (f : Msg → Option α) : Msg → Option (Option (List α))
  | .nil => some none
  | m => (items? f m).map some

def need {α : Type} (m : Msg) (name : String) (f : Msg → Option α) : Option α := (m.get? name).bind f

def may {α : Type} (m : Msg) (name : String) (f : Msg → Option α) (absent : α) : Option α :=
  match m.get? name with
  | none => some absent
  | some v => f v

def some? {α : Type} (f : Msg → Option α) (m : Msg) : Option (Option α) := (f m).map some

def bounds (m : Msg) : Option Bounds := do
  return { lower := ← need m "lower" int?, upper := ← need m "upper" int? }

def memberBounds (m : Msg) : Option MemberBounds :=
  match m.get? "range" with
  | some r => (bounds r).map .range
  | none => (may m "text" text? []).map .single

def location (m : Msg) : Option Location := do
  return { file := ← may m "file" text? [], line := ← need m "line" nat?
           column := ← need m "column" nat? }

def param (m : Msg) : Option Diagram.Param := do
  return { name := ← need m "name" text?, type := ← may m "type" text? []
           multiplicity := ← may m "multiplicity" (some? memberBounds) none }

def member (m : Msg) : Option Diagram.Member := do
  return { name := ← need m "name" text?, kind := ← need m "kind" text?
           visibility := ← may m "visibility" text? []
           modifiers := ← may m "modifiers" (items? text?) []
           type := ← may m "type" text? []
           multiplicity := ← may m "multiplicity" (some? memberBounds) none
           params := ← may m "params" (items? param) []
           label := ← may m "label" text? [], doc := ← may m "doc" text? []
           constraints := ← may m "constraints" (items? text?) []
           location := ← may m "loc" (some? location) none }

def entity (m : Msg) : Option Diagram.Entity := do
  return { fqn := ← need m "fqn" text?, name := ← need m "name" text?, kind := ← need m "kind" text?
           ns := ← may m "namespace" text? [], modifiers := ← may m "modifiers" (items? text?) []
           isImplicit := ← may m "implicit" flag? false
           typeParams := ← may m "type_params" (items? text?) []
           doc := ← may m "doc" text? [], members := ← need m "members" (list? member)
           location := ← may m "loc" (some? location) none }

def relationship (m : Msg) : Option Diagram.Relationship := do
  return { source := ← need m "from" text?, target := ← need m "to" text?
           kind := ← need m "kind" text?, navigable := ← need m "navigable" flag?
           sourceMult := ← may m "from_mult" (some? bounds) none
           targetMult := ← may m "to_mult" (some? bounds) none
           label := ← may m "label" text? [], role := ← may m "role" text? []
           constraints := ← may m "constraints" (items? text?) []
           associationClass := ← may m "association_class" text? []
           toPackage := ← may m "to_package" flag? false
           isInferred := ← may m "inferred" flag? false
           location := ← may m "loc" (some? location) none }

def constraint (m : Msg) : Option Diagram.Constraint := do
  return { kind := ← need m "kind" text?, targets := ← need m "targets" (list? text?) }

def note (m : Msg) : Option Diagram.Note := do
  return { text := ← need m "text" text?, anchors := ← may m "anchors" (items? text?) [] }

def config : Msg → Option (Option Config)
  | .nil => some none
  | .map entries => (Value.entriesOfMsg? entries).map some
  | _ => none

end Unpacked

def Diagram.ofMsg? (m : Msg) : Option Diagram := do
  return { entities := ← Unpacked.need m "entities" (Unpacked.list? Unpacked.entity)
           relationships := ← Unpacked.need m "relationships" (Unpacked.list? Unpacked.relationship)
           constraints := ← Unpacked.need m "constraints" (Unpacked.list? Unpacked.constraint)
           notes := ← Unpacked.may m "notes" (Unpacked.items? Unpacked.note) []
           config := ← Unpacked.need m "config" Unpacked.config }

end Uml
