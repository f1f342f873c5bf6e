import Uml.Json.Record
import Uml.Source.File
import Uml.Syntax.Statement
import Uml.Token.Basic

/-!
# Tokens and trees

Lists of tokens, for people and in JSON; both end with the end of the file. Syntax trees as outlines:
nodes with a type, a kind, a text and fields in order of name.
-/
namespace Uml

def Span.toJson (s : Span) : Json :=
  .object [("File", .nat s.file), ("Start", .nat s.start), ("End", .nat s.stop)]

namespace Tokens

def upToEnd : List Token → List Token
  | [] => []
  | t :: rest => if t.kind = .eof then [t] else t :: upToEnd rest

def prettyLine (fs : FileSet) (i : Nat) (t : Token) : Bytes :=
  let (start, stop) := (fs.resolve? t.span).getD ({}, {})
  Bytes.padLeft 3 (.ofNat i) ++ ": " ++ Bytes.padRight 15 t.kind.name
    ++ .when (!t.text.isEmpty) (" " ++ Quoted.text t.text)
    ++ " at " ++ start.render ++ "-" ++ stop.render ++ "\n"

def pretty (fs : FileSet) (ts : List Token) : Bytes :=
  Bytes.concat (((upToEnd ts).zipIdx 1).map fun (t, i) => prettyLine fs i t)

def tokenJson (t : Token) : Json :=
  .object (Json.always "kind" (.string t.kind.name) ++ Json.text "text" t.text
    ++ Json.always "span" t.span.toJson ++ Json.always "line" (.nat t.position.line)
    ++ Json.always "column" (.nat t.position.column))

def json (ts : List Token) : Json := .array ((upToEnd ts).map tokenJson)

end Tokens

inductive Outline where
  | node (type kind text : Bytes) (span : Span) (fields : List (Bytes × Bytes))
    (children : List Outline)
  deriving Inhabited

namespace Outline

def field (name : String) (value : Bytes) : List (Bytes × Bytes) :=
  if value.isEmpty then [] else [(Bytes.ofString name, value)]

def sortFields (fields : List (Bytes × Bytes)) : List (Bytes × Bytes) :=
  fields.mergeSort fun a b => Bytes.le a.1 b.1

def typeField (t : Option TypeExpr) : List (Bytes × Bytes) :=
  (t.map fun t => (Bytes.ofString "type", t.render)).toList

def leaf (type : String) (text : Bytes) (span : Span) (fields : List (Bytes × Bytes)) : Outline :=
  .node (Bytes.ofString type) [] text span fields []

def ofParam (p : Param) : Outline :=
  leaf "Param" p.name p.span (typeField p.type?)

def ofConstraint (c : InlineConstraint) : Outline :=
  leaf "Constraint" c.name c.span (field "arg" c.arg)

def ofMember (m : Member) : Outline :=
  let fields := field "visibility" m.visibility.name
    ++ field "modifiers" (Bytes.join "," m.modifiers.names)
    ++ typeField m.type?
    ++ field "mult" m.mult.raw
    ++ field "rel" ((m.operator?.map (·.name)).getD [])
  .node "Member" m.kind.name m.name m.span (sortFields fields)
    (m.params.map ofParam ++ m.constraints.map ofConstraint)

def multFields (source target : RawMult) : List (Bytes × Bytes) :=
  field "from" source.raw ++ field "to" target.raw

def ofLink (type : String) (l : Link) : Outline :=
  let fields := multFields l.fromMult l.toMult ++ field "label" l.label
  .node (Bytes.ofString type) l.op.name l.target.name l.span (sortFields fields)
    (l.members.map ofMember)

def targetText (r : ConstraintRef) : Bytes :=
  if r.member.isEmpty then r.entity else r.entity ++ "." ++ r.member

def ofDecl : Decl → Bytes × Bytes × List (Bytes × Bytes) × List Outline
  | .entity e =>
    (e.kind.name, e.name, field "modifiers" (Bytes.join "," e.modifiers.names),
      e.typeParams.map (fun p => leaf "TypeParam" p.name p.span [])
        ++ e.headers.map (ofLink "RelHeader") ++ e.members.map ofMember)
  | .relationship head links => ([], head.name, [], links.map (ofLink "Link"))
  | .association a =>
    (a.op.name, a.name,
      ("left", a.left.name) :: ("right", a.right.name) :: multFields a.leftMult a.rightMult,
      a.members.map ofMember)
  | .constraint c => (c.kind, [], [], c.targets.map fun r => leaf "Target" (targetText r) r.span [])
  | .note text anchors => ([], text, [], anchors.map fun a => leaf "Anchor" a.name a.span [])
  | .config entries =>
    ([], [], [], entries.map fun e =>
      .node "Entry" e.key e.value (e.keySpan.cover e.valueSpan) [] [])
  | .comment text isDoc => (if isDoc then "doc" else [], text, [], [])

mutual
def ofStatement : Statement → Outline
  | .package tag name _ body =>
    .node "Package" [] name tag.span (field "doc" tag.doc) (ofStatements body)
  | .decl tag d =>
    let (kind, text, fields, children) := ofDecl d
    .node (Statement.decl tag d).kindName kind text tag.span
      (sortFields (field "doc" tag.doc ++ fields)) children

def ofStatements : List Statement → List Outline
  | [] => []
  | s :: rest => ofStatement s :: ofStatements rest
end

def ofProgram (p : Program) : Outline := .node "Program" [] [] p.span [] (ofStatements p.statements)

/-- A span by lines and columns, or by offsets where no file set is at hand. -/
def spanText (fs : Option FileSet) (s : Span) : Bytes :=
  match fs.bind (·.resolve? s) with
  | some (start, stop) => start.render ++ "-" ++ stop.render
  | none => "span(" ++ Bytes.ofNat s.start ++ "-" ++ Bytes.ofNat s.stop ++ ")"

def label (fs : Option FileSet) (type kind text : Bytes) (span : Span)
    (fields : List (Bytes × Bytes)) : Bytes :=
  type ++ .when (!kind.isEmpty) (" " ++ kind) ++ .when (!text.isEmpty) (" " ++ Quoted.text text)
    ++ Bytes.concat (fields.map fun (k, v) => " " ++ k ++ "=" ++ v)
    ++ .when (span ≠ {}) (" (span: " ++ spanText fs span ++ ")")

mutual
/-- A node and what is below it; `lead` stands before each line. -/
def renderNode (fs : Option FileSet) (lead : Bytes) (isLast : Bool) : Outline → Bytes
  | .node type kind text span fields children =>
    let (branch, next) : Bytes × Bytes := if isLast then ("└─ ", "   ") else ("├─ ", "│  ")
    lead ++ branch ++ label fs type kind text span fields ++ "\n"
      ++ renderNodes fs (lead ++ next) children

def renderNodes (fs : Option FileSet) (lead : Bytes) : List Outline → Bytes
  | [] => []
  | [n] => renderNode fs lead true n
  | n :: rest => renderNode fs lead false n ++ renderNodes fs lead rest
end

def pretty (p : Program) (fs : Option FileSet) : Bytes :=
  let header := match fs with
    | some fs => ((fs.get? p.span.file).map fs.displayPath).getD "Program"
    | none => Bytes.ofString "Program"
  header ++ " (span: " ++ spanText fs p.span ++ ")\n"
    ++ renderNodes fs [] (ofStatements p.statements)

mutual
def toJson : Outline → Json
  | .node type kind text span fields children =>
    .object (Json.always "type" (.string type) ++ Json.text "kind" kind
      ++ Json.always "span" span.toJson ++ Json.text "text" text
      ++ Json.given "children" (!children.isEmpty) (.array (toJsons children))
      ++ Json.given "fields" (!fields.isEmpty)
        (.object (fields.map fun (k, v) => (k, .string v))))

def toJsons : List Outline → List Json
  | [] => []
  | n :: rest => toJson n :: toJsons rest
end

end Outline
end Uml
