import Uml.Parser.Declaration

/-!
# Parsing statements

At each statement the rules are tried in order and the first that accepts wins. A statement that
no rule can read is reported and skipped. Parsing always ends at the end of the file.
-/
namespace Uml.Parse

def commentStatement : Parse (Option Statement) := do
  let t ← advanceRaw
  return some (← newDecl t.span (.comment t.text false))

/-- Reads a documentation comment and the statement that it documents. Without one it is kept as a
comment. -/
def documented (statement : Parse (Option Statement)) : Parse (Option Statement) := do
  let t ← advanceRaw
  let dangling : Parse (Option Statement) := do
    return some (← newDecl t.span (.comment t.text true))
  let next ← peekRaw
  if next.kind = .eof || next.kind = .rbrace then
    warning .danglingDoc t.span "documentation comment is not followed by a declaration"
    dangling
  else
    match ← statement with
    | some s => return some (s.withDoc (Literal.docText t.text))
    | none => dangling

def canStart (rules : List Rule) (s : Stream) : Bool :=
  s.peekRaw.isTrivia || rules.any (·.canStart s)

def syncRound (rules : List Rule) (depth : Nat) : Parse (Round Nat) := do
  match (← peekRaw).kind with
  | .eof => return .stop depth
  | .lbrace =>
    let _ ← advanceRaw
    return .again (depth + 1)
  | .rbrace =>
    if depth = 0 then
      if (← get).depth = 0 then
        let _ ← advanceRaw
      return .stop depth
    let _ ← advanceRaw
    return if depth = 1 then .stop 0 else .again (depth - 1)
  | _ =>
    if depth = 0 && canStart rules (← stream) then return .stop depth
    let _ ← advanceRaw
    return .again depth

/-- Skips a broken statement. At least one token is taken; then the skip ends behind a brace that
closes one opened during the skip, before the brace of an enclosing package, or where a rule can
start. -/
def sync (rules : List Rule) (start : Stream) : Parse Unit := do
  if !(← movedFrom start) then
    let t ← advanceRaw
    if t.kind = .rbrace || t.kind = .eof then return
  discard <| loop 0 (syncRound rules)

/-- Tries the rules in turn at `start`; `all` are the rules that a skip looks for. -/
def firstRule (all : List Rule) (statement : Parse (Option Statement)) (start : Stream) :
    List Rule → Parse (Option Statement)
  | [] => do
    let t ← peekRaw
    error .unexpectedStatement t.span
      ("unexpected " ++ t.describe ++ ", expected a declaration or relationship")
    sync all start
    return none
  | rule :: rules => do
    if rule.canStart (← stream) then
      match ← rule.parse statement with
      | .ok found =>
        if ← movedFrom start then return found
        reset start
        firstRule all statement start rules
      | .error .noMatch =>
        reset start
        firstRule all statement start rules
      | .error failure =>
        reportFailure failure
        sync all start
        return none
    else firstRule all statement start rules

/-- One statement, or a semicolon; inside a package the closing brace ends the list. -/
def statementRound (statement : Parse (Option Statement)) (nested : Bool)
    (found : Array Statement) : Parse (Round (Array Statement)) := do
  let raw ← peekRaw
  match raw.kind with
  | .eof => return .stop found
  | .rbrace =>
    if nested then return .stop found
    error .unexpectedToken raw.span "unexpected '\x7d' at top level"
    let _ ← advanceRaw
    return .again found
  | .semicolon =>
    let _ ← advanceRaw
    return .again found
  | _ =>
    match ← statement with
    | some s => return .again (found.push s)
    | none => return .again found

/-- Reads statements: all of them, or, inside a package, up to its closing brace. -/
def statements (statement : Parse (Option Statement)) (nested : Bool) : Parse (List Statement) :=
  return (← loop #[] (statementRound statement nested)).toList

/-- Reads a package; it is made after its body. -/
def package (g : Grammar) (statement : Parse (Option Statement)) :
    Parse (Except Failure (Option Statement)) := do
  let keyword ← advance
  match ← path? with
  | none =>
    return .error (← failure .expectIdentifier
      ("expected package name, got " ++ (← peek).describe))
  | some (name, nameSpan) =>
    match ← expect g .lbrace .unexpectedToken "expected '\x7b' after package name" with
    | none => return .error .reported
    | some opener =>
      modify fun st => { st with depth := st.depth + 1 }
      let body ← statements statement true
      modify fun st => { st with depth := st.depth - 1 }
      closeBrace opener ("package " ++ name)
      let span ← upToLast keyword.span
      return .ok (some (← newStatement fun id => .package { id, span } name nameSpan body))

/-- The rules of the plain notation; special forms come before general ones. -/
def builtinRules (g : Grammar) : List Rule := [
  ⟨"config", Stream.canStartConfig, fun _ => config⟩,
  ⟨"at-config", Stream.canStartAtConfig, fun _ => atConfig⟩,
  ⟨"constraint", Stream.canStartConstraint, fun _ => constraint⟩,
  ⟨"note", Stream.canStartNote, fun _ => note⟩,
  ⟨"association", Stream.canStartAssociation, fun _ => association g⟩,
  ⟨"package", Stream.canStartPackage, package g⟩,
  ⟨"entity", Stream.canStartEntity, fun _ => entity g⟩,
  ⟨"relationship", Stream.canStartRelationship, fun _ => relationship g⟩]

def allRules (g : Grammar) : List Rule := g.rules ++ builtinRules g

/-- A statement in which `inner` reads the nested ones. -/
def statementOver (g : Grammar) (inner : Parse (Option Statement)) : Parse (Option Statement) := do
  match (← peekRaw).kind with
  | .docComment => documented inner
  | .comment => commentStatement
  | _ => firstRule (allRules g) inner (← stream) (allRules g)

/-- A statement in which statements nest `depth` levels. -/
def statementWithin (g : Grammar) : Nat → Parse (Option Statement)
  | 0 => pure none
  | depth + 1 => statementOver g (statementWithin g depth)

/-- Reads a statement. Each level takes a token before it asks for the next one, so a depth beyond
the number of tokens is never reached. -/
def statement (g : Grammar) : Parse (Option Statement) := do
  statementWithin g ((← stream).rest.length + 1)

def document (g : Grammar) : Parse Program := do
  let first := (← peekRaw).span
  let body ← statements (statement g) false
  return ⟨first.cover (← peek).span, body⟩

end Uml.Parse

namespace Uml

structure Parsed where
  program : Program
  findings : List Diagnostic
  /-- How many errors there were, reported or not. -/
  errors : Nat
  /-- Every member made, in order. -/
  members : List Member

/-- Parses the tokens of a file. Errors beyond `maxErrors` are not reported; zero is no limit. -/
def parse (g : Grammar) (file : File) (tokens : List Token) (maxErrors : Nat) : Parsed :=
  let (program, st) := (Parse.document g).run { stream := .ofTokens tokens, file, maxErrors }
  { program, findings := st.findings.toList, errors := st.errors, members := st.members.toList }

end Uml
