import Uml.Parser.TypeExpr

/-!
# Parsing members

The bodies of entities, association classes and relationship targets. A member ends at a
separator, at a closing brace or at the end of its line; a member that cannot be read is reported
and skipped up to there.
-/
namespace Uml.Parse

/-- Whether the member is complete: a separator, a closing brace or a later line is ahead. -/
def memberEnded : Parse Bool := do
  let t ← peek
  match t.kind with
  | .semicolon | .comma | .rbrace | .eof => return true
  | _ => return (← lineOf (← last).start) < t.position.line

def initializerRound (depth : Nat) : Parse (Round Nat) := do
  if ← isAt .eof then return .stop depth
  if depth = 0 && (← memberEnded) then return .stop depth
  match (← peek).kind with
  | .lbrace | .lparen | .lbracket =>
    let _ ← advance
    return .again (depth + 1)
  | .rbrace | .rparen | .rbracket =>
    if depth = 0 then return .stop depth
    let _ ← advance
    return .again (depth - 1)
  | _ =>
    let _ ← advance
    return .again depth

/-- Takes an initial value up to the end of the member. Brackets are taken as a whole, so a value
may span lines; a closing bracket too many is left. -/
def skipInitializer : Parse Unit := discard <| loop 0 initializerRound

/-- One modifier. A modifier word with no word or slash behind it is a name itself. -/
def memberModifierRound (mods : Modifiers) : Parse (Round Modifiers) := do
  let t ← peek
  let next ← peekAt 1
  match Modifier.ofMemberToken? t with
  | none => return .stop mods
  | some m =>
    if !next.isWord && next.kind ≠ .slash then return .stop mods
    if mods.has m then
      warning .unexpectedToken t.span ("duplicate modifier '" ++ t.text ++ "'")
    let _ ← advance
    return .again (mods.insert m)

/-- Reads modifiers before a name or type. -/
def memberModifiers : Parse Modifiers := loop {} memberModifierRound

/-- Reads a parameter: a name, and behind a colon its type and multiplicity. -/
def param (g : Grammar) : Parse Param := do
  let name ← advance
  if !(← eat .colon) then return { name := name.text, span := name.span }
  let _ ← memberModifiers
  let t ← requiredType g ("parameter " ++ name.text)
  let m ← if ← isAt .lbracket then mult else pure {}
  return { name := name.text, span := ← upToLast name.span, type? := some t, mult := m }

def paramRound (g : Grammar) (opener : Token) (found : Array Param) :
    Parse (Round (Array Param)) := do
  let t ← peek
  match t.kind with
  | .rparen =>
    let _ ← advance
    return .stop found
  | .comma =>
    let _ ← advance
    return .again found
  | .eof | .lbrace | .rbrace =>
    error .unclosedParen opener.span "unclosed '(' in parameter list"
    return .stop found
  | _ =>
    if t.isWord then return .again (found.push (← param g))
    error .expectIdentifier t.span ("expected parameter name, got " ++ t.describe)
    let _ ← advance
    return .again found

def params (g : Grammar) : Parse (List Param) := do
  let opener ← advance
  return (← loop #[] (paramRound g opener)).toList

/-- Reads the argument of a constraint: a dotted name, a keyword, a string or a number. -/
def constraintArg (c : InlineConstraint) : Parse InlineConstraint := do
  let arg ← peek
  if arg.isWord then
    match ← path? with
    | some (name, span) => return { c with arg := name, span := c.span.cover span }
    | none =>
      let _ ← advance
      return { c with arg := arg.text, span := c.span.cover arg.span }
  if arg.kind = .string || arg.kind = .number then
    let _ ← advance
    return { c with arg := Literal.value arg.text, span := c.span.cover arg.span }
  return c

def inlineConstraintRound (found : Array InlineConstraint) :
    Parse (Round (Array InlineConstraint)) := do
  if ← isAtAny [.rbrace, .eof] then return .stop found
  let t ← peek
  if t.kind = .comma then
    let _ ← advance
    return .again found
  if !t.isWord then
    error .expectIdentifier t.span ("expected constraint name, got " ++ t.describe)
    let _ ← advance
    return .again found
  let _ ← advance
  let _ ← eat .colon
  return .again (found.push (← constraintArg { name := t.text, span := t.span }))

def inlineConstraints : Parse (List InlineConstraint) := do
  let opener ← advance
  let found ← loop #[] inlineConstraintRound
  closeBrace opener "member constraints"
  pure found.toList

def operator? : Parse (Option Kind) := do
  let t ← peek
  if t.isRelationship then
    let _ ← advance
    return some t.kind
  return none

def memberSuffix (g : Grammar) (m : Member) : Parse Member := do
  let preOp ← operator?
  let mods ← memberModifiers
  let t ← requiredType g m.name
  let multiplicity ← if ← isAt .lbracket then mult else pure {}
  let postOp ← operator?
  let label ← if ← isAt .string then pure (Literal.value (← advance).text) else pure []
  let constraints ← if ← isAt .lbrace then inlineConstraints else pure []
  return { m with
    preOp, modifiers := m.modifiers.union mods, type? := some t, mult := multiplicity, postOp, label,
    constraints }

def member (g : Grammar) : Parse (Except Failure Member) := do
  let start := (← peek).span
  let visibility := Visibility.ofKind (← peek).kind
  if visibility ≠ .unstated then let _ ← advance
  let mods ← memberModifiers
  let modifiers := if ← eat .slash then mods.insert .derived else mods
  let name ← peek
  if !name.isWord then
    return .error (← failure .expectMember ("expected member name, got " ++ name.describe))
  let _ ← advance
  let m : Member := { name := name.text, nameSpan := name.span, visibility, modifiers }
  let m ← if ← isAt .lparen then
      pure { m with kind := .operation, params := ← params g }
    else pure m
  if !(← isAt .colon) && !(← memberEnded) then
    let _ ← offer g .colon
  let m ← if ← eat .colon then memberSuffix g m else pure m
  .ok <$> newMember { m with span := ← upToLast start }

/-- Whether an enumeration literal is ahead: a word that is no member name. -/
def atEnumLiteral : Parse Bool := do
  let next ← kindAt 1
  return (← peek).isWord && next ≠ .colon && next ≠ .lparen

def enumLiteral : Parse Member := do
  let t ← advance
  newMember { kind := .literal, name := t.text, nameSpan := t.span, span := t.span }

def syncMemberRound (depth : Nat) : Parse (Round Nat) := do
  match (← peek).kind with
  | .eof => return .stop depth
  | .lbrace =>
    let _ ← advance
    return .again (depth + 1)
  | .rbrace =>
    if depth = 0 then return .stop depth
    let _ ← advance
    return .again (depth - 1)
  | .semicolon | .comma =>
    let _ ← advance
    return if depth = 0 then .stop depth else .again depth
  | _ =>
    if depth = 0 && (← memberEnded) then return .stop depth
    let _ ← advance
    return .again depth

/-- Skips to the next member: behind a separator, to a later line, or before the brace that closes
the body. At least one token is taken, unless the brace or the end is ahead. -/
def syncMember (start : Stream) : Parse Unit := do
  if !(← movedFrom start) then
    if ← isAtAny [.rbrace, .eof] then return
    let _ ← advance
  discard <| loop 0 syncMemberRound

/-- Checks that nothing else follows a member on its line, after the language had its chance. -/
def finishMember (g : Grammar) (start : Stream) : Parse Unit := do
  if ← memberEnded then return
  let offered ← offer g .semicolon
  if offered && (← memberEnded) then return
  error .unexpectedToken (← here) ("unexpected " ++ (← peek).describe ++ " after member")
  syncMember start

end Uml.Parse

namespace Uml.Stream

def canStartPackage (s : Stream) : Bool := s.isAt .kwPackage

/-- The offset behind the entity modifiers that start at offset `n`. -/
def scanModifiers (s : Stream) : Nat → Nat → Nat
  | 0, n => n
  | fuel + 1, n => if (s.kindAt n).isEntityModifier then scanModifiers s fuel (n + 1) else n

/-- The offset of the entity keyword, if modifiers and keyword of an entity are ahead. -/
def entityKeywordAt? (s : Stream) : Option Nat :=
  let n := s.scanModifiers s.rest.length 0
  if (s.kindAt n).isEntityKeyword then some n else none

def canStartEntity (s : Stream) : Bool := s.entityKeywordAt?.isSome

/-- An end of a relationship, a multiplicity or none, and an operator. -/
def canStartRelationship (s : Stream) : Bool :=
  let n := s.scanEndpoint 0
  0 < n && (s.kindAt (s.scanMult n)).isRelationship

/-- Whether offset `n` holds a name that is not the start of a member. -/
def namesDeclaration (s : Stream) (n : Nat) : Bool :=
  s.kindAt n = .ident && s.kindAt (n + 1) ≠ .colon && s.kindAt (n + 1) ≠ .lparen

/-- Whether a package, entity or relationship is ahead. -/
def atDeclaration (s : Stream) : Bool :=
  if s.canStartPackage then s.namesDeclaration 1
  else match s.entityKeywordAt? with
  | some n => s.namesDeclaration (n + 1)
  | none => s.canStartRelationship

end Uml.Stream

namespace Uml.Parse

/-- Whether a declaration starts a line. No member looks like one, so the brace that closes the
body is missing. -/
def atDeclarationStart : Parse Bool := do
  let s ← stream
  return (← lineOf s.lastSignificant.start) < s.peek.position.line && s.atDeclaration

/-- A documentation comment that waits for its member, and the stream before it. -/
structure PendingDoc where
  text : Bytes := []
  mark : Option Stream := none

/-- One member, or what stands between members. -/
def memberRound (g : Grammar) (isEnum : Bool) :
    Array Member × PendingDoc → Parse (Round (Array Member × PendingDoc))
  | (found, doc) => do
    let raw ← peekRaw
    match raw.kind with
    | .eof | .rbrace =>
      if !doc.text.isEmpty then
        warning .danglingDoc raw.span "documentation comment is not followed by a member"
      return .stop (found, doc)
    | .comment | .semicolon | .comma =>
      let _ ← advanceRaw
      return .again (found, doc)
    | .docComment =>
      let mark ← stream
      let _ ← advanceRaw
      return .again (found, ⟨Literal.docText raw.text, some mark⟩)
    | _ =>
      if ← atDeclarationStart then
        if !doc.text.isEmpty then
          if let some mark := doc.mark then reset mark
        return .stop (found, doc)
      let start ← stream
      let result ← if isEnum && (← atEnumLiteral) then .ok <$> enumLiteral else member g
      match result with
      | .error failure =>
        reportFailure failure
        syncMember start
        return .again (found, { doc with text := [] })
      | .ok m =>
        if !(← movedFrom start) then
          syncMember start
          return .again (found, doc)
        finishMember g start
        return .again (found.push { m with doc := doc.text }, { doc with text := [] })

/-- Reads members up to the closing brace, which is left. A body of an enumeration also holds bare
literals. -/
def memberList (g : Grammar) (isEnum : Bool) : Parse (List Member) := do
  let (found, _) ← loop (#[], {}) (memberRound g isEnum)
  pure found.toList

def entityBody (g : Grammar) (kind : EntityKind) (owner : Bytes) : Parse (List Member) := do
  let opener ← advance
  let members ← memberList g (kind = .enumeration)
  closeBrace opener (owner ++ " body")
  pure members

end Uml.Parse
