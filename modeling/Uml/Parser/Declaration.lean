import Uml.Parser.Member

/-!
# Statement forms

One parser for each form of the plain notation, except for packages, which hold statements.
-/
namespace Uml

namespace Stream

def canStartConfig (s : Stream) : Bool := s.isAt .kwConfig && s.kindAt 1 = .lbrace

def canStartAtConfig (s : Stream) : Bool := s.isAt .atSign && s.wordAt 1

def canStartConstraint (s : Stream) : Bool := s.isAt .kwConstraint

def canStartNote (s : Stream) : Bool := s.isAt .kwNote && s.kindAt 1 = .string

def canStartAssociation (s : Stream) : Bool := s.isAt .kwAssociation && s.kindAt 1 = .ident

end Stream

namespace Parse

def configValue? : Parse (Option (ValueKind × Bytes × Span)) := do
  let t ← peek
  let refuse : Parse (Option (ValueKind × Bytes × Span)) := do
    error .badConfigValue t.span
      ("config values must be strings, numbers, booleans or identifiers, got " ++ t.describe)
    return none
  match t.kind with
  | .string =>
    let _ ← advance
    return some (.string, Literal.value t.text, t.span)
  | .number =>
    let _ ← advance
    return some (.number, t.text, t.span)
  | .minus =>
    let next ← peekAt 1
    if next.kind = .number then
      let _ ← advance
      let _ ← advance
      return some (.number, "-" ++ next.text, t.span.cover next.span)
    refuse
  | .kwTrue | .kwFalse =>
    let _ ← advance
    return some (.bool, t.text, t.span)
  | .ident =>
    match ← path? with
    | some (name, span) => return some (.ident, name, span)
    | none => refuse
  | _ => refuse

def configEntry? : Parse (Option ConfigEntry) := do
  let key ← peek
  if !key.isWord && key.kind ≠ .string then
    error .expectIdentifier key.span ("expected config key, got " ++ key.describe)
    return none
  let name := if key.kind = .string then Literal.value key.text else key.text
  let _ ← advance
  if !(← isAtAny [.colon, .assign]) then
    error .expectColon (← here) ("expected ':' after config key " ++ Quoted.text name)
    return none
  let _ ← advance
  match ← configValue? with
  | none => return none
  | some (valueKind, value, valueSpan) =>
    return some { key := name, keySpan := key.span, valueKind, value, valueSpan }

def syncEntryRound (_ : Unit) : Parse (Round Unit) := do
  if ← isAtAny [.comma, .semicolon, .rbrace, .eof] then return .stop ()
  let _ ← advance
  return .again ()

/-- Skips the rest of a config entry that cannot be read. -/
def syncEntry : Parse Unit := loop () syncEntryRound

def configRound (entries : Array ConfigEntry) : Parse (Round (Array ConfigEntry)) := do
  if ← isAtAny [.rbrace, .eof] then return .stop entries
  if ← eat .comma then return .again entries
  if ← eat .semicolon then return .again entries
  match ← configEntry? with
  | some e => return .again (entries.push e)
  | none =>
    syncEntry
    return .again entries

def config : Parse (Except Failure (Option Statement)) := do
  let keyword ← advance
  let opener ← advance
  let entries ← loop #[] configRound
  closeBrace opener "config block"
  return .ok (some (← newDecl (← upToLast keyword.span) (.config entries.toList)))

/-- Reads a config entry behind an at sign. -/
def atConfig : Parse (Except Failure (Option Statement)) := do
  let sign ← advance
  match ← configEntry? with
  | none => return .error (← failure .badConfigValue "malformed '@' config entry")
  | some e => return .ok (some (← newDecl (← upToLast sign.span) (.config [e])))

/-- The last of several segments names a member. -/
def constraintRef (path : Bytes) (span : Span) : ConstraintRef :=
  match path.cutLast? 0x2E with
  | none => { entity := path, span }
  | some (entity, member) => { entity, member, span }

def targetRound (closer : Kind) (found : Except Failure (List ConstraintRef)) :
    Parse (Round (Except Failure (List ConstraintRef))) := do
  match found with
  | .error _ => return .stop found
  | .ok targets =>
    if ← isAtAny [closer, .eof, .rbrace] then return .stop found
    if ← eat .comma then return .again found
    match ← path? with
    | some (path, span) => return .again (.ok (targets ++ [constraintRef path span]))
    | none =>
      return .stop (.error
        (← failure .expectIdentifier ("expected constraint target, got " ++ (← peek).describe)))

def constraintTargets (closer : Kind) : Parse (Except Failure (List ConstraintRef)) :=
  loop (.ok []) (targetRound closer)

def constraint : Parse (Except Failure (Option Statement)) := do
  let keyword ← advance
  let kind ← peek
  if !kind.isWord then
    return .error (← failure .expectIdentifier
      ("expected constraint kind after 'constraint', got " ++ kind.describe))
  let _ ← advance
  let opener ← peek
  if opener.kind ≠ .lbrace && opener.kind ≠ .lparen then
    return .error (← failure .unexpectedToken
      ("expected '\x7b' or '(' after constraint kind, got " ++ opener.describe))
  let _ ← advance
  match ← constraintTargets (if opener.kind = .lparen then .rparen else .rbrace) with
  | .error failure => return .error failure
  | .ok targets =>
    if opener.kind = .lbrace then closeBrace opener "constraint"
    else if !(← eat .rparen) then
      error .unclosedParen opener.span "unclosed '(' in constraint"
    let span ← upToLast keyword.span
    if targets.isEmpty then
      warning .emptyConstraint span ("constraint " ++ kind.text ++ " has no targets")
    return .ok (some (← newDecl span (.constraint ⟨kind.text, kind.span, targets⟩)))

def anchorRound (found : Except Failure (List Anchor)) :
    Parse (Round (Except Failure (List Anchor))) := do
  match found with
  | .error _ => return .stop found
  | .ok anchors =>
    match ← path? with
    | none =>
      return .stop (.error (← failure .expectIdentifier
        ("expected note anchor after 'on', got " ++ (← peek).describe)))
    | some (name, span) =>
      let found := .ok (anchors ++ [⟨name, span⟩])
      return if ← eat .comma then .again found else .stop found

def noteAnchors : Parse (Except Failure (List Anchor)) := loop (.ok []) anchorRound

def note : Parse (Except Failure (Option Statement)) := do
  let keyword ← advance
  let text := Literal.value (← advance).text
  let anchors ← if ← eat .kwOn then noteAnchors else pure (.ok [])
  match anchors with
  | .error failure => return .error failure
  | .ok anchors => return .ok (some (← newDecl (← upToLast keyword.span) (.note text anchors)))

/-- Reads an association class: a name, two ends in parentheses and members or none. -/
def association (g : Grammar) : Parse (Except Failure (Option Statement)) := do
  let keyword ← advance
  let name ← advance
  let missingEnd : Parse (Except Failure (Option Statement)) := do
    return .error (← failure .expectIdentifier
      ("expected association end, got " ++ (← peek).describe))
  match ← expect g .lparen .unexpectedToken "expected '(' after association name" with
  | none => return .error .reported
  | some opener =>
    match ← endpoint? with
    | none => missingEnd
    | some left =>
      let leftMult ← mult
      let op ← peek
      if !op.isRelationship then
        return .error (← failure .expectRelationship
          ("expected relationship operator in association, got " ++ op.describe))
      let _ ← advance
      let rightMult ← mult
      match ← endpoint? with
      | none => missingEnd
      | some right =>
        if !(← eat .rparen) then
          error .unclosedParen opener.span ("unclosed '(' in association " ++ name.text)
        let members ← if ← isAt .lbrace then entityBody g .cls ("association " ++ name.text)
          else pure []
        return .ok (some (← newDecl (← upToLast keyword.span) (.association
          { name := name.text, nameSpan := name.span, left, leftMult, op := op.kind,
            opSpan := op.span, rightMult, right, members })))

def typeParamRound (found : Array TypeParam) : Parse (Round (Array TypeParam)) := do
  let t ← peek
  if t.kind ≠ .ident then return .stop found
  let _ ← advance
  let found := found.push ⟨t.text, t.span⟩
  return if ← eat .comma then .again found else .stop found

def typeParams : Parse (List TypeParam) := do
  let opener ← advance
  let found ← loop #[] typeParamRound
  closeAngle opener "type parameter list"
  pure found.toList

/-- Whether a relationship is ahead, with or without a multiplicity before its operator. -/
def atHeader : Parse Bool := do
  let s ← stream
  return s.peek.isRelationship || s.multThenOperator

/-- Reads the label of a link: a string, unless it is the multiplicity of a following link. -/
def linkLabel : Parse Bytes := do
  if (← isAt .string) && !(← kindAt 1).isRelationship then
    return Literal.value (← advance).text
  return []

def missingTarget (op : Token) : Parse Failure := do
  failure .expectIdentifier
    ("expected relationship target after '" ++ op.text ++ "', got " ++ (← peek).describe)

def header : Parse (Except Failure Link) := do
  let start := (← peek).span
  let fromMult ← mult
  let op ← advance
  let toMult ← mult
  match ← endpoint? with
  | none => return .error (← missingTarget op)
  | some target =>
    let toMult ← if (← isAt .lbracket) && !(← atHeader) && !toMult.isPresent then mult
      else pure toMult
    let label ← linkLabel
    return .ok { op := op.kind, opSpan := op.span, fromMult, toMult, target, label,
                 span := ← upToLast start }

def headerRound (found : Except Failure (List Link)) :
    Parse (Round (Except Failure (List Link))) := do
  match found with
  | .error _ => return .stop found
  | .ok links =>
    if !(← atHeader) then return .stop found
    match ← header with
    | .error failure => return .stop (.error failure)
    | .ok link => return .again (.ok (links ++ [link]))

def headers : Parse (Except Failure (List Link)) := loop (.ok []) headerRound

def entityModifierRound (mods : Modifiers) : Parse (Round Modifiers) := do
  let t ← peek
  match Modifier.ofKeyword? t.kind with
  | none => return .stop mods
  | some m =>
    let _ ← advance
    if mods.has m then
      warning .unexpectedToken t.span ("duplicate modifier '" ++ t.text ++ "'")
    return .again (mods.insert m)

def entityModifiers : Parse Modifiers := loop {} entityModifierRound

def entity (g : Grammar) : Parse (Except Failure (Option Statement)) := do
  let start := (← peek).span
  let modifiers ← entityModifiers
  let kind := (EntityKind.ofKeyword? (← advance).kind).getD .cls
  let name ← peek
  if name.kind ≠ .ident then
    return .error (← failure .expectIdentifier
      ("expected " ++ kind.name ++ " name, got " ++ name.describe))
  let _ ← advance
  let typeParams ← if ← isAt .lt then typeParams else pure []
  match ← headers with
  | .error failure => return .error failure
  | .ok headers =>
    let hasBody ← isAt .lbrace
    let members ← if hasBody then entityBody g kind name.text else pure []
    return .ok (some (← newDecl (← upToLast start) (.entity
      { kind, name := name.text, nameSpan := name.span, modifiers, typeParams, headers, members,
        hasBody })))

/-- Reads one link of a chain, whose source multiplicity is `fromMult`, and the source multiplicity
of the link behind it. -/
def chainLink (g : Grammar) (fromMult : RawMult) : Parse (Except Failure (Link × RawMult)) := do
  let op ← advance
  let toMult ← mult
  match ← endpoint? with
  | none => return .error (← missingTarget op)
  | some target =>
    let s ← stream
    let own := s.isAt .lbracket && !toMult.isPresent && 0 < s.scanMult 0 && !s.multThenOperator
    let toMult ← if own then mult else pure toMult
    let label ← linkLabel
    let members ← if ← isAt .lbrace then entityBody g .cls target.name else pure []
    let pending ← if (← stream).multThenOperator then mult else pure {}
    return .ok ({ op := op.kind, opSpan := op.span, fromMult, toMult, target, label, members,
                  span := ← upToLast op.span }, pending)

def chainRound (g : Grammar) (found : Except Failure (List Link × RawMult)) :
    Parse (Round (Except Failure (List Link × RawMult))) := do
  match found with
  | .error _ => return .stop found
  | .ok (links, pending) =>
    if !(← peek).isRelationship then return .stop found
    match ← chainLink g pending with
    | .error failure => return .stop (.error failure)
    | .ok (link, pending) => return .again (.ok (links ++ [link], pending))

/-- Reads links as long as an operator is ahead; `fromMult` belongs to the first. -/
def chain (g : Grammar) (fromMult : RawMult) : Parse (Except Failure (List Link)) :=
  return (← loop (.ok ([], fromMult)) (chainRound g)).map (·.1)

/-- Reads a chain of relationships. Behind a target a string is the label of the link, unless an
operator follows: then it is the source multiplicity of the next link. -/
def relationship (g : Grammar) : Parse (Except Failure (Option Statement)) := do
  let start := (← peek).span
  match ← endpoint? with
  | none => return .error .noMatch
  | some head =>
    let pending ← mult
    if !(← peek).isRelationship then
      return .error (← failure .expectRelationship
        ("expected relationship operator after " ++ head.name ++ ", got " ++ (← peek).describe))
    match ← chain g pending with
    | .error failure => return .error failure
    | .ok links => return .ok (some (← newDecl (← upToLast start) (.relationship head links)))

end Parse
end Uml
