import Uml.Parser.Reference

/-!
# Parsing type expressions

A type is a primary form and any number of suffixes. Nesting and suffixes are limited, and the
limit on nesting is what the recursion counts down.
-/
namespace Uml

/-- How deep types nest. -/
def maxTypeDepth : Nat := 64

/-- How many suffixes one type takes. -/
def maxTypeSuffixes : Nat := 64

namespace Parse

/-- The node for a missing type, an empty span before the next token. -/
def unknownType : Parse TypeExpr := do
  newType (← peek).span.before .unknown

/-- From the start of a type to the token taken last. -/
def typeSpan (base : TypeExpr) : Parse Span := upToLast base.span

/-- A type that has to be there, with `type` as the parser for it. -/
def requiredWith (type : Parse TypeExpr) (what : Bytes) : Parse TypeExpr := do
  let t ← type
  if t.isUnknown then
    error .expectType (← here)
      ("expected type for " ++ what ++ ", got " ++ (← peek).describe)
  pure t

def xorRound (type : Parse TypeExpr) (alternatives : Array TypeExpr) :
    Parse (Round (Array TypeExpr)) := do
  if ← isAtAny [.rbrace, .eof] then return .stop alternatives
  if ← isAtAny [.comma, .pipe] then
    let _ ← advance
    return .again alternatives
  let mark ← stream
  let t ← type
  if ← movedFrom mark then return .again (alternatives.push t)
  error .expectType (← here) ("expected type in xor union, got " ++ (← peek).describe)
  return .stop alternatives

/-- Reads `xor` and its alternatives in braces, divided by commas or bars. -/
def xorType (type : Parse TypeExpr) : Parse (Option TypeExpr) := do
  let keyword ← advance
  let opener ← advance
  let alternatives ← loop #[] (xorRound type)
  closeBrace opener "xor union"
  some <$> newType (← upToLast keyword.span) fun node => .union node alternatives.toList 0

def fieldRound (g : Grammar) (type : Parse TypeExpr) (fields : Array (FieldName × TypeExpr)) :
    Parse (Round (Array (FieldName × TypeExpr))) := do
  if ← isAtAny [.rbrace, .eof] then return .stop fields
  let t ← peek
  if t.kind = .comma || t.kind = .semicolon then
    let _ ← advance
    return .again fields
  if !t.isWord && t.kind ≠ .string then
    error .expectIdentifier t.span ("expected field name in object type, got " ++ t.describe)
    return .stop fields
  let _ ← advance
  let name := if t.kind = .string then Literal.value t.text else t.text
  let isOptional ← eat .question
  match ← expect g .colon .expectColon ("expected ':' after field " ++ name) with
  | none => return .stop fields
  | some _ =>
    let inner ← requiredWith type ("field " ++ name)
    return .again (fields.push (⟨name, isOptional, ← upToLast t.span⟩, inner))

def objectType (g : Grammar) (type : Parse TypeExpr) : Parse (Option TypeExpr) := do
  let opener ← advance
  let fields ← loop #[] (fieldRound g type)
  closeBrace opener "object type"
  some <$> newType (← upToLast opener.span) fun node => .object node fields.toList

/-- Reads a dotted name, or a string or number that stands for a type. -/
def pathType : Parse (Option TypeExpr) := do
  let t ← peek
  if t.kind = .string || t.kind = .number then
    let _ ← advance
    return some (← newType t.span fun node => .literal node t.text)
  match ← path? with
  | none => return none
  | some (name, span) => return some (← newType span fun node => .simple node name)

/-- Closes a list in angle brackets; a `>>` closes two. -/
def closeAngle (opener : Token) (place : Bytes) : Parse Unit := do
  if ← eat .gt then return
  if ← split then return
  error .unclosedAngle opener.span ("unclosed '<' in " ++ place)

def argumentRound (type : Parse TypeExpr) (args : Array TypeExpr) :
    Parse (Round (Array TypeExpr)) := do
  if ← isAtAny [.gt, .inherit, .eof] then return .stop args
  if ← eat .comma then return .again args
  let mark ← stream
  let t ← type
  if ← movedFrom mark then return .again (args.push t)
  return .stop args

def typeArguments (type : Parse TypeExpr) (base : TypeExpr) : Parse TypeExpr := do
  let opener ← advance
  let args ← loop #[] (argumentRound type)
  closeAngle opener "generic type"
  newType (← typeSpan base) fun node => .generic node base args.toList

def valueRound (opener : Token) (literals : Array Bytes) : Parse (Round (Array Bytes)) := do
  let t ← peek
  if t.kind = .rparen then
    let _ ← advance
    return .stop literals
  if t.kind = .pipe || t.kind = .comma then
    let _ ← advance
    return .again literals
  if t.isWord then
    let _ ← advance
    return .again (literals.push t.text)
  if t.kind = .string then
    let _ ← advance
    return .again (literals.push (Literal.value t.text))
  error .unclosedParen opener.span "unclosed '(' in enumerated type"
  return .stop literals

def enumeratedValues (base : TypeExpr) : Parse TypeExpr := do
  let opener ← advance
  let literals ← loop #[] (valueRound opener)
  newType (← typeSpan base) fun node => .enumerated node base literals.toList

def emptyBrackets (base : TypeExpr) : Parse TypeExpr := do
  let _ ← advance
  let _ ← advance
  newType (← typeSpan base) fun node => .array node base

def builtinPrimaries (g : Grammar) : List TypePrimary := [
  ⟨fun s => s.isAt .kwXor && s.kindAt 1 = .lbrace, xorType⟩,
  ⟨fun s => s.isAt .lbrace, objectType g⟩,
  ⟨fun s => s.isAtAny [.ident, .string, .number], fun _ => pathType⟩]

def isSimple : TypeExpr → Bool
  | .simple .. => true
  | _ => false

def builtinSuffixes : List TypeSuffix := [
  ⟨fun s _ => s.isAt .lt, typeArguments⟩,
  ⟨fun s base => s.isAt .lparen && isSimple base, fun _ => enumeratedValues⟩,
  ⟨fun s _ => s.isAt .lbracket && s.kindAt 1 = .rbracket, fun _ => emptyBrackets⟩]

def firstPrimary (type : Parse TypeExpr) : List TypePrimary → Parse (Option TypeExpr)
  | [] => pure none
  | form :: forms => do
    let mark ← stream
    if form.canStart mark then
      let found ← form.parse type
      if found.isSome && (← movedFrom mark) then return found
      reset mark
    firstPrimary type forms

def firstSuffix (type : Parse TypeExpr) (base : TypeExpr) :
    List TypeSuffix → Parse (Option TypeExpr)
  | [] => pure none
  | form :: forms => do
    let mark ← stream
    if form.canApply mark base then
      let found ← form.apply type base
      if ← movedFrom mark then return some found
      reset mark
    firstSuffix type base forms

/-- Applies suffixes until none applies, `n` at most. -/
def suffixes (type : Parse TypeExpr) (forms : List TypeSuffix) : Nat → TypeExpr → Parse TypeExpr
  | 0, base => pure base
  | n + 1, base => do
    match ← firstSuffix type base forms with
    | some t => suffixes type forms n t
    | none => pure base

/-- A type in which `inner` reads the nested ones. Where no form applies the answer is an unknown
type, and nothing is reported: whoever needs a type does that. -/
def typeOver (g : Grammar) (inner : Parse TypeExpr) : Parse TypeExpr := do
  match ← firstPrimary inner (g.primaries ++ builtinPrimaries g) with
  | none => unknownType
  | some base => suffixes inner (builtinSuffixes ++ g.suffixes) maxTypeSuffixes base

/-- A type that may nest `depth` levels. -/
def typeWithin (g : Grammar) : Nat → Parse TypeExpr
  | 0 => do
    error .expectType (← here) "type expression nested too deeply"
    unknownType
  | depth + 1 => typeOver g (typeWithin g depth)

def type (g : Grammar) : Parse TypeExpr := typeWithin g maxTypeDepth

def requiredType (g : Grammar) (what : Bytes) : Parse TypeExpr := requiredWith (type g) what

end Parse
end Uml
