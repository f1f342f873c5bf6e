import Uml.Language.Words
import Uml.Lexer.Matcher
import Uml.Typing.Meaning

/-!
# TypeScript

Value types, collections and utility types, and the notation that models take over: template literals,
words that export a declaration, `keyof` and `typeof`, `| null`, optional members and initial values.
-/
namespace Uml.TypeScript

def primitiveNames : List (Bytes × Bytes) := [
  ("string", "String"), ("number", "Real"), ("bigint", "Integer"), ("boolean", "Boolean"),
  ("symbol", "String"), ("null", "null"), ("undefined", "null"), ("unknown", "any"),
  ("never", "void"), ("object", "any"), ("any", "any"), ("void", "void"), ("Date", "Date"),
  ("RegExp", "String")]

def primitive? (name : Bytes) : Option Bytes := primitiveNames.lookup name

/-- Collections of their first argument. -/
def elementHeads : List Bytes := ["Array", "ReadonlyArray", "Set", "ReadonlySet", "Iterable"]

/-- Collections of their last argument. -/
def entryHeads : List Bytes := ["Map", "ReadonlyMap", "Record"]

/-- Types that stand for their argument. -/
def wrapperHeads : List Bytes := ["Promise", "Readonly", "NonNullable", "Awaited"]

/-- Utility types depend on their argument and do not own it. -/
def utilityLabels : List (Bytes × Bytes) := [
  ("Partial", "«partial»"), ("Required", "«required»"), ("Pick", "«pick»"), ("Omit", "«omit»")]

def dependOn (label : Bytes) (m : TypeMeaning) : TypeMeaning :=
  if m.isValue then m
  else
    { m with
      links := m.links.map fun l =>
        if l.registerOnly then l else { l with kind := .dependency, label, mult := none } }

def strategy : Strategy where
  name := "typescript"
  meaning? _ nested t := do
    let (head, first, others) ← Strategy.generic? t
    if elementHeads.contains head then some ((nested first).collect .aggregation .many)
    else if entryHeads.contains head then
      some ((nested (others.getLastD first)).collect .aggregation .many)
    else if wrapperHeads.contains head then some (nested first)
    else (utilityLabels.lookup head).map fun label => dependOn label (nested first)

/-- A literal between backticks; nothing inside is interpreted. -/
def template : Matcher := do
  if (← Scan.peek) = 0x60 then Matcher.quoted 0x60 "unterminated template literal"
  else Matcher.miss

def exportWords : List Bytes := ["export", "declare", "default"]

open Parse

def exportRule : Rule where
  name := "ts-export"
  canStart s := s.namesThenEntity exportWords
  parse statement := do
    skipNames exportWords
    return .ok (← statement)

/-- `keyof T` is a string, `typeof x` stands for the type of `x`. -/
def typeOperator : TypePrimary where
  canStart s := s.nameAt ["keyof", "typeof"] 0 && s.wordAt 1
  parse type := do
    let op ← advance
    let inner ← type
    if op.text = "keyof" then
      some <$> newType (op.span.cover inner.span) fun node => .simple node "string"
    else return some inner

/-- `T | null` and `T | undefined` are unions. -/
def nullable : TypeSuffix where
  canApply s _ := s.isAt .pipe && s.nameAt ["null", "undefined"] 1
  apply _ base := do
    let _ ← advance
    let null ← advance
    let alternative ← newType null.span fun node => .simple node null.text
    newType (base.span.cover null.span) fun node =>
      match base with
      | .union _ alternatives piped =>
        .pipedUnion node (alternatives ++ [alternative]) (piped + 1)
      | _ => .pipedUnion node [base, alternative] 1

/-- Takes the mark of an optional member, or an initial value. -/
def takeUnexpected : Parse Bool := do
  if ← eat .question then return true
  if ← eat .assign then
    skipInitializer
    return true
  return false

def grammar : Grammar where
  rules := [exportRule]
  primaries := [typeOperator]
  suffixes := [nullable]
  unexpected := some takeUnexpected

end Uml.TypeScript
