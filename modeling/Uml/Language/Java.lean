import Uml.Language.Words
import Uml.Typing.Meaning

/-!
# Java

Value types and collections, and the notation that models take over: imports, annotations, access
words before a declaration, wildcard types, `throws` and initial values.
-/
namespace Uml.Java

def primitiveNames : List (Bytes × Bytes) := [
  ("int", "Integer"), ("long", "Integer"), ("short", "Integer"), ("byte", "Integer"),
  ("Integer", "Integer"), ("Long", "Integer"), ("Short", "Integer"), ("Byte", "Integer"),
  ("BigInteger", "Integer"), ("float", "Real"), ("double", "Real"), ("Float", "Real"),
  ("Double", "Real"), ("BigDecimal", "Real"), ("boolean", "Boolean"), ("Boolean", "Boolean"),
  ("char", "String"), ("Character", "String"), ("String", "String"), ("void", "void"),
  ("Void", "void"), ("Object", "any"), ("UUID", "String"), ("Instant", "DateTime"),
  ("LocalDate", "Date"), ("LocalDateTime", "DateTime"), ("Date", "Date")]

def primitive? (name : Bytes) : Option Bytes := primitiveNames.lookup name

/-- Collections of their first argument. -/
def elementHeads : List Bytes := [
  "List", "ArrayList", "LinkedList", "Collection", "Iterable", "Stream", "Set", "HashSet",
  "TreeSet", "SortedSet", "LinkedHashSet", "Queue", "Deque", "ArrayDeque"]

/-- Collections of their last argument. -/
def entryHeads : List Bytes := [
  "Map", "HashMap", "TreeMap", "SortedMap", "LinkedHashMap", "ConcurrentHashMap"]

/-- Types that stand for their argument. -/
def wrapperHeads : List Bytes := ["CompletableFuture", "Future", "Supplier"]

def strategy : Strategy where
  name := "java"
  meaning? _ nested t := do
    let (head, first, others) ← Strategy.generic? t
    if elementHeads.contains head then some ((nested first).collect .aggregation .many)
    else if entryHeads.contains head then
      some ((nested (others.getLastD first)).collect .aggregation .many)
    else if head = Bytes.ofString "Optional" then
      some ((nested first).collect .association ⟨0, some 1⟩)
    else if wrapperHeads.contains head then some (nested first)
    else none

open Parse

/-- Keeps a span of the file as a comment, so that nothing written is lost. -/
def keepAsComment (span : Span) : Parse (Except Failure (Option Statement)) := do
  return .ok (some (← newDecl span (.comment (← textOf span) false)))

def importRound (keyword : Token) (span : Span) : Parse (Round Span) := do
  let s ← stream
  if s.isAtAny [.eof, .semicolon] || s.isOnNewLine keyword then return .stop span
  return .again (span.cover (← advance).span)

/-- An import, up to its semicolon or the end of its line. -/
def importRule : Rule where
  name := "java-import"
  canStart s := s.nameAt ["import"] 0 && s.wordAt 1
  parse _ := do
    let keyword ← advance
    let span ← loop keyword.span (importRound keyword)
    match ← eat? .semicolon with
    | some t => keepAsComment (span.cover t.span)
    | none => keepAsComment span

/-- How many brackets are open behind a token, if `depth` are open before it. -/
def depthBehind (depth : Int) : Kind → Int
  | .lbrace | .lparen | .lbracket => depth + 1
  | .rbrace | .rparen | .rbracket => depth - 1
  | _ => depth

def groupRound (depth : Int) : Parse (Round Int) := do
  if ← isAt .eof then return .stop depth
  let depth := depthBehind depth (← advance).kind
  return if depth ≤ 0 then .stop depth else .again depth

def skipGroup : Parse Unit := discard <| loop 0 groupRound

def segmentRound (_ : Unit) : Parse (Round Unit) := do
  if ← isAt .dot then
    let _ ← advance
    let _ ← advance
    return .again ()
  return .stop ()

def skipSegments : Parse Unit := loop () segmentRound

/-- An annotation before a statement; with a colon behind its name it is config. -/
def annotationRule : Rule where
  name := "java-annotation"
  canStart s :=
    s.isAt .atSign && s.wordAt 1 && s.kindAt (s.scanSegments s.rest.length 2) ≠ .colon
  parse statement := do
    let sign ← advance
    let _ ← advance
    skipSegments
    if ← isAt .lparen then skipGroup
    if ← isAtAny [.eof, .rbrace] then keepAsComment (← upToLast sign.span)
    else return .ok (← statement)

def accessWords : List Bytes := ["public", "protected", "private", "sealed", "strictfp"]

/-- Access words before an entity. -/
def accessRule : Rule where
  name := "java-access"
  canStart s := s.namesThenEntity accessWords
  parse statement := do
    skipNames accessWords
    return .ok (← statement)

/-- A wildcard stands for its bound; without one it is `Object`. -/
def wildcard : TypePrimary where
  canStart s := s.isAt .question
  parse type := do
    let mark ← advance
    if (← stream).nameAt ["extends", "super"] 0 then
      let _ ← advance
      some <$> type
    else some <$> newType mark.span fun node => .simple node "Object"

def thrownSegmentRound (_ : Unit) : Parse (Round Unit) := do
  if (← isAt .dot) && (← stream).wordAt 1 then
    let _ ← advance
    let _ ← advance
    return .again ()
  return .stop ()

def thrownRound (_ : Unit) : Parse (Round Unit) := do
  if !(← peek).isWord then return .stop ()
  let _ ← advance
  loop () thrownSegmentRound
  let s ← stream
  if !s.isAt .comma || !s.wordAt 1 || s.kindAt 2 = .colon || s.kindAt 2 = .lparen then
    return .stop ()
  let _ ← advance
  return .again ()

def skipThrows : Parse Unit := loop () thrownRound

/-- Takes a `throws` clause, or an initial value. -/
def takeUnexpected : Parse Bool := do
  if (← stream).nameAt ["throws"] 0 then
    let _ ← advance
    skipThrows
    return true
  if ← isAt .assign then
    let _ ← advance
    skipInitializer
    return true
  return false

def grammar : Grammar where
  rules := [importRule, annotationRule, accessRule]
  primaries := [wildcard]
  unexpected := some takeUnexpected

end Uml.Java
