import Uml.Parser.Grammar
import Uml.Syntax.Literal

/-!
# Names, multiplicities and relationship ends

Each form comes as a scan, which only looks ahead and counts tokens, and as a parser, which takes
them.
-/
namespace Uml

namespace Stream

/-- The offset behind the segments `.name` that follow offset `n`. -/
def scanSegments (s : Stream) : Nat → Nat → Nat
  | 0, n => n
  | fuel + 1, n =>
    if s.kindAt n = .dot && s.wordAt (n + 1) then scanSegments s fuel (n + 2) else n

/-- The offset behind a dotted name at offset `n`, or `n` if there is none. The first segment is no
keyword, later ones may be. -/
def scanPath (s : Stream) (n : Nat) : Nat :=
  if s.kindAt n = .ident then s.scanSegments s.rest.length (n + 1) else n

/-- The offset behind an end of a relationship at offset `n`, or `n`. -/
def scanEndpoint (s : Stream) (n : Nat) : Nat :=
  if s.kindAt n = .star && s.kindAt (n + 1) = .ident then s.scanPath (n + 1) else s.scanPath n

/-- The offset behind the next closing bracket, if it is among the next `k` tokens and nothing that
cannot stand in a multiplicity comes first. -/
def scanBracket (s : Stream) : Nat → Nat → Option Nat
  | 0, _ => none
  | k + 1, i =>
    match s.kindAt i with
    | .rbracket => some (i + 1)
    | .eof | .lbrace | .rbrace | .lbracket => none
    | _ => scanBracket s k (i + 1)

/-- How far a closing bracket is looked for. -/
def maxBracket : Nat := 15

/-- The offset behind a multiplicity at offset `n`, or `n`. -/
def scanMult (s : Stream) (n : Nat) : Nat :=
  match s.kindAt n with
  | .string => n + 1
  | .lbracket => (s.scanBracket maxBracket (n + 1)).getD n
  | _ => n

/-- Whether a multiplicity is ahead with a relationship operator behind it. -/
def multThenOperator (s : Stream) : Bool :=
  let n := s.scanMult 0
  0 < n && (s.kindAt n).isRelationship

end Stream

namespace Parse

def pathRound : Bytes × Span → Parse (Round (Bytes × Span))
  | (name, span) => do
    if (← isAt .dot) && (← peekAt 1).isWord then
      let _ ← advance
      let segment ← advance
      return .again (name ++ "." ++ segment.text, span.cover segment.span)
    return .stop (name, span)

def path? : Parse (Option (Bytes × Span)) := do
  let first ← peek
  if first.kind ≠ .ident then return none
  let _ ← advance
  some <$> loop (first.text, first.span) pathRound

/-- The text between the end of `opener` and `stop`, without the blanks around it. -/
def innerText (opener : Token) (stop : Nat) : Parse Bytes :=
  return (← textOf ⟨opener.span.file, opener.span.stop, stop⟩).trim

/-- The multiplicity of brackets that do not close: all that was taken. -/
def unclosedMult (opener : Token) : Parse RawMult := do
  error .unclosedBracket opener.span "unclosed '[' in multiplicity"
  let last ← last
  return ⟨← innerText opener last.stop, opener.span.cover last⟩

/-- One token behind an opening bracket. Brackets close on the line where they open. -/
def bracketRound (opener : Token) (mult : RawMult) : Parse (Round RawMult) := do
  let t ← peek
  match t.kind with
  | .rbracket =>
    let _ ← advance
    return .stop ⟨← innerText opener t.span.start, opener.span.cover t.span⟩
  | .eof | .lbrace | .rbrace | .lbracket => return .stop (← unclosedMult opener)
  | _ =>
    if opener.position.line < t.position.line then return .stop (← unclosedMult opener)
    let _ ← advance
    return .again mult

/-- Reads brackets and what is between them, which nobody checks here. -/
def bracketed : Parse RawMult := do
  let opener ← advance
  loop {} (bracketRound opener)

def mult : Parse RawMult := do
  let t ← peek
  match t.kind with
  | .string =>
    let _ ← advance
    return ⟨(Literal.value t.text).trim, t.span⟩
  | .lbracket => bracketed
  | _ => return {}

/-- Reads a name with an optional star before it, which marks the named entity as abstract. -/
def endpoint? : Parse (Option Endpoint) := do
  let start := (← peek).span
  let starred := (← isAt .star) && (← kindAt 1) = .ident
  if starred then let _ ← advance
  match ← path? with
  | none => return none
  | some (name, span) =>
    if starred then return some ⟨name, start.cover span, .singleton .abstract⟩
    else return some ⟨name, span, {}⟩

end Parse
end Uml
