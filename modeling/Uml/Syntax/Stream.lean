import Uml.Token.Basic

/-!
# Token streams

A position in a list of tokens with the tokens already passed. Comments stay in the list: looking
ahead skips them, the raw operations do not. One `>>` can be taken in two halves, for two lists of
type arguments that close at once. A stream is a value, so keeping one is a rollback point.
-/
namespace Uml

structure Stream where
  /-- Tokens passed, newest first. -/
  past : List Token := []
  /-- Tokens ahead; the last one is the end of the file. -/
  rest : List Token
  /-- The first half of the `>>` at the head of `rest` is taken. -/
  half : Bool := false
  /-- The span of the token taken last. -/
  last : Span := {}
  deriving DecidableEq, Repr

namespace Stream

/-- The tokens with an end of file behind them, if there is none. -/
def closed (tokens : List Token) : List Token :=
  match tokens.getLast? with
  | none => [{ kind := .eof }]
  | some t => if t.kind = .eof then tokens else tokens ++ [{ kind := .eof, span := t.span.after }]

def ofTokens (tokens : List Token) : Stream := { rest := closed tokens }

/-- How many tokens are passed. -/
def index (s : Stream) : Nat := s.past.length

/-- A bound on the number of steps that take something. -/
def budget (s : Stream) : Nat := 2 * s.rest.length + 2

def movedFrom (s mark : Stream) : Bool := s.index ≠ mark.index || s.half ≠ mark.half

/-- The token that is left of a half-taken `>>`. -/
def secondHalf (t : Token) : Token :=
  { t with
    kind := .gt, text := ">", span := { t.span with start := t.span.start + 1 }
    position := { t.position with column := t.position.column + 1 } }

def firstHalf (t : Token) : Token :=
  { t with kind := .gt, text := ">", span := { t.span with stop := t.span.start + 1 } }

/-- The token `n` significant ones ahead; the end of the file ends the search. -/
def ahead : List Token → Nat → Token
  | [], _ => {}
  | [t], _ => t
  | t :: rest, n =>
    if t.isTrivia then ahead rest n
    else if t.kind = .eof then t
    else match n with
      | 0 => t
      | n + 1 => ahead rest n

/-- Looks `n` significant tokens ahead. -/
def peekAt (s : Stream) (n : Nat) : Token :=
  if s.half then
    match s.rest, n with
    | [], _ => {}
    | t :: _, 0 => secondHalf t
    | _ :: rest, n + 1 => ahead rest n
  else ahead s.rest n

def peek (s : Stream) : Token := s.peekAt 0

def kindAt (s : Stream) (n : Nat) : Kind := (s.peekAt n).kind

def wordAt (s : Stream) (n : Nat) : Bool := (s.peekAt n).isWord

def isAt (s : Stream) (k : Kind) : Bool := s.peek.kind = k

def isAtAny (s : Stream) (ks : List Kind) : Bool := ks.contains s.peek.kind

/-- The next token, comments included. -/
def peekRaw (s : Stream) : Token :=
  match s.rest with
  | [] => {}
  | t :: _ => if s.half then secondHalf t else t

def skipTrivia : List Token → List Token → List Token × List Token
  | past, [] => (past, [])
  | past, [t] => (past, [t])
  | past, t :: rest => if t.isTrivia then skipTrivia (t :: past) rest else (past, t :: rest)

/-- Takes the next token, comments included; the end of the file stays. -/
def nextRaw (s : Stream) : Token × Stream :=
  match s.rest with
  | [] => ({}, s)
  | t :: rest =>
    if s.half then
      (secondHalf t, { past := t :: s.past, rest, half := false, last := (secondHalf t).span })
    else if t.kind = .eof then (t, s)
    else (t, { s with past := t :: s.past, rest, last := t.span })

/-- Takes the next significant token, and the comments before it. -/
def next (s : Stream) : Token × Stream :=
  if s.half then s.nextRaw
  else
    let (past, rest) := skipTrivia s.past s.rest
    { s with past, rest }.nextRaw

/-- Takes the next significant token if it has kind `k`. -/
def eat? (s : Stream) (k : Kind) : Option (Token × Stream) :=
  if s.isAt k then some s.next else none

/-- Takes the first half of a `>>`; the second half is a `>` that stays ahead. -/
def split? (s : Stream) : Option (Token × Stream) :=
  if s.half || !s.isAt .inherit then none
  else
    let (past, rest) := skipTrivia s.past s.rest
    match rest with
    | [] => none
    | t :: _ => some (firstHalf t, { past, rest, half := true, last := (firstHalf t).span })

/-- The span of the last token passed that is no comment; the zero span at the start. -/
def lastSignificant (s : Stream) : Span :=
  match s.past.find? (!·.isTrivia) with
  | some t => t.span
  | none => {}

/-- Whether the next significant token stands on a later line than `t`. -/
def isOnNewLine (s : Stream) (t : Token) : Bool := t.position.line < s.peek.position.line

end Stream
end Uml
