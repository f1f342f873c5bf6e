import Uml.Diagnostic.Basic
import Uml.Source.File
import Uml.Syntax.Statement
import Uml.Syntax.Stream

/-!
# Parser state

A parser is a step on a state: the token stream, what was reported, and how many nodes were made.
Rolling back means putting an earlier stream back; reports and numbers stay.
-/
namespace Uml

structure ParseState where
  stream : Stream
  file : File
  /-- Errors beyond this many are counted and not reported; zero for no limit. -/
  maxErrors : Nat := 0
  errors : Nat := 0
  findings : Array Diagnostic := #[]
  statementCount : Nat := 0
  /-- Every type node made, in order, also those of forms given up later. -/
  types : Array TypeExpr := #[]
  /-- Every member made, in order, also those of statements given up later. -/
  members : Array Member := #[]
  /-- How many packages are open. -/
  depth : Nat := 0

abbrev Parse := StateM ParseState

inductive Failure where
  /-- The construct is not the rule's own. -/
  | noMatch
  /-- The problem is reported already. -/
  | reported
  | syntaxError (code : Code) (span : Span) (message : Bytes)

inductive Round (σ : Type) where
  | again (value : σ)
  | stop (value : σ)

namespace Parse

def stream : Parse Stream := return (← get).stream

def reset (s : Stream) : Parse Unit := modify ({ · with stream := s })

def peek : Parse Token := return (← stream).peek

def peekAt (n : Nat) : Parse Token := return (← stream).peekAt n

def kindAt (n : Nat) : Parse Kind := return (← stream).kindAt n

def peekRaw : Parse Token := return (← stream).peekRaw

def isAt (k : Kind) : Parse Bool := return (← stream).isAt k

def isAtAny (ks : List Kind) : Parse Bool := return (← stream).isAtAny ks

def advance : Parse Token := do
  let (t, s) := (← stream).next
  reset s
  pure t

def advanceRaw : Parse Token := do
  let (t, s) := (← stream).nextRaw
  reset s
  pure t

def eat? (k : Kind) : Parse (Option Token) := do
  match (← stream).eat? k with
  | some (t, s) =>
    reset s
    pure (some t)
  | none => pure none

def eat (k : Kind) : Parse Bool := return (← eat? k).isSome

def split : Parse Bool := do
  match (← stream).split? with
  | some (_, s) =>
    reset s
    pure true
  | none => pure false

/-- The span of the token taken last. -/
def last : Parse Span := return (← stream).last

/-- From the start of `s` to the token taken last. -/
def upToLast (s : Span) : Parse Span := return s.cover (← last)

def movedFrom (mark : Stream) : Parse Bool := return (← stream).movedFrom mark

/-- Where a message about the next token points: at the end of the file, behind the last token. -/
def here : Parse Span := do
  let s ← stream
  let t := s.peek
  pure (if t.kind = .eof && 0 < s.last.stop then s.last.after else t.span)

/-- Reports a diagnostic; errors beyond the limit are only counted. -/
def report (d : Diagnostic) : Parse Unit :=
  modify fun st =>
    if d.severity = .error then
      let st := { st with errors := st.errors + 1 }
      if 0 < st.maxErrors && st.maxErrors < st.errors then st
      else { st with findings := st.findings.push d }
    else { st with findings := st.findings.push d }

def error (code : Code) (span : Span) (message : Bytes) : Parse Unit :=
  report (.error code span message)

def warning (code : Code) (span : Span) (message : Bytes) : Parse Unit :=
  report (.warning code span message)

def failure (code : Code) (message : Bytes) : Parse Failure :=
  return .syntaxError code (← here) message

def reportFailure : Failure → Parse Unit
  | .reported => pure ()
  | .syntaxError code span message => error code span message
  | .noMatch => do error .unexpectedToken (← here) "rule does not apply"

def loopWithin {σ : Type} (step : σ → Parse (Round σ)) : Nat → σ → Parse σ
  | 0, value => pure value
  | n + 1, value => do
    match ← step value with
    | .again value => loopWithin step n value
    | .stop value => pure value

/-- Runs `step` until it stops. Every round but the last takes a token or half of one, so the
budget of the stream is never spent. -/
def loop {σ : Type} (init : σ) (step : σ → Parse (Round σ)) : Parse σ := do
  loopWithin step (← stream).budget init

def newStatement (make : Nat → Statement) : Parse Statement := do
  modify fun st => { st with statementCount := st.statementCount + 1 }
  return make (← get).statementCount

def newDecl (span : Span) (d : Decl) : Parse Statement :=
  newStatement fun id => .decl { id, span } d

def newType (span : Span) (make : Node → TypeExpr) : Parse TypeExpr := do
  let t := make ⟨(← get).types.size + 1, span⟩
  modify fun st => { st with types := st.types.push t }
  pure t

def newMember (m : Member) : Parse Member := do
  let m := { m with id := (← get).members.size + 1 }
  modify fun st => { st with members := st.members.push m }
  pure m

def textOf (span : Span) : Parse Bytes := return (← get).file.text span

/-- The line on which an offset of the file stands. -/
def lineOf (offset : Nat) : Parse Nat := return ((← get).file.position offset).line

end Parse
end Uml
