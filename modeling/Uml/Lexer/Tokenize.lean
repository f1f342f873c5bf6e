import Uml.Lexer.Matcher

/-!
# From bytes to tokens

A file is cut into pieces from left to right: at each offset the first matcher that moves the
cursor decides, and a character that none of them takes is reported and passed over. Lexing never
fails; the last token is the end of the file.
-/
namespace Uml

/-- One step of lexing: a token or a gap between tokens, with what there is to report about it. -/
inductive Piece where
  | token (token : Token) (findings : List Diagnostic)
  | gap (span : Span) (findings : List Diagnostic)

namespace Piece

def token? : Piece → Option Token
  | .token t _ => some t
  | .gap .. => none

def findings : Piece → List Diagnostic
  | .token _ ds => ds
  | .gap _ ds => ds

def span : Piece → Span
  | .token t _ => t.span
  | .gap s _ => s

end Piece

structure Lexed where
  tokens : List Token
  findings : List Diagnostic

namespace Lexer

/-- Runs the matchers in turn; a hit that moved nothing is a miss. -/
def matchAt (start : UInt32) : List Matcher → Matcher
  | [] => Matcher.miss
  | m :: rest => do
    let found ← m
    if found.isSome && start < (← Scan.mark) then pure found
    else
      Scan.reset start
      matchAt start rest

/-- Passes over one character that no matcher takes. -/
def skipUnknown (start : UInt32) : Scan Piece := do
  let (c, _) ← Scan.peekScalar
  Scan.bumpScalar
  let span ← Scan.spanFrom start
  pure (.gap span [.error .unknownChar span ("unexpected character " ++ Quoted.scalar c)])

def piece (file : File) (chain : List Matcher) : Scan Piece := do
  let start ← Scan.mark
  match ← matchAt start chain with
  | none => skipUnknown start
  | some found =>
    let span ← Scan.spanFrom start
    if found.skip then pure (.gap span found.findings)
    else
      let text := found.text.getD (file.text span)
      pure (.token { kind := found.kind, span, text, position := file.position span.start }
        found.findings)

/-- The pieces up to the end of the file, fewer than `n`. -/
def piecesWithin (file : File) (chain : List Matcher) : Nat → Scan (List Piece)
  | 0 => throw .endless
  | n + 1 => do
    if ← Scan.atEnd then pure []
    else
      let p ← piece file chain
      return p :: (← piecesWithin file chain n)

def pieces (file : File) (extra : List Matcher) : Except ReadFault (List Piece) :=
  (do piecesWithin file (extra ++ Matcher.builtin) (← Scan.rounds)).run' (.ofFile file)

def endToken (file : File) : Token :=
  let stop := file.content.size
  { kind := .eof, span := ⟨file.id, stop, stop⟩, position := file.position stop }

/-- Lexes a file; the matchers in `extra` are tried before the built-in ones. -/
def tokenize (file : File) (extra : List Matcher) : Lexed :=
  let found := (pieces file extra).toOption.getD []
  ⟨found.filterMap (·.token?) ++ [endToken file], found.flatMap (·.findings)⟩

end Lexer
end Uml
