import Uml.Diagnostic.Basic
import Uml.Lexer.Cursor
import Uml.Text.Normal
import Uml.Text.Quoted
import Uml.Token.Basic

/-!
# Matchers

A matcher recognises one lexical category at the cursor. It may move the cursor and then decline;
whoever runs it puts the cursor back.
-/
namespace Uml

structure Hit where
  kind : Kind := .invalid
  /-- The text was read over and makes no token. -/
  skip : Bool := false
  /-- The token's text, where it is not the bytes read. -/
  text : Option Bytes := none
  findings : List Diagnostic := []

abbrev Matcher := Scan (Option Hit)

namespace Matcher

def hit (kind : Kind) : Matcher := pure (some { kind })

def miss : Matcher := pure none

/-- Answers a token of `kind` and one error over all that was read since `start`. -/
def hitWith (kind : Kind) (start : UInt32) (code : Code) (message : Bytes) : Matcher := do
  let span ← Scan.spanFrom start
  pure (some { kind, findings := [.error code span message] })

def ahead (p : Nat → Bool) : Scan Bool := do
  let (c, size) ← Scan.peekScalar
  pure (0 < size && p c)

def skipAll (p : Nat → Bool) : Scan Unit := Scan.loop (ahead p) Scan.bumpScalar

def whitespace : Matcher := do
  if ← ahead Category.isSpace then
    skipAll Category.isSpace
    pure (some { skip := true })
  else miss

/-- Moves behind `*/`, or to the end if there is none; answers whether there was one. -/
def closeComment : Nat → Scan Bool
  | 0 => throw .endless
  | n + 1 => do
    if ← Scan.atEnd then pure false
    else if ← Scan.try2 '*' '/' then pure true
    else
      let _ ← Scan.bump
      closeComment n

def lineAhead : Scan Bool := return !(← Scan.atEnd) && (← Scan.peek) ≠ 0x0A

/-- A block that starts with a second star is documentation, except for the empty block. -/
def blockKind : Scan Kind := do
  match ← Scan.peek2 with
  | some (0x2A, b) => pure (if b = 0x2F then .comment else .docComment)
  | _ => pure .comment

/-- `//` up to the end of the line, or `/*` up to `*/`. -/
def comment : Matcher := do
  let start ← Scan.mark
  if ← Scan.try2 '/' '/' then
    Scan.loop lineAhead (discard Scan.bump)
    hit .comment
  else if ← Scan.try2 '/' '*' then
    let kind ← blockKind
    if ← closeComment (← Scan.rounds) then hit kind
    else hitWith kind start .unterminatedComment "unterminated block comment"
  else miss

/-- Moves behind the closing quote, or to the end if there is none; a backslash hides the byte
after it. -/
def closeQuote (quote : UInt8) : Nat → Scan Bool
  | 0 => throw .endless
  | n + 1 => do
    if ← Scan.atEnd then pure false
    else
      let b ← Scan.bump
      if b = 0x5C then
        let _ ← Scan.bump
        closeQuote quote n
      else if b = quote then pure true
      else closeQuote quote n

/-- A literal between two bytes `quote`, the first of which is at the cursor. -/
def quoted (quote : UInt8) (problem : Bytes) : Matcher := do
  let start ← Scan.mark
  let _ ← Scan.bump
  if ← closeQuote quote (← Scan.rounds) then hit .string
  else hitWith .string start .unterminatedString problem

def string : Matcher := do
  let quote ← Scan.peek
  if quote = 0x22 || quote = 0x27 then quoted quote "unterminated string literal" else miss

def digitAhead : Scan Bool := return (← Scan.peek).toNat |> fun n => 0x30 ≤ n && n ≤ 0x39

def digits : Scan Unit := Scan.loop digitAhead (discard Scan.bump)

def isNameStart (c : Nat) : Bool := c = 0x5F || Category.isLetter c

def isNamePart (c : Nat) : Bool := isNameStart c || Category.isDigit c || Category.isMark c

/-- A fraction, only if a digit follows the dot, so that `0..*` has none. -/
def fraction : Scan Unit := do
  match ← Scan.peek2 with
  | some (0x2E, b) =>
    if Bytes.isDigit b then
      let _ ← Scan.bump
      digits
  | _ => pure ()

/-- Digits and perhaps a fraction. A name that touches the number makes it malformed. -/
def number : Matcher := do
  if ← digitAhead then
    let start ← Scan.mark
    digits
    fraction
    if ← ahead isNameStart then
      skipAll isNamePart
      hitWith .number start .badNumber "malformed number"
    else hit .number
  else miss

/-- A name or keyword; its text is in composed form, so that both spellings of an accented letter
name the same thing. -/
def name : Matcher := do
  if ← ahead isNameStart then
    let start ← Scan.mark
    Scan.bumpScalar
    skipAll isNamePart
    let c ← get
    let text := Normal.text (c.content.extract start.toNat c.offset.toNat).toList
    pure (some { kind := (Kind.keyword? text).getD .ident, text := some text })
  else miss

def firstOf : List (Scan Bool × Kind) → Matcher
  | [] => miss
  | (test, kind) :: rest => do if ← test then hit kind else firstOf rest

/-- Relationship operators, longest first. -/
def operator : Matcher := firstOf [
  (Scan.try3 '>' '*' '|', .composeOpaque), (Scan.try3 '>' '+' '|', .aggregateOpaque),
  (Scan.try2 '>' '>', .inherit), (Scan.try2 '>' '|', .implement), (Scan.try2 '>' '*', .compose),
  (Scan.try2 '>' '+', .aggregate), (Scan.try2 '>' '-', .depend),
  (Scan.try2 '<' '>', .bidirectional), (Scan.try2 '-' '>', .directed),
  (Scan.try2 '-' '-', .associate)]

def punctuation? (b : UInt8) : Option Kind :=
  match b with
  | 0x7B => some .lbrace
  | 0x7D => some .rbrace
  | 0x28 => some .lparen
  | 0x29 => some .rparen
  | 0x5B => some .lbracket
  | 0x5D => some .rbracket
  | 0x3C => some .lt
  | 0x3E => some .gt
  | 0x2C => some .comma
  | 0x3A => some .colon
  | 0x3B => some .semicolon
  | 0x2E => some .dot
  | 0x3D => some .assign
  | 0x7C => some .pipe
  | 0x2A => some .star
  | 0x2B => some .plus
  | 0x2D => some .minus
  | 0x23 => some .hash
  | 0x7E => some .tilde
  | 0x40 => some .atSign
  | 0x3F => some .question
  | 0x2F => some .slash
  | 0x26 => some .amp
  | _ => none

/-- Two dots, or a punctuation byte. -/
def punctuation : Matcher := do
  if ← Scan.try2 '.' '.' then hit .dotDot
  else
    match punctuation? (← Scan.peek) with
    | some kind =>
      let _ ← Scan.bump
      hit kind
    | none => miss

/-- The matchers of the plain notation, in the order they are tried. -/
def builtin : List Matcher :=
  [whitespace, comment, string, number, name, operator, punctuation]

end Matcher
end Uml
