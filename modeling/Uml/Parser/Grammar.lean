import Uml.Parser.State

/-!
# Grammar extensions

A host language adds statement forms, type forms and a way to take tokens that the plain notation
has no place for. Forms that nest get the parser for the nested part as an argument.
-/
namespace Uml

/-- A statement form: a look-ahead test and a parser, which may use the parser for statements. -/
structure Rule where
  name : Bytes
  canStart : Stream → Bool
  parse : Parse (Option Statement) → Parse (Except Failure (Option Statement))

/-- A form that a type can begin with. -/
structure TypePrimary where
  canStart : Stream → Bool
  parse : Parse TypeExpr → Parse (Option TypeExpr)

/-- A form that can follow a type. -/
structure TypeSuffix where
  canApply : Stream → TypeExpr → Bool
  apply : Parse TypeExpr → TypeExpr → Parse TypeExpr

structure Grammar where
  /-- Tried before the built-in statement forms. -/
  rules : List Rule := []
  /-- Tried before the built-in type forms. -/
  primaries : List TypePrimary := []
  /-- Tried behind the built-in suffixes. -/
  suffixes : List TypeSuffix := []
  /-- Takes tokens that were not expected; answers whether it did. -/
  unexpected : Option (Parse Bool) := none

namespace Parse

/-- Offers the token ahead to the language until `want` is ahead; `n` offers are left. A taker that
moves nothing is not believed. -/
def offerWithin (take : Parse Bool) (want : Kind) : Nat → Bool → Parse Bool
  | 0, taken => pure taken
  | n + 1, taken => do
    if (← isAt want) || (← isAt .eof) then pure taken
    else
      let mark ← stream
      let took ← take
      if took && (← movedFrom mark) then offerWithin take want n true
      else
        reset mark
        pure taken

/-- How often the language is asked in a row. -/
def maxOffers : Nat := 8

/-- Lets the language take what stands in the way of `want`; answers whether it took anything. -/
def offer (g : Grammar) (want : Kind) : Parse Bool :=
  match g.unexpected with
  | none => pure false
  | some take => offerWithin take want maxOffers false

def expect (g : Grammar) (k : Kind) (code : Code) (message : Bytes) : Parse (Option Token) := do
  if ← isAt k then return some (← advance)
  let offered ← offer g k
  if offered && (← isAt k) then return some (← advance)
  error code (← here) message
  return none

def closeBrace (opener : Token) (what : Bytes) : Parse Unit := do
  if ← eat .rbrace then return
  report (.error .unclosedBrace (← here) ("expected '\x7d' to close " ++ what)
    [⟨opener.span, "opened here"⟩])

end Parse
end Uml
