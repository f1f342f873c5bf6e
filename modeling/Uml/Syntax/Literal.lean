import Uml.Text.Category
import Uml.Text.Quoted

/-! The values that string literals and documentation comments stand for. -/
namespace Uml.Literal

def isQuote (b : UInt8) : Bool := b = 0x22 || b = 0x27

/-- The text without a quote at its start and, if there was one, without a quote at its end. -/
def stripQuotes : Bytes → Bytes
  | [] => []
  | b :: rest =>
    if isQuote b then
      match rest.getLast? with
      | some q => if isQuote q then rest.dropLast else rest
      | none => rest
    else b :: rest

/-- Escapes are resolved where all of them are known; a broken literal only loses its quotes. -/
def decode (text : Bytes) : Bytes := (Quoted.read? text).getD (stripQuotes text)

/-- The value of a string token. A single-quoted literal with escapes is read as a double-quoted
one. -/
def value (text : Bytes) : Bytes :=
  match text with
  | 0x27 :: rest =>
    if rest.getLast? = some 0x27 then
      let inner := rest.dropLast
      if inner.contains 0x5C then decode (0x22 :: Bytes.replace "\"" "\\\"" inner ++ [0x22])
      else inner
    else decode text
  | _ => decode text

/-- The text of a documentation comment: every line without its star and the blanks around it;
empty lines are dropped. -/
def docText (raw : Bytes) : Bytes :=
  let body := Bytes.stripTail "*/" (Bytes.stripLead "/**" raw)
  let lines := (body.splitByte 0x0A).map fun l => (Bytes.stripLead "*" l.trim).trim
  Bytes.join "\n" (lines.filter (!·.isEmpty))

end Uml.Literal
