/-!
# Byte texts

Source text, names and messages are byte sequences: a model may hold bytes that are no UTF-8, and
they reach the output unchanged. A string literal stands for its UTF-8 bytes.
-/
namespace Uml

abbrev Bytes := List UInt8

namespace Bytes

def ofString (s : String) : Bytes := s.toByteArray.data.toList

instance : Coe String Bytes := ⟨ofString⟩

/-- The byte of an ASCII character; other characters keep their low eight bits. -/
def ascii (c : Char) : UInt8 := c.toNat.toUInt8

instance : Coe Char UInt8 := ⟨ascii⟩

def isDigit (b : UInt8) : Bool := '0' ≤ b && b ≤ ascii '9'

def isAscii (s : Bytes) : Bool := s.all (· < 0x80)

/-- Decimal digits, without leading zeros. -/
def ofNat (n : Nat) : Bytes := (Nat.toDigits 10 n).map ascii

def ofInt : Int → Bytes
  | .ofNat n => ofNat n
  | .negSucc n => ascii '-' :: ofNat (n + 1)

/-- Reads a non-empty run of digits. -/
def toNat? (s : Bytes) : Option Nat :=
  if s.isEmpty || !s.all isDigit then none
  else some (s.foldl (fun n b => 10 * n + (b - ascii '0').toNat) 0)

def concat (texts : List Bytes) : Bytes := texts.flatten

/-- The text if the condition holds, else nothing. -/
def when (c : Bool) (s : Bytes) : Bytes := if c then s else []

def startsWith (s p : Bytes) : Bool := p.isPrefixOf s

def endsWith (s p : Bytes) : Bool := p.isSuffixOf s

/-- `s` without the lead `p`, or `s` itself when it does not start with `p`. -/
def stripLead (p s : Bytes) : Bytes := if p.isPrefixOf s then s.drop p.length else s

/-- `s` without the tail `p`, or `s` itself when it does not end with `p`. -/
def stripTail (p s : Bytes) : Bytes :=
  if p.isSuffixOf s then s.take (s.length - p.length) else s

/-- The pieces of `s` between occurrences of `b`: one more than there are occurrences. -/
def splitByte (b : UInt8) : Bytes → List Bytes
  | [] => [[]]
  | c :: rest =>
    if c = b then [] :: splitByte b rest
    else
      match splitByte b rest with
      | [] => [[c]]
      | piece :: pieces => (c :: piece) :: pieces

/-- What is left of a split: `skip` bytes of the last separator are still to pass over, and
`piece` holds, reversed, the bytes since that separator. -/
def splitFrom (sep : Bytes) : Nat → Bytes → Bytes → List Bytes
  | _, piece, [] => [piece.reverse]
  | skip + 1, piece, _ :: rest => splitFrom sep skip piece rest
  | 0, piece, c :: rest =>
    if sep.isPrefixOf (c :: rest) then piece.reverse :: splitFrom sep (sep.length - 1) [] rest
    else splitFrom sep 0 (c :: piece) rest

/-- The pieces of `s` between leftmost, disjoint occurrences of the non-empty text `sep`. -/
def splitOn (sep s : Bytes) : List Bytes := splitFrom sep 0 [] s

def join (sep : Bytes) (pieces : List Bytes) : Bytes := sep.intercalate pieces

/-- Every disjoint occurrence of `old`, from the left, becomes `new`. -/
def replace (old new s : Bytes) : Bytes := join new (splitOn old s)

/-- Cuts at the last occurrence of `b`, which belongs to neither half. -/
def cutLast? (b : UInt8) (s : Bytes) : Option (Bytes × Bytes) :=
  let back := s.reverse
  match back.dropWhile (· ≠ b) with
  | [] => none
  | _ :: lead => some (lead.reverse, (back.takeWhile (· ≠ b)).reverse)

def padLeft (width : Nat) (s : Bytes) : Bytes := List.replicate (width - s.length) 0x20 ++ s

def padRight (width : Nat) (s : Bytes) : Bytes := s ++ List.replicate (width - s.length) 0x20

def padZero (width : Nat) (s : Bytes) : Bytes := List.replicate (width - s.length) 0x30 ++ s

def hexDigit (n : Nat) : UInt8 := ascii (Nat.digitChar n)

/-- Lower-case hexadecimal, two digits a byte. -/
def hex (s : Bytes) : Bytes :=
  s.flatMap fun b => [hexDigit (b.toNat / 16), hexDigit (b.toNat % 16)]

/-- Bytewise lexicographic order, as a comparison for sorting. -/
def le (a b : Bytes) : Bool := !decide (b < a)

def toInt? (s : Bytes) : Option Int :=
  match s with
  | 0x2B :: rest => (toNat? rest).map Int.ofNat
  | 0x2D :: rest => (toNat? rest).map fun n => -(n : Int)
  | _ => (toNat? s).map Int.ofNat

def fitsInt64 (n : Int) : Bool := -9223372036854775808 ≤ n && n ≤ 9223372036854775807

def toInt64? (s : Bytes) : Option Int :=
  (toInt? s).bind fun n => if fitsInt64 n then some n else none

end Bytes
end Uml
