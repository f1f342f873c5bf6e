import Uml.Number.Double

/-!
# Reading numbers

Decimal and hexadecimal floating-point texts with an optional sign, underscores between digits,
and the names of infinity and of no number.
-/
namespace Uml.Double

def lowerByte (b : UInt8) : UInt8 := if 0x41 ≤ b && b ≤ 0x5A then b + 32 else b

def hexDigit? (b : UInt8) : Option Nat :=
  let c := lowerByte b
  if Bytes.isDigit b then some (b.toNat - 0x30)
  else if 0x61 ≤ c && c ≤ 0x66 then some (c.toNat - 0x61 + 10)
  else none

def digitIn? (base : Nat) (b : UInt8) : Option Nat :=
  (hexDigit? b).bind fun n => if n < base then some n else none

/-- Whether each underscore stands between two digits, or between the mark of a base and a digit. -/
def underscoresFit (isDigit : UInt8 → Bool) : Bool → Bytes → Bool
  | _, [] => true
  | afterDigit, b :: rest =>
    if b = 0x5F then
      afterDigit && (match rest with | next :: _ => isDigit next | [] => false)
        && underscoresFit isDigit false rest
    else underscoresFit isDigit (isDigit b) rest

/-- The digits before and behind the point, with the rest of the text. -/
structure Mantissa where
  value : Nat := 0
  /-- How many digits were read. -/
  count : Nat := 0
  /-- How many of them stand behind the point. -/
  places : Nat := 0
  hasPoint : Bool := false
  rest : Bytes

def readMantissa (base : Nat) (m : Mantissa) : Bytes → Mantissa
  | [] => { m with rest := [] }
  | b :: rest =>
    if b = 0x5F then readMantissa base m rest
    else if b = 0x2E && !m.hasPoint then readMantissa base { m with hasPoint := true } rest
    else match digitIn? base b with
    | some n =>
      readMantissa base
        { m with
          value := base * m.value + n, count := m.count + 1
          places := m.places + if m.hasPoint then 1 else 0 } rest
    | none => { m with rest := b :: rest }

/-- Exponents stop growing here; numbers of that size are zero or infinite. -/
def exponentCap : Nat := 10000

def readExponentDigits (s : Bytes) : Option Nat :=
  match s with
  | [] => none
  | b :: _ =>
    if Bytes.isDigit b && s.all (fun b => Bytes.isDigit b || b = 0x5F) then
      some ((s.filter (· ≠ 0x5F)).foldl (fun e b =>
        if e < exponentCap then 10 * e + (b.toNat - 0x30) else e) 0)
    else none

def readExponent : Bytes → Option Int
  | 0x2B :: rest => (readExponentDigits rest).map Int.ofNat
  | 0x2D :: rest => (readExponentDigits rest).map fun e => -(e : Int)
  | s => (readExponentDigits s).map Int.ofNat

def readHex (negative : Bool) (s : Bytes) : Option Double := do
  let m := readMantissa 16 { rest := [] } s
  if m.count = 0 || !underscoresFit (hexDigit? · |>.isSome) true s then none
  else match m.rest with
  | b :: rest =>
    if lowerByte b = 0x70 then
      let e ← readExponent rest
      ofBinary? negative m.value (e - 4 * m.places)
    else none
  | [] => none

def readDecimal (negative : Bool) (s : Bytes) : Option Double := do
  let m := readMantissa 10 { rest := [] } s
  if m.count = 0 || !underscoresFit Bytes.isDigit false s then none
  else match m.rest with
  | [] => ofDecimal? negative m.value (-m.places)
  | b :: rest =>
    if lowerByte b = 0x65 then
      let e ← readExponent rest
      ofDecimal? negative m.value (e - m.places)
    else none

def infinityNames : List Bytes := ["inf", "infinity"]

def readUnsigned (negative : Bool) (s : Bytes) : Option Double :=
  if infinityNames.contains (s.map lowerByte) then some (infinity negative)
  else match s with
  | 0x30 :: x :: b :: rest =>
    if lowerByte x = 0x78 then readHex negative (b :: rest) else readDecimal negative s
  | _ => readDecimal negative s

/-- Reads a floating-point text; none if it is malformed or too large. -/
def read? (s : Bytes) : Option Double :=
  match s with
  | 0x2B :: rest => readUnsigned false rest
  | 0x2D :: rest => readUnsigned true rest
  | _ => if s.map lowerByte = Bytes.ofString "nan" then some nan else readUnsigned false s

end Uml.Double
