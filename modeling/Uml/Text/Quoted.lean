import Uml.Text.Category

/-!
# Quoted text

Writing a text between quotes with backslash escapes, and reading double-quoted and raw literals
back. Printable characters stand for themselves; a byte that is no UTF-8 is written `\xNN`.
-/
namespace Uml.Quoted

def hexPadded (width n : Nat) : Bytes :=
  Bytes.padZero width ((Nat.toDigits 16 n).map Bytes.ascii)

/-- One scalar value inside quotes of kind `quote`. -/
def escapeScalar (quote : UInt8) (c : Nat) : Bytes :=
  if c = quote.toNat || c = 0x5C then 0x5C :: Utf8.encode c
  else if Category.isPrint c then Utf8.encode c
  else match c with
  | 0x07 => "\\a"
  | 0x08 => "\\b"
  | 0x0C => "\\f"
  | 0x0A => "\\n"
  | 0x0D => "\\r"
  | 0x09 => "\\t"
  | 0x0B => "\\v"
  | _ =>
    if c < 0x20 || c = 0x7F then "\\x" ++ hexPadded 2 c
    else if c < 0x10000 then "\\u" ++ hexPadded 4 c
    else "\\U" ++ hexPadded 8 c

def text (s : Bytes) : Bytes :=
  let body := (Utf8.scalars s).flatMap fun c =>
    if c.isIllFormed then 0x5C :: 0x78 :: c.bytes.hex else escapeScalar 0x22 c.value
  0x22 :: body ++ [0x22]

def scalar (c : Nat) : Bytes := 0x27 :: escapeScalar 0x27 c ++ [0x27]

def hexValue? (c : Nat) : Option Nat :=
  if 0x30 ≤ c && c ≤ 0x39 then some (c - 0x30)
  else if 0x61 ≤ c && c ≤ 0x66 then some (c - 0x61 + 10)
  else if 0x41 ≤ c && c ≤ 0x46 then some (c - 0x41 + 10)
  else none

def hexNumber? (cs : List Nat) : Option Nat :=
  cs.foldlM (fun n c => (16 * n + ·) <$> hexValue? c) 0

def octalNumber? (cs : List Nat) : Option Nat :=
  cs.foldlM (fun n c => if 0x30 ≤ c && c ≤ 0x37 then some (8 * n + (c - 0x30)) else none) 0

def isScalarValue (n : Nat) : Bool := n < 0xD800 || (0xE000 ≤ n && n ≤ 0x10FFFF)

/-- The character that a one-letter escape of a double-quoted literal stands for. -/
def simpleEscape? (c : Nat) : Option UInt8 :=
  match c with
  | 0x61 => some 0x07
  | 0x62 => some 0x08
  | 0x66 => some 0x0C
  | 0x6E => some 0x0A
  | 0x72 => some 0x0D
  | 0x74 => some 0x09
  | 0x76 => some 0x0B
  | 0x5C => some 0x5C
  | 0x22 => some 0x22
  | _ => none

/-- Reads the body of a double-quoted literal up to its closing quote, which ends the text. A line
break, an unknown escape or text behind the quote is refused. -/
def readBody : List Nat → Option Bytes
  | [] => none
  | 0x22 :: rest => if rest.isEmpty then some [] else none
  | 0x0A :: _ => none
  | 0x5C :: 0x78 :: a :: b :: rest => do
    let n ← hexNumber? [a, b]
    (n.toUInt8 :: ·) <$> readBody rest
  | 0x5C :: 0x75 :: a :: b :: c :: d :: rest => do
    let n ← hexNumber? [a, b, c, d]
    if isScalarValue n then (Utf8.encode n ++ ·) <$> readBody rest else none
  | 0x5C :: 0x55 :: a :: b :: c :: d :: e :: f :: g :: h :: rest => do
    let n ← hexNumber? [a, b, c, d, e, f, g, h]
    if isScalarValue n then (Utf8.encode n ++ ·) <$> readBody rest else none
  | 0x5C :: x :: rest =>
    match simpleEscape? x with
    | some b => (b :: ·) <$> readBody rest
    | none =>
      match rest with
      | y :: z :: rest => do
        let n ← octalNumber? [x, y, z]
        if n ≤ 255 then (n.toUInt8 :: ·) <$> readBody rest else none
      | _ => none
  | 0x5C :: [] => none
  | c :: rest => (Utf8.encode c ++ ·) <$> readBody rest

/-- Reads a raw literal up to its closing backtick, which ends the text; carriage returns are
dropped. -/
def readRaw : Bytes → Option Bytes
  | [] => none
  | 0x60 :: rest => if rest.isEmpty then some [] else none
  | 0x0D :: rest => readRaw rest
  | b :: rest => (b :: ·) <$> readRaw rest

def read? : Bytes → Option Bytes
  | 0x22 :: rest => readBody ((Utf8.scalars rest).map (·.value))
  | 0x60 :: rest => readRaw rest
  | _ => none

end Uml.Quoted
