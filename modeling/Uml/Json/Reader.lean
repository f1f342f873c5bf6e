import Uml.Json.Basic

/-!
# Reading JSON

Strict JSON: no comments, no trailing commas, no leading zeros. Ill-formed UTF-8 and unpaired
surrogates in strings become U+FFFD.
-/
namespace Uml.Json

def isBlankByte (b : UInt8) : Bool := b = 0x20 || b = 0x09 || b = 0x0A || b = 0x0D

def skipBlanks (s : Bytes) : Bytes := s.dropWhile isBlankByte

/-- A number from U+D800 to U+DBFF, the first half of a pair. -/
def isHighSurrogate (n : Nat) : Bool := 0xD800 ≤ n && n < 0xDC00

def isLowSurrogate (n : Nat) : Bool := 0xDC00 ≤ n && n < 0xE000

def simpleEscape? (c : Nat) : Option UInt8 :=
  match c with
  | 0x22 => some 0x22
  | 0x5C => some 0x5C
  | 0x2F => some 0x2F
  | 0x62 => some 0x08
  | 0x66 => some 0x0C
  | 0x6E => some 0x0A
  | 0x72 => some 0x0D
  | 0x74 => some 0x09
  | _ => none

/-- The bytes of a string up to its closing quote. -/
def stringBody : Bytes → Option (Bytes × Bytes)
  | [] => none
  | 0x22 :: rest => some ([], rest)
  | 0x5C :: b :: rest => (stringBody rest).map fun (body, rest) => (0x5C :: b :: body, rest)
  | b :: rest =>
    if b < 0x20 then none else (stringBody rest).map fun (body, rest) => (b :: body, rest)

/-- Resolves the escapes of a string body. -/
def unescape : List Nat → Option Bytes
  | [] => some []
  | 0x5C :: 0x75 :: a :: b :: c :: d :: 0x5C :: 0x75 :: e :: f :: g :: h :: rest => do
    let high ← Quoted.hexNumber? [a, b, c, d]
    let low ← Quoted.hexNumber? [e, f, g, h]
    if isHighSurrogate high && isLowSurrogate low then
      (Utf8.encode (0x10000 + (high - 0xD800) * 1024 + (low - 0xDC00)) ++ ·) <$> unescape rest
    else
      (Utf8.encode high ++ ·) <$> unescape (0x5C :: 0x75 :: e :: f :: g :: h :: rest)
  | 0x5C :: 0x75 :: a :: b :: c :: d :: rest => do
    let n ← Quoted.hexNumber? [a, b, c, d]
    (Utf8.encode n ++ ·) <$> unescape rest
  | 0x5C :: c :: rest => do
    let b ← simpleEscape? c
    (b :: ·) <$> unescape rest
  | 0x5C :: [] => none
  | c :: rest => (Utf8.encode c ++ ·) <$> unescape rest

def readString (s : Bytes) : Option (Bytes × Bytes) := do
  let (body, rest) ← stringBody s
  let text ← unescape ((Utf8.scalars body).map (·.value))
  pure (text, rest)

def readDigits (s : Bytes) : Option (Bytes × Bytes) :=
  let (digits, rest) := s.span Bytes.isDigit
  if digits.isEmpty then none else some (digits, rest)

/-- The digits before the point: no zero in front of others. -/
def readWhole : Bytes → Option (Bytes × Bytes)
  | 0x30 :: rest => some ([0x30], rest)
  | s => readDigits s

def readFraction : Bytes → Option (Bytes × Bytes)
  | 0x2E :: rest => (readDigits rest).map fun (digits, rest) => (0x2E :: digits, rest)
  | s => some ([], s)

def readExponent : Bytes → Option (Bytes × Bytes)
  | e :: rest =>
    if e = 0x65 || e = 0x45 then
      match rest with
      | sign :: digits =>
        if sign = 0x2B || sign = 0x2D then
          (readDigits digits).map fun (digits, rest) => (e :: sign :: digits, rest)
        else (readDigits rest).map fun (digits, rest) => (e :: digits, rest)
      | [] => none
    else some ([], e :: rest)
  | [] => some ([], [])

def readNumber (s : Bytes) : Option (Bytes × Bytes) := do
  let (sign, s) := match s with
    | 0x2D :: rest => (([0x2D] : Bytes), rest)
    | s => ([], s)
  let (whole, s) ← readWhole s
  let (fraction, s) ← readFraction s
  let (exponent, s) ← readExponent s
  pure (sign ++ whole ++ fraction ++ exponent, s)

def readConstant (word : Bytes) (v : Json) (s : Bytes) : Option (Json × Bytes) :=
  if s.startsWith word then some (v, s.drop word.length) else none

mutual
/-- A value at the start of `s`, blanks before it allowed. Every call spends one unit of fuel and
one byte at least. -/
def readValue : Nat → Bytes → Option (Json × Bytes)
  | 0, _ => none
  | fuel + 1, s =>
    match skipBlanks s with
    | [] => none
    | 0x22 :: rest => (readString rest).map fun (text, rest) => (string text, rest)
    | 0x5B :: rest =>
      match skipBlanks rest with
      | 0x5D :: rest => some (array [], rest)
      | rest => (readElements fuel rest).map fun (items, rest) => (array items, rest)
    | 0x7B :: rest =>
      match skipBlanks rest with
      | 0x7D :: rest => some (object [], rest)
      | rest => (readMembers fuel rest).map fun (members, rest) => (object members, rest)
    | b :: rest =>
      if b = 0x6E then readConstant "null" null (b :: rest)
      else if b = 0x74 then readConstant "true" (bool true) (b :: rest)
      else if b = 0x66 then readConstant "false" (bool false) (b :: rest)
      else (readNumber (b :: rest)).map fun (text, rest) => (number text, rest)

def readElements : Nat → Bytes → Option (List Json × Bytes)
  | 0, _ => none
  | fuel + 1, s => do
    let (v, s) ← readValue fuel s
    match skipBlanks s with
    | 0x2C :: rest => (readElements fuel rest).map fun (vs, rest) => (v :: vs, rest)
    | 0x5D :: rest => some ([v], rest)
    | _ => none

def readMembers : Nat → Bytes → Option (List (Bytes × Json) × Bytes)
  | 0, _ => none
  | fuel + 1, s =>
    match skipBlanks s with
    | 0x22 :: rest => do
      let (key, s) ← readString rest
      match skipBlanks s with
      | 0x3A :: rest =>
        let (v, s) ← readValue fuel rest
        match skipBlanks s with
        | 0x2C :: rest => (readMembers fuel rest).map fun (ms, rest) => ((key, v) :: ms, rest)
        | 0x7D :: rest => some ([(key, v)], rest)
        | _ => none
      | _ => none
    | _ => none
end

mutual
def depth : Json → Nat
  | array items => depthItems items + 1
  | object members => depthMembers members + 1
  | _ => 0

def depthItems : List Json → Nat
  | [] => 0
  | v :: vs => max (depth v) (depthItems vs)

def depthMembers : List (Bytes × Json) → Nat
  | [] => 0
  | (_, v) :: ms => max (depth v) (depthMembers ms)
end

def maxDepth : Nat := 10000

def read? (s : Bytes) : Option Json := do
  let (v, rest) ← readValue (2 * s.length + 2) s
  if (skipBlanks rest).isEmpty && depth v ≤ maxDepth then some v else none

end Uml.Json
