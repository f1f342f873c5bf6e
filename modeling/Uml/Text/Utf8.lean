import Uml.Text.Bytes

/-!
# UTF-8

Reading scalar values from bytes of any kind. A byte that starts no well-formed sequence is a unit
of its own and stands for U+FFFD.
-/
namespace Uml.Utf8

/-- U+FFFD, which every ill-formed byte stands for. -/
def replacement : Nat := 0xFFFD

def isTail (b : UInt8) : Bool := 0x80 ≤ b && b ≤ 0xBF

/-- The second byte of a three-byte sequence: no overlong form and no surrogate. -/
def isSecondOf3 (lead b : UInt8) : Bool :=
  if lead = 0xE0 then 0xA0 ≤ b && b ≤ 0xBF
  else if lead = 0xED then 0x80 ≤ b && b ≤ 0x9F
  else isTail b

/-- The second byte of a four-byte sequence: no overlong form and nothing above U+10FFFF. -/
def isSecondOf4 (lead b : UInt8) : Bool :=
  if lead = 0xF0 then 0x90 ≤ b && b ≤ 0xBF
  else if lead = 0xF4 then 0x80 ≤ b && b ≤ 0x8F
  else isTail b

/-- The six payload bits of a continuation byte. -/
def tailBits (b : UInt8) : Nat := b.toNat % 64

/-- The first scalar value of a text and the number of bytes that spell it. The empty text has
neither; an ill-formed start is U+FFFD of one byte. -/
def decodeFirst : Bytes → Nat × Nat
  | [] => (replacement, 0)
  | b0 :: rest =>
    if b0 < 0x80 then (b0.toNat, 1)
    else match rest with
    | b1 :: more =>
      if 0xC2 ≤ b0 && b0 ≤ 0xDF && isTail b1 then (b0.toNat % 32 * 64 + tailBits b1, 2)
      else match more with
      | b2 :: more =>
        if 0xE0 ≤ b0 && b0 ≤ 0xEF && isSecondOf3 b0 b1 && isTail b2 then
          (b0.toNat % 16 * 4096 + tailBits b1 * 64 + tailBits b2, 3)
        else match more with
        | b3 :: _ =>
          if 0xF0 ≤ b0 && b0 ≤ 0xF4 && isSecondOf4 b0 b1 && isTail b2 && isTail b3 then
            (b0.toNat % 8 * 262144 + tailBits b1 * 4096 + tailBits b2 * 64 + tailBits b3, 4)
          else (replacement, 1)
        | [] => (replacement, 1)
      | [] => (replacement, 1)
    | [] => (replacement, 1)

/-- A scalar value with the bytes that spell it in some text. -/
structure Scalar where
  value : Nat
  bytes : Bytes
  deriving DecidableEq, Repr

/-- Whether the bytes are an ill-formed sequence and not U+FFFD as written. -/
def Scalar.isIllFormed (c : Scalar) : Bool := c.value = replacement && c.bytes.length = 1

def scalarsFrom : Nat → Bytes → List Scalar
  | _, [] => []
  | skip + 1, _ :: rest => scalarsFrom skip rest
  | 0, b :: rest =>
    let (value, size) := decodeFirst (b :: rest)
    ⟨value, (b :: rest).take size⟩ :: scalarsFrom (size - 1) rest

/-- The scalar values of a text in order; their bytes concatenate to the text. -/
def scalars (s : Bytes) : List Scalar := scalarsFrom 0 s

/-- The bytes of a scalar value; a number that is none is spelled as U+FFFD. -/
def encode (n : Nat) : Bytes :=
  if n < 0x80 then [n.toUInt8]
  else if n < 0x800 then [(0xC0 + n / 64).toUInt8, (0x80 + n % 64).toUInt8]
  else if n > 0x10FFFF || (0xD800 ≤ n && n ≤ 0xDFFF) then [0xEF, 0xBF, 0xBD]
  else if n < 0x10000 then
    [(0xE0 + n / 4096).toUInt8, (0x80 + n / 64 % 64).toUInt8, (0x80 + n % 64).toUInt8]
  else
    [(0xF0 + n / 262144).toUInt8, (0x80 + n / 4096 % 64).toUInt8,
     (0x80 + n / 64 % 64).toUInt8, (0x80 + n % 64).toUInt8]

def isWellFormed (s : Bytes) : Bool := (scalars s).all (!·.isIllFormed)

/-- The text with every ill-formed byte replaced by U+FFFD. -/
def repair (s : Bytes) : Bytes := (scalars s).flatMap (encode ·.value)

/-- How many scalar values a text has; an ill-formed byte counts as one. -/
def length (s : Bytes) : Nat := (scalars s).length

def padRight (width : Nat) (s : Bytes) : Bytes := s ++ List.replicate (width - length s) 0x20

def padLeft (width : Nat) (s : Bytes) : Bytes := List.replicate (width - length s) 0x20 ++ s

end Uml.Utf8
