import Uml.Number.Read
import Uml.Text.Bytes

/-!
# Integers with a mark of their base

`0x`, `0o` and `0b` mark the bases 16, 8 and 2, and a leading zero alone marks 8. Underscores may
stand between digits.
-/
namespace Uml.Prefixed

inductive Fault where
  | form | range
  deriving DecidableEq, Repr

/-- The base of a text without sign, and its digits. -/
def base : Bytes → Nat × Bytes
  | 0x30 :: mark :: digit :: rest =>
    match (Double.lowerByte mark).toNat with
    | 0x62 => (2, digit :: rest)
    | 0x6F => (8, digit :: rest)
    | 0x78 => (16, digit :: rest)
    | _ => (8, mark :: digit :: rest)
  | 0x30 :: rest => (8, rest)
  | s => (10, s)

/-- Reads digits on top of a number; more than 64 bits are out of range at once, whatever follows. -/
def readDigits (base : Nat) : Bytes → Nat → Except Fault Nat
  | [], n => .ok n
  | b :: rest, n =>
    if b = 0x5F then readDigits base rest n
    else
      match Double.digitIn? base b with
      | none => .error .form
      | some d => if n * base + d < Power.two 64 then readDigits base rest (n * base + d) else .error .range

/-- Whether underscores stand between digits only; the mark of a base counts as a digit. -/
def isSeparated (s : Bytes) : Bool :=
  match s with
  | 0x30 :: mark :: rest =>
    match (Double.lowerByte mark).toNat with
    | 0x78 => Double.underscoresFit (fun b => (Double.hexDigit? b).isSome) true rest
    | 0x62 | 0x6F => Double.underscoresFit Bytes.isDigit true rest
    | _ => Double.underscoresFit Bytes.isDigit false s
  | _ => Double.underscoresFit Bytes.isDigit false s

def readUnsigned (s : Bytes) : Except Fault Nat := do
  if s.isEmpty then throw .form
  let (base, digits) := base s
  let n ← readDigits base digits 0
  if s.contains 0x5F && !isSeparated s then throw .form
  pure n

/-- Reads a signed integer of 64 bits. -/
def read (s : Bytes) : Except Fault Int := do
  let n : Int ←
    match s with
    | 0x2D :: rest => do pure (-(← readUnsigned rest : Nat) : Int)
    | 0x2B :: rest => do pure (← readUnsigned rest : Nat)
    | _ => do pure (← readUnsigned s : Nat)
  if Bytes.fitsInt64 n then pure n else throw .range

end Uml.Prefixed
