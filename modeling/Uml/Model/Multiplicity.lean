import Uml.Text.Category
import Uml.Text.Quoted

/-!
# Multiplicities

How many objects take part at one end: a number, a range, or everything from a number on.
-/
namespace Uml

structure Multiplicity where
  lower : Nat
  /-- No number for a range without end. -/
  upper : Option Nat
  deriving DecidableEq, Repr, Inhabited

inductive MultiplicityError where
  | empty
  | malformed (raw : Bytes)
  | manyRanges (raw : Bytes)
  | inverted (lower upper : Nat)
  deriving DecidableEq, Repr

/-- Whether the numbers, not the form, are wrong. -/
def MultiplicityError.isBounds : MultiplicityError → Bool
  | inverted .. => true
  | _ => false

def MultiplicityError.message : MultiplicityError → Bytes
  | empty => "malformed multiplicity: empty"
  | malformed raw => "malformed multiplicity: " ++ Quoted.text raw
  | manyRanges raw => "malformed multiplicity: " ++ Quoted.text raw ++ " has more than one '..'"
  | inverted lower upper =>
    "inconsistent multiplicity bounds: upper " ++ Bytes.ofNat upper ++ " is below lower "
      ++ Bytes.ofNat lower

namespace Multiplicity

def many : Multiplicity := ⟨0, none⟩

def isSingle (m : Multiplicity) : Bool := m.upper = some m.lower

/-- Whether the upper bound is a number and at most `n`. -/
def upperAtMost (m : Multiplicity) (n : Nat) : Bool :=
  match m.upper with
  | some u => u ≤ n
  | none => false

def render (m : Multiplicity) : Bytes :=
  match m.upper with
  | none => if m.lower = 0 then "*" else Bytes.ofNat m.lower ++ "..*"
  | some u =>
    if u = m.lower then Bytes.ofNat m.lower else Bytes.ofNat m.lower ++ ".." ++ Bytes.ofNat u

/-- Bounds are 63-bit numbers. -/
def maxBound : Nat := 9223372036854775807

def bound? (s : Bytes) : Option Nat :=
  match Bytes.toNat? s.trim with
  | some n => if n ≤ maxBound then some n else none
  | none => none

def isQuote (b : UInt8) : Bool := b = 0x22 || b = 0x27

/-- The text without brackets, quotes and blanks around it. -/
def unwrap (raw : Bytes) : Bytes :=
  let inner := Bytes.stripTail "]" (Bytes.stripLead "[" raw.trim)
  Bytes.trim ((inner.dropWhile isQuote).reverse.dropWhile isQuote).reverse

def parse (raw : Bytes) : Except MultiplicityError Multiplicity :=
  let text := unwrap raw
  if text.isEmpty then .error .empty
  else if text = "*" then .ok many
  else match Bytes.splitOn ".." text with
  | [single] =>
    match bound? single with
    | some n => .ok ⟨n, some n⟩
    | none => .error (.malformed raw)
  | [low, high] =>
    match bound? low with
    | none => .error (.malformed raw)
    | some lower =>
      if high.trim = "*" then .ok ⟨lower, none⟩
      else match bound? high with
      | none => .error (.malformed raw)
      | some upper => if upper < lower then .error (.inverted lower upper) else .ok ⟨lower, some upper⟩
  | _ => .error (.manyRanges raw)

end Multiplicity
end Uml
