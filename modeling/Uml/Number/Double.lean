import Uml.Text.Bytes

/-! Powers of natural numbers that the forms of numbers are built on. -/
namespace Uml.Power

def two (n : Nat) : Nat := Nat.pow 2 n

def ten (n : Nat) : Nat := Nat.pow 10 n

/-- The number of values that so many bytes can have. -/
def bytes (n : Nat) : Nat := Nat.pow 256 n

end Uml.Power

/-!
# Double precision numbers

A number is its 64 bits. A finite magnitude is `m * 2 ^ q` for a significand `m` below `2 ^ 53`;
rounding goes to the nearest such number, and a tie to the even significand. Numbers are summed, and
written with a fixed number of places.
-/
namespace Uml

structure Double where
  bits : UInt64
  deriving DecidableEq, Repr, Inhabited

namespace Double

def isNegative (d : Double) : Bool := 0x8000000000000000 ≤ d.bits

def exponentField (d : Double) : Nat := d.bits.toNat / Power.two 52 % 2048

def fraction (d : Double) : Nat := d.bits.toNat % Power.two 52

def isFinite (d : Double) : Bool := d.exponentField ≠ 2047

def isNaN (d : Double) : Bool := !d.isFinite && d.fraction ≠ 0

/-- The significand `m` of a finite number. -/
def significand (d : Double) : Nat :=
  if d.exponentField = 0 then d.fraction else d.fraction + Power.two 52

/-- The exponent `q` of a finite number. -/
def exponent (d : Double) : Int := (max d.exponentField 1 : Nat) - 1075

def withSign (negative : Bool) (magnitude : Nat) : Double :=
  ⟨(if negative then magnitude + Power.two 63 else magnitude).toUInt64⟩

def infinity (negative : Bool) : Double := withSign negative (2047 * Power.two 52)

def nan : Double := ⟨0x7FF8000000000001⟩

/-- The bits of `m * 2 ^ q`, for a significand of 53 bits or the least exponent. -/
def encode (m : Nat) (q : Int) : Nat :=
  if m < Power.two 52 then m else (q + 1075).toNat * Power.two 52 + (m - Power.two 52)

/-- Division to the nearest number; a tie goes to the even one. -/
def divNearest (a b : Nat) : Nat :=
  let half := 2 * (a % b)
  if half < b || (half = b && a / b % 2 = 0) then a / b else a / b + 1

/-- The exponent of two at or below a positive ratio. -/
def log2Ratio (a b : Nat) : Int :=
  let e : Int := a.log2 - b.log2
  if b * Power.two e.toNat ≤ a * Power.two (-e).toNat then e else e - 1

/-- The number nearest to `a / b`; none if it is too large. -/
def ofRatio? (negative : Bool) (a b : Nat) : Option Double :=
  if a = 0 then some (withSign negative 0)
  else
    let q := max (log2Ratio a b - 52) (-1074)
    let m := divNearest (a * Power.two (-q).toNat) (b * Power.two q.toNat)
    let (m, q) := if m = Power.two 53 then (Power.two 52, q + 1) else (m, q)
    if q > 971 then none else some (withSign negative (encode m q))

/-- The number nearest to `m * 2 ^ e`. -/
def ofBinary? (negative : Bool) (m : Nat) (e : Int) : Option Double :=
  if m = 0 || (m.log2 : Int) + e < -1100 then some (withSign negative 0)
  else if (m.log2 : Int) + e > 1100 then none
  else ofRatio? negative (m * Power.two e.toNat) (Power.two (-e).toNat)

/-- The number nearest to `m * 10 ^ e`. -/
def ofDecimal? (negative : Bool) (m : Nat) (e : Int) : Option Double :=
  let size : Int := (Nat.toDigits 10 m).length
  if m = 0 || size + e < -400 then some (withSign negative 0)
  else if size + e > 400 then none
  else ofRatio? negative (m * Power.ten e.toNat) (Power.ten (-e).toNat)

/-- The number nearest to the exact sum of two finite numbers. -/
def add (a b : Double) : Double :=
  let q := min a.exponent b.exponent
  let scaled (d : Double) : Int :=
    let m := (d.significand * Power.two (d.exponent - q).toNat : Nat)
    if d.isNegative then -(m : Int) else m
  let sum := scaled a + scaled b
  let negative := if sum = 0 then a.isNegative && b.isNegative else sum < 0
  (ofBinary? negative sum.natAbs q).getD (infinity negative)

def zero : Double := ⟨0⟩

def sum (l : List Double) : Double := l.foldl add zero

/-- A finite number with `places` digits behind the point, rounded to the nearest such number; a
tie goes to the even digit. -/
def fixed (places : Nat) (d : Double) : Bytes :=
  let scaled := divNearest (d.significand * Power.two d.exponent.toNat * Power.ten places) (Power.two (-d.exponent).toNat)
  let digits := (Bytes.ofNat scaled).padZero (places + 1)
  let whole := digits.length - places
  Bytes.when d.isNegative "-" ++ digits.take whole
    ++ Bytes.when (0 < places) (0x2E :: digits.drop whole)

end Double
end Uml
