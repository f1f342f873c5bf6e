import Uml.Number.Double

/-!
# Shortest decimals

The fewest digits that read back as the same number, and of those the nearest to it. On each
decimal grid only the two neighbours of the number are candidates.
-/
namespace Uml.Double

/-- A decimal `digits * 10 ^ exponent`. -/
structure Decimal where
  digits : Nat
  exponent : Int
  deriving DecidableEq, Repr, Inhabited

/-- `x * 10 ^ k ≤ a * 2 ^ p`, decided in natural numbers. -/
def decimalLe (x : Nat) (k : Int) (a : Nat) (p : Int) : Bool :=
  x * Power.ten k.toNat * Power.two (-p).toNat ≤ a * Power.two p.toNat * Power.ten (-k).toNat

/-- `a * 2 ^ p ≤ x * 10 ^ k`, decided in natural numbers. -/
def binaryLe (a : Nat) (p : Int) (x : Nat) (k : Int) : Bool :=
  a * Power.two p.toNat * Power.ten (-k).toNat ≤ x * Power.ten k.toNat * Power.two (-p).toNat

/-- The exponent of ten at or below a positive `m * 2 ^ q`. -/
def log10 (m : Nat) (q : Int) : Int :=
  let a := m * Power.two q.toNat
  let b := Power.two (-q).toNat
  if b ≤ a then (Nat.toDigits 10 (a / b)).length - 1
  else -((Nat.toDigits 10 ((b + a - 1) / a - 1)).length : Int)

/-- Whether `x * 10 ^ k` reads back as `m * 2 ^ q`: it lies between the midpoints to the neighbours,
which belong to an even significand. Below a power of two the neighbour is nearer. -/
def readsBack (m : Nat) (q : Int) (x : Nat) (k : Int) : Bool :=
  let low := 4 * m - if m = Power.two 52 && -1074 < q then 1 else 2
  let high := 4 * m + 2
  if m % 2 = 0 then binaryLe low (q - 2) x k && decimalLe x k high (q - 2)
  else !decimalLe x k low (q - 2) && !binaryLe high (q - 2) x k

/-- Whether `x * 10 ^ k` is no further below `m * 2 ^ q` than the next grid point is above it. -/
def isLowerNearer (m : Nat) (q : Int) (x : Nat) (k : Int) : Bool :=
  binaryLe (2 * m) q (2 * x + 1) k

/-- The candidate on the grid of `10 ^ k`, if one reads back. -/
def onGrid? (m : Nat) (q k : Int) : Option Decimal :=
  let x := m * Power.two q.toNat * Power.ten (-k).toNat / (Power.two (-q).toNat * Power.ten k.toNat)
  let low := readsBack m q x k
  let high := readsBack m q (x + 1) k
  if low && (!high || isLowerNearer m q x k) then some ⟨x, k⟩
  else if high then some ⟨x + 1, k⟩
  else none

/-- Drops zeros at the end of the digits. -/
def Decimal.trimWithin : Nat → Decimal → Decimal
  | 0, d => d
  | n + 1, d =>
    if d.digits ≠ 0 && d.digits % 10 = 0 then trimWithin n ⟨d.digits / 10, d.exponent + 1⟩ else d

/-- The shortest decimal of a finite positive number; seventeen digits are always enough. -/
def shortest (d : Double) : Decimal :=
  let m := d.significand
  let q := d.exponent
  let top := log10 m q
  let found := (List.range 17).findSome? fun n => onGrid? m q (top - (n : Nat))
  (found.getD ⟨0, 0⟩).trimWithin 20

/-- How a number is written: exponents of ten from `least` up to, not including, `limit` are
written without an exponent; the others have at least `width` digits in theirs. -/
structure Style where
  least : Int
  limit : Int
  width : Nat

/-- Digits with a point after the first `whole` of them; missing ones are zeros. -/
def placePoint (digits : Bytes) (whole : Int) : Bytes :=
  if whole ≤ 0 then Bytes.ofString "0." ++ List.replicate (-whole).toNat 0x30 ++ digits
  else
    let n := whole.toNat
    if digits.length ≤ n then digits ++ List.replicate (n - digits.length) 0x30
    else digits.take n ++ "." ++ digits.drop n

def scientific (s : Style) (digits : Bytes) (e : Int) : Bytes :=
  let mantissa := if digits.length ≤ 1 then digits else digits.take 1 ++ "." ++ digits.drop 1
  let sign : Bytes := if e < 0 then "-" else "+"
  mantissa ++ "e" ++ sign ++ Bytes.padZero s.width (Bytes.ofNat e.natAbs)

def renderFinite (s : Style) (d : Double) : Bytes :=
  let sign : Bytes := if d.isNegative then "-" else ""
  if d.significand = 0 then sign ++ "0"
  else
    let dec := d.shortest
    let digits := Bytes.ofNat dec.digits
    let e := dec.exponent + digits.length - 1
    sign ++ if s.least ≤ e && e < s.limit then placePoint digits (e + 1) else scientific s digits e

/-- Numbers in texts for people. -/
def plainStyle : Style := ⟨-4, 6, 2⟩

/-- Numbers in JSON. -/
def jsonStyle : Style := ⟨-6, 21, 1⟩

def render (d : Double) : Bytes :=
  if d.isNaN then "NaN"
  else if !d.isFinite then if d.isNegative then "-Inf" else "+Inf"
  else renderFinite plainStyle d

end Uml.Double
