import Uml.Text.Bytes

/-!
# Dates and times in settings

A moment is a date, a time of day, or a date and a time with or without an offset from universal
time. Its canonical text has date, time and offset; what is not given is the year zero, midnight
and universal time.
-/
namespace Uml.Toml

def isLeap (year : Nat) : Bool := year % 4 = 0 && (year % 100 ≠ 0 || year % 400 = 0)

def daysIn (year month : Nat) : Nat :=
  match month with
  | 2 => if isLeap year then 29 else 28
  | 4 | 6 | 9 | 11 => 30
  | _ => 31

def readFixed (width : Nat) (s : Bytes) : Option (Nat × Bytes) :=
  if width ≤ s.length then (Bytes.toNat? (s.take width)).map (·, s.drop width) else none

def readMark (mark : Char) : Bytes → Option Bytes
  | b :: rest => if b = Bytes.ascii mark then some rest else none
  | [] => none

/-- A calendar date; the text is what was read. -/
def readDate (s : Bytes) : Option (Bytes × Bytes) := do
  let (year, rest) ← readFixed 4 s
  let (month, rest) ← readFixed 2 (← readMark '-' rest)
  let (day, rest) ← readFixed 2 (← readMark '-' rest)
  if 1 ≤ month && month ≤ 12 && 1 ≤ day && day ≤ daysIn year month then some (s.take 10, rest)
  else none

/-- Fractions of a second down to nanoseconds, without trailing zeros. -/
def readFractions : Bytes → Bytes × Bytes
  | 0x2E :: rest =>
    let digits := rest.takeWhile Bytes.isDigit
    let kept := ((digits.take 9).reverse.dropWhile (· = 0x30)).reverse
    if digits.isEmpty then ([], 0x2E :: rest)
    else (Bytes.when (!kept.isEmpty) (0x2E :: kept), rest.drop digits.length)
  | s => ([], s)

def readShort (s : Bytes) : Option (Nat × Bytes) := readFixed 2 s <|> readFixed 1 s

def twoDigits (n : Nat) : Bytes := Bytes.padZero 2 (Bytes.ofNat n)

/-- A time of day; the hour may have one digit. -/
def readTime (s : Bytes) : Option (Bytes × Bytes) := do
  let (hour, rest) ← readShort s
  let (minute, rest) ← readFixed 2 (← readMark ':' rest)
  let (second, rest) ← readFixed 2 (← readMark ':' rest)
  let (fractions, rest) := readFractions rest
  if hour < 24 && minute < 60 && second < 60 then
    some (twoDigits hour ++ ":" ++ twoDigits minute ++ ":" ++ twoDigits second ++ fractions, rest)
  else none

/-- The offset at the end of a moment; none is universal time. Sixty minutes count as an hour. -/
def readOffset (s : Bytes) : Option Bytes :=
  match s with
  | [] => some "Z"
  | [0x5A] => some "Z"
  | sign :: rest => do
    let (hour, rest) ← readFixed 2 rest
    let (minute, rest) ← readFixed 2 (← readMark ':' rest)
    let total := 60 * hour + minute
    if (sign = 0x2B || sign = 0x2D) && hour ≤ 24 && minute ≤ 60 && rest.isEmpty then
      some (if total = 0 then "Z" else sign :: twoDigits (total / 60) ++ ":" ++ twoDigits (total % 60))
    else none

/-- A blank or a small letter may stand for the letters of the canonical form. -/
def plainMark (b : UInt8) : UInt8 :=
  if b = 0x74 || b = 0x20 then 0x54 else if b = 0x7A then 0x5A else b

/-- The canonical text of a moment. -/
def moment? (s : Bytes) : Option Bytes :=
  let s := s.map plainMark
  match readDate s with
  | some (date, []) => some (date ++ "T00:00:00Z")
  | some (date, rest) => do
    let (time, rest) ← readTime (← readMark 'T' rest)
    pure (date ++ "T" ++ time ++ (← readOffset rest))
  | none => do
    let (time, rest) ← readTime s
    if rest.isEmpty then some ("0000-01-01T" ++ time ++ "Z") else none

end Uml.Toml
