import Uml.Text.Utf8
import Uml.Toml.Basic
import Uml.Toml.Moment

/-!
# Reading settings files

From bytes to statements. Every byte of the file counts: text that is no UTF-8, control characters
and a carriage return without its line feed are refused wherever they stand.
-/
namespace Uml.Toml

def isBlankByte (b : UInt8) : Bool := b = 0x20 || b = 0x09

def isBreakByte (b : UInt8) : Bool := b = 0x0A || b = 0x0D

def skipBlanks (s : Bytes) : Bytes := s.dropWhile isBlankByte

/-- What follows a comment: its line break, or nothing. -/
def skipComment (s : Bytes) : Bytes := s.dropWhile (!isBreakByte ·)

def skipSpace : Nat → Bytes → Bytes
  | 0, s => s
  | n + 1, s =>
    match s.dropWhile fun b => isBlankByte b || isBreakByte b with
    | 0x23 :: rest => skipSpace n (skipComment rest)
    | s => s

def hexValue? (s : Bytes) : Option Nat :=
  s.foldl (fun n b => do pure (16 * (← n) + (← Double.hexDigit? b))) (some 0)

/-- A scalar value given by `width` hexadecimal digits. -/
def readScalar (width : Nat) (s : Bytes) : Option (Bytes × Bytes) := do
  if s.length < width then none
  else
    let n ← hexValue? (s.take width)
    if Quoted.isScalarValue n then some (Utf8.encode n, s.drop width) else none

/-- What an escape stands for; its backslash is read already. -/
def readEscape : Bytes → Option (Bytes × Bytes)
  | 0x62 :: rest => some ([0x08], rest)
  | 0x74 :: rest => some ([0x09], rest)
  | 0x6E :: rest => some ([0x0A], rest)
  | 0x66 :: rest => some ([0x0C], rest)
  | 0x72 :: rest => some ([0x0D], rest)
  | 0x22 :: rest => some ([0x22], rest)
  | 0x5C :: rest => some ([0x5C], rest)
  | 0x75 :: rest => readScalar 4 rest
  | 0x55 :: rest => readScalar 8 rest
  | _ => none

/-- A text up to its closing quote, on one line. -/
def basicBody : Nat → Bytes → Option (Bytes × Bytes)
  | 0, _ | _, [] => none
  | n + 1, b :: rest =>
    if b = 0x22 then some ([], rest)
    else if isBreakByte b then none
    else do
      let (piece, rest) ← if b = 0x5C then readEscape rest else some ([b], rest)
      let (tail, rest) ← basicBody n rest
      pure (piece ++ tail, rest)

/-- A text without escapes up to its closing quote, on one line. -/
def plainBody (s : Bytes) : Option (Bytes × Bytes) :=
  match s.dropWhile fun b => b ≠ 0x27 && !isBreakByte b with
  | 0x27 :: rest => some (s.takeWhile fun b => b ≠ 0x27 && !isBreakByte b, rest)
  | _ => none

/-- A backslash that ends a line takes the break and all blanks behind it along. -/
def readLineEnd? (s : Bytes) : Option Bytes :=
  let space := s.takeWhile fun b => isBlankByte b || isBreakByte b
  if space.contains 0x0A then some (s.drop space.length) else none

/-- A text of several lines up to three closing quotes. Up to two more quotes belong to the text. -/
def longBody (quote : UInt8) (escapes : Bool) : Nat → Bytes → Option (Bytes × Bytes)
  | 0, _ | _, [] => none
  | n + 1, b :: rest =>
    if b = quote then
      let run := 1 + (rest.takeWhile (· = quote)).length
      let rest := (b :: rest).drop run
      if run < 3 then do
        let (tail, rest) ← longBody quote escapes n rest
        pure (List.replicate run quote ++ tail, rest)
      else if run ≤ 5 then some (List.replicate (run - 3) quote, rest)
      else none
    else if escapes && b = 0x5C then
      match readLineEnd? rest with
      | some rest => longBody quote escapes n rest
      | none => do
        let (piece, rest) ← readEscape rest
        let (tail, rest) ← longBody quote escapes n rest
        pure (piece ++ tail, rest)
    else do
      let (tail, rest) ← longBody quote escapes n rest
      pure (b :: tail, rest)

/-- The break right behind three opening quotes is no part of the text. -/
def dropFirstBreak : Bytes → Bytes
  | 0x0A :: rest => rest
  | 0x0D :: 0x0A :: rest => rest
  | s => s

/-- A quoted text that may have several lines. -/
def readText : Bytes → Option (Bytes × Bytes)
  | 0x22 :: 0x22 :: 0x22 :: rest => longBody 0x22 true (rest.length + 1) (dropFirstBreak rest)
  | 0x27 :: 0x27 :: 0x27 :: rest => longBody 0x27 false (rest.length + 1) (dropFirstBreak rest)
  | 0x22 :: rest => basicBody (rest.length + 1) rest
  | 0x27 :: rest => plainBody rest
  | _ => none

def readPart : Bytes → Option (Bytes × Bytes)
  | 0x22 :: rest => basicBody (rest.length + 1) rest
  | 0x27 :: rest => plainBody rest
  | s =>
    let part := s.takeWhile isBare
    if part.isEmpty then none else some (part, s.drop part.length)

/-- Parts with dots between them, and the rest from the first byte that is neither. -/
def readKey : Nat → Bytes → Option (Key × Bytes)
  | 0, _ => none
  | n + 1, s => do
    let (part, rest) ← readPart (skipBlanks s)
    match skipBlanks rest with
    | 0x2E :: rest => do
      let (key, rest) ← readKey n rest
      pure (part :: key, rest)
    | rest => pure ([part], rest)

/-- Each underscore stands behind a digit, and the last character is a digit. -/
def underscoresFit (s : Bytes) : Bool :=
  (s.foldl (fun (ok, digit) b => (ok && (b ≠ 0x5F || digit), (Double.hexDigit? b).isSome)) (true, false))
    |> fun (ok, digit) => ok && digit

/-- Only a number that is zero starts with a zero. -/
def leadingZero : Bytes → Bool
  | 0x30 :: b :: _ => !(b = 0x62 || b = 0x6F || b = 0x78)
  | sign :: 0x30 :: _ :: _ => sign = 0x2B || sign = 0x2D
  | _ => false

def digitsIn (base : Nat) (s : Bytes) : Option Nat :=
  s.foldl (fun n b => do pure (base * (← n) + (← Double.digitIn? base b))) (some 0)

/-- The base that a mark behind a leading zero stands for. -/
def baseOf? (b : UInt8) : Option Nat :=
  if b = 0x62 then some 2 else if b = 0x6F then some 8 else if b = 0x78 then some 16 else none

def integer? (s : Bytes) : Option Toml := do
  if !underscoresFit s || leadingZero s then none
  else
    let n ← Bytes.toInt? (s.filter (· ≠ 0x5F))
    if Bytes.fitsInt64 n then some (.integer n) else none

/-- A period has digits on both sides. -/
def periodsFit (s : Bytes) : Bool :=
  (s.foldl (fun (ok, dot) b => (ok && (!dot || Bytes.isDigit b), b = 0x2E)) (true, false))
    |> fun (ok, dot) => ok && !dot

def isFloatMark (b : UInt8) : Bool := b = 0x2E || b = 0x65 || b = 0x45

/-- The non-empty pieces between points and exponent marks. -/
def floatParts (s : Bytes) : List Bytes :=
  (Bytes.splitByte 0x2E (s.map fun b => if isFloatMark b then 0x2E else b)).filter (!·.isEmpty)

def float? (s : Bytes) : Option Toml := do
  let parts := floatParts s
  if !parts.all underscoresFit || parts.head?.any leadingZero || !periodsFit s then none
  else
    let d ← Double.read? (s.filter (· ≠ 0x5F))
    pure (.float d)

/-- Digits, with what a decimal number may go on with. -/
def readDecimal (sign s : Bytes) : Option (Toml × Bytes) :=
  let whole := s.takeWhile fun b => Bytes.isDigit b || b = 0x5F
  let rest := s.drop whole.length
  match rest with
  | b :: _ =>
    if isFloatMark b then
      let tail := rest.takeWhile fun b =>
        Bytes.isDigit b || isFloatMark b || b = 0x5F || b = 0x2B || b = 0x2D
      (float? (sign ++ whole ++ tail)).map (·, rest.drop tail.length)
    else (integer? (sign ++ whole)).map (·, rest)
  | [] => (integer? (sign ++ whole)).map (·, rest)

/-- Digits of a given base, two bytes behind the start. -/
def readBased (base : Nat) (s : Bytes) : Option (Toml × Bytes) := do
  let body := s.drop 2
  let digits := body.takeWhile fun b => (Double.digitIn? base b).isSome || b = 0x5F
  if digits.head?.all (· = 0x5F) || !underscoresFit digits then none
  else
    let n ← digitsIn base (digits.filter (· ≠ 0x5F))
    if Bytes.fitsInt64 n then some (.integer n, body.drop digits.length) else none

def isMomentByte (b : UInt8) : Bool :=
  Bytes.isDigit b || (Bytes.ofString "-:Tt .Zz+").contains b

def readMoment (s : Bytes) : Option (Toml × Bytes) := do
  let run := s.takeWhile isMomentByte
  let text ← moment? (run.reverse.dropWhile (· = 0x20)).reverse
  pure (.moment text, s.drop run.length)

/-- A number or a moment that starts with a digit. A zero alone starts no moment. -/
def readDigits (s : Bytes) : Option (Toml × Bytes) :=
  match s with
  | 0x30 :: b :: _ =>
    match baseOf? b with
    | some base => readBased base s
    | none => if Bytes.isDigit b then readPlain s else readDecimal [] s
  | s => readPlain s
where
  readPlain (s : Bytes) : Option (Toml × Bytes) :=
    match s.dropWhile Bytes.isDigit with
    | b :: _ => if b = 0x2D || b = 0x3A then readMoment s else readDecimal [] s
    | [] => readDecimal [] s

def readWord (word : String) (v : Toml) (s : Bytes) : Option (Toml × Bytes) :=
  let word := Bytes.ofString word
  if word.isPrefixOf s then some (v, s.drop word.length) else none

/-- A number with a sign is decimal. -/
def readSigned (sign : UInt8) (s : Bytes) : Option (Toml × Bytes) :=
  readWord "inf" (.float (.infinity (sign = 0x2D))) s <|> readWord "nan" (.float .nan) s <|>
    match s with
    | b :: _ => if Bytes.isDigit b then readDecimal [sign] s else none
    | [] => none

/-- A value that is neither an array nor a table. -/
def readLeaf (s : Bytes) : Option (Toml × Bytes) :=
  match s with
  | [] => none
  | b :: rest =>
    if b = 0x22 || b = 0x27 then (readText s).map fun (t, rest) => (.text t, rest)
    else if Bytes.isDigit b then readDigits s
    else if b = 0x2B || b = 0x2D then readSigned b rest
    else
      readWord "true" (.boolean true) s <|> readWord "false" (.boolean false) s
        <|> readWord "inf" (.float (.infinity false)) s <|> readWord "nan" (.float .nan) s

mutual
def readValue : Nat → Bytes → Option (Literal × Bytes)
  | 0, _ => none
  | n + 1, s =>
    match skipBlanks s with
    | 0x5B :: rest => (readItems n rest).map fun (items, rest) => (.array items, rest)
    | 0x7B :: rest =>
      match skipBlanks rest with
      | 0x7D :: rest => some (.inline [], rest)
      | rest => (readPairs n rest).map fun (pairs, rest) => (.inline pairs, rest)
    | s => (readLeaf s).map fun (v, rest) => (.leaf v, rest)

/-- The items of an array up to its end; a comma may follow the last one. -/
def readItems : Nat → Bytes → Option (List Literal × Bytes)
  | 0, _ => none
  | n + 1, s =>
    match skipSpace s.length s with
    | 0x5D :: rest => some ([], rest)
    | s => do
      let (v, rest) ← readValue n s
      match skipSpace rest.length rest with
      | 0x2C :: rest => do
        let (vs, rest) ← readItems n rest
        pure (v :: vs, rest)
      | 0x5D :: rest => pure ([v], rest)
      | _ => none

/-- The assignments of a table on one line up to its end; no comma follows the last one. -/
def readPairs : Nat → Bytes → Option (List (Key × Literal) × Bytes)
  | 0, _ => none
  | n + 1, s => do
    let (key, rest) ← readKey (s.length + 1) s
    let rest ← readMark '=' rest
    let (v, rest) ← readValue n rest
    match skipBlanks rest with
    | 0x2C :: rest => do
      let (pairs, rest) ← readPairs n rest
      pure ((key, v) :: pairs, rest)
    | 0x7D :: rest => pure ([(key, v)], rest)
    | _ => none
end

def readItem (s : Bytes) : Option (Item × Bytes) :=
  match s with
  | 0x5B :: 0x5B :: rest => do
    let (key, rest) ← readKey (rest.length + 1) rest
    let rest ← readMark ']' (← readMark ']' rest)
    pure (.row key, rest)
  | 0x5B :: rest => do
    let (key, rest) ← readKey (rest.length + 1) rest
    pure (.header key, ← readMark ']' rest)
  | s => do
    let (key, rest) ← readKey (s.length + 1) s
    let rest ← readMark '=' rest
    let (v, rest) ← readValue (2 * rest.length + 2) rest
    pure (.assign key v, rest)

/-- A statement ends with its line. -/
def endsLine (s : Bytes) : Bool :=
  match skipBlanks s with
  | [] => true
  | b :: _ => isBreakByte b || b = 0x23

def readItemsFrom : Nat → Bytes → Option (List Item)
  | 0, _ => none
  | n + 1, s =>
    match skipSpace s.length s with
    | [] => some []
    | s => do
      let (item, rest) ← readItem s
      if endsLine rest then
        let items ← readItemsFrom n rest
        pure (item :: items)
      else none

/-- Whether a file has only characters that may stand in one. -/
def charactersFit : List Utf8.Scalar → Bool
  | [] => true
  | c :: rest =>
    let n := c.value
    n ≠ Utf8.replacement && n ≠ 0x7F && (0x20 ≤ n || n = 0x09 || n = 0x0A
        || (n = 0x0D && rest.head?.any (·.value = 0x0A)))
      && charactersFit rest

/-- Marks of a byte order that are ignored. -/
def dropMark : Bytes → Bytes
  | 0xFF :: 0xFE :: rest => rest
  | 0xFE :: 0xFF :: rest => rest
  | 0xEF :: 0xBB :: 0xBF :: rest => rest
  | s => s

def items? (s : Bytes) : Option (List Item) :=
  let s := dropMark s
  if charactersFit (Utf8.scalars s) then readItemsFrom (s.length + 1) s else none

end Uml.Toml
