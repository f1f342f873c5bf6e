import Uml.Diagram.Value

/-!
# Settings files

Values of a settings file, and the file as written: headers of tables, headers of rows that are
added to a list of tables, and assignments to keys of several parts.
-/
namespace Uml

inductive Toml where
  | text (s : Bytes)
  | integer (n : Int)
  | float (d : Double)
  | boolean (b : Bool)
  /-- A date, a time or both, in its canonical text. -/
  | moment (text : Bytes)
  | array (items : List Toml)
  | table (entries : List (Bytes × Toml))
  /-- A list of tables that headers add rows to; the last row is the open one. -/
  | tables (rows : List (List (Bytes × Toml)))
  deriving Inhabited

namespace Toml

abbrev Entries := List (Bytes × Toml)

/-- A key of one or more parts. -/
abbrev Key := List Bytes

mutual
def toValue : Toml → Value
  | text s => .string s
  | integer n => .int n
  | float d => .double d
  | boolean b => .bool b
  | moment s => .string s
  | array items => .list (toValues items)
  | table entries => .table (toConfig entries)
  | tables rows => .list (toTables rows)

def toValues : List Toml → List Value
  | [] => []
  | v :: vs => toValue v :: toValues vs

/-- Entries as a config, in bytewise order of the keys. -/
def toConfig : Entries → Config
  | [] => []
  | (k, v) :: rest => Config.set (toConfig rest) k (toValue v)

def toTables : List Entries → List Value
  | [] => []
  | row :: rows => .table (toConfig row) :: toTables rows
end

/-- A value as written; only single values have their final form. -/
inductive Literal where
  | leaf (v : Toml)
  | array (items : List Literal)
  | inline (pairs : List (Key × Literal))
  deriving Inhabited

inductive Item where
  | header (key : Key)
  | row (key : Key)
  | assign (key : Key) (value : Literal)

/-- Letters, digits, underscores and dashes need no quotes in a key. -/
def isBare (b : UInt8) : Bool :=
  Bytes.isDigit b || (0x41 ≤ b && b ≤ 0x5A) || (0x61 ≤ b && b ≤ 0x7A) || b = 0x5F || b = 0x2D

def escapeByte (b : UInt8) : Bytes :=
  match b.toNat with
  | 0x22 => "\\\""
  | 0x5C => "\\\\"
  | 0x08 => "\\b"
  | 0x09 => "\\t"
  | 0x0A => "\\n"
  | 0x0C => "\\f"
  | 0x0D => "\\r"
  | n => if n < 0x20 || n = 0x7F then 0x5C :: 0x75 :: Quoted.hexPadded 4 n else [b]

def quote (s : Bytes) : Bytes := 0x22 :: s.flatMap escapeByte ++ [0x22]

def renderPart (part : Bytes) : Bytes :=
  if !part.isEmpty && part.all isBare then part else quote part

/-- The parts with dots between them, quoted where need be. -/
def renderKey (key : Key) : Bytes := Bytes.join "." (key.map renderPart)

end Toml
end Uml
