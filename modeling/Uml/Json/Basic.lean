import Uml.Text.Quoted

/-!
# JSON values and their text

Objects keep the order of their members, and a number is the text that spells it.
-/
namespace Uml

inductive Json where
  | null
  | bool (b : Bool)
  | number (text : Bytes)
  | string (s : Bytes)
  | array (items : List Json)
  | object (members : List (Bytes × Json))
  deriving Inhabited

namespace Json

instance : Coe Bytes Json := ⟨string⟩
instance : Coe Bool Json := ⟨bool⟩

def int (n : Int) : Json := number (Bytes.ofInt n)

def nat (n : Nat) : Json := number (Bytes.ofNat n)

structure Layout where
  /-- Blanks per level on lines of their own; zero for one line. -/
  indent : Nat := 0
  /-- Whether `<`, `>` and `&` are escaped, as text inside markup needs. -/
  markup : Bool := false

/-- One line, nothing escaped beyond need. -/
def Layout.compact : Layout := {}

/-- Two blanks a level, safe inside markup. -/
def Layout.pretty : Layout := { indent := 2, markup := true }

def escapeScalar (markup : Bool) (c : Utf8.Scalar) : Bytes :=
  if c.isIllFormed then "\\ufffd"
  else match c.value with
  | 0x22 => "\\\""
  | 0x5C => "\\\\"
  | 0x08 => "\\b"
  | 0x0C => "\\f"
  | 0x0A => "\\n"
  | 0x0D => "\\r"
  | 0x09 => "\\t"
  | n =>
    if n < 0x20 || n = 0x2028 || n = 0x2029 || (markup && (n = 0x3C || n = 0x3E || n = 0x26)) then
      0x5C :: 0x75 :: Quoted.hexPadded 4 n
    else c.bytes

def renderString (markup : Bool) (s : Bytes) : Bytes :=
  0x22 :: (Utf8.scalars s).flatMap (escapeScalar markup) ++ [0x22]

/-- The break before an item of depth `depth`. -/
def Layout.newline (l : Layout) (depth : Nat) : Bytes :=
  if l.indent = 0 then [] else 0x0A :: List.replicate (l.indent * depth) 0x20

mutual
def renderAt (l : Layout) (depth : Nat) : Json → Bytes
  | null => "null"
  | bool true => "true"
  | bool false => "false"
  | number text => text
  | string s => renderString l.markup s
  | array [] => "[]"
  | array (v :: vs) =>
    0x5B :: l.newline (depth + 1) ++ renderAt l (depth + 1) v ++ renderItems l (depth + 1) vs
      ++ l.newline depth ++ [0x5D]
  | object [] => "\x7b\x7d"
  | object ((k, v) :: ms) =>
    0x7B :: l.newline (depth + 1) ++ renderString l.markup k ++ renderColon l
      ++ renderAt l (depth + 1) v ++ renderMembers l (depth + 1) ms ++ l.newline depth ++ [0x7D]

def renderItems (l : Layout) (depth : Nat) : List Json → Bytes
  | [] => []
  | v :: vs => 0x2C :: l.newline depth ++ renderAt l depth v ++ renderItems l depth vs

def renderMembers (l : Layout) (depth : Nat) : List (Bytes × Json) → Bytes
  | [] => []
  | (k, v) :: ms =>
    0x2C :: l.newline depth ++ renderString l.markup k ++ renderColon l ++ renderAt l depth v
      ++ renderMembers l depth ms

def renderColon (l : Layout) : Bytes := if l.indent = 0 then ":" else ": "
end

def render (l : Layout) (v : Json) : Bytes := renderAt l 0 v

def get? (v : Json) (key : Bytes) : Option Json :=
  match v with
  | object ms => ms.reverse.lookup key
  | _ => none

end Json
end Uml
