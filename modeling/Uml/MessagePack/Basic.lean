import Uml.Number.Double

/-!
# MessagePack

A binary form of nested values. Every value starts with a byte that tells its kind and, for short
ones, its size. Integers have a shortest form, or a fixed width where a record asks for one.
-/
namespace Uml

inductive Msg where
  | nil
  | bool (b : Bool)
  /-- In the shortest form. -/
  | int (n : Int)
  | uint8 (n : Nat)
  | uint16 (n : Nat)
  | uint32 (n : Nat)
  | int64 (n : Int)
  | double (d : Double)
  | str (s : Bytes)
  | bin (s : Bytes)
  | array (items : List Msg)
  | map (entries : List (Bytes × Msg))
  deriving Inhabited

namespace Msg

/-- The low `width` bytes of a number, highest first. -/
def bigEndian : Nat → Nat → Bytes
  | 0, _ => []
  | width + 1, n => (n / Power.bytes width).toUInt8 :: bigEndian width n

def wrapped (width : Nat) (n : Int) : Bytes := bigEndian width (n % Power.bytes width).toNat

def encodeInt (n : Int) : Bytes :=
  if 0 ≤ n then
    if n ≤ 127 then bigEndian 1 n.toNat
    else if n ≤ 255 then 0xCC :: bigEndian 1 n.toNat
    else if n ≤ 65535 then 0xCD :: bigEndian 2 n.toNat
    else if n ≤ 4294967295 then 0xCE :: bigEndian 4 n.toNat
    else 0xCF :: bigEndian 8 n.toNat
  else if -32 ≤ n then wrapped 1 n
  else if -128 ≤ n then 0xD0 :: wrapped 1 n
  else if -32768 ≤ n then 0xD1 :: wrapped 2 n
  else if -2147483648 ≤ n then 0xD2 :: wrapped 4 n
  else 0xD3 :: wrapped 8 n

/-- The start of a text: a short one has its size in the first byte. -/
def strHead (size : Nat) : Bytes :=
  if size < 32 then [(0xA0 + size).toUInt8]
  else if size < 256 then 0xD9 :: bigEndian 1 size
  else if size < 65536 then 0xDA :: bigEndian 2 size
  else 0xDB :: bigEndian 4 size

def binHead (size : Nat) : Bytes :=
  if size < 256 then 0xC4 :: bigEndian 1 size
  else if size < 65536 then 0xC5 :: bigEndian 2 size
  else 0xC6 :: bigEndian 4 size

def arrayHead (size : Nat) : Bytes :=
  if size < 16 then [(0x90 + size).toUInt8]
  else if size < 65536 then 0xDC :: bigEndian 2 size
  else 0xDD :: bigEndian 4 size

def mapHead (size : Nat) : Bytes :=
  if size < 16 then [(0x80 + size).toUInt8]
  else if size < 65536 then 0xDE :: bigEndian 2 size
  else 0xDF :: bigEndian 4 size

def encodeStr (s : Bytes) : Bytes := strHead s.length ++ s

mutual
def encode : Msg → Bytes
  | nil => [0xC0]
  | bool false => [0xC2]
  | bool true => [0xC3]
  | int n => encodeInt n
  | uint8 n => 0xCC :: bigEndian 1 n
  | uint16 n => 0xCD :: bigEndian 2 n
  | uint32 n => 0xCE :: bigEndian 4 n
  | int64 n => 0xD3 :: wrapped 8 n
  | double d => 0xCB :: bigEndian 8 d.bits.toNat
  | str s => encodeStr s
  | bin s => binHead s.length ++ s
  | array items => arrayHead items.length ++ encodeItems items
  | map entries => mapHead entries.length ++ encodeEntries entries

def encodeItems : List Msg → Bytes
  | [] => []
  | m :: ms => encode m ++ encodeItems ms

def encodeEntries : List (Bytes × Msg) → Bytes
  | [] => []
  | (k, m) :: rest => encodeStr k ++ encode m ++ encodeEntries rest
end

end Msg
end Uml
