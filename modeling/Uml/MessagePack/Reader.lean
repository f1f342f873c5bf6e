import Uml.MessagePack.Basic

/-! Reading MessagePack. An integer of any width is read as a plain one. -/
namespace Uml.Msg

/-- The number in the first `width` bytes, and the rest. -/
def takeNat (width : Nat) (s : Bytes) : Option (Nat × Bytes) :=
  if s.length < width then none
  else some ((s.take width).foldl (fun n b => 256 * n + b.toNat) 0, s.drop width)

def takeInt (width : Nat) (s : Bytes) : Option (Int × Bytes) :=
  (takeNat width s).map fun (n, rest) =>
    (if 2 * n < Power.bytes width then (n : Int) else n - Power.bytes width, rest)

def takeBytes (size : Nat) (s : Bytes) : Option (Bytes × Bytes) :=
  if s.length < size then none else some (s.take size, s.drop size)

/-- The size of a text, given its first byte, and what follows. -/
def takeStrSize (head : UInt8) (s : Bytes) : Option (Nat × Bytes) :=
  if 0xA0 ≤ head && head ≤ 0xBF then some (head.toNat - 0xA0, s)
  else match head with
  | 0xD9 => takeNat 1 s
  | 0xDA => takeNat 2 s
  | 0xDB => takeNat 4 s
  | _ => none

def takeStr (s : Bytes) : Option (Bytes × Bytes) :=
  match s with
  | [] => none
  | head :: rest => do
    let (size, rest) ← takeStrSize head rest
    takeBytes size rest

def takeArraySize (head : UInt8) (s : Bytes) : Option (Nat × Bytes) :=
  if 0x90 ≤ head && head ≤ 0x9F then some (head.toNat - 0x90, s)
  else match head with
  | 0xDC => takeNat 2 s
  | 0xDD => takeNat 4 s
  | _ => none

def takeMapSize (head : UInt8) (s : Bytes) : Option (Nat × Bytes) :=
  if 0x80 ≤ head && head ≤ 0x8F then some (head.toNat - 0x80, s)
  else match head with
  | 0xDE => takeNat 2 s
  | 0xDF => takeNat 4 s
  | _ => none

def takeScalar (head : UInt8) (s : Bytes) : Option (Msg × Bytes) :=
  let whole := Option.map fun ((n, rest) : Nat × Bytes) => (int n, rest)
  let signed := Option.map fun ((n, rest) : Int × Bytes) => (int n, rest)
  let blob := fun (sized : Option (Nat × Bytes)) =>
    sized.bind fun (size, rest) => (takeBytes size rest).map fun (b, rest) => (bin b, rest)
  if head ≤ 0x7F then some (int head.toNat, s)
  else if 0xE0 ≤ head then some (int (head.toNat - 256), s)
  else match head with
  | 0xC0 => some (nil, s)
  | 0xC2 => some (bool false, s)
  | 0xC3 => some (bool true, s)
  | 0xC4 => blob (takeNat 1 s)
  | 0xC5 => blob (takeNat 2 s)
  | 0xC6 => blob (takeNat 4 s)
  | 0xCB => (takeNat 8 s).map fun (n, rest) => (double ⟨n.toUInt64⟩, rest)
  | 0xCC => whole (takeNat 1 s)
  | 0xCD => whole (takeNat 2 s)
  | 0xCE => whole (takeNat 4 s)
  | 0xCF => whole (takeNat 8 s)
  | 0xD0 => signed (takeInt 1 s)
  | 0xD1 => signed (takeInt 2 s)
  | 0xD2 => signed (takeInt 4 s)
  | 0xD3 => signed (takeInt 8 s)
  | _ => none

mutual
/-- A value at the start of `s`. Every value takes a byte, so that `fuel` beyond twice the length
is never spent. -/
def take : Nat → Bytes → Option (Msg × Bytes)
  | 0, _ => none
  | _, [] => none
  | fuel + 1, head :: rest =>
    match takeStrSize head rest, takeArraySize head rest, takeMapSize head rest with
    | some (size, rest), _, _ => (takeBytes size rest).map fun (s, rest) => (str s, rest)
    | _, some (size, rest), _ => (takeItems fuel size rest).map fun (l, rest) => (array l, rest)
    | _, _, some (size, rest) => (takeEntries fuel size rest).map fun (l, rest) => (map l, rest)
    | none, none, none => takeScalar head rest

def takeItems : Nat → Nat → Bytes → Option (List Msg × Bytes)
  | _, 0, s => some ([], s)
  | 0, _ + 1, _ => none
  | fuel + 1, size + 1, s => do
    let (m, s) ← take fuel s
    let (ms, s) ← takeItems fuel size s
    return (m :: ms, s)

def takeEntries : Nat → Nat → Bytes → Option (List (Bytes × Msg) × Bytes)
  | _, 0, s => some ([], s)
  | 0, _ + 1, _ => none
  | fuel + 1, size + 1, s => do
    let (k, s) ← takeStr s
    let (m, s) ← take fuel s
    let (rest, s) ← takeEntries fuel size s
    return ((k, m) :: rest, s)
end

def first? (s : Bytes) : Option Msg := (take (2 * s.length + 2) s).map (·.1)

def get? (m : Msg) (key : String) : Option Msg :=
  match m with
  | map entries => entries.lookup (Bytes.ofString key)
  | _ => none

end Uml.Msg
