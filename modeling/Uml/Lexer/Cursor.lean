import Uml.Source.File
import Uml.Text.Utf8

/-!
# Reading a file byte by byte

A cursor is an offset into a file, held in a 32-bit word. A scan is a program that reads at the
cursor and moves it. A read outside the content stops a scan, and so does a loop that goes round
more often than the content has bytes.
-/
namespace Uml

structure Cursor where
  file : Nat := 0
  content : Array UInt8
  offset : UInt32 := 0

inductive ReadFault where
  /-- A read at an offset where the content has no byte. -/
  | outside (offset : UInt32)
  /-- A loop that does not end. -/
  | endless
  deriving DecidableEq, Repr

namespace Cursor

def ofFile (f : File) : Cursor := { file := f.id, content := f.content }

def limit (c : Cursor) : UInt32 := c.content.size.toUInt32

def atEnd (c : Cursor) : Bool := c.limit ≤ c.offset

def read (c : Cursor) (offset : UInt32) : Except ReadFault UInt8 :=
  match c.content[offset.toNat]? with
  | some b => .ok b
  | none => .error (.outside offset)

/-- The next scalar value and its size; the size is zero at the end. -/
def scalar (c : Cursor) : Nat × Nat :=
  if c.atEnd then (Utf8.replacement, 0)
  else Utf8.decodeFirst (c.content.extract c.offset.toNat (c.offset.toNat + 4)).toList

/-- From a remembered offset up to the cursor. -/
def spanFrom (c : Cursor) (mark : UInt32) : Span := ⟨c.file, mark.toNat, c.offset.toNat⟩

end Cursor

abbrev Scan := StateT Cursor (Except ReadFault)

namespace Scan

def atEnd : Scan Bool := return (← get).atEnd

def mark : Scan UInt32 := return (← get).offset

def reset (offset : UInt32) : Scan Unit := modify ({ · with offset })

def spanFrom (mark : UInt32) : Scan Span := return (← get).spanFrom mark

def read (offset : UInt32) : Scan UInt8 := do (← get).read offset

def advance (n : UInt32) : Scan Unit := modify fun c => { c with offset := c.offset + n }

def peek : Scan UInt8 := do
  let c ← get
  if c.atEnd then pure 0 else read c.offset

def peek2 : Scan (Option (UInt8 × UInt8)) := do
  let c ← get
  if c.limit ≤ c.offset + 1 then pure none
  else
    let b0 ← read c.offset
    let b1 ← read (c.offset + 1)
    pure (some (b0, b1))

def peek3 : Scan (Option (UInt8 × UInt8 × UInt8)) := do
  let c ← get
  if c.limit ≤ c.offset + 2 then pure none
  else
    let b0 ← read c.offset
    let b1 ← read (c.offset + 1)
    let b2 ← read (c.offset + 2)
    pure (some (b0, b1, b2))

/-- Moves over the next byte and answers it; zero at the end, where nothing moves. -/
def bump : Scan UInt8 := do
  let c ← get
  if c.atEnd then pure 0
  else
    let b ← read c.offset
    advance 1
    pure b

def eat (b : UInt8) : Scan Bool := do
  let c ← get
  if c.atEnd then pure false
  else if (← read c.offset) = b then
    advance 1
    pure true
  else pure false

def peekScalar : Scan (Nat × Nat) := return (← get).scalar

def bumpScalar : Scan Unit := do
  let (_, size) ← peekScalar
  advance size.toUInt32

def try2 (a b : UInt8) : Scan Bool := do
  if (← peek2) = some (a, b) then
    advance 2
    pure true
  else pure false

def try3 (a b c : UInt8) : Scan Bool := do
  if (← peek3) = some (a, b, c) then
    advance 3
    pure true
  else pure false

/-- Repeats `step` as long as `test` holds, for fewer than `n` rounds. -/
def repeatWhile (test : Scan Bool) (step : Scan Unit) : Nat → Scan Unit
  | 0 => throw .endless
  | n + 1 => do
    if ← test then
      step
      repeatWhile test step n
    else pure ()

/-- One round more than the content has bytes, for a loop that moves the cursor in every round. -/
def rounds : Scan Nat := return (← get).content.size + 1

def loop (test : Scan Bool) (step : Scan Unit) : Scan Unit := do
  repeatWhile test step (← rounds)

end Scan
end Uml
