import Uml.Diagnostic.Basic

/-!
# Bags

The diagnostics of one compilation, up to a limit. What the limit refuses is still counted, so
that the verdict on a document does not depend on it.
-/
namespace Uml

structure Bag where
  items : List Diagnostic := []
  /-- Zero or less for no limit. -/
  limit : Int := 0
  dropped : Int := 0
  droppedErrors : Int := 0
  deriving Repr

namespace Bag

def ofLimit (limit : Int) : Bag := { limit }

def size (b : Bag) : Nat := b.items.length

def isFull (b : Bag) : Bool := 0 < b.limit && b.limit ≤ b.items.length

/-- Keeps a diagnostic, or counts it as dropped when the bag is full. -/
def add (b : Bag) (d : Diagnostic) : Bag :=
  if b.isFull then
    { b with dropped := b.dropped + 1, droppedErrors := b.droppedErrors + if d.isError then 1 else 0 }
  else { b with items := b.items ++ [d] }

def addAll (b : Bag) (ds : List Diagnostic) : Bag := ds.foldl add b

/-- Counts diagnostics that some other bag dropped; errors among them are part of the total. -/
def recordDropped (b : Bag) (total errors : Int) : Bag :=
  { b with dropped := b.dropped + max total errors, droppedErrors := b.droppedErrors + errors }

def hasErrors (b : Bag) : Bool := 0 < b.droppedErrors || b.items.any (·.isError)

def hasWarnings (b : Bag) : Bool := b.items.any fun d => Severity.warning.rank ≤ d.severity.rank

def count (b : Bag) (s : Severity) : Nat := b.items.countP (·.severity = s)

/-- Appends all items of another bag; the limit grows with them. -/
def merge (b other : Bag) : Bag :=
  let total : Int := b.items.length + other.items.length
  { items := b.items ++ other.items
    limit := if 0 < b.limit && b.limit < total then total else b.limit
    dropped := b.dropped + other.dropped
    droppedErrors := b.droppedErrors + other.droppedErrors }

/-- By file, start and end; at one place graver findings first, then by code. -/
def precedes (d e : Diagnostic) : Bool :=
  if d.span.file ≠ e.span.file then d.span.file < e.span.file
  else if d.span.start ≠ e.span.start then d.span.start < e.span.start
  else if d.span.stop ≠ e.span.stop then d.span.stop < e.span.stop
  else if d.severity ≠ e.severity then d.severity.rank > e.severity.rank
  else d.code.number < e.code.number

def sort (b : Bag) : Bag :=
  { b with items := b.items.mergeSort fun d e => !precedes e d }

end Bag
end Uml
