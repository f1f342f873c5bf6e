import Uml.Text.Bytes

/-! Half-open byte ranges of one file. -/
namespace Uml

/-- The bytes from offset `start` up to, not including, offset `stop` of file number `file`. -/
structure Span where
  file : Nat := 0
  start : Nat := 0
  stop : Nat := 0
  deriving DecidableEq, Repr, Inhabited

namespace Span

def isEmpty (s : Span) : Bool := s.start = s.stop

/-- An inverted span has length zero. -/
def length (s : Span) : Nat := s.stop - s.start

/-- The smallest span that holds both; a span of another file is ignored. -/
def cover (s t : Span) : Span :=
  if s.file = t.file then ⟨s.file, min s.start t.start, max s.stop t.stop⟩ else s

def after (s : Span) : Span := ⟨s.file, s.stop, s.stop⟩

def before (s : Span) : Span := ⟨s.file, s.start, s.start⟩

def isInside (s t : Span) : Bool := t.start ≤ s.start && s.stop ≤ t.stop

def render (s : Span) : Bytes :=
  .ofNat s.file ++ ":" ++ .ofNat s.start ++ "-" ++ .ofNat s.stop

end Span

/-- A line and a column, both counted from one; columns count bytes. -/
structure Position where
  line : Nat := 0
  column : Nat := 0
  deriving DecidableEq, Repr, Inhabited

def Position.render (p : Position) : Bytes := .ofNat p.line ++ ":" ++ .ofNat p.column

end Uml
