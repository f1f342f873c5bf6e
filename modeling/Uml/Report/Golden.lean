import Uml.Report.Place
import Uml.Text.Category

/-! Diagnostics one a line in a fixed order, so that two runs can be compared. -/
namespace Uml

structure GoldenLine where
  severity : Bytes
  code : Bytes
  path : Bytes
  line : Nat
  column : Nat
  message : Bytes
  deriving DecidableEq, Repr

namespace GoldenLine

def render (g : GoldenLine) : Bytes :=
  g.severity ++ " " ++ g.code ++ " " ++ g.path ++ ":" ++ .ofNat g.line ++ ":" ++ .ofNat g.column
    ++ " " ++ g.message

/-- By path, line, column, severity, code and message. -/
def precedes (a b : GoldenLine) : Bool :=
  if a.path ≠ b.path then a.path < b.path
  else if a.line ≠ b.line then a.line < b.line
  else if a.column ≠ b.column then a.column < b.column
  else if a.severity ≠ b.severity then a.severity < b.severity
  else if a.code ≠ b.code then a.code < b.code
  else a.message < b.message

end GoldenLine

namespace Golden

def dropDots : Nat → Bytes → Bytes
  | 0, p => p
  | n + 1, p => if p.startsWith "./" then dropDots n (p.drop 2) else p

/-- The path without dots in front. -/
def plainPath (p : Bytes) : Bytes := dropDots p.length p

/-- The message on one line. -/
def oneLine (s : Bytes) : Bytes := (Bytes.replace "\n" " " (Bytes.replace "\r\n" "\n" s)).trim

def line? (fs : FileSet) (severity code : Bytes) (span : Span) (message : Bytes) :
    Option GoldenLine :=
  (fs.locate? span).map fun p =>
    ⟨severity, code, plainPath p.path, p.line, p.column, oneLine message⟩

def lines (fs : FileSet) (withNotes : Bool) (d : Diagnostic) : List GoldenLine :=
  (line? fs d.severity.label d.code.id d.span d.message).toList
    ++ if withNotes then d.notes.filterMap fun n => line? fs "note" d.code.id n.span n.message
      else []

def render (ds : List Diagnostic) (fs : FileSet) (withNotes : Bool) : Bytes :=
  let sorted := (ds.flatMap (lines fs withNotes)).mergeSort fun a b => !b.precedes a
  Bytes.join "\n" (sorted.map (·.render))

end Golden
end Uml
