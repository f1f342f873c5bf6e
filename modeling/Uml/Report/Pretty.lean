import Uml.Diagnostic.Bag
import Uml.Report.Place
import Uml.Text.Bytes
import Uml.Text.Category
import Uml.Text.Width

/-!
# Colors on a terminal

A paint is a list of attribute numbers. Text is wrapped in the sequence that sets them and the one
that takes each of them back.
-/
namespace Uml

structure Paint where
  attributes : List Nat
  isEnabled : Bool := true
  deriving DecidableEq, Repr

namespace Paint

def bold : Nat := 1
def red : Nat := 31
def green : Nat := 32
def yellow : Nat := 33
def blue : Nat := 34
def cyan : Nat := 36

/-- The number that takes an attribute back; colors have no number of their own for that. -/
def resetOf (number : Nat) : Nat := if number = bold then 22 else 0

def escape (numbers : List Nat) : Bytes :=
  0x1B :: 0x5B :: Bytes.join ";" (numbers.map Bytes.ofNat) ++ "m"

def apply (p : Paint) (s : Bytes) : Bytes :=
  if p.isEnabled then escape p.attributes ++ s ++ escape (p.attributes.map resetOf) else s

end Paint

/-!
## Diagnostics for people

Each diagnostic is a line with its place, the lines of the file around it, and a run of carets
under the span. Columns count bytes; carets are placed by display width.
-/

structure PrettyOptions where
  color : Bool := false
  /-- Lines shown before and behind the one of the finding. -/
  context : Nat := 0
  pathMode : PathMode := .auto
  /-- The widest message or line; zero for no limit. -/
  width : Nat := 0
  showNotes : Bool := false

namespace Pretty

def severityPaint (o : PrettyOptions) (s : Severity) : Paint :=
  let color :=
    match s.rank with
    | 1 => Paint.yellow
    | 2 => Paint.red
    | _ => Paint.cyan
  ⟨[color, Paint.bold], o.color⟩

def pathPaint (o : PrettyOptions) : Paint := ⟨[Paint.bold], o.color⟩

def gutterPaint (o : PrettyOptions) : Paint := ⟨[Paint.blue], o.color⟩

def caretPaint (o : PrettyOptions) : Paint := ⟨[Paint.green, Paint.bold], o.color⟩

def notePaint (o : PrettyOptions) : Paint := ⟨[Paint.cyan], o.color⟩

def clip (s : Bytes) (width : Nat) : Bytes := if width = 0 then s else Width.truncate s width "…"

/-- Blanks that take the room of a text; tabs stay tabs. -/
def blanks (s : Bytes) : Bytes :=
  Bytes.concat ((Utf8.scalars s).map fun c =>
    if c.value = 0x09 then [0x09] else List.replicate (Width.ofScalar c.value) 0x20)

def underline (s : Bytes) : Bytes := 0x5E :: List.replicate (Width.ofText s - 1) 0x7E

def place (fs : FileSet) (o : PrettyOptions) (f : File) (s : Span) : Bytes :=
  fs.pathIn o.pathMode f ++ ":" ++ (f.position s.start).render

def sourceLine (o : PrettyOptions) (gutter : Nat) (n : Nat) (text : Bytes) : Bytes :=
  (gutterPaint o).apply (Bytes.padLeft gutter (.ofNat n) ++ " |") ++ " " ++ clip text o.width ++ "\n"

def marks (o : PrettyOptions) (gutter : Nat) (text : Bytes) (start stop : Nat) (caret : Paint) :
    Bytes :=
  (gutterPaint o).apply (Bytes.padLeft gutter [] ++ " |") ++ " " ++ blanks (text.take start)
    ++ caret.apply (underline ((text.take (max stop start)).drop start)) ++ "\n"

/-- The line of a span with its context; blank lines of the context are left out. -/
def snippet (o : PrettyOptions) (f : File) (s : Span) (context : Nat) (caret : Paint) : Bytes :=
  let start := f.position s.start
  let stop := f.position s.stop
  let first := if context < start.line then start.line - context else 1
  let last := min (start.line + context) f.lineCount
  let gutter := (Bytes.ofNat last).length
  Bytes.concat ((List.range' first (last + 1 - first)).map fun n =>
    let text := f.line n
    if n ≠ start.line then Bytes.when (!text.isBlank) (sourceLine o gutter n text)
    else
      let edge := if stop.line = start.line then stop.column - 1 else text.length
      sourceLine o gutter n text ++ marks o gutter text (start.column - 1) edge caret)

def note (fs : FileSet) (o : PrettyOptions) (n : Note) : Bytes :=
  let lead := (notePaint o).apply "note:"
  match fs.get? n.span.file with
  | none => "  " ++ lead ++ " " ++ n.message ++ "\n"
  | some f =>
    "  " ++ lead ++ " " ++ place fs o f n.span ++ ": " ++ n.message ++ "\n"
      ++ snippet o f n.span 0 (notePaint o)

def diagnostic (fs : FileSet) (o : PrettyOptions) (d : Diagnostic) : Bytes :=
  let head := (severityPaint o d.severity).apply (d.severity.name ++ " " ++ d.code.id)
  let message := clip d.message o.width
  match fs.get? d.span.file with
  | none => head ++ ": " ++ message ++ "\n"
  | some f =>
    (pathPaint o).apply (place fs o f d.span) ++ ": " ++ head ++ ": " ++ message ++ "\n"
      ++ snippet o f d.span o.context (caretPaint o)
      ++ Bytes.when o.showNotes (Bytes.concat (d.notes.map (note fs o)))

end Pretty

def Bag.pretty (b : Bag) (fs : FileSet) (o : PrettyOptions) : Bytes :=
  Bytes.join "\n" (b.items.map (Pretty.diagnostic fs o))

end Uml
