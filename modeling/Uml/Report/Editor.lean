import Uml.Diagnostic.Bag
import Uml.Json.Record
import Uml.Report.Place

/-! Diagnostics as JSON for an editor. -/
namespace Uml

structure EditorOptions where
  pathMode : PathMode := .auto
  /-- How many diagnostics are written; zero or less for all. -/
  limit : Int := 0
  includeNotes : Bool := false

namespace Editor

open Json (always given text nonZero)

def note (fs : FileSet) (o : EditorOptions) (n : Note) : Json :=
  .object (always "message" (.string n.message) ++
    match fs.get? n.span.file with
    | none => []
    | some f =>
      let p := f.position n.span.start
      text "file" (fs.pathIn o.pathMode f) ++ nonZero "line" p.line ++ nonZero "column" p.column)

def diagnostic (fs : FileSet) (o : EditorOptions) (d : Diagnostic) : Json :=
  let (path, p, length) :=
    match fs.get? d.span.file with
    | none => (([] : Bytes), ({} : Position), 0)
    | some f => (fs.pathIn o.pathMode f, f.position d.span.start, d.span.length)
  .object (always "message" (.string d.message) ++ always "code" (.string d.code.id)
    ++ always "severity" (.string d.severity.label) ++ text "file" path
    ++ always "line" (.nat p.line) ++ always "column" (.nat p.column)
    ++ always "length" (.nat length)
    ++ given "notes" (o.includeNotes && !d.notes.isEmpty) (.array (d.notes.map (note fs o))))

end Editor

/-- The diagnostics of a bag in order, with the counts of those it dropped. -/
def Bag.editorJson (b : Bag) (fs : FileSet) (o : EditorOptions) : Json :=
  let shown := if 0 < o.limit then b.items.take o.limit.toNat else b.items
  .object (Json.always "diagnostics" (.array (shown.map (Editor.diagnostic fs o)))
    ++ Json.always "count" (.nat shown.length)
    ++ Json.nonZero "dropped" b.dropped ++ Json.nonZero "droppedErrors" b.droppedErrors)

end Uml
