import Uml.Diagnostic.Basic
import Uml.Source.File

/-! How reports name a place in a file. -/
namespace Uml

inductive PathMode where
  /-- As shown by the file set, but a long absolute path is cut to its last segment. -/
  | auto
  | absolute
  | relative
  | basename
  deriving DecidableEq, Repr, Inhabited

/-- Absolute paths up to this many bytes are shown whole. -/
def autoPathLimit : Nat := 40

def FileSet.pathIn (fs : FileSet) (mode : PathMode) (f : File) : Bytes :=
  match mode with
  | .absolute => if f.isVirtual then f.path else Path.absolute fs.workDir f.path
  | .relative => (Path.within fs.workDir f.path fs.baseDir).getD (fs.displayPath f)
  | .basename => Path.baseName f.path
  | .auto =>
    let p := fs.displayPath f
    if autoPathLimit < p.length && Path.isAbsolute p then Path.baseName p else p

structure EditorPlace where
  path : Bytes
  line : Nat
  column : Nat
  length : Nat
  deriving DecidableEq, Repr

/-- The place of a span; a span of an unknown file has none. -/
def FileSet.locate? (fs : FileSet) (s : Span) : Option EditorPlace :=
  (fs.get? s.file).map fun f =>
    let p := f.position s.start
    ⟨fs.displayPath f, p.line, p.column, s.length⟩

end Uml
