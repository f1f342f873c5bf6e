import Uml.Source.Path
import Uml.Source.Span

/-!
# Source files

A file is its bytes and the offsets of its line breaks. Offsets become lines and columns by
counting the breaks before them, and a line is cut out between two breaks.
-/
namespace Uml

/-- Offsets of the line breaks in `content`, counted from `start`. -/
def newlineOffsets : Nat → Bytes → List Nat
  | _, [] => []
  | start, b :: rest =>
    if b = 0x0A then start :: newlineOffsets (start + 1) rest else newlineOffsets (start + 1) rest

structure File where
  /-- Its number in the file set. -/
  id : Nat
  path : Bytes
  content : Array UInt8
  /-- The offsets of the line breaks. -/
  lineIndex : Array Nat
  /-- How the content got here, as a bit set. -/
  flags : UInt8 := 0
  lineIndex_eq : lineIndex = (newlineOffsets 0 content.toList).toArray := by rfl

/-- How many entries of a sorted list are below `x`. The first `lo` are, and those from `hi` on are not; what
lies between is halved until nothing is left. -/
def countBelow (entries : Array Nat) (x lo hi : Nat) (h : hi ≤ entries.size) : Nat :=
  if hlt : lo < hi then
    let mid := (lo + hi) / 2
    if entries[mid] < x then countBelow entries x (mid + 1) hi h else countBelow entries x lo mid (by omega)
  else lo
termination_by hi - lo

namespace File

/-- Content that came from memory and not from a disk. -/
def virtualFlag : UInt8 := 1

/-- A byte order mark was removed. -/
def markFlag : UInt8 := 2

/-- Line breaks of two bytes were folded. -/
def foldedFlag : UInt8 := 4

def isVirtual (f : File) : Bool := f.flags &&& virtualFlag ≠ 0

def ofBytes (id : Nat) (path : Bytes) (content : Array UInt8) (flags : UInt8) : File :=
  { id, path, content, lineIndex := (newlineOffsets 0 content.toList).toArray, flags }

def newlines (f : File) : List Nat := f.lineIndex.toList

/-- Offsets, lines and columns are 32-bit words. -/
def wordSize : Nat := 4294967296

/-- The position of an offset: its line is one more than the number of breaks before it. -/
def position (f : File) (offset : Nat) : Position :=
  match countBelow f.lineIndex offset 0 f.lineIndex.size (Nat.le_refl _) with
  | 0 => ⟨1, (offset + 1) % wordSize⟩
  | n + 1 =>
    let start := f.lineIndex.getD n 0 + 1
    ⟨(n + 2) % wordSize, offset - start + 1⟩

/-- The bytes from `start` to `stop`, both cut at the end of the content. -/
def slice (f : File) (start stop : Nat) : Bytes := (f.content.extract start stop).toList

def text (f : File) (s : Span) : Bytes := f.slice s.start s.stop

/-- Line number `n`, counted from one, without its break; empty if there is none. -/
def line (f : File) (n : Nat) : Bytes :=
  let stop := f.lineIndex[n - 1]?.getD f.content.size
  match n with
  | 0 => []
  | 1 => f.slice 0 stop
  | n + 2 =>
    match f.lineIndex[n]? with
    | some last => f.slice (last + 1) stop
    | none => []

def lineCount (f : File) : Nat := f.lineIndex.size + 1

end File

def removeMark : Bytes → Bytes × Bool
  | 0xEF :: 0xBB :: 0xBF :: rest => (rest, true)
  | s => (s, false)

/-- Drops every carriage return that stands right before a line feed. -/
def foldBreaks : Bytes → Bytes
  | 0x0D :: 0x0A :: rest => 0x0A :: foldBreaks rest
  | b :: rest => b :: foldBreaks rest
  | [] => []


/-!
## File sets

The documents of one run. A path that is added again gets a new version, and the newest version is
the one found by path.
-/

structure FileSet where
  files : Array File := #[]
  /-- The directory that shown paths are relative to; empty for the working directory. -/
  base : Bytes := []
  workDir : Bytes := "/"

namespace FileSet

def baseDir (fs : FileSet) : Bytes := if fs.base.isEmpty then fs.workDir else fs.base

def add (fs : FileSet) (path content : Bytes) (flags : UInt8) : FileSet × File :=
  let file := File.ofBytes fs.files.size (Path.normalize path) content.toArray flags
  ({ fs with files := fs.files.push file }, file)

/-- Adds content without its byte order mark and with line breaks folded to one byte. -/
def addNormalized (fs : FileSet) (path content : Bytes) (flags : UInt8) : FileSet × File :=
  let (unmarked, marked) := removeMark content
  let folded := foldBreaks unmarked
  let flags := if marked then flags ||| File.markFlag else flags
  let flags := if folded.length ≠ unmarked.length then flags ||| File.foldedFlag else flags
  fs.add path folded flags

def addVirtual (fs : FileSet) (path content : Bytes) : FileSet × File :=
  fs.addNormalized path content File.virtualFlag

def get? (fs : FileSet) (id : Nat) : Option File := fs.files[id]?

def latest? (fs : FileSet) (path : Bytes) : Option Nat :=
  (fs.files.toList.reverse.find? (·.path = Path.normalize path)).map (·.id)

/-- The path to show for a file: relative to the base directory if it lies below. A document from
memory keeps its name. -/
def displayPath (fs : FileSet) (f : File) : Bytes :=
  if f.isVirtual then f.path
  else (Path.within fs.workDir f.path fs.baseDir).getD f.path

/-- Where a span starts and ends. -/
def resolve? (fs : FileSet) (s : Span) : Option (Position × Position) :=
  (fs.get? s.file).map fun f => (f.position s.start, f.position s.stop)

end FileSet
end Uml
