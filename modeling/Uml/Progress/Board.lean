import Uml.Progress.Event
import Uml.Progress.Timing
import Uml.Text.Width

/-!
# Progress boards

A live view of a run: a line per file with its status, and a bar. Events move the files on; once
the run is over, a summary counts how they ended.
-/
namespace Uml

structure BoardItem where
  path : Bytes
  status : Bytes := "queued"
  stage? : Option ProgressStage := none
  /-- Time spent, in nanoseconds. -/
  elapsed : Nat := 0
  deriving DecidableEq, Repr

structure Board where
  title : Bytes
  items : List BoardItem
  /-- What the whole run is at; empty if unknown. -/
  label : Bytes := []
  width : Int := 80
  barWidth : Int := 76
  isDone : Bool := false
  deriving Repr

namespace Board

def ofFiles (title : Bytes) (files : List Bytes) : Board :=
  { title, items := files.map fun path => { path } }

def done : Bytes := "done"
def cached : Bytes := "cached"
def failed : Bytes := "error"

/-- The word for a stage at work; none for a stage that is not shown. -/
def stageLabel? : ProgressStage → Option Bytes
  | .lex => some "lexing"
  | .parse => some "parsing"
  | .analyze => some "analyzing"
  | .assemble => some "assembling"
  | .cache | .other _ => none

/-- The word for an event; none if it says nothing about the status. -/
def statusLabel? (e : ProgressEvent) : Option Bytes :=
  match e.status with
  | .queued => some "queued"
  | .done => some (if e.stage? = some .cache then cached else done)
  | .error => some failed
  | .working => e.stage?.bind stageLabel?
  | .other _ => none

def applyItem (e : ProgressEvent) (item : BoardItem) : BoardItem :=
  { item with
    status := (statusLabel? e).getD item.status
    stage? := e.stage? <|> item.stage?
    elapsed := if 0 < e.elapsed then e.elapsed else item.elapsed }

def modifyLast (path : Bytes) (f : BoardItem → BoardItem) (items : List BoardItem) : List BoardItem :=
  match items.reverse.findIdx? (·.path = path) with
  | some i => items.modify (items.length - 1 - i) f
  | none => items

def apply (b : Board) (e : ProgressEvent) : Board :=
  if e.file.isEmpty then { b with label := (statusLabel? e).getD b.label }
  else { b with items := modifyLast e.file (applyItem e) b.items }

/-- The window has another width; one that is not positive is ignored. -/
def resize (b : Board) (width : Int) : Board :=
  if 0 < width then { b with width, barWidth := width - 4 } else b

def finish (b : Board) : Board := { b with isDone := true }

/-- The key that stops the view. -/
def quitKey : Bytes := "ctrl+c"

def itemFinished (item : BoardItem) : Bool :=
  item.status = done || item.status = failed || item.status = cached

def itemTenths (item : BoardItem) : Nat :=
  if itemFinished item then 10 else (item.stage?.map (·.tenths)).getD 0

/-- The work done in all; the whole work is ten tenths a file. -/
def tenths (b : Board) : Nat := (b.items.map itemTenths).foldr (· + ·) 0

def count (b : Board) (status : Bytes) : Nat := b.items.countP (·.status = status)

def summary (b : Board) : Bytes :=
  .ofNat b.items.length ++ " files: " ++ .ofNat (b.count done) ++ " ok, " ++ .ofNat (b.count cached)
    ++ " cached, " ++ .ofNat (b.count failed) ++ " with errors"

/-- A text wider than `width` is cut for three dots, which stand in their own columns. -/
def shorten (s : Bytes) (width : Nat) : Bytes :=
  if width = 0 || Width.ofText s ≤ width then s
  else if width ≤ 3 then Width.truncate s width []
  else Width.truncate s (width - 3) "..."

def nameWidth (b : Board) : Nat := max (b.width - 27).toNat 20

def itemLine (b : Board) (item : BoardItem) : Bytes :=
  "  " ++ item.status.padLeft 12 ++ " " ++ Width.fillRight (shorten item.path b.nameWidth) b.nameWidth
    ++ " " ++ Bytes.when (0 < item.elapsed)
        (Duration.render (Duration.round (100 * Duration.microsecond) item.elapsed))
    ++ "\n"

/-- An empty bar while the run goes on, a full one behind its end. -/
def bar (b : Board) : Bytes :=
  let cells := (b.barWidth - 5).toNat
  let cell : Bytes := if b.isDone then "█" else "░"
  Bytes.concat (List.replicate cells cell) ++ if b.isDone then " 100%" else "   0%"

/-- A heading of several lines is filled up to its widest line. -/
def heading (s : Bytes) : Bytes :=
  let plain := Bytes.replace "\t" "    " (Bytes.replace "\r\n" "\n" s)
  let lines := plain.splitByte 0x0A
  let width := (lines.map Width.ofText).foldl max 0
  match lines with
  | [line] => line
  | lines => Bytes.join "\n" (lines.map (Width.fillRight · width))

def header (b : Board) : Bytes :=
  let title := b.title ++ Bytes.when (!b.label.isEmpty) (" (" ++ b.label ++ ")")
  heading ((if b.isDone then Bytes.ofString "done: " else "⣾  ") ++ title)

def view (b : Board) : Bytes :=
  if b.items.isEmpty then []
  else
    b.header ++ "\n\n" ++ Bytes.concat (b.items.map b.itemLine) ++ "\n" ++ b.bar ++ "\n"
      ++ Bytes.when b.isDone (b.summary ++ "\n")

end Board
end Uml
