import Uml.Text.Category
import Uml.Text.Lower
import Uml.Text.Quoted

/-!
# Levels of tracing

A level says which events are kept. Coarser scopes have lower ranks. The error level keeps nothing
of work that succeeds: a failed unit of work shows as its end alone.
-/
namespace Uml

structure TraceScope where
  rank : Nat
  deriving DecidableEq, Repr

namespace TraceScope

/-- A whole run. -/
def driver : TraceScope := ⟨1⟩
/-- One phase of a compilation. -/
def pass : TraceScope := ⟨2⟩
/-- One file of a run over many. -/
def file : TraceScope := ⟨3⟩
/-- One statement. -/
def node : TraceScope := ⟨4⟩

def name (s : TraceScope) : Bytes :=
  match s.rank with
  | 1 => "driver"
  | 2 => "pass"
  | 3 => "file"
  | 4 => "node"
  | _ => "unknown"

end TraceScope

inductive TraceLevel where
  | off | error | phase | detail | debug
  deriving DecidableEq, Repr, Inhabited

namespace TraceLevel

def all : List TraceLevel := [off, error, phase, detail, debug]

def name : TraceLevel → Bytes
  | off => "off"
  | error => "error"
  | phase => "phase"
  | detail => "detail"
  | debug => "debug"

def isOn (l : TraceLevel) : Bool := l ≠ off

def parse? (s : Bytes) : Option TraceLevel := all.find? (·.name = Lower.text s.trim)

/-- Whether starts of work and points of a scope are kept. -/
def shows (l : TraceLevel) (s : TraceScope) : Bool :=
  match l with
  | off | error => false
  | phase => s.rank ≤ TraceScope.pass.rank
  | detail => s.rank ≤ TraceScope.file.rank
  | debug => true

/-- Whether work of a scope is followed silently, for the case that it fails. -/
def watches (l : TraceLevel) (s : TraceScope) : Bool :=
  l = error && (s = .driver || s = .file)

def badName (s : Bytes) : Bytes :=
  "invalid trace level: " ++ Quoted.text s ++ " (expected: "
    ++ Bytes.join "|" (all.map name) ++ ")"

end TraceLevel

/-- Where events go: to an output at once, into a ring of the last ones, or both. -/
inductive TraceStorage where
  | stream | ring | both
  deriving DecidableEq, Repr, Inhabited

namespace TraceStorage

def all : List TraceStorage := [stream, ring, both]

def name : TraceStorage → Bytes
  | stream => "stream"
  | ring => "ring"
  | both => "both"

def parse? (s : Bytes) : Option TraceStorage := all.find? (·.name = Lower.text s)

def badName (s : Bytes) : Bytes :=
  "invalid storage mode: " ++ Quoted.text s ++ " (expected: "
    ++ Bytes.join "|" (all.map name) ++ ")"

end TraceStorage

/-- How events are written; `auto` decides by the name of the output. -/
inductive TraceFormat where
  | auto | text | ndjson
  deriving DecidableEq, Repr, Inhabited

namespace TraceFormat

def names : List (Bytes × TraceFormat) :=
  [("", auto), ("auto", auto), ("text", text), ("ndjson", ndjson), ("json", ndjson)]

def parse? (s : Bytes) : Option TraceFormat := names.lookup (Lower.text s)

def badName (s : Bytes) : Bytes :=
  "invalid trace format: " ++ Quoted.text s ++ " (expected: auto|text|ndjson)"

def forOutput (f : TraceFormat) (path : Bytes) : TraceFormat :=
  if f ≠ auto then f
  else if path.endsWith ".ndjson" || path.endsWith ".json" then ndjson
  else text

end TraceFormat
end Uml
