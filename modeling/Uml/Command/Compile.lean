import Uml.Command.Report
import Uml.Diagram.Json
import Uml.Diagram.Text

/-! Compiling models into diagrams. -/
namespace Uml

inductive DiagramFormat where
  | json | text | msgpack
  deriving DecidableEq, Repr

def DiagramFormat.names : List (Bytes × DiagramFormat) :=
  [("json", json), ("text", text), ("msgpack", msgpack)]

namespace FileRuns

def diagrams (runs : List FileRun) : List (Bytes × Diagram) :=
  runs.filterMap fun r => r.result.diagram.map (r.result.path, ·)

/-- A single file is its diagram, several are a list. -/
def msgpack (runs : List FileRun) : Msg :=
  match runs with
  | [r] => (r.result.diagram.map Diagram.toMsg).getD .nil
  | runs => .array ((diagrams runs).map fun (path, d) =>
      .map (Packed.always "path" (.str path) ++ Packed.always "diagram" d.toMsg))

def namedJson? (entry : Bytes × Diagram) : Option Json :=
  entry.2.toJson?.map fun diagram =>
    .object (Json.always "path" (.string entry.1) ++ Json.always "diagram" diagram)

/-- The JSON form, unless a number of some config has none. -/
def json? (runs : List FileRun) : Option Json :=
  match runs with
  | [r] =>
    match r.result.diagram with
    | some d => d.toJson?
    | none => some .null
  | runs => ((diagrams runs).mapM namedJson?).map .array

def nonFinite? (runs : List FileRun) : Option Double :=
  (diagrams runs).findSome? fun (_, d) => (Value.table (d.config.getD [])).nonFinite?

/-- The text form; several files have a heading each. -/
def text (runs : List FileRun) : Bytes :=
  let isList := 1 < runs.length
  Bytes.concat (runs.zipIdx.map fun (r, i) =>
    match r.result.diagram with
    | none => []
    | some d =>
      Bytes.when (isList && 0 < i) "\n" ++ Bytes.when isList ("== " ++ r.result.path ++ " ==\n")
        ++ d.dump)

def render (format : DiagramFormat) (runs : List FileRun) : Except Bytes Bytes :=
  match format with
  | .text => .ok (text runs)
  | .msgpack => .ok (msgpack runs).encode
  | .json =>
    match json? runs with
    | some v => .ok (v.render .pretty ++ "\n")
    | none => .error ("json: unsupported value: " ++ ((nonFinite? runs).map (·.render)).getD [])

end FileRuns

namespace Shell

variable {m : Type → Type} [Monad m] [Host m] [CacheStore m]

def openCache (lead : Bytes) : Shell m Unit := do
  orFail (lead ++ "open cache: ") (← ask CacheStore.prepare)

/-- Writes to a file, or to the output if none is named. -/
def deliver (path text : Bytes) : Shell m Unit := do
  if path.isEmpty then say text else orFail "" (← ask (Host.setContent path text))

/-- Diagnostics are shown first; diagrams are written even if there are errors. -/
def compileCommand (s : Settings) (o : Options) (words : List Bytes) : Shell m Unit := do
  let word := Lower.text (o.format?.getD "json")
  let some format := DiagramFormat.names.lookup word | fail ("unknown format: " ++ word)
  let options ← compileOptions s .diagram
  let useCache := s.usesCache && !o.noCache
  if useCache then openCache "open cache: "
  let report ← compileTargets s options useCache words
  warn (Bytes.concat (report.runs.map (·.complaints s)))
  match FileRuns.render format report.runs with
  | .ok text => deliver o.out text
  | .error reason =>
    deliver o.out []
    fail ("write output: " ++ reason)
  conclude s report

end Shell
end Uml
