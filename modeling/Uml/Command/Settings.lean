import Uml.Command.Shell
import Uml.Language.Catalog
import Uml.Project.Find
import Uml.Compile.Basic
import Uml.Trace.Tracer

/-!
# Settings

The options of a command line together with the manifest of the project. An option that was given
wins over the manifest.
-/
namespace Uml

structure TraceTarget where
  level : TraceLevel
  storage : TraceStorage
  /-- A file; empty or a dash for the error output. -/
  output : Bytes

namespace TraceTarget

def toFile (t : TraceTarget) : Bool :=
  t.storage ≠ .ring && !t.output.isEmpty && t.output ≠ Bytes.ofString "-"

def tracer (t : TraceTarget) (time : Int) : Tracer :=
  let stream := TraceSink.stream (TraceFormat.auto.forOutput t.output) []
  let ring := TraceSink.ring (.ofCapacity 0)
  let sinks :=
    match t.storage with
    | .stream => [stream]
    | .ring => [ring]
    | .both => [stream, ring]
  { level := t.level, sinks, time }

end TraceTarget

structure Settings where
  color : Bool := false
  quiet : Bool := false
  timings : Bool := false
  maxDiagnostics : Int := 100
  language : Bytes := []
  manifest? : Option Manifest := none
  trace? : Option TraceTarget := none

namespace Settings

/-- The words for colors; `auto` means none, since outputs are taken for files. -/
def colorWords : List (Bytes × Bool) :=
  [("on", true), ("always", true), ("off", false), ("never", false), ("auto", false), ("", false)]

def usesCache (s : Settings) : Bool := s.manifest?.any (·.cache)

def compileOptions (s : Settings) (stage : Stage) : Except PluginError CompileOptions := do
  let registry ← Catalog.registry s.language
  let defaults := (s.manifest?.bind (·.config)).getD []
  pure { stage, registry, maxDiagnostics := s.maxDiagnostics, defaults }

def merge (o : Options) (color : Bool) (manifest? : Option Manifest) : Settings :=
  let language := manifest?.bind fun m => if m.language.isEmpty then none else some m.language
  let limit := manifest?.bind fun m => if 0 < m.maxDiagnostics then some m.maxDiagnostics else none
  { color, manifest?, quiet := o.quiet, timings := o.timings
    maxDiagnostics := (o.maxDiagnostics? <|> limit).getD 100
    language := (o.lang? <|> language).getD [] }

end Settings

namespace Shell

variable {m : Type → Type} [Monad m] [Host m]

/-- Makes sure that a profile can be written; profiles stay empty. -/
def startProfile (path : Bytes) : Shell m Unit := do
  if !path.isEmpty then
    orFail "failed to start profiling: " (← ask (Host.setContent path []))

/-- The heap profile is written when the command is over. -/
def planHeapProfile (path : Bytes) : Shell m Unit := do
  if !path.isEmpty then
    if let .error fault := ← ask (Host.setContent path []) then
      warnLater ("profile: " ++ fault.message ++ "\n")

/-- Where options have traces go. An output alone asks for phases. -/
def traceTarget (o : Options) : Shell m (Option TraceTarget) := do
  let word := o.traceLevel?.getD "off"
  let some level := TraceLevel.parse? word | fail ("invalid trace level: " ++ TraceLevel.badName word)
  let level := if level = .off && !o.trace.isEmpty && o.traceLevel?.isNone then .phase else level
  if level = .off then return none
  let some storage := TraceStorage.parse? o.traceMode
    | fail ("invalid trace mode: " ++ TraceStorage.badName o.traceMode)
  let target : TraceTarget := { level, storage, output := o.trace }
  if target.toFile then
    orFail "failed to create tracer: failed to open trace output: "
      (← ask (Host.setContent o.trace []))
  return some target

def settings (o : Options) : Shell m Settings := do
  let some color := Settings.colorWords.lookup (Lower.text o.color)
    | fail ("invalid --color value " ++ Quoted.text o.color ++ " (expected auto|on|off)")
  match ← ask (Manifest.load? (← ask Host.workDir)) with
  | .error e => fail e.message
  | .ok manifest? =>
    let s := Settings.merge o color manifest?
    if s.maxDiagnostics < 0 then fail "--max-diagnostics must not be negative"
    startProfile o.cpuProfile
    startProfile o.runtimeTrace
    planHeapProfile o.memProfile
    let trace? ← traceTarget o
    return { s with trace? }

/-- Hands work to the trace. Lines of a stream are written at once, those of a ring at the end. -/
def trace (s : Settings) (work : Work) : Shell m Unit := do
  if let some target := s.trace? then
    let t := (target.tracer (← ask Host.time)).record 0 work
    let lines := Bytes.concat t.written
    if target.toFile then
      orFail "" (← ask (Host.setContent target.output lines))
    else warn lines
    if target.storage = .ring then warnLater (Bytes.concat (t.kept.map (·.toText)))

end Shell
end Uml
