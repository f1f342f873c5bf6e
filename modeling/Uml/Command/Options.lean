import Uml.Number.Prefixed
import Uml.Text.Category
import Uml.Text.Lower
import Uml.Text.Quoted

/-!
# Options

What a command line can ask for, and the flags that set it. Every option has a default; where it
matters whether an option was given at all, it is optional.
-/
namespace Uml

inductive ProgressMode where
  | auto | on | off
  deriving DecidableEq, Repr, Inhabited

def ProgressMode.names : List (Bytes × ProgressMode) := [("auto", auto), ("on", on), ("off", off)]

structure Options where
  color : Bytes := "auto"
  quiet : Bool := false
  timings : Bool := false
  maxDiagnostics? : Option Int := none
  lang? : Option Bytes := none
  trace : Bytes := []
  traceLevel? : Option Bytes := none
  traceMode : Bytes := "stream"
  cpuProfile : Bytes := []
  memProfile : Bytes := []
  runtimeTrace : Bytes := []
  format? : Option Bytes := none
  out : Bytes := []
  progress : ProgressMode := .auto
  jobs : Int := 0
  noCache : Bool := false
  notes : Bool := true
  sort : Bool := false
  language : Bytes := []
  help : Bool := false
  version : Bool := false

/-- A flag sets an option from its value, or tells what is wrong with the value. -/
structure Flag where
  name : Bytes
  short? : Option UInt8 := none
  /-- The value when none is given; flags without one need a value. -/
  bare? : Option Bytes := none
  set : Bytes → Options → Except Bytes Options

namespace Flag

def text (name : Bytes) (set : Options → Bytes → Options) : Flag :=
  { name, set := fun v o => .ok (set o v) }

def switchWords : List (Bytes × Bool) :=
  [("1", true), ("t", true), ("T", true), ("TRUE", true), ("true", true), ("True", true),
   ("0", false), ("f", false), ("F", false), ("FALSE", false), ("false", false), ("False", false)]

def switch (name : Bytes) (set : Options → Bool → Options) : Flag where
  name := name
  bare? := some "true"
  set v o :=
    match switchWords.lookup v with
    | some b => .ok (set o b)
    | none => .error ("strconv.ParseBool: parsing " ++ Quoted.text v ++ ": invalid syntax")

def number (name : Bytes) (set : Options → Int → Options) : Flag where
  name := name
  set v o :=
    let refuse (why : Bytes) : Except Bytes Options :=
      .error ("strconv.ParseInt: parsing " ++ Quoted.text v ++ ": " ++ why)
    match Prefixed.read v with
    | .ok n => .ok (set o n)
    | .error .form => refuse "invalid syntax"
    | .error .range => refuse "value out of range"

def progress (name : Bytes) : Flag where
  name := name
  set v o :=
    let v := Lower.text v.trim
    match if v.isEmpty then some .auto else ProgressMode.names.lookup v with
    | some mode => .ok { o with progress := mode }
    | none => .error ("expected " ++ Bytes.join "|" (ProgressMode.names.map (·.1)))

def withShort (c : Char) (f : Flag) : Flag := { f with short? := some (Bytes.ascii c) }

def title (f : Flag) : Bytes :=
  match f.short? with
  | some c => "-" ++ [c] ++ ", --" ++ f.name
  | none => "--" ++ f.name

def shared : List Flag :=
  [text "color" fun o v => { o with color := v },
   switch "quiet" fun o b => { o with quiet := b },
   switch "timings" fun o b => { o with timings := b },
   number "max-diagnostics" fun o n => { o with maxDiagnostics? := some n },
   text "lang" fun o v => { o with lang? := some v },
   text "trace" fun o v => { o with trace := v },
   text "trace-level" fun o v => { o with traceLevel? := some v },
   text "trace-mode" fun o v => { o with traceMode := v },
   text "cpu-profile" fun o v => { o with cpuProfile := v },
   text "mem-profile" fun o v => { o with memProfile := v },
   text "runtime-trace" fun o v => { o with runtimeTrace := v }]

def format : Flag := text "format" fun o v => { o with format? := some v }

def compiling : List Flag :=
  [format,
   (text "out" fun o v => { o with out := v }).withShort 'o',
   progress "ui",
   (number "jobs" fun o n => { o with jobs := n }).withShort 'j',
   switch "no-cache" fun o b => { o with noCache := b }]

def checking : List Flag :=
  [format, switch "notes" fun o b => { o with notes := b }, switch "sort" fun o b => { o with sort := b }]

def initializing : List Flag := [text "language" fun o v => { o with language := v }]

def help : Flag := (switch "help" fun o b => { o with help := b }).withShort 'h'

def version : Flag := (switch "version" fun o b => { o with version := b }).withShort 'v'

end Flag
end Uml
