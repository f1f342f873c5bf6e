import Uml.Json.Record
import Uml.Trace.Level

/-!
# Trace events

Work shows as its start and its end; a point is a moment without duration. Both forms of an event
are one line: a text for readers, and a JSON object for programs.
-/
namespace Uml

inductive TraceKind where
  | start | stop | point | other
  deriving DecidableEq, Repr, Inhabited

namespace TraceKind

def name : TraceKind → Bytes
  | start => "begin"
  | stop => "end"
  | point => "point"
  | other => "unknown"

def ofNumber : Nat → TraceKind
  | 1 => start
  | 2 => stop
  | 3 => point
  | _ => other

def sign : TraceKind → Bytes
  | start => "→ "
  | stop => "← "
  | point => "• "
  | other => []

end TraceKind

structure TraceEvent where
  /-- Microseconds since the start of 1970. -/
  time : Int := 0
  seq : Nat := 0
  kind : TraceKind
  scope : TraceScope
  /-- The unit of work; zero for none. -/
  id : Nat := 0
  parent : Nat := 0
  name : Bytes
  detail : Bytes := []
  /-- Facts about the work, by distinct keys. -/
  extra : List (Bytes × Bytes) := []
  deriving DecidableEq, Repr

instance : Inhabited TraceEvent := ⟨{ kind := .other, scope := ⟨0⟩, name := [] }⟩

/-- Whether the end of a unit of work reports a failure. -/
def isFailure (detail : Bytes) : Bool :=
  [Bytes.ofString "errors", "error", "failed", "canceled"].contains detail

/-- Whether an event is kept at a level. -/
def TraceLevel.accepts (l : TraceLevel) (e : TraceEvent) : Bool :=
  l.shows e.scope || (l.watches e.scope && e.kind = .stop && isFailure e.detail)

/-! Moments as calendar dates of universal time. -/
namespace Moment

/-- Year, month and day of a day counted from the start of 1970. Years are counted from March, so
that a leap day ends its year. -/
def civil (day : Int) : Int × Nat × Nat :=
  let shifted := day + 719468
  let era := shifted.fdiv 146097
  let doe := (shifted - era * 146097).toNat
  let yoe := (doe - doe / 1460 + doe / 36524 - doe / 146096) / 365
  let doy := doe - (365 * yoe + yoe / 4 - yoe / 100)
  let mp := (5 * doy + 2) / 153
  let d := doy - (153 * mp + 2) / 5 + 1
  let m := if mp < 10 then mp + 3 else mp - 9
  (yoe + era * 400 + (if m ≤ 2 then 1 else 0), m, d)

def digits (width n : Nat) : Bytes := (Bytes.ofNat n).padZero width

/-- Written `2006-01-02T15:04:05.000000Z`. -/
def render (time : Int) : Bytes :=
  let day := time.fdiv 86400000000
  let us := (time - day * 86400000000).toNat
  let (y, m, d) := civil day
  Bytes.when (y < 0) "-" ++ digits 4 y.natAbs ++ "-" ++ digits 2 m ++ "-" ++ digits 2 d ++ "T"
    ++ digits 2 (us / 3600000000) ++ ":" ++ digits 2 (us / 60000000 % 60) ++ ":"
    ++ digits 2 (us / 1000000 % 60) ++ "." ++ digits 6 (us % 1000000) ++ "Z"

end Moment

namespace TraceEvent

/-- The facts in bytewise order of their keys. -/
def facts (e : TraceEvent) : List (Bytes × Bytes) := e.extra.mergeSort fun a b => Bytes.le a.1 b.1

def factText (fact : Bytes × Bytes) : Bytes := fact.1 ++ "=" ++ fact.2

def toText (e : TraceEvent) : Bytes :=
  "[" ++ (Bytes.ofNat e.seq).padLeft 6 ++ "] " ++ Bytes.when (0 < e.parent) "  " ++ e.kind.sign
    ++ e.name ++ Bytes.when (!e.detail.isEmpty) (" (" ++ e.detail ++ ")")
    ++ Bytes.when (!e.extra.isEmpty) (" \x7b" ++ Bytes.join ", " (e.facts.map factText) ++ "\x7d")
    ++ "\n"

open Json (always given text nonZero) in
def toJson (e : TraceEvent) : Json :=
  .object (always "time" (.string (Moment.render e.time)) ++ always "seq" (.nat e.seq)
    ++ always "kind" (.string e.kind.name) ++ always "scope" (.string e.scope.name)
    ++ always "span_id" (.nat e.id) ++ nonZero "parent_id" e.parent ++ always "name" (.string e.name)
    ++ text "detail" e.detail
    ++ given "extra" (!e.extra.isEmpty) (.object (e.facts.map fun (k, v) => (k, .string v))))

def toJsonLine (e : TraceEvent) : Bytes := e.toJson.render { markup := true } ++ "\n"

def render (f : TraceFormat) (e : TraceEvent) : Bytes :=
  if f = .ndjson then e.toJsonLine else e.toText

end TraceEvent
end Uml
