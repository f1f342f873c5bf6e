import Uml.Number.Double
import Uml.Text.Bytes
import Uml.Text.Utf8

/-! Durations in nanoseconds, and their text in the largest unit that fits. -/
namespace Uml.Duration

def microsecond : Nat := 1000
def millisecond : Nat := 1000000
def second : Nat := 1000000000

/-- The nearest multiple of `unit`; a half goes up. -/
def round (unit ns : Nat) : Nat :=
  let rest := ns % unit
  if 2 * rest < unit then ns - rest else ns + (unit - rest)

/-- `n / 10 ^ places` without trailing zeros. -/
def decimal (places n : Nat) : Bytes :=
  let fraction := ((Bytes.ofNat (n % Power.ten places)).padZero places).reverse.dropWhile (· = 0x30)
  Bytes.ofNat (n / Power.ten places) ++ Bytes.when (!fraction.isEmpty) (0x2E :: fraction.reverse)

/-- Below a second one unit with a fraction; else hours, minutes and seconds without leading
zero parts. -/
def render (ns : Nat) : Bytes :=
  if ns = 0 then "0s"
  else if ns < microsecond then Bytes.ofNat ns ++ "ns"
  else if ns < millisecond then decimal 3 ns ++ "µs"
  else if ns < second then decimal 6 ns ++ "ms"
  else
    let minutes := ns / (60 * second)
    Bytes.when (60 ≤ minutes) (Bytes.ofNat (minutes / 60) ++ "h")
      ++ Bytes.when (1 ≤ minutes) (Bytes.ofNat (minutes % 60) ++ "m")
      ++ decimal 9 (ns % (60 * second)) ++ "s"

end Uml.Duration

/-! Time spent, by phase of one compilation and by stage of a run. -/
namespace Uml

structure TimedPhase where
  name : Bytes
  ms : Double
  note : Bytes := []
  deriving DecidableEq, Repr

structure TimeReport where
  total : Double := .zero
  phases : List TimedPhase := []
  deriving DecidableEq, Repr

namespace TimeReport

def ofPhases (phases : List TimedPhase) : TimeReport := ⟨.sum (phases.map (·.ms)), phases⟩

def line (name : Bytes) (ms : Double) : Bytes :=
  "  " ++ Utf8.padRight 12 name ++ " " ++ (ms.fixed 2).padLeft 8 ++ " ms"

/-- An aligned table with the total below. -/
def table (r : TimeReport) : Bytes :=
  "timings:\n" ++ Bytes.concat (r.phases.map fun p =>
      line p.name p.ms ++ Bytes.when (!p.note.isEmpty) ("  " ++ p.note) ++ "\n")
    ++ line "total" r.total ++ "\n"

/-- Adds a phase to the one of its name, or behind all others; notes are not kept. -/
def addPhase (phases : List TimedPhase) (p : TimedPhase) : List TimedPhase :=
  match phases with
  | [] => [{ name := p.name, ms := Double.zero.add p.ms }]
  | q :: rest => if q.name = p.name then { q with ms := q.ms.add p.ms } :: rest else q :: addPhase rest p

def merge (reports : List TimeReport) : TimeReport :=
  ⟨.sum (reports.map (·.total)), (reports.flatMap (·.phases)).foldl addPhase []⟩

end TimeReport

/-- Time by stage, each stage once. -/
structure StageTimes where
  entries : List (Bytes × Int) := []
  deriving DecidableEq, Repr

namespace StageTimes

def get (t : StageTimes) (stage : Bytes) : Int := (t.entries.lookup stage).getD 0

def add (t : StageTimes) (stage : Bytes) (time : Int) : StageTimes :=
  if (t.entries.lookup stage).isSome then
    ⟨t.entries.map fun (s, old) => if s = stage then (s, old + time) else (s, old)⟩
  else ⟨t.entries ++ [(stage, time)]⟩

def sum (t : StageTimes) (stages : List Bytes) : Int :=
  (if stages.isEmpty then t.entries.map (·.2) else stages.map t.get).foldr (· + ·) 0

end StageTimes
end Uml
