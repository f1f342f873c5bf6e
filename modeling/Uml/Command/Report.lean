import Uml.Command.Target
import Uml.Progress.Timing
import Uml.Report.Pretty

/-! What commands tell of their runs besides their results. -/
namespace Uml

namespace FileRun

def pretty (r : FileRun) (color showNotes : Bool) : Bytes :=
  r.result.bag.pretty r.files { color, context := 1, pathMode := .relative, showNotes }

/-- The diagnostics as shown beside the result, with the number of those that were dropped. -/
def complaints (s : Settings) (r : FileRun) : Bytes :=
  let bag := r.result.bag
  if bag.items.isEmpty || (s.quiet && !bag.hasErrors) then []
  else
    r.pretty s.color true
      ++ Bytes.when (0 < bag.dropped) (r.result.path ++ ": " ++ .ofInt bag.dropped
        ++ " more diagnostics not shown (" ++ .ofInt bag.droppedErrors ++ " errors, --max-diagnostics)\n")

def errorCount (r : FileRun) : Int := r.result.bag.count .error + r.result.bag.droppedErrors

def warningCount (r : FileRun) : Nat := r.result.bag.count .warning

def times (r : FileRun) : TimeReport :=
  .ofPhases ((r.result.phases.zip r.elapsed).map fun ((name, note), ns) =>
    ⟨name, (Double.ofRatio? false ns Duration.millisecond).getD .zero, note⟩)

end FileRun

namespace RunReport

def timedStages : List ProgressStage := [.lex, .parse, .analyze, .assemble]

def stageTimes (r : RunReport) : StageTimes :=
  (r.runs.flatMap fun run => timedStages.zip run.elapsed).foldl
    (fun t (stage, ns) => t.add stage.name ns) {}

def duration (ns : Nat) : Bytes := Duration.render (Duration.round Duration.microsecond ns)

/-- The times of a run: by phase, by stage if it was over several files, and in all. -/
def timeText (r : RunReport) : Bytes :=
  let stages := timedStages.map fun stage =>
    "  " ++ Utf8.padRight 9 stage.name ++ " " ++ duration (r.stageTimes.get stage.name).toNat ++ "\n"
  (TimeReport.merge (r.runs.map (·.times))).table
    ++ Bytes.when r.isBatch ("stage timings (wall, summed over files):\n" ++ Bytes.concat stages)
    ++ Bytes.ofNat r.runs.length ++ " file(s), " ++ .ofNat (r.runs.countP (·.result.isCached))
    ++ " from cache, wall " ++ duration r.elapsed ++ "\n"

end RunReport

namespace Shell

variable {m : Type → Type} [Monad m]

/-- Tells the number of errors and warnings; errors make the command fail. -/
def summarize (s : Settings) (runs : List FileRun) : Shell m Unit := do
  let errors := (runs.map (·.errorCount)).foldr (· + ·) 0
  let warnings := (runs.map (·.warningCount)).foldr (· + ·) 0
  if !s.quiet && (0 < errors || 0 < warnings) then
    warn (Bytes.ofInt errors ++ " error(s), " ++ .ofNat warnings ++ " warning(s)\n")
  if 0 < errors then throw .reported

def conclude (s : Settings) (r : RunReport) : Shell m Unit := do
  if s.timings then warn r.timeText
  summarize s r.runs

end Shell
end Uml
