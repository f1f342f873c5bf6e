import Uml.Command.Report
import Uml.Report.Editor
import Uml.Report.Outline

/-!
# Looking at models

Showing the tokens or the syntax tree of one document, and checking models, where the diagnostics are
the result.
-/
namespace Uml.Shell

variable {m : Type → Type} [Monad m] [Host m] [CacheStore m]

/-- Compiles one document up to a stage and shows its diagnostics. -/
def inspect (s : Settings) (stage : Stage) (lead : Bytes) (words : List Bytes) :
    Shell m FileRun := do
  let r ← compileInput s (← compileOptions s stage) false lead (words.headD [])
  warn (r.complaints s)
  return r

def tokenizeCommand (s : Settings) (o : Options) (words : List Bytes) : Shell m Unit := do
  let r ← inspect s .tokens "tokenization failed: " words
  let format := o.format?.getD "pretty"
  if format = "pretty" then say (Tokens.pretty r.files r.result.tokens)
  else if format = "json" then say ((Tokens.json r.result.tokens).render .pretty ++ "\n")
  else fail ("unknown format: " ++ format)
  summarize s [r]

def parseCommand (s : Settings) (o : Options) (words : List Bytes) : Shell m Unit := do
  let format := o.format?.getD "pretty"
  if format ≠ "pretty" && format ≠ "json" then fail ("unknown format: " ++ format)
  let r ← inspect s .tree "parse failed: " words
  if let some parsed := r.result.parsed then
    if format = "json" then say ((Outline.ofProgram parsed.program).toJson.render .pretty ++ "\n")
    else say (Outline.pretty parsed.program (some r.files))
  summarize s [r]

end Uml.Shell

namespace Uml

namespace FileRuns

def checkOptions (notes : Bool) : EditorOptions := { pathMode := .relative, includeNotes := notes }

/-- Diagnostics for an editor; several files are a list with their names. -/
def editorJson (runs : List FileRun) (notes : Bool) : Json :=
  let one (r : FileRun) : Json := r.result.bag.editorJson r.files (checkOptions notes)
  match runs with
  | [r] => one r
  | runs => .array (runs.map fun r =>
      match one r with
      | .object members => .object (Json.always "path" (.string r.result.path) ++ members)
      | v => v)

end FileRuns

def FileRun.sorted (r : FileRun) : FileRun :=
  { r with result := { r.result with bag := r.result.bag.sort } }

namespace Shell

variable {m : Type → Type} [Monad m] [Host m] [CacheStore m]

def checkCommand (s : Settings) (o : Options) (words : List Bytes) : Shell m Unit := do
  let report ← compileTargets s (← compileOptions s .diagram) false words
  let report := if o.sort then { report with runs := report.runs.map (·.sorted) } else report
  let format := o.format?.getD "pretty"
  if format = "pretty" then
    say (Bytes.concat (report.runs.map fun r => r.pretty s.color o.notes))
  else if format = "json" then
    say ((FileRuns.editorJson report.runs o.notes).render .pretty ++ "\n")
  else fail ("unknown format: " ++ format)
  conclude s report

end Shell
end Uml
