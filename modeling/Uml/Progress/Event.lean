import Uml.Compile.Basic
import Uml.Source.Path
import Uml.Text.Category

/-!
# Progress events

What a run tells about its files while it goes on: each is queued, passes through the stages, and
is done or has errors in the end.
-/
namespace Uml

inductive ProgressStage where
  | lex | parse | analyze | assemble
  /-- The file was found in the cache. -/
  | cache
  | other (name : Bytes)
  deriving DecidableEq, Repr

namespace ProgressStage

def name : ProgressStage → Bytes
  | lex => "lex"
  | parse => "parse"
  | analyze => "analyze"
  | assemble => "assemble"
  | cache => "cache"
  | other name => name

def listed : List ProgressStage := [lex, parse, analyze, assemble, cache]

def ofName? (s : Bytes) : Option ProgressStage :=
  if s.isEmpty then none else some ((listed.find? (·.name = s)).getD (.other s))

/-- The share of a file's work, in tenths, that is done when the stage starts. -/
def tenths : ProgressStage → Nat
  | lex => 1
  | parse => 3
  | analyze => 6
  | assemble => 9
  | cache | other _ => 0

end ProgressStage

inductive ProgressStatus where
  | queued | working | done
  /-- The file has errors, or could not be read. -/
  | error
  | other (name : Bytes)
  deriving DecidableEq, Repr

namespace ProgressStatus

def name : ProgressStatus → Bytes
  | queued => "queued"
  | working => "working"
  | done => "done"
  | error => "error"
  | other name => name

def listed : List ProgressStatus := [queued, working, done, error]

def ofName (s : Bytes) : ProgressStatus := (listed.find? (·.name = s)).getD (.other s)

end ProgressStatus

structure ProgressEvent where
  file : Bytes
  stage? : Option ProgressStage := none
  status : ProgressStatus
  /-- The file could not be read. -/
  isFailed : Bool := false
  /-- Time spent, in nanoseconds. -/
  elapsed : Nat := 0
  deriving DecidableEq, Repr

namespace ProgressEvent

/-- The tenths that an event without a stage stands for are none. -/
def tenths (e : ProgressEvent) : Nat := (e.stage?.map (·.tenths)).getD 0

def working (file : Bytes) (stage : ProgressStage) : ProgressEvent :=
  { file, stage? := some stage, status := .working }

end ProgressEvent

namespace Compilation

/-- The last news of a file. -/
def outcome (c : Compilation) (stage? : Option ProgressStage) : ProgressEvent :=
  { file := c.path, stage?, status := if c.hasErrors then .error else .done }

/-- What a compilation tells from its start to its end. -/
def events (c : Compilation) : List ProgressEvent :=
  if c.isCached then [c.outcome (some .cache)]
  else
    [.working c.path .lex] ++ (c.parsed.map fun _ => ProgressEvent.working c.path .parse).toList
      ++ (c.session?.map fun _ => ProgressEvent.working c.path .analyze).toList
      ++ (c.diagram.map fun _ => ProgressEvent.working c.path .assemble).toList
      ++ [c.outcome none]

/-- The phases that are timed, with a note on what each produced. -/
def phases (c : Compilation) : List (Bytes × Bytes) :=
  let phase (name note : Bytes) : Bytes × Bytes := (name, note)
  if c.isCached then []
  else
    [phase "lex" ("tokens=" ++ .ofNat c.tokens.length)]
      ++ (c.parsed.map fun p => phase "parse" ("stmts=" ++ .ofNat p.program.statements.length)).toList
      ++ (c.session?.map fun s => phase "sema" ("entities=" ++ .ofNat s.table.size)).toList
      ++ (c.diagram.map fun _ => phase "assemble" []).toList

end Compilation

def shownPaths (workDir : Bytes) (files : List Bytes) (base : Bytes) : List Bytes :=
  let base := base.trim
  let base := if base.isEmpty then base else Path.absolute workDir base
  let names := (files.filter (!·.isEmpty)).map (Path.shown workDir · base)
  names.eraseDups.mergeSort Bytes.le

end Uml
