import Uml.Cache.Entry
import Uml.Compile.Work
import Uml.Host.Basic
import Uml.Progress.Event

/-!
# Runs over files

All files of a run are loaded first and share one file set; then each is compiled on its own. A
file that cannot be read has a result too, with that as its only diagnostic.
-/
namespace Uml

structure FileRun where
  /-- The files that spans of the result point into. -/
  files : FileSet := {}
  result : Compilation
  /-- The file could not be read. -/
  isUnread : Bool := false
  /-- Nanoseconds for each phase. -/
  elapsed : List Nat := []

namespace FileRun

def unread (o : CompileOptions) (path : Bytes) (fault : DiskFault) : FileRun :=
  let reason : Bytes :=
    if fault.cause = .notFound then "file does not exist"
    else "failed to load file: " ++ fault.message
  let bag := (Bag.ofLimit o.maxDiagnostics).add
    (.error .loadFailure {} (path ++ ": " ++ reason))
  { result := { path, bag, stage := o.stage }, isUnread := true }

def events (r : FileRun) : List ProgressEvent :=
  if r.isUnread then [{ file := r.result.path, status := .error, isFailed := true }]
  else r.result.events

/-- The work on the file; nothing is done on one that cannot be read. -/
def work (r : FileRun) : List Work := if r.isUnread then [] else [r.result.work .file]

end FileRun

namespace FileRuns

/-- What a run over files tells: all are queued before the first is compiled. -/
def events (runs : List FileRun) : List ProgressEvent :=
  runs.map (fun r => { file := r.result.path, status := .queued }) ++ runs.flatMap (·.events)

def work (runs : List FileRun) : Work :=
  let failed := runs.countP (·.result.hasErrors)
  .span .driver "compile-dir" (if 0 < failed then "errors" else "ok")
    (fact "files" runs.length :: if 0 < failed then [fact "failed" failed] else [])
    (runs.flatMap (·.work))

end FileRuns

namespace Run

variable {m : Type → Type} [Monad m] [Host m]

/-- Takes steps one after the other, and tells how long each took. -/
def timed : List (Compilation → Compilation) → Compilation → m (Compilation × List Nat)
  | [], c => pure (c, [])
  | step :: rest, c => do
    let (c, time) ← Host.measure fun _ => step c
    let (c, times) ← timed rest c
    pure (c, time :: times)

def load (fs : FileSet) (path : Bytes) : m (FileSet × Except DiskFault File) := do
  match ← Host.content path with
  | .error fault => return (fs, .error fault)
  | .ok content =>
    let (fs, file) := fs.addNormalized path content 0
    return (fs, .ok file)

def loadAll (fs : FileSet) : List Bytes → m (FileSet × List (Bytes × Except DiskFault File))
  | [] => pure (fs, [])
  | path :: rest => do
    let (fs, loaded) ← load fs path
    let (fs, others) ← loadAll fs rest
    pure (fs, (path, loaded) :: others)

variable [CacheStore m]

/-- Stores a compilation; that it could not be stored is a warning. -/
def store (o : CompileOptions) (file : File) (c : Compilation) : m Compilation := do
  match ← CacheStore.put (o.cacheKey file) (o.stored file c) with
  | .ok _ => return c
  | .error fault =>
    let warning := Diagnostic.warning .cacheFailure ⟨file.id, 0, 0⟩
      ("cache write failed: " ++ fault.message)
    return { c with bag := c.bag.add warning }

/-- Compiles a file, or fetches what the cache has for it. Only whole compilations are cached. -/
def compileFile (o : CompileOptions) (useCache : Bool) (fs : FileSet) (file : File) (path : Bytes) :
    m FileRun := do
  let useCache := useCache && o.stage = .diagram
  let stored ← if useCache then CacheStore.get? (o.cacheKey file) else pure none
  let c := (Compilation.start o path).fetch (CacheEntry.lookup file.id stored)
  if c.isCached then return { files := fs, result := c }
  let (c, elapsed) ← timed (compileSteps o fs file) c
  let c ← if useCache then store o file c else pure c
  return { files := fs, result := c, elapsed }

/-- Compiles files; names are shown as seen from `base`. -/
def compileFiles (o : CompileOptions) (useCache : Bool) (base : Bytes) (paths : List Bytes) :
    m (List FileRun) := do
  let workDir ← Host.workDir
  let base := if base.isEmpty then base else Path.absolute workDir base
  let (fs, loaded) ← loadAll { base, workDir } paths
  loaded.mapM fun (path, file?) =>
    let path := Path.shown workDir path base
    match file? with
    | .error fault => return .unread o path fault
    | .ok file => compileFile o useCache fs file path

end Run
end Uml
