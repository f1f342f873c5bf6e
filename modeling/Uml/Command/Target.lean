import Uml.Command.Settings
import Uml.Host.Basic
import Uml.Run.Files

/-!
# Targets

What the words of a command name: the standard input, one file, or several files. Directories stand
for the model files below them, and no words for the sources of the project.
-/
namespace Uml.Run

variable {m : Type → Type} [Monad m] [Host m]

def modelExtension : Bytes := ".uml"

/-- Deeper than any path can lead. -/
def depthLimit : Nat := 4096

/-- Hidden directories are not searched. -/
def isHidden (name : Bytes) : Bool := name.startsWith "."

/-- The model files at or below a path that is not hidden, down to a depth. -/
def modelsFrom : Nat → Bytes → EntryKind → ExceptT DiskFault m (List Bytes)
  | _, path, .file => pure (if path.endsWith modelExtension then [path] else [])
  | 0, _, .directory => pure []
  | depth + 1, path, .directory => do
    let names ← ExceptT.mk (return Host.blame "open" path (← Host.list path))
    let found ← names.mapM fun name => do
      let child := Path.joinAll [path, name]
      let kind ← ExceptT.mk (return Host.blame "lstat" child (← Host.stat child))
      if kind = .directory && isHidden name then pure [] else modelsFrom depth child kind
    pure found.flatten

def models (path : Bytes) : m (Except DiskFault (List Bytes)) := ExceptT.run do
  let kind ← ExceptT.mk (return Host.blame "lstat" path (← Host.stat path))
  return (← modelsFrom depthLimit path kind).mergeSort Bytes.le

end Uml.Run

namespace Uml

structure RunReport where
  runs : List FileRun
  /-- Whether it was a run over several files, even if only one was found. -/
  isBatch : Bool
  /-- Nanoseconds. -/
  elapsed : Nat := 0

namespace Shell

variable {m : Type → Type} [Monad m] [Host m]

def inputWord : Bytes := "-"

def inputName : Bytes := "<stdin>"

/-- The files that words stand for, each once and in order. -/
def expand (words : List Bytes) : Shell m (List Bytes) := do
  let found ← words.mapM fun word => do
    match ← orFail "" (← ask (Host.kindOf word)) with
    | .file => pure [word]
    | .directory => orFail "" (← ask (Run.models word))
  return (found.flatten.mergeSort Bytes.le).eraseDups

def isSingle (words : List Bytes) : Shell m Bool := do
  match words with
  | [word] =>
    if word = inputWord then return true
    match ← ask (Host.kindOf word) with
    | .ok .file => return true
    | _ => return false
  | _ => return false

variable [CacheStore m]

/-- Compiles the standard input or one file; `lead` begins the messages on failure. -/
def compileInput (s : Settings) (o : CompileOptions) (useCache : Bool) (lead word : Bytes) :
    Shell m FileRun := do
  let fs : FileSet := { workDir := ← ask Host.workDir }
  let (fs, file, path) ← do
    if word = inputWord then
      let (fs, file) := fs.addVirtual inputName (← ask Host.input)
      pure (fs, file, inputName)
    else
      if (← orFail lead (← ask (Host.kindOf word))) = .directory then
        fail (lead ++ word ++ " is a directory; use \"umlc compile\" or \"umlc diag\"")
      let (fs, file?) ← ask (Run.load fs word)
      let file ← orFail (lead ++ "compile " ++ word ++ ": ") file?
      pure (fs, file, fs.displayPath file)
  let run ← ask (Run.compileFile o useCache fs file path)
  trace s (run.result.work .driver)
  return run

def compileTargets (s : Settings) (o : CompileOptions) (useCache : Bool) (words : List Bytes) :
    Shell m RunReport := do
  let start ← ask Host.now
  let words ←
    match words, s.manifest? with
    | [], none => fail "no input: pass a file or directory, or run inside a project with umlc.toml"
    | [], some manifest => pure manifest.sourcePaths
    | words, _ => pure words
  let isBatch := !(← isSingle words)
  let runs ←
    if isBatch then do
      let files ← expand words
      if files.isEmpty then fail ("no " ++ Run.modelExtension ++ " files found")
      let runs ← ask (Run.compileFiles o useCache (← ask Host.workDir) files)
      trace s (FileRuns.work runs)
      pure runs
    else words.mapM (compileInput s o useCache [])
  return { runs, isBatch, elapsed := (← ask Host.now) - start }

def compileOptions (s : Settings) (stage : Stage) : Shell m CompileOptions :=
  match s.compileOptions stage with
  | .ok o => pure o
  | .error e => fail e.message

end Shell
end Uml
