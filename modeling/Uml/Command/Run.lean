import Uml.Command.Compile
import Uml.Command.Inspect
import Uml.Report.Pretty

/-! The version of the compiler. -/
namespace Uml.Version

def current : Bytes := "0.1.0-dev"

def isSuffixStart (b : UInt8) : Bool := b = 0x2D || b = 0x2B

/-- Paints the parts of a dotted triple; a suffix such as `-dev` stays plain, and so does whatever
is no triple. -/
def colored (v : Bytes) (color : Bool) : Bytes :=
  let core := v.takeWhile (!isSuffixStart ·)
  match Bytes.splitByte 0x2E core, color with
  | [major, minor, patch], true =>
    let paint (c : Nat) (s : Bytes) : Bytes := Paint.apply ⟨[c, Paint.bold], true⟩ s
    paint Paint.yellow major ++ "." ++ paint Paint.green minor ++ "." ++ paint Paint.blue patch
      ++ v.drop core.length
  | _, _ => v

def line (color : Bool) : Bytes := "umlc " ++ colored current color

end Uml.Version

/-! Starting a project: a manifest and a first model. Nothing that exists is overwritten. -/
namespace Uml

def starterModel : Bytes :=
  "/** Starter model: run \"umlc compile\" in the project root. */\n"
    ++ "package app \x7b\n  abstract class Entity \x7b\n    +id: string\n  \x7d\n\n"
    ++ "  class User >> Entity \x7b\n    +name: string\n    +orders: Order[]\n  \x7d\n\n"
    ++ "  class Order >> Entity \x7b\n    +total: number\n  \x7d\n\x7d\n"

def projectName (directory : Bytes) : Bytes :=
  let name := (Path.baseName directory).trim
  if name.isEmpty || name = "." || name = "/" then "umlc-project" else name

namespace Shell

variable {m : Type → Type} [Monad m] [Host m]

def needDirectory (path : Bytes) : Shell m Unit := do
  match ← ask (Host.kindOf path) with
  | .ok .directory => return
  | .ok .file => fail (Quoted.text path ++ " is not a directory")
  | .error fault =>
    if fault.cause ≠ .notFound then fail fault.message
    orFail ("failed to create directory " ++ Quoted.text path ++ ": ")
      (← ask (Host.makeDirectories path))

/-- Writes the first model unless there is one; tells whether it was written. -/
def addStarterModel (directory : Bytes) : Shell m Bool := do
  let path := Path.joinAll [directory, "models", "model.uml"]
  match ← ask (Host.stat path) with
  | .error .notFound =>
    orFail "" (← ask (Host.makeDirectories (Path.directory path)))
    orFail "failed to write model: " (← ask (Host.setContent path starterModel))
    return true
  | _ => return false

def initCommand (o : Options) (words : List Bytes) : Shell m Unit := do
  if !o.language.isEmpty then
    if let .error e := Catalog.plugin? o.language then fail e.message
  let workDir ← ask Host.workDir
  let target :=
    match words with
    | [word] =>
      if word = "." then workDir
      else if Path.isAbsolute word then word
      else Path.joinAll [workDir, word]
    | _ => workDir
  needDirectory target
  let manifest := Path.joinAll [target, Manifest.fileName]
  if let .ok _ := ← ask (Host.stat manifest) then
    fail ("project already initialized: " ++ manifest ++ " exists")
  orFail "failed to write manifest: "
    (← ask (Host.setContent manifest (Manifest.starter (projectName target) o.language)))
  let isNew ← addStarterModel target
  say ("Initialized umlc project in " ++ (Path.relative? workDir target).getD target ++ "\n  - "
    ++ Manifest.fileName ++ "\n  - models/model.uml" ++ Bytes.when (!isNew) " (existing)" ++ "\n")

end Shell
end Uml

/-! Carrying out command lines. -/
namespace Uml

def pluginTable : Bytes :=
  let head : List Bytes := ["NAME", "LANGUAGE", "PLUGIN"]
  let rows := head :: Catalog.entries.map fun (name, p) => [name, p.language.getD "-", p.name]
  let width (n : Nat) : Nat := ((rows.map fun r => (r.getD n []).length).max?.getD 0) + 2
  Bytes.concat (rows.map fun r =>
    (r.getD 0 []).padRight (width 0) ++ (r.getD 1 []).padRight (width 1) ++ r.getD 2 [] ++ "\n")

def Command.usage (c : Command) : Bytes :=
  "Usage:\n  " ++ c.path ++ Bytes.when (!c.below.isEmpty) " [command]" ++ " [flags]\n"
    ++ Bytes.when (!c.below.isEmpty)
      ("\nAvailable Commands:\n" ++ Bytes.concat (c.below.map fun (name, _) => "  " ++ name ++ "\n"))
    ++ "\nFlags:\n" ++ Bytes.concat (c.flags.map fun f => "  " ++ f.title ++ "\n")

namespace Shell

variable {m : Type → Type} [Monad m] [Host m] [CacheStore m]

def versionCommand (s : Settings) (o : Options) : Shell m Unit := do
  let format := o.format?.getD "pretty"
  if format.isEmpty || format = "pretty" then say (Version.line s.color ++ "\n")
  else if format = "json" then
    say ((Json.object (Json.always "version" (.string Version.current))).render .pretty ++ "\n")
  else fail ("unknown format " ++ Quoted.text format ++ " (want pretty|json)")

def cacheDirectoryCommand : Shell m Unit := do
  openCache []
  say ((← ask CacheStore.directory) ++ "\n")

def cacheClearCommand (s : Settings) : Shell m Unit := do
  openCache []
  orFail "clear cache: " (← ask CacheStore.clear)
  if !s.quiet then say ("cleared " ++ (← ask CacheStore.directory) ++ "\n")

def command (c : Command) (line : CommandLine) : Shell m Unit := do
  let s ← settings line.options
  match c with
  | .tokenize => tokenizeCommand s line.options line.words
  | .parse => parseCommand s line.options line.words
  | .compile => compileCommand s line.options line.words
  | .diag => checkCommand s line.options line.words
  | .init => initCommand line.options line.words
  | .plugins => say pluginTable
  | .version => versionCommand s line.options
  | .cacheDirectory => cacheDirectoryCommand
  | .cacheClear => cacheClearCommand s
  | .root | .cache | .completion | .help => say c.usage

def request (args : List Bytes) : Shell m Unit := do
  match Command.request args with
  | .error e => fail e.message
  | .ok (.usage c) => say c.usage
  | .ok .versionLine => say ("umlc version " ++ Version.current ++ "\n")
  | .ok (.run c line) => command c line

end Shell

def runCommand {m : Type → Type} [Monad m] [Host m] [CacheStore m] (args : List Bytes) :
    m ExitReport := do
  let (r, console) ← ((Shell.request args : Shell m Unit).run).run {}
  return .ofShell r console

end Uml
