import Uml.Json.Record
import Uml.Source.Path
import Uml.Text.Category
import Uml.Toml.Build

/-!
# Project manifests

A settings file at the root of a project says how its models are compiled. Names of settings match
exactly or without case; a setting that is not understood makes the manifest invalid.
-/
namespace Uml

structure Manifest where
  /-- Where the file stands. -/
  path : Bytes := []
  name : Bytes := []
  language : Bytes := []
  maxDiagnostics : Int := 0
  /-- Directories or files of models, relative to the root. -/
  sources : List Bytes := []
  cache : Bool := false
  /-- Config of diagrams that models can override. -/
  config : Option Config := none
  deriving Inhabited

inductive ManifestError where
  /-- Not a settings file, or a setting of the wrong type. -/
  | malformed
  | missingName
  | negativeLimit
  | unknownKeys (keys : List Toml.Key)

namespace ManifestError

/-- How an error in the manifest at `path` is put in words. -/
def message (path : Bytes) : ManifestError → Bytes
  | malformed => path ++ ": failed to parse TOML: malformed settings"
  | missingName => path ++ ": invalid project manifest: missing [project].name"
  | negativeLimit =>
    path ++ ": invalid project manifest: [compile].max_diagnostics must not be negative"
  | unknownKeys keys =>
    path ++ ": invalid project manifest: unknown keys " ++ Bytes.join ", " (keys.map Toml.renderKey)

end ManifestError

namespace Manifest

def fileName : Bytes := "umlc.toml"

/-- A setting that is understood. Reading a value also tells which keys below it are understood,
and fails if the value has the wrong type. -/
structure Setting where
  name : Bytes
  read : Toml → Manifest → Option (Manifest × List Toml.Key)

def findSetting? (settings : List Setting) (key : Bytes) : Option Setting :=
  settings.find? (·.name = key) <|> settings.find? (Json.foldName ·.name = Json.foldName key)

/-- Reads the entries of a table, with the keys that are understood; others are passed over. -/
def readEntries (settings : List Setting) :
    Toml.Entries → Manifest → Option (Manifest × List Toml.Key)
  | [], m => some (m, [])
  | (key, v) :: rest, m =>
    match findSetting? settings key with
    | none => readEntries settings rest m
    | some s => do
      let (m, below) ← s.read v m
      let (m, others) ← readEntries settings rest m
      pure (m, [key] :: below.map (key :: ·) ++ others)

def single (name : Bytes) (read : Toml → Manifest → Option Manifest) : Setting :=
  ⟨name, fun v m => (read v m).map (·, [])⟩

def table (name : Bytes) (settings : List Setting) : Setting :=
  ⟨name, fun
    | .table entries, m => readEntries settings entries m
    | _, _ => none⟩

def text? : Toml → Option Bytes
  | .text s => some s
  | _ => none

def integer? : Toml → Option Int
  | .integer n => some n
  | _ => none

def boolean? : Toml → Option Bool
  | .boolean b => some b
  | _ => none

def texts? : Toml → Option (List Bytes)
  | .array items => items.mapM text?
  | _ => none

/-- Config is taken as it is; what is no table is passed over. -/
def configSetting : Setting :=
  ⟨"config", fun
    | .table entries, m =>
      some ({ m with config := some (Config.setAll (m.config.getD []) (Toml.toConfig entries)) },
        entries.map fun (k, _) => [k])
    | _, m => some (m, [])⟩

def settings : List Setting :=
  [table "project" [single "name" fun v m => (text? v).map fun s => { m with name := s }],
   table "compile"
    [single "language" fun v m => (text? v).map fun s => { m with language := s },
     single "max_diagnostics" fun v m => (integer? v).map fun n => { m with maxDiagnostics := n },
     single "sources" fun v m => (texts? v).map fun l => { m with sources := l },
     single "cache" fun v m => (boolean? v).map fun b => { m with cache := b }],
   configSetting]

/-- Whether a path of keys, each matched exactly, leads to a value. -/
def isDefined : Toml.Key → Toml.Entries → Bool
  | [], _ => false
  | [key], entries => (entries.lookup key).isSome
  | key :: rest, entries =>
    match entries.lookup key with
    | some (.table below) => isDefined rest below
    | _ => false

/-- The keys that nothing understands; those of the config are free. -/
def unknownKeys (doc : Toml.Document) (understood : List Toml.Key) : List Toml.Key :=
  doc.keys.filter fun key => !understood.contains key && key.head? ≠ some "config"

def read (path content : Bytes) : Except ManifestError Manifest := do
  let some doc := Toml.read? content | throw .malformed
  let some (m, understood) := readEntries settings doc.root { path } | throw .malformed
  if !isDefined ["project", "name"] doc.root || m.name.trim.isEmpty then throw .missingName
  if m.maxDiagnostics < 0 then throw .negativeLimit
  let unknown := unknownKeys doc understood
  if !unknown.isEmpty then throw (.unknownKeys unknown)
  pure (if m.sources.isEmpty then { m with sources := ["."] } else m)

def root (m : Manifest) : Bytes := Path.directory m.path

def sourcePaths (m : Manifest) : List Bytes := m.sources.map fun s => Path.joinAll [m.root, s]

def starter (name language : Bytes) : Bytes :=
  "[project]\n  name = " ++ Toml.quote name ++ "\n\n[compile]\n  language = " ++ Toml.quote language
    ++ "\n  max_diagnostics = 100\n  sources = [\"models\"]\n  cache = false\n"
    ++ "\n[config]\n  direction = \"TB\"\n"

end Manifest
end Uml
