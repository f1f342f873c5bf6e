import Uml.Host.Basic
import Uml.Project.Manifest

/-! The manifest that a directory belongs to: the nearest one at or above it. -/
namespace Uml

inductive ProjectError where
  /-- Whether there is a manifest cannot be told. -/
  | unknown (fault : DiskFault)
  | unreadable (path : Bytes) (fault : DiskFault)
  | invalid (path : Bytes) (error : ManifestError)

def ProjectError.message : ProjectError → Bytes
  | unknown fault => "failed to stat " ++ Quoted.text fault.path ++ ": " ++ fault.message
  | unreadable path fault => path ++ ": failed to parse TOML: " ++ fault.message
  | invalid path error => error.message path

namespace Manifest

variable {m : Type → Type} [Monad m] [Host m]

/-- The first path of a list where something stands. -/
def firstPresent? : List Bytes → m (Except ProjectError (Option Bytes))
  | [] => return .ok none
  | path :: rest => do
    match ← Host.kindOf path with
    | .ok _ => return .ok (some path)
    | .error fault => if fault.cause = .notFound then firstPresent? rest else return .error (.unknown fault)

/-- The places of a manifest for a directory, innermost first. -/
def candidates (workDir start : Bytes) : List Bytes :=
  let above := (Host.steps (Path.absolute workDir start)).reverse ++ [[Path.slash]]
  above.map fun dir => Path.joinAll [dir, fileName]

def load? (start : Bytes) : m (Except ProjectError (Option Manifest)) := do
  match ← firstPresent? (candidates (← Host.workDir) start) with
  | .error e => return .error e
  | .ok none => return .ok none
  | .ok (some path) =>
    match ← Host.content path with
    | .error fault => return .error (.unreadable path fault)
    | .ok content =>
      match read path content with
      | .error e => return .error (.invalid path e)
      | .ok m => return .ok (some m)

end Manifest
end Uml
