import Uml.Digest.Sha256
import Uml.Source.Path

/-!
# Hosts

What a run needs from the machine it runs on, as operations of a monad. A path may be relative to
the working directory.
-/
namespace Uml

inductive DiskCause where
  | notFound | notDirectory | isDirectory | denied | occupied
  | other (text : Bytes)
  deriving DecidableEq, Repr, Inhabited

def DiskCause.text : DiskCause → Bytes
  | notFound => "no such file or directory"
  | notDirectory => "not a directory"
  | isDirectory => "is a directory"
  | denied => "permission denied"
  | occupied => "file exists"
  | other text => text

structure DiskFault where
  operation : Bytes
  path : Bytes
  cause : DiskCause
  deriving DecidableEq, Repr, Inhabited

def DiskFault.message (f : DiskFault) : Bytes :=
  f.operation ++ " " ++ f.path ++ ": " ++ f.cause.text

inductive EntryKind where
  | file | directory
  deriving DecidableEq, Repr, Inhabited

class Host (m : Type → Type) where
  workDir : m Bytes
  /-- All of the standard input. -/
  input : m Bytes
  /-- Nanoseconds on a clock that never goes back. -/
  now : m Nat
  /-- Computes a value, and tells how many nanoseconds it took. -/
  measure {α : Type} : (Unit → α) → m (α × Nat)
  /-- Microseconds since the start of 1970. -/
  time : m Int
  stat : Bytes → m (Except DiskCause EntryKind)
  read : Bytes → m (Except DiskCause Bytes)
  /-- Replaces the content of a file, or makes the file. -/
  write : Bytes → Bytes → m (Except DiskCause Unit)
  makeDirectory : Bytes → m (Except DiskCause Unit)
  /-- The names in a directory, in bytewise order. -/
  list : Bytes → m (Except DiskCause (List Bytes))

/-- A place outside of all projects where compilations are cached. -/
class CacheStore (m : Type → Type) where
  directory : m Bytes
  get? : Digest → m (Option Bytes)
  put : Digest → Bytes → m (Except DiskFault Unit)
  /-- Makes sure that the place exists. -/
  prepare : m (Except DiskFault Unit)
  clear : m (Except DiskFault Unit)

namespace Host

variable {m : Type → Type} [Monad m] [Host m]

def blame {α : Type} (operation path : Bytes) (r : Except DiskCause α) : Except DiskFault α :=
  r.mapError fun cause => ⟨operation, path, cause⟩

def kindOf (path : Bytes) : m (Except DiskFault EntryKind) := return blame "stat" path (← stat path)

/-- Opening a directory succeeds; it is reading that fails. -/
def content (path : Bytes) : m (Except DiskFault Bytes) := do
  match ← read path with
  | .error .isDirectory => return .error ⟨"read", path, .isDirectory⟩
  | r => return blame "open" path r

def setContent (path text : Bytes) : m (Except DiskFault Unit) :=
  return blame "open" path (← write path text)

/-- Makes the directories of a list that are missing, in order. -/
def makeMissing : List Bytes → m (Except DiskFault Unit)
  | [] => return .ok ()
  | path :: rest => do
    match ← stat path with
    | .ok .directory => makeMissing rest
    | .ok .file => return .error ⟨"mkdir", path, .notDirectory⟩
    | .error _ =>
      match ← makeDirectory path with
      | .ok _ => makeMissing rest
      | .error cause => return .error ⟨"mkdir", path, cause⟩

/-- The directories that a clean path leads through, itself last. -/
def steps (path : Bytes) : List Bytes :=
  let segments := Path.segments path
  (List.range segments.length).map fun n =>
    Bytes.when (Path.isAbsolute path) [Path.slash] ++ Bytes.join [Path.slash] (segments.take (n + 1))

def makeDirectories (path : Bytes) : m (Except DiskFault Unit) := makeMissing (steps path)

end Host
end Uml
