import Uml.Cache.Entry
import Uml.Host.Basic

/-!
# Machines in memory

A disk is a set of files and directories. Paths are followed segment by segment: a segment can only
be taken from a directory, even if a later `..` leads back.
-/
namespace Uml

/-- Where an entry stands, from the root down. -/
abbrev Place := List Bytes

structure Disk where
  /-- Entries by place; a directory has no content. The root is not listed. -/
  entries : List (Place × Option Bytes) := []
  deriving DecidableEq, Repr

namespace Disk

def get? (d : Disk) (p : Place) : Option (Option Bytes) :=
  if p.isEmpty then some none else d.entries.lookup p

def set (d : Disk) (p : Place) (content : Option Bytes) : Disk :=
  ⟨(p, content) :: d.entries.filter (·.1 ≠ p)⟩

def remove (d : Disk) (p : Place) : Disk := ⟨d.entries.filter fun e => !p.isPrefixOf e.1⟩

def follow (d : Disk) (p : Place) : List Bytes → Except DiskCause Place
  | [] => if (d.get? p).isSome then .ok p else .error .notFound
  | segment :: rest =>
    match d.get? p with
    | none => .error .notFound
    | some (some _) => .error .notDirectory
    | some none =>
      if segment.isEmpty || segment = "." then d.follow p rest
      else if segment = ".." then d.follow p.dropLast rest
      else d.follow (p ++ [segment]) rest

def find (d : Disk) (workDir : Place) (path : Bytes) : Except DiskCause Place :=
  if path.isEmpty then .error .notFound
  else d.follow (if Path.isAbsolute path then [] else workDir) (path.splitByte Path.slash)

/-- Where an entry of a given path can be made: its directory has to exist. -/
def findNew (d : Disk) (workDir : Place) (path : Bytes) : Except DiskCause Place := do
  if path.isEmpty then throw .notFound
  let segments := path.splitByte Path.slash
  let home ← d.follow (if Path.isAbsolute path then [] else workDir) segments.dropLast
  match d.get? home, segments.getLast? with
  | some none, some name =>
    if name.isEmpty || name = "." || name = ".." then throw .isDirectory
    pure (home ++ [name])
  | _, _ => throw .notDirectory

def names (d : Disk) (p : Place) : List Bytes :=
  d.entries.filterMap fun (q, _) =>
    if q.length = p.length + 1 && p.isPrefixOf q then q.getLast? else none

/-- Puts a file at a clean absolute path, with the directories above it. -/
def addFile (d : Disk) (path : Bytes) (content : Option Bytes) : Disk :=
  let p := Path.segments path
  let d := (List.range p.length).foldl (fun d n =>
    if (d.get? (p.take n)).isSome then d else d.set (p.take n) none) d
  if p.isEmpty then d else d.set p content

end Disk

structure Machine where
  disk : Disk := {}
  workDir : Bytes := "/"
  input : Bytes := []
  cacheDirectory : Bytes := "/cache"
  cache : Cache := {}
  /-- Nanoseconds. -/
  clock : Nat := 0

namespace Machine

def find (m : Machine) (path : Bytes) : Except DiskCause Place :=
  m.disk.find (Path.segments m.workDir) path

def content (m : Machine) (path : Bytes) : Except DiskCause (Option Bytes) := do
  match m.disk.get? (← m.find path) with
  | some content => pure content
  | none => throw .notFound

def write (m : Machine) (path text : Bytes) : Except DiskCause Machine := do
  let p ← m.disk.findNew (Path.segments m.workDir) path
  if m.disk.get? p = some none then throw .isDirectory
  pure { m with disk := m.disk.set p (some text) }

def makeDirectory (m : Machine) (path : Bytes) : Except DiskCause Machine := do
  let p ← m.disk.findNew (Path.segments m.workDir) path
  if (m.disk.get? p).isSome then throw .occupied
  pure { m with disk := m.disk.set p none }

/-- A change that may fail and then changes nothing. -/
def attempt (f : Machine → Except DiskCause Machine) : StateM Machine (Except DiskCause Unit) :=
  fun m =>
    match f m with
    | .ok m => (.ok (), m)
    | .error cause => (.error cause, m)

instance : Host (StateM Machine) where
  workDir := return (← get).workDir
  input := return (← get).input
  now := return (← get).clock
  measure f := return (f (), 0)
  time := return (← get).clock / 1000
  stat path := do
    let r := (← get).content path
    return r.map fun content => if content.isSome then .file else .directory
  read path := do
    match (← get).content path with
    | .ok (some text) => return .ok text
    | .ok none => return .error .isDirectory
    | .error cause => return .error cause
  write path text := attempt (·.write path text)
  makeDirectory path := attempt (·.makeDirectory path)
  list path := do
    let m ← get
    return (do
      let p ← m.find path
      if (← m.content path).isSome then throw .notDirectory
      pure ((m.disk.names p).mergeSort Bytes.le))

instance : CacheStore (StateM Machine) where
  directory := return (← get).cacheDirectory
  get? key := return (← get).cache.get? key
  put key stored := do
    modify fun m => { m with cache := m.cache.put key stored }
    return .ok ()
  prepare := return .ok ()
  clear := do
    modify fun m => { m with cache := {} }
    return .ok ()

end Machine
end Uml
