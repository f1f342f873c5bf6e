import Std.Time.DateTime.Timestamp
import Uml.Host.Basic

/-! The machine that the program runs on. -/
namespace Uml.Native

/-- A text for the system; ill-formed bytes cannot name anything. -/
def toText (s : Bytes) : String := (String.fromUTF8? ⟨s.toArray⟩).getD "\uFFFD"

def toBytes (b : ByteArray) : Bytes := b.data.toList

def causeOf : IO.Error → DiskCause
  | .noFileOrDirectory .. => .notFound
  | .permissionDenied .. => .denied
  | .inappropriateType .. => .notDirectory
  | .alreadyExists .. => .occupied
  | e => .other (Bytes.ofString e.toString)

def attempt {α : Type} (action : IO α) : IO (Except DiskCause α) := do
  try return .ok (← action) catch e => return .error (causeOf e)

def kindOf (path : Bytes) : IO EntryKind := do
  let data ← ((← IO.currentDir) / toText path).metadata
  return if data.type == .dir then .directory else .file

/-- Reads a stream to its end. -/
partial def readAll (s : IO.FS.Stream) (read : ByteArray) : IO ByteArray := do
  let chunk ← s.read 65536
  if chunk.isEmpty then return read else readAll s (read ++ chunk)

/-- The directory for caches: one that the environment names, or one in the user's home. -/
def cacheDirectory : IO Bytes := do
  let named := (← IO.getEnv "XDG_CACHE_HOME").getD ""
  let home := (← IO.getEnv "HOME").getD ""
  let base := if named.isEmpty then Path.joinAll [home, ".cache"] else Bytes.ofString named
  return Path.joinAll [base, "umlc"]

instance : Host IO where
  workDir := return Bytes.ofString (← IO.currentDir).toString
  input := return toBytes (← readAll (← IO.getStdin) .empty)
  now := IO.monoNanosNow
  measure f := do
    let start ← IO.monoNanosNow
    let value ← IO.lazyPure f
    return (value, (← IO.monoNanosNow) - start)
  time := return (← Std.Time.Timestamp.now).toNanosecondsSinceUnixEpoch.val / 1000
  stat path := attempt (kindOf path)
  read path := do
    match ← attempt (kindOf path) with
    | .ok .directory => return .error .isDirectory
    | .ok .file => attempt (return toBytes (← IO.FS.readBinFile ((← IO.currentDir) / toText path)))
    | .error cause => return .error cause
  write path text := do
    match ← attempt (kindOf path) with
    | .ok .directory => return .error .isDirectory
    | _ => attempt (IO.FS.writeBinFile ((← IO.currentDir) / toText path) ⟨text.toArray⟩)
  makeDirectory path := attempt (do IO.FS.createDir ((← IO.currentDir) / toText path))
  list path := attempt (do
    let entries ← ((← IO.currentDir) / toText path).readDir
    return (entries.toList.map fun e => Bytes.ofString e.fileName).mergeSort Bytes.le)

def entryDirectory : IO Bytes := return Path.joinAll [← cacheDirectory, "diagrams"]

def entryPath (key : Digest) : IO Bytes :=
  return Path.joinAll [← entryDirectory, key.hex ++ ".mp"]

instance : CacheStore IO where
  directory := cacheDirectory
  get? key := return (← Host.content (← entryPath key)).toOption
  put key stored := do
    match ← Host.makeDirectories (← entryDirectory) with
    | .ok _ => Host.setContent (← entryPath key) stored
    | .error fault => return .error fault
  prepare := do Host.makeDirectories (← cacheDirectory)
  clear := do
    let path ← entryDirectory
    match ← (attempt (kindOf path)) with
    | .error _ => return .ok ()
    | .ok _ =>
      return Host.blame "unlinkat" path
        (← attempt (do IO.FS.removeDirAll ((← IO.currentDir) / toText path)))

end Uml.Native
