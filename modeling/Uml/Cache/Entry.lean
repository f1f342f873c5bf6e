import Uml.Compile.Basic
import Uml.Diagram.Packed
import Uml.Digest.Sha256

/-!
# Cache entries

An entry keeps the diagram and the diagnostics of one compilation. Diagnostics keep their offsets
only, so that they can be put on the file that is compiled now.
-/
namespace Uml

structure CacheEntry where
  schema : Nat
  path : Bytes
  language : Bytes
  content : Digest
  diagram : Option Diagram
  diagnostics : List Diagnostic
  dropped : Int
  droppedErrors : Int

namespace CacheEntry

/-- Goes up whenever the form of entries or diagrams changes. -/
def schemaVersion : Nat := 2

/-- The key of an entry. The limit decides which diagnostics are kept, so it is part of it. -/
def key (file : File) (language : Bytes) (maxDiagnostics : Int) : Digest :=
  (contentDigest file.content).combine
    [language, Msg.bigEndian 2 schemaVersion, Bytes.ofInt maxDiagnostics]

def ofCompilation (file : File) (language : Bytes) (c : Compilation) : CacheEntry where
  schema := schemaVersion
  path := file.path
  language := language
  content := contentDigest file.content
  diagram := c.diagram
  diagnostics := c.bag.items
  dropped := c.bag.dropped
  droppedErrors := c.bag.droppedErrors

end CacheEntry

namespace Packed

/-- Lists of records; none at all is a nil. -/
def records {α : Type} (f : α → Msg) (l : List α) : Msg :=
  list f (if l.isEmpty then none else some l)

def foundNote (n : Note) : Msg :=
  .map (always "Start" (.uint32 n.span.start) ++ always "End" (.uint32 n.span.stop)
    ++ always "Msg" (.str n.message))

def diagnostic (d : Diagnostic) : Msg :=
  .map (always "Severity" (.uint8 d.severity.rank) ++ always "Code" (.uint16 d.code.number)
    ++ always "Message" (.str d.message) ++ always "Start" (.uint32 d.span.start)
    ++ always "End" (.uint32 d.span.stop) ++ always "Notes" (records foundNote d.notes))

end Packed

def CacheEntry.toMsg (e : CacheEntry) : Msg :=
  .map (Packed.always "Schema" (.uint16 e.schema) ++ Packed.always "Path" (.str e.path)
    ++ Packed.always "Language" (.str e.language)
    ++ Packed.always "ContentHash" (.bin e.content.bytes)
    ++ Packed.always "Diagram" ((e.diagram.map Diagram.toMsg).getD .nil)
    ++ Packed.always "Diagnostics" (Packed.records Packed.diagnostic e.diagnostics)
    ++ Packed.always "Dropped" (.int e.dropped)
    ++ Packed.always "DroppedErrors" (.int e.droppedErrors))

namespace Unpacked

def blob? : Msg → Option Bytes
  | .bin s => some s
  | _ => none

def records? {α : Type} (f : Msg → Option α) (m : Msg) : Option (List α) :=
  (list? f m).map (·.getD [])

def foundNote (file : Nat) (m : Msg) : Option Note := do
  return { span := ⟨file, ← need m "Start" nat?, ← need m "End" nat?⟩
           message := ← need m "Msg" text? }

def diagnostic (file : Nat) (m : Msg) : Option Diagnostic := do
  return { severity := ⟨← need m "Severity" nat?⟩, code := ⟨← need m "Code" nat?⟩
           message := ← need m "Message" text?
           span := ⟨file, ← need m "Start" nat?, ← need m "End" nat?⟩
           notes := ← need m "Notes" (records? (foundNote file)) }

def diagram? : Msg → Option (Option Diagram)
  | .nil => some none
  | m => (Diagram.ofMsg? m).map some

end Unpacked

namespace CacheEntry

open Unpacked in
/-- Reads an entry back, with its diagnostics in the file with number `file`. -/
def ofMsg? (file : Nat) (m : Msg) : Option CacheEntry := do
  return { schema := ← need m "Schema" nat?, path := ← need m "Path" text?
           language := ← need m "Language" text?, content := ⟨← need m "ContentHash" blob?⟩
           diagram := ← need m "Diagram" diagram?
           diagnostics := ← need m "Diagnostics" (records? (diagnostic file))
           dropped := ← need m "Dropped" int?, droppedErrors := ← need m "DroppedErrors" int? }

def encode (e : CacheEntry) : Bytes := e.toMsg.encode

/-- Reads a stored entry; what stands behind it is ignored. -/
def decode? (file : Nat) (stored : Bytes) : Option CacheEntry :=
  (Msg.first? stored).bind (ofMsg? file)

/-- The diagram of an entry; its diagnostics are added to the bag, and the counts of those that it
knows by number only. An entry of another schema or without a diagram is of no use. -/
def restore (e : CacheEntry) : StateM Bag (Option Diagram) := do
  if e.schema ≠ schemaVersion then return none
  let some diagram := e.diagram | return none
  modify (·.addAll e.diagnostics)
  modify (·.recordDropped e.dropped e.droppedErrors)
  return some diagram

/-- What is stored for the file with number `file`. Bytes that cannot be read are as good as none. -/
def lookup (file : Nat) (stored : Option Bytes) : StateM Bag (Option Diagram) := do
  let some entry := stored.bind (decode? file) | return none
  entry.restore

end CacheEntry

/-!
## Caches

A cache is a store of bytes by key. It is asked before a document is compiled to the end, and it
gets an entry whenever it had none of use.
-/

namespace Compilation

/-- Looks for a diagram before the first step. -/
def fetch (look : StateM Bag (Option Diagram)) (c : Compilation) : Compilation :=
  let (diagram, bag) := look.run c.bag
  { c with diagram, bag, isCached := diagram.isSome }

end Compilation

def CompileOptions.cacheKey (o : CompileOptions) (file : File) : Digest :=
  CacheEntry.key file o.registry.language o.maxDiagnostics

def CompileOptions.stored (o : CompileOptions) (file : File) (c : Compilation) : Bytes :=
  (CacheEntry.ofCompilation file o.registry.language c).encode

structure Cache where
  entries : List (Digest × Bytes) := []
  deriving DecidableEq, Repr

namespace Cache

def get? (c : Cache) (key : Digest) : Option Bytes := c.entries.lookup key

def put (c : Cache) (key : Digest) (stored : Bytes) : Cache :=
  ⟨(key, stored) :: c.entries.filter (·.1 ≠ key)⟩

def keys (c : Cache) : List Digest := c.entries.map (·.1)

def lookup (c : Cache) (key : Digest) (file : Nat) : StateM Bag (Option Diagram) :=
  CacheEntry.lookup file (c.get? key)

def overwrite (c : Cache) (stored : Bytes) : Cache := ⟨c.entries.map fun (key, _) => (key, stored)⟩

/-- Compiles a file, or fetches what the cache has for it. Only whole compilations are cached. -/
def compile (cache : Cache) (o : CompileOptions) (fs : FileSet) (file : File) (path : Bytes) :
    Compilation × Cache :=
  if o.stage ≠ .diagram then (Uml.compile o fs file path, cache)
  else
    let c := (Compilation.start o path).fetch (cache.lookup (o.cacheKey file) file.id)
    if c.isCached then (c, cache)
    else
      let c := (compileSteps o fs file).foldl (fun c step => step c) c
      (c, cache.put (o.cacheKey file) (o.stored file c))

end Cache
end Uml
