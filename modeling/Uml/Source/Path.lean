import Uml.Text.Bytes

/-!
# Slash-separated paths

Purely lexical operations: nothing looks at a file system. The working directory that relative
paths start from is an argument.
-/
namespace Uml.Path

def slash : UInt8 := 0x2F

def isAbsolute (p : Bytes) : Bool := p.head? = some slash

/-- One step of cleaning; `stack` holds, reversed, the segments kept so far. -/
def pushSegment (rooted : Bool) (stack : List Bytes) (segment : Bytes) : List Bytes :=
  if segment = [] || segment = "." then stack
  else if segment = ".." then
    match stack with
    | top :: rest => if top = ".." then segment :: stack else rest
    | [] => if rooted then [] else [segment]
  else segment :: stack

/-- The segments that are left once `.` and `..` are resolved. -/
def cleanSegments (p : Bytes) : List Bytes :=
  ((p.splitByte slash).foldl (pushSegment (isAbsolute p)) []).reverse

/-- The shortest equal path; the empty path is `.`. -/
def clean (p : Bytes) : Bytes :=
  let body := Bytes.join [slash] (cleanSegments p)
  if isAbsolute p then slash :: body
  else if body.isEmpty then "."
  else body

/-- Joins non-empty parts by slashes and cleans the result; no part at all is the empty path. -/
def joinAll (parts : List Bytes) : Bytes :=
  match parts.filter (!·.isEmpty) with
  | [] => []
  | parts => clean (Bytes.join [slash] parts)

/-- The clean path that `p` means when `workDir` is the working directory. -/
def absolute (workDir p : Bytes) : Bytes :=
  if isAbsolute p then clean p else joinAll [workDir, p]

def dropCommon : List Bytes → List Bytes → List Bytes × List Bytes
  | a :: as, b :: bs => if a = b then dropCommon as bs else (a :: as, b :: bs)
  | as, bs => (as, bs)

/-- The segments of a clean path as written; only an empty base counts as none. -/
def segments (p : Bytes) : List Bytes :=
  (p.splitByte slash).filter (!·.isEmpty)

/-- The path that leads from `base` to `target`. There is none if only one of them is absolute, or
if it had to go up through a `..` of the base. -/
def relative? (base target : Bytes) : Option Bytes :=
  let base := clean base
  let target := clean target
  if base = target then some "."
  else if isAbsolute base ≠ isAbsolute target then none
  else
    let (up, down) := dropCommon (if base = "." then [] else segments base) (segments target)
    if !down.isEmpty && up.head? = some ".." then none
    else some (Bytes.join [slash] (List.replicate up.length (Bytes.ofString "..") ++ down))

/-- The last segment, trailing slashes aside. -/
def baseName (p : Bytes) : Bytes :=
  if p.isEmpty then "."
  else
    let trimmed := (p.reverse.dropWhile (· = slash)).reverse
    if trimmed.isEmpty then [slash]
    else (trimmed.reverse.takeWhile (· ≠ slash)).reverse

def directory (p : Bytes) : Bytes := clean (p.reverse.dropWhile (· ≠ slash)).reverse

def extension (p : Bytes) : Bytes :=
  match Bytes.cutLast? 0x2E (p.reverse.takeWhile (· ≠ slash)).reverse with
  | some (_, ext) => 0x2E :: ext
  | none => []

/-- The form that file sets index by; the empty path stays empty. -/
def normalize (p : Bytes) : Bytes := if p.isEmpty then p else clean p

/-- Whether a relative path leads out of its base. -/
def leavesBase (p : Bytes) : Bool := p = ".." || p.startsWith "../"

/-- `target` as seen from `base`; a target outside stays absolute. -/
def within (workDir target base : Bytes) : Option Bytes := do
  let target := absolute workDir target
  let rel ← relative? (absolute workDir base) target
  pure (normalize (if leavesBase rel then target else rel))

/-- The name of a file in progress output: as seen from an absolute base directory if it lies
below, else absolute; without a base only cleaned. -/
def shown (workDir file base : Bytes) : Bytes :=
  if base.isEmpty then clean file
  else
    let path := absolute workDir (clean file)
    match relative? base path with
    | some rel => if rel = "." || rel.startsWith ".." then path else rel
    | none => path

end Uml.Path
