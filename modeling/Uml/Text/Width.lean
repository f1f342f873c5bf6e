import Uml.Text.WidthData

/-!
# Display width

How many terminal columns a text takes: a grapheme cluster is as wide as its first scalar value
that takes any column.
-/
namespace Uml.Width

open Category (inRanges)

def ofScalar (c : Nat) : Nat :=
  if c < 0x20 || (0x7F ≤ c && c ≤ 0x9F) || c = 0xAD then 0
  else if c < 0x300 || inRanges narrowRanges c then 1
  else if inRanges invisibleRanges c || inRanges combiningRanges c then 0
  else if inRanges wideRanges c then 2
  else 1

/-- What a scalar value does at a cluster boundary. -/
inductive Role where
  | cr | lf | control | extend | joiner | regional | lead | spacing
  | hangulL | hangulV | hangulT | hangulLV | hangulLVT | picture | other
  deriving DecidableEq

def Role.of (c : Nat) : Role :=
  if c = 0x0D then .cr
  else if c = 0x0A then .lf
  else if c < 0x20 then .control
  else if c < 0x7F then .other
  else if c = 0x200D then .joiner
  else if inRanges controlRanges c then .control
  else if inRanges extendRanges c then .extend
  else if 0x1F1E6 ≤ c && c ≤ 0x1F1FF then .regional
  else if inRanges leadRanges c then .lead
  else if inRanges spacingRanges c then .spacing
  else if inRanges [(0x1100, 0x115F), (0xA960, 0xA97C)] c then .hangulL
  else if inRanges [(0x1160, 0x11A7), (0xD7B0, 0xD7C6)] c then .hangulV
  else if inRanges [(0x11A8, 0x11FF), (0xD7CB, 0xD7FB)] c then .hangulT
  else if 0xAC00 ≤ c && c ≤ 0xD7A3 then
    if (c - 0xAC00) % 28 = 0 then .hangulLV else .hangulLVT
  else if inRanges pictureRanges c then .picture
  else .other

/-- What the rules look back at: the last role, whether the cluster so far ends in a picture with
its extensions, whether a joiner follows that picture, and whether a regional letter is unpaired. -/
structure Tail where
  role : Role
  picture : Bool
  joined : Bool
  unpaired : Bool

def Tail.first (r : Role) : Tail := ⟨r, r = .picture, false, r = .regional⟩

/-- Whether a scalar value of role `r` stays in the cluster that ends in `t`. -/
def Tail.admits (t : Tail) (r : Role) : Bool :=
  match t.role, r with
  | .cr, .lf => true
  | .cr, _ | .lf, _ | .control, _ => false
  | _, .cr | _, .lf | _, .control => false
  | .hangulL, .hangulL | .hangulL, .hangulV | .hangulL, .hangulLV | .hangulL, .hangulLVT => true
  | .hangulLV, .hangulV | .hangulLV, .hangulT | .hangulV, .hangulV | .hangulV, .hangulT => true
  | .hangulLVT, .hangulT | .hangulT, .hangulT => true
  | _, .extend | _, .joiner | _, .spacing => true
  | .lead, _ => true
  | _, .picture => t.joined
  | .regional, .regional => t.unpaired
  | _, _ => false

def Tail.push (t : Tail) (r : Role) : Tail :=
  ⟨r, r = .picture || (t.picture && r = .extend), t.picture && r = .joiner,
    r = .regional && !t.unpaired⟩

/-- The clusters of what is left; `cluster` holds, reversed, the open one. -/
def clustersFrom (t : Tail) (cluster : List Utf8.Scalar) :
    List Utf8.Scalar → List (List Utf8.Scalar)
  | [] => [cluster.reverse]
  | c :: rest =>
    let r := Role.of c.value
    if t.admits r then clustersFrom (t.push r) (c :: cluster) rest
    else cluster.reverse :: clustersFrom (.first r) [c] rest

def clusters (s : Bytes) : List (List Utf8.Scalar) :=
  match Utf8.scalars s with
  | [] => []
  | c :: rest => clustersFrom (.first (Role.of c.value)) [c] rest

def ofCluster (cluster : List Utf8.Scalar) : Nat :=
  ((cluster.map fun c => ofScalar c.value).find? (0 < ·)).getD 0

def ofText (s : Bytes) : Nat := ((clusters s).map ofCluster).foldr (· + ·) 0

/-- The clusters that fit into `width` columns. -/
def fit : Nat → List (List Utf8.Scalar) → Bytes
  | _, [] => []
  | width, cluster :: rest =>
    if ofCluster cluster ≤ width then
      cluster.flatMap (·.bytes) ++ fit (width - ofCluster cluster) rest
    else []

/-- A text wider than `width` is cut so that `tail` still fits behind it. -/
def truncate (s : Bytes) (width : Nat) (tail : Bytes) : Bytes :=
  if ofText s ≤ width then s
  else if width < ofText tail then tail
  else fit (width - ofText tail) (clusters s) ++ tail

def fillRight (s : Bytes) (width : Nat) : Bytes := s ++ List.replicate (width - ofText s) 0x20

end Uml.Width
