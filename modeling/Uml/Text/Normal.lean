import Uml.Text.NormalData

/-!
# Canonical composition

Normalization form C with the stream-safe rule: no more than thirty marks follow one another, a
grapheme joiner breaks a longer run. Two spellings of one name become one text.
-/
namespace Uml.Normal

/-- Canonical combining class; zero for starters. -/
def combiningClass (c : Nat) : Nat :=
  match classes.find? fun (lo, hi, _) => lo ≤ c && c ≤ hi with
  | some (_, _, k) => k
  | none => 0

def hangulBase : Nat := 0xAC00
def leadBase : Nat := 0x1100
def vowelBase : Nat := 0x1161
def tailBase : Nat := 0x11A7

/-- Number of Hangul syllables with one leading consonant. -/
def perLead : Nat := 21 * 28

def isHangul (c : Nat) : Bool := hangulBase ≤ c && c < hangulBase + 19 * perLead

/-- The parts of a precomposed Hangul syllable. -/
def hangulParts (c : Nat) : List Nat :=
  let k := c - hangulBase
  let tail := k % 28
  [leadBase + k / perLead, vowelBase + k % perLead / 28] ++ if tail = 0 then [] else [tailBase + tail]

/-- Canonical decomposition, taken apart at most `depth` times. -/
def decomposeWithin : Nat → Nat → List Nat
  | 0, c => [c]
  | depth + 1, c =>
    if isHangul c then hangulParts c
    else match pairs.find? (·.1 = c) with
    | some (_, a, b) => decomposeWithin depth a ++ [b]
    | none =>
      match singletons.find? (·.1 = c) with
      | some (_, a) => decomposeWithin depth a
      | none => [c]

/-- Full canonical decomposition; no mapping of the data nests deeper than five. -/
def decompose (c : Nat) : List Nat := if c < 0xC0 then [c] else decomposeWithin 5 c

/-- Two adjacent scalar values as one, if the data puts them together. -/
def compose? (a b : Nat) : Option Nat :=
  if leadBase ≤ a && a < leadBase + 19 && vowelBase ≤ b && b < vowelBase + 21 then
    some (hangulBase + (a - leadBase) * perLead + (b - vowelBase) * 28)
  else if isHangul a && (a - hangulBase) % 28 = 0 && tailBase < b && b < tailBase + 28 then
    some (a + (b - tailBase))
  else
    match pairs.find? fun (c, x, y) => x = a && y = b && !excluded.contains c with
    | some (c, _, _) => some c
    | none => none

/-- The grapheme joiner that breaks a run of marks. -/
def joiner : Nat := 0x34F

/-- The longest run of marks that stays unbroken. -/
def maxMarks : Nat := 30

def isMedialJamo (c : Nat) : Bool :=
  (vowelBase ≤ c && c < vowelBase + 21) || (tailBase < c && c < tailBase + 28)

def leadingMarks (c : Nat) : Nat :=
  if isMedialJamo c then 1
  else ((decompose c).takeWhile (combiningClass · ≠ 0)).length

def trailingMarks (c : Nat) : Nat :=
  ((decompose c).reverse.takeWhile (combiningClass · ≠ 0)).length

/-- Breaks runs of marks; `run` marks came just before. -/
def breakRuns : Nat → List Nat → List Nat
  | _, [] => []
  | run, c :: rest =>
    let lead := leadingMarks c
    if lead = 0 then c :: breakRuns (trailingMarks c) rest
    else if run + lead > maxMarks then joiner :: c :: breakRuns lead rest
    else c :: breakRuns (run + lead) rest

/-- Inserts a mark into an ordered run, after all marks of its class. -/
def insertMark (c : Nat) : List Nat → List Nat
  | [] => [c]
  | d :: rest =>
    if combiningClass c < combiningClass d then c :: d :: rest else d :: insertMark c rest

/-- Orders each run of marks by class, keeping the order inside a class; `marks` is the ordered
run so far. -/
def reorderFrom : List Nat → List Nat → List Nat
  | marks, [] => marks
  | marks, c :: rest =>
    if combiningClass c = 0 then marks ++ c :: reorderFrom [] rest
    else reorderFrom (insertMark c marks) rest

/-- Puts pairs together. `starter` waits for marks, `marks` holds, reversed, those it did not
take, and `last` is the class of the latest of these. -/
def composeFrom (starter : Nat) (marks : List Nat) (last : Nat) : List Nat → List Nat
  | [] => starter :: marks.reverse
  | c :: rest =>
    let k := combiningClass c
    let joined := if marks.isEmpty || last < k then compose? starter c else none
    match joined with
    | some both => composeFrom both marks last rest
    | none =>
      if k = 0 then starter :: marks.reverse ++ composeFrom c [] 0 rest
      else composeFrom starter (c :: marks) k rest

/-- Marks before the first starter stay as they are. -/
def composeAll (codes : List Nat) : List Nat :=
  let (lead, rest) := codes.span (combiningClass · ≠ 0)
  match rest with
  | [] => lead
  | c :: rest => lead ++ composeFrom c [] 0 rest

def codes (cs : List Nat) : List Nat :=
  composeAll (reorderFrom [] ((breakRuns 0 cs).flatMap decompose))

/-- The composed form of a text; ASCII text is its own. -/
def text (s : Bytes) : Bytes :=
  if s.isAscii then s
  else (codes ((Utf8.scalars s).map (·.value))).flatMap Utf8.encode

theorem text_of_isAscii {s : Bytes} (h : s.isAscii) : text s = s := by simp [text, h]

end Uml.Normal
