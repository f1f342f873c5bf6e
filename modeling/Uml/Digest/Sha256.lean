import Uml.Text.Bytes

/-!
# SHA-256

Blocks of sixteen 32-bit words are compressed one after the other into a state of eight words.
-/
namespace Uml.Sha256

structure State where
  a : UInt32
  b : UInt32
  c : UInt32
  d : UInt32
  e : UInt32
  f : UInt32
  g : UInt32
  h : UInt32
  deriving DecidableEq, Repr

/-- The first 32 bits of the fractional parts of the square roots of the first eight primes. -/
def initial : State :=
  ⟨0x6a09e667, 0xbb67ae85, 0x3c6ef372, 0xa54ff53a, 0x510e527f, 0x9b05688c, 0x1f83d9ab, 0x5be0cd19⟩

/-- The first 32 bits of the fractional parts of the cube roots of the first 64 primes. -/
def constants : List UInt32 := [
  0x428a2f98, 0x71374491, 0xb5c0fbcf, 0xe9b5dba5, 0x3956c25b, 0x59f111f1, 0x923f82a4, 0xab1c5ed5,
  0xd807aa98, 0x12835b01, 0x243185be, 0x550c7dc3, 0x72be5d74, 0x80deb1fe, 0x9bdc06a7, 0xc19bf174,
  0xe49b69c1, 0xefbe4786, 0x0fc19dc6, 0x240ca1cc, 0x2de92c6f, 0x4a7484aa, 0x5cb0a9dc, 0x76f988da,
  0x983e5152, 0xa831c66d, 0xb00327c8, 0xbf597fc7, 0xc6e00bf3, 0xd5a79147, 0x06ca6351, 0x14292967,
  0x27b70a85, 0x2e1b2138, 0x4d2c6dfc, 0x53380d13, 0x650a7354, 0x766a0abb, 0x81c2c92e, 0x92722c85,
  0xa2bfe8a1, 0xa81a664b, 0xc24b8b70, 0xc76c51a3, 0xd192e819, 0xd6990624, 0xf40e3585, 0x106aa070,
  0x19a4c116, 0x1e376c08, 0x2748774c, 0x34b0bcb5, 0x391c0cb3, 0x4ed8aa4a, 0x5b9cca4f, 0x682e6ff3,
  0x748f82ee, 0x78a5636f, 0x84c87814, 0x8cc70208, 0x90befffa, 0xa4506ceb, 0xbef9a3f7, 0xc67178f2]

def rotate (x : UInt32) (n : UInt32) : UInt32 := x >>> n ||| x <<< (32 - n)

/-- The next word of the schedule; `words` holds the sixteen before it and more, newest first. -/
def nextWord (words : List UInt32) : UInt32 :=
  let w (i : Nat) := words[i]?.getD 0
  let s0 := rotate (w 14) 7 ^^^ rotate (w 14) 18 ^^^ w 14 >>> 3
  let s1 := rotate (w 1) 17 ^^^ rotate (w 1) 19 ^^^ w 1 >>> 10
  w 15 + s0 + w 6 + s1

def schedule (block : List UInt32) : List UInt32 :=
  ((List.range 48).foldl (fun words _ => nextWord words :: words) block.reverse).reverse

def round (s : State) (w k : UInt32) : State :=
  let s1 := rotate s.e 6 ^^^ rotate s.e 11 ^^^ rotate s.e 25
  let choice := s.e &&& s.f ^^^ ~~~s.e &&& s.g
  let t1 := s.h + s1 + choice + k + w
  let s0 := rotate s.a 2 ^^^ rotate s.a 13 ^^^ rotate s.a 22
  let majority := s.a &&& s.b ^^^ s.a &&& s.c ^^^ s.b &&& s.c
  ⟨t1 + (s0 + majority), s.a, s.b, s.c, s.d + t1, s.e, s.f, s.g⟩

def State.add (s t : State) : State :=
  ⟨s.a + t.a, s.b + t.b, s.c + t.c, s.d + t.d, s.e + t.e, s.f + t.f, s.g + t.g, s.h + t.h⟩

def compress (s : State) (block : List UInt32) : State :=
  s.add (((schedule block).zip constants).foldl (fun s (w, k) => round s w k) s)

/-- The low `size` bytes of a number, most significant first. -/
def bigEndian (size n : Nat) : Bytes :=
  (List.range size).map fun i => (n >>> (8 * (size - 1 - i))).toUInt8

/-- Fills the message up to whole blocks: a one bit, zeros, and the length in bits. -/
def pad (message : Bytes) : Bytes :=
  message ++ 0x80 :: List.replicate ((119 - message.length % 64) % 64) 0
    ++ bigEndian 8 (8 * message.length)

def words : Bytes → List UInt32
  | a :: b :: c :: d :: rest =>
    (a.toUInt32 <<< 24 ||| b.toUInt32 <<< 16 ||| c.toUInt32 <<< 8 ||| d.toUInt32) :: words rest
  | _ => []

def absorb : Nat → List UInt32 → State → State
  | 0, _, s => s
  | n + 1, ws, s => absorb n (ws.drop 16) (compress s (ws.take 16))

def State.toBytes (s : State) : Bytes :=
  [s.a, s.b, s.c, s.d, s.e, s.f, s.g, s.h].flatMap fun w => bigEndian 4 w.toNat

def hash (message : Bytes) : Bytes :=
  let ws := words (pad message)
  (absorb (ws.length / 16) ws initial).toBytes

end Uml.Sha256

namespace Uml

structure Digest where
  bytes : Bytes
  deriving DecidableEq, Repr

namespace Digest

def size : Nat := 32

def ofContent (content : Bytes) : Digest := ⟨Sha256.hash content⟩

/-- The first 32 bytes of a text, filled up with zeros. -/
def ofText (s : Bytes) : Digest := ⟨(s ++ List.replicate size 0).take size⟩

/-- The fingerprint of a fingerprint and what belongs to it, in that order. -/
def combine (d : Digest) (parts : List Bytes) : Digest := ofContent (d.bytes ++ parts.flatten)

def isZero (d : Digest) : Bool := d = ⟨List.replicate size 0⟩

def hex (d : Digest) : Bytes := d.bytes.hex

end Digest

def contentDigest (content : Array UInt8) : Digest := .ofContent content.toList

end Uml
