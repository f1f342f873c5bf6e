import Uml.Parser.Statement

/-! Words of a host language that are plain names to the notation. -/
namespace Uml.Stream

/-- Whether offset `n` holds one of the given names. -/
def nameAt (s : Stream) (names : List Bytes) (n : Nat) : Bool :=
  let t := s.peekAt n
  t.kind = .ident && names.contains t.text

/-- The offset behind a run of given names. -/
def scanNames (s : Stream) (names : List Bytes) : Nat → Nat → Nat
  | 0, n => n
  | fuel + 1, n => if s.nameAt names n then scanNames s names fuel (n + 1) else n

/-- Whether some of the given names are ahead and then an entity. -/
def namesThenEntity (s : Stream) (names : List Bytes) : Bool :=
  let n := s.scanNames names s.rest.length 0
  let k := s.scanModifiers s.rest.length n
  0 < n && (s.kindAt k).isEntityKeyword

end Uml.Stream

namespace Uml.Parse

def nameRound (names : List Bytes) (_ : Unit) : Parse (Round Unit) := do
  if (← stream).nameAt names 0 then
    let _ ← advance
    return .again ()
  return .stop ()

def skipNames (names : List Bytes) : Parse Unit := loop () (nameRound names)

end Uml.Parse
