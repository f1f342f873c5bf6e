import Uml.Json.Basic
import Uml.Text.Bytes

/-!
# Records in JSON

Writing and reading records as objects. A written record leaves out what a reader can do without. A member whose name is no field is passed over; names match
exactly or, failing that, without case. `null` leaves a field as it is, and a field that is given
again is read on top of what is there.
-/
namespace Uml.Json

def always (name : String) (v : Json) : List (Bytes × Json) := [(Bytes.ofString name, v)]

/-- A member that is left out unless the condition holds. -/
def given (name : String) (c : Bool) (v : Json) : List (Bytes × Json) :=
  if c then always name v else []

def text (name : String) (s : Bytes) : List (Bytes × Json) := given name (!s.isEmpty) (string s)

def texts (name : String) (l : List Bytes) : List (Bytes × Json) :=
  given name (!l.isEmpty) (array (l.map string))

def nonZero (name : String) (n : Int) : List (Bytes × Json) := given name (n ≠ 0) (int n)

structure Field (σ : Type) where
  name : Bytes
  read : σ → Json → Option σ

/-- A scalar value of a field name without its case; two signs outside ASCII count as letters. -/
def foldScalar (c : Nat) : Nat :=
  if 0x41 ≤ c && c ≤ 0x5A then c + 32
  else if c = 0x212A then 0x6B
  else if c = 0x17F then 0x73
  else c

def foldName (s : Bytes) : List Nat := (Utf8.scalars s).map fun c => foldScalar c.value

def findField? {σ : Type} (fields : List (Field σ)) (key : Bytes) : Option (Field σ) :=
  fields.find? (·.name = key) <|> fields.find? (foldName ·.name = foldName key)

def readRecord {σ : Type} (fields : List (Field σ)) (old : σ) : Json → Option σ
  | null => some old
  | object ms =>
    ms.foldlM (fun st (k, v) =>
      match findField? fields k with
      | some f => f.read st v
      | none => some st) old
  | _ => none

/-- A record that may be missing: `null` takes it away. -/
def readPointer {σ : Type} (read : σ → Json → Option σ) (zero : σ) (old : Option σ) :
    Json → Option (Option σ)
  | null => some none
  | v => (read (old.getD zero) v).map some

/-- Items are read on top of those that stand at their place. -/
def readItems {σ : Type} (read : σ → Json → Option σ) (zero : σ) :
    List σ → List Json → Option (List σ)
  | _, [] => some []
  | old, v :: vs => do
    let item ← read (old.head?.getD zero) v
    return item :: (← readItems read zero old.tail vs)

def readList {σ : Type} (read : σ → Json → Option σ) (zero : σ) (old : Option (List σ)) :
    Json → Option (Option (List σ))
  | null => some none
  | array vs => (readItems read zero (old.getD []) vs).map some
  | _ => none

def readText (old : Bytes) : Json → Option Bytes
  | null => some old
  | string s => some s
  | _ => none

def readFlag (old : Bool) : Json → Option Bool
  | null => some old
  | bool b => some b
  | _ => none

def readInt (old : Int) : Json → Option Int
  | null => some old
  | number text => Bytes.toInt64? text
  | _ => none

def readWord (old : Nat) : Json → Option Nat
  | null => some old
  | number text => (Bytes.toNat? text).bind fun n => if n < 4294967296 then some n else none
  | _ => none

end Uml.Json
