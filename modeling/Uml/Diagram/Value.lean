import Uml.Json.Basic
import Uml.Number.Read
import Uml.Number.Shortest
import Uml.Syntax.Statement
import Uml.Text.Bytes

/-!
# Config values

What a config key can be set to. A table keeps its keys in bytewise order, each once.
-/
namespace Uml

inductive Value where
  | null
  | bool (b : Bool)
  | int (n : Int)
  | double (d : Double)
  | string (s : Bytes)
  | list (items : List Value)
  | table (entries : List (Bytes × Value))
  deriving Inhabited

abbrev Config := List (Bytes × Value)

/-- Sets a key: its value is replaced, or the key gets its place in the order. -/
def Config.set (c : Config) (key : Bytes) (v : Value) : Config :=
  match c with
  | [] => [(key, v)]
  | (k, old) :: rest =>
    if key = k then (key, v) :: rest
    else if key < k then (key, v) :: (k, old) :: rest
    else (k, old) :: Config.set rest key v

def Config.setAll (c : Config) (entries : List (Bytes × Value)) : Config :=
  entries.foldl (fun c (k, v) => c.set k v) c

namespace Value

/-- The value of a literal: numbers are integers where they fit, else doubles; names and strings
stay texts. -/
def ofLiteral (kind : ValueKind) (text : Bytes) : Value :=
  match kind with
  | .number =>
    match Bytes.toInt64? text, Double.read? text with
    | some n, _ => int n
    | none, some d => double d
    | none, none => string text
  | .bool => bool (text = Bytes.ofString "true")
  | .string | .ident => string text

mutual
def render : Value → Bytes
  | null => "<nil>"
  | bool true => "true"
  | bool false => "false"
  | int n => Bytes.ofInt n
  | double d => d.render
  | string s => s
  | list items => "[" ++ renderItems items ++ "]"
  | table entries => "map[" ++ renderEntries entries ++ "]"

def renderItems : List Value → Bytes
  | [] => []
  | [v] => render v
  | v :: vs => render v ++ " " ++ renderItems vs

def renderEntries : List (Bytes × Value) → Bytes
  | [] => []
  | [(k, v)] => k ++ ":" ++ render v
  | (k, v) :: rest => k ++ ":" ++ render v ++ " " ++ renderEntries rest
end

mutual
/-- The JSON form; a number that is none or infinite has no JSON form. -/
def toJson? : Value → Option Json
  | null => some .null
  | bool b => some (.bool b)
  | int n => some (.int n)
  | double d => if d.isFinite then some (.number (d.renderFinite Double.jsonStyle)) else none
  | string s => some (.string s)
  | list items => (itemsToJson? items).map .array
  | table entries => (entriesToJson? entries).map .object

def itemsToJson? : List Value → Option (List Json)
  | [] => some []
  | v :: vs => do return (← toJson? v) :: (← itemsToJson? vs)

def entriesToJson? : List (Bytes × Value) → Option (List (Bytes × Json))
  | [] => some []
  | (k, v) :: rest => do return (k, ← toJson? v) :: (← entriesToJson? rest)
end

mutual
/-- The first number that has no JSON form. -/
def nonFinite? : Value → Option Double
  | double d => if d.isFinite then none else some d
  | list items => nonFiniteItem? items
  | table entries => nonFiniteEntry? entries
  | null | bool _ | int _ | string _ => none

def nonFiniteItem? : List Value → Option Double
  | [] => none
  | v :: vs => nonFinite? v <|> nonFiniteItem? vs

def nonFiniteEntry? : List (Bytes × Value) → Option Double
  | [] => none
  | (_, v) :: rest => nonFinite? v <|> nonFiniteEntry? rest
end

mutual
/-- Reads a JSON value; every number is a double. -/
def ofJson? : Json → Option Value
  | .null => some null
  | .bool b => some (bool b)
  | .number text => (Double.read? text).map double
  | .string s => some (string s)
  | .array items => (itemsOfJson? items).map list
  | .object members => (membersOfJson? members).map fun entries => table (Config.setAll [] entries)

def itemsOfJson? : List Json → Option (List Value)
  | [] => some []
  | v :: vs => do return (← ofJson? v) :: (← itemsOfJson? vs)

def membersOfJson? : List (Bytes × Json) → Option (List (Bytes × Value))
  | [] => some []
  | (k, v) :: rest => do return (k, ← ofJson? v) :: (← membersOfJson? rest)
end

end Value
end Uml
