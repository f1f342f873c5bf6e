import Uml.Toml.Reader

/-!
# Building settings

Statements are carried out one after the other on a tree of tables. A table that was only passed
through on the way to a deeper one is implicit: it may still get a header of its own, once. Keys
are recorded in the order in which they are written.
-/
namespace Uml.Toml

structure Builder where
  root : Entries := []
  /-- The open table. -/
  context : Key := []
  /-- Tables without a header or value of their own. -/
  implicits : List Key := []
  /-- Keys that hold a written array. -/
  arrays : List Key := []
  /-- Keys in the order of writing. -/
  keys : List Key := []

/-- Nothing comes of a file with a conflict. -/
abbrev Build := StateT Builder Option

def setEntry (key : Bytes) (v : Toml) : Entries → Entries
  | [] => [(key, v)]
  | (k, old) :: rest => if k = key then (k, v) :: rest else (k, old) :: setEntry key v rest

/-- Changes the table that a key leads to; a list of tables stands for its last one. -/
def editAt (f : Entries → Option Entries) : Key → Entries → Option Entries
  | [], es => f es
  | k :: key, es =>
    match es.lookup k with
    | some (.table sub) => (editAt f key sub).map fun sub => setEntry k (.table sub) es
    | some (.tables rows) =>
      match rows.getLast? with
      | some row => (editAt f key row).map fun row => setEntry k (.tables (rows.dropLast ++ [row])) es
      | none => none
    | _ => none

def tableAt? : Key → Entries → Option Entries
  | [], es => some es
  | k :: key, es =>
    match es.lookup k with
    | some (.table sub) => tableAt? key sub
    | some (.tables rows) => rows.getLast?.bind (tableAt? key)
    | _ => none

namespace Build

def addImplicit (key : Key) : Build Unit := modify fun b => { b with implicits := key :: b.implicits }

def removeImplicit (key : Key) : Build Unit :=
  modify fun b => { b with implicits := b.implicits.filter (· ≠ key) }

def markArray (key : Key) (isArray : Bool) : Build Unit :=
  modify fun b =>
    let others := b.arrays.filter (· ≠ key)
    { b with arrays := if isArray then key :: others else others }

def setContext (context : Key) : Build Unit := modify ({ · with context })

def addKey (key : Key) : Build Unit := modify fun b => { b with keys := b.keys ++ [key] }

def table (key : Key) : Build Entries := do
  let b ← get
  (tableAt? key b.root : Option Entries)

def put (key : Key) (name : Bytes) (v : Toml) : Build Unit := do
  let b ← get
  let root ← (editAt (fun es => some (setEntry name v es)) key b.root : Option Entries)
  set { b with root }

/-- Gives a name in the open table its value. A written array is replaced, an implicit table stays
and is implicit no more; anything else cannot be set again. -/
def setValue (name : Bytes) (v : Toml) : Build Unit := do
  let b ← get
  let path := b.context ++ [name]
  match (← table b.context).lookup name with
  | none => put b.context name v
  | some _ =>
    if b.arrays.contains path then
      removeImplicit path
      put b.context name v
    else if b.implicits.contains path then removeImplicit path
    else failure

/-- Opens the tables on the way to a key; missing ones are implicit. -/
def openWay (key : Key) : Key → Build Unit
  | [] => pure ()
  | name :: rest => do
    let path := key ++ [name]
    if ((← table key).lookup name).isNone then
      addImplicit path
      put key name (.table [])
    let _ ← table path
    openWay path rest

def openTable (key : Key) (isRow : Bool) : Build Unit := do
  let way := key.dropLast
  let name := key.getLast?.getD []
  openWay [] way
  setContext way
  if isRow then
    match (← table way).lookup name with
    | none => put way name (.tables [[]])
    | some (.tables rows) => put way name (.tables (rows ++ [[]]))
    | some _ => failure
  else setValue name (.table [])
  setContext key

/-- Opens the tables that all parts of a key but the last name, each as an implicit one, and
records the key; the last part is the answer. -/
def openParts : Key → Build Bytes
  | [] => failure
  | [name] => do
    addKey ((← get).context ++ [name])
    pure name
  | part :: rest => do
    let path := (← get).context ++ [part]
    addImplicit path
    openTable path false
    openParts rest

def isArray : Toml → Bool
  | .array _ => true
  | _ => false

mutual
def value (name : Bytes) (inArray : Bool) : Literal → Build Toml
  | .leaf v => pure v
  | .array items => do
    markArray ((← get).context ++ [name]) true
    let vs ← values name items
    pure (.array vs)
  | .inline written => do
    let outer := (← get).context
    let path := outer ++ [name]
    addImplicit path
    openTable path inArray
    let entries ← pairs path written []
    setContext outer
    pure (.table entries)

def values (name : Bytes) : List Literal → Build (List Toml)
  | [] => pure []
  | item :: items => do
    let v ← value name true item
    let vs ← values name items
    pure (v :: vs)

/-- Carries out the assignments of a table on one line. The answer is the table as an item of an
array: each value under the last part of its key, after those in `made`. -/
def pairs (path : Key) : List (Key × Literal) → Entries → Build Entries
  | [], made => pure made
  | (key, literal) :: rest, made => do
    setContext path
    let name ← openParts key
    let v ← value name false literal
    setValue name v
    markArray ((← get).context ++ [name]) (isArray v)
    pairs path rest (setEntry name v made)
end

def item : Item → Build Unit
  | .header key => do
    openTable key false
    markArray key false
    addKey key
  | .row key => do
    openTable key true
    markArray key false
    addKey key
  | .assign key literal => do
    let outer := (← get).context
    let name ← openParts key
    let v ← value name false literal
    setValue name v
    markArray ((← get).context ++ [name]) (isArray v)
    setContext outer

end Build

/-- A settings file: its tables, and its keys in the order of writing. -/
structure Document where
  root : Entries
  keys : List Key

/-- Reads a settings file; none if it is malformed or contradicts itself. -/
def read? (s : Bytes) : Option Document := do
  let items ← items? s
  let (_, b) ← (items.forM Build.item).run {}
  pure ⟨b.root, b.keys⟩

end Uml.Toml
