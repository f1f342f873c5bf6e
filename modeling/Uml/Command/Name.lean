import Uml.Command.Line

/-!
# Commands

The commands by name, the flags that each knows, and how many words it takes.
-/
namespace Uml

inductive Command where
  | root | tokenize | parse | compile | diag | init | plugins
  | cache | cacheDirectory | cacheClear
  | version | completion | help
  deriving DecidableEq, Repr, Inhabited

namespace Command

def below : Command → List (Bytes × Command)
  | root =>
    [("tokenize", tokenize), ("parse", parse), ("compile", compile), ("diag", diag), ("init", init),
     ("plugins", plugins), ("cache", cache), ("version", version), ("completion", completion),
     ("help", help)]
  | cache => [("dir", cacheDirectory), ("clear", cacheClear)]
  | _ => []

def path : Command → Bytes
  | root => "umlc"
  | tokenize => "umlc tokenize"
  | parse => "umlc parse"
  | compile => "umlc compile"
  | diag => "umlc diag"
  | init => "umlc init"
  | plugins => "umlc plugins"
  | cache => "umlc cache"
  | cacheDirectory => "umlc cache dir"
  | cacheClear => "umlc cache clear"
  | version => "umlc version"
  | completion => "umlc completion"
  | help => "umlc help"

def knownFlags (c : Command) : List Flag :=
  let own : List Flag :=
    match c with
    | compile => Flag.compiling
    | diag => Flag.checking
    | tokenize | parse | version => [Flag.format]
    | init => Flag.initializing
    | _ => []
  own ++ Flag.shared

/-- The flags that a command line is read with; the version is asked for in front of commands. -/
def flags (c : Command) : List Flag :=
  c.knownFlags ++ Flag.help :: if c = root then [Flag.version] else []

def descend? (c : Command) (args : List Bytes) : Option (Command × List Bytes) := do
  let word ← (CommandLine.wordsOf c.knownFlags args).head?
  let next ← c.below.lookup word
  pure (next, CommandLine.eraseWord c.knownFlags word args)

def find (args : List Bytes) : Command × List Bytes :=
  match root.descend? args with
  | none => (root, args)
  | some (c, args) => (c.descend? args).getD (c, args)

/-- The next row of distances, from the row above; `left` is the distance to the left, `corner` the
one above that. -/
def nextRow (c : UInt8) (left corner : Nat) : Bytes → List Nat → List Nat
  | d :: ds, above :: row =>
    let here := if c = d then corner else 1 + min above (min left corner)
    here :: nextRow c here above ds row
  | _, _ => []

/-- The number of bytes to insert, delete or replace to get from one text to the other. -/
def distance (s t : Bytes) : Nat :=
  let first := List.range (t.length + 1)
  let rows := s.foldl (fun (row : List Nat) c =>
    match row with
    | corner :: above => (corner + 1) :: nextRow c (corner + 1) corner t above
    | [] => []) first
  rows.getLastD 0

/-- Whether a name may be meant by a word: it starts with it, or two changes lead there. -/
def isNear (word name : Bytes) : Bool :=
  let word := Lower.text word
  distance word name ≤ 2 || name.startsWith word

def suggestions (word : Bytes) : List Bytes :=
  ((root.below.filter (·.2 ≠ help)).map (·.1)).filter (isNear word)

inductive UsageError where
  | flag (e : FlagError)
  | unknownCommand (word : Bytes)
  | unexpectedWord (c : Command) (word : Bytes)
  | wordCount (expected received : Nat)
  | tooManyWords (limit received : Nat)

namespace UsageError

def message : UsageError → Bytes
  | flag e => e.message
  | unknownCommand word =>
    let near := suggestions word
    "unknown command " ++ Quoted.text word ++ " for \"umlc\""
      ++ Bytes.when (!near.isEmpty)
        ("\n\nDid you mean this?\n" ++ Bytes.concat (near.map fun n => 0x09 :: n ++ [0x0A]))
  | unexpectedWord c word => "unknown command " ++ Quoted.text word ++ " for " ++ Quoted.text c.path
  | wordCount expected received =>
    "accepts " ++ .ofNat expected ++ " arg(s), received " ++ .ofNat received
  | tooManyWords limit received =>
    "accepts at most " ++ .ofNat limit ++ " arg(s), received " ++ .ofNat received

end UsageError

def checkWords (c : Command) (words : List Bytes) : Except UsageError Unit :=
  match c, words with
  | tokenize, [_] | parse, [_] => .ok ()
  | tokenize, _ | parse, _ => .error (.wordCount 1 words.length)
  | init, [] | init, [_] => .ok ()
  | init, _ => .error (.tooManyWords 1 words.length)
  | plugins, word :: _ | version, word :: _ | cacheDirectory, word :: _ | cacheClear, word :: _ =>
    .error (.unexpectedWord c word)
  | _, _ => .ok ()

inductive Request where
  /-- An account of a command's use. -/
  | usage (c : Command)
  | versionLine
  | run (c : Command) (line : CommandLine)

def request (args : List Bytes) : Except UsageError Request := do
  let (c, args) := find args
  if c = root then
    if let word :: _ := CommandLine.wordsOf c.knownFlags args then throw (.unknownCommand word)
  let line ← (CommandLine.parse c.flags args).mapError .flag
  if line.options.help || [help, completion].contains c then return .usage c
  if line.options.version then return .versionLine
  if c = root || c = cache then return .usage c
  checkWords c line.words
  return .run c line

end Command
end Uml
