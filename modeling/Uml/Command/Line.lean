import Uml.Command.Options

/-!
# Command lines

Flags may stand anywhere among the words of a command line; `--` ends them. A long flag has its
value behind `=` or in the next argument; short flags can be written in one group.
-/
namespace Uml

inductive FlagError where
  | malformed (arg : Bytes)
  | unknown (name : Bytes)
  /-- An unknown short flag, and the group from it on. -/
  | unknownShort (c : UInt8) (group : Bytes)
  | valueMissing (name : Bytes)
  | shortValueMissing (c : UInt8) (group : Bytes)
  | badValue (flag : Flag) (value reason : Bytes)

namespace FlagError

/-- A short flag between quotes. A byte outside ASCII is shown by the first byte of its encoding as
a character of its own. -/
def shortText (c : UInt8) : Bytes :=
  Quoted.scalar (((Utf8.encode c.toNat).head?.getD c).toNat)

def message : FlagError → Bytes
  | malformed arg => "bad flag syntax: " ++ arg
  | unknown name => "unknown flag: --" ++ name
  | unknownShort c group => "unknown shorthand flag: " ++ shortText c ++ " in -" ++ group
  | valueMissing name => "flag needs an argument: --" ++ name
  | shortValueMissing c group => "flag needs an argument: " ++ shortText c ++ " in -" ++ group
  | badValue flag value reason =>
    "invalid argument " ++ Quoted.text value ++ " for " ++ Quoted.text flag.title ++ " flag: "
      ++ reason

end FlagError

structure CommandLine where
  options : Options := {}
  words : List Bytes := []

namespace CommandLine

def dash : UInt8 := 0x2D
def equals : UInt8 := 0x3D

def isFlag (arg : Bytes) : Bool := arg.head? = some dash && 1 < arg.length

/-- Behind this argument all are words. -/
def endOfFlags : Bytes := "--"

def setFlag (f : Flag) (value : Bytes) (o : Options) : Except FlagError Options :=
  (f.set value o).mapError (.badValue f value)

/-- Sets a long flag, given without its dashes. Tells also whether it took the next argument. -/
def setLong (flags : List Flag) (body : Bytes) (next? : Option Bytes) (o : Options) :
    Except FlagError (Options × Bool) := do
  if body.head?.all fun b => b = dash || b = equals then throw (.malformed (endOfFlags ++ body))
  let name := body.takeWhile (· ≠ equals)
  let some flag := flags.find? (·.name = name) | throw (.unknown name)
  match body.drop name.length, flag.bare?, next? with
  | _ :: value, _, _ => return (← setFlag flag value o, false)
  | [], some bare, _ => return (← setFlag flag bare o, false)
  | [], none, some value => return (← setFlag flag value o, true)
  | [], none, none => throw (.valueMissing name)

/-- Groups with this lead are meant for a test runner and passed over. -/
def testLead : Bytes := "test."

/-- Sets the flags of a group, given without its dash. Tells also whether the next argument was
taken. -/
def setShorts (flags : List Flag) : Bytes → Option Bytes → Options → Except FlagError (Options × Bool)
  | [], _, o => .ok (o, false)
  | c :: tail, next?, o =>
    if Bytes.startsWith (c :: tail) testLead then .ok (o, false)
    else do
      let some flag := flags.find? (·.short? = some c) | throw (.unknownShort c (c :: tail))
      match tail, flag.bare?, next? with
      | 0x3D :: b :: value, _, _ => return (← setFlag flag (b :: value) o, false)
      | _, some bare, _ => setShorts flags tail next? (← setFlag flag bare o)
      | b :: value, none, _ => return (← setFlag flag (b :: value) o, false)
      | [], none, some value => return (← setFlag flag value o, true)
      | [], none, none => throw (.shortValueMissing c (c :: tail))

/-- Takes arguments apart, on top of what is there. -/
def parseFrom (flags : List Flag) : List Bytes → CommandLine → Except FlagError CommandLine
  | [], line => .ok line
  | arg :: rest, line =>
    if !isFlag arg then parseFrom flags rest { line with words := line.words ++ [arg] }
    else if arg = endOfFlags then .ok { line with words := line.words ++ rest }
    else do
      let (options, tookNext) ←
        match arg with
        | 0x2D :: 0x2D :: body => setLong flags body rest.head? line.options
        | _ => setShorts flags arg.tail rest.head? line.options
      match tookNext, rest with
      | true, _ :: rest => parseFrom flags rest { line with options }
      | _, rest => parseFrom flags rest { line with options }

def parse (flags : List Flag) (args : List Bytes) : Except FlagError CommandLine :=
  parseFrom flags args {}

/-- Whether a flag in front of a command's name takes the next argument; unknown flags do. -/
def takesNext (flags : List Flag) (arg : Bytes) : Bool :=
  !arg.contains equals &&
    match arg with
    | 0x2D :: 0x2D :: name => !flags.any fun f => f.name = name && f.bare?.isSome
    | [0x2D, c] => !flags.any fun f => f.short? = some c && f.bare?.isSome
    | _ => false

/-- The words of a command line whose flags are not all known yet. A flag that would take the last
argument ends the line. -/
def wordsOf (flags : List Flag) : List Bytes → List Bytes
  | [] => []
  | arg :: rest =>
    if arg = endOfFlags then []
    else if takesNext flags arg then
      match rest with
      | _ :: next :: rest => wordsOf flags (next :: rest)
      | _ => []
    else if arg.isEmpty || arg.head? = some dash then wordsOf flags rest
    else arg :: wordsOf flags rest

def eraseWord (flags : List Flag) (word : Bytes) : List Bytes → List Bytes
  | [] => []
  | arg :: rest =>
    if arg = endOfFlags then arg :: rest
    else if takesNext flags arg then
      match rest with
      | value :: rest => arg :: value :: eraseWord flags word rest
      | [] => [arg]
    else if arg = word then rest
    else arg :: eraseWord flags word rest

end CommandLine
end Uml
