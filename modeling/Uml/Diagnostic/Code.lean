import Uml.Text.Bytes

/-!
# Diagnostic codes

A code is a number; its thousands tell the phase that reports it.
-/
namespace Uml

structure Code where
  number : Nat
  deriving DecidableEq, Repr, Inhabited

namespace Code

def unknownChar : Code := ⟨1001⟩
def unterminatedString : Code := ⟨1002⟩
def unterminatedComment : Code := ⟨1003⟩
def badNumber : Code := ⟨1004⟩

def unexpectedToken : Code := ⟨2001⟩
def unclosedBrace : Code := ⟨2002⟩
def unclosedParen : Code := ⟨2003⟩
def unclosedBracket : Code := ⟨2004⟩
def unclosedAngle : Code := ⟨2005⟩
def expectIdentifier : Code := ⟨2006⟩
def expectType : Code := ⟨2007⟩
def expectColon : Code := ⟨2008⟩
def expectRelationship : Code := ⟨2009⟩
def badConfigValue : Code := ⟨2011⟩
def danglingDoc : Code := ⟨2013⟩
def emptyConstraint : Code := ⟨2014⟩
def unexpectedStatement : Code := ⟨2015⟩
def expectMember : Code := ⟨2016⟩

def duplicateEntity : Code := ⟨3001⟩
def namespaceCollision : Code := ⟨3002⟩
def invalidModifiers : Code := ⟨3003⟩
def duplicateMember : Code := ⟨3004⟩
def ambiguousReference : Code := ⟨3005⟩
def packageTarget : Code := ⟨3006⟩
def realizationTarget : Code := ⟨3007⟩
def compositionWholeUpper : Code := ⟨3008⟩
def inheritanceKind : Code := ⟨3009⟩
def extendsLeaf : Code := ⟨3010⟩
def rootSpecializes : Code := ⟨3011⟩
def enumInheritance : Code := ⟨3012⟩
def inheritanceCycle : Code := ⟨3013⟩
def multiplicityFormat : Code := ⟨3014⟩
def multiplicityBounds : Code := ⟨3015⟩
def constraintTarget : Code := ⟨3016⟩
def noteAnchor : Code := ⟨3017⟩
def selfInheritance : Code := ⟨3018⟩
def duplicateConfigKey : Code := ⟨3019⟩
def duplicateLiteral : Code := ⟨3020⟩
def associationEndpoint : Code := ⟨3021⟩

def loadFailure : Code := ⟨4001⟩
def cacheFailure : Code := ⟨4002⟩
def invalidManifest : Code := ⟨5001⟩

def title (c : Code) : Bytes :=
  match c.number with
  | 1000 => "Lexical information"
  | 1001 => "Unknown character"
  | 1002 => "Unterminated string literal"
  | 1003 => "Unterminated block comment"
  | 1004 => "Malformed number"
  | 2000 => "Syntax information"
  | 2001 => "Unexpected token"
  | 2002 => "Unclosed brace"
  | 2003 => "Unclosed parenthesis"
  | 2004 => "Unclosed bracket"
  | 2005 => "Unclosed angle bracket"
  | 2006 => "Expected identifier"
  | 2007 => "Expected type"
  | 2008 => "Expected colon"
  | 2009 => "Expected relationship operator"
  | 2010 => "Expected string literal"
  | 2011 => "Invalid config value"
  | 2012 => "Expected class, interface, enum or datatype"
  | 2013 => "Documentation comment is not attached to a declaration"
  | 2014 => "Constraint without targets"
  | 2015 => "Unrecognised statement"
  | 2016 => "Expected member declaration"
  | 3000 => "Semantic information"
  | 3001 => "Duplicate entity"
  | 3002 => "Entity collides with a package"
  | 3003 => "Invalid modifier combination"
  | 3004 => "Duplicate member"
  | 3005 => "Ambiguous reference"
  | 3006 => "Package used as relationship target"
  | 3007 => "Realization target is not an interface"
  | 3008 => "Composition whole end allows more than one owner"
  | 3009 => "Inheritance between different kinds"
  | 3010 => "Extending a leaf or final entity"
  | 3011 => "Root entity cannot specialize"
  | 3012 => "Enumeration in inheritance"
  | 3013 => "Inheritance cycle"
  | 3014 => "Invalid multiplicity"
  | 3015 => "Multiplicity upper bound below lower bound"
  | 3016 => "Unknown constraint target"
  | 3017 => "Unknown note anchor"
  | 3018 => "Entity inherits from itself"
  | 3019 => "Duplicate config key"
  | 3020 => "Duplicate enumeration literal"
  | 3021 => "Invalid association class endpoint"
  | 4001 => "Failed to load file"
  | 4002 => "Cache failure"
  | 5001 => "Invalid project manifest"
  | _ => "Unknown error"

/-- The letters of a phase, by thousands. -/
def phase? (n : Nat) : Option Bytes :=
  match n / 1000 with
  | 1 => some "LEX"
  | 2 => some "SYN"
  | 3 => some "SEM"
  | 4 => some "IO"
  | 5 => some "PRJ"
  | _ => none

def id (c : Code) : Bytes :=
  match phase? c.number with
  | some letters => letters ++ Bytes.ofNat c.number
  | none => "E0000"

def render (c : Code) : Bytes := "[" ++ c.id ++ "]: " ++ c.title

end Code
end Uml
