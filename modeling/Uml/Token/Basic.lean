import Uml.Source.Span
import Uml.Text.Bytes

/-!
# Tokens

The lexical categories, in their numbering order, with the classes that the grammar asks for. A token
is a kind, where it stands, and the text it was read as.
-/
namespace Uml

inductive Kind where
  | invalid | eof | ident | number | string | comment | docComment
  | kwPackage | kwClass | kwInterface | kwEnum | kwDatatype
  | kwAbstract | kwStatic | kwActive | kwLeaf | kwFinal | kwRoot
  | kwConfig | kwConstraint | kwNote | kwOn | kwAssociation | kwTrue | kwFalse | kwXor
  | inherit | implement | compose | composeOpaque | aggregate | aggregateOpaque
  | depend | bidirectional | directed | associate
  | lbrace | rbrace | lparen | rparen | lbracket | rbracket | lt | gt
  | comma | colon | semicolon | dot | dotDot | assign | pipe | star | plus | minus
  | hash | tilde | atSign | question | slash | amp
  deriving DecidableEq, Repr, Inhabited

namespace Kind

def all : List Kind := [
  invalid, eof, ident, number, string, comment, docComment, kwPackage, kwClass, kwInterface,
  kwEnum, kwDatatype, kwAbstract, kwStatic, kwActive, kwLeaf, kwFinal, kwRoot, kwConfig,
  kwConstraint, kwNote, kwOn, kwAssociation, kwTrue, kwFalse, kwXor, inherit, implement, compose,
  composeOpaque, aggregate, aggregateOpaque, depend, bidirectional, directed, associate, lbrace,
  rbrace, lparen, rparen, lbracket, rbracket, lt, gt, comma, colon, semicolon, dot, dotDot,
  assign, pipe, star, plus, minus, hash, tilde, atSign, question, slash, amp]

def name : Kind → Bytes
  | invalid => "Invalid"
  | eof => "EOF"
  | ident => "Ident"
  | number => "Number"
  | string => "String"
  | comment => "Comment"
  | docComment => "DocComment"
  | kwPackage => "KwPackage"
  | kwClass => "KwClass"
  | kwInterface => "KwInterface"
  | kwEnum => "KwEnum"
  | kwDatatype => "KwDatatype"
  | kwAbstract => "KwAbstract"
  | kwStatic => "KwStatic"
  | kwActive => "KwActive"
  | kwLeaf => "KwLeaf"
  | kwFinal => "KwFinal"
  | kwRoot => "KwRoot"
  | kwConfig => "KwConfig"
  | kwConstraint => "KwConstraint"
  | kwNote => "KwNote"
  | kwOn => "KwOn"
  | kwAssociation => "KwAssociation"
  | kwTrue => "KwTrue"
  | kwFalse => "KwFalse"
  | kwXor => "KwXor"
  | inherit => "RelInherit"
  | implement => "RelImplement"
  | compose => "RelCompose"
  | composeOpaque => "RelComposeOpaque"
  | aggregate => "RelAggregate"
  | aggregateOpaque => "RelAggregateOpaque"
  | depend => "RelDepend"
  | bidirectional => "RelBidirectional"
  | directed => "RelDirected"
  | associate => "RelAssociate"
  | lbrace => "LBrace"
  | rbrace => "RBrace"
  | lparen => "LParen"
  | rparen => "RParen"
  | lbracket => "LBracket"
  | rbracket => "RBracket"
  | lt => "Lt"
  | gt => "Gt"
  | comma => "Comma"
  | colon => "Colon"
  | semicolon => "Semicolon"
  | dot => "Dot"
  | dotDot => "DotDot"
  | assign => "Assign"
  | pipe => "Pipe"
  | star => "Star"
  | plus => "Plus"
  | minus => "Minus"
  | hash => "Hash"
  | tilde => "Tilde"
  | atSign => "At"
  | question => "Question"
  | slash => "Slash"
  | amp => "Amp"

/-- The name of a number that is no kind. -/
def unknownName : Bytes := "Kind(?)"

def ofNumber? (n : Nat) : Option Kind := all[n]?

def ofName? (s : Bytes) : Option Kind := all.find? (·.name = s)

/-- The operators that join two entities. -/
def isRelationship : Kind → Bool
  | inherit | implement | compose | composeOpaque | aggregate | aggregateOpaque | depend
  | bidirectional | directed | associate => true
  | _ => false

def isEntityKeyword : Kind → Bool
  | kwClass | kwInterface | kwEnum | kwDatatype => true
  | _ => false

def isEntityModifier : Kind → Bool
  | kwAbstract | kwStatic | kwActive | kwLeaf | kwFinal | kwRoot => true
  | _ => false

def isVisibility : Kind → Bool
  | plus | minus | hash | tilde => true
  | _ => false

def isKeyword : Kind → Bool
  | kwPackage | kwClass | kwInterface | kwEnum | kwDatatype | kwAbstract | kwStatic | kwActive
  | kwLeaf | kwFinal | kwRoot | kwConfig | kwConstraint | kwNote | kwOn | kwAssociation | kwTrue
  | kwFalse | kwXor => true
  | _ => false

/-- Comments of both forms. -/
def isTrivia : Kind → Bool
  | comment | docComment => true
  | _ => false

/-- What can stand as a name of a member or field: keywords are words too. -/
def isWord (k : Kind) : Bool := k = ident || k.isKeyword

/-- The reserved words; upper and lower case differ. -/
def keywords : List (Bytes × Kind) := [
  ("package", kwPackage), ("class", kwClass), ("interface", kwInterface), ("enum", kwEnum),
  ("datatype", kwDatatype), ("abstract", kwAbstract), ("static", kwStatic), ("active", kwActive),
  ("leaf", kwLeaf), ("final", kwFinal), ("root", kwRoot), ("config", kwConfig),
  ("constraint", kwConstraint), ("note", kwNote), ("on", kwOn), ("association", kwAssociation),
  ("true", kwTrue), ("false", kwFalse), ("xor", kwXor)]

/-- The keyword that a word is, if it is one. -/
def keyword? (word : Bytes) : Option Kind := keywords.lookup word

end Kind

structure Token where
  kind : Kind := .invalid
  span : Span := {}
  text : Bytes := []
  position : Position := {}
  deriving DecidableEq, Repr, Inhabited

namespace Token

def isTrivia (t : Token) : Bool := t.kind.isTrivia

def isWord (t : Token) : Bool := t.kind.isWord

def isRelationship (t : Token) : Bool := t.kind.isRelationship

/-- How a message names a token. -/
def describe (t : Token) : Bytes :=
  match t.kind with
  | .eof => "end of file"
  | .string => "string " ++ t.text
  | _ => "'" ++ t.text ++ "'"

end Token
end Uml
