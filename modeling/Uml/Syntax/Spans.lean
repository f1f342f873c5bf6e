import Uml.Source.File
import Uml.Syntax.Statement

/-!
# Spans of a tree

A well-formed tree lies inside its file, its statements are not empty and lie inside the program,
and links and members lie inside their statement.
-/
namespace Uml

/-- What is wrong with a span; `what` names the construct. -/
inductive SpanProblem where
  | beyondContent (stop size : Nat)
  | inverted (program : Span)
  | empty (what : Bytes) (span : Span)
  | foreign (what : Bytes) (file expected : Nat)
  | outsideProgram (what : Bytes) (span program : Span)
  | linkOutside (link owner : Span)
  | memberOutside (name : Bytes) (span : Span) (what : Bytes) (owner : Span)
  deriving DecidableEq, Repr

def SpanProblem.message : SpanProblem → Bytes
  | beyondContent stop size =>
    "program span end beyond content: " ++ .ofNat stop ++ " > " ++ .ofNat size
  | inverted program => "program span is inverted: " ++ program.render
  | empty what span => "empty " ++ what ++ " span: " ++ span.render
  | foreign what file expected =>
    what ++ " span file mismatch: got=" ++ .ofNat file ++ " want=" ++ .ofNat expected
  | outsideProgram what span program =>
    what ++ " span " ++ span.render ++ " is outside program span " ++ program.render
  | linkOutside link owner =>
    "link span " ++ link.render ++ " is outside relationship " ++ owner.render
  | memberOutside name span what owner =>
    "member " ++ name ++ " span " ++ span.render ++ " is outside " ++ what ++ " span " ++ owner.render

mutual
/-- A statement and all that it holds, depth first. -/
def Statement.flatten : Statement → List Statement
  | .decl tag d => [.decl tag d]
  | .package tag name nameSpan body => .package tag name nameSpan body :: Statement.flattenAll body

def Statement.flattenAll : List Statement → List Statement
  | [] => []
  | s :: rest => s.flatten ++ Statement.flattenAll rest
end

namespace Statement

def members : Statement → List Member
  | decl _ (.entity e) => e.members
  | decl _ (.association a) => a.members
  | decl _ (.relationship _ links) => links.flatMap (·.members)
  | _ => []

def links : Statement → List Link
  | decl _ (.relationship _ links) => links
  | _ => []

def spanProblem? (s : Statement) (file : File) (program : Span) : Option SpanProblem :=
  if s.span.stop ≤ s.span.start then some (.empty s.kindName s.span)
  else if s.span.file ≠ file.id then some (.foreign s.kindName s.span.file file.id)
  else if !s.span.isInside program then some (.outsideProgram s.kindName s.span program)
  else
    (s.links.findSome? fun l =>
      if l.span.isInside s.span then none else some (.linkOutside l.span s.span))
    <|> s.members.findSome? fun m =>
      if m.span.isInside s.span then none
      else some (.memberOutside m.name m.span s.kindName s.span)

end Statement

def Program.spanProblem? (p : Program) (file : File) : Option SpanProblem :=
  if file.content.size < p.span.stop then some (.beyondContent p.span.stop file.content.size)
  else if p.span.stop < p.span.start then some (.inverted p.span)
  else (Statement.flattenAll p.statements).findSome? fun s => s.spanProblem? file p.span

end Uml
