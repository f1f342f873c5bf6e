import Uml.Analysis.Analyze
import Uml.Diagnostic.Bag
import Uml.Diagram.Assemble
import Uml.Language.Catalog
import Uml.Lexer.Tokenize

/-!
# Compiling one document

Lexing, parsing, analysis and assembly, as far as asked. Nothing fails: whatever is wrong with a
document is in its bag of diagnostics.
-/
namespace Uml

inductive Stage where
  | tokens | tree | analysis | diagram
  deriving DecidableEq, Repr, Inhabited

structure CompileOptions where
  stage : Stage := .diagram
  registry : Registry := {}
  /-- How many diagnostics are kept; zero or less for all. -/
  maxDiagnostics : Int := 0
  /-- Config of diagrams that documents can override. -/
  defaults : Config := []

/-- What is known of a document; parts behind the requested stage are missing. -/
structure Compilation where
  /-- The name to show. -/
  path : Bytes
  bag : Bag
  stage : Stage := .diagram
  tokens : List Token := []
  parsed : Option Parsed := none
  /-- The state of the analysis after each pass. -/
  passes : List (Bytes × Session) := []
  diagram : Option Diagram := none
  /-- The diagram comes from a cache. -/
  isCached : Bool := false

namespace Compilation

def hasErrors (c : Compilation) : Bool := c.bag.hasErrors

/-- The state of the finished analysis. -/
def session? (c : Compilation) : Option Session := c.passes.getLast?.map (·.2)

def start (o : CompileOptions) (path : Bytes) : Compilation :=
  { path, bag := .ofLimit o.maxDiagnostics, stage := o.stage }

def lex (o : CompileOptions) (file : File) (c : Compilation) : Compilation :=
  let lexed := Lexer.tokenize file o.registry.matchers
  { c with tokens := lexed.tokens, bag := c.bag.addAll lexed.findings }

def parse (o : CompileOptions) (file : File) (c : Compilation) : Compilation :=
  let parsed := Uml.parse o.registry.grammar file c.tokens o.maxDiagnostics.toNat
  { c with parsed := some parsed, bag := c.bag.addAll parsed.findings }

def analyze (o : CompileOptions) (c : Compilation) : Compilation :=
  match c.parsed with
  | none => c
  | some parsed =>
    let c := { c with passes := passStates o.registry.typing parsed.program }
    { c with bag := c.bag.addAll ((c.session?.map (·.findings.toList)).getD []) }

def assemble (o : CompileOptions) (fs : FileSet) (c : Compilation) : Compilation :=
  { c with diagram := c.session?.map fun s => Diagram.assemble s fs o.defaults }

end Compilation

def compileSteps (o : CompileOptions) (fs : FileSet) (file : File) :
    List (Compilation → Compilation) :=
  match o.stage with
  | .tokens => [.lex o file]
  | .tree => [.lex o file, .parse o file]
  | .analysis => [.lex o file, .parse o file, .analyze o]
  | .diagram => [.lex o file, .parse o file, .analyze o, .assemble o fs]

/-- Compiles a file of a file set; `path` is the name to show. -/
def compile (o : CompileOptions) (fs : FileSet) (file : File) (path : Bytes) : Compilation :=
  (compileSteps o fs file).foldl (fun c step => step c) (.start o path)

def compileText (o : CompileOptions) (name content : Bytes) : FileSet × Compilation :=
  let (fs, file) := FileSet.addVirtual {} name content
  (fs, compile o fs file name)

end Uml
