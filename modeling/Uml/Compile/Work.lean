import Uml.Compile.Basic
import Uml.Trace.Tracer

/-! The work that a compilation did, as a trace shows it. -/
namespace Uml

def fact (key : String) (n : Nat) : Bytes × Bytes := (Bytes.ofString key, Bytes.ofNat n)

/-- One phase; phases have no verdict of their own. -/
def Work.phase (name : Bytes) (extra : List (Bytes × Bytes)) : Work := .span .pass name [] extra []

namespace Compilation

def phaseWork (c : Compilation) : List Work :=
  [Work.phase "lex" [fact "tokens" c.tokens.length]]
    ++ (c.parsed.map fun p => Work.phase "parse" [fact "errors" p.errors]).toList
    ++ c.passes.map (fun (name, s) =>
        Work.phase name [fact "entities" s.table.size, fact "relationships" s.relationships.length])
    ++ (c.diagram.map fun d =>
        Work.phase "assemble" [fact "relationships" ((d.relationships.map (·.length)).getD 0)]).toList

def verdict (c : Compilation) : Bytes := if c.hasErrors then "errors" else "ok"

/-- The work on one document; a cached one is only fetched. -/
def work (c : Compilation) (scope : TraceScope) : Work :=
  let file := (Bytes.ofString "file", c.path)
  if c.isCached then .span scope "compile" "cached" [file] [.point .pass "cache" "hit"]
  else .span scope "compile" c.verdict [file, fact "diagnostics" c.bag.size] c.phaseWork

end Compilation
end Uml
