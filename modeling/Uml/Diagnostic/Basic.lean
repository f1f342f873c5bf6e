import Uml.Diagnostic.Code
import Uml.Source.Span

/-!
# Diagnostics

Findings are data: a phase that meets a problem records it and goes on.
-/
namespace Uml

/-- How grave a finding is; ranks from error on make a document invalid. -/
structure Severity where
  rank : Nat
  deriving DecidableEq, Repr, Inhabited

namespace Severity

def info : Severity := ⟨0⟩
def warning : Severity := ⟨1⟩
def error : Severity := ⟨2⟩

def isError (s : Severity) : Bool := error.rank ≤ s.rank

def name (s : Severity) : Bytes :=
  match s.rank with
  | 0 => "INFO"
  | 1 => "WARNING"
  | 2 => "ERROR"
  | _ => "UNKNOWN"

def label (s : Severity) : Bytes :=
  match s.rank with
  | 0 => "info"
  | 1 => "warning"
  | 2 => "error"
  | _ => "unknown"

end Severity

structure Note where
  span : Span
  message : Bytes
  deriving DecidableEq, Repr, Inhabited

structure Diagnostic where
  severity : Severity
  code : Code
  message : Bytes
  span : Span
  notes : List Note := []
  deriving DecidableEq, Repr, Inhabited

namespace Diagnostic

def error (code : Code) (span : Span) (message : Bytes) (notes : List Note := []) : Diagnostic :=
  ⟨.error, code, message, span, notes⟩

def warning (code : Code) (span : Span) (message : Bytes) (notes : List Note := []) : Diagnostic :=
  ⟨.warning, code, message, span, notes⟩

def isError (d : Diagnostic) : Bool := d.severity.isError

end Diagnostic
end Uml
