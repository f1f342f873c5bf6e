import Uml.Command.Name
import Uml.Host.Basic

/-!
# Shells

A command writes to two outputs and may end early. What it has written by then stays written.
-/
namespace Uml

structure Console where
  out : Bytes := []
  err : Bytes := []
  /-- Goes to the error output when the command is over. -/
  late : Bytes := []

inductive CommandFailure where
  /-- Diagnostics tell why. -/
  | reported
  | message (text : Bytes)

abbrev Shell (m : Type → Type) := ExceptT CommandFailure (StateT Console m)

namespace Shell

variable {m : Type → Type} [Monad m]

def ask {α : Type} (a : m α) : Shell m α := ExceptT.lift (StateT.lift a)

def say (text : Bytes) : Shell m Unit := modify fun c => { c with out := c.out ++ text }

def warn (text : Bytes) : Shell m Unit := modify fun c => { c with err := c.err ++ text }

/-- Warnings for the end come in reverse order: what was started last is finished first. -/
def warnLater (text : Bytes) : Shell m Unit := modify fun c => { c with late := text ++ c.late }

def fail {α : Type} (text : Bytes) : Shell m α := throw (.message text)

/-- Ends the command with a fault of the disk, behind a lead that tells what was tried. -/
def orFail {α : Type} (lead : Bytes) (r : Except DiskFault α) : Shell m α :=
  match r with
  | .ok a => pure a
  | .error fault => fail (lead ++ fault.message)

end Shell

structure ExitReport where
  exit : Nat
  out : Bytes
  err : Bytes
  deriving DecidableEq, Repr

/-- The outcome of a shell: failures are told last. -/
def ExitReport.ofShell {α : Type} (r : Except CommandFailure α) (c : Console) : ExitReport :=
  let err := c.err ++ c.late
  match r with
  | .ok _ => ⟨0, c.out, err⟩
  | .error .reported => ⟨1, c.out, err⟩
  | .error (.message text) => ⟨1, c.out, err ++ "umlc: " ++ text ++ "\n"⟩

end Uml
