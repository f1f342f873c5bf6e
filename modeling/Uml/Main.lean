import Uml.Command.Run
import Uml.Host.Native

/-! The program. -/
open Uml

def main (args : List String) : IO UInt32 := do
  let report ← (runCommand (args.map Bytes.ofString) : IO ExitReport)
  (← IO.getStdout).write ⟨report.out.toArray⟩
  (← IO.getStderr).write ⟨report.err.toArray⟩
  return report.exit.toUInt32
