-- The program: it runs the command line on a machine of its own, as the root
-- user without privileges.
import ProcessTree.CommandLine.Run
import ProcessTree.Host.Sandbox

namespace ProcessTree

/-- The variables of this process that configure a tree. -/
def treeVariables : IO Environment := do
  let mut found : Environment := []
  for name in Overrides.names do
    if let some value ← IO.getEnv name then
      found := found ++ [(name, .ofText value)]
  return found

/-- Runs the command line, prints its lines, and gives the exit code. -/
def runProgram (args : List String) : IO UInt32 := do
  let program := OsText.ofText "process-tree"
  let machine := Machine.empty (Sandbox.bare program) program .role (← treeVariables)
  let outcome := CommandLine.run machine (program :: args.map .ofText) none
  for line in outcome.lines do
    IO.println line
  return UInt32.ofNat outcome.code

end ProcessTree

def main (args : List String) : IO UInt32 := ProcessTree.runProgram args
