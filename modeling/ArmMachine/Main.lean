import ArmMachine.CommandLine.Session

/-! The program: a command line in the surroundings of a process. -/
namespace ArmMachine

open CommandLine (Host FileFailure)

def fileFailure : IO.Error → FileFailure
  | .noFileOrDirectory .. => .missing
  | .inappropriateType .. => .directory
  | .permissionDenied .. => .denied
  | cause => .other (toString cause)

def processHost : IO (Host IO) := do
  let input ← IO.getStdin
  let output ← IO.getStdout
  let errors ← IO.getStderr
  return {
    contents := fun path => do
      try return .ok (← IO.FS.readBinFile path)
      catch cause => return .error (fileFailure cause)
    readLine := do
      let line ← input.getLine
      return if line.isEmpty then none else some line
    note := fun text => do
      errors.putStr text
      errors.flush
    output := fun bytes => do
      output.write bytes
      output.flush }

end ArmMachine

def main (args : List String) : IO UInt32 := do
  let code ← ArmMachine.CommandLine.run (← ArmMachine.processHost) args
  return UInt32.ofNat code
