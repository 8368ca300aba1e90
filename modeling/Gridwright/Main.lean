import Gridwright.CommandLine

/-!
# The executable

Looks at the files that the arguments name, runs the program and prints what it
leaves behind.
-/

namespace Gridwright

/-- What is found at a path of the disk. -/
def statusOnDisk (path : String) : IO FileStatus := do
  try
    return .file (← IO.FS.readBinFile path)
  catch
    | .noFileOrDirectory .. => return .missing
    | .inappropriateType _ 21 _ => return .directory
    | .inappropriateType .. => return .notDirectory
    | .invalidArgument .. =>
      return if '\x00' ∈ path.toList then .nulInName else .nameTooLong
    | other => return .refused (toString other)

end Gridwright

open Gridwright

/-- The program. -/
def main (arguments : List String) : IO UInt32 := do
  let workingDirectory := toString (← IO.currentDir)
  let home ← IO.getEnv "HOME"
  let request := Request.of arguments
  let found ← (request.paths workingDirectory home).mapM fun path => do
    return (path, ← statusOnDisk path)
  let standardInput ←
    if request.readsInput then (← IO.getStdin).readBinToEnd else pure ByteArray.empty
  let outcome := request.perform
    { workingDirectory
      home
      status := fun path => (found.lookup path).getD .missing
      standardInput }
  for message in outcome.messages do
    IO.eprintln message
  IO.print outcome.output
  return outcome.status.toUInt32
