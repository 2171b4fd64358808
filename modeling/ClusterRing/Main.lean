import ClusterRing.CommandLine.Execution

/-!
# The program

Reads the files that the arguments name, carries out the command, and prints its
report. What goes wrong is printed on the error stream.
-/

namespace ClusterRing.CommandLine

/-- The content of a file, if it can be read. -/
def readFile? (file : String) : IO (Option ByteArray) := do
  try
    return some (← IO.FS.readBinFile file)
  catch _ =>
    return none

/-- Reads files, to be looked up by name. -/
def readFiles (files : List String) : IO Files := do
  let contents ← files.mapM fun file => return (file, ← readFile? file)
  return fun file => (contents.lookup file).join

/-- Prints why arguments are not carried out, and gives the exit code. -/
def refuse (cause : UsageFault) : IO UInt32 := do
  if cause.isRequested then
    IO.print cause.message
    return 0
  else
    IO.eprint cause.message
    return 2

/-- Carries out arguments, and gives the exit code. -/
def carryOut (arguments : Arguments) : IO UInt32 := do
  let files ← readFiles arguments.files
  match arguments.execute files with
  | .ok report =>
    IO.print report.render
    return 0
  | .error failure =>
    IO.eprintln ("Error: " ++ failure.message)
    return 1

end ClusterRing.CommandLine

/-- Carries out the command that the arguments name. -/
def main (arguments : List String) : IO UInt32 :=
  match ClusterRing.CommandLine.parse arguments with
  | .ok arguments => ClusterRing.CommandLine.carryOut arguments
  | .error cause => ClusterRing.CommandLine.refuse cause
