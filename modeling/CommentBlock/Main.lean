import CommentBlock.CommandLine.Run

/-!
# The program

The outer layer: arguments, files and standard streams of the operating system.
-/

namespace CommentBlock.CommandLine

/-- The fault that an error of the operating system stands for. -/
def readFault : IO.Error → ReadFault
  | .noFileOrDirectory .. | .noSuchThing .. => .missing
  | .inappropriateType _ 21 _ => .directory
  | error => .system error.toString.toList

/-- The bytes at the place. -/
def readBytes : Source → IO ByteArray
  | .standardInput => do (← IO.getStdin).readBinToEnd
  | .file name => IO.FS.readBinFile (String.ofList name)

/-- The bytes at the place, or why there are none. -/
def readSource (source : Source) : IO (Except ReadFault ByteArray) := do
  try
    return .ok (← readBytes source)
  catch error =>
    return .error (readFault error)

/-- Does what the arguments ask for and says how that ended. -/
def perform (arguments : List String) : IO UInt32 := do
  let request := Request.ofArguments (arguments.map String.toList)
  let exit ← request.carryOut readSource
  (← IO.getStdout).putStr (String.ofList exit.stdout)
  (← IO.getStderr).putStr (String.ofList exit.report)
  return exit.code.toUInt32

end CommentBlock.CommandLine

/-- Runs the program with the arguments. -/
def main (arguments : List String) : IO UInt32 := CommentBlock.CommandLine.perform arguments
