import GridRobot.CommandLine.Host

/-!
# The command line program

Runs commands on the file system: documents are printed on the standard output and the log on the
standard error.
-/

set_option autoImplicit false

namespace GridRobot

/-- The reason for a failure in the words of the operating system. -/
def reasonText : IO.Error → String
  | .noFileOrDirectory .. => "No such file or directory (os error 2)"
  | .permissionDenied .. => "Permission denied (os error 13)"
  | e => e.toString

/-- The result of an action, with the reason for its failure in words. -/
def attempt {α : Type} (action : IO α) : IO (Except String α) := do
  match ← action.toBaseIO with
  | .ok a => return .ok a
  | .error e => return .error (reasonText e)

/-- What has been read of a stream, followed by all that it still holds. -/
partial def readAll (stream : IO.FS.Stream) (done : ByteArray) : IO ByteArray := do
  let chunk ← stream.read 65536
  if chunk.isEmpty then return done else readAll stream (done ++ chunk)

/-- The file system as a host. -/
def fileHost : Host IO where
  readFile path := attempt (IO.FS.readBinFile path)
  readInput := attempt do readAll (← IO.getStdin) .empty
  writeFile path text := attempt (IO.FS.writeFile path text)
  print text := IO.print text
  log line := IO.eprintln line

/-- More instructions than a run is ever waited for. -/
def runFuel : Nat := 4611686018427387904

end GridRobot

/-- Executes the command line. -/
def main (args : List String) : IO UInt32 := do
  return UInt32.ofNat (← GridRobot.executeArguments GridRobot.fileHost GridRobot.runFuel args)
