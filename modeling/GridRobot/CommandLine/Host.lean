import GridRobot.CommandLine.Arguments
import GridRobot.CommandLine.Help
import GridRobot.CommandLine.Log
import GridRobot.Outcome.Text

/-!
# Executing a command

A command asks its surroundings for files and prints to them; `Host` is what it asks for, in any
monad. A command that cannot be completed logs why and ends with the status 255; a run ends with the
number of its fault.
-/

set_option autoImplicit false

namespace GridRobot

/-- What a command asks of its surroundings. Reading and writing may fail for a reason in words. -/
structure Host (m : Type → Type) where
  readFile : String → m (Except String ByteArray)
  readInput : m (Except String ByteArray)
  writeFile : String → String → m (Except String Unit)
  print : String → m Unit
  log : String → m Unit

/-- Why a command cannot be completed. -/
inductive Failure where
  | read (path reason : String)
  | write (path reason : String)
  | input (reason : String)
  | load (e : LoadError)
  | program (e : ProgramError)

/-- The words for a failure. -/
def Failure.message : Failure → String
  | read path reason => s!"cannot read {path}: {reason}"
  | write path reason => s!"cannot write {path}: {reason}"
  | input reason => s!"cannot read world from stdin: {reason}"
  | load e => e.message
  | program e => e.message

/-- The status of a command that cannot be completed. -/
def failureStatus : Nat := 255

/-- The status of a command line that is refused. -/
def usageStatus : Nat := 2

/-- The answer to a question for the version. -/
def versionText : String := "karel 0.1.0\n"

/-- A text from its bytes. -/
def decodeText (bytes : ByteArray) : Except String String :=
  match String.fromUTF8? bytes with
  | some s => .ok s
  | none => .error "stream did not contain valid UTF-8"

/-- A result whose failure is given a cause. -/
def withCause {α : Type} (cause : String → Failure) (r : Except String α) : Except Failure α :=
  r.mapError cause

section Execution

variable {m : Type → Type} [Monad m]

/-- Logs a notice if the filter lets it pass. -/
@[specialize]
def notify (host : Host m) (filter : LogFilter) (n : Notice) : m Unit :=
  if filter.accepts n then host.log n.line else pure ()

/-- Logs notices in order. -/
@[specialize]
def notifyAll (host : Host m) (filter : LogFilter) : List Notice → m Unit
  | [] => pure ()
  | n :: rest => do
    notify host filter n
    notifyAll host filter rest

/-- Follows calls and returns, and logs them. -/
@[specialize]
def follow (host : Host m) (filter : LogFilter) : Recorder → List Notification → m Recorder
  | r, [] => pure r
  | r, n :: rest => do
    notify host filter (r.notice n)
    follow host filter (r.observe n) rest

/-- Runs a session to its end, at most `fuel` instructions, while a recorder follows, and logs what
happens. -/
@[specialize]
def runLogged (host : Host m) (filter : LogFilter) :
    Nat → Session → Recorder → m (Session × Recorder)
  | 0, s, r => pure (s, r)
  | fuel + 1, s, r => do
    let t := s.advance
    notifyAll host filter (s.notices t)
    let r ← follow host filter r t.heard.reverse
    let t := { t with heard := [] }
    if t.running then runLogged host filter fuel t r else pure (t, r)

/-- Logs notices in order, while a command goes on. -/
def report (host : Host m) (filter : LogFilter) (ns : List Notice) : ExceptT Failure m Unit :=
  ExceptT.lift (notifyAll host filter ns)

/-- A text file. -/
def readText (host : Host m) (path : String) : ExceptT Failure m String := do
  let bytes ← ExceptT.mk ((withCause (.read path) ·) <$> host.readFile path)
  ExceptT.mk (pure (withCause (.read path) (decodeText bytes)))

/-- The text of the standard input. -/
def readInputText (host : Host m) : ExceptT Failure m String := do
  let bytes ← ExceptT.mk ((withCause .input ·) <$> host.readInput)
  ExceptT.mk (pure (withCause .input (decodeText bytes)))

/-- A file of 16-bit words. -/
def readWords (host : Host m) (path : String) : ExceptT Failure m (Array UInt16) := do
  let bytes ← ExceptT.mk ((withCause (.read path) ·) <$> host.readFile path)
  ExceptT.mk (pure ((wordsOfBytes bytes).mapError .load))

/-- Runs a program in a world and prints the outcome. -/
def runProgram (host : Host m) (filter : LogFilter) (fuel : Nat) (program : String)
    (world : Option String) (dump : DumpMode) (events : Bool) : ExceptT Failure m Nat := do
  let program ← ExceptT.mk (pure ((Program.parse (← readText host program)).mapError .program))
  let source ←
    match world with
    | some path => readText host path
    | none => readInputText host
  let some document := Document.parse source | throw (.load .malformed)
  report host filter document.notices
  let world ← ExceptT.mk (pure ((World.ofDocument document).mapError .load))
  report host filter [.started program.code.size world.name world.width world.height]
  let start := { Session.new world program with notifications := events, observed := true }
  let (s, r) ←
    if filter.debugs then ExceptT.lift (runLogged host filter fuel start .empty)
    else pure (start.runRecorded fuel .empty)
  report host filter
    [.stopped s.machine.fault s.machine.instructionCount,
      .finished s.machine.fault s.machine.instructionCount]
  if events then
    report host filter [.summary r.calls r.returns r.maxDepth]
  let text :=
    match dump with
    | .world => s.world.saveCurrent.render
    | .result => s.outcome.render
  ExceptT.lift (host.print (text ++ "\n"))
  return s.machine.resultCode

/-- Converts a legacy world into a document. -/
def importWorld (host : Host m) (filter : LogFilter) (world limits : String)
    (output : Option String) : ExceptT Failure m Nat := do
  let path := world
  let legacy : LegacyWorld := ⟨← readWords host world, ← readWords host limits⟩
  report host filter legacy.notices
  let world ← ExceptT.mk (pure (legacy.decode.mapError .load))
  let text := world.save.render ++ "\n"
  match output with
  | some file => ExceptT.mk ((withCause (.write file) ·) <$> host.writeFile file text)
  | none => ExceptT.lift (host.print text)
  report host filter [.imported path world.width world.height]
  return 0

/-- Executes a command and gives its status. -/
def executeCommand (host : Host m) (fuel : Nat) (call : Invocation) : m Nat := do
  let filter := LogFilter.ofOptions call.logLevel call.debugFilter
  let result ←
    match call.command with
    | .run program world dump events =>
      (runProgram host filter fuel program world dump events).run
    | .importWorld world limits output => (importWorld host filter world limits output).run
  match result with
  | .ok status => return status
  | .error failure =>
    notify host filter (.failed failure.message)
    return failureStatus

/-- Executes a command line and gives its status. -/
def executeArguments (host : Host m) (fuel : Nat) (args : List String) : m Nat :=
  match Invocation.ofArguments args with
  | .ok call => executeCommand host fuel call
  | .error .refused => pure usageStatus
  | .error (.help topic) => do
    host.print topic.text
    return 0
  | .error .version => do
    host.print versionText
    return 0

end Execution

end GridRobot
