/-!
# Command line arguments

The command line names one of two commands. `run` takes a program; `import` takes the two files of a
legacy world. The log options may stand before or after the command, and after it they count more.

An option takes its value after an equals sign or from the next argument, which may not look like an
option. No option may be given twice in one place. After `--` every argument is a file.

Help is given for an option at once, and for the command `help` once the command that it asks about is
known: after `help` there may only be the name of one command.
-/

set_option autoImplicit false

namespace GridRobot

/-- What to print at the end of a run. -/
inductive DumpMode where
  | world
  | result
  deriving DecidableEq, Repr

/-- What the command line asks for. -/
inductive Command where
  /-- Run a program in a world, which is read from the standard input unless a file is named. -/
  | run (program : String) (world : Option String) (dump : DumpMode) (events : Bool)
  /-- Convert a legacy world into a document, which is printed unless a file is named. -/
  | importWorld (world limits : String) (output : Option String)
  deriving DecidableEq, Repr

/-- A command and what to log of it. -/
structure Invocation where
  command : Command
  logLevel : Option String := none
  debugFilter : Option String := none
  deriving DecidableEq, Repr

/-- What help is given about. -/
inductive HelpTopic where
  | overview
  /-- Running a program, in full or in short. -/
  | run (full : Bool)
  | importWorld
  | help
  deriving DecidableEq, Repr

/-- Why no command is executed. -/
inductive Halted where
  | refused
  | help (topic : HelpTopic)
  | version
  deriving DecidableEq, Repr

namespace Arguments

/-- The name of a command. -/
inductive Verb where
  | run
  | importWorld
  deriving DecidableEq, Repr

/-- The options that take a value. -/
inductive ValueOption where
  | logLevel
  | debugFilter
  | world
  | dump
  | output
  deriving DecidableEq, Repr

/-- What the arguments read so far have said. -/
structure Draft where
  verb : Option Verb := none
  /-- What help is asked about, once the command `help` has been given. -/
  helping : Option HelpTopic := none
  /-- The option whose value is the next argument. -/
  pending : Option ValueOption := none
  /-- Whether every further argument is a file. -/
  escaped : Bool := false
  files : List String := []
  /-- The values of options, those given before the command apart from those given after it. -/
  before : List (ValueOption × String) := []
  after : List (ValueOption × String) := []
  noEvents : Bool := false

/-- The option with the given long name, if it may stand after the given command or before any. -/
def longOption? (verb : Option Verb) (name : String) : Option ValueOption :=
  match name, verb with
  | "log-level", _ => some .logLevel
  | "debug-filter", _ => some .debugFilter
  | "world", some .run => some .world
  | "dump", some .run => some .dump
  | "output", some .importWorld => some .output
  | _, _ => none

/-- Whether an argument looks like an option. -/
def looksLikeOption (arg : String) : Bool :=
  match arg.toList with
  | '-' :: _ :: _ => true
  | _ => false

/-- The text before the first equals sign, and the text after it if there is one. -/
def splitEquals : List Char → List Char × Option (List Char)
  | [] => ([], none)
  | '=' :: rest => ([], some rest)
  | c :: rest =>
    let (name, value) := splitEquals rest
    (c :: name, value)

/-- Whether an option can have a value: files need a name and the dump is one of two. -/
def admits : ValueOption → String → Bool
  | .logLevel, _ => true
  | .debugFilter, _ => true
  | .world, v => v ≠ ""
  | .output, v => v ≠ ""
  | .dump, v => v = "world" || v = "result"

/-- Gives an option its value. -/
def setOption (d : Draft) (o : ValueOption) (v : String) : Except Halted Draft :=
  let given := if d.verb.isSome then d.after else d.before
  if admits o v && !given.any (fun p => p.1 = o) then
    .ok
      (if d.verb.isSome then { d with pending := none, after := (o, v) :: d.after }
      else { d with pending := none, before := (o, v) :: d.before })
  else .error .refused

/-- Takes an option, with its value if one is attached. -/
def takeOption (d : Draft) (o : ValueOption) : Option (List Char) → Except Halted Draft
  | some v => setOption d o (String.ofList v)
  | none => .ok { d with pending := some o }

/-- The number of files that a command takes. -/
def fileCount : Verb → Nat
  | .run => 1
  | .importWorld => 2

/-- Takes a file. -/
def takeFile (d : Draft) (arg : String) : Except Halted Draft :=
  match d.verb with
  | none => .error .refused
  | some verb =>
    if arg ≠ "" ∧ d.files.length < fileCount verb then .ok { d with files := d.files ++ [arg] }
    else .error .refused

/-- Takes the name of a command. -/
def takeVerb (d : Draft) : String → Except Halted Draft
  | "run" => .ok { d with verb := some .run }
  | "import" => .ok { d with verb := some .importWorld }
  | "help" => .ok { d with helping := some .overview }
  | _ => .error .refused

/-- Takes the name of the command that help is asked about. A command has no commands of its own. -/
def takeTopic (d : Draft) : HelpTopic → String → Except Halted Draft
  | .overview, "run" => .ok { d with helping := some (.run true) }
  | .overview, "import" => .ok { d with helping := some .importWorld }
  | .overview, "help" => .ok { d with helping := some .help }
  | _, _ => .error .refused

/-- What an option for help is about, after the given command or before any. -/
def topic (full : Bool) : Option Verb → HelpTopic
  | none => .overview
  | some .run => .run full
  | some .importWorld => .importWorld

/-- Takes an argument that starts with two dashes, which have been removed. -/
def takeLong (d : Draft) (cs : List Char) : Except Halted Draft :=
  let (name, value) := splitEquals cs
  match String.ofList name, value with
  | "", none => .ok { d with escaped := true }
  | "help", none => .error (.help (topic true d.verb))
  | "version", none => if d.verb.isNone then .error .version else .error .refused
  | "no-events", none =>
    if d.verb = some .run ∧ !d.noEvents then .ok { d with noEvents := true } else .error .refused
  | name, value =>
    match longOption? d.verb name with
    | some o => takeOption d o value
    | none => .error .refused

/-- Takes an argument that starts with one dash, which has been removed. -/
def takeShort (d : Draft) (cs : List Char) : Except Halted Draft :=
  match cs, d.verb with
  | 'h' :: _, verb => .error (.help (topic false verb))
  | 'V' :: _, none => .error .version
  | ['o'], some .importWorld => takeOption d .output none
  | 'o' :: '=' :: value, some .importWorld => takeOption d .output (some value)
  | 'o' :: value, some .importWorld => takeOption d .output (some value)
  | _, _ => .error .refused

/-- Takes an argument. -/
def take (d : Draft) (arg : String) : Except Halted Draft :=
  if d.escaped then takeFile d arg
  else
    match d.helping, d.pending with
    | some about, _ => takeTopic d about arg
    | none, some o => if looksLikeOption arg then .error .refused else setOption d o arg
    | none, none =>
      match arg.toList with
      | '-' :: '-' :: rest => takeLong d rest
      | '-' :: c :: rest => takeShort d (c :: rest)
      | _ => if d.verb.isSome then takeFile d arg else takeVerb d arg

/-- The value of an option. -/
def option? (given : List (ValueOption × String)) (o : ValueOption) : Option String :=
  (given.find? fun p => p.1 = o).map (·.2)

/-- The command that a draft asks for, once there are no more arguments. -/
def command? (d : Draft) : Option Command :=
  match d.verb, d.files with
  | some .run, [program] =>
    let dump := if option? d.after .dump = some "world" then DumpMode.world else .result
    some (.run program (option? d.after .world) dump (!d.noEvents))
  | some .importWorld, [world, limits] =>
    some (.importWorld world limits (option? d.after .output))
  | _, _ => none

/-- The invocation that a draft asks for, once there are no more arguments. -/
def finish (d : Draft) : Except Halted Invocation :=
  match d.helping, command? d, d.pending with
  | some about, _, _ => .error (.help about)
  | none, some command, none =>
    .ok
      { command
        logLevel := option? (d.after ++ d.before) .logLevel
        debugFilter := option? (d.after ++ d.before) .debugFilter }
  | none, _, _ => .error .refused

end Arguments

/-- What the arguments of the command line ask for. -/
def Invocation.ofArguments (args : List String) : Except Halted Invocation :=
  (args.foldlM Arguments.take {}).bind Arguments.finish

end GridRobot
