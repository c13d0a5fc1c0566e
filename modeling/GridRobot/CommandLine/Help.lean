import GridRobot.CommandLine.Arguments

/-!
# Help on the command line

Help on a command says what it does, how it is called, and what its files and options are for. An
option stands on a line of its own and its purpose on the next. Help in full sets the options apart and
explains the values of an option one by one.
-/

set_option autoImplicit false

namespace GridRobot

namespace HelpTopic

/-- An option, its purpose, and the values it can have if they are few. -/
structure Entry where
  name : String
  purpose : String
  usual : Option String := none
  values : List (String × String) := []

/-- What stands before the purpose of an option. -/
def indent : String := "          "

/-- A name and as many spaces as make it as long as the longest of some names. -/
def aligned (names : List String) (name : String) : String :=
  let width := (names.map String.length).foldl max 0
  name ++ String.ofList (List.replicate (width - name.length) ' ')

/-- The lines of an option in full help. -/
def Entry.fullLines (e : Entry) : List String :=
  let usual :=
    match e.usual with
    | some v => [indent, indent ++ "[default: " ++ v ++ "]"]
    | none => []
  let values :=
    if e.values.isEmpty then []
    else
      ["", indent ++ "Possible values:"] ++
        e.values.map fun (v, meaning) =>
          indent ++ "- " ++ aligned (e.values.map fun p => p.1 ++ ": ") (v ++ ": ") ++ meaning
  [e.name, indent ++ e.purpose] ++ usual ++ values

/-- The lines of an option in short help. -/
def Entry.shortLines (e : Entry) : List String :=
  let usual :=
    match e.usual with
    | some v => " [default: " ++ v ++ "]"
    | none => ""
  let values :=
    if e.values.isEmpty then ""
    else " [possible values: " ++ ", ".intercalate (e.values.map (·.1)) ++ "]"
  [e.name, indent ++ e.purpose ++ usual ++ values]

/-- Choosing the topics of the log. -/
def debugFilter : Entry where
  name := "      --debug-filter <DEBUG_FILTER>"
  purpose :=
    "Debug filter to specify log topics (e.g., \"vm,world,instructions\") " ++
      "Available topics: vm, world, instructions"

/-- Choosing the level of the log. -/
def logLevel : Entry where
  name := "      --log-level <LOG_LEVEL>"
  purpose := "Log level (off, error, warn, info, debug, trace)"

/-- Choosing the world of a run. -/
def world : Entry where
  name := "      --world <WORLD>"
  purpose := "World document; read from stdin when omitted"

/-- Choosing what is printed at the end of a run. -/
def dump : Entry where
  name := "      --dump <DUMP>"
  purpose := "What to print when the run ends"
  usual := some "result"
  values := [("world", "The world as the program left it"), ("result", "The outcome report")]

/-- Running without notifications. -/
def noEvents : Entry where
  name := "      --no-events"
  purpose := "Suppress call/return notifications"

/-- Choosing the file for a document. -/
def output : Entry where
  name := "  -o, --output <OUTPUT>"
  purpose := "Output file; stdout when omitted"

/-- Asking for help, with a remark on the other form of help if there is one. -/
def helpEntry (remark : String) : Entry where
  name := "  -h, --help"
  purpose := "Print help" ++ remark

/-- Asking for the version. -/
def version : Entry where
  name := "  -V, --version"
  purpose := "Print version"

/-- What a command is for, in the order in which the commands are listed. -/
def commands : List (String × String) :=
  [("run", "Run a compiled program and print the outcome. Exits with the fault code"),
    ("import", "Convert a legacy .mdo/.kec pair into a world document"),
    ("help", "Print this message or the help of the given subcommand(s)")]

/-- What the command of a name is for. -/
def purposeOf (name : String) : List String :=
  ((commands.find? fun c => c.1 = name).map fun c => [c.2, ""]).getD []

/-- The options of short help. -/
def shortOptions (entries : List Entry) : List String :=
  ["", "Options:"] ++ entries.flatMap Entry.shortLines

/-- The options of full help. -/
def fullOptions (entries : List Entry) : List String :=
  ["", "Options:"] ++ ((entries.map Entry.fullLines).intersperse [""]).flatten

/-- The options of a run, with a remark on the other form of help. -/
def runOptions (remark : String) : List Entry :=
  [debugFilter, world, dump, logLevel, noEvents, helpEntry remark]

/-- The lines of help on a topic. -/
def lines : HelpTopic → List String
  | overview =>
    ["Usage: karel [OPTIONS] <COMMAND>", "", "Commands:"] ++
      commands.map (fun (name, purpose) =>
        "  " ++ aligned (commands.map (·.1)) name ++ "  " ++ purpose) ++
      shortOptions [debugFilter, logLevel, helpEntry "", version]
  | run true =>
    purposeOf "run" ++
      ["Usage: karel run [OPTIONS] <PROGRAM>", "", "Arguments:", "  <PROGRAM>",
        indent ++ "Compiled program (JSON list of opcode records)"] ++
      fullOptions (runOptions " (see a summary with '-h')")
  | run false =>
    purposeOf "run" ++
      ["Usage: karel run [OPTIONS] <PROGRAM>", "", "Arguments:",
        "  <PROGRAM>  Compiled program (JSON list of opcode records)"] ++
      shortOptions (runOptions " (see more with '--help')")
  | importWorld =>
    purposeOf "import" ++
      ["Usage: karel import [OPTIONS] <MDO> <KEC>", "", "Arguments:", "  <MDO>  ", "  <KEC>  "] ++
      shortOptions [debugFilter, output, logLevel, helpEntry ""]
  | help =>
    purposeOf "help" ++
      ["Usage: karel help [COMMAND]...", "", "Arguments:",
        "  [COMMAND]...  Print help for the subcommand(s)"]

/-- The text of help on a topic. -/
def text (topic : HelpTopic) : String :=
  String.join (topic.lines.map (· ++ "\n"))

end HelpTopic

end GridRobot
