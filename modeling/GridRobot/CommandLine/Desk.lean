import GridRobot.CommandLine.Host

/-!
# A directory in memory

A desk is a directory without subdirectories, a standard input, and what has been printed and logged.
Commands run on it as they do on a file system: a path may repeat its slashes and stay in the directory
any number of times before it names a file.
-/

set_option autoImplicit false

namespace GridRobot

/-- A directory in memory, with what a command reads and prints. -/
structure Desk where
  /-- The files by name; the first of several entries for a name counts. -/
  files : List (String × ByteArray) := []
  input : ByteArray := .empty
  printed : String := ""
  /-- The lines of the log, latest first. -/
  logged : List String := []

namespace Desk

/-- Why a file in a missing directory, or a missing file, cannot be used. -/
def missing : String := "No such file or directory (os error 2)"

/-- Why nothing can be found beneath a file. -/
def notDirectory : String := "Not a directory (os error 20)"

/-- Why a directory cannot be used as a file. -/
def isDirectory : String := "Is a directory (os error 21)"

/-- What a path leads to, seen from the directory. -/
inductive Place where
  /-- The file of a name. -/
  | file (name : String)
  /-- The directory of a name, which a slash at the end of the path calls for. -/
  | folder (name : String)
  /-- Something in the directory of a name. -/
  | beneath (name : String)
  /-- The directory itself or one above it. -/
  | directory
  /-- Something elsewhere. -/
  | outside
  deriving DecidableEq, Repr

/-- The parts of a path between its slashes. -/
def parts : List Char → List (List Char)
  | [] => [[]]
  | '/' :: rest => [] :: parts rest
  | c :: rest =>
    match parts rest with
    | [] => [[c]]
    | part :: more => (c :: part) :: more

/-- Whether a part of a path stays where it is. -/
def stays (part : List Char) : Bool :=
  part = [] || part = ['.']

/-- Whether a part of a path stays where it is or goes up. -/
def staysOrRises (part : List Char) : Bool :=
  stays part || part = ['.', '.']

/-- What a path leads to. An empty path leads nowhere; nothing outside the directory is known by
name. -/
def place (path : String) : Place :=
  match path.toList with
  | [] => .outside
  | c :: cs =>
    let way := parts (c :: cs)
    if way.all staysOrRises then .directory
    else if c = '/' then .outside
    else
      match way.dropWhile stays with
      | [] => .directory
      | ['.', '.'] :: _ => .outside
      | [name] => .file (String.ofList name)
      | name :: rest =>
        if rest.all (·.isEmpty) then .folder (String.ofList name) else .beneath (String.ofList name)

/-- The content of the file of a name. -/
def find? (d : Desk) (name : String) : Option ByteArray :=
  (d.files.find? fun f => f.1 = name).map (·.2)

/-- Why nothing is found in the directory of a name: there is no such directory, at most a file. -/
def absence (d : Desk) (name : String) : String :=
  if (d.find? name).isSome then notDirectory else missing

/-- The content of the file that a path leads to. -/
def read (d : Desk) (path : String) : Except String ByteArray :=
  match place path with
  | .file name =>
    match d.find? name with
    | some bytes => .ok bytes
    | none => .error missing
  | .folder name => .error (d.absence name)
  | .beneath name => .error (d.absence name)
  | .directory => .error isDirectory
  | .outside => .error missing

/-- Gives the file that a path leads to a content. -/
def write (d : Desk) (path : String) (bytes : ByteArray) : Except String Desk :=
  match place path with
  | .file name => .ok { d with files := (name, bytes) :: d.files }
  | .folder _ => .error isDirectory
  | .beneath name => .error (d.absence name)
  | .directory => .error isDirectory
  | .outside => .error missing

/-- A host that works on a desk. -/
def host : Host (StateM Desk) where
  readFile path := do return (← get).read path
  readInput := do return .ok (← get).input
  writeFile path text := do
    match (← get).write path text.toUTF8 with
    | .ok d =>
      set d
      return .ok ()
    | .error reason => return .error reason
  print text := modify fun d => { d with printed := d.printed ++ text }
  log line := modify fun d => { d with logged := line :: d.logged }

end Desk

end GridRobot
