import GridRobot.Notice

/-!
# Log lines

A filter lets notices up to a level pass. Topics narrow notices of the two least important levels: a
notice passes if its topic starts with one of those asked for.
-/

set_option autoImplicit false

namespace GridRobot

/-- White space as Unicode defines it. -/
def isWhiteSpace (c : Char) : Bool :=
  let n := c.toNat
  (0x09 ≤ n && n ≤ 0x0D) || n = 0x20 || n = 0x85 || n = 0xA0 || n = 0x1680 ||
    (0x2000 ≤ n && n ≤ 0x200A) || n = 0x2028 || n = 0x2029 || n = 0x202F || n = 0x205F ||
    n = 0x3000

/-- A text without the white space around it. -/
def trimmed (cs : List Char) : List Char :=
  ((cs.dropWhile isWhiteSpace).reverse.dropWhile isWhiteSpace).reverse

/-- The parts of a text between commas. -/
def commaParts : List Char → List (List Char)
  | [] => [[]]
  | c :: rest =>
    if c = ',' then [] :: commaParts rest
    else
      match commaParts rest with
      | part :: parts => (c :: part) :: parts
      | [] => [[c]]

/-- Which notices are logged. -/
structure LogFilter where
  /-- The number of the least important level that passes; zero lets nothing pass. -/
  rank : Nat
  /-- The topics that debugging notices are narrowed to. -/
  topics : Option (List (List Char)) := none
  deriving DecidableEq, Repr

namespace LogFilter

/-- The number of the level with the given name; a name that is not known means warnings. -/
def rankOf (name : String) : Nat :=
  match name.toLower with
  | "off" => 0
  | "error" => Level.error.rank
  | "warn" => Level.warn.rank
  | "info" => Level.info.rank
  | "debug" => Level.debug.rank
  | "trace" => Level.trace.rank
  | _ => Level.warn.rank

/-- The topics that a list separated by commas names. -/
def topicsOf (names : String) : List (List Char) :=
  ((commaParts names.toList).map trimmed).filter fun part => !part.isEmpty

/-- The filter that a level name and a list of topics ask for. -/
def ofOptions (level topics : Option String) : LogFilter :=
  { rank := (level.map rankOf).getD Level.warn.rank
    topics := topics.map topicsOf }

/-- Whether any debugging notice may pass. -/
def debugs (f : LogFilter) : Bool :=
  Level.debug.rank ≤ f.rank

/-- Whether a notice passes. -/
def accepts (f : LogFilter) (n : Notice) : Bool :=
  n.level.rank ≤ f.rank &&
    match f.topics with
    | some topics =>
      n.level.rank < Level.debug.rank ||
        topics.any fun part => part.isPrefixOf n.topic.name.toList
    | none => true

end LogFilter

/-- The name of a level, five characters wide. -/
def Level.label : Level → String
  | error => "ERROR"
  | warn => "WARN "
  | info => "INFO "
  | debug => "DEBUG"
  | trace => "TRACE"

/-- The terminal's number for the colour of a level. -/
def Level.colour : Level → String
  | error => "31"
  | warn => "33"
  | info => "32"
  | debug => "36"
  | trace => "35"

/-- A notice as a line of the log. Where it comes from is written when it differs from the topic. -/
def Notice.line (n : Notice) : String :=
  let origin := if n.origin = n.topic.name then "" else " [" ++ n.origin ++ "]"
  "\x1b[" ++ n.level.colour ++ "m" ++ n.level.label ++ "\x1b[0m " ++ n.topic.name ++ ": " ++
    n.message ++ origin

end GridRobot
