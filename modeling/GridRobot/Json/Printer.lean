import GridRobot.Json.Number

/-!
# Writing JSON texts

`Json.compact` writes a value without blanks. `Json.pretty` writes each item and member on a line of
its own, indented by two blanks a level, with a blank after the colon; empty lists and objects stay
closed. Members are written in the order they have.

In a string, the quote, the backslash and the control characters are escaped, and nothing else.
-/

set_option autoImplicit false

namespace GridRobot.Json

/-- A hexadecimal digit. -/
def hexDigit (n : Nat) : Char :=
  if n < 10 then Char.ofNat ('0'.toNat + n) else Char.ofNat ('a'.toNat + (n - 10))

/-- A character as a string literal writes it. -/
def escapeChar (c : Char) : List Char :=
  if c = '"' then ['\\', '"']
  else if c = '\\' then ['\\', '\\']
  else if c = '\x08' then ['\\', 'b']
  else if c = '\x0c' then ['\\', 'f']
  else if c = '\n' then ['\\', 'n']
  else if c = '\r' then ['\\', 'r']
  else if c = '\t' then ['\\', 't']
  else if c.toNat < 0x20 then
    ['\\', 'u', '0', '0', hexDigit (c.toNat / 16), hexDigit (c.toNat % 16)]
  else [c]

/-- A string literal that names the given text. -/
def quote (s : String) : List Char :=
  '"' :: s.toList.flatMap escapeChar ++ ['"']

/-- A string literal. One that names no text is written as an empty one. -/
def literalText (s : Literal) : List Char :=
  quote (s.getD "")

/-- A truth value. -/
def boolText (b : Bool) : List Char :=
  if b then "true".toList else "false".toList

mutual

/-- A value without blanks. -/
def compactChars : Json → List Char
  | .null => "null".toList
  | .bool b => boolText b
  | .number n => n.render
  | .string s => literalText s
  | .array items => '[' :: compactItems items
  | .object members => '\x7b' :: compactMembers members

/-- The items of a list and its end. -/
def compactItems : List Json → List Char
  | [] => [']']
  | [x] => x.compactChars ++ [']']
  | x :: y :: rest => x.compactChars ++ ',' :: compactItems (y :: rest)

/-- The members of an object and its end. -/
def compactMembers : List (Literal × Json) → List Char
  | [] => ['\x7d']
  | [(name, x)] => literalText name ++ ':' :: x.compactChars ++ ['\x7d']
  | (name, x) :: m :: rest =>
    literalText name ++ ':' :: x.compactChars ++ ',' :: compactMembers (m :: rest)

end

/-- A new line at the given level. -/
def newLine (level : Nat) : List Char :=
  '\n' :: List.replicate (2 * level) ' '

mutual

/-- A value whose first line is at the given level. -/
def prettyChars (level : Nat) : Json → List Char
  | .null => "null".toList
  | .bool b => boolText b
  | .number n => n.render
  | .string s => literalText s
  | .array [] => ['[', ']']
  | .array (x :: rest) => '[' :: prettyItems level (x :: rest)
  | .object [] => ['\x7b', '\x7d']
  | .object (m :: rest) => '\x7b' :: prettyMembers level (m :: rest)

/-- The items of a list at the given level, each on a new line, and its end. -/
def prettyItems (level : Nat) : List Json → List Char
  | [] => newLine level ++ [']']
  | [x] => newLine (level + 1) ++ (prettyChars (level + 1) x ++ (newLine level ++ [']']))
  | x :: y :: rest =>
    newLine (level + 1) ++ (prettyChars (level + 1) x ++ ',' :: prettyItems level (y :: rest))

/-- The members of an object at the given level, each on a new line, and its end. -/
def prettyMembers (level : Nat) : List (Literal × Json) → List Char
  | [] => newLine level ++ ['\x7d']
  | [(name, x)] =>
    newLine (level + 1) ++ (literalText name ++
      ':' :: ' ' :: (prettyChars (level + 1) x ++ (newLine level ++ ['\x7d'])))
  | (name, x) :: m :: rest =>
    newLine (level + 1) ++ (literalText name ++
      ':' :: ' ' :: (prettyChars (level + 1) x ++ ',' :: prettyMembers level (m :: rest)))

end

/-- A value without blanks. -/
def compact (j : Json) : String :=
  String.ofList j.compactChars

/-- A value laid out on lines. -/
def pretty (j : Json) : String :=
  String.ofList (prettyChars 0 j)

end GridRobot.Json
