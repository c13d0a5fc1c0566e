import GridRobot.Json.Basic

/-!
# Reading JSON texts

`Json.parse` accepts the strict grammar: blanks are space, tab, line feed and carriage return; there
are no comments, trailing commas, leading zeros or raw control characters, and nothing may follow
the value. Nesting is not bounded here.

The readers of values, list items and object members take a fuel argument; `Json.value` computes it
from the length of the text, since a reader calls another only after it has consumed a character or
is about to read one of a list just opened.
-/

set_option autoImplicit false

namespace GridRobot.Json

/-- The blanks that may stand between tokens. -/
def isBlank (c : Char) : Bool :=
  c = ' ' || c = '\t' || c = '\n' || c = '\r'

/-- What follows the blanks a text starts with. -/
def skipBlanks (cs : List Char) : List Char :=
  cs.dropWhile isBlank

/-! ## Numbers -/

/-- The number that a digit stands for. -/
def digitValue (c : Char) : Nat :=
  c.toNat - '0'.toNat

/-- The digits a text starts with, and what follows them; at least one digit is needed. -/
def digits (cs : List Char) : Option (List Char × List Char) :=
  match cs.takeWhile Char.isDigit with
  | [] => none
  | ds => some (ds, cs.dropWhile Char.isDigit)

/-- The whole part of a number. After a leading zero no digit is taken. -/
def wholePart : List Char → Option (Nat × List Char)
  | '0' :: rest => some (0, rest)
  | cs => (digits cs).map fun (ds, rest) => (Nat.ofDigitChars 10 ds 0, rest)

/-- The digits after the point, if there is a point. -/
def fractionPart : List Char → Option (List Nat × List Char)
  | '.' :: rest => (digits rest).map fun (ds, rest) => (ds.map digitValue, rest)
  | cs => some ([], cs)

/-- The digits of an exponent whose mark and sign have been read. -/
def exponentDigits (negative : Bool) (cs : List Char) : Option (Option Int × List Char) :=
  (digits cs).map fun (ds, rest) =>
    let n : Int := Nat.ofDigitChars 10 ds 0
    (some (if negative then -n else n), rest)

/-- The exponent, if there is one. -/
def exponentPart : List Char → Option (Option Int × List Char)
  | c :: rest =>
    if c = 'e' || c = 'E' then
      match rest with
      | '+' :: rest => exponentDigits false rest
      | '-' :: rest => exponentDigits true rest
      | rest => exponentDigits false rest
    else some (none, c :: rest)
  | [] => some (none, [])

/-- A number without its sign. -/
def unsignedNumeral (negative : Bool) (cs : List Char) : Option (Numeral × List Char) := do
  let (whole, rest) ← wholePart cs
  let (fraction, rest) ← fractionPart rest
  let (exponent, rest) ← exponentPart rest
  return ({ negative, whole, fraction, exponent }, rest)

/-- A number. -/
def numeral : List Char → Option (Numeral × List Char)
  | '-' :: rest => unsignedNumeral true rest
  | cs => unsignedNumeral false cs

/-! ## String literals -/

/-- What one character or escape of a string literal stands for: a character, or half of a
surrogate pair. -/
inductive Piece where
  | char (c : Char)
  | half (unit : Nat)
  deriving DecidableEq, Repr

/-- The value of a hexadecimal digit of either case. -/
def hexValue? (c : Char) : Option Nat :=
  if c.isDigit then some (digitValue c)
  else if 'a' ≤ c ∧ c ≤ 'f' then some (c.toNat - 'a'.toNat + 10)
  else if 'A' ≤ c ∧ c ≤ 'F' then some (c.toNat - 'A'.toNat + 10)
  else none

/-- The piece that four hexadecimal digits stand for. -/
def unitPiece? (a b c d : Char) : Option Piece := do
  let unit := (← hexValue? a) * 4096 + (← hexValue? b) * 256 + (← hexValue? c) * 16 + (← hexValue? d)
  return if 0xD800 ≤ unit ∧ unit ≤ 0xDFFF then .half unit else .char (Char.ofNat unit)

/-- The character that a backslash and `c` stand for. -/
def escape? (c : Char) : Option Char :=
  match c with
  | '"' => some '"'
  | '\\' => some '\\'
  | '/' => some '/'
  | 'b' => some '\x08'
  | 'f' => some '\x0c'
  | 'n' => some '\n'
  | 'r' => some '\r'
  | 't' => some '\t'
  | _ => none

/-- The pieces of a literal up to its closing quote, and what follows the quote. The pieces read
before are in `done`, last first. -/
def pieces : List Char → List Piece → Option (List Piece × List Char)
  | [], _ => none
  | '"' :: rest, done => some (done.reverse, rest)
  | '\\' :: 'u' :: a :: b :: c :: d :: rest, done =>
    match unitPiece? a b c d with
    | some piece => pieces rest (piece :: done)
    | none => none
  | '\\' :: c :: rest, done =>
    match escape? c with
    | some c => pieces rest (.char c :: done)
    | none => none
  | c :: rest, done =>
    if c.toNat < 0x20 || c = '\\' then none else pieces rest (.char c :: done)

/-- Joins halves of surrogate pairs into characters; fails on a half without its partner. -/
def joinPieces : List Piece → Option (List Char)
  | [] => some []
  | .char c :: rest => (joinPieces rest).map (c :: ·)
  | .half high :: .half low :: rest =>
    if high < 0xDC00 ∧ 0xDC00 ≤ low then
      (joinPieces rest).map (Char.ofNat (0x10000 + (high - 0xD800) * 0x400 + (low - 0xDC00)) :: ·)
    else none
  | .half _ :: _ => none

/-- A string literal whose opening quote has been read. -/
def literal (cs : List Char) : Option (Literal × List Char) :=
  (pieces cs []).map fun (ps, rest) => ((joinPieces ps).map String.ofList, rest)

/-! ## Values -/

/-- The rest of a text that starts with `word`. -/
def afterWord (word : String) (cs : List Char) : Option (List Char) :=
  word.toList.isPrefixOf? cs

mutual

/-- A value, and what follows it. -/
def valueWith : Nat → List Char → Option (Json × List Char)
  | 0, _ => none
  | fuel + 1, cs =>
    match skipBlanks cs with
    | 'n' :: rest => (afterWord "ull" rest).map (.null, ·)
    | 't' :: rest => (afterWord "rue" rest).map (.bool true, ·)
    | 'f' :: rest => (afterWord "alse" rest).map (.bool false, ·)
    | '"' :: rest => (literal rest).map fun (s, rest) => (.string s, rest)
    | '[' :: rest =>
      match skipBlanks rest with
      | ']' :: rest => some (.array [], rest)
      | rest => itemsWith fuel rest []
    | '{' :: rest =>
      match skipBlanks rest with
      | '}' :: rest => some (.object [], rest)
      | rest => membersWith fuel rest []
    | cs => (numeral cs).map fun (n, rest) => (.number n, rest)

/-- The items of a list that has been opened, up to its end; at least one item is needed. Those
read before are in `done`, last first. -/
def itemsWith : Nat → List Char → List Json → Option (Json × List Char)
  | 0, _, _ => none
  | fuel + 1, cs, done =>
    match valueWith fuel cs with
    | none => none
    | some (value, rest) =>
      match skipBlanks rest with
      | ',' :: rest => itemsWith fuel rest (value :: done)
      | ']' :: rest => some (.array (value :: done).reverse, rest)
      | _ => none

/-- The members of an object that has been opened, up to its end; at least one member is needed.
Those read before are in `done`, last first. -/
def membersWith : Nat → List Char → List (Literal × Json) → Option (Json × List Char)
  | 0, _, _ => none
  | fuel + 1, cs, done =>
    match skipBlanks cs with
    | '"' :: rest =>
      match literal rest with
      | none => none
      | some (name, rest) =>
        match skipBlanks rest with
        | ':' :: rest =>
          match valueWith fuel rest with
          | none => none
          | some (value, rest) =>
            match skipBlanks rest with
            | ',' :: rest => membersWith fuel rest ((name, value) :: done)
            | '}' :: rest => some (.object ((name, value) :: done).reverse, rest)
            | _ => none
        | _ => none
    | _ => none

end

/-- A value at the start of a text, and what follows it. -/
def value (cs : List Char) : Option (Json × List Char) :=
  valueWith (2 * cs.length + 2) cs

/-- The value that a whole text denotes. -/
def parse (s : String) : Option Json :=
  match value s.toList with
  | some (j, rest) => if (skipBlanks rest).isEmpty then some j else none
  | none => none

end GridRobot.Json
