/-!
# JSON texts as trees

A JSON text is kept as it is written: numbers keep their sign, digits and exponent, members of an
object keep their order and may repeat a name. What a number or a repeated name means is decided by
those who read the tree.

A string literal may escape half of a surrogate pair. Such a literal is well formed as JSON but
names no text, so the content of a literal is an optional string.
-/

set_option autoImplicit false

namespace GridRobot

/-- A number as it is written: sign, whole part, the digits after the point, and the exponent. -/
structure Numeral where
  negative : Bool := false
  whole : Nat
  fraction : List Nat := []
  exponent : Option Int := none
  deriving DecidableEq, Repr

/-- The text a string literal names, or `none` when it escapes half of a surrogate pair. -/
abbrev Literal := Option String

/-- A JSON value. -/
inductive Json where
  | null
  | bool (b : Bool)
  | number (n : Numeral)
  | string (s : Literal)
  | array (items : List Json)
  | object (members : List (Literal × Json))
  deriving Repr

namespace Numeral

/-- The numeral of an integer. -/
def ofInt : Int → Numeral
  | .ofNat n => { whole := n }
  | .negSucc n => { negative := true, whole := n + 1 }

/-- The integer a numeral denotes. A fraction, an exponent or a negative zero denotes none. -/
def toInt? (n : Numeral) : Option Int :=
  match n.fraction, n.exponent with
  | [], none =>
    if n.negative then
      if n.whole = 0 then none else some (-(n.whole : Int))
    else some n.whole
  | _, _ => none

theorem toInt?_ofInt (i : Int) : (ofInt i).toInt? = some i := by
  cases i with
  | ofNat n => rfl
  | negSucc n =>
    show (if n + 1 = 0 then none else some (-((n + 1 : Nat) : Int))) = some (Int.negSucc n)
    rw [if_neg (Nat.succ_ne_zero n)]
    rfl

end Numeral

namespace Json

/-- A text. -/
def text (s : String) : Json := .string (some s)

/-- An integer. -/
def int (i : Int) : Json := .number (.ofInt i)

/-- An object whose members are named in order. -/
def record (members : List (String × Json)) : Json :=
  .object (members.map fun (name, value) => (some name, value))

/-- The text a value names, if it is a string literal that names one. -/
def asText? : Json → Option String
  | .string s => s
  | _ => none

/-- The integer a value denotes, if it is a number that denotes one. -/
def asInt? : Json → Option Int
  | .number n => n.toInt?
  | _ => none

/-- The items of a list. -/
def asArray? : Json → Option (List Json)
  | .array items => some items
  | _ => none

mutual

/-- The number of lists and objects that lie inside one another. -/
def depth : Json → Nat
  | .array items => depthItems items + 1
  | .object members => depthMembers members + 1
  | _ => 0

/-- The depth of the deepest item. -/
def depthItems : List Json → Nat
  | [] => 0
  | x :: xs => max x.depth (depthItems xs)

/-- The depth of the deepest member. -/
def depthMembers : List (Literal × Json) → Nat
  | [] => 0
  | (_, x) :: xs => max x.depth (depthMembers xs)

end

/-- Sets a member of an object whose members are in the order of their names. -/
def setMember (name : Literal) (value : Json) : List (Literal × Json) → List (Literal × Json)
  | [] => [(name, value)]
  | (other, old) :: rest =>
    if name = other then (name, value) :: rest
    else if name.getD "" < other.getD "" then (name, value) :: (other, old) :: rest
    else (other, old) :: setMember name value rest

mutual

/-- The same value with the members of every object in the order of their names, where the last
of several members with one name counts. -/
def canonical : Json → Json
  | .array items => .array (canonicalItems items)
  | .object members => .object (canonicalMembers members [])
  | other => other

/-- The canonical form of each item. -/
def canonicalItems : List Json → List Json
  | [] => []
  | x :: xs => x.canonical :: canonicalItems xs

/-- Adds the canonical form of each member to those already `sorted`. -/
def canonicalMembers : List (Literal × Json) → List (Literal × Json) → List (Literal × Json)
  | [], sorted => sorted
  | (name, x) :: xs, sorted => canonicalMembers xs (setMember name x.canonical sorted)

end

end Json

end GridRobot
