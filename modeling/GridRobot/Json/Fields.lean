import GridRobot.Json.Number

/-!
# Typed reading of JSON values

A record is written either as an object, whose unknown members are skipped and whose known members
may not repeat, or as the list of its fields in their declared order, where fields at the end may be
missing. `Json.fields` brings both forms to one: for each declared field the value given for it, if
any. `required`, `withDefault` and `optional` say what a missing field means.

A token of an enumeration is written either as a text or as an object whose only member bears the
token as its name and has no value.
-/

set_option autoImplicit false

namespace GridRobot.Json

/-- The value given for a field by the members of an object; a field given twice is refused. -/
def member? (members : List (Literal × Json)) (name : String) : Option (Option Json) :=
  match members.filter (fun m => m.1 = some name) with
  | [] => some none
  | [(_, value)] => some (some value)
  | _ => none

/-- For each declared field, the value that a record gives for it. -/
def fields (names : List String) : Json → Option (List (Option Json))
  | .object members =>
    if members.all (fun m => m.1.isSome) then names.mapM (member? members) else none
  | .array items =>
    if items.length ≤ names.length then
      some (items.map some ++ List.replicate (names.length - items.length) none)
    else none
  | _ => none

section Presence

variable {α : Type}

/-- A field that must be given. -/
def required (read : Json → Option α) : Option Json → Option α
  | none => none
  | some j => read j

/-- A field that has the value `a` when it is not given. -/
def withDefault (a : α) (read : Json → Option α) : Option Json → Option α
  | none => some a
  | some j => read j

/-- A field that may be missing or null. -/
def optional (read : Json → Option α) : Option Json → Option (Option α)
  | none => some none
  | some .null => some none
  | some j => (read j).map some

/-- A list. -/
def list (read : Json → Option α) : Json → Option (List α)
  | .array items => items.mapM read
  | _ => none

end Presence

/-- A truth value. -/
def asBool? : Json → Option Bool
  | .bool b => some b
  | _ => none

/-- An unsigned 32-bit word. -/
def asUInt32? (j : Json) : Option UInt32 :=
  match j.asInt? with
  | some i => if 0 ≤ i ∧ i < 4294967296 then some (UInt32.ofNat i.toNat) else none
  | none => none

/-- An unsigned 64-bit word. -/
def asUInt64? (j : Json) : Option UInt64 :=
  match j.asInt? with
  | some i => if 0 ≤ i ∧ i < 18446744073709551616 then some (UInt64.ofNat i.toNat) else none
  | none => none

/-- A signed 32-bit word. -/
def asInt32? (j : Json) : Option Int32 :=
  match j.asInt? with
  | some i => if -2147483648 ≤ i ∧ i < 2147483648 then some (Int32.ofInt i) else none
  | none => none

/-- The name of a token. -/
def asToken? : Json → Option String
  | .string s => s
  | .object [(name, .null)] => name
  | _ => none

mutual

/-- Whether every literal names a text and every numeral stands for a number. -/
def isPlain : Json → Bool
  | .number n => n.isFinite
  | .string s => s.isSome
  | .array items => isPlainItems items
  | .object members => isPlainMembers members
  | _ => true

/-- Whether every item is plain. -/
def isPlainItems : List Json → Bool
  | [] => true
  | x :: xs => x.isPlain && isPlainItems xs

/-- Whether every member and its name are plain. -/
def isPlainMembers : List (Literal × Json) → Bool
  | [] => true
  | (name, x) :: xs => name.isSome && x.isPlain && isPlainMembers xs

end

/-- Lists and objects may lie inside one another this many times in a value read for its own sake. -/
def depthMax : Nat := 127

/-- Whether a value may be read for its own sake, as opposed to being skipped. -/
def isReadable (j : Json) : Bool :=
  j.depth ≤ depthMax && j.isPlain

end GridRobot.Json
