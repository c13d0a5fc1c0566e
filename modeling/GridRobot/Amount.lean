import GridRobot.Json.Fields
import GridRobot.Json.Reader

/-!
# Amounts of buzzers

The number of buzzers in a pile or in the bag is a 32-bit word, because a program can ask for it; the
word -1 stands for an endless supply. Documents write an endless supply as a token and every other
amount as a number that is not negative.
-/

set_option autoImplicit false

namespace GridRobot

/-- The word that stands for an endless supply. -/
def infinite : Int32 := -1

/-- The largest number of buzzers in a finite pile. -/
def countMax : Int32 := 2147483647

/-- The word kept for a requested number of buzzers: any negative one asks for an endless supply. -/
def supply (n : Int32) : Int32 :=
  if n < 0 then infinite else n

/-- One more buzzer; an endless supply stays as it is, and so does a full pile. -/
def oneMore (n : Int32) : Int32 :=
  if n = infinite ∨ n = countMax then n else n + 1

/-- One buzzer less; an endless supply stays as it is. -/
def oneLess (n : Int32) : Int32 :=
  if n = infinite then n else n - 1

/-- An amount of buzzers in a document. -/
structure Amount where
  count : Int32
  deriving DecidableEq, Repr

namespace Amount

/-- Why a value is not an amount. -/
inductive Refusal where
  | notAnAmount
  | outOfRange (n : UInt32)
  | unknownToken (s : String)
  deriving DecidableEq, Repr

/-- The words for a refusal, if there are any of its own. -/
def Refusal.message? : Refusal → Option String
  | notAnAmount => none
  | outOfRange n => some s!"buzzer count {n.toNat} out of range"
  | unknownToken s => some s!"invalid buzzer amount '{s}'"

/-- Reads an amount: a number of buzzers, or the token of an endless supply in either language. -/
def ofJson : Json → Except Refusal Amount
  | .string (some s) =>
    if s = "INFINITE" ∨ s = "INFINITO" then .ok ⟨infinite⟩ else .error (.unknownToken s)
  | j =>
    match j.asUInt32? with
    | some n => if n.toNat < 2147483648 then .ok ⟨Int32.ofNat n.toNat⟩ else .error (.outOfRange n)
    | none => .error .notAnAmount

/-- An amount in a document. -/
def ofJson? (j : Json) : Option Amount :=
  (ofJson j).toOption

/-- Reads a text that is an amount alone. What follows the value is looked at last. -/
def parse (s : String) : Except Refusal Amount :=
  match Json.value s.toList with
  | none => .error .notAnAmount
  | some (j, rest) =>
    match ofJson j with
    | .ok a => if (Json.skipBlanks rest).isEmpty then .ok a else .error .notAnAmount
    | .error e => .error e

/-- An amount as a document writes it; a negative one that is not endless is written as zero. -/
def toJson (a : Amount) : Json :=
  if a.count = infinite then .text "INFINITE" else .int (max 0 a.count.toInt)

end Amount

end GridRobot
