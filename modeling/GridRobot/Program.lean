import GridRobot.Instruction
import GridRobot.Json.Fields
import GridRobot.Json.Printer
import GridRobot.Json.Reader
import Std.Data.HashMap

/-!
# Programs

A program is a list of instructions and a table of the names of its functions. It is written as a
JSON list of records `[mnemonic, operand, ...]`. Each record is judged for its shape, then for the
number of its operands, then operand by operand; the first record found wrong is reported. A mnemonic
that is not known takes any operands.

A call names its function; the table lists the names in the order in which calls first use them. While a
program is read, a map from the names to their numbers is kept beside the list, so that a name is found
without a search; a `NameTable` holds both and the proof that they agree.
-/

set_option autoImplicit false

namespace GridRobot

/-- A program. -/
structure Program where
  code : Array Instruction := #[]
  /-- The name of each function. -/
  names : Array String := #[]
  deriving DecidableEq, Repr

/-- Why a program cannot be read. -/
inductive ProgramError where
  /-- The text is not JSON. -/
  | json
  | notAList
  | malformed (index : Nat)
  | arity (index : Nat) (mnemonic : String) (expected actual : Nat)
  | operand (index : Nat) (mnemonic : String) (value : Json)
  deriving Repr

namespace ProgramError

/-- The words for an error. -/
def message : ProgramError → String
  | json => "malformed program:"
  | notAList => "program must be a list of instructions"
  | malformed index => s!"instruction {index}: expected a non-empty list"
  | arity index mnemonic expected actual =>
    s!"instruction {index}: {mnemonic} takes {expected} operand(s), got {actual}"
  | operand index mnemonic value =>
    s!"instruction {index}: invalid operand {value.canonical.compact} for {mnemonic}"

end ProgramError

/-- The operands that a mnemonic takes. -/
inductive Operands where
  | fixed (i : Instruction)
  | word (make : Int32 → Instruction)
  | slot
  | condition
  | call

namespace Operands

/-- The operands of each known mnemonic. -/
def ofMnemonic? : String → Option Operands
  | "HALT" => some (fixed .halt)
  | "LEFT" => some (fixed .left)
  | "FORWARD" => some (fixed .forward)
  | "PICKBUZZER" => some (fixed .pickBuzzer)
  | "LEAVEBUZZER" => some (fixed .leaveBuzzer)
  | "WORLDWALLS" => some (fixed .worldWalls)
  | "ORIENTATION" => some (fixed .orientation)
  | "WORLDBUZZERS" => some (fixed .worldBuzzers)
  | "BAGBUZZERS" => some (fixed .bagBuzzers)
  | "ROTL" => some (fixed .rotl)
  | "ROTR" => some (fixed .rotr)
  | "MASK" => some (fixed .mask)
  | "NOT" => some (fixed .not)
  | "AND" => some (fixed .and)
  | "OR" => some (fixed .or)
  | "EQ" => some (fixed .eq)
  | "POP" => some (fixed .pop)
  | "DUP" => some (fixed .dup)
  | "DEC" => some (fixed .dec)
  | "INC" => some (fixed .inc)
  | "RET" => some (fixed .ret)
  | "LINE" => some (word .line)
  | "LOAD" => some (word .load)
  | "JZ" => some (word .jz)
  | "JMP" => some (word .jmp)
  | "PARAM" => some slot
  | "EZ" => some condition
  | "CALL" => some call
  | _ => none

/-- How many operands there are. -/
def arity : Operands → Nat
  | fixed _ => 0
  | word _ => 1
  | slot => 1
  | condition => 1
  | call => 2

end Operands

/-- A list of names and a map from names to their places in it tell the same. -/
def NamesAgree (names : Array String) (ids : Std.HashMap String Nat) : Prop :=
  ∀ (name : String) (id : Nat), ids[name]? = some id ↔ names[id]? = some name

theorem namesAgree_empty : NamesAgree #[] ∅ := by
  intro name id
  simp

/-- A new name goes to the end of the list, and the map is given its place there. -/
theorem NamesAgree.push {names : Array String} {ids : Std.HashMap String Nat}
    (h : NamesAgree names ids) {name : String} (hnew : ids[name]? = none) :
    NamesAgree (names.push name) (ids.insert name names.size) := by
  intro other id
  have hlast : ids[other]? ≠ some names.size := by
    rw [Ne, h, Array.getElem?_eq_none (Nat.le_refl _)]
    exact nofun
  have hother : names[id]? ≠ some name := by
    rw [Ne, ← h, hnew]
    exact nofun
  simp only [Std.HashMap.getElem?_insert, Array.getElem?_push, beq_iff_eq]
  by_cases hname : name = other
  · subst hname
    by_cases hid : id = names.size
    · simp [hid]
    · simp [hid, hother, Ne.symm hid]
  · by_cases hid : id = names.size
    · subst hid
      simp [hname, hlast]
    · simp [hname, hid, h other id]

/-- The names of the functions that have been called so far. -/
structure NameTable where
  /-- The names in the order in which they were first called. -/
  names : Array String := #[]
  /-- The number of each name. -/
  ids : Std.HashMap String Nat := ∅
  agree : NamesAgree names ids := by exact namesAgree_empty

/-- The number of a function name, and the table after the name has been looked up. -/
def NameTable.intern (t : NameTable) (name : String) : Nat × NameTable :=
  match h : t.ids[name]? with
  | some id => (id, t)
  | none =>
    (t.names.size,
      { names := t.names.push name
        ids := t.ids.insert name t.names.size
        agree := t.agree.push h })

/-- The slot that the operand of a parameter access selects. -/
def slotOperand? (j : Json) : Option UInt32 :=
  match j.asInt32? with
  | some k => if 0 ≤ k then some k.toUInt32 else none
  | none => none

/-- The condition that the operand of a test names. -/
def conditionOperand? (j : Json) : Option Condition :=
  j.asText?.bind Condition.ofMnemonic?

/-- The instruction that operands of the right number make, or the first operand that is wrong. -/
def Operands.read (shape : Operands) (operands : List Json) (table : NameTable) :
    Except Json (Instruction × NameTable) :=
  match shape, operands with
  | .word make, [a] =>
    match a.asInt32? with
    | some n => .ok (make n, table)
    | none => .error a
  | .slot, [a] =>
    match slotOperand? a with
    | some k => .ok (.param k, table)
    | none => .error a
  | .condition, [a] =>
    match conditionOperand? a with
    | some c => .ok (.ez c, table)
    | none => .error a
  | .call, [a, b] =>
    match a.asUInt64?, b.asText? with
    | some target, some name =>
      let (function, table) := table.intern name
      .ok (.call target function, table)
    | none, _ => .error a
    | some _, none => .error b
  | .fixed i, _ => .ok (i, table)
  | _, _ => .error .null

namespace Program

/-- The instruction of one record, and the table of names after it. -/
def decodeRecord (index : Nat) (table : NameTable) (record : Json) :
    Except ProgramError (Instruction × NameTable) :=
  match record with
  | .array (.string (some mnemonic) :: operands) =>
    match Operands.ofMnemonic? mnemonic with
    | none => .ok (.unknown mnemonic, table)
    | some shape =>
      if operands.length = shape.arity then
        (shape.read operands table).mapError (.operand index mnemonic)
      else .error (.arity index mnemonic shape.arity operands.length)
  | _ => .error (.malformed index)

/-- The program of the instructions read so far, followed by those of the given records. -/
def decodeRecords (code : Array Instruction) (table : NameTable) :
    List Json → Except ProgramError Program
  | [] => .ok { code, names := table.names }
  | record :: rest =>
    match decodeRecord code.size table record with
    | .ok (i, table) => decodeRecords (code.push i) table rest
    | .error e => .error e

/-- The program that a JSON value describes. -/
def ofJson : Json → Except ProgramError Program
  | .array records => decodeRecords #[] {} records
  | _ => .error .notAList

/-- The program that a text describes. -/
def parse (s : String) : Except ProgramError Program :=
  match Json.parse s with
  | some j => if j.isReadable then ofJson j else .error .json
  | none => .error .json

/-- The name of a function. -/
def functionName (p : Program) (id : Nat) : String :=
  p.names.getD id "?"

/-- The operands of an instruction as a record writes them. -/
def operands (p : Program) : Instruction → List Json
  | .line n | .load n | .jz n | .jmp n => [.int n.toInt]
  | .param k => [.int k.toNat]
  | .ez c => [.text c.mnemonic]
  | .call target function => [.int target.toNat, .text (p.functionName function)]
  | _ => []

/-- The record of an instruction. -/
def record (p : Program) (i : Instruction) : Json :=
  .array (.text i.mnemonic :: p.operands i)

/-- The JSON value that describes a program. -/
def toJson (p : Program) : Json :=
  .array (p.code.toList.map p.record)

end Program

end GridRobot
