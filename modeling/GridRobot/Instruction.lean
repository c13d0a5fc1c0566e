import GridRobot.Action
import GridRobot.Fault

/-!
# Instructions of the machine

Operands are machine words: stack words and relative jumps have 32 bits with a sign, parameters are
selected by an unsigned word, and a call names its target by an absolute 64-bit address.
-/

set_option autoImplicit false

namespace GridRobot

/-- What a program asserts with a test for zero. -/
inductive Condition where
  | wall
  | worldUnderflow
  | bagUnderflow
  deriving DecidableEq, Repr

namespace Condition

/-- The name of a condition. -/
def mnemonic : Condition → String
  | wall => "WALL"
  | worldUnderflow => "WORLDUNDERFLOW"
  | bagUnderflow => "BAGUNDERFLOW"

/-- The condition with the given name. -/
def ofMnemonic? : String → Option Condition
  | "WALL" => some wall
  | "WORLDUNDERFLOW" => some worldUnderflow
  | "BAGUNDERFLOW" => some bagUnderflow
  | _ => none

/-- The name of a condition is read back. -/
@[simp] theorem ofMnemonic?_mnemonic (c : Condition) : ofMnemonic? c.mnemonic = some c := by
  cases c <;> rfl

/-- The fault that a failed assertion raises. -/
def fault : Condition → Fault
  | wall => .wall
  | worldUnderflow => .worldUnderflow
  | bagUnderflow => .bagUnderflow

end Condition

/-- An instruction. -/
inductive Instruction where
  | halt
  | line (n : Int32)
  | left
  | forward
  | pickBuzzer
  | leaveBuzzer
  | worldWalls
  | orientation
  | worldBuzzers
  | bagBuzzers
  | rotl
  | rotr
  | mask
  | not
  | and
  | or
  | eq
  | ez (condition : Condition)
  | jz (offset : Int32)
  | jmp (offset : Int32)
  | load (word : Int32)
  | pop
  | dup
  | dec
  | inc
  /-- Calls the function numbered `function` at the address `target`. -/
  | call (target : UInt64) (function : Nat)
  | ret
  | param (k : UInt32)
  /-- An instruction that the machine does not know. -/
  | unknown (name : String)
  deriving DecidableEq, Repr

namespace Instruction

/-- The name of an instruction. -/
def mnemonic : Instruction → String
  | halt => "HALT"
  | line _ => "LINE"
  | left => "LEFT"
  | forward => "FORWARD"
  | pickBuzzer => "PICKBUZZER"
  | leaveBuzzer => "LEAVEBUZZER"
  | worldWalls => "WORLDWALLS"
  | orientation => "ORIENTATION"
  | worldBuzzers => "WORLDBUZZERS"
  | bagBuzzers => "BAGBUZZERS"
  | rotl => "ROTL"
  | rotr => "ROTR"
  | mask => "MASK"
  | not => "NOT"
  | and => "AND"
  | or => "OR"
  | eq => "EQ"
  | ez _ => "EZ"
  | jz _ => "JZ"
  | jmp _ => "JMP"
  | load _ => "LOAD"
  | pop => "POP"
  | dup => "DUP"
  | dec => "DEC"
  | inc => "INC"
  | call _ _ => "CALL"
  | ret => "RET"
  | param _ => "PARAM"
  | unknown name => name

/-- Whether an instruction counts against the instruction limit. -/
def consumesBudget : Instruction → Bool
  | left | forward | pickBuzzer | leaveBuzzer => true
  | jz _ | jmp _ | call _ _ => true
  | _ => false

/-- The action that an instruction performs, if any. -/
def action? : Instruction → Option Action
  | forward => some .forward
  | left => some .left
  | pickBuzzer => some .pickBuzzer
  | leaveBuzzer => some .leaveBuzzer
  | _ => none

/-- The operands of an instruction as a listing shows them. -/
def operandText : Instruction → String
  | line n | jz n | jmp n | load n => s!" {n.toInt}"
  | param k => s!" {k.toNat}"
  | ez condition => " " ++ condition.mnemonic
  | call target function => s!" {target.toNat} #{function}"
  | _ => ""

/-- An instruction as a listing shows it. -/
def text (i : Instruction) : String :=
  i.mnemonic ++ i.operandText

end Instruction

end GridRobot
