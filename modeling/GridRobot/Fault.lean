/-!
# Faults

A fault ends a run. Each has a number that the command line answers with, words for logs, and a
phrase for the report.
-/

set_option autoImplicit false

namespace GridRobot

/-- Why a run ends before its program does. -/
inductive Fault where
  | wall
  | worldUnderflow
  | bagUnderflow
  | instruction
  | stack
  | invalidOpcode
  deriving DecidableEq, Repr

namespace Fault

/-- The name of a fault. -/
def name : Fault → String
  | wall => "Wall"
  | worldUnderflow => "WorldUnderflow"
  | bagUnderflow => "BagUnderflow"
  | instruction => "Instruction"
  | stack => "Stack"
  | invalidOpcode => "InvalidOpcode"

/-- The number of a fault; a run without fault has the number zero. -/
def code : Fault → Nat
  | instruction => 1
  | wall => 2
  | worldUnderflow => 3
  | bagUnderflow => 4
  | stack => 5
  | invalidOpcode => 6

/-- The words for a fault. -/
def message : Fault → String
  | wall => "Attempted to move through a wall"
  | worldUnderflow => "Attempted to pick a buzzer from an empty cell"
  | bagUnderflow => "Attempted to leave a buzzer with an empty bag"
  | instruction => "Instruction limit exceeded"
  | stack => "Call depth limit exceeded"
  | invalidOpcode => "Invalid opcode"

/-- The phrase that reports how a run ended. -/
def phrase : Option Fault → String
  | none => "FIN PROGRAMA"
  | some wall => "MOVIMIENTO INVALIDO"
  | some worldUnderflow => "ZUMBADOR INVALIDO"
  | some bagUnderflow => "ZUMBADOR INVALIDO"
  | some instruction => "LIMITE DE INSTRUCCIONES"
  | some stack => "STACK OVERFLOW"
  | some invalidOpcode => "INSTRUCCION INVALIDA"

end Fault

end GridRobot
