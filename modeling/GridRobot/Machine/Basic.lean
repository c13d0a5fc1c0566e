import GridRobot.Instruction
import GridRobot.Limits
import GridRobot.Machine.Stack
import GridRobot.World.Edit

/-!
# The state of the machine

The machine executes a program against a world. Calls keep their frames on the same stack as the
operands: a frame holds the frame and the stack height of the caller, the address to return to, and
the parameter, in this order from the bottom.

A `Scene` is all that an instruction can see and change: the machine, the world, and the queue of
events that have not been delivered.
-/

set_option autoImplicit false

namespace GridRobot

/-- The state of a machine. -/
structure Machine where
  /-- The address of the next instruction. -/
  pc : Nat := 0
  /-- The position of the active frame on the stack. -/
  fp : Option Nat := none
  /-- The source line that was entered last. -/
  line : Int32 := 0
  stack : Stack
  /-- The number of open calls. -/
  callDepth : Nat := 0
  /-- The number of executed instructions that consume budget. -/
  instructionCount : Nat := 0
  /-- How often each action was performed. -/
  counters : PerAction Nat := .const 0
  running : Bool := true
  fault : Option Fault := none
  deriving DecidableEq

namespace Machine

/-- The machine before a run under the given limits. -/
def fresh (limits : Limits) : Machine :=
  { stack := .empty (stackCapacity limits.maxCallDepth) }

/-- Ends the run. -/
def halt (m : Machine) : Machine :=
  { m with running := false }

/-- Ends the run with a fault; the first fault of a run is kept. -/
def raise (m : Machine) (f : Fault) : Machine :=
  { m with fault := some (m.fault.getD f), running := false }

/-- The number that the run answers with. -/
def resultCode (m : Machine) : Nat :=
  match m.fault with
  | some f => f.code
  | none => 0

end Machine

/-- What a run tells those who watch it. -/
inductive Event where
  | call (function : Nat) (param : Int32) (line : Int32)
  | ret (line : Int32)
  deriving DecidableEq, Repr

/-- All that an instruction can see and change. -/
structure Scene where
  machine : Machine
  world : World
  /-- The events to be delivered, oldest first. -/
  queue : List Event := []
  deriving DecidableEq

/-- What an instruction leaves behind, and the fault it raises, if any. -/
abbrev Effect := Scene × Option Fault

end GridRobot
