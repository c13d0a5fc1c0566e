import GridRobot.Action

/-!
# Limits of worlds and of runs

A run may execute a number of instructions that consume budget, may nest a number of calls, and may
repeat each action a number of times.
-/

set_option autoImplicit false

namespace GridRobot

/-- The longest side of a world. -/
def sideMax : Nat := 10000

/-- Whether a world of this size can be loaded. -/
def acceptsSize (width height : Nat) : Bool :=
  1 ≤ width && width ≤ sideMax && (1 ≤ height && height ≤ sideMax)

/-- The side nearest to `n` that a world can have. -/
def clampSide (n : Nat) : Nat :=
  max 1 (min n sideMax)

/-- The name of a world that has none. -/
def defaultWorldName : String := "mundo_0"

/-- The name of a program that has none. -/
def defaultProgramName : String := "p1"

/-- The limits of a run. -/
structure Limits where
  maxInstructions : UInt64 := 10000000
  maxCallDepth : UInt32 := 65000
  caps : PerAction (Option UInt64) := .const none
  deriving DecidableEq, Repr

/-- The words a call leaves on the stack besides its operands. -/
def frameWords : Nat := 4

/-- The operands that each level of calls may hold. -/
def frameOperands : Nat := 64

/-- The words kept free beyond the frames. -/
def stackHeadroom : Nat := 1024

/-- The number of words a stack holds when calls may nest `depth` times. -/
def stackCapacity (depth : UInt32) : Nat :=
  (depth.toNat + 1) * (frameWords + frameOperands) + stackHeadroom

end GridRobot
