import GridRobot.Amount
import GridRobot.Limits
import GridRobot.Orientation

/-!
# World documents

A document describes a world in three sections: the conditions of a run, the grid with its contents,
and the setup of the robot. Cells are given by column `x` and row `y`, counted from one. Walls are
given as unit segments between corners of the lattice, counted from zero.
-/

set_option autoImplicit false

namespace GridRobot

/-- A cap on an action. -/
structure CapEntry where
  action : Action
  maxExecutions : UInt64
  deriving DecidableEq, Repr

/-- The conditions of a run. -/
structure Conditions where
  instructionsMax : UInt64 := 10000000
  stackDepthMax : UInt32 := 65000
  commands : List CapEntry := []
  deriving DecidableEq, Repr

/-- A pile of buzzers on a cell. -/
structure PileEntry where
  x : UInt32
  y : UInt32
  count : Amount
  deriving DecidableEq, Repr

/-- A cell by column and row. -/
structure CellEntry where
  x : UInt32
  y : UInt32
  deriving DecidableEq, Repr

/-- A wall from the corner `(x1, y1)` to the corner with the other `x2` or the other `y2`. The corner
`(x, y)` is the south-west corner of the cell in column `x + 1` and row `y + 1`. -/
structure Segment where
  x1 : UInt32
  y1 : UInt32
  x2 : Option UInt32 := none
  y2 : Option UInt32 := none
  deriving DecidableEq, Repr

/-- The grid and its contents. -/
structure GridSection where
  name : String := defaultWorldName
  width : UInt64
  height : UInt64
  buzzers : List PileEntry := []
  walls : List Segment := []
  dumpCells : List CellEntry := []
  deriving DecidableEq, Repr

/-- The robot, its bag and the report that is asked for. -/
structure SetupSection where
  name : String := defaultProgramName
  world : String := defaultWorldName
  x : UInt32 := 1
  y : UInt32 := 1
  orientation : Orientation := .north
  bag : Amount := ⟨0⟩
  dumps : List DumpKind := []
  deriving DecidableEq, Repr

/-- A description of a world. -/
structure Document where
  conditions : Conditions := {}
  grid : GridSection
  setup : SetupSection := {}
  deriving DecidableEq, Repr

end GridRobot
