import GridRobot.Amount
import GridRobot.Limits
import GridRobot.Orientation

/-!
# Worlds

A world is a grid of cells. Each cell has a mask of the walls on its sides and a pile of buzzers, and
may be marked for the buzzer dump. Cells are stored row by row from the south-west corner; the walls,
piles and marks of a world have one entry for each cell.

Piles, the bag and the robot's pose exist twice: as a run has left them, and as the baseline that a
reset restores.
-/

set_option autoImplicit false

namespace GridRobot

/-- A grid of cells with its walls, piles and robot. -/
structure World where
  width : Nat
  height : Nat
  name : String := defaultWorldName
  programName : String := defaultProgramName
  /-- The wall mask of each cell. -/
  walls : Array Nat
  /-- The pile of each cell, as a reset restores it. -/
  startPiles : Array Int32
  /-- The pile of each cell now. -/
  piles : Array Int32
  /-- Whether each cell is marked for the buzzer dump. -/
  marks : Array Bool
  /-- The parts of the report that are asked for. -/
  dumps : List DumpKind := []
  pose : Pose := .home
  startPose : Pose := .home
  bag : Int32 := 0
  startBag : Int32 := 0
  limits : Limits := {}
  deriving DecidableEq, Repr

/-- The cells of a grid, row by row from the south-west corner. -/
def gridCells (width height : Nat) : List Cell :=
  (List.range height).flatMap fun row =>
    (List.range width).map fun col => Cell.ofNat (row + 1) (col + 1)

/-- The sides of a grid's cells that lie on its border. -/
def borderSides (width height : Nat) : List (Cell × Orientation) :=
  ((List.range width).flatMap fun col =>
    [(Cell.ofNat 1 (col + 1), .south), (Cell.ofNat height (col + 1), .north)]) ++
  ((List.range height).flatMap fun row =>
    [(Cell.ofNat (row + 1) 1, .west), (Cell.ofNat (row + 1) width, .east)])

/-- The place of a cell among those of a grid, if it is one of them. -/
def gridIndex? (width height : Nat) (c : Cell) : Option Nat :=
  if 1 ≤ c.row.toInt ∧ c.row.toInt ≤ height ∧ 1 ≤ c.col.toInt ∧ c.col.toInt ≤ width then
    some ((c.row.toInt - 1).toNat * width + (c.col.toInt - 1).toNat)
  else none

/-- A place in a grid is one of as many as there are cells. -/
theorem gridIndex?_lt {width height i : Nat} {c : Cell} (h : gridIndex? width height c = some i) :
    i < width * height := by
  unfold gridIndex? at h
  split at h
  · rename_i hc
    have hrow : (c.row.toInt - 1).toNat + 1 ≤ height := by omega
    have hcol : (c.col.toInt - 1).toNat < width := by omega
    obtain rfl := Option.some.inj h
    calc (c.row.toInt - 1).toNat * width + (c.col.toInt - 1).toNat
        < (c.row.toInt - 1).toNat * width + width := Nat.add_lt_add_left hcol _
      _ = ((c.row.toInt - 1).toNat + 1) * width := (Nat.succ_mul _ _).symm
      _ ≤ height * width := Nat.mul_le_mul_right width hrow
      _ = width * height := Nat.mul_comm _ _
  · exact absurd h (by simp)

namespace World

/-- The place of a cell's entries, if the cell lies in the grid. -/
def index? (w : World) (c : Cell) : Option Nat :=
  gridIndex? w.width w.height c

/-- Whether a cell lies in the grid. -/
def contains (w : World) (c : Cell) : Bool :=
  (w.index? c).isSome

/-- The wall mask of a cell; outside the grid there are no walls. -/
def mask (w : World) (c : Cell) : Nat :=
  match w.index? c with
  | some i => w.walls.getD i 0
  | none => 0

/-- The pile of a cell now; outside the grid there are no buzzers. -/
def pile (w : World) (c : Cell) : Int32 :=
  match w.index? c with
  | some i => w.piles.getD i 0
  | none => 0

/-- The pile of a cell as a reset restores it. -/
def startPile (w : World) (c : Cell) : Int32 :=
  match w.index? c with
  | some i => w.startPiles.getD i 0
  | none => 0

/-- Whether a cell is marked for the buzzer dump. -/
def isMarked (w : World) (c : Cell) : Bool :=
  match w.index? c with
  | some i => w.marks.getD i false
  | none => false

/-- The cells of the grid, row by row. -/
def cells (w : World) : List Cell :=
  gridCells w.width w.height

/-- The marked cells, row by row. -/
def markedCells (w : World) : List Cell :=
  w.cells.filter w.isMarked

/-- Whether a side lies in line with the border on that side of the grid. -/
def isBorder (w : World) (c : Cell) : Orientation → Bool
  | .west => c.col = 1
  | .north => c.row.toInt = w.height
  | .east => c.col.toInt = w.width
  | .south => c.row = 1

/-- The place of the cell that shares a side, unless the side lies on the border. -/
def neighborIndex? (w : World) (c : Cell) (side : Orientation) : Option Nat :=
  if w.isBorder c side then none else w.index? (c.beyond side)

/-- Whether a part of the report is asked for. -/
def hasDump (w : World) (k : DumpKind) : Bool :=
  w.dumps.contains k

/-- Closes a side of a cell, on both cells that share it. -/
def addWall (w : World) (c : Cell) (side : Orientation) : World :=
  match w.index? c with
  | none => w
  | some i =>
    match w.neighborIndex? c side with
    | some j =>
      { w with
        walls := (w.walls.modify i (· ||| side.bit)).modify j (· ||| side.opposite.bit) }
    | none => { w with walls := w.walls.modify i (· ||| side.bit) }

/-- Flips a side of a cell, on both cells that share it. A border side stays closed. -/
def toggleWall (w : World) (c : Cell) (side : Orientation) : World :=
  match w.index? c, w.neighborIndex? c side with
  | some i, some j =>
    { w with walls := (w.walls.modify i (· ^^^ side.bit)).modify j (· ^^^ side.opposite.bit) }
  | _, _ => w

/-- Closes the border. -/
def closeBorder (w : World) : World :=
  (borderSides w.width w.height).foldl (fun w (c, side) => w.addWall c side) w

/-- A grid without walls, piles and marks. -/
def bare (width height : Nat) : World :=
  { width, height
    walls := Array.replicate (width * height) 0
    startPiles := Array.replicate (width * height) 0
    piles := Array.replicate (width * height) 0
    marks := Array.replicate (width * height) false }

/-- An empty world inside its border, of the nearest size that a world can have. -/
def new (width height : Nat) : World :=
  (bare (clampSide width) (clampSide height)).closeBorder

/-- The world of a session that is given none. -/
def default : World := new 100 100

end World

end GridRobot
