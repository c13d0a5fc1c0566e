import GridRobot.Json.Fields

/-!
# Orientations, cells and poses

The four orientations are numbered clockwise from west. The number is the position of the
orientation's bit in a wall mask and the word a program sees when it asks where the robot faces.
Rows count northwards and columns eastwards; coordinates are 32-bit words and wrap around.
-/

set_option autoImplicit false

namespace GridRobot

/-- A side of a cell, or the direction the robot faces. -/
inductive Orientation where
  | west
  | north
  | east
  | south
  deriving DecidableEq, Repr

namespace Orientation

/-- The orientations in the order of their numbers. -/
def all : List Orientation := [west, north, east, south]

/-- The number of an orientation, clockwise from west. -/
def index : Orientation → Nat
  | west => 0
  | north => 1
  | east => 2
  | south => 3

/-- The orientation whose number is congruent to `i` modulo four. -/
def ofIndex (i : Int) : Orientation :=
  match (i % 4).toNat with
  | 0 => west
  | 1 => north
  | 2 => east
  | _ => south

/-- A quarter turn to the left. -/
def left : Orientation → Orientation
  | west => south
  | north => west
  | east => north
  | south => east

/-- Half a turn. -/
def opposite : Orientation → Orientation
  | west => east
  | north => south
  | east => west
  | south => north

/-- The bit that stands for this side in a wall mask. -/
def bit (o : Orientation) : Nat :=
  1 <<< o.index

/-- How the row changes one cell further on. -/
def rowStep : Orientation → Int32
  | north => 1
  | south => -1
  | _ => 0

/-- How the column changes one cell further on. -/
def colStep : Orientation → Int32
  | east => 1
  | west => -1
  | _ => 0

/-- The name of an orientation. -/
def token : Orientation → String
  | west => "WEST"
  | north => "NORTH"
  | east => "EAST"
  | south => "SOUTH"

/-- The orientation with the given name, in either language. -/
def ofToken? : String → Option Orientation
  | "WEST" | "OESTE" => some west
  | "NORTH" | "NORTE" => some north
  | "EAST" | "ESTE" => some east
  | "SOUTH" | "SUR" => some south
  | _ => none

/-- Two half turns lead back. -/
@[simp] theorem opposite_opposite (o : Orientation) : o.opposite.opposite = o := by
  cases o <;> rfl

/-- The name of an orientation is read back. -/
@[simp] theorem ofToken?_token (o : Orientation) : ofToken? o.token = some o := by
  cases o <;> rfl

/-- An orientation in a document. -/
def ofJson? (j : Json) : Option Orientation :=
  j.asToken?.bind ofToken?

/-- An orientation as a document writes it. -/
def toJson (o : Orientation) : Json :=
  .text o.token

end Orientation

/-- A place on the plane of cells; only some places are cells of a world. -/
structure Cell where
  row : Int32
  col : Int32
  deriving DecidableEq, Repr

namespace Cell

/-- The cell at a row and a column counted from one. -/
def ofNat (row col : Nat) : Cell :=
  ⟨Int32.ofNat row, Int32.ofNat col⟩

/-- The cell beyond the given side. -/
def beyond (c : Cell) (side : Orientation) : Cell :=
  ⟨c.row + side.rowStep, c.col + side.colStep⟩

end Cell

/-- Where the robot stands and the direction it faces. -/
structure Pose extends Cell where
  facing : Orientation
  deriving DecidableEq, Repr

namespace Pose

/-- The pose of a robot that nobody has placed. -/
def home : Pose := ⟨⟨1, 1⟩, .north⟩

end Pose

end GridRobot
