import GridRobot.World.Basic

/-!
# Changing a world

Edits outside the grid change nothing. Edits of piles, the bag and the robot set both the present
state and the baseline; what the robot does changes the present state only.
-/

set_option autoImplicit false

namespace GridRobot.World

/-- Puts a pile on a cell; a negative number asks for an endless one. -/
def setPile (w : World) (c : Cell) (n : Int32) : World :=
  match w.index? c with
  | none => w
  | some i =>
    { w with
      startPiles := w.startPiles.setIfInBounds i (supply n)
      piles := w.piles.setIfInBounds i (supply n) }

/-- Moves one buzzer from the pile of a cell into the bag, if the pile has any. -/
def pick (w : World) (c : Cell) : World :=
  match w.index? c with
  | none => w
  | some i =>
    if w.piles.getD i 0 = 0 then w
    else { w with piles := w.piles.modify i oneLess, bag := oneMore w.bag }

/-- Moves one buzzer from the bag onto the pile of a cell, if the bag has any. -/
def leave (w : World) (c : Cell) : World :=
  match w.index? c with
  | none => w
  | some i =>
    if w.bag = 0 then w
    else { w with piles := w.piles.modify i oneMore, bag := oneLess w.bag }

/-- Places the robot on a cell. -/
def moveTo (w : World) (c : Cell) : World :=
  { w with
    pose := { w.pose with toCell := c }
    startPose := { w.startPose with toCell := c } }

/-- Turns the robot to face an orientation. -/
def rotate (w : World) (o : Orientation) : World :=
  { w with
    pose := { w.pose with facing := o }
    startPose := { w.startPose with facing := o } }

/-- Fills the bag; a negative number asks for an endless supply. -/
def setBag (w : World) (n : Int32) : World :=
  { w with bag := supply n, startBag := supply n }

/-- The robot turns left. -/
def turnLeft (w : World) : World :=
  { w with pose := { w.pose with facing := w.pose.facing.left } }

/-- The robot moves one cell ahead. Walls are not consulted: programs test for them first. -/
def stepForward (w : World) : World :=
  { w with pose := { w.pose with toCell := w.pose.toCell.beyond w.pose.facing } }

/-- The robot performs an action where it stands. -/
def perform (w : World) : Action → World
  | .forward => w.stepForward
  | .left => w.turnLeft
  | .pickBuzzer => w.pick w.pose.toCell
  | .leaveBuzzer => w.leave w.pose.toCell

/-- Asks for a part of the report, or no longer asks for it. -/
def setDump (w : World) (k : DumpKind) (enabled : Bool) : World :=
  { w with dumps := if enabled then k.select w.dumps else k.unselect w.dumps }

/-- Marks a cell for the buzzer dump, or takes the mark away. -/
def setMark (w : World) (c : Cell) (enabled : Bool) : World :=
  match w.index? c with
  | none => w
  | some i => { w with marks := w.marks.setIfInBounds i enabled }

/-- Caps the number of times an action may be performed, or removes the cap. -/
def setCap (w : World) (a : Action) (cap : Option UInt64) : World :=
  { w with limits := { w.limits with caps := w.limits.caps.set a cap } }

/-- Restores pose, bag and piles to their baselines. -/
def reset (w : World) : World :=
  { w with pose := w.startPose, bag := w.startBag, piles := w.startPiles }

/-- Removes interior walls, piles and marks. -/
def clear (w : World) : World :=
  let empty := bare w.width w.height
  closeBorder
    { w with
      walls := empty.walls
      startPiles := empty.startPiles
      piles := empty.piles
      marks := empty.marks }

/-! ## Resizing -/

/-- The part of a grid's entries that lies in another grid, with `fill` elsewhere. -/
def reframe {α : Type} (entries : Array α) (fill : α) (oldWidth oldHeight width height : Nat) :
    Array α :=
  Array.ofFn fun i : Fin (width * height) =>
    let row := i / width
    let col := i % width
    if row < oldHeight ∧ col < oldWidth then entries.getD (row * oldWidth + col) fill else fill

/-- A mask without the wall on one side. -/
def openSide (mask : Nat) (side : Orientation) : Nat :=
  if mask.testBit side.index then mask ^^^ side.bit else mask

/-- The masks of a grid after its east and north borders have been opened where the grid grows. -/
def openBorder (w : World) (width height : Nat) : Array Nat :=
  w.walls.mapIdx fun i mask =>
    let mask := if i % w.width + 1 = w.width ∧ w.width < width then openSide mask .east else mask
    if i / w.width + 1 = w.height ∧ w.height < height then openSide mask .north else mask

/-- The coordinate nearest to `n` between one and `side`. -/
def clampCoordinate (n : Int32) (side : Nat) : Int32 :=
  max 1 (min n (Int32.ofNat side))

/-- The pose nearest to `p` in a grid. -/
def clampPose (p : Pose) (width height : Nat) : Pose :=
  { p with row := clampCoordinate p.row height, col := clampCoordinate p.col width }

/-- Changes the size of the grid, keeping the walls, piles and marks that still fit. The robot is
brought back into the grid. -/
def resize (w : World) (width height : Nat) : World :=
  let width := clampSide width
  let height := clampSide height
  if width = w.width ∧ height = w.height then w
  else
    closeBorder
      { w with
        width, height
        walls := reframe (w.openBorder width height) 0 w.width w.height width height
        startPiles := reframe w.startPiles 0 w.width w.height width height
        piles := reframe w.piles 0 w.width w.height width height
        marks := reframe w.marks false w.width w.height width height
        pose := clampPose w.pose width height
        startPose := clampPose w.startPose width height }

end GridRobot.World
