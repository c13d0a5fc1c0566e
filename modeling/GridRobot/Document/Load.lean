import GridRobot.Document.Text
import GridRobot.LoadError
import GridRobot.World.Edit

/-!
# Worlds from documents and documents from worlds

Loading refuses a size that no world has, then the first wall that is not a unit segment, then a
robot outside the grid. Piles, walls and marks outside the grid are dropped. Of several entries for
one pile or one action the last counts.

Saving writes every interior wall once, from the cell south or west of it.
-/

set_option autoImplicit false

namespace GridRobot

/-- A document's coordinate as a word; one that does not fit is replaced by a word outside every
grid. -/
def coordinate (n : UInt32) : Int32 :=
  if n.toNat < 2147483648 then Int32.ofNat n.toNat else 2147483646

/-- The distance of two corner coordinates. -/
def cornerDistance (a b : UInt32) : Nat :=
  (a.toNat - b.toNat) + (b.toNat - a.toNat)

namespace Segment

/-- The side of a cell that a segment closes: the south side of the cell north of a horizontal unit
segment, or the west side of the cell east of a vertical one. -/
def side (s : Segment) : Except LoadError (Cell × Orientation) :=
  match s.x2, s.y2 with
  | some x2, none =>
    if cornerDistance s.x1 x2 = 1 then
      .ok (⟨coordinate s.y1 + 1, coordinate (min s.x1 x2) + 1⟩, .south)
    else .error (.invalidWall s)
  | none, some y2 =>
    if cornerDistance s.y1 y2 = 1 then
      .ok (⟨coordinate (min s.y1 y2) + 1, coordinate s.x1 + 1⟩, .west)
    else .error (.invalidWall s)
  | _, _ => .error (.invalidWall s)

end Segment

/-- The limits that a document sets. -/
def Conditions.limits (c : Conditions) : Limits :=
  { maxInstructions := c.instructionsMax
    maxCallDepth := c.stackDepthMax
    caps := c.commands.foldl (fun caps e => caps.set e.action (some e.maxExecutions)) (.const none) }

namespace World

/-- Puts the piles of a document on the grid. -/
def withPiles (w : World) (entries : List PileEntry) : World :=
  entries.foldl (fun w e => w.setPile ⟨coordinate e.y, coordinate e.x⟩ e.count.count) w

/-- Closes the given sides. -/
def withWalls (w : World) (sides : List (Cell × Orientation)) : World :=
  sides.foldl (fun w (c, side) => w.addWall c side) w

/-- Marks the cells of a document. -/
def withMarks (w : World) (entries : List CellEntry) : World :=
  entries.foldl (fun w e => w.setMark ⟨coordinate e.y, coordinate e.x⟩ true) w

/-- Asks for the given parts of the report. -/
def withDumps (w : World) (kinds : List DumpKind) : World :=
  kinds.foldl (fun w k => w.setDump k true) w

/-- The world that a document describes. -/
def ofDocument (d : Document) : Except LoadError World := do
  let width := d.grid.width.toNat
  let height := d.grid.height.toNat
  if !acceptsSize width height then
    throw (.invalidDimensions width height)
  let sides ← d.grid.walls.mapM Segment.side
  let w := { new width height with name := d.grid.name, limits := d.conditions.limits }
  let w := ((w.withPiles d.grid.buzzers).withWalls sides).withMarks d.grid.dumpCells
  let c : Cell := ⟨coordinate d.setup.y, coordinate d.setup.x⟩
  if !w.contains c then
    throw (.invalidCoordinate d.setup.x.toNat d.setup.y.toNat)
  let w := { w with programName := d.setup.name }
  return (((w.moveTo c).rotate d.setup.orientation).setBag d.setup.bag.count).withDumps
    d.setup.dumps

/-- The world that the text of a document describes. -/
def ofText (s : String) : Except LoadError World :=
  match Document.parse s with
  | some d => ofDocument d
  | none => .error .malformed

/-- The pile of a cell as a document lists it, if there is one. -/
def listedPile? (pile : Cell → Int32) (c : Cell) : Option PileEntry :=
  if pile c = 0 then none else some ⟨c.col.toUInt32, c.row.toUInt32, ⟨pile c⟩⟩

/-- The walls north and east of a cell, those on the border left out. -/
def segmentsOf (w : World) (c : Cell) : List Segment :=
  let x := c.col.toUInt32
  let y := c.row.toUInt32
  (if !w.isBorder c .north && (w.mask c).testBit Orientation.north.index then
    [{ x1 := x - 1, y1 := y, x2 := some x }] else []) ++
  (if !w.isBorder c .east && (w.mask c).testBit Orientation.east.index then
    [{ x1 := x, y1 := y - 1, y2 := some y }] else [])

/-- The caps that are set, in the order of the actions. -/
def capEntries (w : World) : List CapEntry :=
  Action.all.filterMap fun a => (w.limits.caps.get a).map fun cap => ⟨a, cap⟩

/-- The document of a world with the given piles, pose and bag. A robot outside the grid is written
at the nearest cell. -/
def snapshot (w : World) (pile : Cell → Int32) (pose : Pose) (bag : Int32) : Document :=
  let pose := clampPose pose w.width w.height
  { conditions :=
      { instructionsMax := w.limits.maxInstructions
        stackDepthMax := w.limits.maxCallDepth
        commands := w.capEntries }
    grid :=
      { name := w.name
        width := UInt64.ofNat w.width
        height := UInt64.ofNat w.height
        buzzers := w.cells.filterMap (listedPile? pile)
        walls := w.cells.flatMap w.segmentsOf
        dumpCells := w.markedCells.map fun c => ⟨c.col.toUInt32, c.row.toUInt32⟩ }
    setup :=
      { name := w.programName
        world := w.name
        x := pose.col.toUInt32
        y := pose.row.toUInt32
        orientation := pose.facing
        bag := ⟨bag⟩
        dumps := w.dumps } }

/-- The document of the baseline. -/
def save (w : World) : Document :=
  w.snapshot w.startPile w.startPose w.startBag

/-- The document of the world as a run has left it. -/
def saveCurrent (w : World) : Document :=
  w.snapshot w.pile w.pose w.bag

end World

end GridRobot
