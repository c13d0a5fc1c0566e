import GridRobot.LoadError
import GridRobot.World.Edit

/-!
# Legacy worlds

A legacy world is a pair of buffers of 16-bit words. The world buffer starts with a signature and a
header and lists walls and piles in records of three words. The limits buffer holds the limits, the
parts of the report that are asked for, and records of the cells to dump.

The checks run in a fixed order: the lengths of the two buffers, the signature, the size of the grid,
the room for the announced records, the robot's cell, its orientation, and last the room for the
records of dump cells.
-/

set_option autoImplicit false

namespace GridRobot

/-- The two buffers of a legacy world. -/
structure LegacyWorld where
  world : Array UInt16
  limits : Array UInt16
  deriving DecidableEq, Repr

/-- The 16-bit words of a sequence of bytes, low byte first. -/
def pairBytes : List UInt8 → List UInt16
  | low :: high :: rest => (low.toUInt16 + 256 * high.toUInt16) :: pairBytes rest
  | _ => []

/-- The words that a file holds. -/
def wordsOfBytes (bytes : ByteArray) : Except LoadError (Array UInt16) :=
  if bytes.size % 2 = 0 then .ok (pairBytes bytes.toList).toArray
  else .error (.oddLength bytes.size)

namespace LegacyWorld

/-- The words that a world buffer starts with. -/
def signature : List UInt16 := [0x414B, 0x4552, 0x204C, 0x4D4F, 0x2E49]

/-- The shortest world buffer. -/
def worldWordsMin : Nat := 20

/-- The shortest limits buffer. -/
def limitsWordsMin : Nat := 30

/-- Where the records of the world buffer start. -/
def worldRecords : Nat := 15

/-- Where the records of the limits buffer start. -/
def limitsRecords : Nat := 30

/-- A word of the world buffer. -/
def worldWord (l : LegacyWorld) (i : Nat) : UInt16 := l.world.getD i 0

/-- A word of the limits buffer. -/
def limitsWord (l : LegacyWorld) (i : Nat) : UInt16 := l.limits.getD i 0

/-- The width of the grid. -/
def width (l : LegacyWorld) : Nat := (l.worldWord 6).toNat

/-- The height of the grid. -/
def height (l : LegacyWorld) : Nat := (l.worldWord 7).toNat

/-- The number of wall records. -/
def wallCount (l : LegacyWorld) : Nat := (l.worldWord 12).toNat

/-- The number of pile records. -/
def pileCount (l : LegacyWorld) : Nat := (l.worldWord 13).toNat

/-- The number of words that the header of the world buffer announces. -/
def worldWordsNeeded (l : LegacyWorld) : Nat :=
  worldRecords + 3 * (l.wallCount + l.pileCount)

/-- Whether cells to dump are listed. -/
def listsCells (l : LegacyWorld) : Bool := l.limitsWord 27 ≠ 0

/-- The number of words that the header of the limits buffer announces. -/
def limitsWordsNeeded (l : LegacyWorld) : Nat :=
  limitsRecords + 3 * (l.limitsWord 28).toNat

/-- Record `i` of those that start at `start`: column, row, and a third word. -/
def recordAt (words : Array UInt16) (start i : Nat) : UInt16 × UInt16 × UInt16 :=
  (words.getD (start + 3 * i) 0, words.getD (start + 3 * i + 1) 0,
    words.getD (start + 3 * i + 2) 0)

/-- The wall records. -/
def wallRecords (l : LegacyWorld) : List (UInt16 × UInt16 × UInt16) :=
  (List.range l.wallCount).map (recordAt l.world worldRecords)

/-- The pile records. -/
def pileRecords (l : LegacyWorld) : List (UInt16 × UInt16 × UInt16) :=
  (List.range l.pileCount).map (recordAt l.world (worldRecords + 3 * l.wallCount))

/-- The records of cells to dump. -/
def cellRecords (l : LegacyWorld) : List (UInt16 × UInt16 × UInt16) :=
  if l.listsCells then
    (List.range (l.limitsWord 28).toNat).map (recordAt l.limits limitsRecords)
  else []

/-- The cell that a column and a row name. -/
def cellAt (x y : UInt16) : Cell := .ofNat y.toNat x.toNat

/-- The number of buzzers that a word stands for; the largest word stands for an endless supply. -/
def amount (word : UInt16) : Int32 :=
  if word = 0xFFFF then infinite else Int32.ofNat word.toNat

/-- The orientation that a word stands for. -/
def orientation (word : UInt16) : Except LoadError Orientation :=
  match word.toNat with
  | 1 => .ok .north
  | 2 => .ok .east
  | 3 => .ok .south
  | 4 => .ok .west
  | n => .error (.invalidOrientation n)

/-- The sides that the wall records close, in order. -/
def closedSides (l : LegacyWorld) : List (Cell × Orientation) :=
  l.wallRecords.flatMap fun (x, y, mask) =>
    (Orientation.all.filter fun side => mask.toNat.testBit side.index).map fun side =>
      (cellAt x y, side)

/-- Where the limits buffer caps each action: a flag, and the cap in the next word. -/
def capOffset : Action → Nat
  | .forward => 3
  | .left => 6
  | .pickBuzzer => 9
  | .leaveBuzzer => 12

/-- The limits; an instruction limit of zero is not set. -/
def runLimits (l : LegacyWorld) : Limits :=
  let cap (a : Action) : Option UInt64 :=
    if l.limitsWord (capOffset a) ≠ 0 then some (l.limitsWord (capOffset a + 1)).toUInt64 else none
  let standard : Limits := {}
  { standard with
    maxInstructions :=
      if l.limitsWord 1 ≠ 0 then (l.limitsWord 1).toUInt64 else standard.maxInstructions
    caps := ⟨cap .forward, cap .left, cap .pickBuzzer, cap .leaveBuzzer⟩ }

/-- Limits on the buzzers in the bag and in the world, which have no effect: name and value of those
that are set. -/
def ignoredLimits (l : LegacyWorld) : List (String × Nat) :=
  [("bag buzzer", 15), ("world buzzer", 18)].filterMap fun (name, i) =>
    if l.limitsWord i ≠ 0 then some (name, (l.limitsWord (i + 1)).toNat) else none

/-- The parts of the report that are asked for. -/
def dumps (l : LegacyWorld) : List DumpKind :=
  (if l.limitsWord 21 ≠ 0 then [.position] else []) ++
  (if l.limitsWord 24 ≠ 0 then [.orientation] else []) ++
  (if l.listsCells then [.world] else [])

/-- Puts into a world what the records and the limits of the buffers list. -/
def furnish (l : LegacyWorld) (w : World) : World :=
  let w := l.closedSides.foldl (fun w (c, side) => w.addWall c side) w
  let w := l.pileRecords.foldl (fun w (x, y, n) => w.setPile (cellAt x y) (amount n)) w
  let w := l.cellRecords.foldl (fun w (x, y, _) => w.setMark (cellAt x y) true) w
  let w := l.dumps.foldl (fun w k => w.setDump k true) w
  { w with limits := l.runLimits }

/-- The world of a pair of buffers. -/
def decode (l : LegacyWorld) : Except LoadError World := do
  if l.world.size < worldWordsMin then
    throw (.tooShort .world worldWordsMin l.world.size)
  if l.limits.size < limitsWordsMin then
    throw (.tooShort .limits limitsWordsMin l.limits.size)
  if l.world.toList.take signature.length ≠ signature then
    throw .badMagic
  if !acceptsSize l.width l.height then
    throw (.invalidDimensions l.width l.height)
  if l.world.size < l.worldWordsNeeded then
    throw (.truncated .world l.worldWordsNeeded l.world.size)
  let w := World.new l.width l.height
  let x := l.worldWord 9
  let y := l.worldWord 10
  if !w.contains (cellAt x y) then
    throw (.invalidCoordinate x.toNat y.toNat)
  let facing ← orientation (l.worldWord 11)
  if l.listsCells && l.limits.size < l.limitsWordsNeeded then
    throw (.truncated .limits l.limitsWordsNeeded l.limits.size)
  return l.furnish (((w.moveTo (cellAt x y)).rotate facing).setBag (amount (l.worldWord 8)))

end LegacyWorld

end GridRobot
