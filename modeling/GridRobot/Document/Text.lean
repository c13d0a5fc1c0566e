import GridRobot.Document.Basic
import GridRobot.Json.Printer
import GridRobot.Json.Reader

/-!
# World documents as text

`Document.render` writes a document as JSON laid out on lines, with the fields in a fixed order and
without empty lists and absent corners. `Document.parse` reads it back.
-/

set_option autoImplicit false

namespace GridRobot

/-- An unsigned word as JSON. -/
def Json.uint32 (n : UInt32) : Json := .int n.toNat

/-- An unsigned word as JSON. -/
def Json.uint64 (n : UInt64) : Json := .int n.toNat

/-- A field that is left out when its list is empty. -/
def Json.listField {α : Type} (name : String) (write : α → Json) : List α → List (String × Json)
  | [] => []
  | xs => [(name, .array (xs.map write))]

/-- A field that is left out when it has no value. -/
def Json.optionField {α : Type} (name : String) (write : α → Json) :
    Option α → List (String × Json)
  | none => []
  | some a => [(name, write a)]

namespace CapEntry

/-- A cap as a document writes it. -/
def toJson (e : CapEntry) : Json :=
  .record [("name", e.action.toJson), ("maxExecutions", .uint64 e.maxExecutions)]

/-- A cap in a document. -/
def ofJson? (j : Json) : Option CapEntry := do
  let [action, maxExecutions] ← j.fields ["name", "maxExecutions"] | none
  return {
    action := ← Json.required Action.ofJson? action
    maxExecutions := ← Json.required Json.asUInt64? maxExecutions }

end CapEntry

namespace Conditions

/-- The conditions of a run as a document writes them. -/
def toJson (c : Conditions) : Json :=
  .record <|
    [("instructionsMax", .uint64 c.instructionsMax), ("stackDepthMax", .uint32 c.stackDepthMax)] ++
    Json.listField "commands" CapEntry.toJson c.commands

/-- The conditions of a run in a document. -/
def ofJson? (j : Json) : Option Conditions := do
  let [instructionsMax, stackDepthMax, commands] ←
    j.fields ["instructionsMax", "stackDepthMax", "commands"] | none
  return {
    instructionsMax := ← Json.withDefault 10000000 Json.asUInt64? instructionsMax
    stackDepthMax := ← Json.withDefault 65000 Json.asUInt32? stackDepthMax
    commands := ← Json.withDefault [] (Json.list CapEntry.ofJson?) commands }

end Conditions

namespace PileEntry

/-- A pile as a document writes it. -/
def toJson (e : PileEntry) : Json :=
  .record [("x", .uint32 e.x), ("y", .uint32 e.y), ("count", e.count.toJson)]

/-- A pile in a document. -/
def ofJson? (j : Json) : Option PileEntry := do
  let [x, y, count] ← j.fields ["x", "y", "count"] | none
  return {
    x := ← Json.required Json.asUInt32? x
    y := ← Json.required Json.asUInt32? y
    count := ← Json.required Amount.ofJson? count }

end PileEntry

namespace CellEntry

/-- A cell as a document writes it. -/
def toJson (e : CellEntry) : Json :=
  .record [("x", .uint32 e.x), ("y", .uint32 e.y)]

/-- A cell in a document. -/
def ofJson? (j : Json) : Option CellEntry := do
  let [x, y] ← j.fields ["x", "y"] | none
  return {
    x := ← Json.required Json.asUInt32? x
    y := ← Json.required Json.asUInt32? y }

end CellEntry

namespace Segment

/-- A wall as a document writes it. -/
def toJson (s : Segment) : Json :=
  .record <|
    [("x1", .uint32 s.x1), ("y1", .uint32 s.y1)] ++
    Json.optionField "x2" Json.uint32 s.x2 ++ Json.optionField "y2" Json.uint32 s.y2

/-- A wall in a document. -/
def ofJson? (j : Json) : Option Segment := do
  let [x1, y1, x2, y2] ← j.fields ["x1", "y1", "x2", "y2"] | none
  return {
    x1 := ← Json.required Json.asUInt32? x1
    y1 := ← Json.required Json.asUInt32? y1
    x2 := ← Json.optional Json.asUInt32? x2
    y2 := ← Json.optional Json.asUInt32? y2 }

end Segment

namespace GridSection

/-- The grid as a document writes it. -/
def toJson (g : GridSection) : Json :=
  .record <|
    [("name", .text g.name), ("width", .uint64 g.width), ("height", .uint64 g.height)] ++
    Json.listField "buzzers" PileEntry.toJson g.buzzers ++
    Json.listField "walls" Segment.toJson g.walls ++
    Json.listField "dumpCells" CellEntry.toJson g.dumpCells

/-- The grid in a document. -/
def ofJson? (j : Json) : Option GridSection := do
  let [name, width, height, buzzers, walls, dumpCells] ←
    j.fields ["name", "width", "height", "buzzers", "walls", "dumpCells"] | none
  return {
    name := ← Json.withDefault defaultWorldName Json.asText? name
    width := ← Json.required Json.asUInt64? width
    height := ← Json.required Json.asUInt64? height
    buzzers := ← Json.withDefault [] (Json.list PileEntry.ofJson?) buzzers
    walls := ← Json.withDefault [] (Json.list Segment.ofJson?) walls
    dumpCells := ← Json.withDefault [] (Json.list CellEntry.ofJson?) dumpCells }

end GridSection

namespace SetupSection

/-- The setup as a document writes it. -/
def toJson (s : SetupSection) : Json :=
  .record <|
    [("name", .text s.name), ("world", .text s.world), ("x", .uint32 s.x), ("y", .uint32 s.y),
      ("orientation", s.orientation.toJson), ("bag", s.bag.toJson)] ++
    Json.listField "dumps" DumpKind.toJson s.dumps

/-- The setup in a document. -/
def ofJson? (j : Json) : Option SetupSection := do
  let [name, world, x, y, orientation, bag, dumps] ←
    j.fields ["name", "world", "x", "y", "orientation", "bag", "dumps"] | none
  return {
    name := ← Json.withDefault defaultProgramName Json.asText? name
    world := ← Json.withDefault defaultWorldName Json.asText? world
    x := ← Json.withDefault 1 Json.asUInt32? x
    y := ← Json.withDefault 1 Json.asUInt32? y
    orientation := ← Json.withDefault .north Orientation.ofJson? orientation
    bag := ← Json.withDefault ⟨0⟩ Amount.ofJson? bag
    dumps := ← Json.withDefault [] (Json.list DumpKind.ofJson?) dumps }

end SetupSection

namespace Document

/-- A document as JSON. -/
def toJson (d : Document) : Json :=
  .record [("conditions", d.conditions.toJson), ("world", d.grid.toJson),
    ("program", d.setup.toJson)]

/-- The document that a JSON value describes. -/
def ofJson? (j : Json) : Option Document := do
  let [conditions, grid, setup] ← j.fields ["conditions", "world", "program"] | none
  return {
    conditions := ← Json.withDefault {} Conditions.ofJson? conditions
    grid := ← Json.required GridSection.ofJson? grid
    setup := ← Json.withDefault {} SetupSection.ofJson? setup }

/-- The text of a document. -/
def render (d : Document) : String :=
  d.toJson.pretty

/-- The document that a text describes. -/
def parse (s : String) : Option Document :=
  (Json.parse s).bind ofJson?

end Document

end GridRobot
