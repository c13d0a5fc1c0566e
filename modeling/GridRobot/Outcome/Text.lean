import GridRobot.Document.Text
import GridRobot.Outcome.Basic

/-!
# Reports as text

`Outcome.render` writes a report as JSON laid out on lines, without its absent parts, and
`Outcome.parse` reads it back.
-/

set_option autoImplicit false

namespace GridRobot

/-- A signed word as JSON. -/
def Json.int32 (n : Int32) : Json := .int n.toInt

namespace DumpLine

/-- A line of the buzzer dump as a report writes it. -/
def toJson (l : DumpLine) : Json :=
  .record [("row", .int32 l.row), ("zeroCompression", .bool l.zeroCompression),
    ("text", .text l.text)]

/-- A line of the buzzer dump in a report. -/
def ofJson? (j : Json) : Option DumpLine := do
  let [row, zeroCompression, text] ← j.fields ["row", "zeroCompression", "text"] | none
  return {
    row := ← Json.required Json.asInt32? row
    zeroCompression := ← Json.required Json.asBool? zeroCompression
    text := ← Json.required Json.asText? text }

end DumpLine

namespace WorldReport

/-- The buzzers left in the world as a report writes them. -/
def toJson (r : WorldReport) : Json :=
  .record [("name", .text r.name), ("lines", .array (r.lines.map DumpLine.toJson))]

/-- The buzzers left in the world in a report. -/
def ofJson? (j : Json) : Option WorldReport := do
  let [name, lines] ← j.fields ["name", "lines"] | none
  return {
    name := ← Json.required Json.asText? name
    lines := ← Json.required (Json.list DumpLine.ofJson?) lines }

end WorldReport

namespace RobotReport

/-- The robot as a report writes it. -/
def toJson (r : RobotReport) : Json :=
  .record <|
    Json.optionField "x" Json.int32 r.x ++ Json.optionField "y" Json.int32 r.y ++
    Json.optionField "orientation" Orientation.toJson r.orientation ++
    Json.optionField "bag" Amount.toJson r.bag

/-- The robot in a report. -/
def ofJson? (j : Json) : Option RobotReport := do
  let [x, y, orientation, bag] ← j.fields ["x", "y", "orientation", "bag"] | none
  return {
    x := ← Json.optional Json.asInt32? x
    y := ← Json.optional Json.asInt32? y
    orientation := ← Json.optional Orientation.ofJson? orientation
    bag := ← Json.optional Amount.ofJson? bag }

end RobotReport

/-- The counts of a report as JSON. -/
def PerAction.countsToJson (p : PerAction (Option UInt64)) : Json :=
  .record <|
    Json.optionField "forward" Json.uint64 p.forward ++
    Json.optionField "left" Json.uint64 p.left ++
    Json.optionField "pickBuzzer" Json.uint64 p.pickBuzzer ++
    Json.optionField "leaveBuzzer" Json.uint64 p.leaveBuzzer

/-- The counts of a report. -/
def PerAction.countsOfJson? (j : Json) : Option (PerAction (Option UInt64)) := do
  let [forward, left, pickBuzzer, leaveBuzzer] ←
    j.fields ["forward", "left", "pickBuzzer", "leaveBuzzer"] | none
  return {
    forward := ← Json.optional Json.asUInt64? forward
    left := ← Json.optional Json.asUInt64? left
    pickBuzzer := ← Json.optional Json.asUInt64? pickBuzzer
    leaveBuzzer := ← Json.optional Json.asUInt64? leaveBuzzer }

namespace ProgramReport

/-- How the program ended, as a report writes it. -/
def toJson (r : ProgramReport) : Json :=
  .record <|
    [("name", .text r.name), ("status", .text r.status)] ++
    Json.optionField "karel" RobotReport.toJson r.robot ++
    Json.optionField "instructions" PerAction.countsToJson r.instructions

/-- How the program ended, in a report. -/
def ofJson? (j : Json) : Option ProgramReport := do
  let [name, status, robot, instructions] ←
    j.fields ["name", "status", "karel", "instructions"] | none
  return {
    name := ← Json.required Json.asText? name
    status := ← Json.required Json.asText? status
    robot := ← Json.optional RobotReport.ofJson? robot
    instructions := ← Json.optional PerAction.countsOfJson? instructions }

end ProgramReport

namespace Outcome

/-- A report as JSON. -/
def toJson (o : Outcome) : Json :=
  .record <|
    Json.optionField "world" WorldReport.toJson o.world ++ [("program", o.program.toJson)]

/-- The report that a JSON value describes. -/
def ofJson? (j : Json) : Option Outcome := do
  let [world, program] ← j.fields ["world", "program"] | none
  return {
    world := ← Json.optional WorldReport.ofJson? world
    program := ← Json.required ProgramReport.ofJson? program }

/-- The text of a report. -/
def render (o : Outcome) : String :=
  o.toJson.pretty

/-- The report that a text holds. -/
def parse (s : String) : Option Outcome :=
  (Json.parse s).bind ofJson?

end Outcome

end GridRobot
