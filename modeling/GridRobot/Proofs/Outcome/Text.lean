import GridRobot.Outcome.Text
import GridRobot.Proofs.Document.Text

/-!
# Reports are read back from their text

A report is a tree of records most of whose fields may be missing, each independently of the others. It
is read back part by part, like a document: a field that was left out is read as missing, and a part that
is there but shows nothing stays apart from one that is missing. Of the numbers in a report only an amount
below minus one is not kept, and the reports of worlds have none.
-/

set_option autoImplicit false

namespace GridRobot

open Json (ReadsAs AllWritable given)

theorem Json.readsAs_int32 : ReadsAs asInt32? int32 id where
  writable n := .int (by have := n.le_toInt; have := n.toInt_lt; constructor <;> omega)
  read n := by
    have hle := n.le_toInt
    have hlt := n.toInt_lt
    rw [asInt32?, int32, asInt?_int]
    simp only
    rw [if_pos (by omega)]
    simp

theorem Amount.toJson_ne_null (a : Amount) : a.toJson ≠ .null := by
  rw [toJson]
  split
  · exact fun h => Json.noConfusion h
  · exact fun h => Json.noConfusion h

/-! ## Records -/

namespace DumpLine

/-- The fields of a line of the buzzer dump. -/
def values (l : DumpLine) : List (String × Option Json) :=
  [("row", some (.int32 l.row)), ("zeroCompression", some (.bool l.zeroCompression)),
    ("text", some (.text l.text))]

theorem toJson_eq (l : DumpLine) : l.toJson = .record (given l.values) :=
  rfl

theorem readsAs : ReadsAs ofJson? toJson id where
  writable l := by
    rw [toJson_eq]
    exact AllWritable.record <|
      .cons_some (Json.readsAs_int32.writable l.row) <|
      .cons_some (Json.readsAs_bool.writable l.zeroCompression) <|
      .cons_some (Json.readsAs_text.writable l.text) .nil
  read l := by
    rw [ofJson?, Json.fields_record l.toJson_eq]
    · simp -implicitDefEqProofs [values, Json.readsAs_int32.required_some,
        Json.readsAs_bool.required_some, Json.readsAs_text.required_some]
    · rfl
    · simp

end DumpLine

namespace WorldReport

/-- The fields of the buzzers left in the world. -/
def values (r : WorldReport) : List (String × Option Json) :=
  [("name", some (.text r.name)), ("lines", some (.array (r.lines.map DumpLine.toJson)))]

theorem toJson_eq (r : WorldReport) : r.toJson = .record (given r.values) :=
  rfl

theorem readsAs : ReadsAs ofJson? toJson id where
  writable r := by
    rw [toJson_eq]
    exact AllWritable.record <|
      .cons_some (Json.readsAs_text.writable r.name) <|
      .cons_some (DumpLine.readsAs.array.writable r.lines) .nil
  read r := by
    rw [ofJson?, Json.fields_record r.toJson_eq]
    · simp -implicitDefEqProofs [values, Json.readsAs_text.required_some,
        DumpLine.readsAs.array.required_some]
    · rfl
    · simp

end WorldReport

namespace RobotReport

/-- What a report keeps of the robot. -/
def clamped (r : RobotReport) : RobotReport :=
  { r with bag := r.bag.map Amount.clamped }

/-- The fields of the robot. -/
def values (r : RobotReport) : List (String × Option Json) :=
  [("x", r.x.map Json.int32), ("y", r.y.map Json.int32),
    ("orientation", r.orientation.map Orientation.toJson), ("bag", r.bag.map Amount.toJson)]

theorem toJson_eq (r : RobotReport) : r.toJson = .record (given r.values) := by
  simp only [toJson, Json.optionField_eq_given, ← Json.given_append]
  rfl

theorem readsAs : ReadsAs ofJson? toJson clamped where
  writable r := by
    rw [toJson_eq]
    exact AllWritable.record <|
      .cons (Json.readsAs_int32.writable_map r.x) <|
      .cons (Json.readsAs_int32.writable_map r.y) <|
      .cons (Orientation.readsAs.writable_map r.orientation) <|
      .cons (Amount.readsAs.writable_map r.bag) .nil
  read r := by
    have hword : ∀ n, Json.int32 n ≠ .null := fun n h => Json.noConfusion h
    have hside : ∀ o, Orientation.toJson o ≠ .null := fun o h => Json.noConfusion h
    rw [ofJson?, Json.fields_record r.toJson_eq]
    · simp -implicitDefEqProofs [values, clamped, Json.readsAs_int32.optional_map hword,
        Orientation.readsAs.optional_map hside, Amount.readsAs.optional_map Amount.toJson_ne_null]
    · rfl
    · simp

end RobotReport

namespace PerAction

/-- The fields of the counts. -/
def countValues (p : PerAction (Option UInt64)) : List (String × Option Json) :=
  [("forward", p.forward.map Json.uint64), ("left", p.left.map Json.uint64),
    ("pickBuzzer", p.pickBuzzer.map Json.uint64), ("leaveBuzzer", p.leaveBuzzer.map Json.uint64)]

theorem countsToJson_eq (p : PerAction (Option UInt64)) :
    p.countsToJson = .record (given p.countValues) := by
  simp only [countsToJson, Json.optionField_eq_given, ← Json.given_append]
  rfl

theorem counts_readsAs : ReadsAs countsOfJson? countsToJson id where
  writable p := by
    rw [countsToJson_eq]
    exact AllWritable.record <|
      .cons (Json.readsAs_uint64.writable_map p.forward) <|
      .cons (Json.readsAs_uint64.writable_map p.left) <|
      .cons (Json.readsAs_uint64.writable_map p.pickBuzzer) <|
      .cons (Json.readsAs_uint64.writable_map p.leaveBuzzer) .nil
  read p := by
    have hword : ∀ n, Json.uint64 n ≠ .null := fun n h => Json.noConfusion h
    rw [countsOfJson?, Json.fields_record p.countsToJson_eq]
    · simp -implicitDefEqProofs [countValues, Json.readsAs_uint64.optional_map hword]
    · rfl
    · simp

end PerAction

namespace ProgramReport

/-- What a report keeps of how the program ended. -/
def clamped (r : ProgramReport) : ProgramReport :=
  { r with robot := r.robot.map RobotReport.clamped }

/-- The fields of how the program ended. -/
def values (r : ProgramReport) : List (String × Option Json) :=
  [("name", some (.text r.name)), ("status", some (.text r.status)),
    ("karel", r.robot.map RobotReport.toJson),
    ("instructions", r.instructions.map PerAction.countsToJson)]

theorem toJson_eq (r : ProgramReport) : r.toJson = .record (given r.values) := by
  simp only [toJson, Json.optionField_eq_given, List.append_assoc, ← Json.given_append]
  rfl

theorem readsAs : ReadsAs ofJson? toJson clamped where
  writable r := by
    rw [toJson_eq]
    exact AllWritable.record <|
      .cons_some (Json.readsAs_text.writable r.name) <|
      .cons_some (Json.readsAs_text.writable r.status) <|
      .cons (RobotReport.readsAs.writable_map r.robot) <|
      .cons (PerAction.counts_readsAs.writable_map r.instructions) .nil
  read r := by
    have hrobot : ∀ p, RobotReport.toJson p ≠ .null := fun p h => Json.noConfusion h
    have hcounts : ∀ p, PerAction.countsToJson p ≠ .null := fun p h => Json.noConfusion h
    rw [ofJson?, Json.fields_record r.toJson_eq]
    · simp -implicitDefEqProofs [values, clamped, Json.readsAs_text.required_some,
        RobotReport.readsAs.optional_map hrobot, PerAction.counts_readsAs.optional_map hcounts]
    · rfl
    · simp

end ProgramReport

namespace Outcome

/-- What the text of a report keeps of it. -/
def clamped (o : Outcome) : Outcome :=
  { o with program := o.program.clamped }

/-- The parts of a report. -/
def values (o : Outcome) : List (String × Option Json) :=
  [("world", o.world.map WorldReport.toJson), ("program", some o.program.toJson)]

theorem toJson_eq (o : Outcome) : o.toJson = .record (given o.values) := by
  rw [toJson, Json.optionField_eq_given]
  exact congrArg Json.record (Json.given_append _ [("program", some o.program.toJson)]).symm

theorem readsAs : ReadsAs ofJson? toJson clamped where
  writable o := by
    rw [toJson_eq]
    exact AllWritable.record <|
      .cons (WorldReport.readsAs.writable_map o.world) <|
      .cons_some (ProgramReport.readsAs.writable o.program) .nil
  read o := by
    have hworld : ∀ r, WorldReport.toJson r ≠ .null := fun r h => Json.noConfusion h
    rw [ofJson?, Json.fields_record o.toJson_eq]
    · simp -implicitDefEqProofs [values, clamped, WorldReport.readsAs.optional_map hworld,
        ProgramReport.readsAs.required_some]
    · rfl
    · simp

/-- A report that has been written is read, and keeps all but an amount below minus one. -/
theorem parse_render (o : Outcome) : parse o.render = some o.clamped := by
  rw [parse, render, Json.parse_pretty (readsAs.writable o)]
  exact readsAs.read o

end Outcome

/-! ## What is kept as it is -/

theorem RobotReport.clamped_eq_self_iff {r : RobotReport} :
    r.clamped = r ↔ ∀ a ∈ r.bag, -1 ≤ a.count := by
  obtain ⟨x, y, orientation, bag⟩ := r
  cases bag with
  | none => simp [clamped]
  | some a => simp [clamped, Amount.clamped_eq_self_iff]

theorem Outcome.clamped_eq_self_iff {o : Outcome} :
    o.clamped = o ↔ ∀ r ∈ o.program.robot, ∀ a ∈ r.bag, -1 ≤ a.count := by
  obtain ⟨world, ⟨name, status, robot, instructions⟩⟩ := o
  cases robot with
  | none => simp [clamped, ProgramReport.clamped]
  | some r => simp [clamped, ProgramReport.clamped, RobotReport.clamped_eq_self_iff]

namespace Outcome

theorem eq_of_mem_shown {α : Type} {asked : Bool} {a b : α} (h : b ∈ shown asked a) : b = a := by
  cases asked with
  | true => exact (Option.some.inj h).symm
  | false => cases h

theorem eq_of_mem_unlessBlank {α : Type} [DecidableEq α] {blank a b : α}
    (h : b ∈ unlessBlank blank a) : b = a := by
  rw [unlessBlank] at h
  split at h
  · cases h
  · exact (Option.some.inj h).symm

/-- The only amount in a report is what the bag holds. -/
theorem eq_bag_of_mem_build {w : World} {m : Machine} {r : RobotReport} {a : Amount}
    (hr : r ∈ (build w m).program.robot) (ha : a ∈ r.bag) : a = ⟨w.bag⟩ := by
  obtain rfl := eq_of_mem_unlessBlank hr
  exact eq_of_mem_shown ha

/-- The text of a report is read as the same report with an amount below minus one in the bag replaced by
zero; so it is read as the report itself exactly if there is no such amount. There is none in the report
on a world, whatever has become of it, and on a machine. -/
theorem report_round_trip :
    (∀ o : Outcome, parse o.render = some
      { o with
        program :=
          { o.program with
            robot := o.program.robot.map fun r =>
              { r with bag := r.bag.map fun a => if a.count < -1 then ⟨0⟩ else a } } }) ∧
    (∀ o : Outcome, parse o.render = some o ↔
      ∀ r ∈ o.program.robot, ∀ a ∈ r.bag, -1 ≤ a.count) ∧
    ∀ w : World, w.Reachable → ∀ m : Machine, parse (build w m).render = some (build w m) := by
  have hself : ∀ o : Outcome, parse o.render = some o ↔
      ∀ r ∈ o.program.robot, ∀ a ∈ r.bag, -1 ≤ a.count := by
    intro o
    rw [parse_render, Option.some.injEq, clamped_eq_self_iff]
  refine ⟨parse_render, hself, ?_⟩
  intro w hw m
  refine (hself _).2 fun r hr a ha => ?_
  rw [eq_bag_of_mem_build hr ha]
  exact hw.wellFormed.stocked.bag

/-- A world whose robot has left it far behind with an endless supply in its bag, and that asks for a full
report. -/
def runaway : World :=
  [.setNames "\"\\\n\x07" "µ😀", .setPile ⟨1, 2⟩ 65536, .setBag (-1), .moveTo ⟨-2147483648, -3⟩,
    .setDump .allBuzzers true, .setDump .position true, .setDump .orientation true, .setDump .bag true,
    .setDump (.action .forward) true].foldl World.edited (World.new 2 2)

/-- A machine that has counted as far as a report can tell. -/
def exhausted : Machine :=
  { Machine.fresh {} with counters := ⟨18446744073709551615, 0, 0, 0⟩, fault := some .instruction }

/-- That report is read back. So is one all of whose parts are there and show nothing; but a debt in the bag
is read as an empty bag. -/
theorem report_round_trip_runaway :
    runaway.Reachable ∧
      parse (build runaway exhausted).render = some (build runaway exhausted) ∧
      build runaway exhausted =
        { world := some ⟨"\"\\\n\x07", [⟨1, true, "(2) 0 "⟩]⟩
          program :=
            { name := "µ😀"
              status := "LIMITE DE INSTRUCCIONES"
              robot := some ⟨some (-3), some (-2147483648), some .north, some ⟨-1⟩⟩
              instructions := some ⟨some 18446744073709551615, none, none, none⟩ } } ∧
      parse (render ⟨some ⟨"", []⟩, "", "", some {}, some (.const none)⟩) =
        some ⟨some ⟨"", []⟩, "", "", some {}, some (.const none)⟩ ∧
      parse (render ⟨none, "", "", some { bag := some ⟨-5⟩ }, none⟩) =
        some ⟨none, "", "", some { bag := some ⟨0⟩ }, none⟩ := by
  obtain ⟨hread, hself, hworld⟩ := report_round_trip
  have hreachable : runaway.Reachable := (World.Reachable.new 2 2).foldl _
  refine ⟨hreachable, hworld runaway hreachable exhausted, by decide +kernel, ?_, ?_⟩
  · exact (hself _).2 (by decide)
  · exact (hread _).trans (by decide)

end Outcome

end GridRobot
