import GridRobot.Document.Load
import GridRobot.Proofs.Json.Fields
import GridRobot.Proofs.World.Reachable

/-!
# Documents are read back from their text

A document is a tree of records. Each record is read back once its fields are, so the statement is
built up section by section, from the words and tokens to the whole document. The only thing that a
text does not keep is an amount below minus one: it is written as zero (`Amount.clamped`). Documents
of worlds have no such amounts, and are read back as they are.
-/

set_option autoImplicit false

namespace GridRobot

open Json (ReadsAs AllWritable given)

/-! ## Tokens and amounts -/

theorem Orientation.readsAs : ReadsAs ofJson? toJson id where
  writable o := .text o.token
  read := ofToken?_token

theorem Action.readsAs : ReadsAs ofJson? toJson id where
  writable a := .text a.token
  read := ofToken?_token

theorem DumpKind.readsAs : ReadsAs ofJson? toJson id where
  writable k := .text k.token
  read := ofToken?_token

namespace Amount

/-- What a document keeps of an amount: one below minus one counts as zero. -/
def clamped (a : Amount) : Amount :=
  if a.count < -1 then ⟨0⟩ else a

theorem ofJson?_int {n : Nat} (h : n < 2147483648) :
    ofJson? (.int n) = some ⟨Int32.ofNat n⟩ := by
  have hword : (Json.int n).asUInt32? = some (UInt32.ofNat n) := by
    rw [Json.asUInt32?, Json.asInt?_int]
    simp only
    rw [if_pos (by omega), Int.toNat_natCast]
  have hnat : (UInt32.ofNat n).toNat = n := by
    rw [UInt32.toNat_ofNat']
    omega
  rw [ofJson?, ofJson, hword]
  · simp only [hnat]
    rw [if_pos h]
    rfl
  · intro s hs
    exact Json.noConfusion hs

theorem readsAs : ReadsAs ofJson? toJson clamped where
  writable a := by
    rw [toJson]
    split
    · exact .text _
    · have hlt := a.count.toInt_lt
      exact .int (by constructor <;> omega)
  read a := by
    rw [toJson, clamped]
    split
    · rename_i hinfinite
      rw [if_neg (by rw [hinfinite]; decide)]
      show some (⟨infinite⟩ : Amount) = some a
      rw [← hinfinite]
    · rename_i hfinite
      have hne : a.count.toInt ≠ -1 := fun h => hfinite (Int32.toInt_inj.1 h)
      have hlt := a.count.toInt_lt
      have hcast : max 0 a.count.toInt = (a.count.toInt.toNat : Int) := by omega
      rw [hcast, ofJson?_int (by omega)]
      split
      · rename_i hbelow
        rw [Int32.lt_iff_toInt_lt] at hbelow
        have hminus : (-1 : Int32).toInt = -1 := rfl
        have hzero : a.count.toInt.toNat = 0 := by omega
        rw [hzero]
        rfl
      · rename_i habove
        rw [Int32.lt_iff_toInt_lt] at habove
        have hminus : (-1 : Int32).toInt = -1 := rfl
        have hcount : Int32.ofNat a.count.toInt.toNat = a.count := by
          apply Int32.toInt_inj.1
          rw [Int32.toInt_ofNat_of_lt (by omega)]
          omega
        rw [hcount]

end Amount

/-! ## Records

The rewriting steps are given as proofs: to check them by evaluation, the bounds of the words would
have to be counted out.
-/

namespace CapEntry

/-- The fields of a cap. -/
def values (e : CapEntry) : List (String × Option Json) :=
  [("name", some e.action.toJson), ("maxExecutions", some (.uint64 e.maxExecutions))]

theorem toJson_eq (e : CapEntry) : e.toJson = .record (given e.values) :=
  rfl

theorem readsAs : ReadsAs ofJson? toJson id where
  writable e := by
    rw [toJson_eq]
    exact AllWritable.record <|
      .cons_some (Action.readsAs.writable e.action) <|
      .cons_some (Json.readsAs_uint64.writable e.maxExecutions) .nil
  read e := by
    rw [ofJson?, Json.fields_record e.toJson_eq]
    · simp -implicitDefEqProofs [values, Action.readsAs.required_some,
        Json.readsAs_uint64.required_some]
    · rfl
    · simp

end CapEntry

namespace Conditions

/-- The fields of the conditions. -/
def values (c : Conditions) : List (String × Option Json) :=
  [("instructionsMax", some (.uint64 c.instructionsMax)),
    ("stackDepthMax", some (.uint32 c.stackDepthMax)),
    ("commands", Json.listed? CapEntry.toJson c.commands)]

theorem toJson_eq (c : Conditions) : c.toJson = .record (given c.values) := by
  rw [toJson, Json.listField_eq_given]
  rfl

theorem readsAs : ReadsAs ofJson? toJson id where
  writable c := by
    rw [toJson_eq]
    exact AllWritable.record <|
      .cons_some (Json.readsAs_uint64.writable c.instructionsMax) <|
      .cons_some (Json.readsAs_uint32.writable c.stackDepthMax) <|
      .cons (CapEntry.readsAs.writable_listed? c.commands) .nil
  read c := by
    rw [ofJson?, Json.fields_record c.toJson_eq]
    · simp -implicitDefEqProofs [values, Json.readsAs_uint64.withDefault_some,
        Json.readsAs_uint32.withDefault_some, CapEntry.readsAs.withDefault_listed?]
    · rfl
    · simp

end Conditions

namespace PileEntry

/-- What a document keeps of a pile. -/
def clamped (e : PileEntry) : PileEntry :=
  { e with count := e.count.clamped }

/-- The fields of a pile. -/
def values (e : PileEntry) : List (String × Option Json) :=
  [("x", some (.uint32 e.x)), ("y", some (.uint32 e.y)), ("count", some e.count.toJson)]

theorem toJson_eq (e : PileEntry) : e.toJson = .record (given e.values) :=
  rfl

theorem readsAs : ReadsAs ofJson? toJson clamped where
  writable e := by
    rw [toJson_eq]
    exact AllWritable.record <|
      .cons_some (Json.readsAs_uint32.writable e.x) <|
      .cons_some (Json.readsAs_uint32.writable e.y) <|
      .cons_some (Amount.readsAs.writable e.count) .nil
  read e := by
    rw [ofJson?, Json.fields_record e.toJson_eq]
    · simp -implicitDefEqProofs [values, clamped, Json.readsAs_uint32.required_some,
        Amount.readsAs.required_some]
    · rfl
    · simp

end PileEntry

namespace CellEntry

/-- The fields of a cell. -/
def values (e : CellEntry) : List (String × Option Json) :=
  [("x", some (.uint32 e.x)), ("y", some (.uint32 e.y))]

theorem toJson_eq (e : CellEntry) : e.toJson = .record (given e.values) :=
  rfl

theorem readsAs : ReadsAs ofJson? toJson id where
  writable e := by
    rw [toJson_eq]
    exact AllWritable.record <|
      .cons_some (Json.readsAs_uint32.writable e.x) <|
      .cons_some (Json.readsAs_uint32.writable e.y) .nil
  read e := by
    rw [ofJson?, Json.fields_record e.toJson_eq]
    · simp -implicitDefEqProofs [values, Json.readsAs_uint32.required_some]
    · rfl
    · simp

end CellEntry

namespace Segment

/-- The fields of a wall. -/
def values (s : Segment) : List (String × Option Json) :=
  [("x1", some (.uint32 s.x1)), ("y1", some (.uint32 s.y1)), ("x2", s.x2.map Json.uint32),
    ("y2", s.y2.map Json.uint32)]

theorem toJson_eq (s : Segment) : s.toJson = .record (given s.values) := by
  rw [toJson, Json.optionField_eq_given, Json.optionField_eq_given, List.append_assoc,
    ← Json.given_append]
  rfl

theorem readsAs : ReadsAs ofJson? toJson id where
  writable s := by
    rw [toJson_eq]
    exact AllWritable.record <|
      .cons_some (Json.readsAs_uint32.writable s.x1) <|
      .cons_some (Json.readsAs_uint32.writable s.y1) <|
      .cons (Json.readsAs_uint32.writable_map s.x2) <|
      .cons (Json.readsAs_uint32.writable_map s.y2) .nil
  read s := by
    have hnull : ∀ n, Json.uint32 n ≠ .null := fun n h => Json.noConfusion h
    rw [ofJson?, Json.fields_record s.toJson_eq]
    · simp -implicitDefEqProofs [values, Json.readsAs_uint32.required_some,
        Json.readsAs_uint32.optional_map hnull]
    · rfl
    · simp

end Segment

/-! ## Sections -/

namespace GridSection

/-- What a document keeps of the grid. -/
def clamped (g : GridSection) : GridSection :=
  { g with buzzers := g.buzzers.map PileEntry.clamped }

/-- The fields of the grid. -/
def values (g : GridSection) : List (String × Option Json) :=
  [("name", some (.text g.name)), ("width", some (.uint64 g.width)),
    ("height", some (.uint64 g.height)), ("buzzers", Json.listed? PileEntry.toJson g.buzzers),
    ("walls", Json.listed? Segment.toJson g.walls),
    ("dumpCells", Json.listed? CellEntry.toJson g.dumpCells)]

theorem toJson_eq (g : GridSection) : g.toJson = .record (given g.values) := by
  simp only [toJson, Json.listField_eq_given, List.append_assoc, ← Json.given_append]
  rfl

theorem readsAs : ReadsAs ofJson? toJson clamped where
  writable g := by
    rw [toJson_eq]
    exact AllWritable.record <|
      .cons_some (Json.readsAs_text.writable g.name) <|
      .cons_some (Json.readsAs_uint64.writable g.width) <|
      .cons_some (Json.readsAs_uint64.writable g.height) <|
      .cons (PileEntry.readsAs.writable_listed? g.buzzers) <|
      .cons (Segment.readsAs.writable_listed? g.walls) <|
      .cons (CellEntry.readsAs.writable_listed? g.dumpCells) .nil
  read g := by
    rw [ofJson?, Json.fields_record g.toJson_eq]
    · simp -implicitDefEqProofs [values, clamped, Json.readsAs_text.withDefault_some,
        Json.readsAs_uint64.required_some, PileEntry.readsAs.withDefault_listed?,
        Segment.readsAs.withDefault_listed?, CellEntry.readsAs.withDefault_listed?]
    · rfl
    · simp

end GridSection

namespace SetupSection

/-- What a document keeps of the setup. -/
def clamped (s : SetupSection) : SetupSection :=
  { s with bag := s.bag.clamped }

/-- The fields of the setup. -/
def values (s : SetupSection) : List (String × Option Json) :=
  [("name", some (.text s.name)), ("world", some (.text s.world)), ("x", some (.uint32 s.x)),
    ("y", some (.uint32 s.y)), ("orientation", some s.orientation.toJson),
    ("bag", some s.bag.toJson), ("dumps", Json.listed? DumpKind.toJson s.dumps)]

theorem toJson_eq (s : SetupSection) : s.toJson = .record (given s.values) := by
  rw [toJson, Json.listField_eq_given]
  rfl

theorem readsAs : ReadsAs ofJson? toJson clamped where
  writable s := by
    rw [toJson_eq]
    exact AllWritable.record <|
      .cons_some (Json.readsAs_text.writable s.name) <|
      .cons_some (Json.readsAs_text.writable s.world) <|
      .cons_some (Json.readsAs_uint32.writable s.x) <|
      .cons_some (Json.readsAs_uint32.writable s.y) <|
      .cons_some (Orientation.readsAs.writable s.orientation) <|
      .cons_some (Amount.readsAs.writable s.bag) <|
      .cons (DumpKind.readsAs.writable_listed? s.dumps) .nil
  read s := by
    rw [ofJson?, Json.fields_record s.toJson_eq]
    · simp -implicitDefEqProofs [values, clamped, Json.readsAs_text.withDefault_some,
        Json.readsAs_uint32.withDefault_some, Orientation.readsAs.withDefault_some,
        Amount.readsAs.withDefault_some, DumpKind.readsAs.withDefault_listed?]
    · rfl
    · simp

end SetupSection

namespace Document

/-- What the text of a document keeps of it. -/
def clamped (d : Document) : Document :=
  { d with grid := d.grid.clamped, setup := d.setup.clamped }

/-- The sections of a document. -/
def values (d : Document) : List (String × Option Json) :=
  [("conditions", some d.conditions.toJson), ("world", some d.grid.toJson),
    ("program", some d.setup.toJson)]

theorem toJson_eq (d : Document) : d.toJson = .record (given d.values) :=
  rfl

theorem readsAs : ReadsAs ofJson? toJson clamped where
  writable d := by
    rw [toJson_eq]
    exact AllWritable.record <|
      .cons_some (Conditions.readsAs.writable d.conditions) <|
      .cons_some (GridSection.readsAs.writable d.grid) <|
      .cons_some (SetupSection.readsAs.writable d.setup) .nil
  read d := by
    rw [ofJson?, Json.fields_record d.toJson_eq]
    · simp -implicitDefEqProofs [values, clamped, Conditions.readsAs.withDefault_some,
        GridSection.readsAs.required_some, SetupSection.readsAs.withDefault_some]
    · rfl
    · simp

/-- A text that has been written is read, and keeps all but the amounts below minus one. -/
theorem parse_render (d : Document) : parse d.render = some d.clamped := by
  rw [parse, render, Json.parse_pretty (readsAs.writable d)]
  exact readsAs.read d

end Document

/-! ## What is kept as it is -/

theorem Amount.clamped_eq_self_iff {a : Amount} : a.clamped = a ↔ -1 ≤ a.count := by
  rw [← Int32.not_lt, clamped]
  split
  · rename_i hbelow
    refine ⟨fun hzero => ?_, fun habove => absurd hbelow habove⟩
    rw [← hzero]
    decide
  · rename_i habove
    exact ⟨fun _ => habove, fun _ => rfl⟩

theorem PileEntry.clamped_eq_self_iff {e : PileEntry} : e.clamped = e ↔ -1 ≤ e.count.count := by
  rw [← Amount.clamped_eq_self_iff]
  cases e
  simp [clamped]

theorem Document.clamped_eq_self_iff {d : Document} :
    d.clamped = d ↔ (∀ e ∈ d.grid.buzzers, -1 ≤ e.count.count) ∧ -1 ≤ d.setup.bag.count := by
  rcases d with ⟨conditions, ⟨_, _, _, buzzers, _, _⟩, ⟨_, _, _, _, _, bag, _⟩⟩
  have hpiles : buzzers.map PileEntry.clamped = buzzers ↔ ∀ e ∈ buzzers, -1 ≤ e.count.count := by
    simp only [← PileEntry.clamped_eq_self_iff]
    simpa using List.map_inj_left (l := buzzers) (f := PileEntry.clamped) (g := id)
  simp only [clamped, GridSection.clamped, SetupSection.clamped, Document.mk.injEq,
    GridSection.mk.injEq, SetupSection.mk.injEq, true_and, and_true, hpiles,
    Amount.clamped_eq_self_iff]

namespace World

variable {w : World}

/-- The document of a world keeps its amounts, if they are counts or endless. -/
theorem clamped_snapshot {pile : Cell → Int32} (hpile : ∀ c, infinite ≤ pile c) (pose : Pose)
    {bag : Int32} (hbag : infinite ≤ bag) :
    (w.snapshot pile pose bag).clamped = w.snapshot pile pose bag := by
  refine Document.clamped_eq_self_iff.2 ⟨?_, hbag⟩
  intro e he
  obtain ⟨c, -, hc⟩ := List.mem_filterMap.1 he
  rw [listedPile?] at hc
  split at hc
  · exact absurd hc (by simp)
  · obtain rfl := Option.some.inj hc
    exact hpile c

end World

namespace Document

/-- The text of a document is read as the same document with every amount below minus one replaced
by zero; so it is read as the document itself exactly if there is no such amount. There is none in
the document of a world, be it that of the baseline or that of the world as a run has left it. -/
theorem text_round_trip :
    (∀ d : Document, parse d.render = some
      { d with
        grid :=
          { d.grid with
            buzzers := d.grid.buzzers.map fun e => { e with count := e.count.clamped } }
        setup := { d.setup with bag := d.setup.bag.clamped } }) ∧
    (∀ d : Document, parse d.render = some d ↔
      (∀ e ∈ d.grid.buzzers, -1 ≤ e.count.count) ∧ -1 ≤ d.setup.bag.count) ∧
    ∀ w : World, w.Reachable →
      parse w.save.render = some w.save ∧ parse w.saveCurrent.render = some w.saveCurrent := by
  refine ⟨parse_render, ?_, ?_⟩
  · intro d
    rw [parse_render, Option.some.injEq, clamped_eq_self_iff]
  · intro w hw
    have hstocked := hw.wellFormed.stocked
    constructor
    · rw [parse_render, World.save, World.clamped_snapshot hstocked.startPile _ hstocked.startBag]
    · rw [parse_render, World.saveCurrent, World.clamped_snapshot hstocked.pile _ hstocked.bag]

/-- A world with an endless pile of which the robot has taken a buzzer, and names that have to be
escaped. -/
def escaped : World :=
  (((World.new 2 2).edited (.setNames "\"\\\n\x07" "µ😀")).edited (.setPile ⟨1, 1⟩ (-7))).edited
    (.execute .pickBuzzer (.fresh {}) [])

/-- The documents of that world are read back, and a debt in the bag is read as an empty bag. -/
theorem text_round_trip_escaped :
    escaped.Reachable ∧
      parse escaped.save.render = some escaped.save ∧
      parse escaped.saveCurrent.render = some escaped.saveCurrent ∧
      escaped.saveCurrent.setup.bag = ⟨1⟩ ∧
      escaped.saveCurrent.grid.buzzers = [⟨1, 1, ⟨-1⟩⟩] ∧
      parse { escaped.save with setup.bag := ⟨-5⟩ }.render = some escaped.save := by
  have hreachable : escaped.Reachable := (((World.Reachable.new 2 2).edited _).edited _).edited _
  obtain ⟨hread, -, hworld⟩ := text_round_trip
  refine ⟨hreachable, (hworld escaped hreachable).1, (hworld escaped hreachable).2,
    by decide +kernel, by decide +kernel, ?_⟩
  rw [hread]
  decide +kernel

end Document

end GridRobot
