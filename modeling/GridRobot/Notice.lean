import GridRobot.Document.Load
import GridRobot.Legacy
import GridRobot.Recorder

/-!
# What is worth logging

A notice is something that happens while worlds are loaded and programs run. Each has a level, a
topic, the part of the program it comes from, and words. Notices are computed from the values that
the library works with, so nothing in the library depends on them.
-/

set_option autoImplicit false

namespace GridRobot

/-- How important a notice is. -/
inductive Level where
  | error
  | warn
  | info
  | debug
  | trace
  deriving DecidableEq, Repr

/-- The levels by number; a less important one has a higher number. -/
def Level.rank : Level → Nat
  | error => 1
  | warn => 2
  | info => 3
  | debug => 4
  | trace => 5

/-- What a notice is about. -/
inductive Topic where
  | application
  | world
  | vm
  | instructions
  deriving DecidableEq, Repr

/-- The name of a topic. -/
def Topic.name : Topic → String
  | application => "karel"
  | world => "world"
  | vm => "vm"
  | instructions => "instructions"

/-- Where an instruction stands in a run: its address and the instructions counted so far. -/
structure Mark where
  pc : Nat
  count : Nat
  deriving DecidableEq, Repr

/-- Something that happens while worlds are loaded and programs run. -/
inductive Notice where
  | wallAdded (c : Cell) (side : Orientation)
  /-- A limit of a legacy world that has no effect. -/
  | limitIgnored (name : String) (value : Nat)
  | started (instructions : Nat) (world : String) (width height : Nat)
  | executing (m : Mark) (i : Instruction)
  | branching (m : Mark) (v : Int32)
  | assertionFailed (m : Mark) (c : Condition)
  | capExceeded (m : Mark) (a : Action) (cap : UInt64)
  | budgetExhausted (m : Mark) (f : Fault)
  | faulted (m : Mark) (f : Fault) (i : Instruction)
  /-- A call that brings the number of open calls to `depth`. -/
  | called (depth : Nat) (function : String) (param line : Int32)
  /-- A return while `depth` calls are open. -/
  | returned (depth : Nat) (line : Int32)
  | stopped (f : Option Fault) (count : Nat)
  | finished (f : Option Fault) (count : Nat)
  | summary (calls returns maxDepth : Nat)
  | imported (path : String) (width height : Nat)
  | failed (message : String)
  deriving DecidableEq, Repr

/-- A number with zeros in front up to a width. -/
def zeroPadded (width n : Nat) : String :=
  let digits := Nat.toDigits 10 n
  String.ofList (List.replicate (width - digits.length) '0' ++ digits)

/-- The place of an instruction in front of a notice. -/
def Mark.text (m : Mark) : String :=
  "[PC" ++ zeroPadded 4 m.pc ++ "][IC" ++ zeroPadded 6 m.count ++ "] "

/-- The name of an action in notices. -/
def Action.title : Action → String
  | forward => "Forward"
  | left => "Left"
  | pickBuzzer => "PickBuzzer"
  | leaveBuzzer => "LeaveBuzzer"

/-- The fault of a run, if any, in notices. -/
def Fault.optionText : Option Fault → String
  | some f => "Some(" ++ f.name ++ ")"
  | none => "None"

/-- Two blanks for each open call around the one a notice is about. -/
def callIndent (depth : Nat) : String :=
  String.ofList (List.replicate (2 * (depth - 1)) ' ')

namespace Notice

/-- The level of a notice. -/
def level : Notice → Level
  | failed _ => .error
  | limitIgnored .. => .warn
  | started .. | finished .. | summary .. | imported .. => .info
  | _ => .debug

/-- The topic of a notice. -/
def topic : Notice → Topic
  | wallAdded .. | limitIgnored .. => .world
  | executing .. | branching .. => .instructions
  | started .. | finished .. | summary .. | imported .. | failed _ => .application
  | _ => .vm

/-- The part of the program that a notice comes from. -/
def origin : Notice → String
  | wallAdded .. => "karel::world"
  | limitIgnored .. => "karel::importer"
  | executing .. | budgetExhausted .. | faulted .. | stopped .. => "karel::vm::runtime"
  | branching .. => "karel::vm::executor::control_flow_ops"
  | assertionFailed .. => "karel::vm::executor::logic_ops"
  | capExceeded .. => "karel::vm::executor::world_ops"
  | _ => "karel"

/-- The words of a notice. -/
def message : Notice → String
  | wallAdded c side =>
    s!"Wall added at ({c.row.toInt}, {c.col.toInt}) " ++ side.token
  | limitIgnored name value => s!"Ignoring legacy {name} limit {value}: not supported"
  | started instructions world width height =>
    s!"Running {instructions} instructions on '{world}' ({width}x{height})"
  | executing m i => m.text ++ "Executing " ++ i.text
  | branching m v =>
    m.text ++ s!"JZ: value = {v.toInt}, jumping? " ++ (if v = 0 then "true" else "false")
  | assertionFailed m c => m.text ++ "EZ " ++ c.mnemonic ++ " failed"
  | capExceeded m a cap => m.text ++ a.title ++ s!" cap {cap.toNat} exceeded"
  | budgetExhausted m f => m.text ++ "Budget exhausted: " ++ f.message
  | faulted m f i =>
    m.text ++ "Fault " ++ f.name ++ " (" ++ f.message ++ ") executing " ++ i.text
  | called depth function param line =>
    callIndent depth ++ s!"CALL {function}({param.toInt}) at line {line.toInt}"
  | returned depth line => callIndent depth ++ s!"RET at line {line.toInt}"
  | stopped f count =>
    "Program finished: fault = " ++ Fault.optionText f ++ s!", instructions = {count}"
  | finished f count => s!"Finished after {count} instructions: " ++ Fault.phrase f
  | summary calls returns maxDepth =>
    s!"{calls} calls, {returns} returns, max call depth {maxDepth}"
  | imported path width height => s!"Imported {path} ({width}x{height})"
  | failed message => message

end Notice

/-! ## Notices of loading -/

/-- The walls that close the border of a new world. -/
def borderNotices (width height : Nat) : List Notice :=
  (borderSides width height).map fun (c, side) => .wallAdded c side

/-- The walls that are added to a grid, those outside it left out. -/
def wallNotices (width height : Nat) (sides : List (Cell × Orientation)) : List Notice :=
  (sides.filter fun (c, _) => (gridIndex? width height c).isSome).map fun (c, side) =>
    .wallAdded c side

/-- The sides that segments close, up to the first segment that is refused. -/
def acceptedSides : List Segment → List (Cell × Orientation)
  | [] => []
  | s :: rest =>
    match s.side with
    | .ok side => side :: acceptedSides rest
    | .error _ => []

/-- The notices of loading a document. -/
def Document.notices (d : Document) : List Notice :=
  let width := d.grid.width.toNat
  let height := d.grid.height.toNat
  if acceptsSize width height then
    borderNotices width height ++ wallNotices width height (acceptedSides d.grid.walls)
  else []

/-- The notices of loading a legacy world. -/
def LegacyWorld.notices (l : LegacyWorld) : List Notice :=
  let border := borderNotices l.width l.height
  let contents :=
    wallNotices l.width l.height l.closedSides ++
      l.ignoredLimits.map fun (name, value) => .limitIgnored name value
  match l.decode with
  | .ok _ => border ++ contents
  | .error (.truncated .limits _ _) => border ++ contents
  | .error (.invalidCoordinate _ _) => border
  | .error (.invalidOrientation _) => border
  | .error _ => []

/-! ## Notices of running -/

/-- The notices that come from within an instruction. -/
def instructionNotices (m : Mark) (i : Instruction) (s : Session) : List Notice :=
  match i with
  | .jz _ =>
    match s.machine.stack.peek with
    | .ok v => [.branching m v]
    | .error _ => []
  | .ez c =>
    match s.machine.stack.peek with
    | .ok v => if v = 0 then [.assertionFailed m c] else []
    | .error _ => []
  | i =>
    match i.action? with
    | none => []
    | some a =>
      match s.world.limits.caps.get a with
      | some cap =>
        if cap.toNat < s.machine.counters.get a + 1 then [.capExceeded m a cap] else []
      | none => []

/-- The notices of going from a session to the next, those of calls and returns left out. -/
def Session.notices (s t : Session) : List Notice :=
  if s.running then
    match s.fetch? with
    | none => []
    | some i =>
      let before : Mark := ⟨s.machine.pc, s.machine.instructionCount⟩
      match s.refusal? with
      | some f => [.budgetExhausted before f]
      | none =>
        let count := t.machine.instructionCount
        [.executing before i] ++ instructionNotices ⟨s.machine.pc + 1, count⟩ i s ++
          match t.machine.fault with
          | some f => [.faulted ⟨s.machine.pc, count⟩ f i]
          | none => []
  else []

/-- The notice of a call or a return, to a recorder that has not followed it yet. -/
def Recorder.notice (r : Recorder) : Notification → Notice
  | .call function param line => .called (r.depth + 1) function param line
  | .ret line => .returned r.depth line

end GridRobot
