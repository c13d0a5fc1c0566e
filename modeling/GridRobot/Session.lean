import GridRobot.Machine.Family
import GridRobot.Program

/-!
# Sessions

A session is a world and a machine that executes a program against it. `Session.next` executes one
instruction, `Session.step` executes up to the next source line, and `Session.run` executes to the
end. The last two take the number of instructions they may execute, since a program may fail to end;
a session that still runs afterwards was stopped by that number.

An observer may be installed. While it is, and while notifications are on, it is told of every call
and return; `Session.heard` is what it has been told.
-/

set_option autoImplicit false

namespace GridRobot

/-- What an observer is told. -/
inductive Notification where
  | call (function : String) (param : Int32) (line : Int32)
  | ret (line : Int32)
  deriving DecidableEq, Repr

/-- An event with the name of its function. -/
def Event.notification (p : Program) : Event → Notification
  | .call function param line => .call (p.functionName function) param line
  | .ret line => .ret line

/-- A world and a machine that executes a program against it. -/
structure Session where
  world : World
  program : Program
  machine : Machine
  /-- The events that have not been delivered, oldest first. -/
  queue : List Event := []
  notifications : Bool := true
  /-- Whether an observer is installed. -/
  observed : Bool := false
  /-- What the observer has been told, latest first. -/
  heard : List Notification := []
  deriving DecidableEq

namespace Session

/-- A session at its start. -/
def new (world : World) (program : Program) : Session :=
  { world, program, machine := .fresh world.limits }

/-- Starts the machine over; the world stays as it is. -/
def restart (s : Session) : Session :=
  { s with machine := .fresh s.world.limits, queue := [] }

/-- Restores the baselines of the world and starts the machine over. -/
def reset (s : Session) : Session :=
  { s with world := s.world.reset }.restart

/-- Replaces the program and starts the machine over. -/
def load (s : Session) (program : Program) : Session :=
  { s with program }.restart

/-- Whether the machine is running. -/
def running (s : Session) : Bool :=
  s.machine.running

/-- The next instruction, if the program has one. -/
def fetch? (s : Session) : Option Instruction :=
  s.program.code[s.machine.pc]?

/-- The fault of a budget that is used up. The instruction limit is checked before the depth limit. -/
def refusal? (s : Session) : Option Fault :=
  if s.world.limits.maxInstructions.toNat ≤ s.machine.instructionCount then some .instruction
  else if s.world.limits.maxCallDepth.toNat ≤ s.machine.callDepth then some .stack
  else none

/-- The machine as an instruction finds it: past the instruction, which has been counted. -/
def advanced (m : Machine) (i : Instruction) : Machine :=
  { m with
    pc := m.pc + 1
    instructionCount := if i.consumesBudget then m.instructionCount + 1 else m.instructionCount }

/-- Executes an instruction. -/
def executeNext (s : Session) (i : Instruction) : Session :=
  let (scene, _) := execute i ⟨advanced s.machine i, s.world, s.queue⟩
  { s with machine := scene.machine, world := scene.world, queue := scene.queue }

/-- Empties the queue, telling the observer if there is one that wants to know. -/
def deliver (s : Session) : Session :=
  if s.notifications && s.observed then
    { s with
      queue := []
      heard := s.queue.foldl (fun heard e => e.notification s.program :: heard) s.heard }
  else { s with queue := [] }

/-- Executes one instruction, unless the machine has stopped. A program ends where it has no further
instruction; a budget that is used up stops the machine before the instruction. -/
def next (s : Session) : Session :=
  if s.running then
    match s.fetch? with
    | none => { s with machine := s.machine.halt }
    | some i =>
      match s.refusal? with
      | some f => { s with machine := s.machine.raise f }
      | none => (s.executeNext i).deliver
  else s

/-- The source line that the next instruction enters, if it enters one. -/
def lineAhead? (s : Session) : Option Int32 :=
  match s.fetch? with
  | some (.line n) => some n
  | _ => none

/-- Executes one instruction and, if the machine still runs, enters the source line ahead. -/
def advance (s : Session) : Session :=
  let t := s.next
  if t.running then
    match t.lineAhead? with
    | some n => { t with machine := { t.machine with line := n } }
    | none => t
  else t

/-- Executes up to the next source line, at most `fuel` instructions. -/
def step : Nat → Session → Session
  | 0, s => s
  | fuel + 1, s =>
    let t := s.advance
    if t.running && t.lineAhead?.isNone then step fuel t else t

/-- Executes to the end, at most `fuel` instructions. -/
def run : Nat → Session → Session
  | 0, s => s
  | fuel + 1, s =>
    let t := s.advance
    if t.running then run fuel t else t

/-- A stopped session does not go on. -/
theorem next_of_stopped {s : Session} (h : s.running = false) : s.next = s := by
  simp [next, h]

/-- A stopped session does not go on. -/
theorem advance_of_stopped {s : Session} (h : s.running = false) : s.advance = s := by
  simp [advance, next_of_stopped h, h]

/-- A stopped session does not go on. -/
theorem run_of_stopped (fuel : Nat) {s : Session} (h : s.running = false) : run fuel s = s := by
  cases fuel with
  | zero => rfl
  | succ fuel => simp [run, advance_of_stopped h, h]

/-- One unit of fuel buys one advance. -/
theorem run_succ (fuel : Nat) (s : Session) :
    run (fuel + 1) s = if s.advance.running then run fuel s.advance else s.advance :=
  rfl

end Session

end GridRobot
