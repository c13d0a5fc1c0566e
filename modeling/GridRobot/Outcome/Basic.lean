import GridRobot.Document.Basic
import GridRobot.Session

/-!
# The report of a run

A report gives the status of the run and those diagnostics that the world asks for: where the robot
is, what is in its bag, how often each action was performed, and the buzzers left in the world.

The buzzer dump has one line for each row that has buzzers to show, from the north down. A line lists
the piles of the reported cells from west to east. The column is written before a pile unless the
reported cell before it in the row holds buzzers too. Numbers are shown modulo 65536.
-/

set_option autoImplicit false

namespace GridRobot

/-- A line of the buzzer dump. -/
structure DumpLine where
  row : Int32
  zeroCompression : Bool
  text : String
  deriving DecidableEq, Repr

/-- The buzzers left in the world. -/
structure WorldReport where
  name : String
  lines : List DumpLine
  deriving DecidableEq, Repr

/-- Where the robot is and what it carries. -/
structure RobotReport where
  x : Option Int32 := none
  y : Option Int32 := none
  orientation : Option Orientation := none
  bag : Option Amount := none
  deriving DecidableEq, Repr

/-- How the program ended. -/
structure ProgramReport where
  name : String
  status : String
  robot : Option RobotReport := none
  instructions : Option (PerAction (Option UInt64)) := none
  deriving DecidableEq, Repr

/-- The report of a run. -/
structure Outcome where
  world : Option WorldReport := none
  program : ProgramReport
  deriving DecidableEq, Repr

namespace World

/-- The number that a dump shows for a pile. -/
def shownCount (n : Int32) : Nat :=
  n.toUInt32.toNat % 65536

/-- The text of reported cells, given by column and pile. The column of the first pile is written
when `named` holds. -/
def pilesText : Bool → List (Nat × Int32) → List Char
  | _, [] => []
  | named, (col, n) :: rest =>
    if n = 0 then pilesText true rest
    else
      (if named then '(' :: Nat.toDigits 10 col ++ [')', ' '] else []) ++
        (Nat.toDigits 10 (shownCount n) ++ ' ' :: pilesText false rest)

/-- The reported cells of a row by column and pile: all cells, or the marked ones. -/
def reportedPiles (w : World) (all : Bool) (row : Nat) : List (Nat × Int32) :=
  (List.range w.width).filterMap fun i =>
    let c := Cell.ofNat row (i + 1)
    if all || w.isMarked c then some (i + 1, w.pile c) else none

/-- The line of a row, if it has buzzers to show. -/
def dumpLine? (w : World) (all : Bool) (row : Nat) : Option DumpLine :=
  match pilesText true (w.reportedPiles all row) with
  | [] => none
  | text => some ⟨Int32.ofNat row, true, String.ofList text⟩

/-- The buzzer dump. -/
def dumpLines (w : World) (all : Bool) : List DumpLine :=
  (List.range w.height).reverse.filterMap fun i => w.dumpLine? all (i + 1)

end World

namespace Outcome

/-- A value that is shown only if it is asked for. -/
def shown {α : Type} (asked : Bool) (a : α) : Option α :=
  if asked then some a else none

/-- A part that is shown only if it differs from the part that shows nothing. -/
def unlessBlank {α : Type} [DecidableEq α] (blank a : α) : Option α :=
  if a = blank then none else some a

/-- The report on a world and a machine. -/
def build (w : World) (m : Machine) : Outcome :=
  let robot : RobotReport :=
    { x := shown (w.hasDump .position) w.pose.col
      y := shown (w.hasDump .position) w.pose.row
      orientation := shown (w.hasDump .orientation) w.pose.facing
      bag := shown (w.hasDump .bag) ⟨w.bag⟩ }
  let counter (a : Action) : Option UInt64 :=
    shown (w.hasDump (.action a)) (UInt64.ofNat (m.counters.get a))
  { world :=
      shown (w.hasDump .world || w.hasDump .allBuzzers)
        ⟨w.name, w.dumpLines (w.hasDump .allBuzzers)⟩
    program :=
      { name := w.programName
        status := Fault.phrase m.fault
        robot := unlessBlank {} robot
        instructions :=
          unlessBlank (.const none)
            ⟨counter .forward, counter .left, counter .pickBuzzer, counter .leaveBuzzer⟩ } }

end Outcome

/-- The report on a session. -/
def Session.outcome (s : Session) : Outcome :=
  .build s.world s.machine

end GridRobot
