import GridRobot.Json.Fields

/-!
# Actions of the robot and what a report may show

The robot has four actions. Each may be capped, each is counted, and each count may be shown in the
report of a run; `PerAction` holds one value for each of them.
-/

set_option autoImplicit false

namespace GridRobot

/-- What the robot can do. -/
inductive Action where
  | forward
  | left
  | pickBuzzer
  | leaveBuzzer
  deriving DecidableEq, Repr

namespace Action

/-- The actions in the order in which they are listed. -/
def all : List Action := [forward, left, pickBuzzer, leaveBuzzer]

/-- The name of an action. -/
def token : Action → String
  | forward => "FORWARD"
  | left => "LEFT"
  | pickBuzzer => "PICK_BUZZER"
  | leaveBuzzer => "LEAVE_BUZZER"

/-- The action with the given name, in either language. -/
def ofToken? : String → Option Action
  | "FORWARD" | "AVANZA" => some forward
  | "LEFT" | "GIRA_IZQUIERDA" => some left
  | "PICK_BUZZER" | "COGE_ZUMBADOR" => some pickBuzzer
  | "LEAVE_BUZZER" | "DEJA_ZUMBADOR" => some leaveBuzzer
  | _ => none

/-- The name of an action is read back. -/
@[simp] theorem ofToken?_token (a : Action) : ofToken? a.token = some a := by
  cases a <;> rfl

/-- An action in a document. -/
def ofJson? (j : Json) : Option Action :=
  j.asToken?.bind ofToken?

/-- An action as a document writes it. -/
def toJson (a : Action) : Json :=
  .text a.token

end Action

/-- One value for each action. -/
structure PerAction (α : Type) where
  forward : α
  left : α
  pickBuzzer : α
  leaveBuzzer : α
  deriving DecidableEq, Repr

namespace PerAction

variable {α : Type}

/-- The same value for each action. -/
def const (a : α) : PerAction α := ⟨a, a, a, a⟩

/-- The value for an action. -/
def get (p : PerAction α) : Action → α
  | .forward => p.forward
  | .left => p.left
  | .pickBuzzer => p.pickBuzzer
  | .leaveBuzzer => p.leaveBuzzer

/-- Replaces the value for an action. -/
def set (p : PerAction α) (a : Action) (v : α) : PerAction α :=
  match a with
  | .forward => { p with forward := v }
  | .left => { p with left := v }
  | .pickBuzzer => { p with pickBuzzer := v }
  | .leaveBuzzer => { p with leaveBuzzer := v }

@[simp] theorem get_const (a : α) (k : Action) : (const a).get k = a := by
  cases k <;> rfl

theorem get_set (p : PerAction α) (a b : Action) (v : α) :
    (p.set a v).get b = if a = b then v else p.get b := by
  cases a <;> cases b <;> rfl

end PerAction

/-- A part of the report of a run. -/
inductive DumpKind where
  | world
  | allBuzzers
  | position
  | orientation
  | bag
  | action (a : Action)
  deriving DecidableEq, Repr

namespace DumpKind

/-- The parts of the report in the order in which they are listed. -/
def all : List DumpKind :=
  [world, allBuzzers, position, orientation, bag] ++ Action.all.map action

/-- The name of a part of the report. -/
def token : DumpKind → String
  | world => "WORLD"
  | allBuzzers => "ALL_BUZZERS"
  | position => "POSITION"
  | orientation => "ORIENTATION"
  | bag => "BAG"
  | action a => a.token

/-- The part of the report with the given name, in either language. -/
def ofToken? : String → Option DumpKind
  | "WORLD" | "MUNDO" => some world
  | "ALL_BUZZERS" | "UNIVERSO" => some allBuzzers
  | "POSITION" | "POSICION" => some position
  | "ORIENTATION" | "ORIENTACION" => some orientation
  | "BAG" | "MOCHILA" => some bag
  | s => (Action.ofToken? s).map action

/-- The name of a part of the report is read back. -/
@[simp] theorem ofToken?_token (k : DumpKind) : ofToken? k.token = some k := by
  cases k with
  | action a => cases a <;> rfl
  | _ => rfl

/-- A part of the report as a document names it. -/
def ofJson? (j : Json) : Option DumpKind :=
  j.asToken?.bind ofToken?

/-- A part of the report as a document writes it. -/
def toJson (k : DumpKind) : Json :=
  .text k.token

/-- Adds a part to a selection. A selection lists its parts once each, in their order. -/
def select (k : DumpKind) (ks : List DumpKind) : List DumpKind :=
  all.filter fun other => other = k || ks.contains other

/-- Takes a part out of a selection. -/
def unselect (k : DumpKind) (ks : List DumpKind) : List DumpKind :=
  ks.filter fun other => other ≠ k

end DumpKind

end GridRobot
