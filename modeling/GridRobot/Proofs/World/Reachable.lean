import GridRobot.Proofs.Machine.Step
import GridRobot.Proofs.World.Settled

/-!
# The worlds a program can come across

A world comes into being as a new world, from a document or from legacy buffers, and is changed by
edits and by instructions of the machine. `Reachable` collects what any number of such changes, aimed
at any cell and with any counts, can lead to. What every change preserves holds of all of them: every
reachable world is well formed.
-/

set_option autoImplicit false

namespace GridRobot

/-- A change to a world. -/
inductive Edit where
  | addWall (c : Cell) (side : Orientation)
  | toggleWall (c : Cell) (side : Orientation)
  | setPile (c : Cell) (n : Int32)
  | pick (c : Cell)
  | leave (c : Cell)
  | moveTo (c : Cell)
  | rotate (o : Orientation)
  | setBag (n : Int32)
  | turnLeft
  | stepForward
  | setDump (k : DumpKind) (enabled : Bool)
  | setMark (c : Cell) (enabled : Bool)
  | setLimits (limits : Limits)
  | setNames (name programName : String)
  | reset
  | clear
  | resize (width height : Nat)
  /-- Loads a document in place of the world; one that is refused changes nothing. -/
  | load (d : Document)
  /-- Executes an instruction, whatever the state of the machine and the queue of events. -/
  | execute (i : Instruction) (m : Machine) (queue : List Event)

namespace World

/-- The world after a change. -/
def edited (w : World) : Edit → World
  | .addWall c side => w.addWall c side
  | .toggleWall c side => w.toggleWall c side
  | .setPile c n => w.setPile c n
  | .pick c => w.pick c
  | .leave c => w.leave c
  | .moveTo c => w.moveTo c
  | .rotate o => w.rotate o
  | .setBag n => w.setBag n
  | .turnLeft => w.turnLeft
  | .stepForward => w.stepForward
  | .setDump k enabled => w.setDump k enabled
  | .setMark c enabled => w.setMark c enabled
  | .setLimits limits => { w with limits }
  | .setNames name programName => { w with name, programName }
  | .reset => w.reset
  | .clear => w.clear
  | .resize width height => w.resize width height
  | .load d =>
    match ofDocument d with
    | .ok v => v
    | .error _ => w
  | .execute i m queue => (GridRobot.execute i ⟨m, w, queue⟩).1.world

/-- The worlds that changes lead to from new and loaded worlds. -/
inductive Reachable : World → Prop
  | new (width height : Nat) : Reachable (new width height)
  | ofDocument {d : Document} {w : World} (h : ofDocument d = .ok w) : Reachable w
  | decode {l : LegacyWorld} {w : World} (h : l.decode = .ok w) : Reachable w
  | edited {w : World} (h : Reachable w) (e : Edit) : Reachable (w.edited e)

variable {w : World}

/-- An instruction does to the world what an action of the robot does, or nothing. -/
theorem WellFormed.execute (h : w.WellFormed) (i : Instruction) (m : Machine) (queue : List Event) :
    (GridRobot.execute i ⟨m, w, queue⟩).1.world.WellFormed := by
  rw [execute_world]
  cases i.action? with
  | none => exact h
  | some a => exact h.perform a

/-- No change spoils a world. -/
theorem WellFormed.edited (h : w.WellFormed) (e : Edit) : (w.edited e).WellFormed := by
  cases e with
  | addWall c side => exact h.addWall c side
  | toggleWall c side => exact h.toggleWall c side
  | setPile c n => exact h.setPile c n
  | pick c => exact h.pick c
  | leave c => exact h.leave c
  | moveTo c => exact h.moveTo c
  | rotate o => exact h.rotate o
  | setBag n => exact h.setBag n
  | turnLeft => exact h.perform .left
  | stepForward => exact h.perform .forward
  | setDump k enabled => exact h.setDump k enabled
  | setMark c enabled => exact h.setMark c enabled
  | setLimits limits => exact h.withSettings _ _ _ _ limits
  | setNames name programName => exact h.withSettings name programName _ _ _
  | reset => exact h.reset
  | clear => exact h.clear
  | resize width height => exact h.resize width height
  | load d =>
    cases hload : World.ofDocument d with
    | error err =>
      simp only [World.edited, hload]
      exact h
    | ok v =>
      simp only [World.edited, hload]
      exact (settled_of_ofDocument hload).wellFormed
  | execute i m queue => exact h.execute i m queue

theorem Reachable.wellFormed (h : w.Reachable) : w.WellFormed := by
  induction h with
  | new width height => exact wellFormed_new width height
  | ofDocument h => exact (settled_of_ofDocument h).wellFormed
  | decode h => exact (LegacyWorld.settled_of_decode h).wellFormed
  | edited _ e ih => exact ih.edited e

/-- Any number of changes lead to a reachable world. -/
theorem Reachable.foldl (h : w.Reachable) (edits : List Edit) :
    (edits.foldl World.edited w).Reachable := by
  induction edits generalizing w with
  | nil => exact h
  | cons e edits ih => exact ih (h.edited e)

/-! ## Runs of the machine -/

/-- A step of a session leads from a reachable world to a reachable world. -/
theorem Reachable.next {s : Session} (h : s.world.Reachable) : s.next.world.Reachable := by
  -- of the ways a step can end, only an executed instruction touches the world
  rw [Session.next]
  split
  · split
    · exact h
    · rename_i i _
      split
      · exact h
      · rw [Session.deliver_world]
        exact h.edited (.execute i (Session.advanced s.machine i) s.queue)
  · exact h

theorem Reachable.advance {s : Session} (h : s.world.Reachable) : s.advance.world.Reachable := by
  have hnext := h.next
  rw [Session.advance]
  dsimp only
  split
  · split <;> exact hnext
  · exact hnext

/-- A run, however long, stays among the reachable worlds. -/
theorem Reachable.run {s : Session} (h : s.world.Reachable) (fuel : Nat) :
    (Session.run fuel s).world.Reachable := by
  induction fuel generalizing s with
  | zero => exact h
  | succ fuel ih =>
    rw [Session.run_succ]
    split
    · exact ih h.advance
    · exact h.advance

end World

end GridRobot
