import GridRobot.Outcome.Basic
import GridRobot.Proofs.Session.Drive

/-!
# A reset forgets the run

A run changes the pose of the robot, the bag and the piles, and nothing else of the world
(`World.SameBaseline`). All that a reset restores them from is therefore still there, and the
machine and its queue start over: whatever has been done with a session short of editing its world,
a reset gives what a reset would have given at once, up to what observers have been told
(`reset_forgets`).

Two runs that begin with a reset differ in nothing, since they begin as twins.
-/

set_option autoImplicit false

namespace GridRobot

/-! ## What a run leaves alone in the world -/

/-- The second world differs from the first in pose, bag and piles at most. -/
def World.SameBaseline (w v : World) : Prop :=
  v = { w with pose := v.pose, bag := v.bag, piles := v.piles }

namespace World

variable {w v : World}

theorem SameBaseline.refl (w : World) : w.SameBaseline w :=
  rfl

theorem SameBaseline.trans {u : World} (h : w.SameBaseline v) (h' : v.SameBaseline u) :
    w.SameBaseline u := by
  rw [SameBaseline] at h h' ⊢
  rw [h', h]

theorem sameBaseline_pick (w : World) (c : Cell) : w.SameBaseline (w.pick c) := by
  rw [pick]
  split
  · rfl
  · split <;> rfl

theorem sameBaseline_leave (w : World) (c : Cell) : w.SameBaseline (w.leave c) := by
  rw [leave]
  split
  · rfl
  · split <;> rfl

/-- The robot does not touch what a reset restores. -/
theorem sameBaseline_perform (w : World) (a : Action) : w.SameBaseline (w.perform a) := by
  cases a with
  | forward | left => rfl
  | pickBuzzer => exact w.sameBaseline_pick _
  | leaveBuzzer => exact w.sameBaseline_leave _

theorem sameBaseline_reset (w : World) : w.SameBaseline w.reset :=
  rfl

/-- A reset depends on the baseline alone. -/
theorem SameBaseline.reset_eq (h : w.SameBaseline v) : v.reset = w.reset := by
  rw [SameBaseline] at h
  rw [h]
  rfl

end World

/-- Whether or not it raises a fault, an instruction leaves the baseline as it is. -/
theorem sameBaseline_execute (i : Instruction) (s : Scene) :
    s.world.SameBaseline (execute i s).1.world := by
  rw [execute_world]
  cases i.action? with
  | none => exact .refl _
  | some a => exact s.world.sameBaseline_perform a

/-! ## Commands -/

namespace Session

/-- What can be asked of a session short of editing its world. -/
inductive Command where
  | drive (d : Drive)
  /-- Starts the machine over and leaves the world as it is. -/
  | restart
  | reset
  | notify (enabled : Bool)
  deriving DecidableEq, Repr

/-- The session after a command. -/
def obey (s : Session) : Command → Session
  | .drive d => s.drive d
  | .restart => s.restart
  | .reset => s.reset
  | .notify enabled => { s with notifications := enabled }

/-- The session after several commands. -/
def obeyAll (s : Session) (cs : List Command) : Session :=
  cs.foldl obey s

variable {s t : Session}

theorem sameBaseline_next (s : Session) : s.world.SameBaseline s.next.world := by
  rw [next]
  split
  · split
    · exact .refl _
    · rename_i i _
      split
      · exact .refl _
      · rw [deliver_world]
        exact sameBaseline_execute i (s.scene i)
  · exact .refl _

/-- What a session keeps of another under every command: the program, the observer, and the world
but for pose, bag and piles. -/
structure Kept (s t : Session) : Prop where
  world : s.world.SameBaseline t.world
  program : t.program = s.program
  observed : t.observed = s.observed

namespace Kept

theorem refl (s : Session) : s.Kept s :=
  ⟨.refl _, rfl, rfl⟩

theorem next (h : s.Kept t) : s.Kept t.next := by
  have hobserved : t.next.observed = t.observed := by
    rw [Session.next]
    split
    · split
      · rfl
      · split
        · rfl
        · rw [deliver]
          split <;> rfl
    · rfl
  exact ⟨h.world.trans t.sameBaseline_next, (next_program t).trans h.program,
    hobserved.trans h.observed⟩

theorem drive (h : s.Kept t) (d : Drive) : s.Kept (t.drive d) := by
  apply drive_induction (P := s.Kept) _ _ h d
  · intro u hu
    exact hu.next
  · intro u n hu _ _
    exact ⟨hu.world, hu.program, hu.observed⟩

theorem obey (h : s.Kept t) (c : Command) : s.Kept (t.obey c) := by
  cases c with
  | drive d => exact h.drive d
  | restart => exact ⟨h.world, h.program, h.observed⟩
  | reset => exact ⟨h.world.trans t.world.sameBaseline_reset, h.program, h.observed⟩
  | notify enabled => exact ⟨h.world, h.program, h.observed⟩

theorem obeyAll (h : s.Kept t) (cs : List Command) : s.Kept (t.obeyAll cs) := by
  induction cs generalizing t with
  | nil => exact h
  | cons c cs ih => exact ih (h.obey c)

/-- What is kept decides what a reset gives, up to what has been told to the observer. -/
theorem reset_eq (h : s.Kept t) :
    t.reset = { s.reset with notifications := t.notifications, heard := t.heard } := by
  simp only [reset, restart, h.world.reset_eq, h.program, h.observed]

theorem twin_reset (h : s.Kept t) : t.reset.Twin s.reset := by
  rw [h.reset_eq]
  exact ⟨rfl, rfl, rfl, rfl⟩

end Kept

namespace Twin

theorem reset (h : s.Twin t) : s.reset.Twin t.reset := by
  simp only [Session.reset, restart, h.world]
  exact ⟨rfl, h.program, rfl, rfl⟩

theorem obey (h : s.Twin t) (c : Command) : (s.obey c).Twin (t.obey c) := by
  cases c with
  | drive d => exact h.drive d
  | restart => exact ⟨h.world, h.program, by simp [Session.obey, restart, h.world], rfl⟩
  | reset => exact h.reset
  | notify enabled => exact ⟨h.world, h.program, h.machine, h.queue⟩

theorem obeyAll (h : s.Twin t) (cs : List Command) : (s.obeyAll cs).Twin (t.obeyAll cs) := by
  induction cs generalizing s t with
  | nil => exact h
  | cons c cs ih => exact ih (h.obey c)

/-- The report does not depend on who listens. -/
theorem outcome (h : s.Twin t) : s.outcome = t.outcome := by
  rw [Session.outcome, Session.outcome, h.world, h.machine]

end Twin

/-- Whatever a session is told to do short of editing its world, it changes the pose, the bag and
the piles of the world and nothing else, and a reset then gives what a reset gives at once: the
world at its baseline, a machine at its start and no events, with the observer as it is. So runs
that begin with a reset end alike, whatever came before: with the same machine and its fault, the
same world and the same report; and a session that is as a reset leaves it ends its first run as it
does those after a reset. Resetting twice is resetting once. -/
theorem reset_forgets (s : Session) (cs : List Command) :
    (s.obeyAll cs).world =
      { s.world with
        pose := (s.obeyAll cs).world.pose
        bag := (s.obeyAll cs).world.bag
        piles := (s.obeyAll cs).world.piles } ∧
    (s.obeyAll cs).reset =
      { s.reset with
        notifications := (s.obeyAll cs).notifications
        heard := (s.obeyAll cs).heard } ∧
    ((s.obeyAll cs).reset.machine = .fresh s.world.limits ∧ (s.obeyAll cs).reset.queue = []) ∧
    (∀ run,
      ((s.obeyAll cs).reset.obeyAll run).machine = (s.reset.obeyAll run).machine ∧
      ((s.obeyAll cs).reset.obeyAll run).world = (s.reset.obeyAll run).world ∧
      ((s.obeyAll cs).reset.obeyAll run).outcome = (s.reset.obeyAll run).outcome) ∧
    (s.reset = s →
      ((s.obeyAll cs).reset.obeyAll cs).machine = (s.obeyAll cs).machine ∧
      ((s.obeyAll cs).reset.obeyAll cs).world = (s.obeyAll cs).world ∧
      ((s.obeyAll cs).reset.obeyAll cs).outcome = (s.obeyAll cs).outcome) ∧
    s.reset.reset = s.reset := by
  have hkept : s.Kept (s.obeyAll cs) := (Kept.refl s).obeyAll cs
  have htwin := hkept.twin_reset
  have hruns : ∀ run,
      ((s.obeyAll cs).reset.obeyAll run).machine = (s.reset.obeyAll run).machine ∧
      ((s.obeyAll cs).reset.obeyAll run).world = (s.reset.obeyAll run).world ∧
      ((s.obeyAll cs).reset.obeyAll run).outcome = (s.reset.obeyAll run).outcome := by
    intro run
    have hrun := htwin.obeyAll run
    exact ⟨hrun.machine, hrun.world, hrun.outcome⟩
  refine ⟨hkept.world, hkept.reset_eq, ⟨htwin.machine, htwin.queue⟩, hruns, ?_, rfl⟩
  intro hstart
  have hrun := hruns cs
  rwa [hstart] at hrun

/-- The robot takes a buzzer, moves, turns and drops the buzzer, and then meets a wall. -/
def errand : Session :=
  .new ((World.new 2 2).setPile ⟨1, 1⟩ 3)
    { code := #[.pickBuzzer, .forward, .left, .leaveBuzzer, .load 0, .ez .wall] }

/-- A way to have the errand run. -/
def errandCommands : List Command :=
  [.drive .next, .notify true, .drive (.run 9)]

/-- The errand ends at the wall with the buzzer moved, and so it does again after a reset. -/
theorem reset_forgets_errand :
    errand.reset = errand ∧
      (errand.obeyAll errandCommands).machine.fault = some .wall ∧
      (errand.obeyAll errandCommands).world.piles = #[2, 0, 1, 0] ∧
      ((errand.obeyAll errandCommands).reset.obeyAll errandCommands).machine.fault = some .wall ∧
      ((errand.obeyAll errandCommands).reset.obeyAll errandCommands).world.piles =
        #[2, 0, 1, 0] := by
  have hstart : errand.reset = errand := by decide +kernel
  have hfault : (errand.obeyAll errandCommands).machine.fault = some .wall := by decide +kernel
  have hpiles : (errand.obeyAll errandCommands).world.piles = #[2, 0, 1, 0] := by decide +kernel
  obtain ⟨-, -, -, -, hagain, -⟩ := reset_forgets errand errandCommands
  obtain ⟨hmachine, hworld, -⟩ := hagain hstart
  refine ⟨hstart, hfault, hpiles, ?_, ?_⟩
  · rw [hmachine, hfault]
  · rw [hworld, hpiles]

end Session

end GridRobot
