import GridRobot.Proofs.Machine.Failure
import GridRobot.Proofs.Machine.Reckoning
import GridRobot.Proofs.World.WellFormed

/-!
# Programs that look before they move

To move, the robot consults no walls: it is the program that has to look. It asks for the walls of
the cell and for the orientation, turns the orientation into the bit of the side it wants to know
about, and compares (`wallCheck`). `Session.KeepsTo.wallCheck` says that the one word which is left
tells whether that side is closed.

A move is guarded if the program looks ahead and asserts that there is no wall (`guardedForward`). In
a world whose border is closed, a robot all of whose moves are guarded stays in the grid and crosses
open sides only (`wall_checks_sound`).
-/

set_option autoImplicit false

namespace GridRobot

/-! ## Turning -/

/-- A quarter turn to the right. -/
def Orientation.right : Orientation → Orientation
  | west => north
  | north => east
  | east => south
  | south => west

/-- A quarter turn. -/
inductive Rotation where
  | left
  | right
  deriving DecidableEq, Repr

/-- The instruction that turns the orientation on top of the stack. -/
def Rotation.instruction : Rotation → Instruction
  | left => .rotl
  | right => .rotr

/-- The orientation after a quarter turn. -/
def Orientation.turned (o : Orientation) : Rotation → Orientation
  | .left => o.left
  | .right => o.right

/-- Words are turned as the orientations that they stand for. -/
theorem Rotation.reckon?_instruction (w : World) (free : Nat) (r : Rotation) (o : Orientation)
    (top : List Int32) :
    r.instruction.reckon? w free (Int32.ofNat o.index :: top) =
      some (Int32.ofNat (o.turned r).index :: top) := by
  cases r <;> cases o <;> rfl

/-- Several turns add up. -/
theorem reckonAll?_turns (w : World) (free : Nat) (turns : List Rotation) (o : Orientation)
    (top : List Int32) :
    reckonAll? w free (turns.map Rotation.instruction) (Int32.ofNat o.index :: top) =
      some (Int32.ofNat (turns.foldl Orientation.turned o).index :: top) := by
  induction turns generalizing o with
  | nil => rfl
  | cons r turns ih =>
    show (r.instruction.reckon? w free _).bind _ = _
    rw [r.reckon?_instruction]
    exact ih (o.turned r)

/-! ## Looking at a side -/

/-- Asks whether there is a wall on the side that the robot would face after some turns. -/
def wallCheck (turns : List Rotation) : List Instruction :=
  [.worldWalls, .orientation] ++ (turns.map Rotation.instruction ++ [.mask, .and])

/-- Moves unless there is a wall ahead. -/
def guardedForward : List Instruction :=
  wallCheck [] ++ [.not, .ez .wall, .forward]

theorem length_wallCheck (turns : List Rotation) : (wallCheck turns).length = turns.length + 4 := by
  simp [wallCheck]

/-- The number of an orientation selects its bit of a mask. -/
theorem flag_and_shiftedOne {m : Nat} (hm : m < 16) (o : Orientation) :
    flag (Int32.ofNat m &&& shiftedOne (Int32.ofNat o.index) ≠ 0) = flag (m.testBit o.index) := by
  have hall : ∀ m < 16, ∀ o ∈ Orientation.all,
      flag (Int32.ofNat m &&& shiftedOne (Int32.ofNat o.index) ≠ 0) = flag (m.testBit o.index) := by
    decide +kernel
  exact hall m hm o (by cases o <;> decide)

namespace World

variable {w : World} {c : Cell}

theorem Walled.mask_lt_sixteen (h : w.Walled) (c : Cell) : w.mask c < 16 := by
  rw [World.mask]
  split
  · rw [Array.getD]
    split
    · exact h.mask_lt _ (Array.getElem_mem _)
    · decide
  · decide

/-- A wall check leaves the word that tells whether its side is closed. -/
theorem Walled.reckonAll?_wallCheck (h : w.Walled) (turns : List Rotation) :
    reckonAll? w 2 (wallCheck turns) [] =
      some [if w.Closed w.pose.toCell (turns.foldl Orientation.turned w.pose.facing)
        then 1 else 0] := by
  have hlook : reckonAll? w 2 [.worldWalls, .orientation] [] =
      some [Int32.ofNat w.pose.facing.index, Int32.ofNat (w.mask w.pose.toCell)] := rfl
  rw [wallCheck, reckonAll?_append, hlook, Option.bind_some, reckonAll?_append, reckonAll?_turns,
    Option.bind_some]
  show some [flag _] = _
  rw [flag_and_shiftedOne (h.mask_lt_sixteen _), flag]
  rfl

/-! ## Inside the walls -/

/-- The border is closed, and the robot is inside. -/
structure Enclosed (w : World) : Prop where
  sized : w.Sized
  walled : w.Walled
  robot : w.contains w.pose.toCell = true

/-- Beyond an open side there is a cell, and seen from there the side is open too. -/
theorem Enclosed.beyond_open (h : w.Enclosed) (hopen : ¬ w.Closed w.pose.toCell w.pose.facing) :
    w.contains (w.pose.toCell.beyond w.pose.facing) = true ∧
      ¬ w.Closed (w.pose.toCell.beyond w.pose.facing) w.pose.facing.opposite := by
  have hborder : w.isBorder w.pose.toCell w.pose.facing = false := by
    rw [← Bool.not_eq_true]
    intro hborder
    exact hopen (h.walled.border _ _ h.robot hborder)
  have hcell := (contains_beyond_iff h.sized h.robot).2 hborder
  refine ⟨hcell, ?_⟩
  rwa [← h.walled.symm _ _ h.robot hcell]

/-- The walls and the place of the robot do not depend on the piles and the bag. -/
theorem Enclosed.withPiles (h : w.Enclosed) {piles : Array Int32} (hpiles : piles.size = w.piles.size)
    (bag : Int32) : Enclosed { w with piles, bag } where
  sized := { h.sized with piles := hpiles.trans h.sized.piles }
  walled := h.walled.congr rfl rfl rfl
  robot := h.robot

/-- The robot stays inside if it does not move against a wall. -/
theorem Enclosed.perform (h : w.Enclosed) {a : Action}
    (ha : a = .forward → ¬ w.Closed w.pose.toCell w.pose.facing) : (w.perform a).Enclosed := by
  cases a with
  | forward =>
    obtain ⟨hcell, -⟩ := h.beyond_open (ha rfl)
    exact ⟨{ h.sized with }, h.walled.congr rfl rfl rfl, hcell⟩
  | left =>
    exact ⟨{ h.sized with }, h.walled.congr rfl rfl rfl, h.robot⟩
  | pickBuzzer =>
    show (w.pick w.pose.toCell).Enclosed
    rw [pick]
    split
    · exact h
    · split
      · exact h
      · exact h.withPiles Array.size_modify _
  | leaveBuzzer =>
    show (w.leave w.pose.toCell).Enclosed
    rw [leave]
    split
    · exact h
    · split
      · exact h
      · exact h.withPiles Array.size_modify _

/-- Only a move takes the robot to another cell. -/
theorem toCell_perform (w : World) {a : Action} (ha : a ≠ .forward) :
    (w.perform a).pose.toCell = w.pose.toCell := by
  cases a with
  | forward => exact absurd rfl ha
  | left => rfl
  | pickBuzzer =>
    show (w.pick w.pose.toCell).pose.toCell = _
    rw [pick]
    split
    · rfl
    · split <;> rfl
  | leaveBuzzer =>
    show (w.leave w.pose.toCell).pose.toCell = _
    rw [leave]
    split
    · rfl
    · split <;> rfl

end World

/-! ## Guarded moves -/

theorem Instruction.action?_eq_forward_iff {i : Instruction} :
    i.action? = some .forward ↔ i = .forward := by
  cases i <;> simp [Instruction.action?]

/-- A move does not touch the stack, even if it exceeds its cap. -/
theorem execute_forward_stack (c : Scene) :
    (execute .forward c).1.machine.stack = c.machine.stack := by
  refine (Effect.recorded_stack _).trans ?_
  show (c.act .forward).1.machine.stack = _
  rw [Scene.act]
  dsimp only
  split
  · split <;> rfl
  · rfl

namespace Session

variable {s : Session}

theorem after_after (s : Session) (m k : Nat) : (s.after m).after k = s.after (m + k) := by
  induction k with
  | zero => rfl
  | succ k ih => exact congrArg next ih

theorem KeepsTo.wallCheck {turns : List Rotation} (h : s.KeepsTo (wallCheck turns))
    (hwalled : s.world.Walled) (hroom : s.machine.stack.size + 2 ≤ s.machine.stack.capacity) :
    s.Reckons (turns.length + 4)
      [if s.world.Closed s.world.pose.toCell
          (turns.foldl Orientation.turned s.world.pose.facing) then 1 else 0] := by
  rw [← length_wallCheck]
  exact h.reckons hroom (hwalled.reckonAll?_wallCheck turns)

section GuardedForward

variable (h : s.KeepsTo guardedForward) (hwalled : s.world.Walled)
  (hroom : s.machine.stack.size + 2 ≤ s.machine.stack.capacity)

include h hwalled hroom

/-- The first five instructions leave a word that is zero exactly if there is a wall ahead. -/
theorem KeepsTo.lookAhead :
    s.Reckons 5 [if s.world.Closed s.world.pose.toCell s.world.pose.facing then 0 else 1] := by
  have hnot : s.KeepsTo (GridRobot.wallCheck [] ++ [.not]) := KeepsTo.of_append h
  refine hnot.reckons hroom ?_
  rw [reckonAll?_append, hwalled.reckonAll?_wallCheck, Option.bind_some]
  show some [flag (decide ((if s.world.Closed s.world.pose.toCell s.world.pose.facing
    then 1 else 0 : Int32) = 0))] = _
  split <;> rfl

/-- At a wall the assertion fails. -/
theorem KeepsTo.stopped_at_wall
    (hclosed : s.world.Closed s.world.pose.toCell s.world.pose.facing) :
    (s.after 6).running = false ∧
      (s.after 6).machine.fault = some (s.machine.fault.getD .wall) ∧
      (s.after 6).world = s.world := by
  have hlook := h.lookAhead hwalled hroom
  rw [if_pos hclosed] at hlook
  obtain ⟨hmachine, hworld⟩ := hlook.refuted (h 5 (.ez .wall) [0] rfl hlook)
  rw [running, hmachine]
  exact ⟨rfl, rfl, hworld⟩

/-- Where there is no wall the check leaves no trace. -/
theorem KeepsTo.reckons_before_move
    (hopen : ¬ s.world.Closed s.world.pose.toCell s.world.pose.facing) : s.Reckons 6 [] := by
  have hlook := h.lookAhead hwalled hroom
  rw [if_neg hopen] at hlook
  exact hlook.step hroom (h 5 (.ez .wall) [1] rfl hlook) rfl

end GuardedForward

/-- An instruction that looks at the world has found room for what it saw. -/
theorem room_of_look {i : Instruction} (hi : i = .worldWalls ∨ i = .orientation)
    (hdue : s.due? = some i) (hnext : s.next.running = true) :
    s.machine.stack.size < s.machine.stack.capacity ∧
      s.next.machine.stack.size = s.machine.stack.size + 1 ∧
      s.next.machine.stack.capacity = s.machine.stack.capacity := by
  obtain ⟨t, ht, hmachine, -⟩ := exists_execute hdue hnext
  have hpush : ∃ v, (s.scene i).push v = (t, none) := by
    rcases hi with rfl | rfl <;> exact ⟨_, Effect.recorded_eq_none_iff.1 ht⟩
  obtain ⟨v, hpush⟩ := hpush
  obtain ⟨stack, hstack, rfl⟩ := Scene.onStack_eq_none_iff.1 hpush
  obtain ⟨hlt, hwords, hcapacity⟩ := Stack.push_eq_ok_iff.1 hstack
  rw [hmachine]
  refine ⟨hlt, ?_, hcapacity⟩
  show stack.size = s.machine.stack.size + 1
  rw [Stack.size_of_words hwords, List.length_cons, ← Stack.size_eq]
  rfl

/-- A check that has been executed to the end found room for two words. -/
theorem Executes.room (h : s.Executes guardedForward) :
    s.machine.stack.size + 2 ≤ s.machine.stack.capacity := by
  have hone : (s.after 1).due? = some .orientation := h 1 (by decide)
  have htwo : (s.after 2).due? = some .mask := h 2 (by decide)
  obtain ⟨-, hsize, hcapacity⟩ := room_of_look (.inl rfl) (h 0 (by decide)) (running_of_due? hone)
  obtain ⟨hlt, -, -⟩ := room_of_look (.inr rfl) hone (running_of_due? htwo)
  have hsize' : (s.after 1).machine.stack.size = s.machine.stack.size + 1 := hsize
  have hcapacity' : (s.after 1).machine.stack.capacity = s.machine.stack.capacity := hcapacity
  omega

/-- A guarded move that is about to be made leads through an open side. -/
theorem Executes.open_ahead (h : s.Executes guardedForward) (hwalled : s.world.Walled) :
    (s.after 6).world = s.world ∧ ¬ s.world.Closed s.world.pose.toCell s.world.pose.facing := by
  have hopen : ¬ s.world.Closed s.world.pose.toCell s.world.pose.facing := by
    intro hclosed
    obtain ⟨hstopped, -, -⟩ := h.keepsTo.stopped_at_wall hwalled h.room hclosed
    have hrunning : (s.after 6).running = true := running_of_due? (h 6 (by decide))
    rw [hstopped] at hrunning
    exact absurd hrunning (by simp)
  exact ⟨(h.keepsTo.reckons_before_move hwalled h.room hopen).world, hopen⟩

/-- Every move of the run is the end of a guarded move. -/
def Guarded (s : Session) : Prop :=
  ∀ n, (s.after n).due? = some .forward → ∃ m, n = m + 6 ∧ (s.after m).Executes guardedForward

/-- A move goes through an open side, if the robot has been inside so far. -/
theorem Guarded.open_of_due? (h : s.Guarded) {n : Nat}
    (hinside : ∀ m ≤ n, (s.after m).world.Enclosed) (hdue : (s.after n).due? = some .forward) :
    ¬ (s.after n).world.Closed (s.after n).world.pose.toCell (s.after n).world.pose.facing := by
  obtain ⟨m, rfl, hexecutes⟩ := h n hdue
  obtain ⟨hworld, hopen⟩ := hexecutes.open_ahead (hinside m (by omega)).walled
  rw [← after_after, hworld]
  exact hopen

/-- What a step does to the world: nothing, or the action of the instruction that is due. -/
theorem next_world_cases (s : Session) :
    s.next.world = s.world ∨
      ∃ i a, s.due? = some i ∧ i.action? = some a ∧ s.next.world = s.world.perform a := by
  cases hdue : s.due? with
  | none =>
    rcases next_of_due?_eq_none hdue with hnext | hnext | ⟨f, -, -, hnext⟩ <;>
      exact .inl (by rw [hnext])
  | some i =>
    have hworld := (next_world_of_due? hdue).trans (execute_world i (s.scene i))
    cases haction : i.action? with
    | none =>
      rw [haction] at hworld
      exact .inl hworld
    | some a =>
      rw [haction] at hworld
      exact .inr ⟨i, a, rfl, haction, hworld⟩

/-- A robot all of whose moves are guarded stays inside. -/
theorem Guarded.enclosed (h : s.Guarded) (hw : s.world.Enclosed) (n : Nat) :
    (s.after n).world.Enclosed := by
  -- a move looks back at the check before it, so the induction is over all earlier steps
  induction n using Nat.strong_induction_on with
  | _ n ih =>
    cases n with
    | zero => exact hw
    | succ n =>
      have hinside := ih n (Nat.lt_succ_self n)
      show (s.after n).next.world.Enclosed
      rcases (s.after n).next_world_cases with hnext | ⟨i, a, hdue, haction, hnext⟩
      · rw [hnext]
        exact hinside
      · rw [hnext]
        refine hinside.perform ?_
        rintro rfl
        obtain rfl := Instruction.action?_eq_forward_iff.1 haction
        exact h.open_of_due? (fun m hm => ih m (Nat.lt_succ_of_le hm)) hdue

/-- A step of such a robot keeps it in its cell or takes it through a side that is open on both
sides. -/
theorem Guarded.next_cell (h : s.Guarded) (hw : s.world.Enclosed) (n : Nat) :
    (s.after (n + 1)).world.pose.toCell = (s.after n).world.pose.toCell ∨
      ∃ side, (s.after (n + 1)).world.pose.toCell = (s.after n).world.pose.toCell.beyond side ∧
        ¬ (s.after n).world.Closed (s.after n).world.pose.toCell side ∧
        ¬ (s.after n).world.Closed (s.after (n + 1)).world.pose.toCell side.opposite := by
  have hsucc : (s.after (n + 1)).world = (s.after n).next.world := rfl
  rw [hsucc]
  rcases (s.after n).next_world_cases with hnext | ⟨i, a, hdue, haction, hnext⟩
  · exact .inl (by rw [hnext])
  · rw [hnext]
    by_cases ha : a = .forward
    · subst ha
      obtain rfl := Instruction.action?_eq_forward_iff.1 haction
      have hopen := h.open_of_due? (fun m _ => h.enclosed hw m) hdue
      obtain ⟨-, hback⟩ := (h.enclosed hw n).beyond_open hopen
      exact .inr ⟨(s.after n).world.pose.facing, rfl, hopen, hback⟩
    · exact .inl (World.toCell_perform _ ha)

/-- In a world with a closed border and the robot inside, and with two free words on the stack of a
machine that may go on: a wall check with any turns pushes one word, which is one if the side that the
turns lead to is closed and zero otherwise, and changes nothing else but the address. A guarded move
stops for good at a wall, with the world unchanged; without a wall it moves the robot to the next cell,
which is in the grid, and leaves the stack as it was. A run in which every move is the end of a guarded
one keeps the robot in the grid and takes it through open sides only. -/
theorem wall_checks_sound (h : s.world.Enclosed) :
    (∀ turns, s.running = true → s.refusal? = none →
      s.machine.stack.size + 2 ≤ s.machine.stack.capacity → s.Ahead (wallCheck turns) →
      (s.after (turns.length + 4)).machine =
          { s.machine with
            pc := s.machine.pc + (turns.length + 4)
            stack := s.machine.stack.topped
              [if s.world.Closed s.world.pose.toCell
                  (turns.foldl Orientation.turned s.world.pose.facing) then 1 else 0] } ∧
        (s.after (turns.length + 4)).world = s.world) ∧
    (s.running = true → s.refusal? = none →
      s.machine.stack.size + 2 ≤ s.machine.stack.capacity → s.Ahead guardedForward →
      if s.world.Closed s.world.pose.toCell s.world.pose.facing then
        ∀ n, (s.after (6 + n)).running = false ∧
          (s.after (6 + n)).machine.fault = some (s.machine.fault.getD .wall) ∧
          (s.after (6 + n)).world = s.world
      else
        (s.after 7).machine.stack = s.machine.stack ∧
          (s.after 7).world.pose =
            ⟨s.world.pose.toCell.beyond s.world.pose.facing, s.world.pose.facing⟩ ∧
          (s.after 7).world = { s.world with pose := (s.after 7).world.pose } ∧
          s.world.contains (s.after 7).world.pose.toCell = true) ∧
    (s.Guarded → ∀ n,
      (s.after n).world.contains (s.after n).world.pose.toCell = true ∧
      ((s.after (n + 1)).world.pose.toCell = (s.after n).world.pose.toCell ∨
        ∃ side, (s.after (n + 1)).world.pose.toCell = (s.after n).world.pose.toCell.beyond side ∧
          ¬ (s.after n).world.Closed (s.after n).world.pose.toCell side ∧
          ¬ (s.after n).world.Closed (s.after (n + 1)).world.pose.toCell side.opposite)) := by
  refine ⟨?_, ?_, ?_⟩
  · intro turns hrunning hrefusal hroom hahead
    have hreckons := (hahead.keepsTo hrunning hrefusal).wallCheck h.walled hroom
    exact ⟨hreckons.machine, hreckons.world⟩
  · intro hrunning hrefusal hroom hahead
    have hkeeps := hahead.keepsTo hrunning hrefusal
    split
    · rename_i hclosed
      intro n
      have hstopped := hkeeps.stopped_at_wall h.walled hroom hclosed
      rw [after_add_of_fixed (next_of_stopped hstopped.1)]
      exact hstopped
    · rename_i hopen
      have hreckons := hkeeps.reckons_before_move h.walled hroom hopen
      have hdue : (s.after 6).due? = some .forward := hkeeps 6 .forward [] rfl hreckons
      have hworld : (s.after 7).world = s.world.stepForward :=
        (next_world_of_due? hdue).trans ((execute_world _ _).trans
          (congrArg World.stepForward hreckons.world))
      have hstack : (s.after 7).machine.stack = s.machine.stack := by
        have hmachine := next_machine_of_due? hdue
        rw [show (s.after 7).machine = (s.after 6).next.machine from rfl, hmachine,
          execute_forward_stack]
        show (s.after 6).machine.stack = _
        rw [hreckons.machine]
        exact s.machine.stack.topped_nil
      rw [hworld]
      exact ⟨hstack, rfl, rfl, (h.beyond_open hopen).1⟩
  · intro hguarded n
    exact ⟨(hguarded.enclosed h n).robot, hguarded.next_cell h n⟩

/-- The robot looks to its right, where the border is, and then tries to move twice in a world in which
it can move once. -/
def lookout : Session :=
  .new (World.new 1 2)
    { code := (wallCheck [.right] ++ .pop :: (guardedForward ++ guardedForward)).toArray }

theorem wall_checks_sound_lookout :
    lookout.world.Enclosed ∧ lookout.Guarded ∧
      (lookout.after 5).machine.stack.words = [1] ∧
      (lookout.after 13).world.pose = ⟨⟨2, 1⟩, .north⟩ ∧
      (∀ n, (lookout.after (19 + n)).machine.fault = some .wall) ∧
      ∀ n, (lookout.after n).world.contains (lookout.after n).world.pose.toCell = true := by
  have hformed := World.wellFormed_new 1 2
  have henclosed : lookout.world.Enclosed := ⟨hformed.sized, hformed.walled, by decide +kernel⟩
  -- the run ends after nineteen steps, of which one is a move
  have hstopped : (lookout.after 19).running = false := by decide +kernel
  have hguarded : lookout.Guarded := by
    intro n hdue
    have hlt : n < 19 := by
      by_contra hge
      obtain ⟨d, rfl⟩ := Nat.exists_eq_add_of_le (Nat.le_of_not_lt hge)
      have hrunning := running_of_due? hdue
      rw [after_add_of_fixed (next_of_stopped hstopped), hstopped] at hrunning
      exact absurd hrunning (by simp)
    have hmoves : ∀ n < 19, (lookout.after n).due? = some .forward → n = 12 := by decide +kernel
    obtain rfl := hmoves n hlt hdue
    refine ⟨6, rfl, ?_⟩
    show ∀ k < 7, ((lookout.after 6).after k).due? = guardedForward[k]?
    decide +kernel
  have hright := (wall_checks_sound henclosed).1 [.right] (by decide +kernel) (by decide +kernel)
    (by decide +kernel) (by show ∀ k < 5, _ = _; decide +kernel)
  have hmove := (wall_checks_sound (hguarded.enclosed henclosed 6)).2.1 (by decide +kernel)
    (by decide +kernel) (by decide +kernel) (by show ∀ k < 7, _ = _; decide +kernel)
  have hwall := (wall_checks_sound (hguarded.enclosed henclosed 13)).2.1 (by decide +kernel)
    (by decide +kernel) (by decide +kernel) (by show ∀ k < 7, _ = _; decide +kernel)
  rw [if_neg (by decide +kernel)] at hmove
  rw [if_pos (by decide +kernel)] at hwall
  refine ⟨henclosed, hguarded, ?_, ?_, ?_, ?_⟩
  · have hmachine := hright.1
    rw [show [Rotation.right].length + 4 = 5 from rfl] at hmachine
    rw [hmachine]
    decide +kernel
  · have hpose := hmove.2.1
    rw [after_after, show 6 + 7 = 13 from rfl] at hpose
    rw [hpose]
    decide +kernel
  · intro n
    have hfault := (hwall n).2.1
    rw [after_after, ← Nat.add_assoc, show 13 + 6 = 19 from rfl] at hfault
    rw [hfault]
    decide +kernel
  · intro n
    exact ((wall_checks_sound henclosed).2.2 hguarded n).1

end Session

end GridRobot
