import GridRobot.Document.Load
import GridRobot.Legacy
import GridRobot.Proofs.World.WellFormed

/-!
# Worlds as they are loaded

A world is settled if it is well formed, its present state is its baseline, and the robot stands in
the grid. Whatever a world is loaded from, a document or a pair of legacy buffers, it is built from a
new world by edits that keep it settled, so a world that has just been loaded is settled.

The equations `ofDocument_eq_ok_iff` and `decode_eq` take the checks of the two loaders apart once;
what is left of a loader that accepts is the edits it makes.
-/

set_option autoImplicit false

namespace GridRobot

/-! ## Checks -/

section Checks

variable {α : Type} {c : Prop} {dec : Decidable c} {e : LoadError} {rest : Unit → Except LoadError α}
  {r : Except LoadError α} {a : α}

/-- A check that fails decides the result, and one that does not leaves it to what follows. -/
theorem check_eq (h : rest () = r) :
    (if c then throw e >>= rest else rest ()) = if c then .error e else r := by
  rw [h]
  rfl

theorem check_eq_ok_iff : (if c then .error e else r) = .ok a ↔ ¬ c ∧ r = .ok a := by
  split <;> simp [*]

theorem bind_eq_ok_iff {β : Type} {x : Except LoadError β} {next : β → Except LoadError α} :
    x.bind next = .ok a ↔ ∃ b, x = .ok b ∧ next b = .ok a := by
  cases x <;> simp [Except.bind]

end Checks

namespace World

variable {w : World}

/-- A well-formed world at its baseline, with the robot in the grid. -/
structure Settled (w : World) : Prop where
  wellFormed : w.WellFormed
  pose : w.pose = w.startPose
  bag : w.bag = w.startBag
  piles : w.piles = w.startPiles
  inside : w.contains w.startPose.toCell = true

/-- A reset has nothing to restore. -/
theorem Settled.reset (h : w.Settled) : w.reset = w := by
  rcases h with ⟨-, hpose, hbag, hpiles, -⟩
  cases w
  cases hpose
  cases hbag
  cases hpiles
  rfl

/-! ## New worlds -/

theorem contains_home (h : w.Sized) : w.contains Pose.home.toCell = true := by
  have hwidth := h.one_le_width
  have hheight := h.one_le_height
  have hone : (1 : Int32).toInt = 1 := rfl
  rw [contains_iff]
  simp only [Pose.home, hone]
  omega

theorem settled_new (width height : Nat) : (new width height).Settled := by
  have hformed := wellFormed_new width height
  -- closing the border leaves the pose, the bag and the piles of the bare grid
  rcases exists_closeSides (bare (clampSide width) (clampSide height))
    (borderSides (clampSide width) (clampSide height)) with ⟨walls, -, heq⟩
  have hnew : new width height = { bare (clampSide width) (clampSide height) with walls } :=
    (closeBorder_eq _).trans heq
  rw [hnew] at hformed ⊢
  exact ⟨hformed, rfl, rfl, rfl, contains_home hformed.sized⟩

/-! ## Edits -/

theorem Settled.addWall (h : w.Settled) (c : Cell) (side : Orientation) :
    (w.addWall c side).Settled := by
  have hformed := h.wellFormed.addWall c side
  rcases exists_addWall w c side with ⟨walls, -, heq⟩
  rw [heq] at hformed ⊢
  exact ⟨hformed, h.pose, h.bag, h.piles, h.inside⟩

theorem Settled.setPile (h : w.Settled) (c : Cell) (n : Int32) : (w.setPile c n).Settled := by
  have hformed := h.wellFormed.setPile c n
  rw [World.setPile] at hformed ⊢
  split at hformed
  · exact h
  · -- both piles are set to the same number
    refine ⟨hformed, h.pose, h.bag, ?_, h.inside⟩
    exact congrArg (Array.setIfInBounds · _ _) h.piles

theorem Settled.setMark (h : w.Settled) (c : Cell) (enabled : Bool) :
    (w.setMark c enabled).Settled := by
  have hformed := h.wellFormed.setMark c enabled
  rw [World.setMark] at hformed ⊢
  split at hformed
  · exact h
  · exact ⟨hformed, h.pose, h.bag, h.piles, h.inside⟩

theorem Settled.setDump (h : w.Settled) (k : DumpKind) (enabled : Bool) :
    (w.setDump k enabled).Settled :=
  ⟨h.wellFormed.setDump k enabled, h.pose, h.bag, h.piles, h.inside⟩

/-- Placing the robot keeps a world settled if the robot is placed in the grid. -/
theorem Settled.moveTo (h : w.Settled) {c : Cell} (hc : w.contains c = true) :
    (w.moveTo c).Settled :=
  ⟨h.wellFormed.moveTo c, congrArg (fun p : Pose => { p with toCell := c }) h.pose, h.bag, h.piles,
    hc⟩

theorem Settled.rotate (h : w.Settled) (o : Orientation) : (w.rotate o).Settled :=
  ⟨h.wellFormed.rotate o, congrArg (fun p : Pose => { p with facing := o }) h.pose, h.bag, h.piles,
    h.inside⟩

theorem Settled.setBag (h : w.Settled) (n : Int32) : (w.setBag n).Settled :=
  ⟨h.wellFormed.setBag n, h.pose, rfl, h.piles, h.inside⟩

theorem Settled.withSettings (h : w.Settled) (name programName : String) (limits : Limits) :
    Settled { w with name, programName, limits } :=
  ⟨h.wellFormed.withSettings _ _ _ _ _, h.pose, h.bag, h.piles, h.inside⟩

/-- An edit that keeps worlds settled may be made once for each entry of a list. -/
theorem Settled.foldl {α : Type} {edit : World → α → World} (h : w.Settled)
    (hedit : ∀ v x, v.Settled → (edit v x).Settled) (entries : List α) :
    (entries.foldl edit w).Settled := by
  induction entries generalizing w with
  | nil => exact h
  | cons x entries ih => exact ih (hedit w x h)

/-! ## Loading a document -/

end World

/-- The cell that a document places the robot on. -/
def SetupSection.cell (s : SetupSection) : Cell :=
  ⟨coordinate s.y, coordinate s.x⟩

/-- The grid of a document with its contents, given the sides that its walls close. -/
def Document.furnished (d : Document) (sides : List (Cell × Orientation)) : World :=
  let grid :=
    { World.new d.grid.width.toNat d.grid.height.toNat with
      name := d.grid.name, limits := d.conditions.limits }
  ((grid.withPiles d.grid.buzzers).withWalls sides).withMarks d.grid.dumpCells

/-- A world with the robot, the bag and the report of a document's setup. -/
def SetupSection.applied (s : SetupSection) (w : World) : World :=
  (((World.moveTo { w with programName := s.name } s.cell).rotate s.orientation).setBag
    s.bag.count).withDumps s.dumps

namespace World

variable {w : World}

/-- The checks of a document in their order: its size, its walls, and the cell of its robot. -/
theorem ofDocument_eq (d : Document) :
    ofDocument d =
      if !acceptsSize d.grid.width.toNat d.grid.height.toNat then
        .error (.invalidDimensions d.grid.width.toNat d.grid.height.toNat)
      else
        (d.grid.walls.mapM Segment.side).bind fun sides =>
          if !(d.furnished sides).contains d.setup.cell then
            .error (.invalidCoordinate d.setup.x.toNat d.setup.y.toNat)
          else .ok (d.setup.applied (d.furnished sides)) := by
  rw [ofDocument]
  apply check_eq
  apply congrArg (Except.bind _)
  funext sides
  exact check_eq rfl

/-- A document is loaded if its size is admissible, its walls are unit segments and its robot stands
in the grid. -/
theorem ofDocument_eq_ok_iff {d : Document} :
    ofDocument d = .ok w ↔
      acceptsSize d.grid.width.toNat d.grid.height.toNat = true ∧
        ∃ sides, d.grid.walls.mapM Segment.side = .ok sides ∧
          (d.furnished sides).contains d.setup.cell = true ∧
          d.setup.applied (d.furnished sides) = w := by
  simp only [ofDocument_eq, check_eq_ok_iff, bind_eq_ok_iff, Bool.not_eq_true', Bool.not_eq_false,
    Except.ok.injEq]

theorem settled_furnished (d : Document) (sides : List (Cell × Orientation)) :
    (d.furnished sides).Settled := by
  have hnew := settled_new d.grid.width.toNat d.grid.height.toNat
  have hgrid := hnew.withSettings d.grid.name
    (new d.grid.width.toNat d.grid.height.toNat).programName d.conditions.limits
  have hpiles := hgrid.foldl
    (fun v e hv => hv.setPile ⟨coordinate e.y, coordinate e.x⟩ e.count.count) d.grid.buzzers
  have hwalls := hpiles.foldl (fun v e hv => hv.addWall e.1 e.2) sides
  exact hwalls.foldl (fun v e hv => hv.setMark ⟨coordinate e.y, coordinate e.x⟩ true)
    d.grid.dumpCells

/-- A world that a document describes is settled. -/
theorem settled_of_ofDocument {d : Document} (h : ofDocument d = .ok w) : w.Settled := by
  rcases ofDocument_eq_ok_iff.1 h with ⟨-, sides, -, hcell, rfl⟩
  have hnamed := (settled_furnished d sides).withSettings (d.furnished sides).name d.setup.name
    (d.furnished sides).limits
  have hplaced := (hnamed.moveTo hcell).rotate d.setup.orientation
  exact (hplaced.setBag d.setup.bag.count).foldl (fun v k hv => hv.setDump k true) d.setup.dumps

end World

/-! ## Loading legacy buffers -/

namespace LegacyWorld

/-- The cell that legacy buffers place the robot on. -/
def robotCell (l : LegacyWorld) : Cell :=
  cellAt (l.worldWord 9) (l.worldWord 10)

/-- The world of legacy buffers with a robot that faces `facing`. -/
def furnished (l : LegacyWorld) (facing : Orientation) : World :=
  l.furnish
    ((((World.new l.width l.height).moveTo l.robotCell).rotate facing).setBag
      (amount (l.worldWord 8)))

/-- The checks of legacy buffers in their order. -/
theorem decode_eq (l : LegacyWorld) :
    l.decode =
      if l.world.size < worldWordsMin then
        .error (.tooShort .world worldWordsMin l.world.size)
      else if l.limits.size < limitsWordsMin then
        .error (.tooShort .limits limitsWordsMin l.limits.size)
      else if l.world.toList.take signature.length ≠ signature then .error .badMagic
      else if !acceptsSize l.width l.height then .error (.invalidDimensions l.width l.height)
      else if l.world.size < l.worldWordsNeeded then
        .error (.truncated .world l.worldWordsNeeded l.world.size)
      else if !(World.new l.width l.height).contains l.robotCell then
        .error (.invalidCoordinate (l.worldWord 9).toNat (l.worldWord 10).toNat)
      else
        (orientation (l.worldWord 11)).bind fun facing =>
          if l.listsCells && l.limits.size < l.limitsWordsNeeded then
            .error (.truncated .limits l.limitsWordsNeeded l.limits.size)
          else .ok (l.furnished facing) := by
  rw [decode]
  apply check_eq
  apply check_eq
  apply check_eq
  apply check_eq
  apply check_eq
  apply check_eq
  apply congrArg (Except.bind _)
  funext facing
  exact check_eq rfl

theorem settled_furnished (l : LegacyWorld) (facing : Orientation)
    (hcell : (World.new l.width l.height).contains l.robotCell = true) :
    (l.furnished facing).Settled := by
  have hplaced := (((World.settled_new l.width l.height).moveTo hcell).rotate facing).setBag
    (amount (l.worldWord 8))
  have hwalls := hplaced.foldl (fun v e hv => hv.addWall e.1 e.2) l.closedSides
  have hpiles := hwalls.foldl (fun v e hv => hv.setPile (cellAt e.1 e.2.1) (amount e.2.2))
    l.pileRecords
  have hmarks := hpiles.foldl (fun v e hv => hv.setMark (cellAt e.1 e.2.1) true) l.cellRecords
  have hdumps := hmarks.foldl (fun v k hv => hv.setDump k true) l.dumps
  exact hdumps.withSettings _ _ l.runLimits

/-- A world that legacy buffers describe is settled. -/
theorem settled_of_decode {l : LegacyWorld} {w : World} (h : l.decode = .ok w) : w.Settled := by
  simp only [decode_eq, check_eq_ok_iff, bind_eq_ok_iff, Bool.not_eq_true', Bool.not_eq_false,
    Except.ok.injEq] at h
  rcases h with ⟨-, -, -, -, -, hcell, facing, -, -, rfl⟩
  exact settled_furnished l facing hcell

end LegacyWorld

end GridRobot
