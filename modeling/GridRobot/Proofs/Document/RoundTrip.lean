import GridRobot.Proofs.Document.Snapshot
import GridRobot.Proofs.World.Reachable

/-!
# Saving and loading

A world that is saved and loaded again comes back as it was at its baseline, or as a run has left it,
with the robot brought into the grid. The heart is `ofDocument_snapshot`: whatever piles, pose and bag a
well-formed world is saved with, loading the document gives the world with exactly those, both as its
present state and as its baseline. Every part of the document is read back by a lemma of its own; the
walls are compared side by side, since the document lists each of them once and the grid stores it
twice.
-/

set_option autoImplicit false

namespace GridRobot

namespace World

variable {w : World}

/-! ## Bringing the robot into the grid -/

theorem toInt_clampCoordinate {side : Nat} (hside : side ≤ sideMax) (n : Int32) :
    (clampCoordinate n side).toInt = max 1 (min n.toInt side) := by
  have hmin : ∀ a b : Int32, (min a b).toInt = min a.toInt b.toInt := by
    intro a b
    show (if a ≤ b then a else b).toInt = _
    split <;> rename_i hle <;> rw [Int32.le_iff_toInt_le] at hle <;> omega
  have hmax : ∀ a b : Int32, (max a b).toInt = max a.toInt b.toInt := by
    intro a b
    show (if a ≤ b then b else a).toInt = _
    split <;> rename_i hle <;> rw [Int32.le_iff_toInt_le] at hle <;> omega
  rw [clampCoordinate, hmax, hmin, toInt_ofNat_of_le hside]
  rfl

theorem contains_clampPose (hw : w.Sized) (p : Pose) :
    w.contains (clampPose p w.width w.height).toCell = true := by
  have hheight := hw.one_le_height
  have hwidth := hw.one_le_width
  have hrow := toInt_clampCoordinate hw.height_le p.row
  have hcol := toInt_clampCoordinate hw.width_le p.col
  rw [contains_iff]
  simp only [clampPose]
  omega

theorem clampPose_of_contains (hw : w.Sized) {p : Pose} (h : w.contains p.toCell = true) :
    clampPose p w.width w.height = p := by
  rcases contains_iff.1 h with ⟨hrow, hrow', hcol, hcol'⟩
  have hrowEq : clampCoordinate p.row w.height = p.row := by
    apply Int32.toInt_inj.1
    rw [toInt_clampCoordinate hw.height_le]
    omega
  have hcolEq : clampCoordinate p.col w.width = p.col := by
    apply Int32.toInt_inj.1
    rw [toInt_clampCoordinate hw.width_le]
    omega
  rw [clampPose]
  rw [hrowEq, hcolEq]

/-! ## The grid -/

/-- A mask of four bits is determined by the sides it closes. -/
theorem mask_ext {m n : Nat} (hm : m < 16) (hn : n < 16)
    (h : ∀ d : Orientation, m.testBit d.index = n.testBit d.index) : m = n := by
  apply Nat.eq_of_testBit_eq
  intro j
  match j with
  | 0 => exact h .west
  | 1 => exact h .north
  | 2 => exact h .east
  | 3 => exact h .south
  | j + 4 =>
    -- neither mask has a bit beyond the four sides
    have hpow : 16 ≤ 2 ^ (j + 4) := Nat.pow_le_pow_right (n := 2) (by omega) (Nat.le_add_left 4 j)
    rw [Nat.testBit_lt_two_pow (Nat.lt_of_lt_of_le hm hpow),
      Nat.testBit_lt_two_pow (Nat.lt_of_lt_of_le hn hpow)]

theorem walls_ext (hw : w.Sized) (hlt : ∀ m ∈ w.walls, m < 16) {walls : Array Nat}
    (hsize : walls.size = w.walls.size) (hlt' : ∀ m ∈ walls, m < 16)
    (h : ∀ c d, w.contains c = true → (Closed { w with walls } c d ↔ w.Closed c d)) :
    walls = w.walls := by
  apply entries_ext 0 hw.width_le hw.height_le (hsize.trans hw.walls) hw.walls
  intro c i hi
  have hmask : mask { w with walls } c = walls.getD i 0 := by
    rw [mask, index?]
    rw [hi]
  have hmask' : w.mask c = w.walls.getD i 0 := by
    rw [mask, index?]
    rw [hi]
  have hget : ∀ {masks : Array Nat}, masks.size = w.width * w.height → (∀ m ∈ masks, m < 16) →
      masks.getD i 0 < 16 := by
    intro masks hmasks hbound
    have hlt : i < masks.size := hmasks ▸ gridIndex?_lt hi
    rw [Array.getD, dif_pos hlt]
    exact hbound _ (Array.getElem_mem hlt)
  apply mask_ext (hget (hsize.trans hw.walls) hlt') (hget hw.walls hlt)
  intro d
  have hbit := h c d (contains_of_index? hi)
  rw [Closed, Closed, hmask, hmask'] at hbit
  exact Bool.eq_iff_iff.2 hbit

theorem new_eq (hw : w.Sized) : new w.width w.height = (bare w.width w.height).closeBorder := by
  have hwidth := hw.one_le_width
  have hwidth' := hw.width_le
  have hheight := hw.one_le_height
  have hheight' := hw.height_le
  have hclamp : clampSide w.width = w.width ∧ clampSide w.height = w.height := by
    unfold clampSide
    omega
  rw [new, hclamp.1, hclamp.2]

/-- A new world has walls on its border only. -/
theorem closed_new (hw : w.Sized) {c : Cell} {d : Orientation} :
    (new w.width w.height).Closed c d ↔ w.contains c = true ∧ w.isBorder c d = true := by
  have hbare := bare_sized hw.one_le_width hw.width_le hw.one_le_height hw.height_le
  rw [new_eq hw, closed_closeBorder hbare]
  have hopen := not_closed_of_replicate (w := bare w.width w.height) rfl c d
  simp only [hopen, false_or]
  rfl

/-- Closing the listed sides of a grid that has only its border restores the walls. -/
theorem walls_closeSides (h : w.WellFormed) {g : World} (hg : g.Sized) (hmirrored : g.Mirrored)
    (hwidth : g.width = w.width) (hheight : g.height = w.height)
    (hclosed : ∀ c d, g.Closed c d ↔ w.contains c = true ∧ w.isBorder c d = true) :
    (g.closeSides (w.cells.flatMap w.innerSides)).walls = w.walls := by
  have hlt := (hmirrored.closeSides hg (w.cells.flatMap w.innerSides)).mask_lt
  have hcontains : g.contains = w.contains := funext (contains_congr hwidth hheight)
  -- what is closed is read from the masks alone, in a grid of the same size
  rcases exists_closeSides g (w.cells.flatMap w.innerSides) with ⟨walls, hsize, heq⟩
  have hsame : ∀ c d, Closed { w with walls } c d ↔
      (g.closeSides (w.cells.flatMap w.innerSides)).Closed c d := by
    rw [heq]
    exact closed_congr (v := { w with walls }) hwidth.symm hheight.symm rfl
  rw [heq] at hlt
  rw [heq]
  refine walls_ext h.sized h.walled.mask_lt ?_ hlt ?_
  · rw [hsize, hg.walls, hwidth, hheight, h.sized.walls]
  intro c d hc
  rw [hsame, closed_closeSides hg, hclosed, hcontains,
    exists_innerSides_iff h.sized h.walled.toMirrored hc]
  -- a closed side lies on the border, or inside the grid where the document lists it
  constructor
  · rintro (⟨-, hborder⟩ | ⟨-, hinner⟩)
    · exact h.walled.border c d hc hborder
    · exact hinner
  · intro hside
    cases hborder : w.isBorder c d with
    | true => exact .inl ⟨hc, rfl⟩
    | false => exact .inr ⟨(contains_beyond_iff h.sized hc).2 hborder, hside⟩

/-- A world as it is before a setup is applied to it. -/
def unset (w : World) : World :=
  { w with
    programName := defaultProgramName, dumps := []
    pose := .home, startPose := .home, bag := 0, startBag := 0 }

/-- The sides of a grid fit in the numbers of a document. -/
theorem toNat_side {n : Nat} (h : n ≤ sideMax) : (UInt64.ofNat n).toNat = n := by
  have hfits : sideMax < UInt64.size := by decide
  exact UInt64.toNat_ofNat_of_lt' (Nat.lt_of_le_of_lt h hfits)

/-- A world with some piles and its border, before its inner walls and its marks are put back. -/
def outline (w : World) (piles : Array Int32) : World :=
  unset
    { w with
      walls := (new w.width w.height).walls
      startPiles := piles, piles
      marks := Array.replicate (w.width * w.height) false }

/-- A new world is a bare grid but for its border. -/
theorem new_eq_bare (hw : w.Sized) :
    new w.width w.height =
      { bare w.width w.height with walls := (new w.width w.height).walls } := by
  rcases exists_closeSides (bare w.width w.height) (borderSides w.width w.height) with
    ⟨walls, -, hclose⟩
  have hnew : new w.width w.height = { bare w.width w.height with walls } :=
    (new_eq hw).trans hclose
  rw [hnew]

theorem new_of_acceptsSize {width height : Nat} (h : acceptsSize width height = true) :
    new width height = { bare width height with walls := (new width height).walls } :=
  new_eq_bare (bare_sized_of_acceptsSize h)

theorem size_new_of_acceptsSize {width height : Nat} (h : acceptsSize width height = true) :
    (new width height).width = width ∧ (new width height).height = height := by
  rw [new_of_acceptsSize h]
  exact ⟨rfl, rfl⟩

section Rebuilding

variable {piles : Array Int32} (hsize : piles.size = w.width * w.height)
include hsize

/-- First come the piles. -/
theorem withPiles_outline (hw : w.Sized) (hstocked : ∀ n ∈ piles, infinite ≤ n)
    {pile : Cell → Int32} (hpile : ∀ c i, w.index? c = some i → pile c = piles.getD i 0) :
    withPiles { new w.width w.height with name := w.name, limits := w.limits }
      (w.cells.filterMap (listedPile? pile)) = w.outline piles := by
  have hpiles := setEntries_listedPiles hw hsize hstocked hpile
  rw [new_eq_bare hw]
  exact (withPiles_eq _ _).trans
    (congrArg (fun p => { w.outline piles with startPiles := p, piles := p }) hpiles)

/-- Then come the inner walls. -/
theorem withWalls_outline (h : w.WellFormed) :
    (w.outline piles).withWalls (w.cells.flatMap w.innerSides) =
      { w.outline piles with walls := w.walls } := by
  have hnew := wellFormed_new w.width w.height
  have hbare := new_eq_bare h.sized
  have hsized : (w.outline piles).Sized :=
    { h.sized with
      walls := by
        rw [hbare] at hnew
        exact hnew.sized.walls
      startPiles := hsize
      piles := hsize
      marks := Array.size_replicate }
  have hwalled : (w.outline piles).Walled := by
    refine hnew.walled.congr ?_ ?_ rfl
    · exact (congrArg World.width hbare).symm
    · exact (congrArg World.height hbare).symm
  have hclosed : ∀ c d, (w.outline piles).Closed c d ↔
      w.contains c = true ∧ w.isBorder c d = true := by
    intro c d
    rw [← closed_new h.sized, hbare]
    rfl
  have hwalls := walls_closeSides h hsized hwalled.toMirrored rfl rfl hclosed
  rcases exists_closeSides (w.outline piles) (w.cells.flatMap w.innerSides) with ⟨walls, -, heq⟩
  rw [heq] at hwalls
  exact heq.trans (congrArg (fun m => { w.outline piles with walls := m }) hwalls)

/-- The grid of a saved world is rebuilt with the piles it was saved with. -/
theorem furnished_snapshot (h : w.WellFormed) (hstocked : ∀ n ∈ piles, infinite ≤ n)
    {pile : Cell → Int32} (hpile : ∀ c i, w.index? c = some i → pile c = piles.getD i 0)
    (pose : Pose) (bag : Int32) :
    (w.snapshot pile pose bag).furnished (w.cells.flatMap w.innerSides) =
      unset { w with startPiles := piles, piles } := by
  have hmarks := setEntries_markedCells h.sized
  rw [Document.furnished]
  simp only [snapshot, toNat_side h.sized.width_le, toNat_side h.sized.height_le, limits_capEntries]
  rw [withPiles_outline hsize h.sized hstocked hpile, withWalls_outline hsize h]
  -- and last come the marks
  exact (withMarks_eq _ _).trans
    (congrArg (fun m => unset { w with startPiles := piles, piles, marks := m }) hmarks)

end Rebuilding

/-- The parts of the report are asked for again in the order in which they are listed. -/
theorem foldl_select_dumps (h : w.WellFormed) :
    w.dumps.foldl (fun chosen k => k.select chosen) [] = w.dumps := by
  have hnone : DumpKind.all.filter (fun _ => false) = [] := rfl
  have hselect := DumpKind.foldl_select w.dumps fun _ => false
  simp only [hnone, Bool.false_or] at hselect
  exact hselect.trans h.dumps.symm

/-- A world saved with some piles, a pose and a bag is loaded with them. -/
theorem ofDocument_snapshot (h : w.WellFormed) {piles : Array Int32}
    (hsize : piles.size = w.width * w.height) (hstocked : ∀ n ∈ piles, infinite ≤ n)
    {pile : Cell → Int32} (hpile : ∀ c i, w.index? c = some i → pile c = piles.getD i 0)
    (pose : Pose) {bag : Int32} (hbag : infinite ≤ bag) :
    ofDocument (w.snapshot pile pose bag) =
      .ok
        { w with
          startPiles := piles, piles, startBag := bag, bag
          startPose := clampPose pose w.width w.height
          pose := clampPose pose w.width w.height } := by
  have hfurnished := furnished_snapshot hsize h hstocked hpile pose bag
  have hinside := contains_clampPose h.sized pose
  have hcell : (w.snapshot pile pose bag).setup.cell = (clampPose pose w.width w.height).toCell :=
    cell_of_toUInt32 hinside
  rw [ofDocument_eq_ok_iff]
  -- the three checks of a document, and what it describes
  refine ⟨?_, w.cells.flatMap w.innerSides, mapM_side_segments h.sized, ?_, ?_⟩
  · have hwidth := toNat_side h.sized.width_le
    have hheight := toNat_side h.sized.height_le
    simp only [snapshot, hwidth, hheight, acceptsSize, Bool.and_eq_true, decide_eq_true_eq]
    exact ⟨⟨h.sized.one_le_width, h.sized.width_le⟩, h.sized.one_le_height, h.sized.height_le⟩
  · rw [hfurnished, hcell]
    exact hinside
  · rw [hfurnished, SetupSection.applied, hcell, withDumps_eq]
    simp only [snapshot, unset, moveTo, rotate, setBag, supply_of_infinite_le hbag]
    rw [foldl_select_dumps h]

/-! ## Saved worlds -/

/-- A world at its baseline, with the robot brought into the grid. -/
def restored (w : World) : World :=
  { w.reset with
    pose := clampPose w.startPose w.width w.height
    startPose := clampPose w.startPose w.width w.height }

/-- A world with its present state as its baseline, and with the robot brought into the grid. -/
def rebased (w : World) : World :=
  { w with
    startPiles := w.piles, startBag := w.bag
    pose := clampPose w.pose w.width w.height
    startPose := clampPose w.pose w.width w.height }

theorem ofDocument_save (h : w.WellFormed) : ofDocument w.save = .ok w.restored := by
  apply ofDocument_snapshot h h.sized.startPiles h.stocked.startPiles _ _ h.stocked.startBag
  intro c i hi
  rw [startPile, hi]

theorem ofDocument_saveCurrent (h : w.WellFormed) : ofDocument w.saveCurrent = .ok w.rebased := by
  apply ofDocument_snapshot h h.sized.piles h.stocked.piles _ _ h.stocked.bag
  intro c i hi
  rw [pile, hi]

/-- A robot in the grid stays where it is. -/
theorem clampPose_clampPose (hw : w.Sized) (p : Pose) :
    clampPose (clampPose p w.width w.height) w.width w.height = clampPose p w.width w.height :=
  clampPose_of_contains hw (contains_clampPose hw p)

/-- A document does not depend on whether the robot has been brought into the grid before. -/
theorem snapshot_clampPose (hw : w.Sized) (pile : Cell → Int32) (p : Pose) (bag : Int32) :
    w.snapshot pile (clampPose p w.width w.height) bag = w.snapshot pile p bag := by
  unfold snapshot
  rw [clampPose_clampPose hw]

theorem Settled.restored_eq (h : w.Settled) : w.restored = w := by
  have hclamp := clampPose_of_contains h.wellFormed.sized h.inside
  calc w.restored = w.reset := by
        rw [restored, hclamp]
        rfl
    _ = w := h.reset

theorem Settled.rebased_eq (h : w.Settled) : w.rebased = w := by
  have hclamp := clampPose_of_contains h.wellFormed.sized h.inside
  -- the present state is the baseline, so either may be taken for the other
  calc w.rebased = w.reset := by
        rw [rebased, h.pose, hclamp, h.piles, h.bag]
        rfl
    _ = w := h.reset

/-- Saving a world and loading the document gives the world at its baseline, and saving it as it is
gives the world with its present state as its baseline; in both the robot is brought into the grid.
Saving what was loaded gives the same document again, and what has just been loaded is reproduced
exactly. -/
theorem save_load_round_trip (h : w.Reachable) :
    ofDocument w.save = .ok w.restored ∧
    ofDocument w.saveCurrent = .ok w.rebased ∧
    (w.restored.save = w.save ∧ w.restored.saveCurrent = w.save) ∧
    (w.rebased.save = w.saveCurrent ∧ w.rebased.saveCurrent = w.saveCurrent) ∧
    (∀ d, ofDocument d = .ok w → ofDocument w.save = .ok w ∧ ofDocument w.saveCurrent = .ok w) ∧
    (∀ l : LegacyWorld, l.decode = .ok w →
      ofDocument w.save = .ok w ∧ ofDocument w.saveCurrent = .ok w) := by
  have hformed := h.wellFormed
  have hsave := ofDocument_save hformed
  have hcurrent := ofDocument_saveCurrent hformed
  -- a settled world is its own baseline and has its robot in the grid
  have hsettled : w.Settled → ofDocument w.save = .ok w ∧ ofDocument w.saveCurrent = .ok w := by
    intro hw
    rw [hsave, hcurrent, hw.restored_eq, hw.rebased_eq]
    exact ⟨rfl, rfl⟩
  refine ⟨hsave, hcurrent, ⟨?_, ?_⟩, ⟨?_, ?_⟩, ?_, ?_⟩
  · exact snapshot_clampPose hformed.sized _ _ _
  · exact snapshot_clampPose hformed.sized _ _ _
  · exact snapshot_clampPose hformed.sized _ _ _
  · exact snapshot_clampPose hformed.sized _ _ _
  · intro d hd
    exact hsettled (settled_of_ofDocument hd)
  · intro l hl
    exact hsettled (LegacyWorld.settled_of_decode hl)

/-- A world whose robot has been placed outside the grid. -/
def astray : World :=
  (((new 2 2).edited (.moveTo ⟨5, -3⟩)).edited (.setPile ⟨2, 1⟩ (-7))).edited
    (.toggleWall ⟨1, 2⟩ .west)

/-- Buffers of a single cell with the robot on it, facing north. -/
def singleCell : LegacyWorld where
  world := #[0x414B, 0x4552, 0x204C, 0x4D4F, 0x2E49, 0, 1, 1, 3, 1, 1, 1, 0, 0, 0, 0, 0, 0, 0, 0]
  limits := Array.replicate 30 0

theorem save_load_round_trip_astray :
    astray.Reachable ∧ ofDocument astray.save = .ok astray.restored ∧
      astray.restored.pose = ⟨⟨2, 1⟩, .north⟩ ∧ astray.restored.piles = #[0, 0, -1, 0] ∧
      ofDocument astray.restored.save = .ok astray.restored ∧
      ∃ w, singleCell.decode = .ok w ∧ ofDocument w.save = .ok w := by
  have hreachable : astray.Reachable := (((Reachable.new 2 2).edited _).edited _).edited _
  have hsave := (save_load_round_trip hreachable).1
  have hagain := (save_load_round_trip (.ofDocument hsave)).2.2.2.2.1 _ hsave
  have hdecode : singleCell.decode = .ok (singleCell.furnished .north) := by decide +kernel
  have hlegacy := (save_load_round_trip (.decode hdecode)).2.2.2.2.2 _ hdecode
  exact ⟨hreachable, hsave, by decide +kernel, by decide +kernel, hagain.1, _, hdecode, hlegacy.1⟩

end World

end GridRobot
