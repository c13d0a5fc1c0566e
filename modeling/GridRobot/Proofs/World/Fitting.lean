import GridRobot.Proofs.World.CellByCell

/-!
# What a resized world keeps

`World.Fitted` says what becomes of a world in a grid of another size, for every cell and every side:
what lies in both grids is kept, a side between two cells of both grids stays as it was, the border of
the new grid is closed and all else is empty. Resizing gives the world that fits (`fitted_resize`), and
there is only one (`Fitted.unique`). Hence a world that has been made larger comes back when it is made
as small as it was: it fits its own grid (`Fitted.back`).
-/

set_option autoImplicit false

namespace GridRobot

/-! ## Entries of cells -/

/-- The entry of a cell; a cell outside the grid has the filling. -/
def entryAt {α : Type} (width height : Nat) (entries : Array α) (fill : α) (c : Cell) : α :=
  match gridIndex? width height c with
  | some i => entries.getD i fill
  | none => fill

namespace World

variable {w v : World} {c : Cell} {d : Orientation} {width height : Nat}

/-- A cell of both grids keeps its entry, and every other has the filling. -/
theorem entryAt_reframe {α : Type} (w v : World) (entries : Array α) (fill : α) (c : Cell) :
    entryAt v.width v.height (reframe entries fill w.width w.height v.width v.height) fill c =
      if w.contains c = true ∧ v.contains c = true then
        entryAt w.width w.height entries fill c
      else fill := by
  rw [entryAt, contains, contains, index?, index?]
  cases hnew : gridIndex? v.width v.height c with
  | none => simp
  | some i =>
    dsimp only
    rw [getD_reframe hnew, entryAt]
    cases gridIndex? w.width w.height c <;> simp

/-! ## Fitting a world into a grid -/

/-- A pose is the nearest one to `p` in a grid. -/
structure Nearest (p : Pose) (width height : Nat) (q : Pose) : Prop where
  row : q.row.toInt = max 1 (min p.row.toInt height)
  col : q.col.toInt = max 1 (min p.col.toInt width)
  facing : q.facing = p.facing

/-- The world `v` is what becomes of `w` in a grid of another size. -/
structure Fitted (w : World) (width height : Nat) (v : World) : Prop where
  width : v.width = width
  height : v.height = height
  sizes : v.walls.size = v.width * v.height ∧ v.startPiles.size = v.width * v.height ∧
    v.piles.size = v.width * v.height ∧ v.marks.size = v.width * v.height
  mask_lt : ∀ m ∈ v.walls, m < 16
  walls : ∀ c side, v.contains c = true →
    (v.Closed c side ↔
      v.isBorder c side = true ∨
        (w.contains c = true ∧ w.contains (c.beyond side) = true ∧
          v.contains (c.beyond side) = true) ∧ w.Closed c side)
  startPile : ∀ c, v.startPile c =
    if w.contains c = true ∧ v.contains c = true then w.startPile c else 0
  pile : ∀ c, v.pile c = if w.contains c = true ∧ v.contains c = true then w.pile c else 0
  isMarked : ∀ c, v.isMarked c =
    if w.contains c = true ∧ v.contains c = true then w.isMarked c else false
  pose : Nearest w.pose v.width v.height v.pose
  startPose : Nearest w.startPose v.width v.height v.startPose
  name : v.name = w.name
  programName : v.programName = w.programName
  bag : v.bag = w.bag
  startBag : v.startBag = w.startBag
  dumps : v.dumps = w.dumps
  limits : v.limits = w.limits

theorem Nearest.unique {p q q' : Pose} (h : Nearest p width height q)
    (h' : Nearest p width height q') : q' = q := by
  have hcell : q'.toCell = q.toCell :=
    Cell.ext_toInt (h'.row.trans h.row.symm) (h'.col.trans h.col.symm)
  have hfacing : q'.facing = q.facing := h'.facing.trans h.facing.symm
  cases q
  cases q'
  cases hcell
  cases hfacing
  rfl

theorem nearest_clampPose (hwidth : width ≤ sideMax) (hheight : height ≤ sideMax) (p : Pose) :
    Nearest p width height (clampPose p width height) :=
  ⟨toInt_clampCoordinate hheight p.row, toInt_clampCoordinate hwidth p.col, rfl⟩

/-- A world has one fit. -/
theorem Fitted.unique {v' : World} (hwidth : 1 ≤ width ∧ width ≤ sideMax)
    (hheight : 1 ≤ height ∧ height ≤ sideMax) (h : w.Fitted width height v)
    (h' : w.Fitted width height v') : v' = v := by
  have hsized : ∀ {u : World}, w.Fitted width height u → u.Sized := by
    intro u hu
    obtain ⟨hwalls, hstart, hpiles, hmarks⟩ := hu.sizes
    refine ⟨?_, ?_, ?_, ?_, hwalls, hstart, hpiles, hmarks⟩
    · exact hu.width ▸ hwidth.1
    · exact hu.width ▸ hwidth.2
    · exact hu.height ▸ hheight.1
    · exact hu.height ▸ hheight.2
  have hsame : v'.width = v.width ∧ v'.height = v.height :=
    ⟨h'.width.trans h.width.symm, h'.height.trans h.height.symm⟩
  have hcontains : ∀ c, v'.contains c = v.contains c := by
    intro c
    rw [contains, contains, index?, index?, hsame.1, hsame.2]
  have hborder : ∀ c side, v'.isBorder c side = v.isBorder c side := by
    intro c side
    cases side <;> simp only [isBorder, hsame]
  refine ext_cells (hsized h) (hsized h') h.mask_lt h'.mask_lt ?_ ?_ ?_ ?_ ?_
  · intro c side hc
    rw [h.walls c side hc, h'.walls c side ((hcontains c).trans hc), hborder, hcontains]
  · intro c _
    rw [h.startPile, h'.startPile, hcontains]
  · intro c _
    rw [h.pile, h'.pile, hcontains]
  · intro c _
    rw [h.isMarked, h'.isMarked, hcontains]
  · have hpose' := h'.pose
    have hstartPose' := h'.startPose
    rw [hsame.1, hsame.2] at hpose' hstartPose'
    have hpose := h.pose.unique hpose'
    have hstartPose := h.startPose.unique hstartPose'
    have hname := h'.name.trans h.name.symm
    have hprogramName := h'.programName.trans h.programName.symm
    have hbag := h'.bag.trans h.bag.symm
    have hstartBag := h'.startBag.trans h.startBag.symm
    have hdumps := h'.dumps.trans h.dumps.symm
    have hlimits := h'.limits.trans h.limits.symm
    obtain ⟨hw, hh⟩ := hsame
    clear h h' hcontains hborder hsized hpose' hstartPose'
    cases v
    cases v'
    simp only at *
    subst hw hh hpose hstartPose hname hprogramName hbag hstartBag hdumps hlimits
    rfl

/-! ## Resizing -/

/-- A side of the resized world is closed on its border, and between two cells of both grids where it
was closed. -/
theorem closed_closeBorder_reframed (hw : w.Sized) (hv : (w.reframed width height).Sized)
    (hc : (w.reframed width height).contains c = true) :
    (w.reframed width height).closeBorder.Closed c d ↔
      (w.reframed width height).isBorder c d = true ∨
        (w.contains c = true ∧ w.contains (c.beyond d) = true ∧
          (w.reframed width height).contains (c.beyond d) = true) ∧ w.Closed c d := by
  rw [closed_closeBorder hv]
  by_cases hbeyond : (w.reframed width height).contains (c.beyond d) = true
  · have hinside := (contains_beyond_iff hv hc).1 hbeyond
    rw [closed_reframed hw hv hc hbeyond]
    simp only [hinside, hbeyond, Bool.false_eq_true, and_false, or_false, false_or, and_true,
      and_assoc]
  · -- on the border nothing else matters
    have hborder : (w.reframed width height).isBorder c d = true := by
      rw [← Bool.not_eq_false, ← contains_beyond_iff hv hc]
      exact hbeyond
    simp only [hc, hborder, true_and, true_or, or_true]

/-- Resizing to another size gives the world that fits. -/
theorem fitted_resize (h : w.WellFormed) (width height : Nat)
    (hother : ¬ (clampSide width = w.width ∧ clampSide height = w.height)) :
    w.Fitted (clampSide width) (clampSide height) (w.resize width height) := by
  have hwidth := (clampSide_bounds width).2
  have hheight := (clampSide_bounds height).2
  have hv := reframed_sized w width height
  have hformed := h.resize width height
  have hclosed := fun c d => closed_closeBorder_reframed (c := c) (d := d) h.sized hv
  rw [resize_eq, if_neg hother] at hformed ⊢
  -- only the masks of the reframed world change when its border is closed
  obtain ⟨walls, -, heq⟩ := exists_closeSides (w.reframed (clampSide width) (clampSide height))
    (borderSides (clampSide width) (clampSide height))
  have hclose : (w.reframed (clampSide width) (clampSide height)).closeBorder =
      { w.reframed (clampSide width) (clampSide height) with walls } := heq
  rw [hclose] at hformed hclosed ⊢
  have hsized := hformed.sized
  exact
    { width := rfl
      height := rfl
      sizes := ⟨hsized.walls, hsized.startPiles, hsized.piles, hsized.marks⟩
      mask_lt := hformed.walled.mask_lt
      walls := hclosed
      startPile := entryAt_reframe w (w.reframed (clampSide width) (clampSide height)) _ _
      pile := entryAt_reframe w (w.reframed (clampSide width) (clampSide height)) _ _
      isMarked := entryAt_reframe w (w.reframed (clampSide width) (clampSide height)) _ _
      pose := nearest_clampPose hwidth hheight w.pose
      startPose := nearest_clampPose hwidth hheight w.startPose
      name := rfl
      programName := rfl
      bag := rfl
      startBag := rfl
      dumps := rfl
      limits := rfl }

/-- A world whose poses lie in its grid is what becomes of its fit in a larger grid when that is brought
back to the old size. -/
theorem Fitted.back (h : w.Fitted width height v) (hw : w.WellFormed) (hv : v.Sized)
    (hwidth : w.width ≤ width) (hheight : w.height ≤ height)
    (hpose : w.contains w.pose.toCell = true) (hstartPose : w.contains w.startPose.toCell = true) :
    v.Fitted w.width w.height w := by
  rw [← h.width] at hwidth
  rw [← h.height] at hheight
  have hsized := hw.sized
  have hgrown : ∀ c, w.contains c = true → v.contains c = true := by
    intro c hc
    rw [contains_iff] at hc ⊢
    omega
  -- an entry that was kept is found again
  have hkept : ∀ {α : Type} {fill : α} {f g : Cell → α},
      (∀ c, g c = if w.contains c = true ∧ v.contains c = true then f c else fill) →
      (∀ c, ¬ w.contains c = true → f c = fill) →
      ∀ c, f c = if v.contains c = true ∧ w.contains c = true then g c else fill := by
    intro α fill f g hg hf c
    by_cases hc : w.contains c = true
    · rw [if_pos ⟨hgrown c hc, hc⟩, hg, if_pos ⟨hc, hgrown c hc⟩]
    · rw [if_neg fun hboth => hc hboth.2, hf c hc]
  have hnearest : ∀ {p q : Pose}, w.contains p.toCell = true → Nearest p v.width v.height q →
      Nearest q w.width w.height p := by
    intro p q hp hq
    obtain ⟨hrow, hrow', hcol, hcol'⟩ := contains_iff.1 hp
    have hqrow := hq.row
    have hqcol := hq.col
    exact ⟨by omega, by omega, hq.facing.symm⟩
  exact
    { width := rfl
      height := rfl
      sizes := ⟨hsized.walls, hsized.startPiles, hsized.piles, hsized.marks⟩
      mask_lt := hw.walled.mask_lt
      walls := by
        intro c side hc
        have hvc := hgrown c hc
        rw [h.walls c side hvc]
        constructor
        · intro hclosed
          cases hborder : w.isBorder c side with
          | true => exact .inl rfl
          | false =>
            have hbeyond := (contains_beyond_iff hsized hc).2 hborder
            have hvbeyond := hgrown _ hbeyond
            exact .inr ⟨⟨hvc, hvbeyond, hbeyond⟩, .inr ⟨⟨hc, hbeyond, hvbeyond⟩, hclosed⟩⟩
        · rintro (hborder | ⟨⟨-, hvbeyond, -⟩, hborder | ⟨-, hclosed⟩⟩)
          · exact hw.walled.border c side hc hborder
          · -- a side between two cells of the larger grid is none of its border
            rw [(contains_beyond_iff hv hvc).1 hvbeyond] at hborder
            exact absurd hborder (by simp)
          · exact hclosed
      startPile := hkept h.startPile fun c hc => by
        rw [World.startPile, index?_eq_none_of_not_contains hc]
      pile := hkept h.pile fun c hc => by
        rw [World.pile, index?_eq_none_of_not_contains hc]
      isMarked := hkept h.isMarked fun c hc => by
        rw [World.isMarked, index?_eq_none_of_not_contains hc]
      pose := hnearest hpose h.pose
      startPose := hnearest hstartPose h.startPose
      name := h.name.symm
      programName := h.programName.symm
      bag := h.bag.symm
      startBag := h.startBag.symm
      dumps := h.dumps.symm
      limits := h.limits.symm }

theorem clampSide_of_bounds {n : Nat} (h : 1 ≤ n) (h' : n ≤ sideMax) : clampSide n = n := by
  rw [clampSide]
  omega

/-- Making a world larger and as small again as it was restores it. -/
theorem resize_resize_of_le (h : w.WellFormed) (hwidth : w.width ≤ width)
    (hheight : w.height ≤ height) (hpose : w.contains w.pose.toCell = true)
    (hstartPose : w.contains w.startPose.toCell = true) :
    (w.resize width height).resize w.width w.height = w := by
  have hsized := h.sized
  have hw := clampSide_of_bounds hsized.one_le_width hsized.width_le
  have hh := clampSide_of_bounds hsized.one_le_height hsized.height_le
  by_cases hsame : clampSide width = w.width ∧ clampSide height = w.height
  · have hkeep : w.resize width height = w := by rw [resize_eq, if_pos hsame]
    rw [hkeep, resize_eq, if_pos ⟨hw, hh⟩]
  · have hfits := fitted_resize h width height hsame
    have hformed := h.resize width height
    -- both the world itself and what resizing gives back fit the old grid
    have hgiven := fitted_resize hformed w.width w.height (by
      rw [hfits.width, hfits.height, hw, hh]
      exact fun heq => hsame ⟨heq.1.symm, heq.2.symm⟩)
    rw [hw, hh] at hgiven
    have hback := hfits.back h hformed.sized (by rw [clampSide]; have := hsized.width_le; omega)
      (by rw [clampSide]; have := hsized.height_le; omega) hpose hstartPose
    exact hback.unique ⟨hsized.one_le_width, hsized.width_le⟩
      ⟨hsized.one_le_height, hsized.height_le⟩ hgiven

/-- Resizing a well-formed world to the size it has changes nothing. Resizing it to another size, brought
between 1 and 10000, gives the world that fits: a side is closed if it lies on the new border or if it
was closed between two cells of both grids, cells of both grids keep their piles and marks, all other
cells are empty, the robot and its baseline are brought into the grid without turning, and nothing else
changes. So a world with its robot in the grid that is made larger and as small again is restored. -/
theorem resize_keeps_what_fits (h : w.WellFormed) (width height : Nat) :
    (max 1 (min width 10000) = w.width ∧ max 1 (min height 10000) = w.height →
      w.resize width height = w) ∧
    (¬ (max 1 (min width 10000) = w.width ∧ max 1 (min height 10000) = w.height) →
      w.Fitted (max 1 (min width 10000)) (max 1 (min height 10000)) (w.resize width height)) ∧
    (w.contains w.pose.toCell = true → w.contains w.startPose.toCell = true →
      w.width ≤ width → w.height ≤ height →
      (w.resize width height).resize w.width w.height = w) := by
  refine ⟨?_, fitted_resize h width height, ?_⟩
  · intro hsame
    rw [resize_eq]
    exact if_pos hsame
  · intro hpose hstartPose hwidth hheight
    exact resize_resize_of_le h hwidth hheight hpose hstartPose

/-- A world with two inner walls, two piles and a mark, and its robot in the corner. -/
def patchwork : World :=
  (((((new 3 2).addWall ⟨1, 1⟩ .north).addWall ⟨1, 2⟩ .east).setPile ⟨2, 3⟩ 7).setPile ⟨1, 2⟩
    (-1)).setMark ⟨2, 1⟩ true |>.moveTo ⟨2, 3⟩

/-- Made narrower and taller, it keeps the wall between two cells that stay, opens its old border in the
north and closes the new one in the east, loses the pile in the corner, and takes the robot along. -/
theorem resize_keeps_what_fits_patchwork :
    patchwork.WellFormed ∧
      ((patchwork.resize 2 5).Closed ⟨1, 1⟩ .north ∧ ¬ (patchwork.resize 2 5).Closed ⟨2, 1⟩ .north ∧
        (patchwork.resize 2 5).Closed ⟨2, 2⟩ .east) ∧
      ((patchwork.resize 2 5).pile ⟨1, 2⟩ = infinite ∧ (patchwork.resize 2 5).pile ⟨2, 3⟩ = 0 ∧
        (patchwork.resize 2 5).isMarked ⟨2, 1⟩ = true) ∧
      ((patchwork.resize 2 5).pose.row.toInt = 2 ∧ (patchwork.resize 2 5).pose.col.toInt = 2) ∧
      (patchwork.resize 20000 3).resize 3 2 = patchwork := by
  have hformed : patchwork.WellFormed :=
    ((((((wellFormed_new 3 2).addWall _ _).addWall _ _).setPile _ _).setPile _ _).setMark _ _).moveTo _
  have hfits := (resize_keeps_what_fits hformed 2 5).2.1 (by decide +kernel)
  have hback := (resize_keeps_what_fits hformed 20000 3).2.2 (by decide +kernel) (by decide +kernel)
    (by decide +kernel) (by decide +kernel)
  have hsize : patchwork.width = 3 ∧ patchwork.height = 2 := by decide +kernel
  rw [hsize.1, hsize.2] at hback
  refine ⟨hformed, ⟨?_, ?_, ?_⟩, ⟨?_, ?_, ?_⟩, ⟨?_, ?_⟩, hback⟩
  · exact (hfits.walls _ _ (by decide +kernel)).2 (.inr (by decide +kernel))
  · exact (hfits.walls _ _ (by decide +kernel)).not.2 (by decide +kernel)
  · exact (hfits.walls _ _ (by decide +kernel)).2 (.inl (by decide +kernel))
  · exact (hfits.pile _).trans (by decide +kernel)
  · exact (hfits.pile _).trans (by decide +kernel)
  · exact (hfits.isMarked _).trans (by decide +kernel)
  · exact hfits.pose.row.trans (by decide +kernel)
  · exact hfits.pose.col.trans (by decide +kernel)

end World

end GridRobot
