import GridRobot.Proofs.World.Walls

/-!
# Resizing

The cells that lie in both grids keep their entries (`getD_reframe`). Between two cells of the new grid
a side is closed exactly if both lie in the old grid too and the side was closed there
(`closed_reframed`): walls of the old border that come to lie inside are dropped. The new border is
closed afterwards.
-/

set_option autoImplicit false

namespace GridRobot.World

variable {w : World} {c : Cell} {d : Orientation} {width height : Nat}

/-! ## Entries -/

@[simp] theorem size_reframe {α : Type} (entries : Array α) (fill : α)
    (oldWidth oldHeight width height : Nat) :
    (reframe entries fill oldWidth oldHeight width height).size = width * height := by
  simp [reframe]

/-- A cell keeps its entry if it lies in both grids, and gets the filling otherwise. -/
theorem getD_reframe {α : Type} {entries : Array α} {fill : α} {oldWidth oldHeight i : Nat}
    (h : gridIndex? width height c = some i) :
    (reframe entries fill oldWidth oldHeight width height).getD i fill =
      match gridIndex? oldWidth oldHeight c with
      | some j => entries.getD j fill
      | none => fill := by
  have hlt : i < width * height := gridIndex?_lt h
  have hrow := div_of_gridIndex? h
  have hcol := mod_of_gridIndex? h
  obtain ⟨hrange, -⟩ := gridIndex?_eq_some_iff.1 h
  -- the place of a cell tells its row and column, whatever grid they are looked up in
  have hget : (reframe entries fill oldWidth oldHeight width height).getD i fill =
      if i / width < oldHeight ∧ i % width < oldWidth then
        entries.getD (i / width * oldWidth + i % width) fill else fill := by
    simp [reframe, Array.getD_eq_getD_getElem?, hlt]
  rw [hget, hrow, hcol]
  rw [gridIndex?]
  by_cases hold : 1 ≤ c.row.toInt ∧ c.row.toInt ≤ oldHeight ∧ 1 ≤ c.col.toInt ∧
      c.col.toInt ≤ oldWidth
  · rw [if_pos hold, if_pos (by omega)]
  · rw [if_neg hold, if_neg (by omega)]

/-- What holds of all entries and of the filling holds after reframing. -/
theorem forall_mem_reframe {α : Type} {entries : Array α} {fill : α} {P : α → Prop}
    (h : ∀ x ∈ entries, P x) (hfill : P fill) (oldWidth oldHeight width height : Nat) :
    ∀ x ∈ reframe entries fill oldWidth oldHeight width height, P x := by
  intro x hx
  obtain ⟨i, rfl⟩ := Array.mem_ofFn.1 hx
  simp only
  split
  · rw [Array.getD]
    split
    · exact h _ (Array.getElem_mem _)
    · exact hfill
  · exact hfill

/-! ## Walls -/

theorem testBit_openSide (m : Nat) (side : Orientation) :
    (openSide m side).testBit d.index = (m.testBit d.index && decide (d ≠ side)) := by
  rw [openSide]
  split
  · rename_i hside
    rw [Nat.testBit_xor, Orientation.testBit_bit]
    by_cases hd : d = side <;> simp [hd, hside]
  · rename_i hside
    by_cases hd : d = side <;> simp [hd, hside]

theorem openSide_lt {m : Nat} (hm : m < 16) (side : Orientation) : openSide m side < 16 := by
  rw [openSide]
  split
  · exact Nat.xor_lt_two_pow (n := 4) hm side.bit_lt
  · exact hm

/-- The side lies on the old border and comes to lie inside. -/
def Opened (w : World) (width height : Nat) (c : Cell) : Orientation → Prop
  | .east => c.col.toInt = w.width ∧ w.width < width
  | .north => c.row.toInt = w.height ∧ w.height < height
  | _ => False

/-- Opening the border opens just the sides that come to lie inside. -/
theorem testBit_openBorder (hw : w.Sized) {j : Nat} (hj : w.index? c = some j) :
    ((w.openBorder width height).getD j 0).testBit d.index = true ↔
      w.Closed c d ∧ ¬ Opened w width height c d := by
  have hlt : j < w.walls.size := by
    rw [hw.walls]
    exact gridIndex?_lt hj
  have hrow := div_of_gridIndex? hj
  have hcol := mod_of_gridIndex? hj
  obtain ⟨hrange, -⟩ := gridIndex?_eq_some_iff.1 hj
  have hmask : w.mask c = w.walls.getD j 0 := by simp [mask, hj]
  have hget : (w.openBorder width height).getD j 0 =
      let m := if j % w.width + 1 = w.width ∧ w.width < width then openSide (w.mask c) .east
        else w.mask c
      if j / w.width + 1 = w.height ∧ w.height < height then openSide m .north else m := by
    simp [openBorder, Array.getD_eq_getD_getElem?, hlt, hmask]
  have hcol' : j % w.width + 1 = w.width ↔ c.col.toInt = w.width := by omega
  have hrow' : j / w.width + 1 = w.height ↔ c.row.toInt = w.height := by omega
  rw [hget]
  simp only [hcol', hrow', Closed]
  -- whether the cell lies on the east and the north border of a grid that grows there
  by_cases h₁ : c.col.toInt = w.width ∧ w.width < width <;>
    by_cases h₂ : c.row.toInt = w.height ∧ w.height < height <;>
    simp only [h₁, h₂, if_false] <;>
    cases d <;> simp [testBit_openSide, Opened, h₁, h₂]

/-! ## The world before its new border is closed -/

/-- The world in another grid, with the old border opened where the grid grows. -/
def reframed (w : World) (width height : Nat) : World :=
  { w with
    width, height
    walls := reframe (w.openBorder width height) 0 w.width w.height width height
    startPiles := reframe w.startPiles 0 w.width w.height width height
    piles := reframe w.piles 0 w.width w.height width height
    marks := reframe w.marks false w.width w.height width height
    pose := clampPose w.pose width height
    startPose := clampPose w.startPose width height }

theorem resize_eq (w : World) (width height : Nat) :
    w.resize width height =
      if clampSide width = w.width ∧ clampSide height = w.height then w
      else (w.reframed (clampSide width) (clampSide height)).closeBorder :=
  rfl

theorem clampSide_bounds (n : Nat) : 1 ≤ clampSide n ∧ clampSide n ≤ sideMax := by
  rw [clampSide, sideMax]
  omega

theorem reframed_sized (w : World) (width height : Nat) :
    (w.reframed (clampSide width) (clampSide height)).Sized where
  one_le_width := (clampSide_bounds width).1
  width_le := (clampSide_bounds width).2
  one_le_height := (clampSide_bounds height).1
  height_le := (clampSide_bounds height).2
  walls := size_reframe _ _ _ _ _ _
  startPiles := size_reframe _ _ _ _ _ _
  piles := size_reframe _ _ _ _ _ _
  marks := size_reframe _ _ _ _ _ _

theorem closed_reframed_iff (hw : w.Sized) (hc : (w.reframed width height).contains c = true) :
    (w.reframed width height).Closed c d ↔
      w.contains c = true ∧ w.Closed c d ∧ ¬ Opened w width height c d := by
  obtain ⟨i, hi⟩ := Option.isSome_iff_exists.1 hc
  have hgrid : gridIndex? width height c = some i := hi
  have hmask : (w.reframed width height).mask c =
      (reframe (w.openBorder width height) 0 w.width w.height width height).getD i 0 := by
    rw [mask, hi]
    rfl
  rw [Closed, hmask, getD_reframe hgrid]
  -- a cell that the old grid does not have gets an empty mask
  by_cases hold : w.contains c = true
  · obtain ⟨j, hj⟩ := Option.isSome_iff_exists.1 hold
    have hj' : gridIndex? w.width w.height c = some j := hj
    rw [hj']
    simp only [testBit_openBorder hw hj, hold, true_and]
  · have hnone : gridIndex? w.width w.height c = none := index?_eq_none_of_not_contains hold
    rw [hnone]
    simp [hold]

/-- Between two cells of the new grid a side is closed exactly if it was closed between the same two
cells of the old grid. -/
theorem closed_reframed (hw : w.Sized) (hv : (w.reframed width height).Sized)
    (hc : (w.reframed width height).contains c = true)
    (hcd : (w.reframed width height).contains (c.beyond d) = true) :
    (w.reframed width height).Closed c d ↔
      w.contains c = true ∧ w.contains (c.beyond d) = true ∧ w.Closed c d := by
  rw [closed_reframed_iff hw hc]
  have hinside : ¬ (w.reframed width height).isBorder c d = true := by
    rw [(contains_beyond_iff hv hc).1 hcd]
    simp
  rw [isBorder_iff] at hinside
  have hrange := contains_iff.1 hc
  apply and_congr_right
  intro hold
  have hrange' := contains_iff.1 hold
  rw [contains_beyond_iff hw hold, ← Bool.not_eq_true, isBorder_iff, and_comm]
  apply and_congr_left
  intro _
  apply not_congr
  simp only [reframed] at hinside hrange
  -- the side is on the old border but not on the new one, so the grid has grown beyond it
  cases d <;> simp only [Opened, false_iff] at hinside ⊢ <;> omega

theorem reframed_mirrored (hw : w.Sized) (hv : (w.reframed width height).Sized)
    (h : w.Mirrored) : (w.reframed width height).Mirrored where
  mask_lt := by
    refine forall_mem_reframe ?_ (by decide) _ _ _ _
    intro m hm
    rcases Array.mem_mapIdx.1 hm with ⟨i, hi, rfl⟩
    have hlt : w.walls[i] < 16 := h.mask_lt _ (Array.getElem_mem hi)
    -- the two borders are opened by the same step, one after the other
    have hopen : ∀ (p : Prop) [Decidable p] (m : Nat) (side : Orientation), m < 16 →
        (if p then openSide m side else m) < 16 := by
      intro p _ m side hm
      by_cases hp : p
      · rw [if_pos hp]
        exact openSide_lt hm side
      · rw [if_neg hp]
        exact hm
    exact hopen _ _ _ (hopen _ _ _ hlt)
  symm c d hc hcd := by
    have hback : (w.reframed width height).contains ((c.beyond d).beyond d.opposite) = true := by
      rw [Cell.beyond_beyond_opposite]
      exact hc
    rw [closed_reframed hw hv hc hcd, closed_reframed hw hv hcd hback,
      Cell.beyond_beyond_opposite]
    -- both sides speak of the same two cells, in the old grid
    constructor
    · rintro ⟨h₁, h₂, h₃⟩
      exact ⟨h₂, h₁, (h.symm c d h₁ h₂).1 h₃⟩
    · rintro ⟨h₁, h₂, h₃⟩
      exact ⟨h₂, h₁, (h.symm c d h₂ h₁).2 h₃⟩

end GridRobot.World
