import GridRobot.World.Edit
import Mathlib.Data.Nat.Basic

/-!
# Cells, places and neighbours

Cells of a grid and places in its arrays correspond one to one (`gridIndex?_inj`,
`exists_gridIndex?`), and crossing a side leads to another cell of the grid unless the side lies on the
border (`contains_beyond_iff`). Coordinates are words that wrap around; in a grid of admissible size
nothing does.
-/

set_option autoImplicit false

namespace GridRobot

/-! ## Words -/

theorem toInt_add_of_bounds {a b : Int32} (hle : -2147483648 ≤ a.toInt + b.toInt)
    (hlt : a.toInt + b.toInt < 2147483648) : (a + b).toInt = a.toInt + b.toInt := by
  rw [Int32.toInt_add]
  exact Int.bmod_eq_of_le (by omega) (by omega)

theorem toInt_ofNat_of_le {n : Nat} (h : n ≤ sideMax) : (Int32.ofNat n).toInt = n := by
  rw [sideMax] at h
  exact Int32.toInt_ofNat_of_lt (by omega)

namespace Cell

theorem ext_toInt {a b : Cell} (hrow : a.row.toInt = b.row.toInt)
    (hcol : a.col.toInt = b.col.toInt) : a = b := by
  rcases a with ⟨row, col⟩
  rcases b with ⟨row', col'⟩
  obtain rfl := Int32.toInt_inj.1 hrow
  obtain rfl := Int32.toInt_inj.1 hcol
  rfl

theorem toInt_ofNat {row col : Nat} (hrow : row ≤ sideMax) (hcol : col ≤ sideMax) :
    (ofNat row col).row.toInt = row ∧ (ofNat row col).col.toInt = col :=
  ⟨toInt_ofNat_of_le hrow, toInt_ofNat_of_le hcol⟩

theorem eq_ofNat {c : Cell} {row col : Nat} (hrow : row ≤ sideMax) (hcol : col ≤ sideMax)
    (hrow' : c.row.toInt = row) (hcol' : c.col.toInt = col) : c = ofNat row col := by
  obtain ⟨h, h'⟩ := toInt_ofNat hrow hcol
  exact ext_toInt (hrow'.trans h.symm) (hcol'.trans h'.symm)

/-- Crossing a side and crossing it back leads to the same cell. -/
@[simp] theorem beyond_beyond_opposite (c : Cell) (side : Orientation) :
    (c.beyond side).beyond side.opposite = c := by
  obtain ⟨row, col⟩ := c
  cases side <;>
    simp [beyond, Orientation.opposite, Orientation.rowStep, Orientation.colStep, Int32.add_assoc]

theorem beyond_ne (c : Cell) (side : Orientation) : c.beyond side ≠ c := by
  obtain ⟨row, col⟩ := c
  intro h
  obtain ⟨hrow, hcol⟩ := Cell.mk.inj h
  cases side <;>
    simp [Orientation.rowStep, Orientation.colStep] at hrow hcol

end Cell

/-! ## Places -/

variable {width height i : Nat} {c c' : Cell}

theorem gridIndex?_eq_some_iff :
    gridIndex? width height c = some i ↔
      (1 ≤ c.row.toInt ∧ c.row.toInt ≤ height ∧ 1 ≤ c.col.toInt ∧ c.col.toInt ≤ width) ∧
        (c.row.toInt - 1).toNat * width + (c.col.toInt - 1).toNat = i := by
  rw [gridIndex?]
  split
  · rename_i h
    simp [h]
  · rename_i h
    simp [h]

theorem div_of_gridIndex? (h : gridIndex? width height c = some i) :
    i / width = (c.row.toInt - 1).toNat := by
  obtain ⟨⟨-, -, hcol, hcol'⟩, rfl⟩ := gridIndex?_eq_some_iff.1 h
  have hlt : (c.col.toInt - 1).toNat < width := by omega
  rw [Nat.mul_comm, Nat.mul_add_div (by omega), Nat.div_eq_of_lt hlt, Nat.add_zero]

theorem mod_of_gridIndex? (h : gridIndex? width height c = some i) :
    i % width = (c.col.toInt - 1).toNat := by
  obtain ⟨⟨-, -, hcol, hcol'⟩, rfl⟩ := gridIndex?_eq_some_iff.1 h
  have hlt : (c.col.toInt - 1).toNat < width := by omega
  rw [Nat.mul_comm, Nat.mul_add_mod, Nat.mod_eq_of_lt hlt]

/-- Two cells at the same place are the same. -/
theorem gridIndex?_inj (h : gridIndex? width height c = some i)
    (h' : gridIndex? width height c' = some i) : c = c' := by
  -- the place determines the row as its quotient and the column as its remainder
  have hrow := (div_of_gridIndex? h).symm.trans (div_of_gridIndex? h')
  have hcol := (mod_of_gridIndex? h).symm.trans (mod_of_gridIndex? h')
  obtain ⟨hrange, -⟩ := gridIndex?_eq_some_iff.1 h
  obtain ⟨hrange', -⟩ := gridIndex?_eq_some_iff.1 h'
  exact Cell.ext_toInt (by omega) (by omega)

theorem gridIndex?_ofNat {row col : Nat} (hwidth : width ≤ sideMax) (hheight : height ≤ sideMax)
    (hrow : row < height) (hcol : col < width) :
    gridIndex? width height (.ofNat (row + 1) (col + 1)) = some (row * width + col) := by
  obtain ⟨hrow', hcol'⟩ : (Cell.ofNat (row + 1) (col + 1)).row.toInt = (row + 1 : Nat) ∧
      (Cell.ofNat (row + 1) (col + 1)).col.toInt = (col + 1 : Nat) :=
    Cell.toInt_ofNat (by omega) (by omega)
  have hrow'' : (((row + 1 : Nat) : Int) - 1).toNat = row := by omega
  have hcol'' : (((col + 1 : Nat) : Int) - 1).toNat = col := by omega
  rw [gridIndex?_eq_some_iff, hrow', hcol', hrow'', hcol'']
  exact ⟨by omega, rfl⟩

/-- Every place is the place of a cell. -/
theorem exists_gridIndex? (hwidth : width ≤ sideMax) (hheight : height ≤ sideMax)
    (hi : i < width * height) : ∃ c, gridIndex? width height c = some i := by
  have hpos : 0 < width := Nat.pos_of_ne_zero fun h => by simp [h] at hi
  have hrow : i / width < height := Nat.div_lt_of_lt_mul hi
  have hcol : i % width < width := Nat.mod_lt i hpos
  refine ⟨_, (gridIndex?_ofNat hwidth hheight hrow hcol).trans ?_⟩
  rw [Nat.mul_comm, Nat.div_add_mod]

/-- The cells of a grid are those that have a place in it. -/
theorem mem_gridCells_iff (hwidth : width ≤ sideMax) (hheight : height ≤ sideMax) :
    c ∈ gridCells width height ↔ (gridIndex? width height c).isSome = true := by
  simp only [gridCells, List.mem_flatMap, List.mem_range, List.mem_map]
  constructor
  · rintro ⟨row, hrow, col, hcol, rfl⟩
    rw [gridIndex?_ofNat hwidth hheight hrow hcol]
    rfl
  · intro h
    rcases Option.isSome_iff_exists.1 h with ⟨i, hi⟩
    rcases gridIndex?_eq_some_iff.1 hi with ⟨hrange, -⟩
    refine ⟨(c.row.toInt - 1).toNat, by omega, (c.col.toInt - 1).toNat, by omega, ?_⟩
    exact (Cell.eq_ofNat (by omega) (by omega) (by omega) (by omega)).symm

/-! ## Worlds of admissible size -/

namespace World

/-- The size of the grid is admissible, and each array has one entry for each cell. -/
structure Sized (w : World) : Prop where
  one_le_width : 1 ≤ w.width
  width_le : w.width ≤ sideMax
  one_le_height : 1 ≤ w.height
  height_le : w.height ≤ sideMax
  walls : w.walls.size = w.width * w.height
  startPiles : w.startPiles.size = w.width * w.height
  piles : w.piles.size = w.width * w.height
  marks : w.marks.size = w.width * w.height

variable {w : World} {side : Orientation}

theorem contains_iff :
    w.contains c = true ↔
      1 ≤ c.row.toInt ∧ c.row.toInt ≤ w.height ∧ 1 ≤ c.col.toInt ∧ c.col.toInt ≤ w.width := by
  rw [contains, index?, gridIndex?]
  split
  · rename_i h
    simp [h]
  · rename_i h
    simp only [Option.isSome_none, Bool.false_eq_true, false_iff]
    exact h

theorem contains_of_index? (h : w.index? c = some i) : w.contains c = true := by
  rw [contains, h]
  rfl

theorem index?_eq_none_of_not_contains (h : ¬ w.contains c = true) : w.index? c = none := by
  simpa [contains] using h

theorem isBorder_iff :
    w.isBorder c side = true ↔
      match side with
      | .west => c.col.toInt = 1
      | .north => c.row.toInt = w.height
      | .east => c.col.toInt = w.width
      | .south => c.row.toInt = 1 := by
  have hone : (1 : Int32).toInt = 1 := rfl
  cases side <;> simp [isBorder, ← Int32.toInt_inj, hone]

/-- Which cells there are is a matter of the size alone. -/
theorem contains_congr {v : World} (hwidth : v.width = w.width) (hheight : v.height = w.height)
    (c : Cell) : v.contains c = w.contains c := by
  rw [contains, contains, index?, index?, hwidth, hheight]

/-- So is which sides lie on the border. -/
theorem isBorder_congr {v : World} (hwidth : v.width = w.width) (hheight : v.height = w.height)
    (c : Cell) (side : Orientation) : v.isBorder c side = w.isBorder c side := by
  cases side <;> simp only [isBorder, hwidth, hheight]

/-- The coordinates beyond a side of a cell of the grid. -/
theorem toInt_beyond (hw : w.Sized) (hc : w.contains c = true) (side : Orientation) :
    (c.beyond side).row.toInt = c.row.toInt + side.rowStep.toInt ∧
      (c.beyond side).col.toInt = c.col.toInt + side.colStep.toInt := by
  have hheight := hw.height_le
  have hwidth := hw.width_le
  rw [sideMax] at hheight hwidth
  rcases contains_iff.1 hc with ⟨hrow, hrow', hcol, hcol'⟩
  -- no sum wraps around: the coordinates are small and a step changes them by one at most
  have hstep : -1 ≤ side.rowStep.toInt ∧ side.rowStep.toInt ≤ 1 ∧
      -1 ≤ side.colStep.toInt ∧ side.colStep.toInt ≤ 1 := by
    cases side <;> decide
  exact ⟨toInt_add_of_bounds (by omega) (by omega), toInt_add_of_bounds (by omega) (by omega)⟩

/-- Crossing a side leaves the grid exactly if the side lies on the border. -/
theorem contains_beyond_iff (hw : w.Sized) (hc : w.contains c = true) :
    w.contains (c.beyond side) = true ↔ w.isBorder c side = false := by
  rcases toInt_beyond hw hc side with ⟨hrow, hcol⟩
  have hrange := contains_iff.1 hc
  rw [← Bool.not_eq_true, isBorder_iff, contains_iff, hrow, hcol]
  have hzero : (0 : Int32).toInt = 0 := rfl
  have hone : (1 : Int32).toInt = 1 := rfl
  have hminus : (-1 : Int32).toInt = -1 := rfl
  cases side <;>
    simp only [Orientation.rowStep, Orientation.colStep, hzero, hone, hminus] <;>
    omega

theorem neighborIndex?_eq (hw : w.Sized) (hc : w.contains c = true) :
    w.neighborIndex? c side = w.index? (c.beyond side) := by
  rw [neighborIndex?]
  split
  · rename_i hborder
    apply (index?_eq_none_of_not_contains _).symm
    intro hbeyond
    rw [(contains_beyond_iff hw hc).1 hbeyond] at hborder
    exact absurd hborder (by simp)
  · rfl

theorem mem_cells_iff (hw : w.Sized) : c ∈ w.cells ↔ w.contains c = true :=
  mem_gridCells_iff hw.width_le hw.height_le

end World

end GridRobot
