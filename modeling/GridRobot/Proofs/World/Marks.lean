import GridRobot.Proofs.Legacy.Meaning
import GridRobot.Proofs.World.Fitting
import GridRobot.Proofs.World.Reachable
import Mathlib.Data.Finset.Basic

/-!
# Marked cells as a set

A world stores a flag for each cell of its grid, so that no cell outside it can be marked. A set of cells
promises nothing of the kind. Here the marks are kept once more, as a set with operations of its own: a
cell is inserted or erased if it lies in the grid, clearing empties the set, a new size drops the cells that
lie too far up or to the right, and a loader inserts the listed cells into the empty set. `World.ReachedWith` carries
such a set along with a world, through everything that can happen to it.

`World.HasMarks` relates a world to the set that its flags stand for. A change keeps it
(`HasMarks.edited`), so the set that is carried along is always the set of the cells whose flag is set
(`ReachedWith.hasMarks`). A new size compares only with its upper bounds: that a cell which is kept lies in
the new grid follows from its having been in the old one.
-/

set_option autoImplicit false

namespace GridRobot

/-! ## The operations on the set -/

/-- The marked cells after a cell has been marked or its mark has been taken away. A cell outside the
grid is passed over. -/
def markCell (width height : Nat) (c : Cell) (enabled : Bool) (marked : Finset Cell) : Finset Cell :=
  if (gridIndex? width height c).isSome = true then
    if enabled = true then insert c marked else marked.erase c
  else marked

/-- The marked cells after the cells of a list have been marked one after the other. -/
def markCells (width height : Nat) (cells : List Cell) (marked : Finset Cell) : Finset Cell :=
  cells.foldl (fun marked c => markCell width height c true marked) marked

/-- A coordinate as an unsigned word: a negative one is larger than any side of a grid. -/
def unsigned (n : Int32) : Nat :=
  n.toInt64.toUInt64.toNat

/-- The marked cells that a grid of another size keeps. -/
def keepCells (width height : Nat) (marked : Finset Cell) : Finset Cell :=
  marked.filter fun c => unsigned c.row ≤ height ∧ unsigned c.col ≤ width

/-- The cells that a document marks. -/
def Document.markedSet (d : Document) : Finset Cell :=
  markCells d.grid.width.toNat d.grid.height.toNat (d.grid.dumpCells.map CellEntry.cell) ∅

/-- The cells that the buffers mark. -/
def LegacyWorld.markedSet (l : LegacyWorld) : Finset Cell :=
  markCells l.width l.height (l.cellRecords.map fun r => cellAt r.1 r.2.1) ∅

/-- The marked cells of a world after a change. -/
def Edit.onMarks (w : World) (marked : Finset Cell) : Edit → Finset Cell
  | .setMark c enabled => markCell w.width w.height c enabled marked
  | .clear => ∅
  | .resize width height =>
    if clampSide width = w.width ∧ clampSide height = w.height then marked
    else keepCells (clampSide width) (clampSide height) marked
  | .load d =>
    match World.ofDocument d with
    | .ok _ => d.markedSet
    | .error _ => marked
  | _ => marked

section Operations

variable {width height : Nat} {a c : Cell} {marked : Finset Cell}

theorem mem_markCell_iff {enabled : Bool} :
    a ∈ markCell width height c enabled marked ↔
      if (gridIndex? width height c).isSome = true ∧ a = c then enabled = true else a ∈ marked := by
  rw [markCell]
  by_cases hc : (gridIndex? width height c).isSome = true
  · by_cases hac : a = c <;> cases enabled <;> simp [hc, hac]
  · simp [hc]

theorem mem_markCells_iff {cells : List Cell} :
    a ∈ markCells width height cells marked ↔
      a ∈ marked ∨ (gridIndex? width height a).isSome = true ∧ a ∈ cells := by
  induction cells generalizing marked with
  | nil => simp [markCells]
  | cons c cells ih =>
    have hcons : markCells width height (c :: cells) marked =
        markCells width height cells (markCell width height c true marked) := rfl
    rw [hcons, ih, mem_markCell_iff, List.mem_cons]
    by_cases hac : a = c
    · subst hac
      by_cases ha : (gridIndex? width height a).isSome = true <;> simp [ha]
    · simp only [hac, and_false, if_false, false_or]

theorem unsigned_of_nonneg {n : Int32} (h : 0 ≤ n.toInt) : (unsigned n : Int) = n.toInt := by
  rw [← Int32.toInt_toInt64, Int64.toInt, BitVec.toInt_eq_toNat_cond] at h ⊢
  rw [unsigned, ← Int64.toNat_toBitVec]
  split at h <;> omega

end Operations

namespace World

variable {w v : World} {c : Cell} {marked : Finset Cell}

/-- For a cell of the old grid, the upper bounds decide whether it lies in the new one. -/
theorem mem_keepCells_iff (hmarked : ∀ c ∈ marked, w.contains c = true) :
    c ∈ keepCells v.width v.height marked ↔ c ∈ marked ∧ v.contains c = true := by
  rw [keepCells, Finset.mem_filter]
  apply and_congr_right
  intro hc
  -- in the old grid both coordinates were positive, so neither is taken for a large number
  obtain ⟨hrow, -, hcol, -⟩ := contains_iff.1 (hmarked c hc)
  have hrow' := unsigned_of_nonneg (Int.le_trans (by decide) hrow)
  have hcol' := unsigned_of_nonneg (Int.le_trans (by decide) hcol)
  rw [contains_iff]
  omega

/-! ## The set that the flags stand for -/

/-- The cells of a set are those whose flag is set. -/
def HasMarks (w : World) (marked : Finset Cell) : Prop :=
  ∀ c, c ∈ marked ↔ w.isMarked c = true

theorem contains_of_isMarked (h : w.isMarked c = true) : w.contains c = true := by
  rw [isMarked] at h
  split at h
  · rename_i i hi
    rw [contains, hi]
    rfl
  · cases h

theorem isMarked_of_index? {i : Nat} (h : w.index? c = some i) :
    w.isMarked c = w.marks.getD i false := by
  rw [isMarked, h]

theorem HasMarks.contains (h : w.HasMarks marked) : ∀ c ∈ marked, w.contains c = true := by
  intro c hc
  exact contains_of_isMarked ((h c).1 hc)

theorem HasMarks.toFinset_markedCells (h : w.HasMarks marked) (hw : w.Sized) :
    w.markedCells.toFinset = marked := by
  ext c
  rw [List.mem_toFinset, markedCells, List.mem_filter, mem_cells_iff hw, h c]
  exact and_iff_right_of_imp contains_of_isMarked

/-- What changes neither the size nor the flags keeps the set. -/
theorem HasMarks.congr (h : w.HasMarks marked) (hwidth : v.width = w.width)
    (hheight : v.height = w.height) (hmarks : v.marks = w.marks) : v.HasMarks marked := by
  intro c
  rw [h c, isMarked, isMarked, index?, index?, hwidth, hheight, hmarks]

/-- A world without a flag stands for the empty set. -/
theorem hasMarks_empty (h : w.marks = Array.replicate (w.width * w.height) false) : w.HasMarks ∅ := by
  intro c
  rw [isMarked, h]
  split
  · simp only [getD_replicate, Finset.notMem_empty, Bool.false_eq_true]
  · simp only [Finset.notMem_empty, Bool.false_eq_true]

theorem hasMarks_new (width height : Nat) : (new width height).HasMarks ∅ := by
  obtain ⟨walls, -, hnew⟩ := exists_closeSides (bare (clampSide width) (clampSide height))
    (borderSides (clampSide width) (clampSide height))
  rw [show new width height = _ from hnew]
  exact hasMarks_empty rfl

theorem hasMarks_clear (w : World) : w.clear.HasMarks ∅ := by
  obtain ⟨walls, -, hclear⟩ := exists_closeSides
    { w with
      walls := (bare w.width w.height).walls
      startPiles := (bare w.width w.height).startPiles
      piles := (bare w.width w.height).piles
      marks := (bare w.width w.height).marks } (borderSides w.width w.height)
  rw [show w.clear = _ from hclear]
  exact hasMarks_empty rfl

/-- A world in which the cells of a list are marked stands for the set that marking them one after the other
gives. -/
theorem hasMarks_markCells {cells : List Cell}
    (h : ∀ c, w.contains c = true → (w.isMarked c = true ↔ c ∈ cells)) :
    w.HasMarks (markCells w.width w.height cells ∅) := by
  intro c
  rw [mem_markCells_iff]
  constructor
  · rintro (hempty | ⟨hc, hcells⟩)
    · exact absurd hempty (Finset.notMem_empty c)
    · exact (h c hc).2 hcells
  · intro hmarked
    have hc := contains_of_isMarked hmarked
    exact .inr ⟨hc, (h c hc).1 hmarked⟩

theorem hasMarks_of_ofDocument {d : Document} (h : World.ofDocument d = .ok w) :
    w.HasMarks d.markedSet := by
  have hdescribes := Document.describes_of_ofDocument h
  have hsized := (settled_of_ofDocument h).wellFormed.sized
  rw [Document.markedSet, ← hdescribes.width, ← hdescribes.height]
  apply hasMarks_markCells
  intro c hc
  simp only [hdescribes.marks c hc, names_iff hsized hc, List.mem_map, CellEntry.cell, eq_comm]

theorem hasMarks_of_decode {l : LegacyWorld} (h : l.decode = .ok w) : w.HasMarks l.markedSet := by
  have hdescribes := LegacyWorld.describes_of_decode h
  rw [LegacyWorld.markedSet, ← hdescribes.width, ← hdescribes.height]
  apply hasMarks_markCells
  intro c hc
  simp only [hdescribes.marks c hc, LegacyWorld.names_iff_cellAt, List.mem_map, eq_comm]

theorem isMarked_setMark (hw : w.Sized) (hc : w.contains c = true) (a : Cell) (enabled : Bool) :
    (w.setMark a enabled).isMarked c = if c = a then enabled else w.isMarked c := by
  obtain ⟨i, hi⟩ := Option.isSome_iff_exists.1 hc
  have hi' : (w.setMark a enabled).index? c = some i := by
    rw [setMark_eq]
    exact hi
  rw [isMarked_of_index? hi', isMarked_of_index? hi, setMark_eq]
  exact getD_setEntry hw.marks hi

theorem HasMarks.setMark (h : w.HasMarks marked) (hw : w.Sized) (a : Cell) (enabled : Bool) :
    (w.setMark a enabled).HasMarks (markCell w.width w.height a enabled marked) := by
  intro c
  rw [mem_markCell_iff, h c]
  by_cases hc : w.contains c = true
  · rw [isMarked_setMark hw hc]
    by_cases hca : c = a
    · have ha : (gridIndex? w.width w.height a).isSome = true := hca ▸ hc
      rw [if_pos ⟨ha, hca⟩, if_pos hca]
    · rw [if_neg fun hand => hca hand.2, if_neg hca]
  · -- a cell outside the grid has no flag, before and after
    have hne : ¬ ((gridIndex? w.width w.height a).isSome = true ∧ c = a) := by
      rintro ⟨ha, rfl⟩
      exact hc ha
    have hc' : ¬ (w.setMark a enabled).contains c = true := by
      rw [setMark_eq]
      exact hc
    rw [if_neg hne]
    exact iff_of_false (mt contains_of_isMarked hc) (mt contains_of_isMarked hc')

/-- A cell keeps its flag in a grid of another size exactly if the set keeps the cell. -/
theorem HasMarks.resize (h : w.HasMarks marked) (hw : w.WellFormed) (width height : Nat) :
    (w.resize width height).HasMarks (Edit.onMarks w marked (.resize width height)) := by
  by_cases hsame : clampSide width = w.width ∧ clampSide height = w.height
  · rw [resize_eq, Edit.onMarks, if_pos hsame, if_pos hsame]
    exact h
  · have hfitted := fitted_resize hw width height hsame
    intro c
    rw [Edit.onMarks, if_neg hsame, ← hfitted.width, ← hfitted.height, mem_keepCells_iff h.contains,
      hfitted.isMarked, h c]
    by_cases hc : w.isMarked c = true
    · simp [hc, contains_of_isMarked hc]
    · simp [hc]

theorem HasMarks.pick (h : w.HasMarks marked) (c : Cell) : (w.pick c).HasMarks marked := by
  rw [World.pick]
  split
  · exact h
  · split
    · exact h
    · exact h.congr rfl rfl rfl

theorem HasMarks.leave (h : w.HasMarks marked) (c : Cell) : (w.leave c).HasMarks marked := by
  rw [World.leave]
  split
  · exact h
  · split
    · exact h
    · exact h.congr rfl rfl rfl

theorem HasMarks.perform (h : w.HasMarks marked) (a : Action) : (w.perform a).HasMarks marked := by
  cases a with
  | forward | left => exact h.congr rfl rfl rfl
  | pickBuzzer => exact h.pick _
  | leaveBuzzer => exact h.leave _

/-- A change does to the flags what it does to the set. -/
theorem HasMarks.edited (h : w.HasMarks marked) (hw : w.WellFormed) (e : Edit) :
    (w.edited e).HasMarks (e.onMarks w marked) := by
  -- four changes touch the marks; the others change neither the size nor the flags
  cases e with
  | addWall c side =>
    obtain ⟨walls, -, heq⟩ := exists_addWall w c side
    rw [World.edited, heq]
    exact h.congr rfl rfl rfl
  | toggleWall c side =>
    obtain ⟨walls, -, heq⟩ := exists_toggleWall w c side
    rw [World.edited, heq]
    exact h.congr rfl rfl rfl
  | setPile c n =>
    rw [World.edited, setPile_eq]
    exact h.congr rfl rfl rfl
  | pick c => exact h.pick c
  | leave c => exact h.leave c
  | setMark c enabled => exact h.setMark hw.sized c enabled
  | clear => exact hasMarks_clear w
  | resize width height => exact h.resize hw width height
  | load d =>
    cases hload : World.ofDocument d with
    | error err =>
      simp only [World.edited, Edit.onMarks, hload]
      exact h
    | ok v =>
      simp only [World.edited, Edit.onMarks, hload]
      exact hasMarks_of_ofDocument hload
  | execute i m queue =>
    rw [World.edited, execute_world]
    cases i.action? with
    | none => exact h
    | some a => exact h.perform a
  | _ => exact h.congr rfl rfl rfl

/-! ## The set that is carried along -/

/-- The worlds that changes lead to from new and loaded worlds, each with the set of cells that the same
changes mark. -/
inductive ReachedWith : World → Finset Cell → Prop
  | new (width height : Nat) : ReachedWith (new width height) ∅
  | ofDocument {d : Document} {w : World} (h : ofDocument d = .ok w) : ReachedWith w d.markedSet
  | decode {l : LegacyWorld} {w : World} (h : l.decode = .ok w) : ReachedWith w l.markedSet
  | edited {w : World} {marked : Finset Cell} (h : ReachedWith w marked) (e : Edit) :
    ReachedWith (w.edited e) (e.onMarks w marked)

theorem ReachedWith.reachable (h : w.ReachedWith marked) : w.Reachable := by
  induction h with
  | new width height => exact .new width height
  | ofDocument h => exact .ofDocument h
  | decode h => exact .decode h
  | edited _ e ih => exact ih.edited e

theorem Reachable.exists_reachedWith (h : w.Reachable) : ∃ marked, w.ReachedWith marked := by
  induction h with
  | new width height => exact ⟨_, .new width height⟩
  | ofDocument h => exact ⟨_, .ofDocument h⟩
  | decode h => exact ⟨_, .decode h⟩
  | edited _ e ih =>
    obtain ⟨marked, hmarked⟩ := ih
    exact ⟨_, hmarked.edited e⟩

/-- The set that is carried along is the set of the cells whose flag is set. -/
theorem ReachedWith.hasMarks (h : w.ReachedWith marked) : w.HasMarks marked := by
  induction h with
  | new width height => exact hasMarks_new width height
  | ofDocument h => exact hasMarks_of_ofDocument h
  | decode h => exact hasMarks_of_decode h
  | edited h e ih => exact ih.edited h.reachable.wellFormed e

/-! ## The invariant -/

/-- Whatever has been done to a world, its size is admissible and its arrays have one entry for each
cell; its masks are made of the four sides, its border is closed, and neighbours agree on the wall
between them; its piles and bags hold a count or an endless supply; and its marked cells lie in the
grid. So do the cells of the set that is carried along instead of the flags, since they are the marked
ones. -/
theorem reachable_invariant (h : w.Reachable) :
    (1 ≤ w.width ∧ w.width ≤ 10000 ∧ 1 ≤ w.height ∧ w.height ≤ 10000) ∧
    (w.walls.size = w.width * w.height ∧ w.startPiles.size = w.width * w.height ∧
      w.piles.size = w.width * w.height ∧ w.marks.size = w.width * w.height) ∧
    (∀ m ∈ w.walls, m < 16) ∧
    (∀ c side, w.contains c = true → w.isBorder c side = true → w.Closed c side) ∧
    (∀ c side, w.contains c = true → w.contains (c.beyond side) = true →
      (w.Closed c side ↔ w.Closed (c.beyond side) side.opposite)) ∧
    ((∀ n ∈ w.startPiles, -1 ≤ n) ∧ (∀ n ∈ w.piles, -1 ≤ n) ∧ -1 ≤ w.startBag ∧ -1 ≤ w.bag) ∧
    (∀ c ∈ w.markedCells, w.contains c = true) ∧
    (∃ marked, w.ReachedWith marked) ∧
    ∀ marked, w.ReachedWith marked →
      w.markedCells.toFinset = marked ∧ ∀ c ∈ marked, w.contains c = true := by
  have hformed := h.wellFormed
  have hsized := hformed.sized
  have hwalled := hformed.walled
  have hstocked := hformed.stocked
  refine ⟨⟨hsized.one_le_width, hsized.width_le, hsized.one_le_height, hsized.height_le⟩,
    ⟨hsized.walls, hsized.startPiles, hsized.piles, hsized.marks⟩, hwalled.mask_lt, hwalled.border,
    hwalled.symm, ⟨hstocked.startPiles, hstocked.piles, hstocked.startBag, hstocked.bag⟩, ?_,
    h.exists_reachedWith, ?_⟩
  · intro c hc
    exact (mem_cells_iff hsized).1 (List.mem_filter.1 hc).1
  · intro marked hmarked
    have hmarks := hmarked.hasMarks
    exact ⟨hmarks.toFinset_markedCells hsized, hmarks.contains⟩

/-- A world that has been marked, walled, widened, and visited by the robot. -/
def visited : World :=
  ((((new 2 2).edited (.setMark ⟨2, 2⟩ true)).edited (.toggleWall ⟨1, 1⟩ .north)).edited
    (.resize 3 2)).edited (.execute .forward (.fresh {}) [])

theorem reachable_invariant_visited :
    visited.Reachable ∧ visited.walls = #[11, 8, 12, 11, 2, 6] ∧
      (∀ c side, visited.contains c = true → visited.contains (c.beyond side) = true →
        (visited.Closed c side ↔ visited.Closed (c.beyond side) side.opposite)) ∧
      visited.ReachedWith {⟨2, 2⟩} ∧ visited.contains ⟨2, 2⟩ = true := by
  have hreachable : visited.Reachable := ((((Reachable.new 2 2).edited _).edited _).edited _).edited _
  have hmarked : visited.ReachedWith {⟨2, 2⟩} :=
    ((((ReachedWith.new 2 2).edited (.setMark ⟨2, 2⟩ true)).edited (.toggleWall ⟨1, 1⟩ .north)).edited
      (.resize 3 2)).edited (.execute .forward (.fresh {}) [])
  obtain ⟨-, -, -, -, hsymm, -, -, -, hmarks⟩ := reachable_invariant hreachable
  exact ⟨hreachable, by decide +kernel, hsymm, hmarked,
    (hmarks _ hmarked).2 _ (Finset.mem_singleton_self _)⟩

end World

end GridRobot
