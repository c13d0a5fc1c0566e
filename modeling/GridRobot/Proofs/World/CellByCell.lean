import GridRobot.Proofs.Document.RoundTrip

/-!
# Comparing worlds cell by cell

What a world holds is described cell by cell: which sides are closed, how many buzzers lie there,
whether the cell is marked. Two worlds of the same size that agree in these respects on every cell, and
in all else besides, are the same (`World.ext_cells`).
-/

set_option autoImplicit false

namespace GridRobot.World

variable {w v : World}

/-- Entries that are read alike at every cell are the same. -/
theorem entries_eq_of_cells {α : Type} {entries other : Array α} (fill : α) (hw : w.Sized)
    (hsize : entries.size = w.width * w.height) (hsize' : other.size = w.width * w.height)
    (h : ∀ c i, w.index? c = some i → w.contains c = true →
      entries.getD i fill = other.getD i fill) : entries = other :=
  entries_ext fill hw.width_le hw.height_le hsize hsize' fun c i hi =>
    h c i hi (contains_of_index? hi)

/-- Worlds that agree on every cell and in all that does not belong to a cell are the same. -/
theorem ext_cells (hw : w.Sized) (hv : v.Sized) (hlt : ∀ m ∈ w.walls, m < 16)
    (hlt' : ∀ m ∈ v.walls, m < 16)
    (hclosed : ∀ c d, w.contains c = true → (v.Closed c d ↔ w.Closed c d))
    (hstartPile : ∀ c, w.contains c = true → v.startPile c = w.startPile c)
    (hpile : ∀ c, w.contains c = true → v.pile c = w.pile c)
    (hmarked : ∀ c, w.contains c = true → v.isMarked c = w.isMarked c)
    (hrest : v =
      { w with
        walls := v.walls, startPiles := v.startPiles, piles := v.piles, marks := v.marks }) :
    v = w := by
  have hwidth : v.width = w.width := by rw [hrest]
  have hheight : v.height = w.height := by rw [hrest]
  have hindex : ∀ c, v.index? c = w.index? c := by
    intro c
    rw [index?, index?, hwidth, hheight]
  have hwalls : v.walls = w.walls := by
    refine walls_ext hw hlt ?_ hlt' ?_
    · rw [hv.walls, hw.walls, hwidth, hheight]
    · intro c d hc
      have hmask : mask { w with walls := v.walls } c = v.mask c := by
        rw [mask, mask, hindex]
        rfl
      rw [← hclosed c d hc, Closed, Closed, hmask]
  have hstartPiles : v.startPiles = w.startPiles := by
    refine entries_eq_of_cells 0 hw ?_ hw.startPiles ?_
    · rw [hv.startPiles, hwidth, hheight]
    · intro c i hi hc
      have hsame := hstartPile c hc
      rwa [startPile, startPile, hindex, hi] at hsame
  have hpiles : v.piles = w.piles := by
    refine entries_eq_of_cells 0 hw ?_ hw.piles ?_
    · rw [hv.piles, hwidth, hheight]
    · intro c i hi hc
      have hsame := hpile c hc
      rwa [pile, pile, hindex, hi] at hsame
  have hmarks : v.marks = w.marks := by
    refine entries_eq_of_cells false hw ?_ hw.marks ?_
    · rw [hv.marks, hwidth, hheight]
    · intro c i hi hc
      have hsame := hmarked c hc
      rwa [isMarked, isMarked, hindex, hi] at hsame
  rw [hrest, hwalls, hstartPiles, hpiles, hmarks]

end GridRobot.World
