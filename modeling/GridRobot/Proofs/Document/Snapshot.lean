import GridRobot.Document.Load
import GridRobot.Proofs.World.Settled

/-!
# What a saved document says

A document names cells by unsigned numbers, lists only the piles and caps that are there, and gives
each inner wall once, as a segment between two corners. This module reads such a document back part by
part: coordinates, walls, piles, marks, caps and the parts of the report.

Saving lists the walls north and east of a cell; loading takes a segment for the south or the west side
of the cell that lies beyond. Both name the same side, so the loaded grid has a wall exactly where
the saved one has (`exists_innerSides_iff`).
-/

set_option autoImplicit false

namespace GridRobot

/-! ## Coordinates -/

section Coordinates

variable {n : Int32}

theorem toNat_toUInt32 (h : 0 ≤ n.toInt) : n.toUInt32.toNat = n.toInt.toNat :=
  Int32.toNat_toBitVec_of_le (Int32.le_iff_toInt_le.2 h)

/-- A coordinate that is not negative is read back as it was written. -/
theorem coordinate_toUInt32 (h : 0 ≤ n.toInt) : coordinate n.toUInt32 = n := by
  have hlt : n.toInt < 2147483648 := n.toInt_lt
  have hnat := toNat_toUInt32 h
  rw [coordinate]
  rw [if_pos (by omega), hnat]
  apply Int32.toInt_inj.1
  rw [Int32.toInt_ofNat_of_lt (by omega)]
  omega

/-- The corner before a coordinate is read back as the coordinate before it. -/
theorem coordinate_pred (h : 1 ≤ n.toInt) : coordinate (n.toUInt32 - 1) + 1 = n := by
  have hone : (1 : Int32).toInt = 1 := rfl
  have hpred : (n - 1).toInt = n.toInt - 1 := by
    rw [Int32.toInt_sub, hone]
    exact Int.bmod_eq_of_le (by omega) (by have := n.toInt_lt; omega)
  -- the unsigned difference is the signed one, since nothing wraps around
  have hword : n.toUInt32 - 1 = (n - 1).toUInt32 := by
    rw [Int32.toUInt32_sub]
    rfl
  rw [hword, coordinate_toUInt32 (by omega), Int32.sub_add_cancel]

/-- A corner and the one before it are the ends of a unit segment. -/
theorem unit_of_pred (h : 1 ≤ n.toInt) :
    cornerDistance (n.toUInt32 - 1) n.toUInt32 = 1 ∧
      min (n.toUInt32 - 1) n.toUInt32 = n.toUInt32 - 1 := by
  have hnat := toNat_toUInt32 (n := n) (by omega)
  have hone : (1 : UInt32).toNat = 1 := rfl
  have hpred : (n.toUInt32 - 1).toNat = n.toUInt32.toNat - 1 :=
    UInt32.toNat_sub_of_le _ _ (UInt32.le_iff_toNat_le.2 (by omega))
  constructor
  · rw [cornerDistance]
    omega
  · apply if_pos
    exact UInt32.le_iff_toNat_le.2 (by omega)

end Coordinates

/-! ## Walls -/

namespace World

variable {w : World} {c : Cell} {d : Orientation}

/-- The walls north and east of a cell that lie inside the grid, each named from the cell beyond. -/
def innerSides (w : World) (c : Cell) : List (Cell × Orientation) :=
  ([Orientation.north, .east].filter fun d => !w.isBorder c d && (w.mask c).testBit d.index).map
    fun d => (c.beyond d, d.opposite)

/-- A horizontal segment below a corner of the row north of a cell closes the cell's north side. -/
theorem side_north (hc : w.contains c = true) :
    Segment.side { x1 := c.col.toUInt32 - 1, y1 := c.row.toUInt32, x2 := some c.col.toUInt32 } =
      .ok (c.beyond .north, .south) := by
  rcases contains_iff.1 hc with ⟨hrow, -, hcol, -⟩
  rcases unit_of_pred hcol with ⟨hunit, hmin⟩
  have hbeyond : c.beyond .north = ⟨c.row + 1, c.col⟩ := by
    simp [Cell.beyond, Orientation.rowStep, Orientation.colStep]
  simp only [Segment.side, hunit, hmin, if_true, coordinate_pred hcol]
  rw [coordinate_toUInt32 (by omega), hbeyond]

theorem side_east (hc : w.contains c = true) :
    Segment.side { x1 := c.col.toUInt32, y1 := c.row.toUInt32 - 1, y2 := some c.row.toUInt32 } =
      .ok (c.beyond .east, .west) := by
  rcases contains_iff.1 hc with ⟨hrow, -, hcol, -⟩
  rcases unit_of_pred hrow with ⟨hunit, hmin⟩
  have hbeyond : c.beyond .east = ⟨c.row, c.col + 1⟩ := by
    simp [Cell.beyond, Orientation.rowStep, Orientation.colStep]
  simp only [Segment.side, hunit, hmin, if_true, coordinate_pred hrow]
  rw [coordinate_toUInt32 (by omega), hbeyond]

theorem mapM_side_segmentsOf (hc : w.contains c = true) :
    (w.segmentsOf c).mapM Segment.side = .ok (w.innerSides c) := by
  have hnorth := side_north hc
  have heast := side_east hc
  simp only [segmentsOf, innerSides, List.filter_cons, List.filter_nil]
  -- the four cases say which of the two walls are there
  split <;> split <;>
    simp [List.mapM_cons, hnorth, heast, pure, Except.pure, bind, Except.bind, Orientation.opposite]

/-- Entries that can each be read are read one after the other. -/
theorem mapM_flatMap_eq_ok {α β γ ε : Type} {f : α → List β} {g : β → Except ε γ}
    {h : α → List γ} {entries : List α} (hread : ∀ x ∈ entries, (f x).mapM g = .ok (h x)) :
    (entries.flatMap f).mapM g = .ok (entries.flatMap h) := by
  induction entries with
  | nil => rfl
  | cons x entries ih =>
    have hx := hread x List.mem_cons_self
    have hrest := ih fun y hy => hread y (List.mem_cons_of_mem x hy)
    rw [List.flatMap_cons, List.mapM_append, hx, hrest]
    rfl

/-- The walls of a saved grid are unit segments, each a wall inside the grid. -/
theorem mapM_side_segments (hw : w.Sized) :
    (w.cells.flatMap w.segmentsOf).mapM Segment.side = .ok (w.cells.flatMap w.innerSides) := by
  apply mapM_flatMap_eq_ok
  intro c hc
  exact mapM_side_segmentsOf ((mem_cells_iff hw).1 hc)

theorem mem_innerSides_iff (hw : w.Sized) {s : Cell × Orientation} :
    s ∈ w.cells.flatMap w.innerSides ↔
      ∃ a e, (e = .north ∨ e = .east) ∧ w.contains a = true ∧ w.contains (a.beyond e) = true ∧
        w.Closed a e ∧ s = (a.beyond e, e.opposite) := by
  simp only [List.mem_flatMap, innerSides, List.mem_map, List.mem_filter, List.mem_cons,
    List.not_mem_nil, or_false, mem_cells_iff hw, Bool.and_eq_true, Bool.not_eq_true']
  constructor
  · rintro ⟨a, ha, e, ⟨he, hborder, hclosed⟩, rfl⟩
    exact ⟨a, e, he, ha, (contains_beyond_iff hw ha).2 hborder, hclosed, rfl⟩
  · rintro ⟨a, e, he, ha, hbeyond, hclosed, rfl⟩
    exact ⟨a, ha, e, ⟨he, (contains_beyond_iff hw ha).1 hbeyond, hclosed⟩, rfl⟩

/-- The inner walls of a world, named from either side, are the ones that saving lists. -/
theorem exists_innerSides_iff (hw : w.Sized) (hmirrored : w.Mirrored) (hc : w.contains c = true) :
    (∃ s ∈ w.cells.flatMap w.innerSides, w.contains s.1 = true ∧ w.contains c = true ∧
        SameSide s.1 s.2 c d) ↔
      w.contains (c.beyond d) = true ∧ w.Closed c d := by
  constructor
  · rintro ⟨s, hs, -, -, hsame⟩
    rcases (mem_innerSides_iff hw).1 hs with ⟨a, e, -, ha, hbeyond, hclosed, rfl⟩
    rcases hsame with ⟨rfl, rfl⟩ | ⟨hcell, hside⟩
    · refine ⟨by simpa using ha, ?_⟩
      exact (hmirrored.symm a e ha hbeyond).1 hclosed
    · rw [Cell.beyond_beyond_opposite] at hcell
      rw [Orientation.opposite_opposite] at hside
      subst hcell hside
      exact ⟨hbeyond, hclosed⟩
  · rintro ⟨hbeyond, hclosed⟩
    -- a wall to the north or east is listed with this cell, any other with the cell beyond
    by_cases hd : d = .north ∨ d = .east
    · refine ⟨_, (mem_innerSides_iff hw).2 ⟨c, d, hd, hc, hbeyond, hclosed, rfl⟩, hbeyond, hc, ?_⟩
      exact .inr ⟨by simp, by simp⟩
    · have hopposite : d.opposite = .north ∨ d.opposite = .east := by
        cases d <;> simp_all [Orientation.opposite]
      have hback := (hmirrored.symm c d hc hbeyond).1 hclosed
      refine ⟨_, (mem_innerSides_iff hw).2 ⟨c.beyond d, d.opposite, hopposite, hbeyond, ?_, hback,
        rfl⟩, ?_, hc, ?_⟩
      · rwa [Cell.beyond_beyond_opposite]
      · rwa [Cell.beyond_beyond_opposite]
      · exact .inl ⟨by simp, by simp⟩

end World

/-! ## Entries of cells -/

section Entries

variable {α : Type} {width height : Nat} {entries : Array α} {fill : α}

/-- The entries of a grid with that of one cell replaced; a cell outside the grid has none. -/
def setEntry (width height : Nat) (entries : Array α) (c : Cell) (v : α) : Array α :=
  match gridIndex? width height c with
  | none => entries
  | some i => entries.setIfInBounds i v

@[simp] theorem size_setEntry (c : Cell) (v : α) :
    (setEntry width height entries c v).size = entries.size := by
  rw [setEntry]
  split
  · rfl
  · exact Array.size_setIfInBounds

theorem getD_setEntry {a c : Cell} {v : α} (hsize : entries.size = width * height) {i : Nat}
    (hi : gridIndex? width height c = some i) :
    (setEntry width height entries a v).getD i fill =
      if c = a then v else entries.getD i fill := by
  rw [setEntry]
  split
  · rename_i hnone
    have hne : c ≠ a := by
      rintro rfl
      exact absurd (hnone.symm.trans hi) (by simp)
    rw [if_neg hne]
  · rename_i j hj
    have hlt : j < entries.size := hsize ▸ gridIndex?_lt hj
    rw [Array.getD_eq_getD_getElem?, Array.getElem?_setIfInBounds, Array.getD_eq_getD_getElem?]
    -- the place that changes is that of the cell exactly if the two cells are the same
    by_cases hca : c = a
    · subst hca
      obtain rfl : j = i := Option.some.inj (hj.symm.trans hi)
      rw [if_pos rfl, if_pos hlt, if_pos rfl]
      rfl
    · have hji : j ≠ i := by
        rintro rfl
        exact hca (gridIndex?_inj hi hj)
      rw [if_neg hji, if_neg hca]

/-- The entries of a grid after several changes. -/
def setEntries (width height : Nat) (entries : Array α) (changes : List (Cell × α)) : Array α :=
  changes.foldl (fun entries e => setEntry width height entries e.1 e.2) entries

theorem size_setEntries (changes : List (Cell × α)) :
    (setEntries width height entries changes).size = entries.size := by
  induction changes generalizing entries with
  | nil => rfl
  | cons e changes ih => exact ih.trans (size_setEntry e.1 e.2)

/-- Where all changes of a cell agree, a changed cell has the value they agree on, and every other
keeps its entry. -/
theorem getD_setEntries {changes : List (Cell × α)} (value : Cell → α)
    (hvalue : ∀ e ∈ changes, e.2 = value e.1) (hsize : entries.size = width * height) {c : Cell}
    {i : Nat} (hi : gridIndex? width height c = some i) :
    (setEntries width height entries changes).getD i fill =
      if c ∈ changes.map Prod.fst then value c else entries.getD i fill := by
  induction changes generalizing entries with
  | nil => rfl
  | cons e changes ih =>
    have hrest : ∀ e ∈ changes, e.2 = value e.1 := by
      intro e he
      exact hvalue e (List.mem_cons_of_mem _ he)
    have hhead : e.2 = value e.1 := hvalue e List.mem_cons_self
    show (setEntries width height (setEntry width height entries e.1 e.2) changes).getD i fill = _
    rw [ih hrest ((size_setEntry e.1 e.2).trans hsize), getD_setEntry hsize hi]
    simp only [List.map_cons, List.mem_cons]
    -- a later change of the same cell agrees with this one
    by_cases hce : c = e.1
    · simp [hce, hhead]
    · simp only [hce, false_or, if_false]

/-- Entries that agree on every cell of the grid are the same. -/
theorem entries_ext (fill : α) (hwidth : width ≤ sideMax) (hheight : height ≤ sideMax)
    {other : Array α} (hsize : entries.size = width * height)
    (hsize' : other.size = width * height)
    (h : ∀ c i, gridIndex? width height c = some i → entries.getD i fill = other.getD i fill) :
    entries = other := by
  apply Array.ext (hsize.trans hsize'.symm)
  intro i hi hi'
  rcases exists_gridIndex? hwidth hheight (hsize ▸ hi) with ⟨c, hc⟩
  have heq := h c i hc
  rwa [Array.getD, Array.getD, dif_pos hi, dif_pos hi'] at heq

theorem getD_replicate (n i : Nat) (fill : α) : (Array.replicate n fill).getD i fill = fill := by
  rw [Array.getD_eq_getD_getElem?, Array.getElem?_replicate]
  split <;> rfl

/-- Entries are rebuilt from nothing but fill by changes that list every other value. -/
theorem setEntries_replicate (fill : α) (value : Cell → α) (hwidth : width ≤ sideMax)
    (hheight : height ≤ sideMax) (hsize : entries.size = width * height)
    (hentries : ∀ c i, gridIndex? width height c = some i → value c = entries.getD i fill)
    {changes : List (Cell × α)} (hvalue : ∀ e ∈ changes, e.2 = value e.1)
    (hlisted : ∀ c, (gridIndex? width height c).isSome = true → value c ≠ fill →
      c ∈ changes.map Prod.fst) :
    setEntries width height (Array.replicate (width * height) fill) changes = entries := by
  refine entries_ext fill hwidth hheight ?_ hsize ?_
  · rw [size_setEntries, Array.size_replicate]
  intro c i hi
  rw [getD_setEntries value hvalue Array.size_replicate hi, getD_replicate, ← hentries c i hi]
  split
  · rfl
  · rename_i hmem
    -- a cell that is not listed has the filling for its value
    apply Classical.byContradiction
    intro hne
    exact hmem (hlisted c (by rw [hi]; rfl) (Ne.symm hne))

end Entries

/-- The cell that an entry of a document names. -/
def CellEntry.cell (e : CellEntry) : Cell :=
  ⟨coordinate e.y, coordinate e.x⟩

/-- The cell that a pile of a document lies on. -/
def PileEntry.cell (e : PileEntry) : Cell :=
  ⟨coordinate e.y, coordinate e.x⟩

namespace World

variable {w : World} {c : Cell}

theorem setPile_eq (w : World) (c : Cell) (n : Int32) :
    w.setPile c n =
      { w with
        startPiles := setEntry w.width w.height w.startPiles c (supply n)
        piles := setEntry w.width w.height w.piles c (supply n) } := by
  unfold setPile index? setEntry
  cases gridIndex? w.width w.height c <;> rfl

theorem setMark_eq (w : World) (c : Cell) (enabled : Bool) :
    w.setMark c enabled = { w with marks := setEntry w.width w.height w.marks c enabled } := by
  rw [setMark, index?, setEntry]
  cases gridIndex? w.width w.height c <;> rfl

/-- Piles that are put down one after the other. -/
theorem foldl_setPile_eq {ε : Type} (cell : ε → Cell) (count : ε → Int32) (w : World)
    (entries : List ε) :
    entries.foldl (fun w e => w.setPile (cell e) (count e)) w =
      let changes := entries.map fun e => (cell e, supply (count e))
      { w with
        startPiles := setEntries w.width w.height w.startPiles changes
        piles := setEntries w.width w.height w.piles changes } := by
  induction entries generalizing w with
  | nil => rfl
  | cons e entries ih =>
    have hhead := setPile_eq w (cell e) (count e)
    exact (ih (w.setPile (cell e) (count e))).trans (by rw [hhead]; rfl)

/-- Cells that are marked one after the other. -/
theorem foldl_setMark_eq {ε : Type} (cell : ε → Cell) (w : World) (entries : List ε) :
    entries.foldl (fun w e => w.setMark (cell e) true) w =
      { w with
        marks := setEntries w.width w.height w.marks (entries.map fun e => (cell e, true)) } := by
  induction entries generalizing w with
  | nil => rfl
  | cons e entries ih =>
    have hhead := setMark_eq w (cell e) true
    exact (ih (w.setMark (cell e) true)).trans (by rw [hhead]; rfl)

theorem withPiles_eq (w : World) (piles : List PileEntry) :
    w.withPiles piles =
      let changes := piles.map fun e => (e.cell, supply e.count.count)
      { w with
        startPiles := setEntries w.width w.height w.startPiles changes
        piles := setEntries w.width w.height w.piles changes } :=
  foldl_setPile_eq PileEntry.cell (fun e => e.count.count) w piles

theorem withMarks_eq (w : World) (marks : List CellEntry) :
    w.withMarks marks =
      { w with marks := setEntries w.width w.height w.marks (marks.map fun e => (e.cell, true)) } :=
  foldl_setMark_eq CellEntry.cell w marks

/-! ## Piles and marks -/

/-- A cell of the grid is read back from its column and row. -/
theorem cell_of_toUInt32 (hc : w.contains c = true) :
    (⟨coordinate c.row.toUInt32, coordinate c.col.toUInt32⟩ : Cell) = c := by
  rcases contains_iff.1 hc with ⟨hrow, -, hcol, -⟩
  rw [coordinate_toUInt32 (by omega), coordinate_toUInt32 (by omega)]

/-- The listed piles are those of the cells that have one. -/
theorem mem_listedPiles_iff (hw : w.Sized) {pile : Cell → Int32}
    (hpile : ∀ c, w.contains c = true → infinite ≤ pile c) {e : Cell × Int32} :
    e ∈ (w.cells.filterMap (listedPile? pile)).map (fun e => (e.cell, supply e.count.count)) ↔
      ∃ c, w.contains c = true ∧ pile c ≠ 0 ∧ e = (c, pile c) := by
  have hentry : ∀ c, w.contains c = true →
      ((PileEntry.cell ⟨c.col.toUInt32, c.row.toUInt32, ⟨pile c⟩⟩, supply (pile c)) :
        Cell × Int32) = (c, pile c) := by
    intro c hc
    rw [supply_of_infinite_le (hpile c hc)]
    exact congrArg (·, pile c) (cell_of_toUInt32 hc)
  simp only [List.mem_map, List.mem_filterMap, mem_cells_iff hw, listedPile?]
  constructor
  · rintro ⟨p, ⟨c, hc, hlisted⟩, rfl⟩
    split at hlisted
    · exact absurd hlisted (by simp)
    · rename_i hne
      obtain rfl := Option.some.inj hlisted
      exact ⟨c, hc, hne, hentry c hc⟩
  · rintro ⟨c, hc, hne, rfl⟩
    exact ⟨_, ⟨c, hc, if_neg hne⟩, hentry c hc⟩

/-- Piles are read back from a document that lists them. -/
theorem setEntries_listedPiles (hw : w.Sized) {piles : Array Int32}
    (hsize : piles.size = w.width * w.height) (hstocked : ∀ n ∈ piles, infinite ≤ n)
    {pile : Cell → Int32} (hpile : ∀ c i, w.index? c = some i → pile c = piles.getD i 0) :
    setEntries w.width w.height (Array.replicate (w.width * w.height) 0)
      ((w.cells.filterMap (listedPile? pile)).map fun e => (e.cell, supply e.count.count)) =
        piles := by
  have hinfinite : ∀ c, w.contains c = true → infinite ≤ pile c := by
    intro c hc
    rcases Option.isSome_iff_exists.1 hc with ⟨i, hi⟩
    have hlt : i < piles.size := hsize ▸ gridIndex?_lt hi
    rw [hpile c i hi, Array.getD, dif_pos hlt]
    exact hstocked _ (Array.getElem_mem hlt)
  refine setEntries_replicate 0 pile hw.width_le hw.height_le hsize hpile ?_ ?_
  · intro e he
    rcases (mem_listedPiles_iff hw hinfinite).1 he with ⟨c, -, -, rfl⟩
    rfl
  · intro c hc hne
    have he := (mem_listedPiles_iff hw hinfinite).2 ⟨c, hc, hne, rfl⟩
    exact List.mem_map.2 ⟨_, he, rfl⟩

/-- Marks are read back from a document that lists them. -/
theorem setEntries_markedCells (hw : w.Sized) :
    setEntries w.width w.height (Array.replicate (w.width * w.height) false)
      ((w.markedCells.map fun c => (⟨c.col.toUInt32, c.row.toUInt32⟩ : CellEntry)).map
        fun e => (e.cell, true)) = w.marks := by
  have hlisted : (w.markedCells.map fun c => (⟨c.col.toUInt32, c.row.toUInt32⟩ : CellEntry)).map
      (fun e => (e.cell, true)) = w.markedCells.map (·, true) := by
    rw [List.map_map]
    apply List.map_congr_left
    intro c hc
    exact congrArg (·, true) (cell_of_toUInt32 ((mem_cells_iff hw).1 (List.mem_filter.1 hc).1))
  rw [hlisted]
  refine setEntries_replicate false w.isMarked hw.width_le hw.height_le hw.marks ?_ ?_ ?_
  · intro c i hi
    rw [isMarked, index?]
    rw [hi]
  · intro e he
    rcases List.mem_map.1 he with ⟨c, hc, rfl⟩
    exact (List.mem_filter.1 hc).2.symm
  · intro c hc hmarked
    have hcells : c ∈ w.markedCells :=
      List.mem_filter.2 ⟨(mem_cells_iff hw).2 hc, by simpa using hmarked⟩
    exact List.mem_map.2 ⟨_, List.mem_map.2 ⟨c, hcells, rfl⟩, rfl⟩

end World

/-! ## Limits and the report -/

/-- Limits are read back from the caps that are listed. -/
theorem limits_capEntries (w : World) :
    Conditions.limits
      { instructionsMax := w.limits.maxInstructions
        stackDepthMax := w.limits.maxCallDepth
        commands := w.capEntries } = w.limits := by
  rw [World.capEntries]
  generalize w.limits = limits
  rcases limits with ⟨maxInstructions, maxCallDepth, ⟨forward, left, pick, leave⟩⟩
  -- sixteen cases: each action has a cap or has none
  cases forward <;> cases left <;> cases pick <;> cases leave <;> rfl

/-- Asking for parts one by one asks for all of them, in their order. -/
theorem DumpKind.foldl_select (ks : List DumpKind) (p : DumpKind → Bool) :
    ks.foldl (fun chosen k => k.select chosen) (all.filter p) =
      all.filter fun k => p k || ks.contains k := by
  induction ks generalizing p with
  | nil => simp
  | cons k ks ih =>
    have hselect : k.select (all.filter p) = all.filter fun other => other = k || p other := by
      apply List.filter_congr
      intro other _
      have hcontains : (all.filter p).contains other = p other := by
        rw [Bool.eq_iff_iff, List.contains_iff_mem, List.mem_filter]
        exact and_iff_right (mem_all other)
      rw [hcontains]
    rw [List.foldl_cons, hselect, ih]
    apply List.filter_congr
    intro other _
    rw [List.contains_cons, Bool.or_comm (decide _), Bool.or_assoc]
    rfl

namespace World

variable {w : World}

theorem withDumps_eq (w : World) (ks : List DumpKind) :
    w.withDumps ks = { w with dumps := ks.foldl (fun chosen k => k.select chosen) w.dumps } := by
  induction ks generalizing w with
  | nil => rfl
  | cons k ks ih => exact ih (w.setDump k true)

end World

end GridRobot
