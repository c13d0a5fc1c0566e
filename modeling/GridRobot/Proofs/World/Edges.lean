import GridRobot.Proofs.World.CellByCell
import Mathlib.Data.Finset.SymmDiff
import Mathlib.Data.Sym.Sym2

/-!
# Walls as a set of edges

A wall between two cells is one edge of the grid, although it is stored as two bits in two cells. Here
the walls of a world are described by a set of edges. An edge is an unordered pair of places with
integer coordinates, which do not wrap around; adding a wall inserts the edge that is named, and
flipping a wall flips its membership. What names no inner edge, a cell outside the grid or a side on the
border, leaves the set as it is.

`World.HasEdges` relates a world to the set of its inner edges. A change to a wall keeps it
(`HasEdges.rewalled`), so any number of changes do (`HasEdges.rewalledAll`), and the walls of a world are
determined by its edges (`HasEdges.walls_eq`). What holds of sets of edges therefore holds of worlds: the
two names of an edge are as good as each other, flipping twice changes nothing, and changes to different
edges commute.
-/

set_option autoImplicit false

namespace GridRobot

/-! ## Edges of a grid -/

/-- Two places, each given by its row and its column, in either order. -/
abbrev Edge := Sym2 (Int × Int)

/-- The row and the column of a cell. -/
def Cell.place (c : Cell) : Int × Int :=
  (c.row.toInt, c.col.toInt)

/-- The place next to a place. -/
def Orientation.across : Orientation → Int × Int → Int × Int
  | west, (row, col) => (row, col - 1)
  | north, (row, col) => (row + 1, col)
  | east, (row, col) => (row, col + 1)
  | south, (row, col) => (row - 1, col)

/-- A place belongs to a grid. -/
def InGrid (width height : Nat) (p : Int × Int) : Prop :=
  (1 ≤ p.1 ∧ p.1 ≤ height) ∧ 1 ≤ p.2 ∧ p.2 ≤ width

instance (width height : Nat) (p : Int × Int) : Decidable (InGrid width height p) :=
  inferInstanceAs (Decidable ((_ ∧ _) ∧ _ ∧ _))

/-- The inner edge that a side of a cell names: none if the cell lies outside the grid, and none if
there is no cell on the other side. -/
def innerEdge? (width height : Nat) (c : Cell) (side : Orientation) : Option Edge :=
  if InGrid width height c.place ∧ InGrid width height (side.across c.place) then
    some s(c.place, side.across c.place)
  else none

/-- What can be done to a wall. -/
inductive WallAction where
  | add
  | toggle
  deriving DecidableEq, Repr

/-- A change to the wall on a side of a cell, which may be any cell. -/
structure WallEdit where
  action : WallAction
  cell : Cell
  side : Orientation
  deriving DecidableEq, Repr

/-- The set of edges after something has been done to one of them. -/
def WallAction.onEdge : WallAction → Edge → Finset Edge → Finset Edge
  | add, e, edges => insert e edges
  | toggle, e, edges => symmDiff edges {e}

theorem WallAction.mem_onEdge_iff {action : WallAction} {x y : Edge} {edges : Finset Edge} :
    y ∈ action.onEdge x edges ↔
      match action with
      | .add => y ∈ edges ∨ y = x
      | .toggle => y ∈ edges ↔ ¬ y = x := by
  cases action with
  | add => rw [WallAction.onEdge, Finset.mem_insert, or_comm]
  | toggle =>
    rw [WallAction.onEdge, Finset.mem_symmDiff, Finset.mem_singleton]
    by_cases hy : y ∈ edges <;> simp [hy]

namespace WallEdit

/-- The inner edge that a change names. -/
def edge? (k : WallEdit) (width height : Nat) : Option Edge :=
  innerEdge? width height k.cell k.side

/-- The set of edges after a change. -/
def onEdges (k : WallEdit) (width height : Nat) (edges : Finset Edge) : Finset Edge :=
  match k.edge? width height with
  | some e => k.action.onEdge e edges
  | none => edges

/-- Flipping twice changes nothing. -/
theorem onEdges_toggle_toggle (width height : Nat) (edges : Finset Edge) (c : Cell)
    (side : Orientation) :
    onEdges ⟨.toggle, c, side⟩ width height (onEdges ⟨.toggle, c, side⟩ width height edges) =
      edges := by
  simp only [onEdges, edge?]
  cases innerEdge? width height c side with
  | none => rfl
  | some e => exact symmDiff_symmDiff_cancel_right {e} edges

/-- Changes to different edges commute. -/
theorem onEdges_comm {k l : WallEdit} {width height : Nat}
    (h : ∀ e ∈ k.edge? width height, e ∉ l.edge? width height) (edges : Finset Edge) :
    l.onEdges width height (k.onEdges width height edges) =
      k.onEdges width height (l.onEdges width height edges) := by
  simp only [onEdges]
  cases hk : k.edge? width height with
  | none => rfl
  | some x =>
    cases hl : l.edge? width height with
    | none => rfl
    | some y =>
      have hxy : x ≠ y := by
        rintro rfl
        exact h x hk hl
      ext z
      simp only [WallAction.mem_onEdge_iff]
      -- an edge is at most one of the two
      cases k.action <;> cases l.action <;> by_cases hx : z = x <;> simp [hx, hxy]

end WallEdit

/-- The set of edges after changes. -/
def edgesAfter (width height : Nat) (edges : Finset Edge) (edits : List WallEdit) : Finset Edge :=
  edits.foldl (fun edges k => k.onEdges width height edges) edges

/-! ## Names of edges -/

theorem Cell.place_inj {a c : Cell} : a.place = c.place ↔ a = c := by
  constructor
  · intro h
    obtain ⟨hrow, hcol⟩ := Prod.mk.inj h
    exact Cell.ext_toInt hrow hcol
  · rintro rfl
    rfl

/-- Different sides of a cell lead to different cells. -/
theorem Cell.beyond_inj {c : Cell} {d e : Orientation} : c.beyond d = c.beyond e ↔ d = e := by
  constructor
  · intro h
    obtain ⟨hrow, hcol⟩ := Cell.mk.inj h
    rw [Int32.add_right_inj] at hrow hcol
    revert hrow hcol
    cases d <;> cases e <;> decide
  · rintro rfl
    rfl

namespace World

variable {w : World} {a c : Cell} {d e : Orientation} {edges : Finset Edge}

theorem inGrid_place_iff : InGrid w.width w.height c.place ↔ w.contains c = true := by
  rw [contains_iff, InGrid, Cell.place]
  tauto

/-- Inside the grid no coordinate wraps around. -/
theorem place_beyond (hw : w.Sized) (hc : w.contains c = true) :
    (c.beyond d).place = d.across c.place := by
  obtain ⟨hrow, hcol⟩ := toInt_beyond hw hc d
  have hzero : (0 : Int32).toInt = 0 := rfl
  have hone : (1 : Int32).toInt = 1 := rfl
  have hminus : (-1 : Int32).toInt = -1 := rfl
  rw [Cell.place, hrow, hcol]
  cases d <;>
    simp only [Orientation.across, Orientation.rowStep, Orientation.colStep, Cell.place, hzero, hone,
      hminus, Int.add_zero, Int.sub_eq_add_neg]

/-- The edge between two cells of the grid has a name, and nothing else has. -/
theorem innerEdge?_eq_some_iff (hw : w.Sized) {x : Edge} :
    innerEdge? w.width w.height c d = some x ↔
      w.contains c = true ∧ w.contains (c.beyond d) = true ∧ s(c.place, (c.beyond d).place) = x := by
  simp only [innerEdge?, inGrid_place_iff]
  by_cases hc : w.contains c = true
  · simp only [← place_beyond hw hc, inGrid_place_iff]
    by_cases hbeyond : w.contains (c.beyond d) = true
    · simp [hc, hbeyond]
    · simp [hbeyond]
  · simp [hc]

theorem innerEdge?_eq_none_iff (hw : w.Sized) :
    innerEdge? w.width w.height c d = none ↔
      ¬ (w.contains c = true ∧ w.contains (c.beyond d) = true) := by
  rw [Option.eq_none_iff_forall_ne_some]
  simp only [ne_eq, innerEdge?_eq_some_iff hw]
  constructor
  · rintro h ⟨hc, hbeyond⟩
    exact h _ ⟨hc, hbeyond, rfl⟩
  · rintro h x ⟨hc, hbeyond, -⟩
    exact h ⟨hc, hbeyond⟩

/-- Two names of one side are two names of one edge. -/
theorem sameSide_iff_innerEdge? (hw : w.Sized) {x : Edge}
    (hx : innerEdge? w.width w.height a e = some x) (hc : w.contains c = true) :
    SameSide a e c d ↔ innerEdge? w.width w.height c d = some x := by
  obtain ⟨ha, hbeyond, rfl⟩ := (innerEdge?_eq_some_iff hw).1 hx
  rw [innerEdge?_eq_some_iff hw, Sym2.eq_iff]
  simp only [Cell.place_inj]
  constructor
  · rintro (⟨rfl, rfl⟩ | ⟨rfl, rfl⟩)
    · exact ⟨ha, hbeyond, .inl ⟨rfl, rfl⟩⟩
    · exact ⟨hbeyond, by simpa using ha, .inr ⟨rfl, by simp⟩⟩
  · rintro ⟨-, -, ⟨rfl, hsame⟩ | ⟨rfl, hback⟩⟩
    · exact .inl ⟨rfl, Cell.beyond_inj.1 hsame⟩
    · -- of the four sides of the cell beyond, one leads back
      refine .inr ⟨rfl, Cell.beyond_inj.1 (hback.trans ?_)⟩
      rw [Cell.beyond_beyond_opposite]

/-! ## Changes to walls -/

/-- The world after a change to a wall. -/
def rewalled (w : World) (k : WallEdit) : World :=
  match k.action with
  | .add => w.addWall k.cell k.side
  | .toggle => w.toggleWall k.cell k.side

/-- The world after changes to walls. -/
def rewalledAll (w : World) (edits : List WallEdit) : World :=
  edits.foldl rewalled w

/-- A change to a wall changes nothing but masks. -/
theorem exists_rewalled (w : World) (k : WallEdit) :
    ∃ walls, walls.size = w.walls.size ∧ w.rewalled k = { w with walls } := by
  rw [rewalled]
  split
  · exact exists_addWall w k.cell k.side
  · exact exists_toggleWall w k.cell k.side

@[simp] theorem width_rewalled (k : WallEdit) : (w.rewalled k).width = w.width := by
  obtain ⟨walls, -, h⟩ := exists_rewalled w k
  rw [h]

@[simp] theorem height_rewalled (k : WallEdit) : (w.rewalled k).height = w.height := by
  obtain ⟨walls, -, h⟩ := exists_rewalled w k
  rw [h]

theorem exists_rewalledAll (w : World) (edits : List WallEdit) :
    ∃ walls, walls.size = w.walls.size ∧ w.rewalledAll edits = { w with walls } := by
  induction edits generalizing w with
  | nil => exact ⟨w.walls, rfl, rfl⟩
  | cons k edits ih =>
    obtain ⟨walls, hsize, h⟩ := exists_rewalled w k
    obtain ⟨walls', hsize', h'⟩ := ih (w.rewalled k)
    rw [h] at hsize' h'
    refine ⟨walls', hsize'.trans hsize, ?_⟩
    show (w.rewalled k).rewalledAll edits = _
    rw [h, h']

theorem WellFormed.rewalled (h : w.WellFormed) (k : WallEdit) : (w.rewalled k).WellFormed := by
  rw [World.rewalled]
  split
  · exact h.addWall k.cell k.side
  · exact h.toggleWall k.cell k.side

theorem WellFormed.rewalledAll (h : w.WellFormed) (edits : List WallEdit) :
    (w.rewalledAll edits).WellFormed := by
  induction edits generalizing w with
  | nil => exact h
  | cons k edits ih => exact ih (h.rewalled k)

/-! ## Worlds and their edges -/

/-- The walls of a world are its border and a set of inner edges. -/
def HasEdges (w : World) (edges : Finset Edge) : Prop :=
  ∀ c side, w.contains c = true →
    (w.Closed c side ↔
      w.isBorder c side = true ∨ ∃ x ∈ edges, innerEdge? w.width w.height c side = some x)

theorem size_new (width height : Nat) :
    (new width height).width = clampSide width ∧ (new width height).height = clampSide height := by
  obtain ⟨walls, -, h⟩ := exists_closeSides (bare (clampSide width) (clampSide height))
    (borderSides (clampSide width) (clampSide height))
  exact ⟨congrArg World.width h, congrArg World.height h⟩

/-- A new world has no inner edges. -/
theorem hasEdges_new (width height : Nat) : (new width height).HasEdges ∅ := by
  obtain ⟨hwidth, hwidth'⟩ := clampSide_bounds width
  obtain ⟨hheight, hheight'⟩ := clampSide_bounds height
  obtain ⟨hw, hh⟩ := size_new width height
  have hbare := bare_sized hwidth hwidth' hheight hheight'
  intro c side hc
  have hopen := not_closed_of_replicate (w := bare (clampSide width) (clampSide height)) rfl c side
  rw [contains_congr (w := bare (clampSide width) (clampSide height)) hw hh] at hc
  rw [isBorder_congr (w := bare (clampSide width) (clampSide height)) hw hh, new,
    closed_closeBorder hbare]
  simp only [hopen, hc, false_or, true_and, Finset.notMem_empty, false_and, exists_false, or_false]

/-- Two worlds with the same edges that do not differ but in their walls are the same. -/
theorem HasEdges.walls_eq (h : w.HasEdges edges) (hw : w.WellFormed) {walls : Array Nat}
    (h' : HasEdges { w with walls } edges) (hw' : WellFormed { w with walls }) : walls = w.walls := by
  apply walls_ext hw.sized hw.walled.mask_lt (hw'.sized.walls.trans hw.sized.walls.symm)
    hw'.walled.mask_lt
  intro c d hc
  exact (h' c d hc).trans (h c d hc).symm

/-- A change that names no edge closes and opens nothing: a border side is closed as it is. -/
theorem closed_rewalled_of_none (hw : w.WellFormed) {k : WallEdit}
    (hk : k.edge? w.width w.height = none) (hc : w.contains c = true) :
    (w.rewalled k).Closed c d ↔ w.Closed c d := by
  obtain ⟨action, a, e⟩ := k
  have houtside := (innerEdge?_eq_none_iff hw.sized).1 hk
  cases action with
  | add =>
    rw [rewalled, closed_addWall hw.sized, or_iff_left_iff_imp]
    rintro ⟨ha, -, ⟨rfl, rfl⟩ | ⟨rfl, rfl⟩⟩
    · apply hw.walled.border c d ha
      rw [← Bool.not_eq_false, ← contains_beyond_iff hw.sized ha]
      exact fun hbeyond => houtside ⟨ha, hbeyond⟩
    · exact absurd ⟨ha, hc⟩ houtside
  | toggle =>
    rw [rewalled, toggleWall_of_not_contains houtside]

/-- A change that names an edge affects the sides that name it too. -/
theorem closed_rewalled_of_some (hw : w.WellFormed) {k : WallEdit} {x : Edge}
    (hk : k.edge? w.width w.height = some x) (hc : w.contains c = true) :
    (w.rewalled k).Closed c d ↔
      match k.action with
      | .add => w.Closed c d ∨ innerEdge? w.width w.height c d = some x
      | .toggle => w.Closed c d ↔ ¬ innerEdge? w.width w.height c d = some x := by
  obtain ⟨action, a, e⟩ := k
  have hside := sameSide_iff_innerEdge? (d := d) hw.sized hk hc
  obtain ⟨ha, hbeyond, -⟩ := (innerEdge?_eq_some_iff hw.sized).1 hk
  cases action with
  | add =>
    rw [rewalled, closed_addWall hw.sized, hside]
    simp only [ha, hc, true_and]
  | toggle =>
    rw [rewalled, closed_toggleWall hw.sized hc, hside]
    simp only [ha, hbeyond, true_and]

/-- A change to a wall does to the edges of a world what it does to a set of edges. -/
theorem HasEdges.rewalled (h : w.HasEdges edges) (hw : w.WellFormed) (k : WallEdit) :
    (w.rewalled k).HasEdges (k.onEdges w.width w.height edges) := by
  intro c d hc
  rw [contains_congr (width_rewalled k) (height_rewalled k)] at hc
  rw [isBorder_congr (width_rewalled k) (height_rewalled k), width_rewalled, height_rewalled,
    WallEdit.onEdges]
  have hclosed := h c d hc
  cases hk : k.edge? w.width w.height with
  | none => rw [closed_rewalled_of_none hw hk hc, hclosed]
  | some x =>
    rw [closed_rewalled_of_some hw hk hc]
    cases hy : innerEdge? w.width w.height c d with
    | none =>
      -- a border side stays as it is
      cases k.action <;> simp [hclosed, hy]
    | some y =>
      have hborder : w.isBorder c d = false :=
        (contains_beyond_iff hw.sized hc).1 ((innerEdge?_eq_some_iff hw.sized).1 hy).2.1
      simp only [hy, hborder, Option.some.injEq, exists_eq_right', Bool.false_eq_true, false_or]
        at hclosed ⊢
      rw [WallAction.mem_onEdge_iff, hclosed]

/-- Any number of changes do to the edges of a world what they do to a set of edges. -/
theorem HasEdges.rewalledAll (h : w.HasEdges edges) (hw : w.WellFormed) (edits : List WallEdit) :
    (w.rewalledAll edits).HasEdges (edgesAfter w.width w.height edges edits) := by
  induction edits generalizing w edges with
  | nil => exact h
  | cons k edits ih =>
    have hrest := ih (h.rewalled hw k) (hw.rewalled k)
    rw [width_rewalled, height_rewalled] at hrest
    exact hrest

/-- Changes that lead to the same edges lead to the same world. -/
theorem HasEdges.rewalledAll_eq (h : w.HasEdges edges) (hw : w.WellFormed)
    (edits others : List WallEdit)
    (heq : edgesAfter w.width w.height edges edits = edgesAfter w.width w.height edges others) :
    w.rewalledAll edits = w.rewalledAll others := by
  obtain ⟨walls, -, hwalls⟩ := exists_rewalledAll w edits
  obtain ⟨walls', -, hwalls'⟩ := exists_rewalledAll w others
  have hleft := h.rewalledAll hw edits
  have hright := h.rewalledAll hw others
  have hformed := hw.rewalledAll edits
  have hformed' := hw.rewalledAll others
  rw [heq, hwalls] at hleft
  rw [hwalls'] at hright hformed'
  rw [hwalls] at hformed
  rw [hwalls, hwalls', hright.walls_eq hformed' hleft hformed]

/-- An edge is named from either of its cells. -/
theorem innerEdge?_beyond (hw : w.Sized) (hc : w.contains c = true)
    (hborder : w.isBorder c d = false) :
    innerEdge? w.width w.height (c.beyond d) d.opposite = innerEdge? w.width w.height c d := by
  have hbeyond := (contains_beyond_iff hw hc).2 hborder
  have hedge := (innerEdge?_eq_some_iff hw).2 ⟨hc, hbeyond, rfl⟩
  rw [hedge]
  exact (sameSide_iff_innerEdge? hw hedge hbeyond).1 (.inr ⟨rfl, rfl⟩)

/-- After any changes to the walls of a new world, aimed at any cells, a side of a cell is closed exactly
if it lies on the border or if its edge belongs to the set that the same changes lead to from the empty
one: adding inserts the edge that is named, flipping flips its membership, and what names no inner edge
has no effect. So a change may name its edge from either side, flipping a wall twice changes nothing, and
changes to different edges commute. -/
theorem walls_refine_edges (width height : Nat) (edits : List WallEdit) :
    let w := (new width height).rewalledAll edits
    let edges := edgesAfter (max 1 (min width 10000)) (max 1 (min height 10000)) ∅ edits
    (w.width = max 1 (min width 10000) ∧ w.height = max 1 (min height 10000)) ∧
    (∀ c side, w.contains c = true →
      (w.Closed c side ↔
        w.isBorder c side = true ∨ ∃ x ∈ edges, innerEdge? w.width w.height c side = some x)) ∧
    (∀ action c side, w.contains c = true → w.isBorder c side = false →
      w.rewalled ⟨action, c.beyond side, side.opposite⟩ = w.rewalled ⟨action, c, side⟩) ∧
    (∀ c side, (w.toggleWall c side).toggleWall c side = w) ∧
    ∀ k l : WallEdit, (∀ x ∈ k.edge? w.width w.height, x ∉ l.edge? w.width w.height) →
      (w.rewalled k).rewalled l = (w.rewalled l).rewalled k := by
  intro w edges
  have hnew := wellFormed_new width height
  have hw : w.WellFormed := hnew.rewalledAll edits
  have hsize := size_new width height
  obtain ⟨walls, -, hwalls⟩ := exists_rewalledAll (new width height) edits
  have hwidth : w.width = clampSide width := (congrArg World.width hwalls).trans hsize.1
  have hheight : w.height = clampSide height := (congrArg World.height hwalls).trans hsize.2
  have hedges : w.HasEdges edges := by
    have hall := (hasEdges_new width height).rewalledAll hnew edits
    rw [hsize.1, hsize.2] at hall
    exact hall
  refine ⟨⟨hwidth, hheight⟩, hedges, ?_, ?_, ?_⟩
  · intro action c side hc hborder
    apply hedges.rewalledAll_eq hw [_] [_]
    simp only [edgesAfter, List.foldl_cons, List.foldl_nil, WallEdit.onEdges, WallEdit.edge?,
      innerEdge?_beyond hw.sized hc hborder]
  · intro c side
    apply hedges.rewalledAll_eq hw [⟨.toggle, c, side⟩, ⟨.toggle, c, side⟩] []
    exact WallEdit.onEdges_toggle_toggle _ _ edges c side
  · intro k l hdifferent
    apply hedges.rewalledAll_eq hw [k, l] [l, k]
    exact WallEdit.onEdges_comm hdifferent edges

/-- Changes to the walls of a grid with three columns and two rows: an edge is added, and one is flipped
and then flipped back under its other name; a border side, a cell next to the grid and the furthest
cells name no edge. -/
def fencing : List WallEdit :=
  [⟨.add, ⟨1, 2⟩, .west⟩, ⟨.toggle, ⟨1, 3⟩, .north⟩, ⟨.toggle, ⟨2, 3⟩, .south⟩, ⟨.toggle, ⟨2, 1⟩, .west⟩,
    ⟨.add, ⟨2, 4⟩, .west⟩, ⟨.add, ⟨2147483647, 1⟩, .north⟩, ⟨.toggle, ⟨1, -2147483648⟩, .west⟩]

/-- One edge is left. It is closed from both of its cells, the edge that was flipped twice is open, and the
border is closed. -/
theorem walls_refine_edges_fencing :
    edgesAfter 3 2 ∅ fencing = {s((1, 1), (1, 2))} ∧
      ((new 3 2).rewalledAll fencing).Closed ⟨1, 1⟩ .east ∧
      ((new 3 2).rewalledAll fencing).Closed ⟨1, 2⟩ .west ∧
      ¬ ((new 3 2).rewalledAll fencing).Closed ⟨1, 3⟩ .north ∧
      ((new 3 2).rewalledAll fencing).Closed ⟨2, 1⟩ .west ∧
      ((new 3 2).rewalledAll fencing).toggleWall ⟨1, 1⟩ .east =
        ((new 3 2).rewalledAll fencing).toggleWall ⟨1, 2⟩ .west ∧
      ((((new 3 2).rewalledAll fencing).toggleWall ⟨1, 1⟩ .east).toggleWall ⟨1, 1⟩ .east =
        (new 3 2).rewalledAll fencing) ∧
      (((new 3 2).rewalledAll fencing).toggleWall ⟨1, 1⟩ .east).addWall ⟨2, 2⟩ .south =
        (((new 3 2).rewalledAll fencing).addWall ⟨2, 2⟩ .south).toggleWall ⟨1, 1⟩ .east := by
  obtain ⟨-, hclosed, hnames, htwice, hcomm⟩ := walls_refine_edges 3 2 fencing
  refine ⟨by decide +kernel, ?_, ?_, ?_, ?_, ?_, htwice _ _, ?_⟩
  · exact (hclosed _ _ (by decide +kernel)).2 (.inr ⟨s((1, 1), (1, 2)), by decide +kernel⟩)
  · exact (hclosed _ _ (by decide +kernel)).2 (.inr ⟨s((1, 1), (1, 2)), by decide +kernel⟩)
  · exact (hclosed _ _ (by decide +kernel)).not.2 (by decide +kernel)
  · exact (hclosed _ _ (by decide +kernel)).2 (.inl (by decide +kernel))
  · exact (hnames .toggle ⟨1, 1⟩ .east (by decide +kernel) (by decide +kernel)).symm
  · exact hcomm ⟨.toggle, ⟨1, 1⟩, .east⟩ ⟨.add, ⟨2, 2⟩, .south⟩ (by decide +kernel)

end World

end GridRobot
