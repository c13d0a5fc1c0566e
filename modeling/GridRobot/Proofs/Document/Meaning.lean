import GridRobot.Proofs.Document.Segments
import GridRobot.Proofs.World.CellByCell

/-!
# What a document means

`Document.Valid` says which documents can be loaded, and `Document.Describes` says which world a
document stands for, both in terms of the numbers that are written in it: a side is closed if it lies
on the border or if a segment joins its corners, a cell has the pile of the last entry that names it,
an action has the cap that was listed last. A count is kept as it is, unless it is negative: then the
pile is endless, whatever the count.

Loading accepts the valid documents and gives the world that is described, of which there is one
(`Document.Describes.unique`). An invalid document is refused with the first of its faults.

Since `Describes` asks only which walls, marks and parts of the report are listed, their order does not
matter.
-/

set_option autoImplicit false

namespace GridRobot

/-! ## Reading a document by its numbers -/

/-- A column and a row, as numbers, name a cell. -/
def Names (x y : Nat) (c : Cell) : Prop :=
  c.col.toInt = x ∧ c.row.toInt = y

instance (x y : Nat) (c : Cell) : Decidable (Names x y c) :=
  inferInstanceAs (Decidable (_ ∧ _))

/-- The last entry that names a cell, if there is one. -/
def GridSection.entryAt? (g : GridSection) (c : Cell) : Option PileEntry :=
  (g.buzzers.filter fun e => Names e.x.toNat e.y.toNat c).getLast?

/-- The pile of a cell: the count of the last entry that names it, where a negative count stands for an
endless pile. A cell that is not named has no buzzers. -/
def GridSection.pileAt (g : GridSection) (c : Cell) : Int32 :=
  ((g.entryAt? c).map fun e => if e.count.count < 0 then -1 else e.count.count).getD 0

/-- The cap that is listed last for an action. -/
def Conditions.capOf (cs : Conditions) (a : Action) : Option UInt64 :=
  (cs.commands.filter fun e => e.action = a).getLast?.map CapEntry.maxExecutions

/-- A document has an admissible size, unit segments for walls, and its robot in the grid. -/
structure Document.Valid (d : Document) : Prop where
  width : 1 ≤ d.grid.width.toNat ∧ d.grid.width.toNat ≤ 10000
  height : 1 ≤ d.grid.height.toNat ∧ d.grid.height.toNat ≤ 10000
  walls : ∀ s ∈ d.grid.walls, s.IsUnit
  column : 1 ≤ d.setup.x.toNat ∧ d.setup.x.toNat ≤ d.grid.width.toNat
  row : 1 ≤ d.setup.y.toNat ∧ d.setup.y.toNat ≤ d.grid.height.toNat

/-- A world is the one that a document stands for. -/
structure Document.Describes (d : Document) (w : World) : Prop where
  width : w.width = d.grid.width.toNat
  height : w.height = d.grid.height.toNat
  sizes : w.walls.size = w.width * w.height ∧ w.startPiles.size = w.width * w.height ∧
    w.piles.size = w.width * w.height ∧ w.marks.size = w.width * w.height
  mask_lt : ∀ m ∈ w.walls, m < 16
  walls : ∀ c side, w.contains c = true →
    (w.Closed c side ↔
      w.isBorder c side = true ∨ ∃ s ∈ d.grid.walls, s.Joins (c.corners side))
  startPile : ∀ c, w.contains c = true → w.startPile c = d.grid.pileAt c
  pile : ∀ c, w.contains c = true → w.pile c = d.grid.pileAt c
  marks : ∀ c, w.contains c = true →
    (w.isMarked c = true ↔ ∃ e ∈ d.grid.dumpCells, Names e.x.toNat e.y.toNat c)
  maxInstructions : w.limits.maxInstructions = d.conditions.instructionsMax
  maxCallDepth : w.limits.maxCallDepth = d.conditions.stackDepthMax
  caps : ∀ a, w.limits.caps.get a = d.conditions.capOf a
  dumps : w.dumps = DumpKind.all.filter d.setup.dumps.contains
  cell : Names d.setup.x.toNat d.setup.y.toNat w.pose.toCell
  facing : w.pose.facing = d.setup.orientation
  bag : w.bag = supply d.setup.bag.count
  startPose : w.startPose = w.pose
  startBag : w.startBag = w.bag
  name : w.name = d.grid.name
  programName : w.programName = d.setup.name

theorem names_inj {x y : Nat} {a c : Cell} (ha : Names x y a) (hc : Names x y c) : a = c :=
  Cell.ext_toInt (ha.2.trans hc.2.symm) (ha.1.trans hc.1.symm)

/-- In a grid, the cell that an entry names is found from its words. -/
theorem names_iff {w : World} (hw : w.Sized) {c : Cell} (hc : w.contains c = true) (x y : UInt32) :
    Names x.toNat y.toNat c ↔ c = ⟨coordinate y, coordinate x⟩ := by
  have hwidth := hw.width_le
  have hheight := hw.height_le
  obtain ⟨-, hrow, -, hcol⟩ := World.contains_iff.1 hc
  rw [Cell.mk.injEq, eq_coordinate_iff (by omega), eq_coordinate_iff (by omega), Names, and_comm]

/-- A cell of a document lies in the grid exactly if its numbers do. -/
theorem contains_coordinate_iff {w : World} (hw : w.Sized) (x y : UInt32) :
    w.contains ⟨coordinate y, coordinate x⟩ = true ↔
      (1 ≤ x.toNat ∧ x.toNat ≤ w.width) ∧ 1 ≤ y.toNat ∧ y.toNat ≤ w.height := by
  have hwidth := hw.width_le
  have hheight := hw.height_le
  rw [sideMax] at hwidth hheight
  rw [World.contains_iff, toInt_coordinate, toInt_coordinate]
  split <;> split <;> omega

/-! ## There is one world for a document -/

theorem PerAction.ext_get {α : Type} {p q : PerAction α} (h : ∀ a, p.get a = q.get a) : p = q := by
  obtain ⟨forward, left, pickBuzzer, leaveBuzzer⟩ := p
  obtain ⟨forward', left', pickBuzzer', leaveBuzzer'⟩ := q
  obtain rfl : forward = forward' := h .forward
  obtain rfl : left = left' := h .left
  obtain rfl : pickBuzzer = pickBuzzer' := h .pickBuzzer
  obtain rfl : leaveBuzzer = leaveBuzzer' := h .leaveBuzzer
  rfl

namespace Document

variable {d : Document} {w v : World}

theorem Describes.sized (h : d.Describes w) (hvalid : d.Valid) : w.Sized := by
  obtain ⟨hwalls, hstart, hpiles, hmarks⟩ := h.sizes
  refine ⟨?_, ?_, ?_, ?_, hwalls, hstart, hpiles, hmarks⟩
  · exact h.width ▸ hvalid.width.1
  · exact h.width ▸ hvalid.width.2
  · exact h.height ▸ hvalid.height.1
  · exact h.height ▸ hvalid.height.2

/-- A document describes at most one world. -/
theorem Describes.unique (h : d.Describes w) (h' : d.Describes v) (hvalid : d.Valid) : w = v := by
  have hwidth : w.width = v.width := h.width.trans h'.width.symm
  have hheight : w.height = v.height := h.height.trans h'.height.symm
  have hcontains : ∀ {c}, v.contains c = true → w.contains c = true := by
    intro c hc
    rwa [World.contains_congr hwidth hheight]
  have hborder : ∀ c side, w.isBorder c side = v.isBorder c side :=
    World.isBorder_congr hwidth hheight
  have hlimits : w.limits = v.limits := by
    have hcaps : w.limits.caps = v.limits.caps :=
      PerAction.ext_get fun a => (h.caps a).trans (h'.caps a).symm
    have hinstructions := h.maxInstructions.trans h'.maxInstructions.symm
    have hdepth := h.maxCallDepth.trans h'.maxCallDepth.symm
    generalize w.limits = l at *
    generalize v.limits = l' at *
    cases l
    cases l'
    cases hcaps
    cases hinstructions
    cases hdepth
    rfl
  have hpose : w.pose = v.pose := by
    have hcell := names_inj h.cell h'.cell
    have hfacing := h.facing.trans h'.facing.symm
    generalize w.pose = p at *
    generalize v.pose = p' at *
    cases p
    cases p'
    cases hcell
    cases hfacing
    rfl
  have hbag : w.bag = v.bag := h.bag.trans h'.bag.symm
  have hstartPose : w.startPose = v.startPose := h.startPose.trans (hpose.trans h'.startPose.symm)
  have hstartBag : w.startBag = v.startBag := h.startBag.trans (hbag.trans h'.startBag.symm)
  have hname := h.name.trans h'.name.symm
  have hprogramName := h.programName.trans h'.programName.symm
  have hdumps := h.dumps.trans h'.dumps.symm
  refine World.ext_cells (h'.sized hvalid) (h.sized hvalid) h'.mask_lt h.mask_lt ?_ ?_ ?_ ?_ ?_
  · intro c side hc
    rw [h.walls c side (hcontains hc), h'.walls c side hc, hborder]
  · intro c hc
    rw [h.startPile c (hcontains hc), h'.startPile c hc]
  · intro c hc
    rw [h.pile c (hcontains hc), h'.pile c hc]
  · intro c hc
    exact Bool.eq_iff_iff.2 ((h.marks c (hcontains hc)).trans (h'.marks c hc).symm)
  · clear h h' hvalid hcontains hborder
    cases w
    cases v
    simp only at *
    subst hwidth hheight hlimits hpose hbag hstartPose hstartBag hname hprogramName hdumps
    rfl

end Document

/-! ## Last entries -/

/-- Of several changes of a cell the last one counts. -/
theorem getD_setEntries_last {α : Type} {width height : Nat} {entries : Array α} {fill : α}
    (changes : List (Cell × α)) (hsize : entries.size = width * height) {c : Cell} {i : Nat}
    (hi : gridIndex? width height c = some i) :
    (setEntries width height entries changes).getD i fill =
      ((changes.filter fun e => c = e.1).getLast?.map Prod.snd).getD (entries.getD i fill) := by
  induction changes generalizing entries with
  | nil => rfl
  | cons e changes ih =>
    show (setEntries width height (setEntry width height entries e.1 e.2) changes).getD i fill = _
    rw [ih ((size_setEntry e.1 e.2).trans hsize), getD_setEntry hsize hi, List.filter_cons]
    by_cases hce : c = e.1
    · rw [if_pos hce, if_pos (decide_eq_true hce), List.getLast?_cons]
      cases (changes.filter fun e => c = e.1).getLast? <;> rfl
    · rw [if_neg hce, if_neg (by simpa using hce)]

/-- The cells that have been marked are those of the entries. -/
theorem getD_setEntries_marks {ε : Type} {width height : Nat} (cell : ε → Cell) (entries : List ε)
    {c : Cell} {i : Nat} (hi : gridIndex? width height c = some i) :
    (setEntries width height (Array.replicate (width * height) false)
        (entries.map fun e => (cell e, true))).getD i false = true ↔
      ∃ e ∈ entries, c = cell e := by
  have hvalue : ∀ e ∈ entries.map fun e => (cell e, true), e.2 = true := by
    intro e he
    obtain ⟨m, -, rfl⟩ := List.mem_map.1 he
    rfl
  have hlisted : c ∈ (entries.map fun e => (cell e, true)).map Prod.fst ↔
      ∃ e ∈ entries, c = cell e := by
    simp only [List.map_map, List.mem_map, Function.comp_apply, eq_comm]
  rw [getD_setEntries (fun _ => true) hvalue Array.size_replicate hi, getD_replicate, ← hlisted]
  split
  · rename_i hmem
    exact iff_of_true rfl hmem
  · rename_i hmem
    exact iff_of_false (by simp) hmem

/-- Of several caps of an action the last one counts. -/
theorem Conditions.get_limits_caps (cs : Conditions) (a : Action) :
    cs.limits.caps.get a = cs.capOf a := by
  have hfold : ∀ (entries : List CapEntry) (caps : PerAction (Option UInt64)),
      (entries.foldl (fun caps e => caps.set e.action (some e.maxExecutions)) caps).get a =
        ((entries.filter fun e => e.action = a).getLast?.map CapEntry.maxExecutions).or
          (caps.get a) := by
    intro entries
    induction entries with
    | nil =>
      intro caps
      rfl
    | cons e entries ih =>
      intro caps
      rw [List.foldl_cons, ih, PerAction.get_set, List.filter_cons]
      by_cases hea : e.action = a
      · rw [if_pos hea, if_pos (decide_eq_true hea), List.getLast?_cons]
        cases (entries.filter fun e => e.action = a).getLast? <;> rfl
      · rw [if_neg hea, if_neg (by simpa using hea)]
  refine (hfold cs.commands _).trans ?_
  rw [PerAction.get_const, Option.or_none]
  rfl

/-! ## The world that is loaded -/

namespace Document

variable {d : Document} {w : World} {sides : List (Cell × Orientation)}

/-- The grid of a document with its piles, before its walls are closed. -/
def piled (d : Document) : World :=
  World.withPiles
    { World.new d.grid.width.toNat d.grid.height.toNat with
      name := d.grid.name, limits := d.conditions.limits }
    d.grid.buzzers

/-- The piles of a document. -/
def pileEntries (d : Document) : Array Int32 :=
  setEntries d.grid.width.toNat d.grid.height.toNat
    (Array.replicate (d.grid.width.toNat * d.grid.height.toNat) 0)
    (d.grid.buzzers.map fun e => (e.cell, supply e.count.count))

/-- The marks of a document. -/
def markEntries (d : Document) : Array Bool :=
  setEntries d.grid.width.toNat d.grid.height.toNat
    (Array.replicate (d.grid.width.toNat * d.grid.height.toNat) false)
    (d.grid.dumpCells.map fun e => (e.cell, true))

/-- The world of a document with the given wall masks. -/
def loaded (d : Document) (walls : Array Nat) : World :=
  { width := d.grid.width.toNat
    height := d.grid.height.toNat
    name := d.grid.name
    programName := d.setup.name
    walls
    startPiles := d.pileEntries
    piles := d.pileEntries
    marks := d.markEntries
    dumps := DumpKind.all.filter d.setup.dumps.contains
    pose := ⟨d.setup.cell, d.setup.orientation⟩
    startPose := ⟨d.setup.cell, d.setup.orientation⟩
    bag := supply d.setup.bag.count
    startBag := supply d.setup.bag.count
    limits := d.conditions.limits }

section Furnished

variable (hsize : acceptsSize d.grid.width.toNat d.grid.height.toNat = true)
include hsize

theorem piled_eq :
    d.piled =
      { World.bare d.grid.width.toNat d.grid.height.toNat with
        name := d.grid.name
        limits := d.conditions.limits
        walls := (World.new d.grid.width.toNat d.grid.height.toNat).walls
        startPiles := d.pileEntries
        piles := d.pileEntries } := by
  have hnew := World.new_of_acceptsSize hsize
  have hpiles := World.withPiles_eq
    { World.new d.grid.width.toNat d.grid.height.toNat with
      name := d.grid.name, limits := d.conditions.limits }
    d.grid.buzzers
  refine hpiles.trans ?_
  generalize (World.new d.grid.width.toNat d.grid.height.toNat).walls = walls at hnew ⊢
  rw [hnew]
  rfl

/-- What is loaded, but for the walls. -/
theorem applied_furnished_eq (sides : List (Cell × Orientation)) :
    d.setup.applied (d.furnished sides) = d.loaded (d.piled.closeSides sides).walls := by
  obtain ⟨walls, -, hclose⟩ := World.exists_closeSides d.piled sides
  have hfurnished : d.furnished sides = World.withMarks { d.piled with walls } d.grid.dumpCells :=
    congrArg (World.withMarks · d.grid.dumpCells) hclose
  have hdumps := DumpKind.foldl_select d.setup.dumps fun _ => false
  have hnone : DumpKind.all.filter (fun _ => false) = [] := rfl
  simp only [hnone, Bool.false_or] at hdumps
  rw [hclose, hfurnished, World.withMarks_eq, SetupSection.applied, World.withDumps_eq, piled_eq hsize]
  exact congrArg (fun dumps => { d.loaded walls with dumps }) hdumps

theorem piled_sized : d.piled.Sized := by
  have hnew := (World.wellFormed_new d.grid.width.toNat d.grid.height.toNat).sized.walls
  have hbare := World.bare_sized_of_acceptsSize hsize
  rw [World.new_of_acceptsSize hsize] at hnew
  rw [piled_eq hsize]
  refine { hbare with walls := hnew, startPiles := ?_, piles := ?_ }
  · exact (size_setEntries _).trans Array.size_replicate
  · exact (size_setEntries _).trans Array.size_replicate

/-- Walls are on the border and where the given sides are. A side whose cell lies outside the grid is
not closed from there, but then it lies on the border. -/
theorem closed_piled_iff {c : Cell} {e : Orientation} (hc : d.piled.contains c = true) :
    (d.piled.closeSides sides).Closed c e ↔
      d.piled.isBorder c e = true ∨ ∃ a ∈ sides, World.SameSide a.1 a.2 c e := by
  have hsized := piled_sized hsize
  have hborder : d.piled.Closed c e ↔ d.piled.isBorder c e = true := by
    have hnew : (World.new d.grid.width.toNat d.grid.height.toNat).Closed c e ↔ _ :=
      World.closed_new (World.bare_sized_of_acceptsSize hsize)
    rw [World.new_of_acceptsSize hsize] at hnew
    rw [piled_eq hsize] at hc ⊢
    exact hnew.trans (and_iff_right hc)
  rw [World.closed_closeSides hsized, hborder]
  constructor
  · rintro (hb | ⟨a, ha, -, -, hsame⟩)
    · exact .inl hb
    · exact .inr ⟨a, ha, hsame⟩
  · rintro (hb | ⟨a, ha, hsame⟩)
    · exact .inl hb
    · by_cases hin : d.piled.contains a.1 = true
      · exact .inr ⟨a, ha, hin, hc, hsame⟩
      · left
        rcases hsame with ⟨hcell, -⟩ | ⟨hcell, hside⟩
        · exact absurd (hcell ▸ hc) hin
        · have hbeyond : c.beyond e = a.1 := by
            rw [hcell, hside]
            exact Cell.beyond_beyond_opposite a.1 a.2
          rw [← Bool.not_eq_false, ← World.contains_beyond_iff hsized hc, hbeyond]
          exact hin

/-- A pile is that of the last entry that names its cell. -/
theorem getD_pileEntries {c : Cell} {i : Nat}
    (hi : gridIndex? d.grid.width.toNat d.grid.height.toNat c = some i) :
    d.pileEntries.getD i 0 = d.grid.pileAt c := by
  have hc : (World.bare d.grid.width.toNat d.grid.height.toNat).contains c = true :=
    World.contains_of_index? hi
  have hnames : (d.grid.buzzers.filter fun e => decide (c = e.cell)) =
      d.grid.buzzers.filter fun e => decide (Names e.x.toNat e.y.toNat c) := by
    apply List.filter_congr
    intro e _
    exact decide_eq_decide.2 (names_iff (World.bare_sized_of_acceptsSize hsize) hc e.x e.y).symm
  rw [pileEntries, getD_setEntries_last _ Array.size_replicate hi, getD_replicate, List.filter_map,
    List.getLast?_map, Option.map_map, GridSection.pileAt, GridSection.entryAt?, ← hnames]
  rfl

/-- A cell is marked if an entry names it. -/
theorem getD_markEntries {c : Cell} {i : Nat}
    (hi : gridIndex? d.grid.width.toNat d.grid.height.toNat c = some i) :
    d.markEntries.getD i false = true ↔ ∃ e ∈ d.grid.dumpCells, Names e.x.toNat e.y.toNat c := by
  have hc : (World.bare d.grid.width.toNat d.grid.height.toNat).contains c = true :=
    World.contains_of_index? hi
  simp only [names_iff (World.bare_sized_of_acceptsSize hsize) hc]
  exact getD_setEntries_marks CellEntry.cell d.grid.dumpCells hi

/-- A side of a loaded world is closed on the border and where a segment joins its corners. -/
theorem closed_iff_joins (hsides : d.grid.walls.mapM Segment.side = .ok sides) {c : Cell}
    {e : Orientation} (hc : d.piled.contains c = true) :
    (d.piled.closeSides sides).Closed c e ↔
      d.piled.isBorder c e = true ∨ ∃ s ∈ d.grid.walls, s.Joins (c.corners e) := by
  have hsized := piled_sized hsize
  have hwidth := hsized.width_le
  have hheight := hsized.height_le
  obtain ⟨hrow, hrow', hcol, hcol'⟩ := World.contains_iff.1 hc
  have hjoins : ∀ {s : Segment} {a : Cell × Orientation}, s.side = .ok a →
      (World.SameSide a.1 a.2 c e ↔ s.Joins (c.corners e)) := by
    intro s a hside
    exact Segment.sameSide_iff_joins hside ⟨hrow, by omega⟩ ⟨hcol, by omega⟩
  rw [closed_piled_iff hsize hc]
  refine or_congr Iff.rfl ?_
  constructor
  · rintro ⟨a, ha, hsame⟩
    obtain ⟨s, hs, hside⟩ := (Segment.mem_iff_of_mapM_side hsides a).1 ha
    exact ⟨s, hs, (hjoins hside).1 hsame⟩
  · rintro ⟨s, hs, hjoin⟩
    obtain ⟨a, hside⟩ := Segment.isUnit_iff_exists_side.1
      (Segment.exists_mapM_side_iff.1 ⟨sides, hsides⟩ s hs)
    exact ⟨a, (Segment.mem_iff_of_mapM_side hsides a).2 ⟨s, hs, hside⟩, (hjoins hside).2 hjoin⟩

theorem contains_cell_iff (sides : List (Cell × Orientation)) :
    (d.furnished sides).contains d.setup.cell = true ↔
      (1 ≤ d.setup.x.toNat ∧ d.setup.x.toNat ≤ d.grid.width.toNat) ∧
        1 ≤ d.setup.y.toNat ∧ d.setup.y.toNat ≤ d.grid.height.toNat := by
  have hframe : (d.furnished sides).contains d.setup.cell =
      (World.bare d.grid.width.toNat d.grid.height.toNat).contains d.setup.cell := by
    obtain ⟨walls, -, hclose⟩ := World.exists_closeSides d.piled sides
    have hfurnished : d.furnished sides = World.withMarks { d.piled with walls } d.grid.dumpCells :=
      congrArg (World.withMarks · d.grid.dumpCells) hclose
    rw [hfurnished, World.withMarks_eq, piled_eq hsize]
    rfl
  rw [hframe]
  exact contains_coordinate_iff (World.bare_sized_of_acceptsSize hsize) d.setup.x d.setup.y

end Furnished

/-- The loader accepts a document exactly if it is valid. -/
theorem valid_iff :
    d.Valid ↔
      acceptsSize d.grid.width.toNat d.grid.height.toNat = true ∧
        ∃ sides, d.grid.walls.mapM Segment.side = .ok sides ∧
          (d.furnished sides).contains d.setup.cell = true := by
  constructor
  · intro h
    have hsize := World.acceptsSize_iff.2 ⟨h.width, h.height⟩
    obtain ⟨sides, hsides⟩ := Segment.exists_mapM_side_iff.2 h.walls
    exact ⟨hsize, sides, hsides, (contains_cell_iff hsize sides).2 ⟨h.column, h.row⟩⟩
  · rintro ⟨hsize, sides, hsides, hcell⟩
    obtain ⟨hwidth, hheight⟩ := World.acceptsSize_iff.1 hsize
    obtain ⟨hcolumn, hrow⟩ := (contains_cell_iff hsize sides).1 hcell
    exact ⟨hwidth, hheight, Segment.exists_mapM_side_iff.1 ⟨sides, hsides⟩, hcolumn, hrow⟩

/-- What is loaded is what the document describes. -/
theorem describes_of_ofDocument (h : World.ofDocument d = .ok w) : d.Describes w := by
  have hsettled := World.settled_of_ofDocument h
  obtain ⟨hsize, sides, hsides, hcell, happlied⟩ := World.ofDocument_eq_ok_iff.1 h
  have hsized := hsettled.wellFormed.sized
  have hlt := hsettled.wellFormed.walled.mask_lt
  have hplace := (contains_cell_iff hsize sides).1 hcell
  have hclosed : ∀ c e, d.piled.contains c = true →
      ((d.piled.closeSides sides).Closed c e ↔
        d.piled.isBorder c e = true ∨ ∃ s ∈ d.grid.walls, s.Joins (c.corners e)) := by
    intro c e hc
    exact closed_iff_joins hsize hsides hc
  obtain ⟨walls, -, hclose⟩ := World.exists_closeSides d.piled sides
  rw [applied_furnished_eq hsize sides] at happlied
  rw [hclose] at happlied hclosed
  rw [piled_eq hsize] at hclosed
  subst happlied
  exact
    { width := rfl
      height := rfl
      sizes := ⟨hsized.walls, hsized.startPiles, hsized.piles, hsized.marks⟩
      mask_lt := hlt
      walls := hclosed
      startPile := by
        intro c hc
        obtain ⟨i, hi⟩ := Option.isSome_iff_exists.1 hc
        rw [World.startPile, hi]
        exact getD_pileEntries hsize hi
      pile := by
        intro c hc
        obtain ⟨i, hi⟩ := Option.isSome_iff_exists.1 hc
        rw [World.pile, hi]
        exact getD_pileEntries hsize hi
      marks := by
        intro c hc
        obtain ⟨i, hi⟩ := Option.isSome_iff_exists.1 hc
        rw [World.isMarked, hi]
        exact getD_markEntries hsize hi
      maxInstructions := rfl
      maxCallDepth := rfl
      caps := d.conditions.get_limits_caps
      dumps := rfl
      cell := (names_iff hsized hsettled.inside _ _).2 rfl
      facing := rfl
      bag := rfl
      startPose := rfl
      startBag := rfl
      name := rfl
      programName := rfl }

theorem ofDocument_eq_ok_iff_describes :
    World.ofDocument d = .ok w ↔ d.Valid ∧ d.Describes w := by
  constructor
  · intro h
    obtain ⟨hsize, sides, hsides, hcell, -⟩ := World.ofDocument_eq_ok_iff.1 h
    exact ⟨valid_iff.2 ⟨hsize, sides, hsides, hcell⟩, describes_of_ofDocument h⟩
  · rintro ⟨hvalid, hdescribes⟩
    obtain ⟨hsize, sides, hsides, hcell⟩ := valid_iff.1 hvalid
    have hloaded := World.ofDocument_eq_ok_iff.2 ⟨hsize, sides, hsides, hcell, rfl⟩
    rw [hdescribes.unique (describes_of_ofDocument hloaded) hvalid]
    exact hloaded

/-- Of the faults of a document, its size is looked at first. -/
theorem ofDocument_eq_error_iff_of_size {err : LoadError}
    (hsize : acceptsSize d.grid.width.toNat d.grid.height.toNat = false) :
    World.ofDocument d = .error err ↔
      err = .invalidDimensions d.grid.width.toNat d.grid.height.toNat := by
  rw [World.ofDocument_eq, hsize, Bool.not_false, if_pos rfl]
  constructor
  · intro h
    exact (Except.error.inj h).symm
  · rintro rfl
    rfl

/-- Next its walls are looked at, and last the cell of its robot. -/
theorem ofDocument_eq_error_iff {err : LoadError}
    (hsize : acceptsSize d.grid.width.toNat d.grid.height.toNat = true) :
    World.ofDocument d = .error err ↔
      d.grid.walls.mapM Segment.side = .error err ∨
        ∃ sides, d.grid.walls.mapM Segment.side = .ok sides ∧
          ¬ (d.furnished sides).contains d.setup.cell = true ∧
          err = .invalidCoordinate d.setup.x.toNat d.setup.y.toNat := by
  rw [World.ofDocument_eq, hsize, Bool.not_true, if_neg (by simp)]
  cases hsides : d.grid.walls.mapM Segment.side with
  | error err' =>
    constructor
    · intro h
      exact .inl (congrArg Except.error (Except.error.inj h))
    · rintro (h | ⟨sides, h, -⟩)
      · exact congrArg Except.error (Except.error.inj h)
      · exact absurd h (by simp)
  | ok sides =>
    constructor
    · intro h
      refine .inr ⟨sides, rfl, ?_⟩
      by_cases hcell : (d.furnished sides).contains d.setup.cell = true
      · simp [Except.bind, hcell] at h
      · simp only [Except.bind, hcell, Bool.not_false, if_true] at h
        exact ⟨hcell, (Except.error.inj h).symm⟩
    · rintro (h | ⟨sides', hsides', hcell, rfl⟩)
      · exact absurd h (by simp)
      · obtain rfl := Except.ok.inj hsides'
        simp [Except.bind, hcell]

/-! ## Order -/

/-- Two documents list the same walls, marks and parts of the report, in any order and any number of
times, and agree in all else. -/
structure Alike (d d' : Document) : Prop where
  rest : d' =
    { d with
      grid := { d.grid with walls := d'.grid.walls, dumpCells := d'.grid.dumpCells }
      setup := { d.setup with dumps := d'.setup.dumps } }
  walls : ∀ s, s ∈ d'.grid.walls ↔ s ∈ d.grid.walls
  dumpCells : ∀ e, e ∈ d'.grid.dumpCells ↔ e ∈ d.grid.dumpCells
  dumps : ∀ k, k ∈ d'.setup.dumps ↔ k ∈ d.setup.dumps

theorem Alike.symm {d' : Document} (h : d.Alike d') : d'.Alike d := by
  refine ⟨?_, fun s => (h.walls s).symm, fun e => (h.dumpCells e).symm, fun k => (h.dumps k).symm⟩
  rw [h.rest]

theorem Valid.alike {d' : Document} (h : d.Valid) (halike : d.Alike d') : d'.Valid := by
  obtain ⟨hrest, hwalls, -, -⟩ := halike
  rw [hrest]
  exact ⟨h.width, h.height, fun s hs => h.walls s ((hwalls s).1 hs), h.column, h.row⟩

theorem Describes.alike {d' : Document} (h : d.Describes w) (halike : d.Alike d') :
    d'.Describes w := by
  obtain ⟨hrest, hwalls, hdumpCells, hdumps⟩ := halike
  have hcontains : d'.setup.dumps.contains = d.setup.dumps.contains := by
    funext k
    rw [Bool.eq_iff_iff, List.contains_iff_mem, List.contains_iff_mem, hdumps]
  rw [hrest]
  exact
    { h with
      walls := by
        intro c side hc
        rw [h.walls c side hc]
        simp only [hwalls]
      marks := by
        intro c hc
        rw [h.marks c hc]
        simp only [hdumpCells]
      dumps := by rw [h.dumps, hcontains] }

/-- A document is loaded exactly if its sides are between 1 and 10000, each of its walls is a segment of
length one, and its robot stands in the grid; and the world that is loaded is the one it describes, of
which there is one: a side is closed if it lies on the border or if some segment joins its corners, a
pile is the last one listed for its cell, or endless if that one has a negative count, the marked cells
are the listed ones, a cap is the last one listed for its action. Otherwise the size is refused, or else
the first wall that is no such segment, or else the cell of the robot. Documents that list the same walls,
marks and parts of the report in another order are loaded alike. -/
theorem loaded_iff_described (d : Document) :
    ((∃ w, World.ofDocument d = .ok w) ↔ d.Valid) ∧
    (∀ w, World.ofDocument d = .ok w ↔ d.Valid ∧ d.Describes w) ∧
    (∀ err, World.ofDocument d = .error err ↔
      if ¬ ((1 ≤ d.grid.width.toNat ∧ d.grid.width.toNat ≤ 10000) ∧
          1 ≤ d.grid.height.toNat ∧ d.grid.height.toNat ≤ 10000) then
        err = .invalidDimensions d.grid.width.toNat d.grid.height.toNat
      else
        (∃ before s after, d.grid.walls = before ++ s :: after ∧ (∀ t ∈ before, t.IsUnit) ∧
          ¬ s.IsUnit ∧ err = .invalidWall s) ∨
        (∀ s ∈ d.grid.walls, s.IsUnit) ∧
          ¬ ((1 ≤ d.setup.x.toNat ∧ d.setup.x.toNat ≤ d.grid.width.toNat) ∧
            1 ≤ d.setup.y.toNat ∧ d.setup.y.toNat ≤ d.grid.height.toNat) ∧
          err = .invalidCoordinate d.setup.x.toNat d.setup.y.toNat) ∧
    (∀ d', d.Alike d' → ∀ w, World.ofDocument d' = .ok w ↔ World.ofDocument d = .ok w) := by
  refine ⟨?_, fun w => ofDocument_eq_ok_iff_describes, ?_, ?_⟩
  · constructor
    · rintro ⟨w, h⟩
      exact (ofDocument_eq_ok_iff_describes.1 h).1
    · intro hvalid
      obtain ⟨hsize, sides, hsides, hcell⟩ := valid_iff.1 hvalid
      exact ⟨_, World.ofDocument_eq_ok_iff.2 ⟨hsize, sides, hsides, hcell, rfl⟩⟩
  · intro err
    split
    · rename_i hsize
      rw [← World.acceptsSize_iff, Bool.not_eq_true] at hsize
      exact ofDocument_eq_error_iff_of_size hsize
    · rename_i hsize
      rw [Classical.not_not, ← World.acceptsSize_iff] at hsize
      rw [ofDocument_eq_error_iff hsize, Segment.mapM_side_eq_error_iff,
        ← Segment.exists_mapM_side_iff]
      simp only [contains_cell_iff hsize]
      refine or_congr Iff.rfl ?_
      constructor
      · rintro ⟨sides, hsides, hrest⟩
        exact ⟨⟨sides, hsides⟩, hrest⟩
      · rintro ⟨⟨sides, hsides⟩, hrest⟩
        exact ⟨sides, hsides, hrest⟩
  · intro d' halike w
    rw [ofDocument_eq_ok_iff_describes, ofDocument_eq_ok_iff_describes]
    constructor
    · rintro ⟨hvalid, hdescribes⟩
      exact ⟨hvalid.alike halike.symm, hdescribes.alike halike.symm⟩
    · rintro ⟨hvalid, hdescribes⟩
      exact ⟨hvalid.alike halike, hdescribes.alike halike⟩

/-- A document with a wall that is given from its far end, a wall outside the grid, two piles on one
cell and two caps on one action. -/
def cluttered : Document :=
  { conditions := { commands := [⟨.left, 4⟩, ⟨.forward, 9⟩, ⟨.left, 2⟩] }
    grid :=
      { width := 3, height := 2
        buzzers := [⟨3, 1, ⟨7⟩⟩, ⟨4294967295, 1, ⟨8⟩⟩, ⟨3, 1, ⟨5⟩⟩]
        walls := [{ x1 := 2, y1 := 1, x2 := some 1 }, { x1 := 4294967295, y1 := 0, y2 := some 1 }]
        dumpCells := [⟨4, 1⟩, ⟨2, 2⟩] }
    setup := { x := 3, y := 2 } }

/-- The far end of the wall is no other wall, and the last pile and the last cap count. If a wall of
length two comes after the others, it is the one that is refused. -/
theorem loaded_iff_described_cluttered :
    cluttered.Valid ∧
      (∃ w, World.ofDocument cluttered = .ok w ∧
        (w.Closed ⟨1, 2⟩ .north ∧ w.Closed ⟨2, 2⟩ .south ∧ ¬ w.Closed ⟨1, 1⟩ .north) ∧
        w.pile ⟨1, 3⟩ = 5 ∧ w.isMarked ⟨2, 2⟩ = true ∧ w.limits.caps.get .left = some 2) ∧
      World.ofDocument
          { cluttered with
            grid :=
              { cluttered.grid with
                walls := cluttered.grid.walls ++ [{ x1 := 0, y1 := 0, x2 := some 2 }] } } =
        .error (.invalidWall { x1 := 0, y1 := 0, x2 := some 2 }) := by
  have hunits : ∀ s ∈ cluttered.grid.walls, s.IsUnit := by decide
  have hvalid : cluttered.Valid := ⟨by decide, by decide, hunits, by decide, by decide⟩
  obtain ⟨hloads, hmeans, -, -⟩ := loaded_iff_described cluttered
  obtain ⟨w, hw⟩ := hloads.2 hvalid
  obtain ⟨-, hdescribes⟩ := (hmeans w).1 hw
  have hcontains : ∀ c, w.contains c = (World.bare 3 2).contains c := by
    intro c
    rw [World.contains, World.index?, hdescribes.width, hdescribes.height]
    rfl
  refine ⟨hvalid, ⟨w, hw, ⟨?_, ?_, ?_⟩, ?_, ?_, ?_⟩, ?_⟩
  · rw [hdescribes.walls _ _ ((hcontains _).trans (by decide))]
    exact .inr ⟨_, List.mem_cons_self, .inr rfl⟩
  · rw [hdescribes.walls _ _ ((hcontains _).trans (by decide))]
    exact .inr ⟨_, List.mem_cons_self, .inr rfl⟩
  · rw [hdescribes.walls _ _ ((hcontains _).trans (by decide))]
    rintro (hborder | hjoins)
    · rw [World.isBorder, hdescribes.height] at hborder
      exact absurd hborder (by decide)
    · exact absurd hjoins (by decide)
  · exact (hdescribes.pile _ ((hcontains _).trans (by decide))).trans (by decide)
  · rw [hdescribes.marks _ ((hcontains _).trans (by decide))]
    decide
  · exact (hdescribes.caps .left).trans (by decide)
  · refine ((loaded_iff_described _).2.2.1 _).2 ?_
    rw [if_neg (by decide)]
    exact .inl ⟨cluttered.grid.walls, _, [], rfl, hunits, by decide, rfl⟩

/-- A document with a pile of minus seven buzzers. -/
def overdrawn : Document :=
  { conditions := {}
    grid := { width := 3, height := 2, buzzers := [⟨3, 1, ⟨-7⟩⟩] }
    setup := {} }

/-- The count of the pile is not kept. No text has such a count, but the document is loaded as the world
in which the pile has been put on its cell by hand, and that pile is endless. -/
theorem overdrawn_pile_endless :
    (overdrawn.grid.entryAt? ⟨1, 3⟩).map (fun e => e.count.count) = some (-7) ∧
      ∃ w, World.ofDocument overdrawn = .ok w ∧ w = (World.new 3 2).setPile ⟨1, 3⟩ (-7) ∧
        w.contains ⟨1, 3⟩ = true ∧ w.startPile ⟨1, 3⟩ = -1 ∧ w.pile ⟨1, 3⟩ = -1 := by
  have hloaded : (World.ofDocument overdrawn).toOption =
      some ((World.new 3 2).setPile ⟨1, 3⟩ (-7)) := by decide +kernel
  refine ⟨by decide +kernel, (World.new 3 2).setPile ⟨1, 3⟩ (-7), ?_, rfl, by decide +kernel⟩
  cases h : World.ofDocument overdrawn with
  | error err =>
    rw [h] at hloaded
    exact absurd hloaded nofun
  | ok w =>
    rw [h] at hloaded
    exact congrArg Except.ok (Option.some.inj hloaded)

end Document

end GridRobot
