import GridRobot.Proofs.Legacy.Access
import GridRobot.Proofs.Legacy.Requirements

/-!
# What legacy buffers mean

`LegacyWorld.Describes` says what a pair of buffers puts into a world, in terms of the numbers in its
words: a side is closed if it lies on the border or if a wall record has its bit, from one cell or from
the other, and a cell has the pile of the last record that names it. Buffers that meet their
requirements are decoded to such a world, and words behind the announced records have no part in it.
-/

set_option autoImplicit false

namespace GridRobot

namespace LegacyWorld

/-! ## Reading buffers by their numbers -/

/-- The number of buzzers that a word stands for, `-1` for an endless supply. -/
def buzzers (word : UInt16) : Int :=
  if word = 0xFFFF then -1 else word.toNat

/-- The number of buzzers of the last pile record that names a cell, if there is one. -/
def pileAt (l : LegacyWorld) (c : Cell) : Int :=
  ((l.pileRecords.filter fun r => Names r.1.toNat r.2.1.toNat c).getLast?.map fun r => buzzers r.2.2).getD 0

/-- A wall record names a cell and has the bit of one of its sides. -/
def Closes (r : UInt16 × UInt16 × UInt16) (c : Cell) (side : Orientation) : Prop :=
  Names r.1.toNat r.2.1.toNat c ∧ r.2.2.toNat.testBit side.index = true

instance (r : UInt16 × UInt16 × UInt16) (c : Cell) (side : Orientation) :
    Decidable (Closes r c side) :=
  inferInstanceAs (Decidable (_ ∧ _))

/-- A world has the walls, the piles, the marks and the robot that two buffers describe. -/
structure Describes (l : LegacyWorld) (w : World) : Prop where
  width : w.width = l.width
  height : w.height = l.height
  walls : ∀ c side, w.contains c = true →
    (w.Closed c side ↔
      w.isBorder c side = true ∨ ∃ r ∈ l.wallRecords,
        Closes r c side ∨
          w.contains (c.beyond side) = true ∧ Closes r (c.beyond side) side.opposite)
  startPile : ∀ c, w.contains c = true → (w.startPile c).toInt = l.pileAt c
  pile : ∀ c, w.contains c = true → (w.pile c).toInt = l.pileAt c
  marks : ∀ c, w.contains c = true →
    (w.isMarked c = true ↔ ∃ r ∈ l.cellRecords, Names r.1.toNat r.2.1.toNat c)
  cell : Names (l.worldWord 9).toNat (l.worldWord 10).toNat w.pose.toCell
  facing : orientation (l.worldWord 11) = .ok w.pose.facing
  bag : w.bag.toInt = buzzers (l.worldWord 8)
  startPose : w.startPose = w.pose
  startBag : w.startBag = w.bag

/-- Two pairs of buffers have the same announced words. Behind the records of the first, or behind the
header of its limits if it lists no cells, anything may follow. -/
structure SharesAnnounced (l l' : LegacyWorld) : Prop where
  worldHeader : 20 ≤ l'.world.size
  limitsHeader : 30 ≤ l'.limits.size
  world : ∃ tail, l'.world.toList =
    l.world.toList.take (15 + 3 * (l.wallCount + l.pileCount)) ++ tail
  limits : ∃ tail, l'.limits.toList =
    l.limits.toList.take
      (if l.limitsWord 27 = 0 then 30 else 30 + 3 * (l.limitsWord 28).toNat) ++ tail

variable {l l' : LegacyWorld}

theorem toInt_supply_amount (word : UInt16) : (supply (amount word)).toInt = buzzers word := by
  have hlt := word.toNat_lt
  rw [amount, buzzers]
  split
  · rfl
  · have hint : (Int32.ofNat word.toNat).toInt = word.toNat := Int32.toInt_ofNat_of_lt (by omega)
    have hle : ¬ Int32.ofNat word.toNat < 0 := by
      rw [Int32.lt_iff_toInt_lt, hint]
      exact Int.not_lt.2 (Int.natCast_nonneg _)
    rw [supply, if_neg hle, hint]

theorem mem_closedSides_iff {a : Cell} {e : Orientation} :
    (a, e) ∈ l.closedSides ↔ ∃ r ∈ l.wallRecords, Closes r a e := by
  have hall : e ∈ Orientation.all := by cases e <;> decide
  simp only [closedSides, List.mem_flatMap, List.mem_map, List.mem_filter, Prod.mk.injEq]
  constructor
  · rintro ⟨r, hr, side, ⟨-, hbit⟩, hcell, rfl⟩
    exact ⟨r, hr, names_iff_cellAt.2 hcell.symm, hbit⟩
  · rintro ⟨r, hr, hnames, hbit⟩
    exact ⟨r, hr, e, ⟨hall, hbit⟩, (names_iff_cellAt.1 hnames).symm, rfl⟩

/-- A pile is that of the last record that names its cell. -/
theorem toInt_getD_piles {width height i : Nat} {c : Cell}
    (hi : gridIndex? width height c = some i) :
    ((setEntries width height (Array.replicate (width * height) 0)
      (l.pileRecords.map fun r => (cellAt r.1 r.2.1, supply (amount r.2.2)))).getD i 0).toInt =
        l.pileAt c := by
  have hnames : (l.pileRecords.filter fun r => decide (c = cellAt r.1 r.2.1)) =
      l.pileRecords.filter fun r => decide (Names r.1.toNat r.2.1.toNat c) := by
    apply List.filter_congr
    intro r _
    exact decide_eq_decide.2 names_iff_cellAt.symm
  rw [getD_setEntries_last _ Array.size_replicate hi, getD_replicate, List.filter_map,
    List.getLast?_map, Option.map_map, pileAt, ← hnames]
  show Int32.toInt (((l.pileRecords.filter fun r => decide (c = cellAt r.1 r.2.1)).getLast?.map
    fun r => supply (amount r.2.2)).getD 0) = _
  cases (l.pileRecords.filter fun r => decide (c = cellAt r.1 r.2.1)).getLast? with
  | none => rfl
  | some r => exact toInt_supply_amount r.2.2

/-- A cell is marked if a record names it. -/
theorem getD_marks_iff {width height i : Nat} {c : Cell}
    (hi : gridIndex? width height c = some i) :
    (setEntries width height (Array.replicate (width * height) false)
      (l.cellRecords.map fun r => (cellAt r.1 r.2.1, true))).getD i false = true ↔
        ∃ r ∈ l.cellRecords, Names r.1.toNat r.2.1.toNat c := by
  simp only [names_iff_cellAt]
  exact getD_setEntries_marks (fun r : UInt16 × UInt16 × UInt16 => cellAt r.1 r.2.1) _ hi

end LegacyWorld

/-! ## Furnishing a grid -/

namespace World

variable {w : World}

/-- A world with nothing in it but its border and its robot. -/
structure Unfurnished (w : World) : Prop where
  sized : w.Sized
  border : ∀ c side, w.contains c = true → (w.Closed c side ↔ w.isBorder c side = true)
  startPiles : w.startPiles = Array.replicate (w.width * w.height) 0
  piles : w.piles = Array.replicate (w.width * w.height) 0
  marks : w.marks = Array.replicate (w.width * w.height) false

theorem unfurnished_new (width height : Nat) : (new width height).Unfurnished := by
  have hsized := (wellFormed_new width height).sized
  obtain ⟨hwidth, hwidth'⟩ := clampSide_bounds width
  obtain ⟨hheight, hheight'⟩ := clampSide_bounds height
  have hbare := bare_sized hwidth hwidth' hheight hheight'
  have hclosed : ∀ c side, (new width height).Closed c side ↔ _ := fun c side =>
    closed_closeBorder (c := c) (d := side) hbare
  have hopen := not_closed_of_replicate (w := bare (clampSide width) (clampSide height)) rfl
  obtain ⟨walls, -, heq⟩ := exists_closeSides (bare (clampSide width) (clampSide height))
    (borderSides (clampSide width) (clampSide height))
  have hnew : new width height = { bare (clampSide width) (clampSide height) with walls } :=
    (closeBorder_eq _).trans heq
  rw [hnew] at hsized hclosed ⊢
  refine ⟨hsized, ?_, rfl, rfl, rfl⟩
  intro c side hc
  rw [hclosed]
  constructor
  · rintro (hside | ⟨-, hborder⟩)
    · exact absurd hside (hopen c side)
    · exact hborder
  · intro hborder
    exact .inr ⟨hc, hborder⟩

/-- The robot is no furniture. -/
theorem Unfurnished.withRobot (h : w.Unfurnished) (pose startPose : Pose) (bag startBag : Int32) :
    Unfurnished { w with pose, startPose, bag, startBag } :=
  ⟨{ h.sized with }, h.border, h.startPiles, h.piles, h.marks⟩

end World

namespace LegacyWorld

variable {l l' : LegacyWorld} {w : World}

theorem furnish_eq {walls : Array Nat} (hclose : w.closeSides l.closedSides = { w with walls }) :
    l.furnish w =
      let piles := l.pileRecords.map fun r => (cellAt r.1 r.2.1, supply (amount r.2.2))
      { w with
        walls
        startPiles := setEntries w.width w.height w.startPiles piles
        piles := setEntries w.width w.height w.piles piles
        marks := setEntries w.width w.height w.marks
          (l.cellRecords.map fun r => (cellAt r.1 r.2.1, true))
        dumps := l.dumps.foldl (fun chosen k => k.select chosen) w.dumps
        limits := l.runLimits } := by
  have hpiles := World.foldl_setPile_eq
    (fun r : UInt16 × UInt16 × UInt16 => cellAt r.1 r.2.1) (fun r => amount r.2.2)
  have hmarks := World.foldl_setMark_eq (fun r : UInt16 × UInt16 × UInt16 => cellAt r.1 r.2.1)
  show { World.withDumps (l.cellRecords.foldl (fun w r => w.setMark (cellAt r.1 r.2.1) true)
    (l.pileRecords.foldl (fun w r => w.setPile (cellAt r.1 r.2.1) (amount r.2.2))
      (w.closeSides l.closedSides))) l.dumps with limits := l.runLimits } = _
  rw [hclose, hpiles, hmarks, World.withDumps_eq]

/-- Walls are on the border and where the records have a bit. -/
theorem closed_closeSides_iff (h : w.Unfurnished) {c : Cell} (hc : w.contains c = true)
    (side : Orientation) :
    (w.closeSides l.closedSides).Closed c side ↔
      w.isBorder c side = true ∨ ∃ r ∈ l.wallRecords,
        Closes r c side ∨
          w.contains (c.beyond side) = true ∧ Closes r (c.beyond side) side.opposite := by
  rw [World.closed_closeSides h.sized, h.border c side hc]
  refine or_congr Iff.rfl ?_
  constructor
  · rintro ⟨⟨a, e⟩, ha, hin, -, hsame⟩
    obtain ⟨r, hr, hcloses⟩ := mem_closedSides_iff.1 ha
    rcases hsame with ⟨rfl, rfl⟩ | ⟨rfl, rfl⟩
    · exact ⟨r, hr, .inl hcloses⟩
    · -- seen from the cell beyond, the side is the one that the record has
      refine ⟨r, hr, .inr ?_⟩
      simp only [Cell.beyond_beyond_opposite, Orientation.opposite_opposite]
      exact ⟨hin, hcloses⟩
  · rintro ⟨r, hr, hcloses | ⟨hin, hcloses⟩⟩
    · exact ⟨(c, side), mem_closedSides_iff.2 ⟨r, hr, hcloses⟩, hc, hc, .inl ⟨rfl, rfl⟩⟩
    · refine ⟨(c.beyond side, side.opposite), mem_closedSides_iff.2 ⟨r, hr, hcloses⟩, hin, hc,
        .inr ?_⟩
      simp

/-- A grid is furnished as the buffers describe. -/
theorem describes_furnish (h : w.Unfurnished) (hwidth : w.width = l.width)
    (hheight : w.height = l.height)
    (hcell : Names (l.worldWord 9).toNat (l.worldWord 10).toNat w.pose.toCell)
    (hfacing : orientation (l.worldWord 11) = .ok w.pose.facing)
    (hbag : w.bag.toInt = buzzers (l.worldWord 8)) (hstartPose : w.startPose = w.pose)
    (hstartBag : w.startBag = w.bag) : l.Describes (l.furnish w) := by
  have hclosed : ∀ c side, w.contains c = true → _ := fun c side hc =>
    closed_closeSides_iff (l := l) h hc side
  obtain ⟨walls, -, hclose⟩ := World.exists_closeSides w l.closedSides
  rw [hclose] at hclosed
  rw [furnish_eq hclose]
  refine
    { width := hwidth, height := hheight, walls := hclosed, cell := hcell, facing := hfacing
      bag := hbag, startPose := hstartPose, startBag := hstartBag
      startPile := ?_, pile := ?_, marks := ?_ }
  · intro c hc
    obtain ⟨i, hi⟩ := Option.isSome_iff_exists.1 hc
    rw [World.startPile, hi]
    simp only [h.startPiles]
    exact toInt_getD_piles hi
  · intro c hc
    obtain ⟨i, hi⟩ := Option.isSome_iff_exists.1 hc
    rw [World.pile, hi]
    simp only [h.piles]
    exact toInt_getD_piles hi
  · intro c hc
    obtain ⟨i, hi⟩ := Option.isSome_iff_exists.1 hc
    rw [World.isMarked, hi]
    simp only [h.marks]
    exact getD_marks_iff hi

/-- What is decoded is what the buffers describe. -/
theorem describes_furnished (hsize : acceptsSize l.width l.height = true) {facing : Orientation}
    (hfacing : orientation (l.worldWord 11) = .ok facing) : l.Describes (l.furnished facing) := by
  have hnew := (World.unfurnished_new l.width l.height).withRobot ⟨l.robotCell, facing⟩
    ⟨l.robotCell, facing⟩ (supply (amount (l.worldWord 8))) (supply (amount (l.worldWord 8)))
  obtain ⟨hwidth, hheight⟩ := World.size_new_of_acceptsSize hsize
  rw [furnished]
  generalize World.new l.width l.height = w at hnew hwidth hheight ⊢
  exact describes_furnish hnew hwidth hheight (names_iff_cellAt.2 rfl) hfacing
    (toInt_supply_amount _) rfl rfl

/-! ## Words behind the records -/

/-- Words up to a place are read alike in whatever continues them. -/
theorem getD_eq_of_take_append {words words' : Array UInt16} {n i : Nat} {tail : List UInt16}
    (h : words'.toList = words.toList.take n ++ tail) (hn : n ≤ words.size) (hi : i < n) :
    words'.getD i 0 = words.getD i 0 := by
  have hlength : i < (words.toList.take n).length := by
    rw [List.length_take, Array.length_toList]
    omega
  rw [Array.getD_eq_getD_getElem?, Array.getD_eq_getD_getElem?, ← Array.getElem?_toList,
    ← Array.getElem?_toList, h, List.getElem?_append_left hlength, List.getElem?_take_of_lt hi]

theorem le_size_of_take_append {words words' : Array UInt16} {n : Nat} {tail : List UInt16}
    (h : words'.toList = words.toList.take n ++ tail) (hn : n ≤ words.size) : n ≤ words'.size := by
  rw [← Array.length_toList, h, List.length_append, List.length_take, Array.length_toList]
  omega

theorem map_recordAt_eq {words words' : Array UInt16} {n start count : Nat} {tail : List UInt16}
    (h : words'.toList = words.toList.take n ++ tail) (hn : n ≤ words.size)
    (hcount : start + 3 * count ≤ n) :
    (List.range count).map (recordAt words' start) = (List.range count).map (recordAt words start) := by
  apply List.map_congr_left
  intro i hi
  have hlt := List.mem_range.1 hi
  rw [recordAt, recordAt, getD_eq_of_take_append h hn (by omega),
    getD_eq_of_take_append h hn (by omega), getD_eq_of_take_append h hn (by omega)]

/-- Two pairs of buffers have the same headers and the same records. -/
structure ReadsAlike (l l' : LegacyWorld) : Prop where
  worldWord : ∀ i < 15, l'.worldWord i = l.worldWord i
  limitsWord : ∀ i < 30, l'.limitsWord i = l.limitsWord i
  wallRecords : l'.wallRecords = l.wallRecords
  pileRecords : l'.pileRecords = l.pileRecords
  cellRecords : l'.cellRecords = l.cellRecords

theorem ReadsAlike.width_eq (h : l.ReadsAlike l') : l'.width = l.width :=
  congrArg UInt16.toNat (h.worldWord 6 (by omega))

theorem ReadsAlike.height_eq (h : l.ReadsAlike l') : l'.height = l.height :=
  congrArg UInt16.toNat (h.worldWord 7 (by omega))

theorem SharesAnnounced.readsAlike (h : l.SharesAnnounced l')
    (hmet : ∀ r ∈ l.requirements, r.met = true) : l.ReadsAlike l' := by
  obtain ⟨-, hlimits, -, -, hworldRoom, -, -, hlimitsRoom⟩ := forall_met_iff.1 hmet
  obtain ⟨tail, hworld⟩ := h.world
  obtain ⟨tail', hlimits'⟩ := h.limits
  have hword : ∀ i < 15, l'.worldWord i = l.worldWord i := by
    intro i hi
    exact getD_eq_of_take_append hworld hworldRoom (by omega)
  -- the announced words of the limits are there whether cells are listed or not
  have hroom : (if l.limitsWord 27 = 0 then 30 else 30 + 3 * (l.limitsWord 28).toNat) ≤
      l.limits.size := by
    split
    · exact hlimits
    · rename_i hlists
      exact hlimitsRoom hlists
  have hlimitsWord : ∀ i < 30, l'.limitsWord i = l.limitsWord i := by
    intro i hi
    apply getD_eq_of_take_append hlimits' hroom
    split <;> omega
  have hwalls : l'.wallCount = l.wallCount := congrArg UInt16.toNat (hword 12 (by omega))
  have hpiles : l'.pileCount = l.pileCount := congrArg UInt16.toNat (hword 13 (by omega))
  refine ⟨hword, hlimitsWord, ?_, ?_, ?_⟩
  · rw [wallRecords, wallRecords, hwalls]
    exact map_recordAt_eq hworld hworldRoom (by rw [worldRecords]; omega)
  · rw [pileRecords, pileRecords, hwalls, hpiles]
    exact map_recordAt_eq hworld hworldRoom (by rw [worldRecords]; omega)
  · rw [cellRecords, cellRecords, listsCells, listsCells, hlimitsWord 27 (by omega),
      hlimitsWord 28 (by omega)]
    by_cases hlists : l.limitsWord 27 = 0
    · simp only [hlists, ne_eq, not_true_eq_false, decide_false, Bool.false_eq_true, if_false]
    · rw [if_neg hlists] at hroom hlimits'
      rw [if_pos (decide_eq_true hlists), if_pos (decide_eq_true hlists)]
      exact map_recordAt_eq hlimits' hroom (by rw [limitsRecords])

/-- Decoding looks at nothing but headers and records. -/
theorem ReadsAlike.furnished (h : l.ReadsAlike l') (facing : Orientation) :
    l'.furnished facing = l.furnished facing := by
  have hcell : l'.robotCell = l.robotCell := by
    rw [robotCell, robotCell, h.worldWord 9 (by omega), h.worldWord 10 (by omega)]
  have hsides : l'.closedSides = l.closedSides := by
    rw [closedSides, closedSides, h.wallRecords]
  have hdumps : l'.dumps = l.dumps := by
    rw [dumps, dumps, listsCells, listsCells, h.limitsWord 21 (by omega),
      h.limitsWord 24 (by omega), h.limitsWord 27 (by omega)]
  have hlimits : l'.runLimits = l.runLimits := by
    have hcap : ∀ a, l'.limitsWord (capOffset a) = l.limitsWord (capOffset a) ∧
        l'.limitsWord (capOffset a + 1) = l.limitsWord (capOffset a + 1) := by
      intro a
      have hlt : capOffset a + 1 < 30 := by cases a <;> decide
      exact ⟨h.limitsWord _ (by omega), h.limitsWord _ hlt⟩
    simp only [runLimits, h.limitsWord 1 (by omega), hcap]
  rw [LegacyWorld.furnished, LegacyWorld.furnished, furnish, furnish, h.width_eq, h.height_eq, hcell,
    hsides, hdumps, hlimits, h.worldWord 8 (by omega), h.pileRecords, h.cellRecords]

theorem SharesAnnounced.requirements_met (h : l.SharesAnnounced l')
    (hmet : ∀ r ∈ l.requirements, r.met = true) : ∀ r ∈ l'.requirements, r.met = true := by
  have halike := h.readsAlike hmet
  obtain ⟨-, hlimits, hmagic, hsize, hworldRoom, hcell, hfacing, hlimitsRoom⟩ :=
    forall_met_iff.1 hmet
  obtain ⟨tail, hworld⟩ := h.world
  obtain ⟨tail', hlimits'⟩ := h.limits
  have hwalls : l'.wallCount = l.wallCount :=
    congrArg UInt16.toNat (halike.worldWord 12 (by omega))
  have hpiles : l'.pileCount = l.pileCount :=
    congrArg UInt16.toNat (halike.worldWord 13 (by omega))
  refine forall_met_iff.2 ⟨h.worldHeader, h.limitsHeader, ?_, ?_, ?_, ?_, ?_, ?_⟩
  · -- the signature lies before the records
    have hroom : 15 + 3 * (l.wallCount + l.pileCount) ≤ l.world.size := hworldRoom
    have hlength : 5 ≤ (l.world.toList.take (15 + 3 * (l.wallCount + l.pileCount))).length := by
      rw [List.length_take, Array.length_toList]
      omega
    rw [hworld, List.take_append_of_le_length hlength, List.take_take, Nat.min_eq_left (by omega)]
    exact hmagic
  · rw [halike.width_eq, halike.height_eq]
    exact hsize
  · rw [worldWordsNeeded, hwalls, hpiles]
    exact le_size_of_take_append hworld hworldRoom
  · rw [halike.width_eq, halike.height_eq, halike.worldWord 9 (by omega),
      halike.worldWord 10 (by omega)]
    exact hcell
  · rw [halike.worldWord 11 (by omega)]
    exact hfacing
  · rw [limitsWordsNeeded, halike.limitsWord 27 (by omega), halike.limitsWord 28 (by omega)]
    intro hlists
    rw [if_neg hlists] at hlimits'
    exact le_size_of_take_append hlimits' (hlimitsRoom hlists)

theorem SharesAnnounced.decode (h : l.SharesAnnounced l') {w : World} (hdecode : l.decode = .ok w) :
    l'.decode = .ok w := by
  obtain ⟨hmet, rfl⟩ := decode_eq_ok_iff.1 hdecode
  have halike := h.readsAlike hmet
  have hfacing : l'.facing = l.facing := by
    rw [LegacyWorld.facing, LegacyWorld.facing, halike.worldWord 11 (by omega)]
  refine decode_eq_ok_iff.2 ⟨h.requirements_met hmet, ?_⟩
  rw [hfacing]
  exact halike.furnished l.facing

/-! ## The decoded world -/

theorem describes_of_decode (h : l.decode = .ok w) : l.Describes w := by
  obtain ⟨hmet, rfl⟩ := decode_eq_ok_iff.1 h
  obtain ⟨-, -, -, hsize, -, -, hfacing, -⟩ := forall_met_iff.1 hmet
  have hword : orientation (l.worldWord 11) = .ok l.facing := by
    rw [orientation_eq, if_pos hfacing]
  exact describes_furnished (World.acceptsSize_iff.2 hsize) hword

/-- Decoding never takes a word from outside the buffers. It accepts the buffers that meet every
requirement, and refuses the others for the first that they do not meet. The world is the one that the
words describe, and stays the same whatever is put behind the announced records. -/
theorem decoded_iff_required (l : LegacyWorld) :
    l.decode?.run = some l.decode ∧
    ((∃ w, l.decode = .ok w) ↔ ∀ r ∈ l.requirements, r.met = true) ∧
    (∀ err, l.decode = .error err ↔
      ∃ before r, FirstFault (fun r : Requirement => r.met = true) l.requirements before r ∧
        err = r.refusal) ∧
    ∀ w, l.decode = .ok w →
      l.Describes w ∧ ∀ l', l.SharesAnnounced l' → l'.decode = .ok w := by
  refine ⟨?_, ?_, ?_, ?_⟩
  · rw [decode?_eq]
    rfl
  · constructor
    · rintro ⟨w, hw⟩
      exact (decode_eq_ok_iff.1 hw).1
    · intro hmet
      exact ⟨_, decode_eq_ok_iff.2 ⟨hmet, rfl⟩⟩
  · intro err
    rw [decode_eq_settle]
    exact Requirement.settle_eq_error_iff
  · intro w hw
    exact ⟨describes_of_decode hw, fun l' h => h.decode hw⟩

/-- Buffers of a grid of three columns and two rows. A wall is listed from the far side, a mask has
more than four bits, a record lies outside the grid, and two piles lie on one cell. -/
def cottage : LegacyWorld where
  world := #[0x414B, 0x4552, 0x204C, 0x4D4F, 0x2E49, 0, 3, 2, 0xFFFF, 2, 1, 4, 3, 3, 0,
    1, 1, 0x102, 3, 1, 1, 9, 9, 15,
    2, 2, 4, 1, 2, 7, 2, 2, 0xFFFF, 77]
  limits := #[0, 0, 0, 1, 5, 0, 0, 0, 0, 0, 0, 0, 0, 0, 0, 1, 9, 0, 0, 0, 0, 0, 0, 0, 1, 0, 0, 1, 1, 0,
    3, 2, 0, 88]

theorem decoded_iff_required_cottage :
    cottage.decode?.run = some cottage.decode ∧
    (∃ w, cottage.decode = .ok w ∧
      (w.Closed ⟨1, 1⟩ .north ∧ w.Closed ⟨1, 2⟩ .east ∧ ¬ w.Closed ⟨1, 1⟩ .east) ∧
      (w.pile ⟨2, 1⟩).toInt = 7 ∧ (w.pile ⟨2, 2⟩).toInt = -1 ∧ w.isMarked ⟨2, 3⟩ = true ∧
      LegacyWorld.decode
        { world := cottage.world.pop ++ #[5, 6], limits := cottage.limits.pop } = .ok w) ∧
    LegacyWorld.decode { cottage with limits := #[] } = .error (.tooShort .limits 30 0) := by
  obtain ⟨haccess, haccepts, -, hmeans⟩ := decoded_iff_required cottage
  obtain ⟨w, hw⟩ := haccepts.2 (by decide)
  obtain ⟨hdescribes, htail⟩ := hmeans w hw
  have hcontains : ∀ c, w.contains c = (World.bare 3 2).contains c :=
    World.contains_congr hdescribes.width hdescribes.height
  refine ⟨haccess, ⟨w, hw, ⟨?_, ?_, ?_⟩, ?_, ?_, ?_, ?_⟩, ?_⟩
  · rw [hdescribes.walls _ _ ((hcontains _).trans (by decide))]
    exact .inr ⟨_, List.mem_cons_self, .inl (by decide)⟩
  · rw [hdescribes.walls _ _ ((hcontains _).trans (by decide)), hcontains]
    exact .inr ⟨_, List.mem_cons_of_mem _ List.mem_cons_self, .inr (by decide)⟩
  · rw [hdescribes.walls _ _ ((hcontains _).trans (by decide)), hcontains]
    rintro (hborder | hrecord)
    · rw [World.isBorder_congr (w := World.bare 3 2) hdescribes.width hdescribes.height] at hborder
      exact absurd hborder (by decide)
    · exact absurd hrecord (by decide)
  · exact (hdescribes.pile _ ((hcontains _).trans (by decide))).trans (by decide)
  · exact (hdescribes.pile _ ((hcontains _).trans (by decide))).trans (by decide)
  · rw [hdescribes.marks _ ((hcontains _).trans (by decide))]
    decide
  · exact htail _ ⟨by decide, by decide, ⟨[5, 6], rfl⟩, ⟨[], rfl⟩⟩
  · -- the header of the limits is missed before anything else
    obtain ⟨-, -, hrefuses, -⟩ := decoded_iff_required { cottage with limits := #[] }
    refine (hrefuses _).2 ⟨[_], _, ⟨⟨_, rfl⟩, ?_, ?_⟩, rfl⟩
    · decide
    · decide

end LegacyWorld

end GridRobot
