import GridRobot.Proofs.World.Settled

/-!
# The walls that a document describes

A document gives a wall by the corners of the lattice between which it runs, as plain numbers. Loading
turns the numbers into words, those that do not fit into a word outside every grid, and names the wall
by a cell and a side. This module says what comes of it in terms of the corners alone: a segment is
accepted exactly if it has two ends at distance one (`Segment.side_eq_error_iff`), and it closes
exactly the sides of cells whose corners it joins (`Segment.sameSide_iff_joins`).
-/

set_option autoImplicit false

namespace GridRobot

/-! ## Numbers and words -/

theorem toInt_coordinate (n : UInt32) :
    (coordinate n).toInt = if n.toNat < 2147483648 then (n.toNat : Int) else 2147483646 := by
  rw [coordinate]
  split
  · rename_i hlt
    exact Int32.toInt_ofNat_of_lt hlt
  · rfl

/-- The coordinate after a number. The largest word wraps around and leaves every grid on the other
side. -/
theorem toInt_coordinate_add_one (n : UInt32) :
    (coordinate n + 1).toInt =
      if n.toNat < 2147483647 then (n.toNat : Int) + 1
      else if n.toNat = 2147483647 then -2147483648 else 2147483647 := by
  have hone : (1 : Int32).toInt = 1 := rfl
  have hvalue := toInt_coordinate n
  by_cases hlt : n.toNat < 2147483648
  · rw [if_pos hlt] at hvalue
    by_cases hmax : n.toNat = 2147483647
    · have hword : coordinate n = 2147483647 := by
        apply Int32.toInt_inj.1
        rw [hvalue, hmax]
        rfl
      rw [if_neg (by omega), if_pos hmax, hword]
      rfl
    · rw [if_pos (by omega), toInt_add_of_bounds (by omega) (by omega), hvalue, hone]
  · rw [if_neg hlt] at hvalue
    rw [if_neg (by omega), if_neg (by omega), toInt_add_of_bounds (by omega) (by omega), hvalue, hone]
    rfl

section Coordinates

variable {r : Int32} {n : UInt32}

/-- A coordinate in reach of a grid is the number that is written. -/
theorem eq_coordinate_iff (hr : r.toInt ≤ sideMax) : r = coordinate n ↔ r.toInt = n.toNat := by
  rw [sideMax] at hr
  rw [← Int32.toInt_inj, toInt_coordinate]
  split <;> omega

/-- A coordinate in reach of a grid is the one after a corner exactly if the numbers say so. -/
theorem eq_coordinate_add_one_iff (hone : 1 ≤ r.toInt) (hr : r.toInt ≤ sideMax) :
    r = coordinate n + 1 ↔ r.toInt = n.toNat + 1 := by
  rw [sideMax] at hr
  rw [← Int32.toInt_inj, toInt_coordinate_add_one]
  split
  · omega
  · split <;> omega

end Coordinates

/-! ## Corners -/

/-- A corner of the lattice. -/
structure Corner where
  x : Int
  y : Int
  deriving DecidableEq, Repr

/-- The two corners of a side of a cell. The south-west corner of a cell has the numbers before those of
the cell. -/
def Cell.corners (c : Cell) : Orientation → Corner × Corner
  | .west => (⟨c.col.toInt - 1, c.row.toInt - 1⟩, ⟨c.col.toInt - 1, c.row.toInt⟩)
  | .north => (⟨c.col.toInt - 1, c.row.toInt⟩, ⟨c.col.toInt, c.row.toInt⟩)
  | .east => (⟨c.col.toInt, c.row.toInt - 1⟩, ⟨c.col.toInt, c.row.toInt⟩)
  | .south => (⟨c.col.toInt - 1, c.row.toInt - 1⟩, ⟨c.col.toInt, c.row.toInt - 1⟩)

namespace Segment

/-- The ends of a segment, if exactly one of its second coordinates is given. -/
def ends? (s : Segment) : Option (Corner × Corner) :=
  match s.x2, s.y2 with
  | some x2, none => some (⟨s.x1.toNat, s.y1.toNat⟩, ⟨x2.toNat, s.y1.toNat⟩)
  | none, some y2 => some (⟨s.x1.toNat, s.y1.toNat⟩, ⟨s.x1.toNat, y2.toNat⟩)
  | _, _ => none

/-- A segment has two ends, at distance one. -/
def IsUnit (s : Segment) : Prop :=
  ∃ p q, s.ends? = some (p, q) ∧ (p.x - q.x).natAbs + (p.y - q.y).natAbs = 1

/-- A segment has these two corners as its ends, in either order. -/
def Joins (s : Segment) (ends : Corner × Corner) : Prop :=
  s.ends? = some ends ∨ s.ends? = some (ends.2, ends.1)

instance (s : Segment) (ends : Corner × Corner) : Decidable (s.Joins ends) :=
  inferInstanceAs (Decidable (_ ∨ _))

variable {s : Segment}

/-- The side that a segment closes, by the direction in which it runs. -/
theorem side_eq_ok_iff {a : Cell} {e : Orientation} :
    s.side = .ok (a, e) ↔
      (∃ x2, s.x2 = some x2 ∧ s.y2 = none ∧ cornerDistance s.x1 x2 = 1 ∧
          a = ⟨coordinate s.y1 + 1, coordinate (min s.x1 x2) + 1⟩ ∧ e = .south) ∨
        ∃ y2, s.x2 = none ∧ s.y2 = some y2 ∧ cornerDistance s.y1 y2 = 1 ∧
          a = ⟨coordinate (min s.y1 y2) + 1, coordinate s.x1 + 1⟩ ∧ e = .west := by
  obtain ⟨x1, y1, x2, y2⟩ := s
  cases x2 with
  | none =>
    cases y2 with
    | none => simp [side]
    | some y2 =>
      simp only [side]
      split <;> simp_all [eq_comm]
  | some x2 =>
    cases y2 with
    | none =>
      simp only [side]
      split <;> simp_all [eq_comm]
    | some y2 => simp [side]

theorem isUnit_iff_of_ends? {p q : Corner} (h : s.ends? = some (p, q)) :
    s.IsUnit ↔ (p.x - q.x).natAbs + (p.y - q.y).natAbs = 1 := by
  constructor
  · rintro ⟨p', q', hends, hdistance⟩
    obtain ⟨rfl, rfl⟩ := Prod.mk.inj (Option.some.inj (h.symm.trans hends))
    exact hdistance
  · intro hdistance
    exact ⟨p, q, h, hdistance⟩

instance (s : Segment) : Decidable s.IsUnit :=
  match h : s.ends? with
  | some (_, _) => decidable_of_iff _ (isUnit_iff_of_ends? h).symm
  | none => isFalse fun ⟨_, _, hends, _⟩ => absurd (h.symm.trans hends) (by simp)

theorem isUnit_iff_exists_side : s.IsUnit ↔ ∃ side, s.side = .ok side := by
  obtain ⟨x1, y1, x2, y2⟩ := s
  cases x2 with
  | none =>
    cases y2 with
    | none => simp [IsUnit, ends?, side]
    | some y2 =>
      rw [isUnit_iff_of_ends? rfl]
      simp only [side, cornerDistance]
      by_cases hunit : y1.toNat - y2.toNat + (y2.toNat - y1.toNat) = 1
      · exact iff_of_true (by omega) ⟨_, if_pos hunit⟩
      · exact iff_of_false (by omega) (by simp [hunit])
  | some x2 =>
    cases y2 with
    | none =>
      rw [isUnit_iff_of_ends? rfl]
      simp only [side, cornerDistance]
      by_cases hunit : x1.toNat - x2.toNat + (x2.toNat - x1.toNat) = 1
      · exact iff_of_true (by omega) ⟨_, if_pos hunit⟩
      · exact iff_of_false (by omega) (by simp [hunit])
    | some y2 => simp [IsUnit, ends?, side]

/-- A segment that is refused is named. -/
theorem side_eq_error_iff {err : LoadError} :
    s.side = .error err ↔ ¬ s.IsUnit ∧ err = .invalidWall s := by
  have herror : ∀ err, s.side = .error err → err = .invalidWall s := by
    intro err h
    rw [side] at h
    split at h
    · split at h
      · exact absurd h (by simp)
      · exact (Except.error.inj h).symm
    · split at h
      · exact absurd h (by simp)
      · exact (Except.error.inj h).symm
    · exact (Except.error.inj h).symm
  rw [isUnit_iff_exists_side]
  cases hside : s.side with
  | ok a => simp
  | error err' =>
    obtain rfl := herror err' hside
    simp [eq_comm]

theorem toNat_min (a b : UInt32) : (min a b).toNat = min a.toNat b.toNat := by
  show (if a ≤ b then a else b).toNat = _
  split <;> rename_i hle <;> rw [UInt32.le_iff_toNat_le] at hle <;> omega

/-- A horizontal segment joins the corners of the sides north and south of it. -/
theorem joins_horizontal_iff {x1 y1 x2 : UInt32} (hunit : cornerDistance x1 x2 = 1) {c : Cell}
    {d : Orientation} :
    Joins { x1, y1, x2 := some x2 } (c.corners d) ↔
      c.col.toInt = (min x1 x2).toNat + 1 ∧
        (c.row.toInt = y1.toNat + 1 ∧ d = .south ∨ c.row.toInt = y1.toNat ∧ d = .north) := by
  rw [cornerDistance] at hunit
  rw [toNat_min]
  cases d <;>
    simp only [Joins, ends?, Cell.corners, Option.some.injEq, Prod.mk.injEq,
      Corner.mk.injEq, reduceCtorEq, and_true, and_false, or_false, false_or, iff_false] <;>
    omega

/-- A vertical segment joins the corners of the sides west and east of it. -/
theorem joins_vertical_iff {x1 y1 y2 : UInt32} (hunit : cornerDistance y1 y2 = 1) {c : Cell}
    {d : Orientation} :
    Joins { x1, y1, y2 := some y2 } (c.corners d) ↔
      c.row.toInt = (min y1 y2).toNat + 1 ∧
        (c.col.toInt = x1.toNat + 1 ∧ d = .west ∨ c.col.toInt = x1.toNat ∧ d = .east) := by
  rw [cornerDistance] at hunit
  rw [toNat_min]
  cases d <;>
    simp only [Joins, ends?, Cell.corners, Option.some.injEq, Prod.mk.injEq,
      Corner.mk.injEq, reduceCtorEq, and_true, and_false, or_false, false_or, iff_false] <;>
    omega

/-- A segment closes the sides whose corners it joins, seen from any cell in reach of a grid. -/
theorem sameSide_iff_joins {a c : Cell} {e d : Orientation} (h : s.side = .ok (a, e))
    (hrow : 1 ≤ c.row.toInt ∧ c.row.toInt ≤ sideMax)
    (hcol : 1 ≤ c.col.toInt ∧ c.col.toInt ≤ sideMax) :
    World.SameSide a e c d ↔ s.Joins (c.corners d) := by
  obtain ⟨x1, y1, x2, y2⟩ := s
  have hcell : ∀ row col : Int32, c = ⟨row, col⟩ ↔ c.row = row ∧ c.col = col := by
    intro row col
    rw [Cell.mk.injEq]
  -- the cell beyond a side to the south or west has the number of the corner itself
  have hback : ∀ n : Int32, n + 1 + -1 = n := by
    intro n
    rw [← Int32.sub_eq_add_neg, Int32.add_sub_cancel]
  have hzero : ∀ n : Int32, n + 0 = n := Int32.add_zero
  rcases side_eq_ok_iff.1 h with ⟨x2, rfl, rfl, hunit, rfl, rfl⟩ | ⟨y2, rfl, rfl, hunit, rfl, rfl⟩
  · rw [joins_horizontal_iff hunit, World.SameSide, Cell.beyond]
    simp only [Orientation.rowStep, Orientation.colStep, Orientation.opposite, hback, hzero, hcell,
      eq_coordinate_iff hrow.2, eq_coordinate_add_one_iff hrow.1 hrow.2,
      eq_coordinate_add_one_iff hcol.1 hcol.2]
    grind
  · rw [joins_vertical_iff hunit, World.SameSide, Cell.beyond]
    simp only [Orientation.rowStep, Orientation.colStep, Orientation.opposite, hback, hzero, hcell,
      eq_coordinate_iff hcol.2, eq_coordinate_add_one_iff hrow.1 hrow.2,
      eq_coordinate_add_one_iff hcol.1 hcol.2]
    grind

/-! ## Lists of segments -/

/-- Segments are read one after the other, up to the first that is refused. -/
theorem mapM_side_cons (s : Segment) (walls : List Segment) :
    (s :: walls).mapM side =
      s.side.bind fun a => (walls.mapM side).bind fun sides => .ok (a :: sides) :=
  List.mapM_cons

/-- The sides that segments close are those that each of them closes. -/
theorem mem_iff_of_mapM_side {walls : List Segment} {sides : List (Cell × Orientation)}
    (h : walls.mapM side = .ok sides) (a : Cell × Orientation) :
    a ∈ sides ↔ ∃ s ∈ walls, s.side = .ok a := by
  induction walls generalizing sides with
  | nil =>
    obtain rfl := Except.ok.inj h
    simp
  | cons s walls ih =>
    rw [mapM_side_cons] at h
    obtain ⟨b, hb, h⟩ := bind_eq_ok_iff.1 h
    obtain ⟨rest, hrest, h⟩ := bind_eq_ok_iff.1 h
    obtain rfl := Except.ok.inj h
    rw [List.mem_cons, ih hrest]
    simp [hb, eq_comm]

/-- Segments are accepted together if each of them is. -/
theorem exists_mapM_side_iff {walls : List Segment} :
    (∃ sides, walls.mapM side = .ok sides) ↔ ∀ s ∈ walls, s.IsUnit := by
  induction walls with
  | nil => exact iff_of_true ⟨[], rfl⟩ (by simp)
  | cons s walls ih =>
    rw [List.forall_mem_cons, ← ih, isUnit_iff_exists_side, mapM_side_cons]
    simp only [bind_eq_ok_iff, Except.ok.injEq]
    constructor
    · rintro ⟨-, a, ha, sides, hsides, -⟩
      exact ⟨⟨a, ha⟩, sides, hsides⟩
    · rintro ⟨⟨a, ha⟩, sides, hsides⟩
      exact ⟨_, a, ha, sides, hsides, rfl⟩

/-- The first segment that is refused is the one that is named. -/
theorem mapM_side_eq_error_iff {walls : List Segment} {err : LoadError} :
    walls.mapM side = .error err ↔
      ∃ before s after, walls = before ++ s :: after ∧ (∀ t ∈ before, t.IsUnit) ∧ ¬ s.IsUnit ∧
        err = .invalidWall s := by
  constructor
  · intro h
    induction walls with
    | nil => exact absurd h (by simp [pure, Except.pure])
    | cons s walls ih =>
      rw [mapM_side_cons] at h
      cases hside : s.side with
      | error err' =>
        rw [hside] at h
        obtain rfl := Except.error.inj h
        obtain ⟨hbad, rfl⟩ := side_eq_error_iff.1 hside
        exact ⟨[], s, walls, rfl, by simp, hbad, rfl⟩
      | ok a =>
        have hgood : s.IsUnit := isUnit_iff_exists_side.2 ⟨a, hside⟩
        rw [hside] at h
        cases hrest : walls.mapM side with
        | ok sides =>
          rw [hrest] at h
          exact absurd h (by simp [Except.bind])
        | error err' =>
          rw [hrest] at h
          obtain rfl := Except.error.inj h
          obtain ⟨before, t, after, rfl, hbefore, hbad, rfl⟩ := ih hrest
          exact ⟨s :: before, t, after, rfl, List.forall_mem_cons.2 ⟨hgood, hbefore⟩, hbad, rfl⟩
  · rintro ⟨before, s, after, rfl, hbefore, hbad, rfl⟩
    induction before with
    | nil =>
      rw [List.nil_append, mapM_side_cons, side_eq_error_iff.2 ⟨hbad, rfl⟩]
      rfl
    | cons t before ih =>
      obtain ⟨hgood, hbefore⟩ := List.forall_mem_cons.1 hbefore
      obtain ⟨a, ha⟩ := isUnit_iff_exists_side.1 hgood
      rw [List.cons_append, mapM_side_cons, ha, ih hbefore]
      rfl

end Segment

end GridRobot
