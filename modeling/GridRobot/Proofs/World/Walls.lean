import GridRobot.Proofs.World.Grid

/-!
# Walls

A wall between two cells is stored twice, as a bit of each cell's mask. `World.Closed` reads one of
these bits, and every operation on walls is described by the sides it closes or opens
(`closed_addWall`, `closed_toggleWall`, `closed_closeBorder`), for every cell and every side at once.

`World.Walled` is what all of them preserve: masks have four bits, the border is closed, and the two
bits of a wall agree.
-/

set_option autoImplicit false

namespace GridRobot

theorem Orientation.testBit_bit (a b : Orientation) : a.bit.testBit b.index = decide (b = a) := by
  cases a <;> cases b <;> rfl

theorem Orientation.bit_lt (o : Orientation) : o.bit < 16 := by
  cases o <;> decide

/-- What holds of all entries and is kept by a function holds after the function is applied to one. -/
theorem forall_mem_modify {α : Type} {entries : Array α} {P : α → Prop} {f : α → α} (i : Nat)
    (h : ∀ x ∈ entries, P x) (hf : ∀ x, P x → P (f x)) : ∀ x ∈ entries.modify i f, P x := by
  intro x hx
  obtain ⟨j, hj, rfl⟩ := Array.mem_iff_getElem.1 hx
  rw [Array.getElem_modify]
  split
  · exact hf _ (h _ (Array.getElem_mem _))
  · exact h _ (Array.getElem_mem _)

theorem getD_modify {α : Type} {entries : Array α} {f : α → α} {fill : α} {i j : Nat}
    (hj : j < entries.size) :
    (entries.modify i f).getD j fill =
      if i = j then f (entries.getD j fill) else entries.getD j fill := by
  have hj' : j < (entries.modify i f).size := by rwa [Array.size_modify]
  simp only [Array.getD, hj, hj', dif_pos, Array.getInternal_eq_getElem, Array.getElem_modify]

namespace World

variable {w : World} {a c : Cell} {e d : Orientation}

/-- A side of a cell is closed. -/
def Closed (w : World) (c : Cell) (side : Orientation) : Prop :=
  (w.mask c).testBit side.index = true

instance (w : World) (c : Cell) (side : Orientation) : Decidable (w.Closed c side) :=
  inferInstanceAs (Decidable (_ = true))

/-- Which sides are closed is a matter of the size and the masks. -/
theorem closed_congr {v : World} (hwidth : v.width = w.width) (hheight : v.height = w.height)
    (hwalls : v.walls = w.walls) (c : Cell) (side : Orientation) :
    v.Closed c side ↔ w.Closed c side := by
  rw [Closed, Closed, mask, mask, index?, index?, hwidth, hheight, hwalls]

/-- The world with the mask of one cell changed. -/
def modifyMask (w : World) (c : Cell) (f : Nat → Nat) : World :=
  match w.index? c with
  | some i => { w with walls := w.walls.modify i f }
  | none => w

/-- Two names of one side: a cell and the side, or the cell beyond and its side that faces back. -/
def SameSide (a : Cell) (e : Orientation) (c : Cell) (d : Orientation) : Prop :=
  c = a ∧ d = e ∨ c = a.beyond e ∧ d = e.opposite

instance : Decidable (SameSide a e c d) :=
  inferInstanceAs (Decidable (c = a ∧ d = e ∨ c = a.beyond e ∧ d = e.opposite))

/-- A side has the same names seen from the cell beyond. -/
theorem sameSide_beyond_iff : SameSide a e (c.beyond d) d.opposite ↔ SameSide a e c d := by
  constructor
  · rintro (⟨rfl, rfl⟩ | ⟨hcell, hside⟩)
    · exact .inr ⟨by simp, by simp⟩
    · obtain rfl : d = e := by simpa using congrArg Orientation.opposite hside
      refine .inl ⟨?_, rfl⟩
      simpa using congrArg (Cell.beyond · d.opposite) hcell
  · rintro (⟨rfl, rfl⟩ | ⟨rfl, rfl⟩)
    · exact .inr ⟨rfl, rfl⟩
    · exact .inl ⟨by simp, by simp⟩

theorem mask_modifyMask (hw : w.walls.size = w.width * w.height) (f : Nat → Nat) :
    (w.modifyMask a f).mask c =
      if c = a ∧ w.contains c = true then f (w.mask c) else w.mask c := by
  rw [modifyMask]
  split
  · rename_i i hi
    have hindex : ({ w with walls := w.walls.modify i f } : World).index? c = w.index? c := rfl
    -- the place that changes is the place of the cell exactly if the cells are the same
    cases hk : w.index? c with
    | none =>
      have hnot : ¬ w.contains c = true := by simp [contains, hk]
      simp [mask, hindex, hk, hnot]
    | some k =>
      have hlt : k < w.walls.size := by
        rw [hw]
        exact gridIndex?_lt hk
      have hcontains := contains_of_index? hk
      have heq : i = k ↔ c = a := by
        constructor
        · rintro rfl
          exact gridIndex?_inj hk hi
        · rintro rfl
          exact Option.some.inj (hi.symm.trans hk)
      simp [mask, hindex, hk, getD_modify hlt, heq, hcontains]
  · rename_i hnone
    rw [if_neg]
    rintro ⟨rfl, hcontains⟩
    simp [contains, hnone] at hcontains

theorem exists_modifyMask (w : World) (a : Cell) (f : Nat → Nat) :
    ∃ walls, walls.size = w.walls.size ∧ w.modifyMask a f = { w with walls } := by
  rw [modifyMask]
  split
  · exact ⟨_, Array.size_modify, rfl⟩
  · exact ⟨w.walls, rfl, rfl⟩

@[simp] theorem contains_modifyMask (f : Nat → Nat) :
    (w.modifyMask a f).contains c = w.contains c := by
  obtain ⟨walls, -, h⟩ := exists_modifyMask w a f
  rw [h]
  rfl

/-- Changing the masks on the two sides of a wall by `f`, which acts on the bit of the side as `g`
says, changes that bit under both names of the side. -/
theorem testBit_modifyMask_beyond (hw : w.walls.size = w.width * w.height)
    {f : Orientation → Nat → Nat} {g : Bool → Bool → Bool}
    (hf : ∀ o m d, (f o m).testBit (Orientation.index d) =
      g (m.testBit d.index) (decide (d = o)))
    (hg : ∀ b, g b false = b) (hc : w.contains c = true) :
    (((w.modifyMask a (f e)).modifyMask (a.beyond e) (f e.opposite)).mask c).testBit d.index =
      g ((w.mask c).testBit d.index) (decide (SameSide a e c d)) := by
  have hw' : (w.modifyMask a (f e)).walls.size =
      (w.modifyMask a (f e)).width * (w.modifyMask a (f e)).height := by
    obtain ⟨walls, hsize, h⟩ := exists_modifyMask w a (f e)
    rw [h]
    exact hsize.trans hw
  rw [mask_modifyMask hw', mask_modifyMask hw, contains_modifyMask]
  simp only [hc, and_true]
  -- the cell is one of the two that share the side, or neither of them
  by_cases hca : c = a
  · have hcb : ¬ c = a.beyond e := by
      intro h
      exact Cell.beyond_ne a e (h.symm.trans hca)
    have hside : SameSide a e c d ↔ d = e := by simp [SameSide, hca, (Cell.beyond_ne a e).symm]
    rw [if_neg hcb, if_pos hca, hf]
    simp only [hside]
  · by_cases hcb : c = a.beyond e
    · have hside : SameSide a e c d ↔ d = e.opposite := by simp [SameSide, hcb, Cell.beyond_ne]
      rw [if_pos hcb, if_neg hca, hf]
      simp only [hside]
    · have hside : ¬ SameSide a e c d := by simp [SameSide, hca, hcb]
      rw [if_neg hcb, if_neg hca, decide_eq_false hside, hg]

/-! ## Adding and flipping walls -/

theorem addWall_eq (hw : w.Sized) (hcontains : w.contains a = true) :
    w.addWall a e =
      (w.modifyMask a (· ||| e.bit)).modifyMask (a.beyond e) (· ||| e.opposite.bit) := by
  obtain ⟨i, hi⟩ := Option.isSome_iff_exists.1 hcontains
  have hindex : ({ w with walls := w.walls.modify i (· ||| e.bit) } : World).index? (a.beyond e) =
      w.index? (a.beyond e) := rfl
  cases hj : w.index? (a.beyond e) with
  | none => simp only [addWall, modifyMask, hi, neighborIndex?_eq hw hcontains, hindex, hj]
  | some j => simp only [addWall, modifyMask, hi, neighborIndex?_eq hw hcontains, hindex, hj]

theorem addWall_of_not_contains (hcontains : ¬ w.contains a = true) : w.addWall a e = w := by
  simp [addWall, index?_eq_none_of_not_contains hcontains]

theorem toggleWall_eq (hw : w.Sized) (hcontains : w.contains a = true)
    (hbeyond : w.contains (a.beyond e) = true) :
    w.toggleWall a e =
      (w.modifyMask a (· ^^^ e.bit)).modifyMask (a.beyond e) (· ^^^ e.opposite.bit) := by
  obtain ⟨i, hi⟩ := Option.isSome_iff_exists.1 hcontains
  obtain ⟨j, hj⟩ := Option.isSome_iff_exists.1 hbeyond
  have hindex : ({ w with walls := w.walls.modify i (· ^^^ e.bit) } : World).index? (a.beyond e) =
      some j := hj
  simp [toggleWall, modifyMask, hi, neighborIndex?_eq hw hcontains, hj, hindex]

theorem toggleWall_of_not_contains
    (h : ¬ (w.contains a = true ∧ w.contains (a.beyond e) = true)) : w.toggleWall a e = w := by
  rw [toggleWall]
  split
  · rename_i i j hi hj
    have hbeyond : w.index? (a.beyond e) = some j := by
      rw [neighborIndex?] at hj
      split at hj
      · exact absurd hj (by simp)
      · exact hj
    exact absurd ⟨contains_of_index? hi, contains_of_index? hbeyond⟩ h
  · rfl

theorem not_closed_of_not_contains (hc : ¬ w.contains c = true) : ¬ w.Closed c d := by
  simp [Closed, mask, index?_eq_none_of_not_contains hc]

/-- Adding a wall closes the side under both of its names, and nothing else. -/
theorem closed_addWall (hw : w.Sized) :
    (w.addWall a e).Closed c d ↔
      w.Closed c d ∨ w.contains a = true ∧ w.contains c = true ∧ SameSide a e c d := by
  -- outside the grid nothing is added, and nothing is closed
  by_cases ha : w.contains a = true
  · rw [addWall_eq hw ha]
    by_cases hc : w.contains c = true
    · have hbit := testBit_modifyMask_beyond (a := a) (e := e) (d := d) hw.walls
        (f := fun o m => m ||| o.bit) (g := or)
        (by intro o m d; rw [Nat.testBit_or, Orientation.testBit_bit]) (by simp) hc
      simp [Closed, hbit, ha, hc]
    · have hc' : ¬ ((w.modifyMask a (· ||| e.bit)).modifyMask (a.beyond e)
          (· ||| e.opposite.bit)).contains c = true := by simpa using hc
      simp [not_closed_of_not_contains hc', not_closed_of_not_contains hc, hc]
  · rw [addWall_of_not_contains ha]
    simp [ha]

/-- Flipping an inner wall flips the side under both of its names, and nothing else. -/
theorem closed_toggleWall (hw : w.Sized) (hc : w.contains c = true) :
    (w.toggleWall a e).Closed c d ↔
      (w.Closed c d ↔ ¬ (w.contains a = true ∧ w.contains (a.beyond e) = true ∧
        SameSide a e c d)) := by
  by_cases ha : w.contains a = true ∧ w.contains (a.beyond e) = true
  · obtain ⟨ha, hb⟩ := ha
    have hbit := testBit_modifyMask_beyond (a := a) (e := e) (d := d) hw.walls
      (f := fun o m => m ^^^ o.bit) (g := xor)
      (by intro o m d; rw [Nat.testBit_xor, Orientation.testBit_bit]) (by simp) hc
    rw [toggleWall_eq hw ha hb]
    simp only [Closed, hbit, ha, hb, true_and]
    by_cases hside : SameSide a e c d <;> simp [hside]
  · rw [toggleWall_of_not_contains ha]
    have hnot : ¬ (w.contains a = true ∧ w.contains (a.beyond e) = true ∧ SameSide a e c d) := by
      rintro ⟨hcontains, hbeyond, -⟩
      exact ha ⟨hcontains, hbeyond⟩
    simp [hnot]

/-! ## Closing many sides -/

/-- Closes sides one after the other. -/
def closeSides (w : World) (sides : List (Cell × Orientation)) : World :=
  sides.foldl (fun w s => w.addWall s.1 s.2) w

theorem closeBorder_eq (w : World) : w.closeBorder = w.closeSides (borderSides w.width w.height) :=
  rfl

theorem exists_addWall (w : World) (a : Cell) (e : Orientation) :
    ∃ walls, walls.size = w.walls.size ∧ w.addWall a e = { w with walls } := by
  rw [addWall]
  split
  · exact ⟨w.walls, rfl, rfl⟩
  · split
    · exact ⟨_, by simp, rfl⟩
    · exact ⟨_, by simp, rfl⟩

theorem exists_toggleWall (w : World) (a : Cell) (e : Orientation) :
    ∃ walls, walls.size = w.walls.size ∧ w.toggleWall a e = { w with walls } := by
  rw [toggleWall]
  split
  · exact ⟨_, by simp, rfl⟩
  · exact ⟨w.walls, rfl, rfl⟩

/-- Closing sides changes nothing but the masks. -/
theorem exists_closeSides (w : World) (sides : List (Cell × Orientation)) :
    ∃ walls, walls.size = w.walls.size ∧ w.closeSides sides = { w with walls } := by
  induction sides generalizing w with
  | nil => exact ⟨w.walls, rfl, rfl⟩
  | cons s sides ih =>
    obtain ⟨walls, hsize, h⟩ := exists_addWall w s.1 s.2
    obtain ⟨walls', hsize', h'⟩ := ih (w.addWall s.1 s.2)
    rw [h] at hsize' h'
    refine ⟨walls', hsize'.trans hsize, ?_⟩
    show (w.addWall s.1 s.2).closeSides sides = _
    rw [h, h']

theorem Sized.withWalls (hw : w.Sized) {walls : Array Nat} (hsize : walls.size = w.walls.size) :
    Sized { w with walls } :=
  { hw with walls := hsize.trans hw.walls }

theorem Sized.addWall (hw : w.Sized) (a : Cell) (e : Orientation) : (w.addWall a e).Sized := by
  obtain ⟨walls, hsize, h⟩ := exists_addWall w a e
  rw [h]
  exact hw.withWalls hsize

@[simp] theorem contains_addWall : (w.addWall a e).contains c = w.contains c := by
  obtain ⟨walls, -, h⟩ := exists_addWall w a e
  rw [h]
  rfl

@[simp] theorem contains_toggleWall : (w.toggleWall a e).contains c = w.contains c := by
  obtain ⟨walls, -, h⟩ := exists_toggleWall w a e
  rw [h]
  rfl

/-- Closing sides closes each of them that belongs to the grid, and nothing else. -/
theorem closed_closeSides (hw : w.Sized) (sides : List (Cell × Orientation)) :
    (w.closeSides sides).Closed c d ↔
      w.Closed c d ∨ ∃ s ∈ sides, w.contains s.1 = true ∧ w.contains c = true ∧
        SameSide s.1 s.2 c d := by
  induction sides generalizing w with
  | nil => simp [closeSides]
  | cons s sides ih =>
    -- the grid stays as large as it was, so the rest closes what it would have closed at once
    show ((w.addWall s.1 s.2).closeSides sides).Closed c d ↔ _
    rw [ih (hw.addWall s.1 s.2), closed_addWall hw]
    simp only [contains_addWall, List.mem_cons, exists_eq_or_imp, or_assoc]

/-- The border consists of the sides of cells that lie in line with it. -/
theorem mem_borderSides_iff (hw : w.Sized) :
    (c, d) ∈ borderSides w.width w.height ↔ w.contains c = true ∧ w.isBorder c d = true := by
  obtain ⟨hwidth, hwidth', hheight, hheight', -⟩ := hw
  simp only [borderSides, List.mem_append, List.mem_flatMap, List.mem_range, List.mem_cons,
    List.not_mem_nil, or_false, Prod.mk.injEq, contains_iff, isBorder_iff]
  constructor
  · -- south and north for each column, west and east for each row
    rintro (⟨col, hcol, ⟨rfl, rfl⟩ | ⟨rfl, rfl⟩⟩ | ⟨row, hrow, ⟨rfl, rfl⟩ | ⟨rfl, rfl⟩⟩)
    · have hcell := @Cell.toInt_ofNat 1 (col + 1) (by omega) (by omega)
      simp only [hcell]
      omega
    · have hcell := @Cell.toInt_ofNat w.height (col + 1) (by omega) (by omega)
      simp only [hcell, and_true]
      omega
    · have hcell := @Cell.toInt_ofNat (row + 1) 1 (by omega) (by omega)
      simp only [hcell]
      omega
    · have hcell := @Cell.toInt_ofNat (row + 1) w.width (by omega) (by omega)
      simp only [hcell, and_true]
      omega
  · rintro ⟨hc, hborder⟩
    cases d with
    | south =>
      refine .inl ⟨(c.col.toInt - 1).toNat, by omega, .inl ⟨?_, rfl⟩⟩
      exact Cell.eq_ofNat (by omega) (by omega) hborder (by omega)
    | north =>
      refine .inl ⟨(c.col.toInt - 1).toNat, by omega, .inr ⟨?_, rfl⟩⟩
      exact Cell.eq_ofNat (by omega) (by omega) hborder (by omega)
    | west =>
      refine .inr ⟨(c.row.toInt - 1).toNat, by omega, .inl ⟨?_, rfl⟩⟩
      exact Cell.eq_ofNat (by omega) (by omega) (by omega) hborder
    | east =>
      refine .inr ⟨(c.row.toInt - 1).toNat, by omega, .inr ⟨?_, rfl⟩⟩
      exact Cell.eq_ofNat (by omega) (by omega) (by omega) hborder

/-- Closing the border closes the sides in line with it, and nothing else. -/
theorem closed_closeBorder (hw : w.Sized) :
    w.closeBorder.Closed c d ↔ w.Closed c d ∨ w.contains c = true ∧ w.isBorder c d = true := by
  rw [closeBorder_eq, closed_closeSides hw]
  apply or_congr_right
  constructor
  · rintro ⟨⟨a, e⟩, hmem, ha, hc, ⟨rfl, rfl⟩ | ⟨rfl, rfl⟩⟩
    · exact ⟨hc, ((mem_borderSides_iff hw).1 hmem).2⟩
    · -- a border side has no second name in the grid
      have hborder := ((mem_borderSides_iff hw).1 hmem).2
      rw [(contains_beyond_iff hw ha).1 hc] at hborder
      exact absurd hborder (by simp)
  · rintro ⟨hc, hborder⟩
    exact ⟨(c, d), (mem_borderSides_iff hw).2 ⟨hc, hborder⟩, hc, hc, .inl ⟨rfl, rfl⟩⟩

/-! ## What all walls have in common -/

/-- Masks have four bits, and the two bits of an inner wall agree. -/
structure Mirrored (w : World) : Prop where
  mask_lt : ∀ m ∈ w.walls, m < 16
  symm : ∀ c d, w.contains c = true → w.contains (c.beyond d) = true →
    (w.Closed c d ↔ w.Closed (c.beyond d) d.opposite)

/-- The walls of a world are mirrored and its border is closed. -/
structure Walled (w : World) : Prop extends Mirrored w where
  border : ∀ c d, w.contains c = true → w.isBorder c d = true → w.Closed c d

theorem Mirrored.addWall (hw : w.Sized) (h : w.Mirrored) (a : Cell) (e : Orientation) :
    (w.addWall a e).Mirrored where
  mask_lt := by
    have hor : ∀ (o : Orientation) (m : Nat), m < 16 → m ||| o.bit < 16 := by
      intro o m hm
      exact Nat.or_lt_two_pow (n := 4) hm o.bit_lt
    rw [World.addWall]
    split
    · exact h.mask_lt
    · split
      · exact forall_mem_modify _ (forall_mem_modify _ h.mask_lt (hor _)) (hor _)
      · exact forall_mem_modify _ h.mask_lt (hor _)
  symm c d hc hcd := by
    rw [contains_addWall] at hc hcd
    rw [closed_addWall hw, closed_addWall hw, sameSide_beyond_iff, h.symm c d hc hcd]
    simp only [hc, hcd]

theorem Mirrored.toggleWall (hw : w.Sized) (h : w.Mirrored) (a : Cell) (e : Orientation) :
    (w.toggleWall a e).Mirrored where
  mask_lt := by
    have hxor : ∀ (o : Orientation) (m : Nat), m < 16 → m ^^^ o.bit < 16 := by
      intro o m hm
      exact Nat.xor_lt_two_pow (n := 4) hm o.bit_lt
    rw [World.toggleWall]
    split
    · exact forall_mem_modify _ (forall_mem_modify _ h.mask_lt (hxor _)) (hxor _)
    · exact h.mask_lt
  symm c d hc hcd := by
    rw [contains_toggleWall] at hc hcd
    rw [closed_toggleWall hw hc, closed_toggleWall hw hcd, sameSide_beyond_iff, h.symm c d hc hcd]

theorem Mirrored.closeSides (hw : w.Sized) (h : w.Mirrored) (sides : List (Cell × Orientation)) :
    (w.closeSides sides).Mirrored := by
  induction sides generalizing w with
  | nil => exact h
  | cons s sides ih => exact ih (hw.addWall s.1 s.2) (h.addWall hw s.1 s.2)

theorem Walled.addWall (hw : w.Sized) (h : w.Walled) (a : Cell) (e : Orientation) :
    (w.addWall a e).Walled where
  toMirrored := h.toMirrored.addWall hw a e
  border c d hc hborder := by
    obtain ⟨walls, -, heq⟩ := exists_addWall w a e
    rw [contains_addWall] at hc
    rw [closed_addWall hw]
    rw [heq] at hborder
    exact .inl (h.border c d hc hborder)

theorem Walled.toggleWall (hw : w.Sized) (h : w.Walled) (a : Cell) (e : Orientation) :
    (w.toggleWall a e).Walled where
  toMirrored := h.toMirrored.toggleWall hw a e
  border c d hc hborder := by
    obtain ⟨walls, -, heq⟩ := exists_toggleWall w a e
    rw [contains_toggleWall] at hc
    rw [heq] at hborder
    rw [closed_toggleWall hw hc]
    -- a border side is none that a flip reaches: the cell beyond it lies outside the grid
    refine iff_of_true (h.border c d hc hborder) ?_
    rintro ⟨ha, hb, ⟨rfl, rfl⟩ | ⟨rfl, rfl⟩⟩
    · rw [contains_beyond_iff hw ha] at hb
      exact absurd (hb.symm.trans hborder) (by simp)
    · have hback : w.contains ((a.beyond e).beyond e.opposite) = true := by simpa using ha
      rw [contains_beyond_iff hw hc] at hback
      exact absurd (hback.symm.trans hborder) (by simp)

/-- Closing the border completes mirrored walls. -/
theorem Mirrored.closeBorder (hw : w.Sized) (h : w.Mirrored) : w.closeBorder.Walled where
  toMirrored := by
    rw [closeBorder_eq]
    exact h.closeSides hw _
  border c d hc hborder := by
    obtain ⟨walls, -, heq⟩ := exists_closeSides w (borderSides w.width w.height)
    rw [closed_closeBorder hw]
    rw [closeBorder_eq, heq] at hc hborder
    exact .inr ⟨hc, hborder⟩

end World

end GridRobot
