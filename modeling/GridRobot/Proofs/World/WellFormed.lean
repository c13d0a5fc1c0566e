import GridRobot.Proofs.World.Resize

/-!
# Well-formed worlds

A world is well formed if its size is admissible and its arrays have one entry for each cell, its walls
are mirrored and its border is closed, every amount of buzzers is a count or endless, and the parts of
the report are listed once each in their order. New worlds are well formed, and every edit and every
action of the robot keeps a world so, wherever it is aimed.
-/

set_option autoImplicit false

namespace GridRobot

/-! ## Amounts -/

theorem infinite_le_iff {n : Int32} : infinite ≤ n ↔ -1 ≤ n.toInt := by
  rw [Int32.le_iff_toInt_le]
  rfl

theorem infinite_le_supply (n : Int32) : infinite ≤ supply n := by
  rw [supply]
  split
  · -- a negative number asks for an endless supply
    exact infinite_le_iff.2 (by decide)
  · rename_i hn
    rw [Int32.lt_iff_toInt_lt] at hn
    have hzero : (0 : Int32).toInt = 0 := rfl
    exact infinite_le_iff.2 (by omega)

/-- What is a count or endless is kept as it is. -/
theorem supply_of_infinite_le {n : Int32} (h : infinite ≤ n) : supply n = n := by
  rw [supply]
  split
  · rename_i hn
    rw [infinite_le_iff] at h
    rw [Int32.lt_iff_toInt_lt] at hn
    have hzero : (0 : Int32).toInt = 0 := rfl
    have hminus : infinite.toInt = -1 := rfl
    exact Int32.toInt_inj.1 (by omega)
  · rfl

theorem infinite_le_oneMore {n : Int32} (h : infinite ≤ n) : infinite ≤ oneMore n := by
  rw [oneMore]
  split
  · exact h
  · rename_i hn
    -- a finite amount below the largest one has room for one more
    rw [infinite_le_iff] at h ⊢
    have hmax : ¬ n.toInt = 2147483647 := fun hmax => hn (.inr (Int32.toInt_inj.1 hmax))
    have hlt := n.toInt_lt
    have hone : (1 : Int32).toInt = 1 := rfl
    rw [toInt_add_of_bounds (by omega) (by omega)]
    omega

theorem infinite_le_oneLess {n : Int32} (h : infinite ≤ n) : infinite ≤ oneLess n := by
  rw [oneLess]
  split
  · exact h
  · rename_i hn
    rw [infinite_le_iff] at h ⊢
    have hminus : ¬ n.toInt = -1 := fun hminus => hn (Int32.toInt_inj.1 hminus)
    have hone : (1 : Int32).toInt = 1 := rfl
    have hsub : (n - 1).toInt = n.toInt - 1 := by
      rw [Int32.toInt_sub, hone]
      exact Int.bmod_eq_of_le (by omega) (by have := n.toInt_lt; omega)
    omega

theorem forall_mem_setIfInBounds {α : Type} {entries : Array α} {P : α → Prop} {v : α} (i : Nat)
    (h : ∀ x ∈ entries, P x) (hv : P v) : ∀ x ∈ entries.setIfInBounds i v, P x := by
  intro x hx
  rcases Array.mem_or_eq_of_mem_setIfInBounds hx with hmem | rfl
  · exact h x hmem
  · exact hv

namespace DumpKind

theorem mem_all (k : DumpKind) : k ∈ all := by
  cases k with
  | action a => cases a <;> decide
  | _ => decide

/-- A selection in the order of the parts is determined by its members. -/
theorem filter_all_eq (p : DumpKind → Bool) : all.filter p = all.filter (all.filter p).contains := by
  apply List.filter_congr
  intro k _
  rw [Bool.eq_iff_iff, List.contains_iff_mem, List.mem_filter]
  constructor
  · intro hk
    exact ⟨mem_all k, hk⟩
  · exact And.right

end DumpKind

namespace World

/-- Every amount of buzzers is a count or endless. -/
structure Stocked (w : World) : Prop where
  startPiles : ∀ n ∈ w.startPiles, infinite ≤ n
  piles : ∀ n ∈ w.piles, infinite ≤ n
  startBag : infinite ≤ w.startBag
  bag : infinite ≤ w.bag

/-- What holds of every world. -/
structure WellFormed (w : World) : Prop where
  sized : w.Sized
  walled : w.Walled
  stocked : w.Stocked
  /-- The parts of the report are listed once each, in their order. -/
  dumps : w.dumps = DumpKind.all.filter w.hasDump

variable {w v : World}

/-- Walls do not depend on anything but the grid and its masks. -/
theorem Walled.congr (h : w.Walled) (hwidth : v.width = w.width) (hheight : v.height = w.height)
    (hwalls : v.walls = w.walls) : v.Walled := by
  cases v
  cases w
  subst hwidth hheight hwalls
  exact ⟨⟨h.mask_lt, h.symm⟩, h.border⟩

theorem Stocked.congr (h : w.Stocked) (hstartPiles : v.startPiles = w.startPiles)
    (hpiles : v.piles = w.piles) (hstartBag : v.startBag = w.startBag) (hbag : v.bag = w.bag) :
    v.Stocked := by
  cases v
  cases w
  subst hstartPiles hpiles hstartBag hbag
  exact ⟨h.startPiles, h.piles, h.startBag, h.bag⟩

theorem infinite_le_getD {piles : Array Int32} (h : ∀ n ∈ piles, infinite ≤ n) (i : Nat) :
    infinite ≤ piles.getD i 0 := by
  rw [Array.getD]
  split
  · exact h _ (Array.getElem_mem _)
  · decide

theorem Stocked.startPile (h : w.Stocked) (c : Cell) : infinite ≤ w.startPile c := by
  rw [World.startPile]
  split
  · exact infinite_le_getD h.startPiles _
  · decide

theorem Stocked.pile (h : w.Stocked) (c : Cell) : infinite ≤ w.pile c := by
  rw [World.pile]
  split
  · exact infinite_le_getD h.piles _
  · decide

/-! ## Walls -/

/-- A world that differs from a well-formed one in its masks is well formed if its walls are. -/
theorem WellFormed.withWalls (h : w.WellFormed) {walls : Array Nat}
    (hsize : walls.size = w.walls.size) (hwalled : Walled { w with walls }) :
    WellFormed { w with walls } where
  sized := h.sized.withWalls hsize
  walled := hwalled
  stocked := h.stocked.congr rfl rfl rfl rfl
  dumps := h.dumps

theorem WellFormed.addWall (h : w.WellFormed) (c : Cell) (side : Orientation) :
    (w.addWall c side).WellFormed := by
  rcases exists_addWall w c side with ⟨walls, hsize, heq⟩
  have hwalled := h.walled.addWall h.sized c side
  rw [heq] at hwalled ⊢
  exact h.withWalls hsize hwalled

theorem WellFormed.toggleWall (h : w.WellFormed) (c : Cell) (side : Orientation) :
    (w.toggleWall c side).WellFormed := by
  rcases exists_toggleWall w c side with ⟨walls, hsize, heq⟩
  have hwalled := h.walled.toggleWall h.sized c side
  rw [heq] at hwalled ⊢
  exact h.withWalls hsize hwalled

/-- Closing the border completes a world. -/
theorem wellFormed_closeBorder (hsized : w.Sized) (hmirrored : w.Mirrored) (hstocked : w.Stocked)
    (hdumps : w.dumps = DumpKind.all.filter w.hasDump) : w.closeBorder.WellFormed := by
  have hwalled := hmirrored.closeBorder hsized
  rcases exists_closeSides w (borderSides w.width w.height) with ⟨walls, hsize, heq⟩
  rw [closeBorder_eq, heq] at hwalled ⊢
  exact
    { sized := hsized.withWalls hsize
      walled := hwalled
      stocked := hstocked.congr rfl rfl rfl rfl
      dumps := hdumps }

/-! ## Buzzers, marks and the rest -/

/-- A world that differs from a well-formed one in its buzzers is well formed if they are. -/
theorem WellFormed.withStock (h : w.WellFormed) {startPiles piles : Array Int32}
    {startBag bag : Int32} (hstartSize : startPiles.size = w.startPiles.size)
    (hsize : piles.size = w.piles.size)
    (hstocked : Stocked { w with startPiles, piles, startBag, bag }) :
    WellFormed { w with startPiles, piles, startBag, bag } where
  sized :=
    { h.sized with
      startPiles := hstartSize.trans h.sized.startPiles
      piles := hsize.trans h.sized.piles }
  walled := h.walled.congr rfl rfl rfl
  stocked := hstocked
  dumps := h.dumps

/-- Names, poses and limits do not matter. -/
theorem WellFormed.withSettings (h : w.WellFormed) (name programName : String)
    (pose startPose : Pose) (limits : Limits) :
    WellFormed { w with name, programName, pose, startPose, limits } where
  sized := { h.sized with }
  walled := h.walled.congr rfl rfl rfl
  stocked := h.stocked.congr rfl rfl rfl rfl
  dumps := h.dumps

theorem WellFormed.setPile (h : w.WellFormed) (c : Cell) (n : Int32) :
    (w.setPile c n).WellFormed := by
  rw [World.setPile]
  split
  · exact h
  · refine h.withStock (by simp) (by simp) ⟨?_, ?_, h.stocked.startBag, h.stocked.bag⟩
    · exact forall_mem_setIfInBounds _ h.stocked.startPiles (infinite_le_supply n)
    · exact forall_mem_setIfInBounds _ h.stocked.piles (infinite_le_supply n)

theorem WellFormed.pick (h : w.WellFormed) (c : Cell) : (w.pick c).WellFormed := by
  rw [World.pick]
  split
  · exact h
  · split
    · exact h
    · exact h.withStock rfl (by simp)
        ⟨h.stocked.startPiles,
          forall_mem_modify _ h.stocked.piles fun _ => infinite_le_oneLess,
          h.stocked.startBag, infinite_le_oneMore h.stocked.bag⟩

theorem WellFormed.leave (h : w.WellFormed) (c : Cell) : (w.leave c).WellFormed := by
  rw [World.leave]
  split
  · exact h
  · split
    · exact h
    · exact h.withStock rfl (by simp)
        ⟨h.stocked.startPiles,
          forall_mem_modify _ h.stocked.piles fun _ => infinite_le_oneMore,
          h.stocked.startBag, infinite_le_oneLess h.stocked.bag⟩

theorem WellFormed.setBag (h : w.WellFormed) (n : Int32) : (w.setBag n).WellFormed :=
  h.withStock rfl rfl
    ⟨h.stocked.startPiles, h.stocked.piles, infinite_le_supply n, infinite_le_supply n⟩

theorem WellFormed.moveTo (h : w.WellFormed) (c : Cell) : (w.moveTo c).WellFormed :=
  h.withSettings _ _ _ _ _

theorem WellFormed.rotate (h : w.WellFormed) (o : Orientation) : (w.rotate o).WellFormed :=
  h.withSettings _ _ _ _ _

/-- No action of the robot spoils a world. -/
theorem WellFormed.perform (h : w.WellFormed) (a : Action) : (w.perform a).WellFormed := by
  cases a with
  | forward => exact h.withSettings _ _ _ _ _
  | left => exact h.withSettings _ _ _ _ _
  | pickBuzzer => exact h.pick _
  | leaveBuzzer => exact h.leave _

theorem WellFormed.setMark (h : w.WellFormed) (c : Cell) (enabled : Bool) :
    (w.setMark c enabled).WellFormed := by
  rw [World.setMark]
  split
  · exact h
  · exact
      { sized := { h.sized with marks := Array.size_setIfInBounds.trans h.sized.marks }
        walled := h.walled.congr rfl rfl rfl
        stocked := h.stocked.congr rfl rfl rfl rfl
        dumps := h.dumps }

theorem WellFormed.setDump (h : w.WellFormed) (k : DumpKind) (enabled : Bool) :
    (w.setDump k enabled).WellFormed where
  sized := { h.sized with }
  walled := h.walled.congr rfl rfl rfl
  stocked := h.stocked.congr rfl rfl rfl rfl
  dumps := by
    cases enabled with
    | true =>
      show k.select w.dumps = DumpKind.all.filter (k.select w.dumps).contains
      rw [DumpKind.select]
      exact DumpKind.filter_all_eq _
    | false =>
      -- taking a part out leaves the others in their order
      show k.unselect w.dumps = DumpKind.all.filter (k.unselect w.dumps).contains
      rw [DumpKind.unselect, h.dumps, List.filter_filter]
      exact DumpKind.filter_all_eq _

/-- Masks of nothing but zeros close no side. -/
theorem not_closed_of_replicate {n : Nat} (h : w.walls = Array.replicate n 0) (c : Cell)
    (d : Orientation) : ¬ w.Closed c d := by
  have hmask : w.mask c = 0 := by
    rw [mask]
    split
    · rw [h, Array.getD_eq_getD_getElem?, Array.getElem?_replicate]
      split <;> rfl
    · rfl
  simp [Closed, hmask]

theorem mirrored_of_replicate {n : Nat} (h : w.walls = Array.replicate n 0) : w.Mirrored where
  mask_lt := by
    intro m hm
    rw [h, Array.mem_replicate] at hm
    omega
  symm c d _ _ := by
    simp only [not_closed_of_replicate h]

theorem infinite_le_of_mem_replicate {n : Nat} :
    ∀ x ∈ Array.replicate n (0 : Int32), infinite ≤ x := by
  intro x hx
  rcases Array.mem_replicate.1 hx with ⟨-, rfl⟩
  decide

theorem bare_sized {width height : Nat} (hwidth : 1 ≤ width) (hwidth' : width ≤ sideMax)
    (hheight : 1 ≤ height) (hheight' : height ≤ sideMax) : (bare width height).Sized where
  one_le_width := hwidth
  width_le := hwidth'
  one_le_height := hheight
  height_le := hheight'
  walls := Array.size_replicate
  startPiles := Array.size_replicate
  piles := Array.size_replicate
  marks := Array.size_replicate

theorem acceptsSize_iff {width height : Nat} :
    acceptsSize width height = true ↔
      (1 ≤ width ∧ width ≤ 10000) ∧ 1 ≤ height ∧ height ≤ 10000 := by
  simp only [acceptsSize, Bool.and_eq_true, decide_eq_true_eq]
  rfl

theorem bare_sized_of_acceptsSize {width height : Nat} (h : acceptsSize width height = true) :
    (bare width height).Sized := by
  obtain ⟨⟨hwidth, hwidth'⟩, hheight, hheight'⟩ := acceptsSize_iff.1 h
  exact bare_sized hwidth hwidth' hheight hheight'

theorem wellFormed_new (width height : Nat) : (new width height).WellFormed := by
  rcases clampSide_bounds width with ⟨hwidth, hwidth'⟩
  rcases clampSide_bounds height with ⟨hheight, hheight'⟩
  have hbag : infinite ≤ 0 := by decide
  refine wellFormed_closeBorder (bare_sized hwidth hwidth' hheight hheight')
    (mirrored_of_replicate rfl) ?_ rfl
  exact ⟨infinite_le_of_mem_replicate, infinite_le_of_mem_replicate, hbag, hbag⟩

theorem WellFormed.clear (h : w.WellFormed) : w.clear.WellFormed := by
  refine wellFormed_closeBorder ?_ (mirrored_of_replicate rfl) ?_ h.dumps
  · exact
      { h.sized with
        walls := Array.size_replicate
        startPiles := Array.size_replicate
        piles := Array.size_replicate
        marks := Array.size_replicate }
  · exact ⟨infinite_le_of_mem_replicate, infinite_le_of_mem_replicate, h.stocked.startBag,
      h.stocked.bag⟩

theorem WellFormed.resize (h : w.WellFormed) (width height : Nat) :
    (w.resize width height).WellFormed := by
  rw [resize_eq]
  split
  · exact h
  · -- the new border closes what the reframed walls leave open
    have hv := reframed_sized w width height
    refine wellFormed_closeBorder hv (reframed_mirrored h.sized hv h.walled.toMirrored) ?_ h.dumps
    exact ⟨forall_mem_reframe h.stocked.startPiles (by decide) _ _ _ _,
      forall_mem_reframe h.stocked.piles (by decide) _ _ _ _, h.stocked.startBag, h.stocked.bag⟩

theorem WellFormed.reset (h : w.WellFormed) : w.reset.WellFormed :=
  (h.withStock rfl (h.sized.startPiles.trans h.sized.piles.symm)
    ⟨h.stocked.startPiles, h.stocked.startPiles, h.stocked.startBag, h.stocked.startBag⟩).withSettings
    _ _ _ _ _

end World

end GridRobot
