import GridRobot.Proofs.Machine.Failure
import GridRobot.Proofs.World.Reachable

/-!
# Buzzers are not lost

An instruction moves at most one buzzer, between the pile under the robot and the bag. An endless
supply stays endless and a finite one stays finite, since nothing is taken where nothing is left
(`SameSupplies`). Where all supplies are finite, their sum is kept, with one exception: a buzzer that
is moved to where the largest count is already held is gone (`Spills`). As long as the sum itself does
not exceed the largest count, this does not happen.

A `Turn` is an instruction with all it finds apart from the world, and with the pose of the robot, so
that what is said of sequences of turns holds of every run (`exists_turns_after`) and beyond.
-/

set_option autoImplicit false

namespace GridRobot

/-! ## One more and one less -/

section Amounts

variable {n : Int32}

theorem toInt_infinite : infinite.toInt = -1 :=
  rfl

theorem toInt_countMax : countMax.toInt = 2147483647 :=
  rfl

/-- A supply that has any buzzers is endless after one is taken exactly if it was before. -/
theorem oneLess_eq_infinite_iff (h : n ≠ 0) : oneLess n = infinite ↔ n = infinite := by
  rw [oneLess]
  split
  · rfl
  · rename_i hfinite
    refine iff_of_false ?_ hfinite
    intro hless
    apply h
    have hback : n - 1 + 1 = infinite + 1 := congrArg (· + 1) hless
    rwa [Int32.sub_add_cancel] at hback

theorem toInt_oneMore (hfinite : n ≠ infinite) (h : infinite ≤ n) :
    (oneMore n).toInt = if n = countMax then n.toInt else n.toInt + 1 := by
  rw [oneMore]
  by_cases hmax : n = countMax
  · rw [if_pos (.inr hmax), if_pos hmax]
  · have hne : ¬ n.toInt = 2147483647 := fun heq => hmax (Int32.toInt_inj.1 heq)
    have hlt := n.toInt_lt
    have hone : (1 : Int32).toInt = 1 := rfl
    rw [infinite_le_iff] at h
    rw [if_neg (not_or.2 ⟨hfinite, hmax⟩), if_neg hmax, toInt_add_of_bounds (by omega) (by omega),
      hone]

theorem oneMore_eq_infinite_iff (h : infinite ≤ n) : oneMore n = infinite ↔ n = infinite := by
  by_cases hfinite : n = infinite
  · rw [oneMore, if_pos (.inl hfinite)]
  · refine iff_of_false ?_ hfinite
    -- one more than a count is a count
    intro hmore
    have hvalue := toInt_oneMore hfinite h
    have hne : ¬ n.toInt = -1 := fun heq => hfinite (Int32.toInt_inj.1 heq)
    rw [hmore, toInt_infinite] at hvalue
    rw [infinite_le_iff] at h
    split at hvalue <;> omega

theorem toInt_oneLess (hfinite : n ≠ infinite) (h : infinite ≤ n) :
    (oneLess n).toInt = n.toInt - 1 := by
  have hone : (1 : Int32).toInt = 1 := rfl
  have hlt := n.toInt_lt
  rw [infinite_le_iff] at h
  rw [oneLess, if_neg hfinite, Int32.toInt_sub, hone]
  exact Int.bmod_eq_of_le (by omega) (by omega)

/-- A finite supply is not negative. -/
theorem zero_le_of_finite (hfinite : n ≠ infinite) (h : infinite ≤ n) : 0 ≤ n.toInt := by
  have hne : ¬ n.toInt = -1 := fun heq => hfinite (Int32.toInt_inj.1 heq)
  rw [infinite_le_iff] at h
  omega

end Amounts

/-! ## Turns -/

/-- An instruction with what it finds apart from the world, and with the pose of the robot. -/
structure Turn where
  instruction : Instruction
  machine : Machine
  queue : List Event
  pose : Pose

namespace World

variable {w v : World}

/-- The world after a turn. -/
def played (w : World) (t : Turn) : World :=
  (execute t.instruction ⟨t.machine, { w with pose := t.pose }, t.queue⟩).1.world

/-- The world after several turns. -/
def playedAll (w : World) (ts : List Turn) : World :=
  ts.foldl played w

/-- A turn does what the action of its instruction does, from the pose of the turn. -/
theorem played_eq (w : World) (t : Turn) :
    w.played t =
      (t.instruction.action?.map ({ w with pose := t.pose } : World).perform).getD
        { w with pose := t.pose } :=
  execute_world _ _

theorem WellFormed.withPose (h : w.WellFormed) (pose : Pose) : WellFormed { w with pose } :=
  h.withSettings _ _ _ _ _

theorem WellFormed.played (h : w.WellFormed) (t : Turn) : (w.played t).WellFormed :=
  (h.withPose t.pose).execute _ _ _

theorem WellFormed.playedAll (h : w.WellFormed) (ts : List Turn) : (w.playedAll ts).WellFormed := by
  induction ts generalizing w with
  | nil => exact h
  | cons t ts ih => exact ih (h.played t)

/-- A step of a session is a turn, or leaves the world alone. -/
theorem exists_turns_next (s : Session) : ∃ ts, s.next.world = s.world.playedAll ts := by
  cases hdue : s.due? with
  | none =>
    refine ⟨[], ?_⟩
    rcases Session.next_of_due?_eq_none hdue with hnext | hnext | ⟨f, -, -, hnext⟩ <;>
      rw [hnext] <;> rfl
  | some i =>
    refine ⟨[⟨i, Session.advanced s.machine i, s.queue, s.world.pose⟩], ?_⟩
    exact Session.next_world_of_due? hdue

/-- A run is a sequence of turns. -/
theorem exists_turns_after (s : Session) (n : Nat) :
    ∃ ts, (s.after n).world = s.world.playedAll ts := by
  induction n with
  | zero => exact ⟨[], rfl⟩
  | succ n ih =>
    obtain ⟨ts, hts⟩ := ih
    obtain ⟨ts', hts'⟩ := exists_turns_next (s.after n)
    refine ⟨ts ++ ts', ?_⟩
    show (s.after n).next.world = _
    rw [hts', hts, playedAll, playedAll, playedAll, List.foldl_append]

/-! ## Moving a buzzer -/

/-- The world with one pile changed and with another bag. -/
def withPile (w : World) (i : Nat) (f : Int32 → Int32) (bag : Int32) : World :=
  { w with piles := w.piles.modify i f, bag }

theorem pile_of_index? {c : Cell} {i : Nat} (hi : w.index? c = some i) :
    w.pile c = w.piles.getD i 0 := by
  rw [World.pile, hi]

theorem pile_of_index?_eq_none {c : Cell} (h : w.index? c = none) : w.pile c = 0 := by
  rw [World.pile, h]

/-- Picking takes from the pile of a cell, unless that is empty. -/
theorem pick_cases (w : World) (c : Cell) :
    w.pile c = 0 ∧ w.pick c = w ∨
      w.pile c ≠ 0 ∧ ∃ i, w.index? c = some i ∧ w.pick c = w.withPile i oneLess (oneMore w.bag) := by
  cases hi : w.index? c with
  | none => exact .inl ⟨pile_of_index?_eq_none hi, by simp only [World.pick, hi]⟩
  | some i =>
    rw [pile_of_index? hi]
    by_cases hempty : w.piles.getD i 0 = 0
    · exact .inl ⟨hempty, by simp only [World.pick, hi, if_pos hempty]⟩
    · exact .inr ⟨hempty, i, rfl, by simp only [World.pick, hi, if_neg hempty]; rfl⟩

/-- Leaving adds to the pile of a cell of the grid, unless the bag is empty. -/
theorem leave_cases (w : World) (c : Cell) :
    (w.index? c = none ∨ w.bag = 0) ∧ w.leave c = w ∨
      w.bag ≠ 0 ∧ ∃ i, w.index? c = some i ∧ w.leave c = w.withPile i oneMore (oneLess w.bag) := by
  cases hi : w.index? c with
  | none => exact .inl ⟨.inl rfl, by simp only [World.leave, hi]⟩
  | some i =>
    by_cases hempty : w.bag = 0
    · exact .inl ⟨.inr hempty, by simp only [World.leave, hi, if_pos hempty]⟩
    · exact .inr ⟨hempty, i, rfl, by simp only [World.leave, hi, if_neg hempty]; rfl⟩

/-- A changed pile is the pile of one cell. -/
theorem pile_withPile (hw : w.Sized) {a : Cell} {i : Nat} (hi : w.index? a = some i)
    (f : Int32 → Int32) (bag : Int32) (c : Cell) :
    (w.withPile i f bag).pile c = if c = a then f (w.pile c) else w.pile c := by
  have hindex : (w.withPile i f bag).index? c = w.index? c := rfl
  cases hj : w.index? c with
  | none =>
    have hne : c ≠ a := by
      rintro rfl
      exact absurd (hj.symm.trans hi) (by simp)
    rw [if_neg hne, pile_of_index?_eq_none hj, pile_of_index?_eq_none (hindex.trans hj)]
  | some j =>
    have hlt : j < w.piles.size := hw.piles ▸ gridIndex?_lt hj
    rw [pile_of_index? hj, pile_of_index? (hindex.trans hj)]
    -- the place that changes is that of the cell exactly if the two cells are the same
    by_cases hca : c = a
    · subst hca
      obtain rfl : i = j := Option.some.inj (hi.symm.trans hj)
      rw [if_pos rfl]
      exact (getD_modify hlt).trans (if_pos rfl)
    · have hij : i ≠ j := by
        rintro rfl
        exact hca (gridIndex?_inj hj hi)
      rw [if_neg hca]
      exact (getD_modify hlt).trans (if_neg hij)

/-! ## Endless supplies -/

/-- The same cells have endless piles, and the bags are both endless or both finite. -/
structure SameSupplies (w v : World) : Prop where
  pile : ∀ c, v.pile c = infinite ↔ w.pile c = infinite
  bag : v.bag = infinite ↔ w.bag = infinite

theorem SameSupplies.refl (w : World) : w.SameSupplies w :=
  ⟨fun _ => Iff.rfl, Iff.rfl⟩

theorem SameSupplies.trans {u : World} (h : w.SameSupplies v) (h' : v.SameSupplies u) :
    w.SameSupplies u :=
  ⟨fun c => (h'.pile c).trans (h.pile c), h'.bag.trans h.bag⟩

/-- Changing one pile and the bag keeps the supplies if it keeps these two. -/
theorem sameSupplies_withPile (hw : w.Sized) {a : Cell} {i : Nat} (hi : w.index? a = some i)
    {f : Int32 → Int32} {bag : Int32} (hpile : f (w.pile a) = infinite ↔ w.pile a = infinite)
    (hbag : bag = infinite ↔ w.bag = infinite) : w.SameSupplies (w.withPile i f bag) := by
  refine ⟨?_, hbag⟩
  intro c
  rw [pile_withPile hw hi]
  split
  · rename_i hca
    rw [hca]
    exact hpile
  · rfl

theorem WellFormed.sameSupplies_pick (h : w.WellFormed) (c : Cell) :
    w.SameSupplies (w.pick c) := by
  rcases w.pick_cases c with ⟨-, hsame⟩ | ⟨hsource, i, hi, hmoved⟩
  · rw [hsame]
    exact .refl w
  · rw [hmoved]
    exact sameSupplies_withPile h.sized hi (oneLess_eq_infinite_iff hsource)
      (oneMore_eq_infinite_iff h.stocked.bag)

theorem WellFormed.sameSupplies_leave (h : w.WellFormed) (c : Cell) :
    w.SameSupplies (w.leave c) := by
  rcases w.leave_cases c with ⟨-, hsame⟩ | ⟨hsource, i, hi, hmoved⟩
  · rw [hsame]
    exact .refl w
  · rw [hmoved]
    exact sameSupplies_withPile h.sized hi (oneMore_eq_infinite_iff (h.stocked.pile c))
      (oneLess_eq_infinite_iff hsource)

theorem WellFormed.sameSupplies_perform (h : w.WellFormed) (a : Action) :
    w.SameSupplies (w.perform a) := by
  cases a with
  | forward | left => exact ⟨fun _ => Iff.rfl, Iff.rfl⟩
  | pickBuzzer => exact h.sameSupplies_pick _
  | leaveBuzzer => exact h.sameSupplies_leave _

theorem WellFormed.sameSupplies_played (h : w.WellFormed) (t : Turn) :
    w.SameSupplies (w.played t) := by
  have hposed : w.SameSupplies { w with pose := t.pose } := ⟨fun _ => Iff.rfl, Iff.rfl⟩
  rw [played_eq]
  cases t.instruction.action? with
  | none => exact hposed
  | some a => exact hposed.trans ((h.withPose t.pose).sameSupplies_perform a)

theorem WellFormed.sameSupplies_playedAll (h : w.WellFormed) (ts : List Turn) :
    w.SameSupplies (w.playedAll ts) := by
  induction ts generalizing w with
  | nil => exact .refl w
  | cons t ts ih => exact (h.sameSupplies_played t).trans (ih (h.played t))

/-! ## The sum of all buzzers -/

/-- No supply is endless. -/
structure Exhaustible (w : World) : Prop where
  pile : ∀ c, w.pile c ≠ infinite
  bag : w.bag ≠ infinite

/-- The piles of a world are the entries of its list of piles. -/
theorem exhaustible_of_not_mem (hpiles : infinite ∉ w.piles.toList) (hbag : w.bag ≠ infinite) :
    w.Exhaustible := by
  refine ⟨?_, hbag⟩
  intro c
  cases hi : w.index? c with
  | none =>
    rw [pile_of_index?_eq_none hi]
    decide
  | some i =>
    rw [pile_of_index? hi, Array.getD]
    split
    · rename_i hlt
      intro hendless
      exact hpiles (hendless ▸ Array.mem_toList_iff.2 (Array.getElem_mem hlt))
    · decide

theorem Exhaustible.sameSupplies (h : w.Exhaustible) (hsame : w.SameSupplies v) : v.Exhaustible :=
  ⟨fun c => (hsame.pile c).not.2 (h.pile c), hsame.bag.not.2 h.bag⟩

/-- The sum of some counts and of what is held elsewhere. -/
def totalWith (elsewhere : Int) (counts : List Int32) : Int :=
  counts.foldr (fun n total => n.toInt + total) elsewhere

theorem totalWith_cons (elsewhere : Int) (n : Int32) (counts : List Int32) :
    totalWith elsewhere (n :: counts) = n.toInt + totalWith elsewhere counts :=
  rfl

theorem totalWith_eq (elsewhere elsewhere' : Int) (counts : List Int32) :
    totalWith elsewhere' counts = totalWith elsewhere counts + (elsewhere' - elsewhere) := by
  induction counts with
  | nil =>
    show elsewhere' = elsewhere + (elsewhere' - elsewhere)
    omega
  | cons n counts ih =>
    rw [totalWith_cons, totalWith_cons, ih]
    omega

/-- Replacing a count changes the sum by the new count less the old one. -/
theorem totalWith_set (elsewhere elsewhere' : Int) (n : Int32) {counts : List Int32} {i : Nat}
    (hi : i < counts.length) :
    totalWith elsewhere' (counts.set i n) =
      totalWith elsewhere counts + (n.toInt - counts[i].toInt) + (elsewhere' - elsewhere) := by
  induction counts generalizing i with
  | nil => exact absurd hi (Nat.not_lt_zero i)
  | cons m counts ih =>
    cases i with
    | zero =>
      rw [List.set_cons_zero, totalWith_cons, totalWith_cons, totalWith_eq elsewhere,
        List.getElem_cons_zero]
      omega
    | succ i =>
      rw [List.set_cons_succ, totalWith_cons, totalWith_cons, ih (Nat.lt_of_succ_lt_succ hi),
        List.getElem_cons_succ]
      omega

/-- Where no count is negative, what is held elsewhere is a part of the sum. -/
theorem le_totalWith (elsewhere : Int) {counts : List Int32} (h : ∀ n ∈ counts, 0 ≤ n.toInt) :
    elsewhere ≤ totalWith elsewhere counts := by
  induction counts with
  | nil => exact Int.le_refl elsewhere
  | cons n counts ih =>
    obtain ⟨hn, hcounts⟩ := List.forall_mem_cons.1 h
    have hrest := ih hcounts
    rw [totalWith_cons]
    omega

/-- Where no count is negative, each of them is a part of the sum too. -/
theorem add_le_totalWith {elsewhere : Int} {counts : List Int32} (h : ∀ n ∈ counts, 0 ≤ n.toInt)
    {n : Int32} (hn : n ∈ counts) : n.toInt + elsewhere ≤ totalWith elsewhere counts := by
  induction counts with
  | nil => exact absurd hn List.not_mem_nil
  | cons m counts ih =>
    obtain ⟨hm, hcounts⟩ := List.forall_mem_cons.1 h
    rw [totalWith_cons]
    rcases List.mem_cons.1 hn with rfl | hmem
    · have hrest := le_totalWith elsewhere hcounts
      omega
    · have hrest := ih hcounts hmem
      omega

/-- The number of buzzers in all piles and in the bag, if all of them are finite. -/
def buzzers (w : World) : Int :=
  totalWith w.bag.toInt w.piles.toList

/-- A turn moves a buzzer to where the largest count is already held. -/
def Spills (w : World) (t : Turn) : Prop :=
  t.instruction = .pickBuzzer ∧ w.pile t.pose.toCell ≠ 0 ∧ w.bag = countMax ∨
    t.instruction = .leaveBuzzer ∧ w.bag ≠ 0 ∧ w.pile t.pose.toCell = countMax

instance (w : World) (t : Turn) : Decidable (w.Spills t) :=
  inferInstanceAs (Decidable (_ ∧ _ ∨ _ ∧ _))

/-- Changing one pile changes the sum by the new count less the old one. -/
theorem buzzers_withPile (hw : w.Sized) {a : Cell} {i : Nat} (hi : w.index? a = some i)
    (f : Int32 → Int32) (bag : Int32) :
    (w.withPile i f bag).buzzers =
      w.buzzers + ((f (w.pile a)).toInt - (w.pile a).toInt) + (bag.toInt - w.bag.toInt) := by
  have hlt : i < w.piles.size := hw.piles ▸ gridIndex?_lt hi
  have hpile : w.piles[i] = w.pile a := by
    rw [pile_of_index? hi, Array.getD, dif_pos hlt]
    rfl
  have hlist : (w.piles.modify i f).toList = w.piles.toList.set i (f (w.pile a)) := by
    rw [Array.toList_modify, List.modify_eq_set, Array.getElem?_toList,
      Array.getElem?_eq_getElem hlt, Option.getD_some, hpile]
  have hold : w.piles.toList[i] = w.pile a := by
    rw [Array.getElem_toList, hpile]
  show totalWith bag.toInt (w.piles.modify i f).toList = _
  rw [hlist, totalWith_set w.bag.toInt bag.toInt _ hlt, hold]
  rfl

/-- Picking keeps the sum, unless the bag is full. -/
theorem WellFormed.buzzers_pick (h : w.WellFormed) (hfinite : w.Exhaustible) (c : Cell) :
    (w.pick c).buzzers = if w.pile c ≠ 0 ∧ w.bag = countMax then w.buzzers - 1 else w.buzzers := by
  rcases w.pick_cases c with ⟨hempty, hsame⟩ | ⟨hsource, i, hi, hmoved⟩
  · rw [hsame, if_neg (fun hspill => hspill.1 hempty)]
  · rw [hmoved, buzzers_withPile h.sized hi, toInt_oneLess (hfinite.pile c) (h.stocked.pile c),
      toInt_oneMore hfinite.bag h.stocked.bag]
    by_cases hfull : w.bag = countMax
    · rw [if_pos hfull, if_pos ⟨hsource, hfull⟩]
      omega
    · rw [if_neg hfull, if_neg (fun hspill => hfull hspill.2)]
      omega

/-- Leaving keeps the sum, unless the pile is full. -/
theorem WellFormed.buzzers_leave (h : w.WellFormed) (hfinite : w.Exhaustible) (c : Cell) :
    (w.leave c).buzzers = if w.bag ≠ 0 ∧ w.pile c = countMax then w.buzzers - 1 else w.buzzers := by
  rcases w.leave_cases c with ⟨hnone, hsame⟩ | ⟨hsource, i, hi, hmoved⟩
  · rw [hsame, if_neg]
    rintro ⟨hbag, hfull⟩
    -- outside the grid there is no pile that could be full
    rw [pile_of_index?_eq_none (hnone.resolve_right hbag)] at hfull
    exact absurd hfull (by decide)
  · rw [hmoved, buzzers_withPile h.sized hi, toInt_oneMore (hfinite.pile c) (h.stocked.pile c),
      toInt_oneLess hfinite.bag h.stocked.bag]
    by_cases hfull : w.pile c = countMax
    · rw [if_pos hfull, if_pos ⟨hsource, hfull⟩]
      omega
    · rw [if_neg hfull, if_neg (fun hspill => hfull hspill.2)]
      omega

/-- A turn keeps the sum, unless it spills a buzzer. -/
theorem WellFormed.buzzers_played (h : w.WellFormed) (hfinite : w.Exhaustible) (t : Turn) :
    (w.played t).buzzers = if w.Spills t then w.buzzers - 1 else w.buzzers := by
  have hposed := h.withPose t.pose
  have hfinite' : Exhaustible { w with pose := t.pose } := ⟨hfinite.pile, hfinite.bag⟩
  rw [played_eq]
  cases hinstruction : t.instruction with
  | pickBuzzer =>
    refine (hposed.buzzers_pick hfinite' t.pose.toCell).trans (if_congr ?_ rfl rfl)
    simp only [Spills, hinstruction, true_and, reduceCtorEq, false_and, or_false]
    rfl
  | leaveBuzzer =>
    refine (hposed.buzzers_leave hfinite' t.pose.toCell).trans (if_congr ?_ rfl rfl)
    simp only [Spills, hinstruction, true_and, reduceCtorEq, false_and, false_or]
    rfl
  | _ =>
    -- no other instruction touches a pile or the bag
    rw [if_neg (by simp [Spills, hinstruction])]
    rfl

/-- The pile of a cell and the bag are parts of the sum. -/
theorem WellFormed.pile_add_bag_le (h : w.WellFormed) (hfinite : w.Exhaustible) (c : Cell) :
    (w.pile c).toInt + w.bag.toInt ≤ w.buzzers := by
  -- every pile is the pile of a cell, so none is endless
  have hcount : ∀ n ∈ w.piles.toList, 0 ≤ n.toInt := by
    intro n hn
    obtain ⟨i, hi, rfl⟩ := Array.mem_iff_getElem.1 (Array.mem_toList_iff.1 hn)
    obtain ⟨a, ha⟩ := exists_gridIndex? h.sized.width_le h.sized.height_le (h.sized.piles ▸ hi)
    have hpile : w.pile a = w.piles[i] := by
      rw [pile_of_index? ha, Array.getD, dif_pos hi]
      rfl
    exact zero_le_of_finite (hpile ▸ hfinite.pile a) (hpile ▸ h.stocked.pile a)
  rw [buzzers]
  cases hi : w.index? c with
  | none =>
    have hzero : (0 : Int32).toInt = 0 := rfl
    have hpart := le_totalWith w.bag.toInt hcount
    rw [pile_of_index?_eq_none hi, hzero]
    omega
  | some i =>
    have hlt : i < w.piles.size := h.sized.piles ▸ gridIndex?_lt hi
    have hmem : w.pile c ∈ w.piles.toList := by
      rw [pile_of_index? hi, Array.getD, dif_pos hlt]
      exact Array.mem_toList_iff.2 (Array.getElem_mem hlt)
    exact add_le_totalWith hcount hmem

/-- Where the sum does not exceed the largest count, there is room for every buzzer. -/
theorem WellFormed.not_spills (h : w.WellFormed) (hfinite : w.Exhaustible)
    (hsum : w.buzzers ≤ 2147483647) (t : Turn) : ¬ w.Spills t := by
  have hparts := h.pile_add_bag_le hfinite t.pose.toCell
  have hpositive : ∀ {n : Int32}, n ≠ 0 → n ≠ infinite → infinite ≤ n → 0 < n.toInt := by
    intro n hne hcount hle
    have hnonneg := zero_le_of_finite hcount hle
    have hnonzero : ¬ n.toInt = 0 := fun heq => hne (Int32.toInt_inj.1 heq)
    omega
  -- a source that is not empty and a full target exceed the largest count together
  rintro (⟨-, hsource, hfull⟩ | ⟨-, hsource, hfull⟩)
  · have hpile := hpositive hsource (hfinite.pile _) (h.stocked.pile _)
    rw [hfull, toInt_countMax] at hparts
    omega
  · have hbag := hpositive hsource hfinite.bag h.stocked.bag
    rw [hfull, toInt_countMax] at hparts
    omega

/-- Where the sum does not exceed the largest count, it is kept for good. -/
theorem WellFormed.buzzers_playedAll (h : w.WellFormed) (hfinite : w.Exhaustible)
    (hsum : w.buzzers ≤ 2147483647) (ts : List Turn) : (w.playedAll ts).buzzers = w.buzzers := by
  induction ts generalizing w with
  | nil => rfl
  | cons t ts ih =>
    have hkept : (w.played t).buzzers = w.buzzers := by
      rw [h.buzzers_played hfinite, if_neg (h.not_spills hfinite hsum t)]
    have hfinite' := hfinite.sameSupplies (h.sameSupplies_played t)
    exact (ih (h.played t) hfinite' (hkept ▸ hsum)).trans hkept

/-- Whatever instructions are executed in a world, from whatever poses: a pile or the bag is endless
afterwards exactly if it was before, and a finite one is never negative. Where no supply is endless,
an instruction changes the sum of all piles and the bag only by spilling one buzzer, which is picked or
left where the largest count is already held. A sum that does not exceed this count stays the same
throughout, and so along every run. -/
theorem buzzers_accounted (h : w.WellFormed) :
    (∀ ts, (∀ c, (w.playedAll ts).pile c = infinite ↔ w.pile c = infinite) ∧
      ((w.playedAll ts).bag = infinite ↔ w.bag = infinite)) ∧
    (∀ ts, (∀ n ∈ (w.playedAll ts).piles, n ≠ infinite → 0 ≤ n) ∧
      ((w.playedAll ts).bag ≠ infinite → 0 ≤ (w.playedAll ts).bag)) ∧
    (w.Exhaustible → ∀ ts t,
      ((w.playedAll ts).played t).buzzers =
        if (w.playedAll ts).Spills t then (w.playedAll ts).buzzers - 1
        else (w.playedAll ts).buzzers) ∧
    (w.Exhaustible → w.buzzers ≤ 2147483647 →
      (∀ ts, (w.playedAll ts).buzzers = w.buzzers) ∧
      ∀ (s : Session) (n : Nat), s.world = w → (s.after n).world.buzzers = w.buzzers) := by
  refine ⟨?_, ?_, ?_, ?_⟩
  · intro ts
    have hsame := h.sameSupplies_playedAll ts
    exact ⟨hsame.pile, hsame.bag⟩
  · intro ts
    have hstocked := (h.playedAll ts).stocked
    refine ⟨?_, ?_⟩
    · intro n hn hfinite
      exact Int32.le_iff_toInt_le.2 (zero_le_of_finite hfinite (hstocked.piles n hn))
    · intro hfinite
      exact Int32.le_iff_toInt_le.2 (zero_le_of_finite hfinite hstocked.bag)
  · intro hfinite ts t
    exact (h.playedAll ts).buzzers_played (hfinite.sameSupplies (h.sameSupplies_playedAll ts)) t
  · intro hfinite hsum
    refine ⟨h.buzzers_playedAll hfinite hsum, ?_⟩
    intro s n hs
    obtain ⟨ts, hts⟩ := exists_turns_after s n
    rw [hts, hs]
    exact h.buzzers_playedAll hfinite hsum ts

/-- A world with a full pile under the robot and three buzzers in the bag. -/
def brimful : World :=
  ((new 2 1).setPile ⟨1, 1⟩ 2147483647).setBag 3

/-- A world with four buzzers beside the robot and three in the bag. -/
def sevenfold : World :=
  ((new 2 1).setPile ⟨1, 2⟩ 4).setBag 3

/-- The robot leaves a buzzer where it was placed. -/
def leaving : Turn :=
  ⟨.leaveBuzzer, .fresh {}, [], .home⟩

/-- A buzzer left on the full pile is lost, while seven buzzers stay seven in every run. -/
theorem buzzers_accounted_brimful :
    (brimful.WellFormed ∧ brimful.Exhaustible ∧ brimful.buzzers = 2147483650 ∧
      brimful.Spills leaving ∧ (brimful.played leaving).buzzers = 2147483649) ∧
    (sevenfold.WellFormed ∧ sevenfold.Exhaustible ∧
      ∀ (p : Program) (n : Nat), ((Session.new sevenfold p).after n).world.buzzers = 7) := by
  have hbrimful : brimful.WellFormed := ((wellFormed_new 2 1).setPile _ _).setBag _
  have hfinite : brimful.Exhaustible :=
    exhaustible_of_not_mem (by decide +kernel) (by decide +kernel)
  have hsum : brimful.buzzers = 2147483650 := by decide +kernel
  have hspills : brimful.Spills leaving := by decide +kernel
  have hlost : (brimful.played leaving).buzzers = brimful.buzzers - 1 :=
    ((buzzers_accounted hbrimful).2.2.1 hfinite [] leaving).trans (if_pos hspills)
  have hsevenfold : sevenfold.WellFormed := ((wellFormed_new 2 1).setPile _ _).setBag _
  have hfinite' : sevenfold.Exhaustible :=
    exhaustible_of_not_mem (by decide +kernel) (by decide +kernel)
  have hseven : sevenfold.buzzers = 7 := by decide +kernel
  refine ⟨⟨hbrimful, hfinite, hsum, hspills, by omega⟩, hsevenfold, hfinite', ?_⟩
  intro p n
  have hkept := (buzzers_accounted hsevenfold).2.2.2 hfinite' (by omega)
  exact (hkept.2 (Session.new sevenfold p) n rfl).trans hseven

end World

end GridRobot
