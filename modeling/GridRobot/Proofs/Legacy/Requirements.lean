import GridRobot.Proofs.Document.Meaning
import GridRobot.Proofs.FirstFault

/-!
# What legacy buffers must meet

A pair of buffers is decoded if it meets eight requirements, and is refused for the first that it does
not meet. `LegacyWorld.requirements` lists them in their order, each with the refusal it leads to, in
terms of the words of the buffers; `decode_eq_settle` says that decoding goes through this list.
-/

set_option autoImplicit false

namespace GridRobot

/-- A condition, and the error for what does not meet it. -/
structure Requirement where
  met : Bool
  refusal : LoadError

namespace Requirement

/-- A result, unless a requirement is not met: then the refusal of the first such one. -/
def settle {α : Type} : List Requirement → α → Except LoadError α
  | [], a => .ok a
  | r :: rs, a => if r.met then settle rs a else .error r.refusal

variable {α : Type} {rs : List Requirement} {a b : α} {e : LoadError}

theorem settle_eq_ok_iff : settle rs a = .ok b ↔ (∀ r ∈ rs, r.met = true) ∧ a = b := by
  induction rs with
  | nil =>
    constructor
    · intro h
      exact ⟨nofun, Except.ok.inj h⟩
    · rintro ⟨-, rfl⟩
      rfl
  | cons s rs ih =>
    rw [settle, List.forall_mem_cons]
    by_cases hs : s.met = true
    · rw [if_pos hs, ih, and_iff_right hs]
    · rw [if_neg hs]
      exact iff_of_false nofun fun h => hs h.1.1

theorem settle_eq_error_iff :
    settle rs a = .error e ↔
      ∃ before r, FirstFault (fun r => r.met = true) rs before r ∧ e = r.refusal := by
  induction rs with
  | nil =>
    constructor
    · exact nofun
    · rintro ⟨before, r, ⟨⟨after, hnil⟩, -⟩, -⟩
      exact absurd hnil (by simp)
  | cons s rs ih =>
    by_cases hs : s.met = true
    · rw [settle, if_pos hs, ih]
      constructor
      · rintro ⟨before, r, hfault, he⟩
        exact ⟨s :: before, r, hfault.cons hs, he⟩
      · rintro ⟨before, r, hfault, he⟩
        rcases FirstFault.cons_iff.1 hfault with ⟨-, -, hnot⟩ | ⟨before', -, -, hrest⟩
        · exact absurd hs hnot
        · exact ⟨before', r, hrest, he⟩
    · rw [settle, if_neg hs]
      constructor
      · intro h
        exact ⟨[], s, FirstFault.head (x := s) hs rs, (Except.error.inj h).symm⟩
      · rintro ⟨before, r, hfault, rfl⟩
        rcases FirstFault.cons_iff.1 hfault with ⟨-, rfl, -⟩ | ⟨-, -, hmet, -⟩
        · rfl
        · exact absurd hmet hs

/-- A check is a requirement if what follows it is settled where the check has passed. -/
theorem check_eq_settle {c : Prop} {dec : Decidable c} {met : Bool} {x : Except LoadError α}
    (hmet : met = true ↔ ¬ c) (h : ¬ c → x = settle rs a) :
    (if c then .error e else x) = settle (⟨met, e⟩ :: rs) a := by
  by_cases hc : c
  · have hnot : ¬ met = true := fun hm => hmet.1 hm hc
    rw [if_pos hc, settle, if_neg hnot]
  · rw [if_neg hc, settle, if_pos (hmet.2 hc), h hc]

end Requirement

namespace LegacyWorld

variable {l : LegacyWorld}

/-- The requirements in their order. -/
def requirements (l : LegacyWorld) : List Requirement :=
  [ -- both buffers have their headers
    ⟨20 ≤ l.world.size, .tooShort .world 20 l.world.size⟩,
    ⟨30 ≤ l.limits.size, .tooShort .limits 30 l.limits.size⟩,
    ⟨l.world.toList.take 5 = [0x414B, 0x4552, 0x204C, 0x4D4F, 0x2E49], .badMagic⟩,
    -- the size of the grid, and room for the walls and piles
    ⟨(1 ≤ l.width ∧ l.width ≤ 10000) ∧ 1 ≤ l.height ∧ l.height ≤ 10000,
      .invalidDimensions l.width l.height⟩,
    ⟨15 + 3 * (l.wallCount + l.pileCount) ≤ l.world.size,
      .truncated .world (15 + 3 * (l.wallCount + l.pileCount)) l.world.size⟩,
    -- the robot
    ⟨(1 ≤ (l.worldWord 9).toNat ∧ (l.worldWord 9).toNat ≤ l.width) ∧
        1 ≤ (l.worldWord 10).toNat ∧ (l.worldWord 10).toNat ≤ l.height,
      .invalidCoordinate (l.worldWord 9).toNat (l.worldWord 10).toNat⟩,
    ⟨1 ≤ (l.worldWord 11).toNat ∧ (l.worldWord 11).toNat ≤ 4,
      .invalidOrientation (l.worldWord 11).toNat⟩,
    -- room for the cells, if cells are listed
    ⟨l.limitsWord 27 ≠ 0 → 30 + 3 * (l.limitsWord 28).toNat ≤ l.limits.size,
      .truncated .limits (30 + 3 * (l.limitsWord 28).toNat) l.limits.size⟩]

/-- Words are small enough that every cell is found from its words. -/
theorem names_iff_cellAt {x y : UInt16} {c : Cell} : Names x.toNat y.toNat c ↔ c = cellAt x y := by
  have hx := x.toNat_lt
  have hy := y.toNat_lt
  have hcol : (cellAt x y).col.toInt = x.toNat := Int32.toInt_ofNat_of_lt (by omega)
  have hrow : (cellAt x y).row.toInt = y.toNat := Int32.toInt_ofNat_of_lt (by omega)
  constructor
  · intro h
    exact names_inj h ⟨hcol, hrow⟩
  · rintro rfl
    exact ⟨hcol, hrow⟩

theorem contains_new_iff (hsize : acceptsSize l.width l.height = true) {x y : UInt16} :
    (World.new l.width l.height).contains (cellAt x y) = true ↔
      (1 ≤ x.toNat ∧ x.toNat ≤ l.width) ∧ 1 ≤ y.toNat ∧ y.toNat ≤ l.height := by
  obtain ⟨hcol, hrow⟩ := (names_iff_cellAt (x := x) (y := y)).2 rfl
  obtain ⟨hwidth, hheight⟩ := World.size_new_of_acceptsSize hsize
  rw [World.contains_iff, hcol, hrow, hwidth, hheight]
  omega

/-- The orientation of the robot. -/
def facing (l : LegacyWorld) : Orientation :=
  match orientation (l.worldWord 11) with
  | .ok o => o
  | .error _ => .north

/-- An orientation is one of four words. -/
theorem orientation_eq (l : LegacyWorld) :
    orientation (l.worldWord 11) =
      if 1 ≤ (l.worldWord 11).toNat ∧ (l.worldWord 11).toNat ≤ 4 then .ok l.facing
      else .error (.invalidOrientation (l.worldWord 11).toNat) := by
  rw [facing, orientation]
  generalize (l.worldWord 11).toNat = n
  match n with
  | 0 => rfl
  | 1 => rfl
  | 2 => rfl
  | 3 => rfl
  | 4 => rfl
  | n + 5 =>
    rw [if_neg (by omega)]
    rfl

theorem orientation_bind (l : LegacyWorld) {α : Type} (next : Orientation → Except LoadError α) :
    (orientation (l.worldWord 11)).bind next =
      if ¬ (1 ≤ (l.worldWord 11).toNat ∧ (l.worldWord 11).toNat ≤ 4) then
        .error (.invalidOrientation (l.worldWord 11).toNat)
      else next l.facing := by
  rw [orientation_eq, ite_not]
  split <;> rfl

/-- Decoding asks for one requirement after the other. -/
theorem decode_eq_settle (l : LegacyWorld) :
    l.decode = Requirement.settle l.requirements (l.furnished l.facing) := by
  rw [decode_eq]
  apply Requirement.check_eq_settle (decide_eq_true_iff.trans Nat.not_lt.symm)
  intro _
  apply Requirement.check_eq_settle (decide_eq_true_iff.trans Nat.not_lt.symm)
  intro _
  apply Requirement.check_eq_settle (decide_eq_true_iff.trans not_not.symm)
  intro _
  apply Requirement.check_eq_settle
  · rw [decide_eq_true_iff, ← World.acceptsSize_iff]
    simp
  intro hsize
  replace hsize : acceptsSize l.width l.height = true := by simpa using hsize
  apply Requirement.check_eq_settle (decide_eq_true_iff.trans Nat.not_lt.symm)
  intro _
  apply Requirement.check_eq_settle
  · rw [decide_eq_true_iff, ← contains_new_iff hsize]
    simp [robotCell]
  intro _
  rw [orientation_bind]
  apply Requirement.check_eq_settle (decide_eq_true_iff.trans not_not.symm)
  intro _
  apply Requirement.check_eq_settle
  · rw [decide_eq_true_iff, Bool.and_eq_true, decide_eq_true_iff, not_and, Nat.not_lt, listsCells,
      decide_eq_true_iff]
    rfl
  intro _
  rfl

theorem forall_met_iff :
    (∀ r ∈ l.requirements, r.met = true) ↔
      20 ≤ l.world.size ∧ 30 ≤ l.limits.size ∧ l.world.toList.take 5 = signature ∧
        ((1 ≤ l.width ∧ l.width ≤ 10000) ∧ 1 ≤ l.height ∧ l.height ≤ 10000) ∧
        l.worldWordsNeeded ≤ l.world.size ∧
        ((1 ≤ (l.worldWord 9).toNat ∧ (l.worldWord 9).toNat ≤ l.width) ∧
          1 ≤ (l.worldWord 10).toNat ∧ (l.worldWord 10).toNat ≤ l.height) ∧
        (1 ≤ (l.worldWord 11).toNat ∧ (l.worldWord 11).toNat ≤ 4) ∧
        (l.limitsWord 27 ≠ 0 → l.limitsWordsNeeded ≤ l.limits.size) := by
  have hnil : ∀ r ∈ ([] : List Requirement), r.met = true := nofun
  simp only [requirements, List.forall_mem_cons, decide_eq_true_iff, iff_true_intro hnil, and_true]
  rfl

theorem decode_eq_ok_iff {w : World} :
    l.decode = .ok w ↔ (∀ r ∈ l.requirements, r.met = true) ∧ l.furnished l.facing = w := by
  rw [decode_eq_settle, Requirement.settle_eq_ok_iff]

end LegacyWorld

end GridRobot
