import GridRobot.Program
import Mathlib.Data.Nat.Basic

/-!
# Operands of instructions

`signature?` gives the kinds of operands that each known mnemonic takes, and `OperandKind.Accepts` the
values that an operand of a kind may have, both in terms of the numbers and texts that are written. The
table of mnemonics of the reader has these signatures (`signature?_eq`), and its readers of single
operands find a value exactly in the values that are accepted (`OperandKind.accepts_iff`).
-/

set_option autoImplicit false

namespace GridRobot

/-! ## Kinds and signatures -/

/-- What an operand may be. -/
inductive OperandKind where
  | word
  | slot
  | condition
  | address
  | name
  deriving DecidableEq, Repr

/-- A value may stand where an operand of a kind is expected. -/
def OperandKind.Accepts : OperandKind → Json → Prop
  | word, j => ∃ i ∈ j.asInt?, -2147483648 ≤ i ∧ i ≤ 2147483647
  | slot, j => ∃ i ∈ j.asInt?, 0 ≤ i ∧ i ≤ 2147483647
  | condition, j => ∃ s ∈ j.asText?, s ∈ ["WALL", "WORLDUNDERFLOW", "BAGUNDERFLOW"]
  | address, j => ∃ i ∈ j.asInt?, 0 ≤ i ∧ i ≤ 18446744073709551615
  | name, j => j.asText?.isSome = true

instance : (kind : OperandKind) → (j : Json) → Decidable (kind.Accepts j)
  | .word, j => inferInstanceAs (Decidable (∃ i ∈ j.asInt?, _))
  | .slot, j => inferInstanceAs (Decidable (∃ i ∈ j.asInt?, _))
  | .condition, j => inferInstanceAs (Decidable (∃ s ∈ j.asText?, _))
  | .address, j => inferInstanceAs (Decidable (∃ i ∈ j.asInt?, _))
  | .name, _ => inferInstanceAs (Decidable (_ = true))

/-- The mnemonics that take no operands. -/
def plainMnemonics : List String :=
  ["HALT", "LEFT", "FORWARD", "PICKBUZZER", "LEAVEBUZZER", "WORLDWALLS", "ORIENTATION",
    "WORLDBUZZERS", "BAGBUZZERS", "ROTL", "ROTR", "MASK", "NOT", "AND", "OR", "EQ", "POP", "DUP",
    "DEC", "INC", "RET"]

/-- The kinds of the operands of a known mnemonic. -/
def signature? (mnemonic : String) : Option (List OperandKind) :=
  if mnemonic ∈ plainMnemonics then some []
  else if mnemonic ∈ ["LINE", "LOAD", "JZ", "JMP"] then some [.word]
  else if mnemonic = "PARAM" then some [.slot]
  else if mnemonic = "EZ" then some [.condition]
  else if mnemonic = "CALL" then some [.address, .name]
  else none

/-- The kinds of some operands. -/
def Operands.kinds : Operands → List OperandKind
  | fixed _ => []
  | word _ => [.word]
  | slot => [.slot]
  | condition => [.condition]
  | call => [.address, .name]

/-- The mnemonic and the written operands of what an entry of the table makes. -/
def Operands.Spells (mnemonic : String) : Operands → Prop
  | fixed i => i.mnemonic = mnemonic ∧ i ≠ .unknown mnemonic ∧ ∀ p : Program, p.operands i = []
  | word make => ∀ n, (make n).mnemonic = mnemonic ∧ make n ≠ .unknown mnemonic ∧
      ∀ p : Program, p.operands (make n) = [.int n.toInt]
  | slot => mnemonic = "PARAM"
  | condition => mnemonic = "EZ"
  | call => mnemonic = "CALL"

/-- The table of mnemonics has their signatures. -/
theorem signature?_eq (mnemonic : String) :
    signature? mnemonic = (Operands.ofMnemonic? mnemonic).map Operands.kinds := by
  unfold Operands.ofMnemonic?
  split
  iterate 28
    next => rfl
  -- a mnemonic that the table does not list is in none of the groups
  simp_all [signature?, plainMnemonics]

theorem signature?_of_ofMnemonic? {mnemonic : String} {shape : Operands}
    (h : Operands.ofMnemonic? mnemonic = some shape) : signature? mnemonic = some shape.kinds := by
  rw [signature?_eq, h]
  rfl

theorem Operands.spells_of_ofMnemonic? {mnemonic : String} {shape : Operands}
    (h : ofMnemonic? mnemonic = some shape) : shape.Spells mnemonic := by
  unfold ofMnemonic? at h
  split at h
  -- twenty-one mnemonics take no operands, four take a word
  iterate 21
    next =>
      cases h
      exact ⟨rfl, nofun, fun _ => rfl⟩
  iterate 4
    next =>
      cases h
      exact fun _ => ⟨rfl, nofun, fun _ => rfl⟩
  iterate 3
    next =>
      cases h
      rfl
  cases h

/-! ## Values of operands -/

namespace Json

theorem asInt32?_eq_some_iff {j : Json} {n : Int32} :
    j.asInt32? = some n ↔ j.asInt? = some n.toInt := by
  have hle := n.le_toInt
  have hlt := n.toInt_lt
  rw [asInt32?]
  cases j.asInt? with
  | none => simp
  | some i =>
    simp only [Option.some.injEq]
    constructor
    · intro h
      split at h
      · rename_i hrange
        rw [← Option.some.inj h]
        exact (Int32.toInt_ofInt_of_le hrange.1 hrange.2).symm
      · exact absurd h (by simp)
    · rintro rfl
      rw [if_pos ⟨hle, hlt⟩, Int32.ofInt_toInt]

theorem asUInt64?_eq_some_iff {j : Json} {n : UInt64} :
    j.asUInt64? = some n ↔ j.asInt? = some (n.toNat : Int) := by
  have hlt := n.toNat_lt
  rw [asUInt64?]
  cases j.asInt? with
  | none => simp
  | some i =>
    simp only [Option.some.injEq]
    constructor
    · intro h
      split at h
      · rename_i hrange
        rw [← Option.some.inj h, UInt64.toNat_ofNat_of_lt' (by rw [UInt64.size]; omega)]
        omega
      · exact absurd h (by simp)
    · rintro rfl
      rw [if_pos (by omega), Int.toNat_natCast, UInt64.ofNat_toNat]

theorem asText?_eq_some_iff {j : Json} {s : String} : j.asText? = some s ↔ j = .text s := by
  constructor
  · intro h
    cases j with
    | string t =>
      obtain rfl : t = some s := h
      rfl
    | _ => exact absurd h (by simp [asText?])
  · rintro rfl
    rfl

end Json

theorem slotOperand?_eq_some_iff {j : Json} {k : UInt32} :
    slotOperand? j = some k ↔ j.asInt? = some (k.toNat : Int) ∧ k.toNat ≤ 2147483647 := by
  -- a word that is not negative has the same number with and without a sign
  have hword : ∀ {n : Int32}, 0 ≤ n → (n.toUInt32.toNat : Int) = n.toInt := by
    intro n hn
    have hnat : n.toUInt32.toNat = n.toInt.toNat := Int32.toNat_toBitVec_of_le hn
    have hle : 0 ≤ n.toInt := Int32.le_iff_toInt_le.1 hn
    omega
  rw [slotOperand?]
  constructor
  · intro h
    split at h
    · rename_i n hn
      rw [Json.asInt32?_eq_some_iff] at hn
      split at h
      · rename_i hle
        obtain rfl := Option.some.inj h
        have heq := hword hle
        have hlt := n.toInt_lt
        exact ⟨hn.trans (congrArg some heq.symm), by omega⟩
      · exact absurd h (by simp)
    · exact absurd h (by simp)
  · rintro ⟨hint, hk⟩
    have hsigned : k.toInt32.toInt = k.toNat := by
      have hback : (Int32.ofNat k.toNat).toInt = k.toNat := Int32.toInt_ofNat_of_lt (by omega)
      rwa [← UInt32.toInt32_ofNat', UInt32.ofNat_toNat] at hback
    have hread : j.asInt32? = some k.toInt32 := by
      rw [Json.asInt32?_eq_some_iff, hint, hsigned]
    have hle : 0 ≤ k.toInt32 := by
      rw [Int32.le_iff_toInt_le, hsigned]
      exact Int.natCast_nonneg _
    rw [hread]
    simp only [hle, if_true, UInt32.toUInt32_toInt32]

theorem conditionOperand?_eq_some_iff {j : Json} {c : Condition} :
    conditionOperand? j = some c ↔ j.asText? = some c.mnemonic := by
  rw [conditionOperand?, Option.bind_eq_some_iff]
  constructor
  · rintro ⟨s, hs, hc⟩
    rw [hs]
    unfold Condition.ofMnemonic? at hc
    split at hc
    iterate 3
      next =>
        cases hc
        rfl
    cases hc
  · intro h
    exact ⟨_, h, c.ofMnemonic?_mnemonic⟩

/-- An operand is accepted exactly if the reader finds a value in it. -/
theorem OperandKind.accepts_iff (kind : OperandKind) (j : Json) :
    kind.Accepts j ↔
      match kind with
      | word => ∃ n, j.asInt32? = some n
      | slot => ∃ k, slotOperand? j = some k
      | condition => ∃ c, conditionOperand? j = some c
      | address => ∃ n, j.asUInt64? = some n
      | name => ∃ s, j.asText? = some s := by
  cases kind with
  | word =>
    simp only [Accepts, Option.mem_def, Json.asInt32?_eq_some_iff]
    constructor
    · rintro ⟨i, hi, hle, hle'⟩
      refine ⟨Int32.ofInt i, ?_⟩
      rw [hi, Int32.toInt_ofInt_of_le hle (by omega)]
    · rintro ⟨n, hn⟩
      have hlt := n.toInt_lt
      exact ⟨n.toInt, hn, n.le_toInt, by omega⟩
  | slot =>
    simp only [Accepts, Option.mem_def, slotOperand?_eq_some_iff]
    constructor
    · rintro ⟨i, hi, hle, hle'⟩
      have hnat : (UInt32.ofNat i.toNat).toNat = i.toNat :=
        UInt32.toNat_ofNat_of_lt' (by rw [UInt32.size]; omega)
      refine ⟨UInt32.ofNat i.toNat, ?_, by omega⟩
      rw [hi, hnat, Int.toNat_of_nonneg hle]
    · rintro ⟨k, hk, hle⟩
      exact ⟨_, hk, Int.natCast_nonneg _, by omega⟩
  | condition =>
    simp only [Accepts, Option.mem_def, conditionOperand?_eq_some_iff]
    constructor
    · rintro ⟨s, hs, hmem⟩
      simp only [List.mem_cons, List.not_mem_nil, or_false] at hmem
      rcases hmem with rfl | rfl | rfl
      · exact ⟨.wall, hs⟩
      · exact ⟨.worldUnderflow, hs⟩
      · exact ⟨.bagUnderflow, hs⟩
    · rintro ⟨c, hc⟩
      exact ⟨_, hc, by cases c <;> decide⟩
  | address =>
    simp only [Accepts, Option.mem_def, Json.asUInt64?_eq_some_iff]
    constructor
    · rintro ⟨i, hi, hle, hle'⟩
      have hnat : (UInt64.ofNat i.toNat).toNat = i.toNat :=
        UInt64.toNat_ofNat_of_lt' (by rw [UInt64.size]; omega)
      refine ⟨UInt64.ofNat i.toNat, ?_⟩
      rw [hi, hnat, Int.toNat_of_nonneg hle]
    · rintro ⟨n, hn⟩
      have hlt := n.toNat_lt
      exact ⟨_, hn, Int.natCast_nonneg _, by omega⟩
  | name => exact Option.isSome_iff_exists

end GridRobot
