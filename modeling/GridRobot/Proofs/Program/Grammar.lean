import GridRobot.Proofs.FirstFault
import GridRobot.Proofs.Json.Fields
import GridRobot.Proofs.Program.Operands
import Mathlib.Data.List.Forall2

/-!
# The grammar of programs

A program is written as a list of records. `Grammatical` says which records are well formed: a mnemonic,
followed, if it is known, by operands of the number and the kinds that its signature gives. `Blames`
says what is wrong with a record that is not.

`Decodes` says once what reading one record can do, and `decodeRecord_cases` that a record is either
decoded so or blamed. From there reading a list succeeds exactly if all its records are grammatical and
gives each of them its instruction (`Says`); otherwise it reports the first one that is not.
-/

set_option autoImplicit false

namespace GridRobot

/-! ## Records -/

/-- The operands have the kinds that are expected. -/
def Fits (e : OperandKind × Json) : Prop :=
  e.1.Accepts e.2

/-- A record of a program: a mnemonic, followed by the operands that a known mnemonic takes. -/
def Grammatical (record : Json) : Prop :=
  ∃ mnemonic operands, record = .array (.text mnemonic :: operands) ∧
    ∀ kinds, signature? mnemonic = some kinds →
      operands.length = kinds.length ∧ ∀ e ∈ kinds.zip operands, Fits e

/-- What is wrong with the record at an index: its shape, or else the number of its operands, or else
the first operand that is not of its kind. -/
inductive Blames (index : Nat) : Json → ProgramError → Prop
  | malformed {record : Json}
      (hshape : ∀ mnemonic operands, record ≠ .array (.text mnemonic :: operands)) :
      Blames index record (.malformed index)
  | arity {mnemonic : String} {operands : List Json} {kinds : List OperandKind}
      (hkinds : signature? mnemonic = some kinds) (hlength : operands.length ≠ kinds.length) :
      Blames index (.array (.text mnemonic :: operands))
        (.arity index mnemonic kinds.length operands.length)
  | operand {mnemonic : String} {operands : List Json} {kinds : List OperandKind}
      {before : List (OperandKind × Json)} {kind : OperandKind} {operand : Json}
      (hkinds : signature? mnemonic = some kinds) (hlength : operands.length = kinds.length)
      (hfirst : FirstFault Fits (kinds.zip operands) before (kind, operand)) :
      Blames index (.array (.text mnemonic :: operands)) (.operand index mnemonic operand)

theorem Blames.not_grammatical {index : Nat} {record : Json} {err : ProgramError}
    (h : Blames index record err) : ¬ Grammatical record := by
  rintro ⟨mnemonic, operands, hrecord, hkinds⟩
  cases h with
  | malformed hshape => exact hshape mnemonic operands hrecord
  | arity hkinds' hlength =>
    cases hrecord
    exact hlength (hkinds _ hkinds').1
  | operand hkinds' hlength hfirst =>
    cases hrecord
    exact hfirst.not_forall (hkinds _ hkinds').2

/-- A record is blamed for one thing. -/
theorem Blames.unique {index : Nat} {record : Json} {err err' : ProgramError}
    (h : Blames index record err) (h' : Blames index record err') : err' = err := by
  cases h with
  | malformed hshape =>
    cases h' with
    | malformed _ => rfl
    | arity _ _ => exact absurd rfl (hshape _ _)
    | operand _ _ _ => exact absurd rfl (hshape _ _)
  | arity hkinds hlength =>
    cases h' with
    | malformed hshape => exact absurd rfl (hshape _ _)
    | arity hkinds' _ =>
      obtain rfl := Option.some.inj (hkinds.symm.trans hkinds')
      rfl
    | operand hkinds' hlength' _ =>
      obtain rfl := Option.some.inj (hkinds.symm.trans hkinds')
      exact absurd hlength' hlength
  | operand hkinds hlength hfirst =>
    cases h' with
    | malformed hshape => exact absurd rfl (hshape _ _)
    | arity hkinds' hlength' =>
      obtain rfl := Option.some.inj (hkinds.symm.trans hkinds')
      exact absurd hlength hlength'
    | operand hkinds' _ hfirst' =>
      obtain rfl := Option.some.inj (hkinds.symm.trans hkinds')
      obtain ⟨-, heq⟩ := hfirst.unique hfirst'
      cases heq
      rfl

/-! ## Reading one record -/

/-- What reading one record can do: the record, the instruction it gives, and the tables of names
before and after it. -/
inductive Decodes (table : NameTable) : Json → Instruction → NameTable → Prop
  | unknown {mnemonic : String} (operands : List Json) (h : Operands.ofMnemonic? mnemonic = none) :
      Decodes table (.array (.text mnemonic :: operands)) (.unknown mnemonic) table
  | fixed {mnemonic : String} {i : Instruction}
      (h : Operands.ofMnemonic? mnemonic = some (.fixed i)) :
      Decodes table (.array [.text mnemonic]) i table
  | word {mnemonic : String} {make : Int32 → Instruction} {a : Json} {n : Int32}
      (h : Operands.ofMnemonic? mnemonic = some (.word make)) (ha : a.asInt? = some n.toInt) :
      Decodes table (.array [.text mnemonic, a]) (make n) table
  | slot {a : Json} {k : UInt32} (ha : a.asInt? = some (k.toNat : Int))
      (hk : k.toNat ≤ 2147483647) : Decodes table (.array [.text "PARAM", a]) (.param k) table
  | condition (c : Condition) :
      Decodes table (.array [.text "EZ", .text c.mnemonic]) (.ez c) table
  | call {a : Json} {target : UInt64} (name : String) (ha : a.asInt? = some (target.toNat : Int)) :
      Decodes table (.array [.text "CALL", a, .text name])
        (.call target (table.intern name).1) (table.intern name).2

namespace Program

variable {index : Nat} {table table' : NameTable} {record : Json} {i : Instruction}

/-- A known mnemonic with the right number of operands is left to the reader of its operands. -/
theorem decodeRecord_of_arity {mnemonic : String} (shape : Operands) {operands : List Json}
    (h : Operands.ofMnemonic? mnemonic = some shape) (hlength : operands.length = shape.arity)
    (index : Nat) (table : NameTable) :
    decodeRecord index table (.array (.text mnemonic :: operands)) =
      (shape.read operands table).mapError (.operand index mnemonic) := by
  rw [Json.text, decodeRecord]
  rw [h]
  exact if_pos hlength

/-- Whatever a record says is read so. -/
theorem decodeRecord_of_decodes (h : Decodes table record i table') (index : Nat) :
    decodeRecord index table record = .ok (i, table') := by
  cases h with
  | unknown operands h =>
    rw [Json.text, decodeRecord]
    rw [h]
  | fixed h =>
    rw [decodeRecord_of_arity _ h rfl, Operands.read]
    rfl
  | word h ha =>
    rw [decodeRecord_of_arity _ h rfl, Operands.read, Json.asInt32?_eq_some_iff.2 ha]
    rfl
  | slot ha hk =>
    rw [decodeRecord_of_arity .slot rfl rfl, Operands.read,
      slotOperand?_eq_some_iff.2 ⟨ha, hk⟩]
    rfl
  | condition c =>
    rw [decodeRecord_of_arity .condition rfl rfl, Operands.read,
      conditionOperand?_eq_some_iff.2 rfl]
    rfl
  | call name ha =>
    rw [decodeRecord_of_arity .call rfl rfl, Operands.read,
      Json.asUInt64?_eq_some_iff.2 ha]
    rfl

/-- A known mnemonic is blamed for its first operand if that is not of its kind. -/
theorem blames_head {mnemonic : String} {kind : OperandKind} {kinds : List OperandKind} {a : Json}
    {operands : List Json} (hkinds : signature? mnemonic = some (kind :: kinds))
    (hlength : operands.length = kinds.length) (ha : ¬ kind.Accepts a) (index : Nat) :
    Blames index (.array (.text mnemonic :: a :: operands)) (.operand index mnemonic a) := by
  have hfit : ¬ Fits (kind, a) := ha
  exact .operand hkinds (congrArg (· + 1) hlength) (.head hfit _)

/-- Operands of the right number are decoded, or the first one that is not of its kind is blamed. -/
theorem decodeRecord_operands {mnemonic : String} {shape : Operands} {operands : List Json}
    (h : Operands.ofMnemonic? mnemonic = some shape) (hlength : operands.length = shape.arity)
    (index : Nat) (table : NameTable) :
    (∃ i table', Decodes table (.array (.text mnemonic :: operands)) i table') ∨
    ∃ err, Blames index (.array (.text mnemonic :: operands)) err ∧
      decodeRecord index table (.array (.text mnemonic :: operands)) = .error err := by
  have hkinds := signature?_of_ofMnemonic? h
  have hspells := Operands.spells_of_ofMnemonic? h
  rw [decodeRecord_of_arity shape h hlength]
  cases shape with
  | fixed i =>
    obtain rfl := List.length_eq_zero_iff.1 hlength
    exact .inl ⟨i, table, .fixed h⟩
  | word make =>
    obtain ⟨a, rfl⟩ := List.length_eq_one_iff.1 hlength
    cases ha : a.asInt32? with
    | some n => exact .inl ⟨make n, table, .word h (Json.asInt32?_eq_some_iff.1 ha)⟩
    | none =>
      have hnot : ¬ OperandKind.word.Accepts a := by simp [OperandKind.accepts_iff, ha]
      refine .inr ⟨_, blames_head hkinds rfl hnot index, ?_⟩
      rw [Operands.read, ha]
      rfl
  | slot =>
    obtain ⟨a, rfl⟩ := List.length_eq_one_iff.1 hlength
    obtain rfl : mnemonic = "PARAM" := hspells
    cases ha : slotOperand? a with
    | some k =>
      obtain ⟨hint, hk⟩ := slotOperand?_eq_some_iff.1 ha
      exact .inl ⟨.param k, table, .slot hint hk⟩
    | none =>
      have hnot : ¬ OperandKind.slot.Accepts a := by simp [OperandKind.accepts_iff, ha]
      refine .inr ⟨_, blames_head hkinds rfl hnot index, ?_⟩
      rw [Operands.read, ha]
      rfl
  | condition =>
    obtain ⟨a, rfl⟩ := List.length_eq_one_iff.1 hlength
    obtain rfl : mnemonic = "EZ" := hspells
    cases ha : conditionOperand? a with
    | some c =>
      obtain rfl := Json.asText?_eq_some_iff.1 (conditionOperand?_eq_some_iff.1 ha)
      exact .inl ⟨.ez c, table, .condition c⟩
    | none =>
      have hnot : ¬ OperandKind.condition.Accepts a := by simp [OperandKind.accepts_iff, ha]
      refine .inr ⟨_, blames_head hkinds rfl hnot index, ?_⟩
      rw [Operands.read, ha]
      rfl
  | call =>
    obtain ⟨a, b, rfl⟩ := List.length_eq_two.1 hlength
    obtain rfl : mnemonic = "CALL" := hspells
    cases ha : a.asUInt64? with
    | none =>
      have hnot : ¬ OperandKind.address.Accepts a := by simp [OperandKind.accepts_iff, ha]
      refine .inr ⟨_, blames_head hkinds rfl hnot index, ?_⟩
      rw [Operands.read, ha]
      rfl
    | some target =>
      cases hb : b.asText? with
      | some name =>
        obtain rfl := Json.asText?_eq_some_iff.1 hb
        exact .inl ⟨_, _, .call name (Json.asUInt64?_eq_some_iff.1 ha)⟩
      | none =>
        -- the name is looked at after the address
        have hfit : Fits (.address, a) := (OperandKind.accepts_iff _ _).2 ⟨target, ha⟩
        have hnot : ¬ Fits (.name, b) := by simp [Fits, OperandKind.accepts_iff, hb]
        refine .inr ⟨_, .operand hkinds rfl (.cons hfit (.head hnot [])), ?_⟩
        rw [Operands.read, ha, hb]
        rfl

/-- A record is decoded, or it is blamed and the blame is reported. -/
theorem decodeRecord_cases (index : Nat) (table : NameTable) (record : Json) :
    (∃ i table', Decodes table record i table') ∨
    ∃ err, Blames index record err ∧ decodeRecord index table record = .error err := by
  by_cases hshape : ∃ mnemonic operands, record = .array (.text mnemonic :: operands)
  · obtain ⟨mnemonic, operands, rfl⟩ := hshape
    cases h : Operands.ofMnemonic? mnemonic with
    | none => exact .inl ⟨_, _, .unknown operands h⟩
    | some shape =>
      by_cases hlength : operands.length = shape.arity
      · exact decodeRecord_operands h hlength index table
      · have harity : shape.kinds.length = shape.arity := by
          cases shape <;> rfl
        refine .inr ⟨_, .arity (signature?_of_ofMnemonic? h) (harity ▸ hlength), ?_⟩
        rw [harity, Json.text, decodeRecord, h]
        exact if_neg hlength
  · refine .inr ⟨_, .malformed fun mnemonic operands heq => hshape ⟨mnemonic, operands, heq⟩, ?_⟩
    rw [decodeRecord]
    intro mnemonic operands heq
    exact hshape ⟨mnemonic, operands, heq⟩

theorem decodeRecord_eq_ok_iff :
    decodeRecord index table record = .ok (i, table') ↔ Decodes table record i table' := by
  constructor
  · intro h
    rcases decodeRecord_cases index table record with ⟨i', table'', hdecodes⟩ | ⟨err, -, herr⟩
    · have hread := (decodeRecord_of_decodes hdecodes index).symm.trans h
      cases hread
      exact hdecodes
    · exact absurd (herr.symm.trans h) (by simp)
  · intro h
    exact decodeRecord_of_decodes h index

end Program

theorem grammatical_of_kinds {mnemonic : String} {kinds : List OperandKind} {operands : List Json}
    (hkinds : signature? mnemonic = some kinds)
    (hfits : List.Forall₂ OperandKind.Accepts kinds operands) :
    Grammatical (.array (.text mnemonic :: operands)) := by
  refine ⟨mnemonic, operands, rfl, ?_⟩
  intro kinds' hkinds'
  obtain rfl := Option.some.inj (hkinds.symm.trans hkinds')
  exact ⟨hfits.length_eq.symm, fun e he => List.forall₂_zip hfits he⟩

/-- A record that is decoded is grammatical. -/
theorem Decodes.grammatical {table table' : NameTable} {record : Json} {i : Instruction}
    (h : Decodes table record i table') : Grammatical record := by
  cases h with
  | unknown operands h =>
    refine ⟨_, operands, rfl, ?_⟩
    intro kinds hkinds
    rw [signature?_eq, h] at hkinds
    exact absurd hkinds (by simp)
  | fixed h => exact grammatical_of_kinds (signature?_of_ofMnemonic? h) .nil
  | word h ha =>
    have hfits := (OperandKind.accepts_iff .word _).2 ⟨_, Json.asInt32?_eq_some_iff.2 ha⟩
    exact grammatical_of_kinds (signature?_of_ofMnemonic? h) (.cons hfits .nil)
  | slot ha hk =>
    have hfits := (OperandKind.accepts_iff .slot _).2 ⟨_, slotOperand?_eq_some_iff.2 ⟨ha, hk⟩⟩
    exact grammatical_of_kinds rfl (.cons hfits .nil)
  | condition c =>
    have hfits := (OperandKind.accepts_iff .condition (.text c.mnemonic)).2
      ⟨c, conditionOperand?_eq_some_iff.2 rfl⟩
    exact grammatical_of_kinds rfl (.cons hfits .nil)
  | call name ha =>
    have hfits := (OperandKind.accepts_iff .address _).2 ⟨_, Json.asUInt64?_eq_some_iff.2 ha⟩
    have hname := (OperandKind.accepts_iff .name (.text name)).2 ⟨name, rfl⟩
    exact grammatical_of_kinds rfl (.cons hfits (.cons hname .nil))

/-! ## Tables of names -/

namespace NameTable

variable {t : NameTable} {name : String}

/-- The table holds a name at the number it was given. -/
theorem getElem?_intern (t : NameTable) (name : String) :
    (t.intern name).2.names[(t.intern name).1]? = some name := by
  rw [intern]
  split
  · rename_i id h
    exact (t.agree name id).1 h
  · exact Array.getElem?_push_size

/-- A name that is not in the table is added at its end. -/
theorem toList_intern (t : NameTable) (name : String) :
    (t.intern name).2.names.toList =
      if name ∈ t.names.toList then t.names.toList else t.names.toList ++ [name] := by
  rw [intern]
  split
  · rename_i id h
    have hmem : name ∈ t.names.toList :=
      Array.mem_toList_iff.2 (Array.mem_of_getElem? ((t.agree name id).1 h))
    rw [if_pos hmem]
  · rename_i h
    have hnot : name ∉ t.names.toList := by
      intro hmem
      obtain ⟨id, hid⟩ := Array.mem_iff_getElem?.1 (Array.mem_toList_iff.1 hmem)
      rw [(t.agree name id).2 hid] at h
      exact absurd h nofun
    rw [if_neg hnot]
    exact Array.toList_push

theorem intern_isPrefix (t : NameTable) (name : String) :
    t.names.toList <+: (t.intern name).2.names.toList := by
  rw [toList_intern]
  split
  · exact List.prefix_refl _
  · exact List.prefix_append _ _

/-- A name keeps its number while the table grows. -/
theorem getElem?_of_isPrefix {names : Array String}
    (h : (t.intern name).2.names.toList <+: names.toList) :
    names[(t.intern name).1]? = some name := by
  obtain ⟨hlt, hat⟩ := Array.getElem?_eq_some_iff.1 (t.getElem?_intern name)
  have hfound := List.prefix_iff_getElem?.1 h _ (by simpa using hlt)
  rwa [Array.getElem_toList, hat, Array.getElem?_toList] at hfound

theorem functionName_intern {p : Program}
    (h : (t.intern name).2.names.toList <+: p.names.toList) :
    p.functionName (t.intern name).1 = name := by
  rw [Program.functionName, Array.getD_eq_getD_getElem?, getElem?_of_isPrefix h]
  rfl

end NameTable

/-- Tables only grow. -/
theorem Decodes.isPrefix {table table' : NameTable} {record : Json} {i : Instruction}
    (h : Decodes table record i table') : table.names.toList <+: table'.names.toList := by
  cases h with
  | call name _ => exact table.intern_isPrefix name
  | _ => exact List.prefix_refl _

/-! ## What a record says -/

/-- Two values hold the same integer, or the same text. -/
def Json.SameMeaning (a b : Json) : Prop :=
  a.asInt? = b.asInt? ∧ a.asText? = b.asText?

theorem Json.sameMeaning_int {a : Json} {i : Int} (h : a.asInt? = some i) : a.SameMeaning (.int i) := by
  refine ⟨h.trans (asInt?_int i).symm, ?_⟩
  cases a with
  | string s => exact absurd h (by simp [asInt?])
  | _ => rfl

/-- An instruction is the one that a record names, with the operands that the record gives it. -/
def Program.Says (p : Program) (record : Json) (i : Instruction) : Prop :=
  ∃ operands, record = .array (.text i.mnemonic :: operands) ∧
    if (signature? i.mnemonic).isSome = true then
      i ≠ .unknown i.mnemonic ∧ List.Forall₂ Json.SameMeaning operands (p.operands i)
    else i = .unknown i.mnemonic

theorem Program.says_of_known {p : Program} {i : Instruction} {operands : List Json}
    {kinds : List OperandKind} (hkinds : signature? i.mnemonic = some kinds)
    (hknown : i ≠ .unknown i.mnemonic)
    (hoperands : List.Forall₂ Json.SameMeaning operands (p.operands i)) :
    p.Says (.array (.text i.mnemonic :: operands)) i := by
  refine ⟨operands, rfl, ?_⟩
  rw [if_pos (by rw [hkinds]; rfl)]
  exact ⟨hknown, hoperands⟩

/-- A decoded record says what it is decoded to, in every program whose table continues the table after
it. -/
theorem Decodes.says {table table' : NameTable} {record : Json} {i : Instruction}
    (h : Decodes table record i table') {p : Program}
    (hp : table'.names.toList <+: p.names.toList) :
    p.Says record i := by
  cases h with
  | unknown operands h =>
    refine ⟨operands, rfl, ?_⟩
    have hnone : signature? (Instruction.mnemonic (.unknown _)) = none :=
      (signature?_eq _).trans (congrArg (Option.map _) h)
    rw [hnone, if_neg (by simp)]
    rfl
  | fixed h =>
    obtain ⟨rfl, hknown, hoperands⟩ := Operands.spells_of_ofMnemonic? h
    refine Program.says_of_known (signature?_of_ofMnemonic? h) hknown ?_
    rw [hoperands]
    exact .nil
  | @word _ _ _ n h ha =>
    obtain ⟨rfl, hknown, hoperands⟩ := Operands.spells_of_ofMnemonic? h n
    refine Program.says_of_known (signature?_of_ofMnemonic? h) hknown ?_
    rw [hoperands]
    exact .cons (Json.sameMeaning_int ha) .nil
  | slot ha _ =>
    exact Program.says_of_known (i := .param _) rfl nofun (.cons (Json.sameMeaning_int ha) .nil)
  | condition c =>
    exact Program.says_of_known (i := .ez c) rfl nofun (.cons ⟨rfl, rfl⟩ .nil)
  | call name ha =>
    -- the name is found at the number that the call was given
    have hname : Json.SameMeaning (.text name)
        (.text (p.functionName (table.intern name).1)) := by
      rw [NameTable.functionName_intern hp]
      exact ⟨rfl, rfl⟩
    exact Program.says_of_known (i := .call _ _) rfl nofun
      (.cons (Json.sameMeaning_int ha) (.cons hname .nil))

/-! ## Reading a list of records -/

namespace Program

variable {code : Array Instruction} {table : NameTable} {q : Program} {record : Json}
  {records : List Json}

theorem decodeRecords_cons_eq_ok_iff :
    decodeRecords code table (record :: records) = .ok q ↔
      ∃ i table', Decodes table record i table' ∧
        decodeRecords (code.push i) table' records = .ok q := by
  rw [decodeRecords]
  constructor
  · intro h
    split at h
    · rename_i i table' hread
      exact ⟨i, table', decodeRecord_eq_ok_iff.1 hread, h⟩
    · exact absurd h (by simp)
  · rintro ⟨i, table', hdecodes, h⟩
    rw [decodeRecord_of_decodes hdecodes]
    exact h

/-- A list is read if all its records are grammatical; otherwise the first one that is not is blamed. -/
theorem decodeRecords_cases (code : Array Instruction) (table : NameTable) (records : List Json) :
    ((∀ r ∈ records, Grammatical r) ∧ ∃ q, decodeRecords code table records = .ok q) ∨
    ∃ before r err, FirstFault Grammatical records before r ∧
      Blames (code.size + before.length) r err ∧
      decodeRecords code table records = .error err := by
  induction records generalizing code table with
  | nil => exact .inl ⟨by simp, _, rfl⟩
  | cons record records ih =>
    rcases decodeRecord_cases code.size table record with
      ⟨i, table', hdecodes⟩ | ⟨err, hblames, herr⟩
    · have hgrammatical := hdecodes.grammatical
      have hread : decodeRecords code table (record :: records) =
          decodeRecords (code.push i) table' records := by
        rw [decodeRecords, decodeRecord_of_decodes hdecodes]
      rw [hread]
      rcases ih (code.push i) table' with
        ⟨hall, hok⟩ | ⟨before, r, err, hfirst, hblames, herr⟩
      · exact .inl ⟨by simpa using ⟨hgrammatical, hall⟩, hok⟩
      · refine .inr ⟨record :: before, r, err, hfirst.cons hgrammatical, ?_, herr⟩
        -- the records before the first fault have all been turned into instructions
        have hindex : code.size + (record :: before).length =
            (code.push i).size + before.length := by
          rw [Array.size_push, List.length_cons]
          omega
        rw [hindex]
        exact hblames
    · refine .inr ⟨[], record, err, .head hblames.not_grammatical _, hblames, ?_⟩
      rw [decodeRecords, herr]

/-- A record has been decoded to an instruction on the way to a program. -/
def Decoded (q : Program) (record : Json) (i : Instruction) : Prop :=
  ∃ table table', Decodes table record i table' ∧ table'.names.toList <+: q.names.toList

theorem Decoded.says {q : Program} {record : Json} {i : Instruction} (h : q.Decoded record i) :
    q.Says record i := by
  obtain ⟨table, table', hdecodes, hnames⟩ := h
  exact hdecodes.says hnames

/-- What has been read is one instruction for each record, in order, and a table that continues the one
before. -/
theorem decoded_of_decodeRecords (h : decodeRecords code table records = .ok q) :
    table.names.toList <+: q.names.toList ∧
      ∃ added, q.code.toList = code.toList ++ added ∧ List.Forall₂ q.Decoded records added := by
  induction records generalizing code table with
  | nil =>
    cases h
    exact ⟨List.prefix_refl _, [], by simp, .nil⟩
  | cons record records ih =>
    obtain ⟨i, table', hdecodes, hrest⟩ := decodeRecords_cons_eq_ok_iff.1 h
    obtain ⟨hnames, added, hcode, hadded⟩ := ih hrest
    refine ⟨hdecodes.isPrefix.trans hnames, i :: added, ?_,
      .cons ⟨_, _, hdecodes, hnames⟩ hadded⟩
    rw [hcode, Array.toList_push, List.append_assoc, List.singleton_append]

/-- A value that is no list is refused as such. -/
theorem ofJson_of_not_array {v : Json} (h : ∀ records, v ≠ .array records) :
    ofJson v = .error .notAList := by
  cases v with
  | array records => exact absurd rfl (h records)
  | _ => rfl

/-- Reading a list reports the blame of its first record that is not grammatical, and nothing else. -/
theorem ofJson_array_eq_error_iff {err : ProgramError} :
    ofJson (.array records) = .error err ↔
      ∃ before r, FirstFault Grammatical records before r ∧ Blames before.length r err := by
  have hindex : ∀ before : List Json,
      Array.size (#[] : Array Instruction) + before.length = before.length :=
    fun _ => Nat.zero_add _
  rcases decodeRecords_cases #[] {} records with
    ⟨hall, q, hok⟩ | ⟨before, r, err', hfirst, hblames, herr⟩
  · constructor
    · intro h
      exact absurd (hok.symm.trans h) (by simp)
    · rintro ⟨before, r, hfirst, -⟩
      exact absurd hall hfirst.not_forall
  · rw [hindex] at hblames
    constructor
    · intro h
      obtain rfl := Except.error.inj (herr.symm.trans h)
      exact ⟨before, r, hfirst, hblames⟩
    · rintro ⟨before', r', hfirst', hblames'⟩
      -- there is one first fault, and one thing it is blamed for
      obtain ⟨rfl, rfl⟩ := hfirst.unique hfirst'
      rw [hblames.unique hblames']
      exact herr

/-- A value is read as a program exactly if it is a list of grammatical records, and the program has one
instruction for each record, in order, with the operands that the record gives it. Otherwise the value
is no list, or the first record that is not grammatical is reported with its index: for its shape, or
else for the number of its operands, or else for the first operand that is not of its kind. -/
theorem decoded_iff_grammatical (v : Json) :
    ((∃ p, ofJson v = .ok p) ↔ ∃ records, v = .array records ∧ ∀ r ∈ records, Grammatical r) ∧
    (∀ p, ofJson v = .ok p →
      ∃ records, v = .array records ∧ List.Forall₂ p.Says records p.code.toList) ∧
    (∀ err, ofJson v = .error err ↔
      (∀ records, v ≠ .array records) ∧ err = .notAList ∨
      ∃ records before r, v = .array records ∧ FirstFault Grammatical records before r ∧
        Blames before.length r err) := by
  by_cases harray : ∃ records, v = .array records
  · obtain ⟨records, rfl⟩ := harray
    refine ⟨⟨?_, ?_⟩, ?_, ?_⟩
    · rintro ⟨p, hp⟩
      rcases decodeRecords_cases #[] {} records with ⟨hall, -⟩ | ⟨_, _, _, -, -, herr⟩
      · exact ⟨records, rfl, hall⟩
      · exact absurd (herr.symm.trans hp) (by simp)
    · rintro ⟨records', heq, hall⟩
      cases heq
      rcases decodeRecords_cases #[] {} records with ⟨-, hok⟩ | ⟨_, _, _, hfirst, -⟩
      · exact hok
      · exact absurd hall hfirst.not_forall
    · intro p hp
      obtain ⟨-, added, hcode, hadded⟩ := decoded_of_decodeRecords hp
      have hsays : List.Forall₂ p.Says records added := hadded.imp fun _ _ => Decoded.says
      have hall : p.code.toList = added := hcode
      exact ⟨records, rfl, hall ▸ hsays⟩
    · intro err
      rw [ofJson_array_eq_error_iff]
      constructor
      · rintro ⟨before, r, hfirst, hblames⟩
        exact .inr ⟨records, before, r, rfl, hfirst, hblames⟩
      · rintro (⟨hnot, -⟩ | ⟨records', before, r, heq, hfirst, hblames⟩)
        · exact absurd rfl (hnot records)
        · cases heq
          exact ⟨before, r, hfirst, hblames⟩
  · have hnot : ∀ records, v ≠ .array records := fun records heq => harray ⟨records, heq⟩
    have herr := ofJson_of_not_array hnot
    refine ⟨⟨?_, ?_⟩, ?_, ?_⟩
    · rintro ⟨p, hp⟩
      exact absurd (herr.symm.trans hp) (by simp)
    · rintro ⟨records, heq, -⟩
      exact absurd heq (hnot records)
    · intro p hp
      exact absurd (herr.symm.trans hp) (by simp)
    · intro err
      rw [herr]
      constructor
      · intro h
        exact .inl ⟨hnot, (Except.error.inj h).symm⟩
      · rintro (⟨-, rfl⟩ | ⟨records, _, _, heq, -⟩)
        · rfl
        · exact absurd heq (hnot records)

/-- A list whose first three records are grammatical, of which the second has a mnemonic that is not
known. The operand of the fourth is an integer beyond 32 bits. -/
def sloppy : List Json :=
  [.array [.text "LOAD", .int (-3)], .array [.text "JUMP", .null],
    .array [.text "CALL", .int 7, .text "f"], .array [.text "JZ", .int 2147483648], .null]

/-- The first three records make a program. All of them are refused for the operand of the fourth, not
for the fifth, which is no record at all. -/
theorem decoded_iff_grammatical_sloppy :
    (∃ p, ofJson (.array (sloppy.take 3)) = .ok p) ∧
      ofJson (.array sloppy) = .error (.operand 3 "JZ" (.int 2147483648)) := by
  have hload : Grammatical (.array [.text "LOAD", .int (-3)]) :=
    grammatical_of_kinds rfl (.cons (by decide) .nil)
  have hjump : Grammatical (.array [.text "JUMP", .null]) := by
    have hunknown : signature? "JUMP" = none := by decide
    refine ⟨"JUMP", [.null], rfl, ?_⟩
    intro kinds hkinds
    rw [hunknown] at hkinds
    exact absurd hkinds (by simp)
  have hcall : Grammatical (.array [.text "CALL", .int 7, .text "f"]) :=
    grammatical_of_kinds rfl (.cons (by decide) (.cons (by decide) .nil))
  refine ⟨(decoded_iff_grammatical _).1.2 ⟨_, rfl, ?_⟩, ?_⟩
  · intro r hr
    simp only [sloppy, List.take_succ_cons, List.take_zero, List.mem_cons, List.not_mem_nil,
      or_false] at hr
    rcases hr with rfl | rfl | rfl
    · exact hload
    · exact hjump
    · exact hcall
  · have hblames : Blames 3 (.array [.text "JZ", .int 2147483648])
        (.operand 3 "JZ" (.int 2147483648)) := by
      have hkinds : signature? "JZ" = some [.word] := rfl
      exact blames_head hkinds rfl (by decide) 3
    refine ((decoded_iff_grammatical _).2.2 _).2 (.inr ⟨sloppy, sloppy.take 3, _, rfl, ?_, hblames⟩)
    exact (FirstFault.head hblames.not_grammatical _).cons hcall |>.cons hjump |>.cons hload

end Program

end GridRobot
