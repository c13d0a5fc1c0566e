import GridRobot.Proofs.Program.Grammar
import Mathlib.Data.List.Induction

/-!
# Writing a program that has been read

A program that has been read is written as a list of records again, with its functions by their names.
The list is not the one that was read: a number may have been written differently, and a mnemonic that
is not known loses its operands. But it is read as the same program (`ofJson_toJson`).

The table of names is made by looking up the names that calls use, one after the other
(`names_of_decodeRecords`); so it lists each of them once, in the order of their first use.
-/

set_option autoImplicit false

namespace GridRobot

/-! ## The table of names -/

/-- The name that a record calls, if it is a call. -/
def calledName? : Json → Option String
  | .array [.string (some mnemonic), _, .string (some name)] =>
    if mnemonic = "CALL" then some name else none
  | _ => none

/-- The table after some names have been looked up. -/
def NameTable.internAll (t : NameTable) (called : List String) : NameTable :=
  called.foldl (fun t name => (t.intern name).2) t

theorem Operands.ofMnemonic?_call : ofMnemonic? "CALL" = some .call :=
  rfl

/-- A record adds to the table the name that it calls. -/
theorem Decodes.table_eq {table table' : NameTable} {record : Json} {i : Instruction}
    (h : Decodes table record i table') :
    table' = table.internAll (calledName? record).toList := by
  cases h with
  | @unknown mnemonic operands h =>
    -- a call has a known mnemonic
    have hnone : calledName? (.array (.text mnemonic :: operands)) = none := by
      unfold calledName?
      split
      · rename_i heq
        cases heq
        rw [if_neg]
        rintro rfl
        exact absurd (Operands.ofMnemonic?_call.symm.trans h) nofun
      · rfl
    rw [hnone]
    rfl
  | _ => rfl

/-- Looking up names leaves each of them once, in the order in which they came. -/
theorem NameTable.toList_internAll (called : List String) :
    (internAll {} called).names.toList = called.eraseDups := by
  -- what a further name changes is seen at the end of the list
  induction called using List.reverseRecOn with
  | nil => rfl
  | append_singleton called name ih =>
    have hlast : internAll {} (called ++ [name]) = ((internAll {} called).intern name).2 := by
      rw [internAll, List.foldl_append]
      rfl
    rw [hlast, toList_intern, ih, List.eraseDups_append]
    by_cases hmem : name ∈ called
    · rw [if_pos (List.mem_eraseDups.2 hmem)]
      simp [hmem, List.removeAll]
    · rw [if_neg (mt List.mem_eraseDups.1 hmem)]
      simp [hmem, List.removeAll, List.eraseDups_cons]

/-- No name is listed twice, since the map gives it one number. -/
theorem NameTable.nodup (t : NameTable) : t.names.toList.Nodup := by
  have hid : ∀ (k : Nat) (hk : k < t.names.toList.length), t.ids[t.names.toList[k]]? = some k := by
    intro k hk
    rw [t.agree, ← Array.getElem?_toList, List.getElem?_eq_getElem hk]
  refine List.pairwise_iff_getElem.2 ?_
  intro i j hi hj hij heq
  have hsame := (hid i hi).symm.trans (heq ▸ hid j hj)
  exact absurd (Option.some.inj hsame) (Nat.ne_of_lt hij)

namespace Program

variable {code : Array Instruction} {table : NameTable} {q : Program} {records : List Json}

/-- The table of a program is made of the names that its records call. -/
theorem names_of_decodeRecords (h : decodeRecords code table records = .ok q) :
    q.names = (table.internAll (records.filterMap calledName?)).names := by
  induction records generalizing code table with
  | nil =>
    cases h
    rfl
  | cons record records ih =>
    obtain ⟨i, table', hdecodes, hrest⟩ := decodeRecords_cons_eq_ok_iff.1 h
    rw [ih hrest, hdecodes.table_eq, List.filterMap_cons]
    cases calledName? record <;> rfl

end Program

/-! ## Writing and reading again -/

/-- The record that an instruction is written as is decoded like the one it was read from. -/
theorem Decodes.record {table table' : NameTable} {record : Json} {i : Instruction} {p : Program}
    (h : Decodes table record i table') (hp : table'.names.toList <+: p.names.toList) :
    Decodes table (p.record i) i table' := by
  cases h with
  | unknown operands h => exact .unknown [] h
  | fixed h =>
    obtain ⟨rfl, -, hoperands⟩ := Operands.spells_of_ofMnemonic? h
    rw [Program.record, hoperands]
    exact .fixed h
  | @word _ make _ n h _ =>
    obtain ⟨rfl, -, hoperands⟩ := Operands.spells_of_ofMnemonic? h n
    rw [Program.record, hoperands]
    exact .word h (Json.asInt?_int n.toInt)
  | slot _ hk => exact .slot (Json.asInt?_int _) hk
  | condition c => exact .condition c
  | @call _ target name _ =>
    have hcall : p.record (.call target (table.intern name).1) =
        .array [.text "CALL", .int target.toNat, .text name] := by
      show Json.array [.text "CALL", .int target.toNat, .text (p.functionName _)] = _
      rw [NameTable.functionName_intern hp]
    rw [hcall]
    exact .call name (Json.asInt?_int _)

namespace Program

variable {code : Array Instruction} {table : NameTable} {p q : Program} {records : List Json}

/-- The instructions that have been read are read again from the records they are written as. -/
theorem decodeRecords_record (h : decodeRecords code table records = .ok q) :
    ∃ added, q.code.toList = code.toList ++ added ∧
      decodeRecords code table (added.map q.record) = .ok q := by
  induction records generalizing code table with
  | nil =>
    cases h
    exact ⟨[], by simp, rfl⟩
  | cons record records ih =>
    obtain ⟨i, table', hdecodes, hrest⟩ := decodeRecords_cons_eq_ok_iff.1 h
    obtain ⟨added, hcode, hagain⟩ := ih hrest
    obtain ⟨hnames, -⟩ := decoded_of_decodeRecords hrest
    refine ⟨i :: added, ?_, ?_⟩
    · rw [hcode, Array.toList_push, List.append_assoc, List.singleton_append]
    · -- every name still has its number in the table of the whole program
      exact decodeRecords_cons_eq_ok_iff.2 ⟨i, table', hdecodes.record hnames, hagain⟩

theorem ofJson_toJson {v : Json} (h : ofJson v = .ok p) : ofJson p.toJson = .ok p := by
  cases v with
  | array records =>
    obtain ⟨added, hcode, hagain⟩ := decodeRecords_record h
    have hall : p.code.toList = added := hcode
    rw [toJson, hall]
    exact hagain
  | _ => exact absurd h (by simp [ofJson])

/-- A record that is headed by the mnemonic of calls has been decoded to a call of the name it gives. -/
theorem Decoded.call {operands : List Json} {i : Instruction}
    (h : q.Decoded (.array (.text "CALL" :: operands)) i) :
    ∃ a name target function, operands = [a, .text name] ∧ i = .call target function ∧
      a.asInt? = some (target.toNat : Int) ∧ q.names[function]? = some name := by
  obtain ⟨table, table', hdecodes, hnames⟩ := h
  generalize hrecord : Json.array (.text "CALL" :: operands) = record at hdecodes
  -- the mnemonic tells what the record was decoded as
  cases hdecodes with
  | unknown _ h =>
    cases hrecord
    exact absurd (Operands.ofMnemonic?_call.symm.trans h) nofun
  | fixed h =>
    cases hrecord
    exact absurd (Operands.ofMnemonic?_call.symm.trans h) nofun
  | word h _ =>
    cases hrecord
    exact absurd (Operands.ofMnemonic?_call.symm.trans h) nofun
  | slot _ _ => exact absurd hrecord (by simp [Json.text])
  | condition _ => exact absurd hrecord (by simp [Json.text])
  | call name ha =>
    cases hrecord
    exact ⟨_, name, _, _, rfl, rfl, ha, NameTable.getElem?_of_isPrefix hnames⟩

/-- In a program that has been read, every record headed by the mnemonic of calls has become a call whose
function is listed under the name that the record gives. The table of functions lists the called names
once each, in the order in which they are first called. And the program, written as a list of records
again, is read as itself. -/
theorem rewritten_reads_back {v : Json} (h : ofJson v = .ok p) :
    ∃ records : List Json, v = .array records ∧
      (∀ (k : Nat) (operands : List Json), records[k]? = some (.array (.text "CALL" :: operands)) →
        ∃ (a : Json) (name : String) (target : UInt64) (function : Nat),
          operands = [a, .text name] ∧ p.code[k]? = some (.call target function) ∧
          a.asInt? = some (target.toNat : Int) ∧
          function < p.names.size ∧ p.functionName function = name) ∧
      p.names.toList.Nodup ∧
      p.names.toList = (records.filterMap calledName?).eraseDups ∧
      ofJson p.toJson = .ok p := by
  have hagain := ofJson_toJson h
  cases v with
  | array records =>
    have hnames := names_of_decodeRecords h
    obtain ⟨-, added, hcode, hdecoded⟩ := decoded_of_decodeRecords h
    have hall : p.code.toList = added := hcode
    refine ⟨records, rfl, ?_, ?_, ?_, hagain⟩
    · intro k operands hk
      obtain ⟨hlt, hat⟩ := List.getElem?_eq_some_iff.1 hk
      have hlt' : k < p.code.toList.length := by
        rw [hall, ← hdecoded.length_eq]
        exact hlt
      have hdecoded' : p.Decoded records[k] p.code.toList[k] := (hall ▸ hdecoded).get hlt hlt'
      rw [hat] at hdecoded'
      obtain ⟨a, name, target, function, hoperands, hi, ha, hname⟩ := hdecoded'.call
      have hcall : p.code[k]? = some (.call target function) := by
        rw [← Array.getElem?_toList, List.getElem?_eq_getElem hlt', hi]
      refine ⟨a, name, target, function, hoperands, hcall, ha, ?_, ?_⟩
      · exact (Array.getElem?_eq_some_iff.1 hname).1
      · rw [functionName, Array.getD_eq_getD_getElem?, hname]
        rfl
    · rw [hnames]
      exact NameTable.nodup _
    · rw [hnames]
      exact NameTable.toList_internAll _
  | _ => exact absurd h (by simp [ofJson])

/-- Records that call two functions, one of them twice, and have a mnemonic that is not known. -/
def errands : List Json :=
  [.array [.text "CALL", .int 4, .text "fetch"], .array [.text "CARRY", .int 1, .null],
    .array [.text "CALL", .int 0, .text "leave"], .array [.text "CALL", .int 9, .text "fetch"],
    .array [.text "EZ", .text "WALL"]]

/-- The third call is given the number of the first, and the operands of the mnemonic that is not known
are not written again. -/
theorem rewritten_reads_back_errands :
    ∃ p : Program, ofJson (.array errands) = .ok p ∧ p.names = #["fetch", "leave"] ∧
      p.code[3]? = some (.call 9 0) ∧ p.record (.unknown "CARRY") = .array [.text "CARRY"] ∧
      p.names.toList = (errands.filterMap calledName?).eraseDups ∧ ofJson p.toJson = .ok p := by
  have hdecodes : ∃ p, decodeRecords #[] {} errands = .ok p := by
    simp only [errands, decodeRecords_cons_eq_ok_iff]
    exact ⟨_, _, _, @Decodes.call _ _ 4 "fetch" rfl, _, _, .unknown _ rfl,
      _, _, @Decodes.call _ _ 0 "leave" rfl, _, _, @Decodes.call _ _ 9 "fetch" rfl,
      _, _, .condition .wall, rfl⟩
  obtain ⟨p, hread⟩ : ∃ p, ofJson (.array errands) = .ok p := hdecodes
  obtain ⟨records, heq, hcalls, -, hnames, hagain⟩ := rewritten_reads_back hread
  cases heq
  have hlisted : p.names = #["fetch", "leave"] := Array.toList_inj.1 (hnames.trans (by decide))
  obtain ⟨a, name, target, function, hoperands, hcode, ha, hlt, hname⟩ := hcalls 3 _ rfl
  cases hoperands
  -- the third call has the address it is given, and of the two numbers only the first is named so
  obtain rfl : target = 9 := UInt64.toNat_inj.1 (Int.ofNat_inj.1 (Option.some.inj ha).symm)
  obtain rfl : function = 0 := by
    rw [functionName, hlisted] at hname
    rw [hlisted] at hlt
    have htwo : function < 2 := hlt
    obtain rfl | rfl : function = 0 ∨ function = 1 := by omega
    · rfl
    · exact absurd hname (by decide)
  exact ⟨p, hread, hlisted, hcode, rfl, hnames, hagain⟩

end Program

end GridRobot
