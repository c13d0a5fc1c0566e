import GridRobot.Json.Printer
import GridRobot.Json.Reader

/-!
# What is written is read back

`Json.Writable` describes the values that documents and reports are made of: their strings name
texts, and their numbers are integers of at most 64 bits. The main statement is `parse_pretty`: the
text of such a value, laid out on lines, denotes that value.

A reader takes a value from the start of a text and goes on with what follows it, so each part is
stated for every continuation. Only a number has to know where it ends: what follows must not be
able to continue it (`EndsNumber`). The fuel of the readers is bounded by the length of the text to
be read.
-/

set_option autoImplicit false

namespace GridRobot

/-- The integers that are written digit by digit. -/
def IsWord (i : Int) : Prop :=
  -9223372036854775808 ≤ i ∧ i < 18446744073709551616

namespace Json

/-! ## Blanks -/

theorem skipBlanks_append {blanks : List Char} (h : ∀ c ∈ blanks, isBlank c = true)
    (cs : List Char) : skipBlanks (blanks ++ cs) = skipBlanks cs :=
  List.dropWhile_append_of_pos h

theorem skipBlanks_cons {c : Char} (h : isBlank c = false) (cs : List Char) :
    skipBlanks (c :: cs) = c :: cs := by
  rw [skipBlanks, List.dropWhile_cons_of_neg (by simp [h])]

theorem isBlank_of_mem_newLine (level : Nat) : ∀ c ∈ newLine level, isBlank c = true := by
  intro c h
  rcases List.mem_cons.1 h with rfl | hspace
  · rfl
  · rw [List.eq_of_mem_replicate hspace]
    rfl

/-- A new line is skipped, whatever its level. -/
theorem skipBlanks_newLine (level : Nat) (cs : List Char) :
    skipBlanks (newLine level ++ cs) = skipBlanks cs :=
  skipBlanks_append (isBlank_of_mem_newLine level) cs

/-- Blanks before a value do not matter. -/
theorem valueWith_append {blanks : List Char} (h : ∀ c ∈ blanks, isBlank c = true) (fuel : Nat)
    (cs : List Char) : valueWith fuel (blanks ++ cs) = valueWith fuel cs := by
  cases fuel with
  | zero => simp only [valueWith]
  | succ fuel => simp only [valueWith, skipBlanks_append h]

/-! ## Numbers -/

/-- What follows cannot continue a number. -/
def EndsNumber (cs : List Char) : Prop :=
  ∀ c ∈ cs.head?, c.isDigit = false ∧ c ≠ '.' ∧ c ≠ 'e' ∧ c ≠ 'E'

theorem endsNumber_nil : EndsNumber [] := by
  intro c hc
  exact absurd hc (by simp)

theorem endsNumber_cons {c : Char} (h : c.isDigit = false ∧ c ≠ '.' ∧ c ≠ 'e' ∧ c ≠ 'E')
    (cs : List Char) : EndsNumber (c :: cs) := by
  intro d hd
  obtain rfl : c = d := by simpa using hd
  exact h

theorem endsNumber_newLine (level : Nat) (cs : List Char) : EndsNumber (newLine level ++ cs) :=
  endsNumber_cons (by decide) _

theorem isDigit_of_mem_natText {n : Nat} {c : Char} (h : c ∈ Numeral.natText n) :
    c.isDigit = true :=
  Nat.isDigit_of_mem_toDigits (by decide) (by decide) h

theorem digits_natText (n : Nat) {rest : List Char} (hrest : EndsNumber rest) :
    digits (Numeral.natText n ++ rest) = some (Numeral.natText n, rest) := by
  have hdigits : ∀ c ∈ Numeral.natText n, c.isDigit = true := fun _ => isDigit_of_mem_natText
  have hend : rest.takeWhile Char.isDigit = [] ∧ rest.dropWhile Char.isDigit = rest := by
    cases rest with
    | nil => exact ⟨rfl, rfl⟩
    | cons c cs =>
      have hc := (hrest c rfl).1
      simp [hc]
  rw [digits, List.takeWhile_append_of_pos hdigits, List.dropWhile_append_of_pos hdigits, hend.1,
    hend.2, List.append_nil]
  split
  · rename_i hnil
    exact absurd hnil Nat.toDigits_ne_nil
  · rfl

/-- Only zero is written with a leading zero. -/
theorem exists_natText (n : Nat) :
    ∃ c cs, Numeral.natText n = c :: cs ∧ c.isDigit = true ∧ (c = '0' → n = 0) := by
  induction n using Nat.strongRecOn with
  | ind n ih =>
    by_cases hn : n < 10
    · have htext : Numeral.natText n = [n.digitChar] := Nat.toDigits_of_lt_base hn
      exact ⟨n.digitChar, [], htext, by simp [hn], Nat.digitChar_eq_zero.1⟩
    · have htext : Numeral.natText n = Numeral.natText (n / 10) ++ [(n % 10).digitChar] :=
        Nat.toDigits_of_base_le (by decide) (by omega)
      obtain ⟨c, cs, hcs, hdigit, hzero⟩ := ih (n / 10) (by omega)
      refine ⟨c, cs ++ [(n % 10).digitChar], ?_, hdigit, ?_⟩
      · rw [htext, hcs]
        rfl
      · intro hc
        have := hzero hc
        omega

theorem wholePart_natText (n : Nat) {rest : List Char} (hrest : EndsNumber rest) :
    wholePart (Numeral.natText n ++ rest) = some (n, rest) := by
  obtain ⟨c, cs, htext, -, hzero⟩ := exists_natText n
  have hdigits := digits_natText n hrest
  by_cases hc : c = '0'
  · -- a zero stands alone
    obtain rfl := hzero hc
    rfl
  · rw [htext, List.cons_append] at hdigits ⊢
    rw [wholePart]
    · rw [hdigits, ← htext]
      simp [Numeral.natText]
    · intro tail heq
      exact hc (List.cons.inj heq).1

theorem fractionPart_of_endsNumber {rest : List Char} (hrest : EndsNumber rest) :
    fractionPart rest = some ([], rest) := by
  cases rest with
  | nil => rfl
  | cons c cs =>
    rw [fractionPart]
    intro tail heq
    exact (hrest c rfl).2.1 (List.cons.inj heq).1

theorem exponentPart_of_endsNumber {rest : List Char} (hrest : EndsNumber rest) :
    exponentPart rest = some (none, rest) := by
  cases rest with
  | nil => rfl
  | cons c cs =>
    obtain ⟨-, -, he, hE⟩ := hrest c rfl
    simp [exponentPart, he, hE]

theorem unsignedNumeral_natText (negative : Bool) (n : Nat) {rest : List Char}
    (hrest : EndsNumber rest) :
    unsignedNumeral negative (Numeral.natText n ++ rest) =
      some ({ negative, whole := n }, rest) := by
  simp [unsignedNumeral, wholePart_natText n hrest, fractionPart_of_endsNumber hrest,
    exponentPart_of_endsNumber hrest]

/-- The digits of an integer are read as that integer. -/
theorem numeral_intText (i : Int) {rest : List Char} (hrest : EndsNumber rest) :
    numeral (Numeral.intText i ++ rest) = some (.ofInt i, rest) := by
  cases i with
  | ofNat n =>
    obtain ⟨c, cs, htext, hdigit, -⟩ := exists_natText n
    have hnumeral := unsignedNumeral_natText false n hrest
    show numeral (Numeral.natText n ++ rest) = _
    rw [htext, List.cons_append] at hnumeral ⊢
    rw [numeral]
    · exact hnumeral
    · -- a digit is not a sign
      intro tail heq
      obtain rfl := (List.cons.inj heq).1
      exact absurd hdigit (by decide)
  | negSucc n => exact unsignedNumeral_natText true (n + 1) hrest

theorem render_ofInt {i : Int} (h : IsWord i) : (Numeral.ofInt i).render = Numeral.intText i := by
  have hword : (Numeral.ofInt i).toWord? = some i := by
    simp [Numeral.toWord?, Numeral.toInt?_ofInt, h.1, h.2]
  rw [Numeral.render, hword]

/-! ## String literals -/

theorem hexValue?_hexDigit : ∀ n < 16, hexValue? (hexDigit n) = some n := by
  decide

theorem unitPiece?_of_control {c : Char} (h : c.toNat < 32) :
    unitPiece? '0' '0' (hexDigit (c.toNat / 16)) (hexDigit (c.toNat % 16)) = some (.char c) := by
  have hzero : hexValue? '0' = some 0 := by decide
  have hhigh := hexValue?_hexDigit (c.toNat / 16) (by omega)
  have hlow := hexValue?_hexDigit (c.toNat % 16) (by omega)
  have hunit : c.toNat / 16 * 16 + c.toNat % 16 = c.toNat := by omega
  have hnot : ¬ (0xD800 ≤ c.toNat ∧ c.toNat ≤ 0xDFFF) := by omega
  simp [unitPiece?, hzero, hhigh, hlow, hunit, hnot]

/-- A character is read back from what a literal writes for it. -/
theorem pieces_escapeChar (c : Char) (cs : List Char) (done : List Piece) :
    pieces (escapeChar c ++ cs) done = pieces cs (.char c :: done) := by
  by_cases hnamed : c ∈ ['"', '\\', '\x08', '\x0c', '\n', '\r', '\t']
  · -- these have an escape of their own
    simp only [List.mem_cons, List.not_mem_nil, or_false] at hnamed
    rcases hnamed with rfl | rfl | rfl | rfl | rfl | rfl | rfl <;> rfl
  · simp only [List.mem_cons, List.not_mem_nil, or_false, not_or] at hnamed
    obtain ⟨hquote, hbackslash, hb, hf, hn, hr, ht⟩ := hnamed
    rw [escapeChar, if_neg hquote, if_neg hbackslash, if_neg hb, if_neg hf, if_neg hn, if_neg hr,
      if_neg ht]
    split
    · rename_i hcontrol
      simp only [List.cons_append, List.nil_append]
      rw [pieces, unitPiece?_of_control hcontrol]
    · rename_i hplain
      rw [List.singleton_append, pieces]
      · simp [hplain, hbackslash]
      · exact hquote
      · intro _ _ _ _ _ h
        exact absurd h hbackslash
      · intro _ _ h
        exact absurd h hbackslash

theorem pieces_flatMap_escapeChar (cs rest : List Char) (done : List Piece) :
    pieces (cs.flatMap escapeChar ++ rest) done =
      pieces rest ((cs.map Piece.char).reverse ++ done) := by
  induction cs generalizing done with
  | nil => rfl
  | cons c cs ih =>
    rw [List.flatMap_cons, List.append_assoc, pieces_escapeChar, ih]
    simp

theorem joinPieces_map_char (cs : List Char) : joinPieces (cs.map .char) = some cs := by
  induction cs with
  | nil => rfl
  | cons c cs ih => simp [joinPieces, ih]

/-- A literal names the text it was written for. -/
theorem literal_escaped (s : String) (rest : List Char) :
    literal (s.toList.flatMap escapeChar ++ '"' :: rest) = some (some s, rest) := by
  rw [literal, pieces_flatMap_escapeChar]
  simp [pieces, joinPieces_map_char]

/-! ## Values -/

/-- The values that are read back from their text: strings name texts, numbers are integers of at
most 64 bits, and so in all parts. -/
inductive Writable : Json → Prop where
  | null : Writable .null
  | bool (b : Bool) : Writable (.bool b)
  | int {i : Int} (h : IsWord i) : Writable (.int i)
  | text (s : String) : Writable (.text s)
  | array {items : List Json} (h : ∀ x ∈ items, Writable x) : Writable (.array items)
  | record {members : List (String × Json)} (h : ∀ m ∈ members, Writable m.2) :
    Writable (.record members)

theorem exists_intText (i : Int) :
    ∃ c cs, Numeral.intText i = c :: cs ∧ (c.isDigit = true ∨ c = '-') := by
  cases i with
  | ofNat n =>
    obtain ⟨c, cs, htext, hdigit, -⟩ := exists_natText n
    exact ⟨c, cs, htext, .inl hdigit⟩
  | negSucc n => exact ⟨'-', Numeral.natText (n + 1), rfl, .inr rfl⟩

theorem isBlank_eq_false_of_start {c : Char} (h : c.isDigit = true ∨ c = '-') :
    isBlank c = false := by
  by_cases hblank : isBlank c = true
  · simp only [isBlank, Bool.or_eq_true, decide_eq_true_eq] at hblank
    rcases hblank with ((rfl | rfl) | rfl) | rfl <;> exact absurd h (by decide)
  · simpa using hblank

theorem prettyChars_int {i : Int} (h : IsWord i) (level : Nat) :
    prettyChars level (.int i) = Numeral.intText i := by
  rw [Json.int, prettyChars, render_ofInt h]

theorem prettyChars_text (s : String) (level : Nat) : prettyChars level (.text s) = quote s := by
  rw [Json.text, prettyChars]
  rfl

/-- The text of a value starts with a character that is neither a blank nor the end of a list. -/
theorem Writable.exists_prettyChars {j : Json} (h : j.Writable) (level : Nat) :
    ∃ c cs, prettyChars level j = c :: cs ∧ isBlank c = false ∧ c ≠ ']' := by
  cases h with
  | null => exact ⟨'n', "ull".toList, by simp [prettyChars], by decide, by decide⟩
  | bool b =>
    cases b with
    | false => exact ⟨'f', "alse".toList, by simp [prettyChars, boolText], by decide, by decide⟩
    | true => exact ⟨'t', "rue".toList, by simp [prettyChars, boolText], by decide, by decide⟩
  | @int i h =>
    obtain ⟨c, cs, htext, hstart⟩ := exists_intText i
    refine ⟨c, cs, by rw [prettyChars_int h, htext], isBlank_eq_false_of_start hstart, ?_⟩
    rintro rfl
    exact absurd hstart (by decide)
  | text s => exact ⟨'"', _, prettyChars_text s level, by decide, by decide⟩
  | @array items _ =>
    cases items with
    | nil => exact ⟨'[', _, by rw [prettyChars], by decide, by decide⟩
    | cons x xs => exact ⟨'[', _, by rw [prettyChars], by decide, by decide⟩
  | @record members _ =>
    rw [Json.record]
    cases members with
    | nil => exact ⟨'\x7b', _, by rw [List.map_nil, prettyChars], by decide, by decide⟩
    | cons m ms => exact ⟨'\x7b', _, by rw [List.map_cons, prettyChars], by decide, by decide⟩

/-! ## Reading a value back -/

/-- A value is read from the start of its text, if what follows cannot continue a number. -/
def ReadBack (j : Json) : Prop :=
  ∀ level fuel rest, EndsNumber rest → (prettyChars level j).length ≤ fuel →
    valueWith fuel (prettyChars level j ++ rest) = some (j, rest)

/-- There is fuel to start with, since no text is empty. -/
theorem Writable.readBack_of_succ {j : Json} (h : j.Writable)
    (hread : ∀ level fuel rest, EndsNumber rest → (prettyChars level j).length ≤ fuel + 1 →
      valueWith (fuel + 1) (prettyChars level j ++ rest) = some (j, rest)) :
    ReadBack j := by
  intro level fuel rest hrest hfuel
  cases fuel with
  | zero =>
    obtain ⟨c, cs, htext, -⟩ := h.exists_prettyChars level
    rw [htext] at hfuel
    exact absurd hfuel (by simp)
  | succ fuel => exact hread level fuel rest hrest hfuel

theorem afterWord_append (word : String) (rest : List Char) :
    afterWord word (word.toList ++ rest) = some rest := by
  rw [afterWord]
  induction word.toList with
  | nil => rfl
  | cons c cs ih =>
    show (if c == c then cs.isPrefixOf? (cs ++ rest) else none) = some rest
    rw [if_pos (beq_self_eq_true c), ih]

theorem readBack_null : ReadBack .null := by
  refine Writable.null.readBack_of_succ fun level fuel rest _ _ => ?_
  have htext : prettyChars level .null ++ rest = 'n' :: ("ull".toList ++ rest) := by
    simp [prettyChars]
  rw [htext, valueWith, skipBlanks_cons (by decide)]
  simp only [afterWord_append, Option.map_some]

theorem readBack_bool (b : Bool) : ReadBack (.bool b) := by
  refine (Writable.bool b).readBack_of_succ fun level fuel rest _ _ => ?_
  cases b with
  | false =>
    have htext : prettyChars level (.bool false) ++ rest = 'f' :: ("alse".toList ++ rest) := by
      simp [prettyChars, boolText]
    rw [htext, valueWith, skipBlanks_cons (by decide)]
    simp only [afterWord_append, Option.map_some]
  | true =>
    have htext : prettyChars level (.bool true) ++ rest = 't' :: ("rue".toList ++ rest) := by
      simp [prettyChars, boolText]
    rw [htext, valueWith, skipBlanks_cons (by decide)]
    simp only [afterWord_append, Option.map_some]

theorem valueWith_numeral {c : Char} (h : c.isDigit = true ∨ c = '-') (fuel : Nat)
    (cs : List Char) :
    valueWith (fuel + 1) (c :: cs) =
      (numeral (c :: cs)).map fun (n, rest) => (.number n, rest) := by
  have hstart : c ∉ ['n', 't', 'f', '"', '[', '\x7b'] := by
    intro hmem
    simp only [List.mem_cons, List.not_mem_nil, or_false] at hmem
    rcases hmem with rfl | rfl | rfl | rfl | rfl | rfl <;> exact absurd h (by decide)
  simp only [List.mem_cons, List.not_mem_nil, or_false, not_or] at hstart
  obtain ⟨hn, ht, hf, hquote, hlist, hobject⟩ := hstart
  rw [valueWith, skipBlanks_cons (isBlank_eq_false_of_start h)]
  split
  all_goals simp_all

theorem readBack_int {i : Int} (h : IsWord i) : ReadBack (.int i) := by
  refine (Writable.int h).readBack_of_succ fun level fuel rest hrest _ => ?_
  have hnumeral := numeral_intText i hrest
  obtain ⟨c, cs, htext, hstart⟩ := exists_intText i
  rw [htext, List.cons_append] at hnumeral
  rw [prettyChars_int h, htext, List.cons_append, valueWith_numeral hstart, hnumeral]
  rfl

theorem quote_append (s : String) (rest : List Char) :
    quote s ++ rest = '"' :: (s.toList.flatMap escapeChar ++ '"' :: rest) := by
  simp [quote]

theorem readBack_text (s : String) : ReadBack (.text s) := by
  refine (Writable.text s).readBack_of_succ fun level fuel rest _ _ => ?_
  rw [prettyChars_text, quote_append, valueWith, skipBlanks_cons (by decide)]
  simp only [literal_escaped]
  rfl

/-! ### Lists -/

/-- Blanks before an item do not matter. -/
theorem itemsWith_append {blanks : List Char} (h : ∀ c ∈ blanks, isBlank c = true) (fuel : Nat)
    (cs : List Char) (done : List Json) :
    itemsWith fuel (blanks ++ cs) done = itemsWith fuel cs done := by
  cases fuel with
  | zero => simp only [itemsWith]
  | succ fuel => simp only [itemsWith, valueWith_append h]

/-- One item is read; what follows it tells whether there are more. -/
theorem itemsWith_item {x : Json} (h : ReadBack x) {level fuel : Nat} {rest : List Char}
    (hrest : EndsNumber rest) (hfuel : (prettyChars level x).length ≤ fuel) (done : List Json) :
    (∀ tail, skipBlanks rest = ',' :: tail →
      itemsWith (fuel + 1) (newLine level ++ (prettyChars level x ++ rest)) done =
        itemsWith fuel tail (x :: done)) ∧
    ∀ tail, skipBlanks rest = ']' :: tail →
      itemsWith (fuel + 1) (newLine level ++ (prettyChars level x ++ rest)) done =
        some (.array (x :: done).reverse, tail) := by
  rw [itemsWith_append (isBlank_of_mem_newLine level), itemsWith, h level fuel rest hrest hfuel]
  constructor
  · intro tail htail
    simp only [htail]
  · intro tail htail
    simp only [htail]

/-- The items of a list are read up to its end, given that each is read back. -/
theorem itemsWith_prettyItems {x : Json} {items : List Json} (h : ∀ y ∈ x :: items, ReadBack y)
    (level fuel : Nat) (rest : List Char) (done : List Json)
    (hfuel : (prettyItems level (x :: items)).length ≤ fuel) :
    itemsWith fuel (prettyItems level (x :: items) ++ rest) done =
      some (.array (done.reverse ++ x :: items), rest) := by
  induction items generalizing x fuel done with
  | nil =>
    simp only [prettyItems, List.length_append, newLine, List.length_cons] at hfuel
    obtain ⟨fuel, rfl⟩ : ∃ f, fuel = f + 1 := ⟨fuel - 1, by omega⟩
    simp only [prettyItems, List.append_assoc, List.singleton_append]
    rw [(itemsWith_item (h x (by simp)) (endsNumber_newLine _ _) (by omega) done).2 rest]
    · simp
    · rw [skipBlanks_newLine, skipBlanks_cons (by decide)]
  | cons y ys ih =>
    simp only [prettyItems, List.length_append, newLine, List.length_cons] at hfuel
    obtain ⟨fuel, rfl⟩ : ∃ f, fuel = f + 1 := ⟨fuel - 1, by omega⟩
    have hys := ih (fun z hz => h z (List.mem_cons_of_mem _ hz)) fuel (x :: done) (by omega)
    rw [prettyItems, List.append_assoc, List.append_assoc, List.cons_append,
      (itemsWith_item (h x (by simp)) (endsNumber_cons (by decide) _) (by omega) done).1 _
        (skipBlanks_cons (by decide) _), hys]
    simp

/-- The text of a list goes on with its first item. -/
theorem Writable.exists_prettyItems {x : Json} (h : x.Writable) (level : Nat) (items : List Json) :
    ∃ c cs, prettyItems level (x :: items) = newLine (level + 1) ++ c :: cs ∧
      isBlank c = false ∧ c ≠ ']' := by
  obtain ⟨c, cs, htext, hstart⟩ := h.exists_prettyChars (level + 1)
  cases items with
  | nil => exact ⟨c, _, by rw [prettyItems, htext, List.cons_append], hstart⟩
  | cons y ys => exact ⟨c, _, by rw [prettyItems, htext, List.cons_append], hstart⟩

theorem readBack_array {items : List Json} (h : ∀ x ∈ items, Writable x)
    (hread : ∀ x ∈ items, ReadBack x) : ReadBack (.array items) := by
  refine (Writable.array h).readBack_of_succ fun level fuel rest _ hfuel => ?_
  cases items with
  | nil =>
    rw [prettyChars, List.cons_append, valueWith, skipBlanks_cons (by decide)]
    rfl
  | cons x xs =>
    obtain ⟨c, cs, htext, hblank, hend⟩ := (h x (by simp)).exists_prettyItems level xs
    rw [prettyChars, List.length_cons] at hfuel
    have hitems := itemsWith_prettyItems hread level fuel rest [] (by omega)
    rw [htext, List.append_assoc, itemsWith_append (isBlank_of_mem_newLine _), List.cons_append]
      at hitems
    rw [prettyChars, List.cons_append, valueWith, skipBlanks_cons (by decide), htext]
    simp only [List.append_assoc, skipBlanks_newLine, List.cons_append, skipBlanks_cons hblank]
    split
    · rename_i heq
      exact absurd (List.cons.inj heq).1 hend
    · exact hitems

/-! ### Objects -/

/-- Blanks before a member do not matter. -/
theorem membersWith_append {blanks : List Char} (h : ∀ c ∈ blanks, isBlank c = true) (fuel : Nat)
    (cs : List Char) (done : List (Literal × Json)) :
    membersWith fuel (blanks ++ cs) done = membersWith fuel cs done := by
  cases fuel with
  | zero => simp only [membersWith]
  | succ fuel => simp only [membersWith, skipBlanks_append h]

/-- One member is read; what follows its value tells whether there are more. -/
theorem membersWith_member {x : Json} (h : ReadBack x) (name : String) {level fuel : Nat}
    {rest : List Char} (hrest : EndsNumber rest) (hfuel : (prettyChars level x).length ≤ fuel)
    (done : List (Literal × Json)) :
    (∀ tail, skipBlanks rest = ',' :: tail →
      membersWith (fuel + 1)
          (newLine level ++ (quote name ++ ':' :: ' ' :: (prettyChars level x ++ rest))) done =
        membersWith fuel tail ((some name, x) :: done)) ∧
    ∀ tail, skipBlanks rest = '\x7d' :: tail →
      membersWith (fuel + 1)
          (newLine level ++ (quote name ++ ':' :: ' ' :: (prettyChars level x ++ rest))) done =
        some (.object ((some name, x) :: done).reverse, tail) := by
  have hspace : ∀ c ∈ [' '], isBlank c = true := by simp [isBlank]
  have hvalue : valueWith fuel (' ' :: (prettyChars level x ++ rest)) = some (x, rest) := by
    rw [← h level fuel rest hrest hfuel]
    exact valueWith_append hspace fuel _
  rw [membersWith_append (isBlank_of_mem_newLine level), quote_append, membersWith,
    skipBlanks_cons (by decide)]
  simp only [literal_escaped, skipBlanks_cons (show isBlank ':' = false by decide), hvalue]
  constructor
  · intro tail htail
    simp only [htail]
  · intro tail htail
    simp only [htail]

/-- The members of an object are read up to its end, given that each value is read back. -/
theorem membersWith_prettyMembers {m : String × Json} {members : List (String × Json)}
    (h : ∀ m' ∈ m :: members, ReadBack m'.2) (level fuel : Nat) (rest : List Char)
    (done : List (Literal × Json))
    (hfuel : (prettyMembers level ((m :: members).map fun (n, x) => (some n, x))).length ≤ fuel) :
    membersWith fuel
        (prettyMembers level ((m :: members).map fun (n, x) => (some n, x)) ++ rest) done =
      some (.object (done.reverse ++ (m :: members).map fun (n, x) => (some n, x)), rest) := by
  induction members generalizing m fuel done with
  | nil =>
    simp only [List.map_cons, List.map_nil, prettyMembers, List.length_append, newLine,
      List.length_cons] at hfuel
    obtain ⟨fuel, rfl⟩ : ∃ f, fuel = f + 1 := ⟨fuel - 1, by omega⟩
    simp only [List.map_cons, List.map_nil, prettyMembers, List.append_assoc, List.cons_append,
      List.nil_append, literalText, Option.getD_some]
    rw [(membersWith_member (h m (by simp)) m.1 (endsNumber_newLine _ _) (by omega) done).2 rest]
    · simp
    · rw [skipBlanks_newLine, skipBlanks_cons (by decide)]
  | cons m' ms ih =>
    simp only [List.map_cons, prettyMembers, List.length_append, newLine, List.length_cons] at hfuel
    obtain ⟨fuel, rfl⟩ : ∃ f, fuel = f + 1 := ⟨fuel - 1, by omega⟩
    have hms := ih (fun m'' hm => h m'' (List.mem_cons_of_mem _ hm)) fuel ((some m.1, m.2) :: done)
      (by simp only [List.map_cons]; omega)
    simp only [List.map_cons, prettyMembers, List.append_assoc, List.cons_append,
      literalText, Option.getD_some] at hms ⊢
    rw [(membersWith_member (h m (by simp)) m.1 (endsNumber_cons (by decide) _) (by omega) done).1 _
      (skipBlanks_cons (by decide) _), hms]
    simp

theorem exists_prettyMembers (level : Nat) (name : String) (x : Json)
    (members : List (Literal × Json)) :
    ∃ cs, prettyMembers level ((some name, x) :: members) = newLine (level + 1) ++ '"' :: cs := by
  cases members with
  | nil => exact ⟨_, by rw [prettyMembers, literalText, Option.getD_some, quote_append]⟩
  | cons m ms => exact ⟨_, by rw [prettyMembers, literalText, Option.getD_some, quote_append]⟩

theorem readBack_record {members : List (String × Json)} (h : ∀ m ∈ members, Writable m.2)
    (hread : ∀ m ∈ members, ReadBack m.2) : ReadBack (.record members) := by
  refine (Writable.record h).readBack_of_succ fun level fuel rest _ hfuel => ?_
  rw [Json.record] at hfuel ⊢
  cases members with
  | nil =>
    rw [List.map_nil, prettyChars, List.cons_append, valueWith, skipBlanks_cons (by decide)]
    rfl
  | cons m ms =>
    obtain ⟨cs, htext⟩ := exists_prettyMembers level m.1 m.2 (ms.map fun (n, x) => (some n, x))
    rw [List.map_cons, prettyChars, List.length_cons] at hfuel
    have hmembers := membersWith_prettyMembers hread level fuel rest []
      (Nat.le_of_succ_le_succ hfuel)
    rw [List.map_cons, htext, List.append_assoc, membersWith_append (isBlank_of_mem_newLine _),
      List.cons_append] at hmembers
    rw [List.map_cons, prettyChars, List.cons_append, valueWith, skipBlanks_cons (by decide), htext]
    simp only [List.append_assoc, skipBlanks_newLine, List.cons_append,
      skipBlanks_cons (show isBlank '"' = false by decide)]
    exact hmembers

/-! ## Whole texts -/

theorem Writable.readBack {j : Json} (h : j.Writable) : ReadBack j := by
  induction h with
  | null => exact readBack_null
  | bool b => exact readBack_bool b
  | int h => exact readBack_int h
  | text s => exact readBack_text s
  | array h ih => exact readBack_array h ih
  | record h ih => exact readBack_record h ih

/-- The text of a writable value denotes that value. -/
theorem parse_pretty {j : Json} (h : j.Writable) : parse j.pretty = some j := by
  have htext : j.pretty.toList = prettyChars 0 j := by rw [pretty, String.toList_ofList]
  have hvalue : value j.pretty.toList = some (j, []) := by
    have hread := h.readBack 0 (2 * (prettyChars 0 j).length + 2) [] endsNumber_nil (by omega)
    rwa [List.append_nil, ← htext] at hread
  rw [parse, hvalue]
  rfl

end Json

end GridRobot
