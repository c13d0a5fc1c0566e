import GridRobot.Outcome.Basic
import GridRobot.Proofs.Json.Text
import GridRobot.Proofs.World.WellFormed
import Mathlib.Data.Int.ModEq
import Mathlib.Data.List.Nodup

/-!
# The buzzer dump loses no pile

A line of the dump is a text without an end mark for its cells: an empty pile is passed over, and the
column of a pile is left out after a pile. Such a text can be read by one who knows which columns are
reported. A pile is written with its column exactly where the reported cell before it is empty, and then
the column tells it from the piles further east; where the column is left out, the digits themselves show
that there is a pile, since otherwise the text would end or go on with a parenthesis. So two rows with
the same columns have the same text only if the same is shown of every pile (`pilesText_eq_iff`).

The lines of a dump and the cells of a line are listings whose entries carry their place. A listing of
this kind determines the entry of every place (`filterMap_eq_iff_of_place`).
-/

set_option autoImplicit false

namespace GridRobot

/-! ## Listings -/

section Listings

variable {α β κ : Type} {f g : α → Option β} {l : List α} (key : β → κ) (place : α → κ)

/-- If the entries of a listing carry the places they come from, the entry of a place is found by it. -/
theorem eq_some_iff_of_place (hplace : ∀ a ∈ l, ∀ b ∈ l, place a = place b → a = b)
    (hkey : ∀ a ∈ l, ∀ x ∈ f a, key x = place a) {a : α} (ha : a ∈ l) {x : β} :
    f a = some x ↔ x ∈ l.filterMap f ∧ key x = place a := by
  rw [List.mem_filterMap]
  constructor
  · intro hx
    exact ⟨⟨a, ha, hx⟩, hkey a ha x hx⟩
  · rintro ⟨⟨b, hb, hx⟩, hxa⟩
    obtain rfl := hplace b hb a ha ((hkey b hb x hx).symm.trans hxa)
    exact hx

/-- So two listings of the same places are the same exactly if they agree on every place. -/
theorem filterMap_eq_iff_of_place (hplace : ∀ a ∈ l, ∀ b ∈ l, place a = place b → a = b)
    (hf : ∀ a ∈ l, ∀ x ∈ f a, key x = place a) (hg : ∀ a ∈ l, ∀ x ∈ g a, key x = place a) :
    l.filterMap f = l.filterMap g ↔ ∀ a ∈ l, f a = g a := by
  constructor
  · intro h a ha
    apply Option.ext
    intro x
    rw [eq_some_iff_of_place key place hplace hf ha, h,
      eq_some_iff_of_place key place hplace hg ha]
  · exact List.filterMap_congr

end Listings

/-! ## Numbers in a text -/

/-- A number is read up to the first character that cannot belong to one. -/
theorem toDigits_append_inj {m n : Nat} {r s : List Char} (hr : Json.EndsNumber r)
    (hs : Json.EndsNumber s) :
    Nat.toDigits 10 m ++ r = Nat.toDigits 10 n ++ s ↔ m = n ∧ r = s := by
  constructor
  · intro h
    have hm : Json.wholePart (Nat.toDigits 10 m ++ r) = some (m, r) := Json.wholePart_natText m hr
    have hn : Json.wholePart (Nat.toDigits 10 n ++ s) = some (n, s) := Json.wholePart_natText n hs
    rw [h, hn] at hm
    obtain ⟨rfl, rfl⟩ := Prod.mk.inj (Option.some.inj hm)
    exact ⟨rfl, rfl⟩
  · rintro ⟨rfl, rfl⟩
    rfl

namespace World

/-! ## What is shown of a pile -/

/-- What a dump shows of a pile: nothing of an empty one. -/
def shown? (n : Int32) : Option Nat :=
  if n = 0 then none else some (shownCount n)

theorem shownCount_eq (n : Int32) : (shownCount n : Int) = n.toInt % 65536 := by
  have hint : n.toInt = n.toBitVec.toInt := rfl
  have hnat : n.toUInt32.toNat = n.toBitVec.toNat := rfl
  rw [shownCount, hint, hnat, BitVec.toInt_eq_toNat_cond]
  split <;> omega

/-- The same is shown of two piles if both or none are empty and they are congruent. -/
theorem shown?_eq_iff {m n : Int32} :
    shown? m = shown? n ↔ (m = 0 ↔ n = 0) ∧ m.toInt ≡ n.toInt [ZMOD 65536] := by
  have hcount : shownCount m = shownCount n ↔ m.toInt ≡ n.toInt [ZMOD 65536] := by
    rw [Int.ModEq, ← shownCount_eq, ← shownCount_eq, Int.natCast_inj]
  rw [← hcount, shown?, shown?]
  by_cases hm : m = 0 <;> by_cases hn : n = 0 <;> simp [hm, hn]

/-! ## The text of a row -/

variable {xs ys : List (Nat × Int32)} {col : Nat} {n : Int32} {named : Bool}

/-- The column of a pile, where it is written. -/
def columnText (named : Bool) (col : Nat) : List Char :=
  if named then '(' :: Nat.toDigits 10 col ++ [')', ' '] else []

theorem pilesText_cons_zero : pilesText named ((col, 0) :: xs) = pilesText true xs := by
  rw [pilesText, if_pos rfl]

theorem pilesText_cons (hn : n ≠ 0) :
    pilesText named ((col, n) :: xs) =
      columnText named col ++ (Nat.toDigits 10 (shownCount n) ++ ' ' :: pilesText false xs) := by
  rw [pilesText, if_neg hn]
  rfl

/-- Where a column is due, the text is at its end or goes on with the column of a reported cell. -/
theorem pilesText_true_cases (xs : List (Nat × Int32)) :
    pilesText true xs = [] ∨
      ∃ col ∈ xs.map Prod.fst, ∃ rest,
        pilesText true xs = '(' :: (Nat.toDigits 10 col ++ ')' :: rest) := by
  induction xs with
  | nil => exact .inl rfl
  | cons x xs ih =>
    obtain ⟨col, n⟩ := x
    by_cases hn : n = 0
    · subst hn
      rw [pilesText_cons_zero]
      rcases ih with hnil | ⟨other, hmem, hrest⟩
      · exact .inl hnil
      · exact .inr ⟨other, List.mem_cons_of_mem _ hmem, hrest⟩
    · refine .inr ⟨col, List.mem_cons_self, ?_⟩
      rw [pilesText_cons hn, columnText, if_pos rfl]
      simp

/-- A pile shows: where it is, no text passes it over. -/
theorem pilesText_true_ne (hn : n ≠ 0) (hcol : col ∉ xs.map Prod.fst) :
    pilesText true xs ≠ pilesText named ((col, n) :: ys) := by
  intro h
  rw [pilesText_cons hn] at h
  rcases pilesText_true_cases xs with hnil | ⟨other, hmem, rest, hrest⟩
  · rw [hnil] at h
    simp at h
  · rw [hrest] at h
    cases named with
    | true =>
      -- the column that is written is another one
      simp only [columnText, if_true, List.cons_append, List.append_assoc, List.cons.injEq, true_and]
        at h
      rw [toDigits_append_inj (Json.endsNumber_cons (by decide) _) (Json.endsNumber_cons (by decide) _)]
        at h
      exact hcol (h.1 ▸ hmem)
    | false =>
      -- a number does not begin with a parenthesis
      obtain ⟨c, cs, htext, hdigit, -⟩ := Json.exists_natText (shownCount n)
      rw [Numeral.natText] at htext
      rw [columnText, htext] at h
      obtain ⟨rfl, -⟩ := List.cons.inj h
      exact absurd hdigit (by decide)

/-- Two rows with the same columns have the same text exactly if the same is shown of every pile. -/
theorem pilesText_eq_iff (named : Bool) (hcols : xs.map Prod.fst = ys.map Prod.fst)
    (hnodup : (xs.map Prod.fst).Nodup) :
    pilesText named xs = pilesText named ys ↔
      xs.map (fun x => (x.1, shown? x.2)) = ys.map (fun y => (y.1, shown? y.2)) := by
  -- `named` varies: what stands on a cell decides whether the next pile is written with its column
  induction xs generalizing ys named with
  | nil =>
    obtain rfl : ys = [] := by simpa using hcols.symm
    simp
  | cons x xs ih =>
    obtain ⟨col, n⟩ := x
    cases ys with
    | nil => simp at hcols
    | cons y ys =>
      obtain ⟨col', m⟩ := y
      simp only [List.map_cons, List.cons.injEq] at hcols
      obtain ⟨rfl, hcols⟩ := hcols
      rw [List.map_cons, List.nodup_cons] at hnodup
      obtain ⟨hcol, hnodup⟩ := hnodup
      simp only [List.map_cons, List.cons.injEq, Prod.mk.injEq, true_and]
      by_cases hn : n = 0 <;> by_cases hm : m = 0
      · subst hn hm
        simp only [pilesText_cons_zero, true_and]
        exact ih true hcols hnodup
      · -- a pile in the second row only
        subst hn
        rw [pilesText_cons_zero]
        exact iff_of_false (pilesText_true_ne hm hcol) (by simp [shown?, hm])
      · -- a pile in the first row only
        subst hm
        rw [pilesText_cons_zero]
        rw [hcols] at hcol
        exact iff_of_false (pilesText_true_ne hn hcol).symm (by simp [shown?, hn])
      · -- a pile in both rows: the columns cancel, and a blank ends each number
        have hend : ∀ zs, Json.EndsNumber (' ' :: pilesText false zs) :=
          fun zs => Json.endsNumber_cons (by decide) _
        rw [pilesText_cons hn, pilesText_cons hm, List.append_cancel_left_eq,
          toDigits_append_inj (hend xs) (hend ys), List.cons.injEq, ih false hcols hnodup]
        simp [shown?, hn, hm]

/-- A row has a text exactly if it has a pile. -/
theorem pilesText_ne_nil_iff : pilesText named xs ≠ [] ↔ ∃ x ∈ xs, x.2 ≠ 0 := by
  induction xs generalizing named with
  | nil => simp [pilesText]
  | cons x xs ih =>
    obtain ⟨col, n⟩ := x
    by_cases hn : n = 0
    · subst hn
      rw [pilesText_cons_zero, ih]
      simp
    · rw [pilesText_cons hn]
      simp [hn]

/-! ## The cells of a row -/

variable {w v : World} {all : Bool} {row : Nat}

theorem mem_reportedPiles_iff {x : Nat × Int32} :
    x ∈ w.reportedPiles all row ↔
      ∃ i < w.width, (all || w.isMarked (.ofNat row (i + 1))) = true ∧
        (i + 1, w.pile (.ofNat row (i + 1))) = x := by
  simp only [reportedPiles, List.mem_filterMap, List.mem_range, Option.ite_none_right_eq_some,
    Option.some.injEq]

theorem map_reportedPiles {α : Type} (f : Nat × Int32 → α) (w : World) (all : Bool) (row : Nat) :
    (w.reportedPiles all row).map f =
      (List.range w.width).filterMap fun i =>
        if all || w.isMarked (.ofNat row (i + 1)) then
          some (f (i + 1, w.pile (.ofNat row (i + 1))))
        else none := by
  rw [reportedPiles, List.map_filterMap]
  congr
  funext i
  dsimp only
  split <;> rfl

theorem nodup_columns (w : World) (all : Bool) (row : Nat) :
    ((w.reportedPiles all row).map Prod.fst).Nodup := by
  rw [map_reportedPiles]
  refine List.Nodup.filterMap ?_ List.nodup_range
  intro i j col hi hj
  simp only [Option.mem_def, Option.ite_none_right_eq_some, Option.some.injEq] at hi hj
  omega

/-- Two worlds that report the same cells of a row have the same text for it exactly if the same is shown of
every pile. -/
theorem pilesText_reportedPiles_eq_iff (hwidth : v.width = w.width)
    (hreported : ∀ c, (all || v.isMarked c) = (all || w.isMarked c)) :
    pilesText true (w.reportedPiles all row) = pilesText true (v.reportedPiles all row) ↔
      ∀ i < w.width, (all || w.isMarked (.ofNat row (i + 1))) = true →
        shown? (w.pile (.ofNat row (i + 1))) = shown? (v.pile (.ofNat row (i + 1))) := by
  have hcols : (w.reportedPiles all row).map Prod.fst = (v.reportedPiles all row).map Prod.fst := by
    simp only [map_reportedPiles, hwidth, hreported]
  have hcol : ∀ (u : World) (i : Nat) (x : Nat × Option Nat),
      (if all || u.isMarked (.ofNat row (i + 1)) then
        some (i + 1, shown? (u.pile (.ofNat row (i + 1))))
      else none) = some x → x.1 = i + 1 := by
    intro u i x hx
    rw [Option.ite_none_right_eq_some] at hx
    rw [← Option.some.inj hx.2]
  rw [pilesText_eq_iff true hcols (nodup_columns w all row), map_reportedPiles, map_reportedPiles,
    hwidth, filterMap_eq_iff_of_place Prod.fst (· + 1) (fun i _ j _ => Nat.succ.inj)
      (fun i _ => hcol w i) (fun i _ => hcol v i)]
  simp only [List.mem_range, hreported]
  refine forall₂_congr fun i _ => ?_
  by_cases h : (all || w.isMarked (.ofNat row (i + 1))) = true
  · simp [h]
  · simp [h]

/-! ## The lines of a dump -/

theorem dumpLine?_eq_some_iff {line : DumpLine} :
    w.dumpLine? all row = some line ↔
      pilesText true (w.reportedPiles all row) ≠ [] ∧
        line = ⟨Int32.ofNat row, true, String.ofList (pilesText true (w.reportedPiles all row))⟩ := by
  rw [dumpLine?]
  cases pilesText true (w.reportedPiles all row) with
  | nil => simp
  | cons c cs =>
    constructor
    · intro h
      exact ⟨List.cons_ne_nil c cs, (Option.some.inj h).symm⟩
    · rintro ⟨-, rfl⟩
      rfl

/-- A row without a line is one without a text. -/
theorem text_dumpLine? (w : World) (all : Bool) (row : Nat) :
    (w.dumpLine? all row).elim [] (·.text.toList) = pilesText true (w.reportedPiles all row) := by
  rw [dumpLine?]
  cases pilesText true (w.reportedPiles all row) with
  | nil => rfl
  | cons c cs => exact String.toList_ofList

/-- The lines of a row are the same exactly if their texts are. -/
theorem dumpLine?_eq_iff :
    w.dumpLine? all row = v.dumpLine? all row ↔
      pilesText true (w.reportedPiles all row) = pilesText true (v.reportedPiles all row) := by
  constructor
  · intro h
    rw [← text_dumpLine?, h, text_dumpLine?]
  · intro h
    rw [dumpLine?, dumpLine?, h]

/-- A row has a line exactly if it has a pile to report. -/
theorem exists_dumpLine?_iff :
    (∃ line, w.dumpLine? all row = some line) ↔
      ∃ i < w.width, (all || w.isMarked (.ofNat row (i + 1))) = true ∧
        w.pile (.ofNat row (i + 1)) ≠ 0 := by
  simp only [dumpLine?_eq_some_iff, exists_and_left, exists_eq, and_true]
  rw [pilesText_ne_nil_iff]
  constructor
  · rintro ⟨x, hx, hne⟩
    obtain ⟨i, hi, hreported, rfl⟩ := mem_reportedPiles_iff.1 hx
    exact ⟨i, hi, hreported, hne⟩
  · rintro ⟨i, hi, hreported, hne⟩
    exact ⟨_, mem_reportedPiles_iff.2 ⟨i, hi, hreported, rfl⟩, hne⟩

theorem row_of_dumpLine? {line : DumpLine} (h : w.dumpLine? all row = some line) :
    line.row = Int32.ofNat row := by
  rw [(dumpLine?_eq_some_iff.1 h).2]

/-! ## The rows and cells of a grid -/

/-- Rows that are counted up are different rows, in this order. -/
theorem ofNat_lt_ofNat {i j : Nat} (hij : i < j) (hj : j ≤ sideMax) : Int32.ofNat i < Int32.ofNat j := by
  rw [Int32.lt_iff_toInt_lt, toInt_ofNat_of_le hj, toInt_ofNat_of_le (by omega)]
  omega

theorem contains_iff_exists (hw : w.Sized) {c : Cell} :
    w.contains c = true ↔
      ∃ row < w.height, ∃ col < w.width, .ofNat (row + 1) (col + 1) = c := by
  simp only [← mem_cells_iff hw, cells, gridCells, List.mem_flatMap, List.mem_map, List.mem_range]

/-- Two worlds that report the same cells have the same dump exactly if the same is shown of every pile. -/
theorem dumpLines_eq_iff (hw : w.Sized) (hwidth : v.width = w.width) (hheight : v.height = w.height)
    (hreported : ∀ c, (all || v.isMarked c) = (all || w.isMarked c)) :
    w.dumpLines all = v.dumpLines all ↔
      ∀ c, w.contains c = true → (all || w.isMarked c) = true →
        shown? (w.pile c) = shown? (v.pile c) := by
  have hrow : ∀ i ∈ (List.range w.height).reverse, ∀ j ∈ (List.range w.height).reverse,
      Int32.ofNat (i + 1) = Int32.ofNat (j + 1) → i = j := by
    intro i hi j hj heq
    rw [List.mem_reverse, List.mem_range] at hi hj
    have hle := hw.height_le
    have hint := congrArg Int32.toInt heq
    rw [toInt_ofNat_of_le (by omega), toInt_ofNat_of_le (by omega)] at hint
    omega
  rw [dumpLines, dumpLines, hheight, filterMap_eq_iff_of_place DumpLine.row _ hrow
    (fun i _ line => row_of_dumpLine?) (fun i _ line => row_of_dumpLine?)]
  simp only [List.mem_reverse, List.mem_range, dumpLine?_eq_iff,
    pilesText_reportedPiles_eq_iff hwidth hreported]
  constructor
  · intro h c hc hmarked
    obtain ⟨i, hi, j, hj, rfl⟩ := (contains_iff_exists hw).1 hc
    exact h i hi j hj hmarked
  · intro h i hi j hj hmarked
    exact h _ ((contains_iff_exists hw).2 ⟨i, hi, j, hj, rfl⟩) hmarked

/-- The lines of a dump go from the north down, one for a row. -/
theorem pairwise_rows (hw : w.Sized) (all : Bool) :
    ((w.dumpLines all).map DumpLine.row).Pairwise (· > ·) := by
  rw [List.pairwise_map, dumpLines, List.pairwise_filterMap, List.pairwise_reverse]
  refine List.pairwise_lt_range.imp_of_mem ?_
  intro i j _ hj hij north hnorth south hsouth
  rw [row_of_dumpLine? hnorth, row_of_dumpLine? hsouth]
  have hle := hw.height_le
  rw [List.mem_range] at hj
  exact ofNat_lt_ofNat (by omega) (by omega)

/-- The rows that have a line are those with a pile to report. -/
theorem mem_rows_iff (hw : w.Sized) {r : Int32} :
    r ∈ (w.dumpLines all).map DumpLine.row ↔
      ∃ c, w.contains c = true ∧ (all || w.isMarked c) = true ∧ c.row = r ∧ w.pile c ≠ 0 := by
  simp only [dumpLines, List.mem_map, List.mem_filterMap, List.mem_reverse, List.mem_range]
  constructor
  · rintro ⟨line, ⟨i, hi, hline⟩, rfl⟩
    obtain ⟨j, hj, hreported, hne⟩ := exists_dumpLine?_iff.1 ⟨line, hline⟩
    have hcontains := (contains_iff_exists hw).2 ⟨i, hi, j, hj, rfl⟩
    exact ⟨_, hcontains, hreported, (row_of_dumpLine? hline).symm, hne⟩
  · rintro ⟨c, hc, hreported, rfl, hne⟩
    obtain ⟨i, hi, j, hj, rfl⟩ := (contains_iff_exists hw).1 hc
    obtain ⟨line, hline⟩ := exists_dumpLine?_iff.2 ⟨j, hj, hreported, hne⟩
    exact ⟨line, ⟨i, hi, hline⟩, row_of_dumpLine? hline⟩

/-- Two worlds of the same size whose dumps report the same cells, all of them or the marked ones, have the
same dump exactly if their piles on every reported cell are both empty or both not, and congruent modulo
65536, where an endless pile counts as minus one. The lines of a dump have rows that decrease, and there is
one for each row with a reported pile that is not empty, and no other. -/
theorem dump_determines_piles (hw : w.Sized) (hwidth : v.width = w.width)
    (hheight : v.height = w.height) (all : Bool)
    (hmarks : all = false → ∀ c, v.isMarked c = w.isMarked c) :
    (w.dumpLines all = v.dumpLines all ↔
      ∀ c, w.contains c = true → (all || w.isMarked c) = true →
        (w.pile c = 0 ↔ v.pile c = 0) ∧ (w.pile c).toInt ≡ (v.pile c).toInt [ZMOD 65536]) ∧
    ((w.dumpLines all).map DumpLine.row).Pairwise (· > ·) ∧
    ∀ r : Int32, r ∈ (w.dumpLines all).map DumpLine.row ↔
      ∃ c, w.contains c = true ∧ (all || w.isMarked c) = true ∧ c.row = r ∧ w.pile c ≠ 0 := by
  have hreported : ∀ c, (all || v.isMarked c) = (all || w.isMarked c) := by
    intro c
    cases all with
    | true => rfl
    | false => exact hmarks rfl c
  refine ⟨?_, pairwise_rows hw all, fun r => mem_rows_iff hw⟩
  rw [dumpLines_eq_iff hw hwidth hheight hreported]
  simp only [shown?_eq_iff]

/-- A world with an endless pile and one that fills the two lower bytes. -/
def hoard : World :=
  ((((new 3 2).setPile ⟨2, 1⟩ (-1)).setPile ⟨2, 3⟩ 65536).setMark ⟨2, 1⟩ true).setMark ⟨2, 3⟩ true

/-- A world with other piles on the same marked cells, and one on a cell without a mark. -/
def stash : World :=
  (((((new 3 2).setPile ⟨2, 1⟩ 65535).setPile ⟨2, 3⟩ 131072).setPile ⟨1, 2⟩ 7).setMark ⟨2, 1⟩
    true).setMark ⟨2, 3⟩ true

/-- The marked piles cannot be told apart, but the pile without a mark shows when all are reported. -/
theorem dump_determines_piles_hoard :
    hoard.Sized ∧ hoard.dumpLines false = [⟨2, true, "(1) 65535 0 "⟩] ∧
      hoard.dumpLines false = stash.dumpLines false ∧ hoard.dumpLines true ≠ stash.dumpLines true ∧
      ((stash.dumpLines true).map DumpLine.row).Pairwise (· > ·) ∧
      1 ∈ (stash.dumpLines true).map DumpLine.row := by
  have hhoard : hoard.Sized :=
    (((((wellFormed_new 3 2).setPile _ _).setPile _ _).setMark _ _).setMark _ _).sized
  have hstash : stash.Sized :=
    ((((((wellFormed_new 3 2).setPile _ _).setPile _ _).setPile _ _).setMark _ _).setMark _ _).sized
  have hwidth : stash.width = hoard.width := by decide +kernel
  have hheight : stash.height = hoard.height := by decide +kernel
  have hmarks : ∀ c, stash.isMarked c = hoard.isMarked c := by
    have heq : stash.marks = hoard.marks := by decide +kernel
    intro c
    rw [isMarked, isMarked, index?, index?, hwidth, hheight, heq]
  have hpiles : ∀ c ∈ hoard.cells, (false || hoard.isMarked c) = true →
      (hoard.pile c = 0 ↔ stash.pile c = 0) ∧
        (hoard.pile c).toInt ≡ (stash.pile c).toInt [ZMOD 65536] := by decide +kernel
  obtain ⟨hmarked, -, -⟩ := dump_determines_piles hhoard hwidth hheight false fun _ => hmarks
  obtain ⟨hall, -, -⟩ := dump_determines_piles hhoard hwidth hheight true fun h => absurd h (by decide)
  obtain ⟨-, hrows, hmem⟩ :=
    dump_determines_piles hstash hwidth.symm hheight.symm true fun h => absurd h (by decide)
  refine ⟨hhoard, by decide +kernel, ?_, ?_, hrows, ?_⟩
  · exact hmarked.2 fun c hc => hpiles c ((mem_cells_iff hhoard).2 hc)
  · intro h
    exact absurd (hall.1 h ⟨1, 2⟩ (by decide +kernel) rfl).1 (by decide +kernel)
  · exact (hmem 1).2 ⟨⟨1, 2⟩, by decide +kernel⟩

end World

end GridRobot
