import GridRobot.Proofs.World.Settled

/-!
# Words that legacy buffers have

Decoding takes words and slices from places that the buffers themselves announce. `LegacyWorld.decode?`
decodes with every access checked: a word or a slice that lies outside its buffer makes the whole
decoding fail. It never does, and gives what decoding without checks gives (`decode?_eq`).
-/

set_option autoImplicit false

namespace GridRobot

/-- A computation that may be refused with an error, and that fails if it leaves a buffer. -/
abbrev Checked (α : Type) : Type :=
  ExceptT LoadError Option α

namespace Checked

variable {α β : Type}

/-- A result or an error, without leaving a buffer. -/
def lift (r : Except LoadError α) : Checked α :=
  ExceptT.mk (some r)

/-- A value that is there, or no value at all. -/
def found (a? : Option α) : Checked α :=
  ExceptT.mk (a?.map .ok)

/-- The word at a place. -/
def word (words : Array UInt16) (i : Nat) : Checked UInt16 :=
  found words[i]?

/-- The words from one place up to another. -/
def slice (words : Array UInt16) (start stop : Nat) : Checked (List UInt16) :=
  found <|
    if start ≤ stop ∧ stop ≤ words.size then some ((words.toList.drop start).take (stop - start))
    else none

/-- The first words and the others. -/
def split (words : List UInt16) (n : Nat) : Checked (List UInt16 × List UInt16) :=
  found (if n ≤ words.length then some (words.take n, words.drop n) else none)

/-- Chunks of three words; what is left over is dropped. -/
def chunks : List UInt16 → List (List UInt16)
  | a :: b :: c :: rest => [a, b, c] :: chunks rest
  | _ => []

/-- The three words of a chunk. -/
def triple (chunk : List UInt16) : Checked (UInt16 × UInt16 × UInt16) := do
  let x ← found chunk[0]?
  let y ← found chunk[1]?
  let z ← found chunk[2]?
  return (x, y, z)

/-- The records of some words. -/
def records (words : List UInt16) : Checked (List (UInt16 × UInt16 × UInt16)) :=
  (chunks words).mapM triple

/-- The word behind a flag, if the flag is set. -/
def flagged (words : Array UInt16) (i : Nat) : Checked (Option UInt16) := do
  let flag ← word words i
  if flag = 0 then return none
  else
    let value ← word words (i + 1)
    return some value

end Checked

namespace LegacyWorld

/-- The records of walls and of piles, if there are so many. -/
def records? (l : LegacyWorld) (walls piles : Nat) :
    Checked (List (UInt16 × UInt16 × UInt16) × List (UInt16 × UInt16 × UInt16)) := do
  let words ← Checked.slice l.world worldRecords (worldRecords + 3 * (walls + piles))
  let (wallWords, pileWords) ← Checked.split words (3 * walls)
  let wallRecords ← Checked.records wallWords
  let pileRecords ← Checked.records pileWords
  return (wallRecords, pileRecords)

/-- The limits, looked up with those that have no effect. -/
def limits? (l : LegacyWorld) : Checked Limits := do
  let instructions ← Checked.word l.limits 1
  let forward ← Checked.flagged l.limits (capOffset .forward)
  let left ← Checked.flagged l.limits (capOffset .left)
  let pickBuzzer ← Checked.flagged l.limits (capOffset .pickBuzzer)
  let leaveBuzzer ← Checked.flagged l.limits (capOffset .leaveBuzzer)
  let _ ← Checked.flagged l.limits 15
  let _ ← Checked.flagged l.limits 18
  let standard : Limits := {}
  return { standard with
    maxInstructions := if instructions ≠ 0 then instructions.toUInt64 else standard.maxInstructions
    caps := ⟨forward.map UInt16.toUInt64, left.map UInt16.toUInt64, pickBuzzer.map UInt16.toUInt64,
      leaveBuzzer.map UInt16.toUInt64⟩ }

/-- The records of cells to dump, if the flag says that they are listed. -/
def cells? (l : LegacyWorld) (lists : UInt16) : Checked (List (UInt16 × UInt16 × UInt16)) := do
  if lists = 0 then return []
  else
    let cells ← Checked.word l.limits 28
    let needed := limitsRecords + 3 * cells.toNat
    if l.limits.size < needed then
      throw (.truncated .limits needed l.limits.size)
    let words ← Checked.slice l.limits limitsRecords needed
    Checked.records words

/-- Decoding that takes nothing from outside the buffers. -/
def decode? (l : LegacyWorld) : Checked World := do
  if l.world.size < worldWordsMin then
    throw (.tooShort .world worldWordsMin l.world.size)
  if l.limits.size < limitsWordsMin then
    throw (.tooShort .limits limitsWordsMin l.limits.size)
  let magic ← Checked.slice l.world 0 signature.length
  if magic ≠ signature then
    throw .badMagic
  let width ← Checked.word l.world 6
  let height ← Checked.word l.world 7
  if !acceptsSize width.toNat height.toNat then
    throw (.invalidDimensions width.toNat height.toNat)
  let walls ← Checked.word l.world 12
  let piles ← Checked.word l.world 13
  let needed := worldRecords + 3 * (walls.toNat + piles.toNat)
  if l.world.size < needed then
    throw (.truncated .world needed l.world.size)
  let w := World.new width.toNat height.toNat
  let x ← Checked.word l.world 9
  let y ← Checked.word l.world 10
  if !w.contains (cellAt x y) then
    throw (.invalidCoordinate x.toNat y.toNat)
  let direction ← Checked.word l.world 11
  let facing ← Checked.lift (orientation direction)
  let bag ← Checked.word l.world 8
  let (wallRecords, pileRecords) ← l.records? walls.toNat piles.toNat
  let limits ← l.limits?
  let dumpsPosition ← Checked.word l.limits 21
  let dumpsOrientation ← Checked.word l.limits 24
  let listsCells ← Checked.word l.limits 27
  let cellRecords ← l.cells? listsCells
  let w := ((w.moveTo (cellAt x y)).rotate facing).setBag (amount bag)
  let sides := wallRecords.flatMap fun (x, y, mask) =>
    (Orientation.all.filter fun side => mask.toNat.testBit side.index).map fun side =>
      (cellAt x y, side)
  let w := sides.foldl (fun w (c, side) => w.addWall c side) w
  let w := pileRecords.foldl (fun w (x, y, n) => w.setPile (cellAt x y) (amount n)) w
  let w := cellRecords.foldl (fun w (x, y, _) => w.setMark (cellAt x y) true) w
  let dumps :=
    (if dumpsPosition ≠ 0 then [DumpKind.position] else []) ++
    (if dumpsOrientation ≠ 0 then [DumpKind.orientation] else []) ++
    (if listsCells ≠ 0 then [DumpKind.world] else [])
  let w := dumps.foldl (fun w k => w.setDump k true) w
  return { w with limits }

end LegacyWorld

/-! ## Accesses that are in range -/

namespace Checked

variable {α β : Type} {words : Array UInt16} {start stop n i : Nat}

/-- A word that is there is handed on. -/
theorem word_bind (h : i < words.size) (next : UInt16 → Checked α) :
    (word words i >>= next) = next (words.getD i 0) := by
  rw [word, Array.getElem?_eq_getElem h, Array.getD_eq_getD_getElem?, Array.getElem?_eq_getElem h]
  rfl

theorem slice_bind (hstart : start ≤ stop) (hstop : stop ≤ words.size)
    (next : List UInt16 → Checked α) :
    (slice words start stop >>= next) = next ((words.toList.drop start).take (stop - start)) := by
  rw [slice, if_pos ⟨hstart, hstop⟩]
  rfl

theorem split_bind {words : List UInt16} (h : n ≤ words.length)
    (next : List UInt16 × List UInt16 → Checked α) :
    (split words n >>= next) = next (words.take n, words.drop n) := by
  rw [split, if_pos h]
  rfl

theorem flagged_bind (h : i + 1 < words.size) (next : Option UInt16 → Checked α) :
    (flagged words i >>= next) =
      next (if words.getD i 0 ≠ 0 then some (words.getD (i + 1) 0) else none) := by
  rw [flagged, word_bind (by omega)]
  by_cases hflag : words.getD i 0 = 0
  · rw [if_pos hflag, if_neg (not_not_intro hflag), pure_bind]
  · rw [if_neg hflag, if_pos hflag, word_bind h, pure_bind]

theorem lift_bind (x : Except LoadError α) (next : α → Except LoadError β) :
    lift (x.bind next) = lift x >>= fun a => lift (next a) := by
  cases x <;> rfl

/-- A check keeps to the buffers if what follows it does, where the check has passed. -/
theorem check_lift {c : Prop} [Decidable c] {e : LoadError} {rest : Unit → Checked α}
    {r : Except LoadError α} (h : ¬ c → rest () = lift r) :
    (if c then throw e >>= rest else rest ()) = lift (if c then .error e else r) := by
  by_cases hc : c
  · rw [if_pos hc, if_pos hc]
    rfl
  · rw [if_neg hc, if_neg hc, h hc]

theorem records_cons (a b c : UInt16) (rest : List UInt16) :
    records (a :: b :: c :: rest) = records rest >>= fun rs => pure ((a, b, c) :: rs) := by
  rw [records, chunks, List.mapM_cons]
  rfl

theorem drop_eq_cons (h : i < words.size) :
    words.toList.drop i = words.getD i 0 :: words.toList.drop (i + 1) := by
  rw [List.drop_eq_getElem_cons (by simpa using h), Array.getElem_toList, Array.getD, dif_pos h]
  rfl

/-- Three words at a time are the records of a buffer. -/
theorem records_eq (h : start + 3 * n ≤ words.size) :
    records ((words.toList.drop start).take (3 * n)) =
      pure ((List.range n).map (LegacyWorld.recordAt words start)) := by
  -- on the number of records, whose first three words are taken off
  induction n generalizing start with
  | zero => rfl
  | succ n ih =>
    have hnext : LegacyWorld.recordAt words start ∘ Nat.succ =
        LegacyWorld.recordAt words (start + 3) := by
      funext i
      have hplace : start + 3 * (i + 1) = start + 3 + 3 * i := by omega
      simp only [Function.comp, LegacyWorld.recordAt, Nat.succ_eq_add_one, hplace]
    have hrest : records ((words.toList.drop (start + 3)).take (3 * n)) =
        pure ((List.range n).map (LegacyWorld.recordAt words (start + 3))) := ih (by omega)
    rw [drop_eq_cons (by omega), drop_eq_cons (by omega), drop_eq_cons (by omega)]
    rw [show 3 * (n + 1) = 3 * n + 1 + 1 + 1 by omega]
    rw [List.take_succ_cons, List.take_succ_cons, List.take_succ_cons, records_cons, hrest,
      pure_bind, List.range_succ_eq_map, List.map_cons, List.map_map, hnext]
    rfl

end Checked

/-! ## Decoding stays in the buffers -/

namespace LegacyWorld

variable {l : LegacyWorld}

theorem records?_eq (h : l.worldWordsNeeded ≤ l.world.size) :
    l.records? l.wallCount l.pileCount = pure (l.wallRecords, l.pileRecords) := by
  have hneeded : worldRecords + 3 * (l.wallCount + l.pileCount) ≤ l.world.size := h
  have hsplit : 3 * l.wallCount ≤
      ((l.world.toList.drop worldRecords).take (3 * (l.wallCount + l.pileCount))).length := by
    rw [List.length_take, List.length_drop, Array.length_toList]
    omega
  have hwalls : Checked.records ((l.world.toList.drop worldRecords).take (3 * l.wallCount)) =
      pure l.wallRecords :=
    Checked.records_eq (by omega)
  have hpiles : Checked.records
      ((l.world.toList.drop (worldRecords + 3 * l.wallCount)).take (3 * l.pileCount)) =
      pure l.pileRecords :=
    Checked.records_eq (by omega)
  rw [records?, Checked.slice_bind (by omega) hneeded, Nat.add_sub_cancel_left,
    Checked.split_bind hsplit]
  dsimp only
  -- the first part of the slice holds the walls, and what is left of it the piles
  rw [List.take_take, Nat.min_eq_left (by omega), List.drop_take, List.drop_drop,
    show 3 * (l.wallCount + l.pileCount) - 3 * l.wallCount = 3 * l.pileCount by omega]
  rw [hwalls, pure_bind, hpiles, pure_bind]

theorem limits?_eq (h : limitsWordsMin ≤ l.limits.size) : l.limits? = pure l.runLimits := by
  have hsize : 30 ≤ l.limits.size := h
  have hcap : ∀ a, capOffset a + 1 < l.limits.size := by
    intro a
    cases a <;> simp only [capOffset] <;> omega
  rw [limits?, Checked.word_bind (by omega), Checked.flagged_bind (hcap .forward),
    Checked.flagged_bind (hcap .left), Checked.flagged_bind (hcap .pickBuzzer),
    Checked.flagged_bind (hcap .leaveBuzzer)]
  -- the two limits without effect are looked up all the same
  rw [Checked.flagged_bind (by omega), Checked.flagged_bind (by omega)]
  simp only [apply_ite (Option.map UInt16.toUInt64), Option.map_some, Option.map_none]
  rfl

theorem cells?_eq (h : limitsWordsMin ≤ l.limits.size) :
    l.cells? (l.limitsWord 27) =
      Checked.lift
        (if l.listsCells && l.limits.size < l.limitsWordsNeeded then
          .error (.truncated .limits l.limitsWordsNeeded l.limits.size)
        else .ok l.cellRecords) := by
  have hsize : 30 ≤ l.limits.size := h
  by_cases hlists : l.limitsWord 27 = 0
  · have hlistsCells : l.listsCells = false := by
      rw [listsCells, hlists]
      rfl
    rw [cells?, if_pos hlists, cellRecords, hlistsCells]
    rfl
  · have hlistsCells : l.listsCells = true := decide_eq_true hlists
    rw [cells?, if_neg hlists, Checked.word_bind (by omega), cellRecords, hlistsCells,
      Bool.true_and, if_pos rfl]
    simp only [decide_eq_true_eq]
    apply Checked.check_lift
    intro hroom
    have hneeded : l.limitsWordsNeeded ≤ l.limits.size := Nat.le_of_not_lt hroom
    have hrecords : Checked.records
        ((l.limits.toList.drop limitsRecords).take (3 * (l.limitsWord 28).toNat)) =
        pure ((List.range (l.limitsWord 28).toNat).map (recordAt l.limits limitsRecords)) :=
      Checked.records_eq hneeded
    have hslice : (Checked.slice l.limits limitsRecords l.limitsWordsNeeded >>= Checked.records) = _ :=
      Checked.slice_bind (Nat.le_add_right _ _) hneeded _
    rw [limitsWordsNeeded, Nat.add_sub_cancel_left, hrecords] at hslice
    exact hslice

/-- Decoding never leaves the buffers. -/
theorem decode?_eq (l : LegacyWorld) : l.decode? = Checked.lift l.decode := by
  rw [decode_eq, decode?]
  apply Checked.check_lift
  intro hworld
  apply Checked.check_lift
  intro hlimits
  -- from here on both headers are there
  have hworldSize : 20 ≤ l.world.size := Nat.le_of_not_lt hworld
  have hlimitsSize : 30 ≤ l.limits.size := Nat.le_of_not_lt hlimits
  have hsignature : signature.length ≤ l.world.size := by
    rw [show signature.length = 5 from rfl]
    omega
  rw [Checked.slice_bind (Nat.zero_le _) hsignature]
  apply Checked.check_lift
  intro _
  rw [Checked.word_bind (by omega), Checked.word_bind (by omega)]
  apply Checked.check_lift
  intro _
  rw [Checked.word_bind (by omega), Checked.word_bind (by omega)]
  apply Checked.check_lift
  intro hroom
  rw [Checked.word_bind (by omega), Checked.word_bind (by omega)]
  apply Checked.check_lift
  intro _
  rw [Checked.word_bind (by omega), Checked.lift_bind]
  apply congrArg (Checked.lift _ >>= ·)
  funext facing
  -- the records of the world have passed their check, those of the limits bring their own
  have hrecords : l.records? (l.world.getD 12 0).toNat (l.world.getD 13 0).toNat = _ :=
    records?_eq (Nat.le_of_not_lt hroom)
  have hcells : l.cells? (l.limits.getD 27 0) = _ := cells?_eq hlimitsSize
  have hdumps :
      (if l.limits.getD 21 0 ≠ 0 then [DumpKind.position] else []) ++
        (if l.limits.getD 24 0 ≠ 0 then [DumpKind.orientation] else []) ++
        (if l.limits.getD 27 0 ≠ 0 then [DumpKind.world] else []) = l.dumps := by
    simp only [dumps, listsCells, decide_eq_true_eq]
    rfl
  rw [Checked.word_bind (by omega), hrecords, pure_bind]
  dsimp only
  rw [limits?_eq hlimitsSize, pure_bind, Checked.word_bind (by omega), Checked.word_bind (by omega),
    Checked.word_bind (by omega), hcells, hdumps]
  split <;> rfl

end LegacyWorld

end GridRobot
