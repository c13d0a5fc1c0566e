import GridRobot.Document.Text
import GridRobot.Proofs.Json.Text

/-!
# Typed values are read back

`ReadsAs` relates a writer to a reader: what the writer makes of a value is writable, and the reader
makes of it the value, or what is kept of it. Words, texts and tokens are read back as they are, and
so are lists of what is read back.

A record is written as an object whose members are those of its fields that have a value, in their
declared order (`given`). Since no two fields of a record share a name, the reader finds for each
field what has been given for it, and nothing where it has been left out (`fields_record`).
-/

set_option autoImplicit false

namespace GridRobot.Json

/-! ## Records -/

/-- The members of a record some of whose fields are missing. -/
def given (fs : List (String × Option Json)) : List (String × Json) :=
  fs.filterMap fun f => f.2.map (f.1, ·)

theorem given_append (fs gs : List (String × Option Json)) :
    given (fs ++ gs) = given fs ++ given gs :=
  List.filterMap_append

theorem filter_given (fs : List (String × Option Json)) (name : String) :
    ((given fs).map fun (n, x) => ((some n : Literal), x)).filter (fun m => m.1 = some name) =
      (given (fs.filter fun f => f.1 = name)).map fun (n, x) => (some n, x) := by
  induction fs with
  | nil => rfl
  | cons f fs ih =>
    obtain ⟨n, value⟩ := f
    by_cases hn : n = name
    · cases value <;> simpa [given, hn] using ih
    · cases value <;> simpa [given, hn] using ih

/-- Where no name repeats, a field is the only one with its name. -/
theorem filter_name_eq {fs : List (String × Option Json)} (hnames : (fs.map Prod.fst).Nodup)
    {f : String × Option Json} (hf : f ∈ fs) : fs.filter (fun g => g.1 = f.1) = [f] := by
  induction fs with
  | nil => exact absurd hf (by simp)
  | cons g gs ih =>
    rw [List.map_cons, List.nodup_cons] at hnames
    rcases List.mem_cons.1 hf with rfl | hmem
    · have hrest : gs.filter (fun g => g.1 = f.1) = [] := by
        rw [List.filter_eq_nil_iff]
        intro g hg hname
        exact hnames.1 (List.mem_map.2 ⟨g, hg, by simpa using hname⟩)
      simp [hrest]
    · have hne : g.1 ≠ f.1 := fun h => hnames.1 (List.mem_map.2 ⟨f, hmem, h.symm⟩)
      simpa [hne] using ih hnames.2 hmem

theorem member?_given {fs : List (String × Option Json)} (hnames : (fs.map Prod.fst).Nodup)
    {f : String × Option Json} (hf : f ∈ fs) :
    member? ((given fs).map fun (n, x) => (some n, x)) f.1 = some f.2 := by
  rw [member?, filter_given, filter_name_eq hnames hf]
  obtain ⟨name, value⟩ := f
  cases value <;> rfl

theorem mapM_eq_some_map {α β γ : Type} {f : α → Option β} {g : γ → α} {h : γ → β} {xs : List γ}
    (hf : ∀ x ∈ xs, f (g x) = some (h x)) : (xs.map g).mapM f = some (xs.map h) := by
  induction xs with
  | nil => rfl
  | cons x xs ih =>
    rw [List.map_cons, List.mapM_cons, hf x (by simp), ih fun y hy => hf y (by simp [hy])]
    rfl

/-- Each field of a record is found as it has been given. -/
theorem fields_record {j : Json} {fs : List (String × Option Json)} {names : List String}
    (hj : j = record (given fs)) (hnames : fs.map Prod.fst = names) (hnodup : names.Nodup) :
    j.fields names = some (fs.map Prod.snd) := by
  subst hj hnames
  have hnamed : ((given fs).map fun (n, x) => ((some n : Literal), x)).all (fun m => m.1.isSome) =
      true := by
    simp
  rw [record, fields, if_pos hnamed]
  exact mapM_eq_some_map fun f hf => member?_given hnodup hf

/-- What is given for each field is writable. -/
inductive AllWritable : List (String × Option Json) → Prop where
  | nil : AllWritable []
  | cons {name : String} {value : Option Json} {fs : List (String × Option Json)}
    (hvalue : ∀ x ∈ value, x.Writable) (h : AllWritable fs) : AllWritable ((name, value) :: fs)

theorem AllWritable.cons_some {name : String} {x : Json} {fs : List (String × Option Json)}
    (hx : x.Writable) (h : AllWritable fs) : AllWritable ((name, some x) :: fs) :=
  .cons (fun _ hy => Option.some.inj hy ▸ hx) h

theorem AllWritable.record {fs : List (String × Option Json)} (h : AllWritable fs) :
    (record (given fs)).Writable := by
  apply Writable.record
  induction h with
  | nil => exact fun m hm => absurd hm (by simp [given])
  | @cons name value fs hvalue _ ih =>
    cases value with
    | none => exact ih
    | some x => exact List.forall_mem_cons.2 ⟨hvalue x rfl, ih⟩

/-! ## Readers and writers -/

section

variable {α : Type} {read : Json → Option α} {write : α → Json} {keep : α → α}

/-- What is written of a value is writable, and it is read as what is kept of the value. -/
structure ReadsAs (read : Json → Option α) (write : α → Json) (keep : α → α) : Prop where
  writable : ∀ a, (write a).Writable
  read : ∀ a, read (write a) = some (keep a)

/-- The value of a field that is left out when its list is empty. -/
def listed? (write : α → Json) : List α → Option Json
  | [] => none
  | xs => some (.array (xs.map write))

theorem listField_eq_given (name : String) (write : α → Json) (xs : List α) :
    listField name write xs = given [(name, listed? write xs)] := by
  cases xs <;> rfl

theorem optionField_eq_given (name : String) (write : α → Json) (a? : Option α) :
    optionField name write a? = given [(name, a?.map write)] := by
  cases a? <;> rfl

namespace ReadsAs

theorem required_some (h : ReadsAs read write keep) (a : α) :
    required read (some (write a)) = some (keep a) :=
  h.read a

theorem withDefault_some (h : ReadsAs read write keep) (b a : α) :
    withDefault b read (some (write a)) = some (keep a) :=
  h.read a

/-- A list is read back item by item. -/
theorem array (h : ReadsAs read write keep) :
    ReadsAs (list read) (fun xs => .array (xs.map write)) (List.map keep) where
  writable xs := by
    apply Writable.array
    intro y hy
    obtain ⟨b, -, rfl⟩ := List.mem_map.1 hy
    exact h.writable b
  read _ := mapM_eq_some_map fun b _ => h.read b

theorem writable_listed? (h : ReadsAs read write keep) (xs : List α) :
    ∀ x ∈ listed? write xs, x.Writable := by
  cases xs with
  | nil => exact fun x hx => absurd hx (by simp [listed?])
  | cons a as =>
    intro x hx
    obtain rfl : .array ((a :: as).map write) = x := by simpa [listed?] using hx
    exact h.array.writable (a :: as)

/-- A list that has been left out is read as the empty one. -/
theorem withDefault_listed? (h : ReadsAs read write keep) (xs : List α) :
    withDefault [] (list read) (listed? write xs) = some (xs.map keep) := by
  cases xs with
  | nil => rfl
  | cons a as => exact h.array.read (a :: as)

theorem writable_map (h : ReadsAs read write keep) (a? : Option α) :
    ∀ x ∈ a?.map write, x.Writable := by
  intro x hx
  obtain ⟨a, -, rfl⟩ := Option.map_eq_some_iff.1 hx
  exact h.writable a

/-- A value that has been left out is read as none. -/
theorem optional_map (h : ReadsAs read write keep) (hnull : ∀ a, write a ≠ .null)
    (a? : Option α) :
    optional read (a?.map write) = some (a?.map keep) := by
  cases a? with
  | none => rfl
  | some a =>
    rw [Option.map_some, optional, h.read]
    · rfl
    · exact hnull a

end ReadsAs

end

/-! ## Words and texts -/

theorem asInt?_int (i : Int) : (int i).asInt? = some i :=
  Numeral.toInt?_ofInt i

theorem readsAs_uint32 : ReadsAs asUInt32? uint32 id where
  writable n := .int (by have := n.toNat_lt; constructor <;> omega)
  read n := by
    have hlt := n.toNat_lt
    rw [asUInt32?, uint32, asInt?_int]
    simp only
    rw [if_pos (by omega)]
    simp

theorem readsAs_uint64 : ReadsAs asUInt64? uint64 id where
  writable n := .int (by have := n.toNat_lt; constructor <;> omega)
  read n := by
    have hlt := n.toNat_lt
    rw [asUInt64?, uint64, asInt?_int]
    simp only
    rw [if_pos (by omega)]
    simp

theorem readsAs_text : ReadsAs asText? text id where
  writable := .text
  read _ := rfl

theorem readsAs_bool : ReadsAs asBool? bool id where
  writable := .bool
  read _ := rfl

end GridRobot.Json
