/-!
# The first fault

Readers look at entries in order and stop at the first one that is wrong. `FirstFault` says which one
that is and what comes before it; there is one exactly if some entry is wrong
(`FirstFault.not_forall`), and then there is only one (`FirstFault.unique`).
-/

set_option autoImplicit false

namespace GridRobot

variable {α : Type} {holds : α → Prop} {xs before : List α} {x y : α}

/-- `x` is the first of the entries that does not hold, and `before` comes before it. -/
def FirstFault (holds : α → Prop) (xs before : List α) (x : α) : Prop :=
  (∃ after, xs = before ++ x :: after) ∧ (∀ y ∈ before, holds y) ∧ ¬ holds x

namespace FirstFault

theorem head (h : ¬ holds x) (xs : List α) : FirstFault holds (x :: xs) [] x :=
  ⟨⟨xs, rfl⟩, by simp, h⟩

theorem cons (hy : holds y) (h : FirstFault holds xs before x) :
    FirstFault holds (y :: xs) (y :: before) x := by
  obtain ⟨⟨after, rfl⟩, hbefore, hx⟩ := h
  refine ⟨⟨after, rfl⟩, ?_, hx⟩
  intro z hz
  rcases List.mem_cons.1 hz with rfl | hz
  · exact hy
  · exact hbefore z hz

/-- The first fault of a list is its head, or the head holds and it is the first fault of the rest. -/
theorem cons_iff :
    FirstFault holds (y :: xs) before x ↔
      before = [] ∧ x = y ∧ ¬ holds y ∨
        ∃ before', before = y :: before' ∧ holds y ∧ FirstFault holds xs before' x := by
  constructor
  · rintro ⟨⟨after, hxs⟩, hbefore, hx⟩
    cases before with
    | nil =>
      obtain ⟨rfl, -⟩ := List.cons.inj hxs
      exact .inl ⟨rfl, rfl, hx⟩
    | cons z before =>
      obtain ⟨rfl, rfl⟩ := List.cons.inj hxs
      have hrest : ∀ u ∈ before, holds u := fun u hu => hbefore u (List.mem_cons_of_mem _ hu)
      exact .inr ⟨before, rfl, hbefore y List.mem_cons_self, ⟨after, rfl⟩, hrest, hx⟩
  · rintro (⟨rfl, rfl, hx⟩ | ⟨before', rfl, hy, h⟩)
    · exact head hx xs
    · exact h.cons hy

theorem not_forall (h : FirstFault holds xs before x) : ¬ ∀ y ∈ xs, holds y := by
  obtain ⟨⟨after, rfl⟩, -, hx⟩ := h
  intro hall
  exact hx (hall x (by simp))

/-- There is only one first fault. -/
theorem unique {before' : List α} {x' : α} (h : FirstFault holds xs before x)
    (h' : FirstFault holds xs before' x') : before' = before ∧ x' = x := by
  induction xs generalizing before before' with
  | nil =>
    obtain ⟨⟨after, hxs⟩, -⟩ := h
    exact absurd hxs (by simp)
  | cons y xs ih =>
    rcases cons_iff.1 h with ⟨rfl, rfl, hx⟩ | ⟨rest, rfl, hy, hrest⟩
    · rcases cons_iff.1 h' with ⟨rfl, rfl, -⟩ | ⟨-, -, hy, -⟩
      · exact ⟨rfl, rfl⟩
      · exact absurd hy hx
    · rcases cons_iff.1 h' with ⟨-, -, hx⟩ | ⟨rest', rfl, -, hrest'⟩
      · exact absurd hy hx
      · obtain ⟨rfl, rfl⟩ := ih hrest hrest'
        exact ⟨rfl, rfl⟩

end FirstFault

end GridRobot
