import GridRobot.Machine.Stack

/-!
# What the stack operations do to the words

Each operation that succeeds is described by the words it finds and the words it leaves, from the top
down; none of them changes the capacity. A position counted from the bottom is the number of words
below it, so `get` and `truncate` are described by splitting the words at that place.
-/

set_option autoImplicit false

namespace GridRobot.Stack

variable {s t : Stack} {v : Int32}

theorem size_of_words {words : List Int32} (h : s.words = words) : s.size = words.length := by
  rw [s.size_eq, h]

theorem push_eq_ok_iff :
    s.push v = .ok t ↔
      s.size < s.capacity ∧ t.words = v :: s.words ∧ t.capacity = s.capacity := by
  rw [push]
  split
  · rename_i hlt
    constructor
    · intro h
      obtain rfl := Except.ok.inj h
      exact ⟨hlt, rfl, rfl⟩
    · rintro ⟨-, hwords, hcapacity⟩
      exact congrArg Except.ok (ext hcapacity.symm hwords.symm)
  · rename_i hlt
    constructor
    · intro h
      exact absurd h (by simp)
    · exact fun h => absurd h.1 hlt

theorem pop_eq_ok_iff :
    s.pop = .ok (v, t) ↔ s.words = v :: t.words ∧ t.capacity = s.capacity := by
  rw [pop]
  split
  · rename_i hnil
    simp [hnil]
  · rename_i u rest hcons
    constructor
    · intro h
      obtain ⟨rfl, rfl⟩ := Prod.mk.inj (Except.ok.inj h)
      exact ⟨hcons, rfl⟩
    · rintro ⟨hwords, hcapacity⟩
      obtain ⟨rfl, rfl⟩ := List.cons.inj (hcons.symm.trans hwords)
      exact congrArg Except.ok (Prod.ext rfl (ext hcapacity.symm rfl))

theorem words_of_mapTop {f : Int32 → Int32} (h : s.mapTop f = .ok t) :
    ∃ v rest, s.words = v :: rest ∧ t.words = f v :: rest ∧ t.capacity = s.capacity := by
  rw [mapTop] at h
  split at h
  · exact absurd h (by simp)
  · rename_i v rest hcons
    obtain rfl := Except.ok.inj h
    exact ⟨v, rest, hcons, rfl, rfl⟩

theorem peek_eq_ok_iff : s.peek = .ok v ↔ s.words.head? = some v := by
  rw [peek]
  split <;> rename_i hwords <;> simp [hwords]

theorem words_of_dup (h : s.dup = .ok t) :
    ∃ v, t.words = v :: s.words ∧ t.capacity = s.capacity := by
  rw [dup] at h
  split at h
  · rename_i v _
    exact ⟨v, (push_eq_ok_iff.1 h).2⟩
  · exact absurd h (by simp)

/-- The word with exactly `below` under it stands at the position `below.length`. -/
theorem get_of_words (above below : List Int32) (h : s.words = above ++ v :: below) :
    s.get below.length = .ok v := by
  have hsize : s.size = above.length + 1 + below.length := by
    rw [s.size_eq, h]
    simp
    omega
  have hplace : s.size - 1 - below.length = above.length := by omega
  rw [get]
  rw [if_pos (by omega), hplace, h]
  simp

/-- Below a word there are words. -/
theorem get_of_get_succ {n : Nat} (h : s.get (n + 1) = .ok v) :
    ∃ w, s.get n = .ok w := by
  rw [get] at h
  split at h
  · rename_i hlt
    exact ⟨_, if_pos (by omega)⟩
  · exact absurd h (by simp)

/-- Truncating to the height of the lower words leaves them. -/
theorem words_truncate (above below : List Int32) (h : s.words = above ++ below) :
    (s.truncate below.length).words = below := by
  have hsize : s.size - below.length = above.length := by
    rw [s.size_eq, h]
    simp
  show s.words.drop (s.size - below.length) = below
  rw [hsize, h, List.drop_left]

end GridRobot.Stack
