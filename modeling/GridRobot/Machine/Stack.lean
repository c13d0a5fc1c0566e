import GridRobot.Fault

/-!
# The stack of the machine

A stack holds at most `capacity` words. The words are listed from the top; positions are counted from
the bottom, so that a position stays valid while words are pushed on top of it. The number of words is
kept beside them.
-/

set_option autoImplicit false

namespace GridRobot

/-- Why a stack operation fails. -/
inductive StackError where
  | overflow
  | underflow
  deriving DecidableEq, Repr

namespace StackError

/-- The name of an error. -/
def name : StackError → String
  | overflow => "Overflow"
  | underflow => "Underflow"

/-- The words for an error. -/
def message : StackError → String
  | overflow => "Stack overflow"
  | underflow => "Stack underflow"

/-- The fault that an error raises in a run. -/
def fault : StackError → Fault
  | overflow => .stack
  | underflow => .invalidOpcode

end StackError

/-- A bounded stack of words. -/
structure Stack where
  capacity : Nat
  /-- The words from the top down. -/
  words : List Int32 := []
  size : Nat := 0
  size_eq : size = words.length
  deriving DecidableEq

namespace Stack

/-- A stack is determined by its words and its capacity. -/
@[ext] theorem ext {s t : Stack} (hcapacity : s.capacity = t.capacity) (hwords : s.words = t.words) :
    s = t := by
  obtain ⟨capacity, words, size, hs⟩ := s
  obtain ⟨capacity', words', size', ht⟩ := t
  subst hcapacity hwords hs ht
  rfl

/-- An empty stack. -/
def empty (capacity : Nat) : Stack := { capacity, size_eq := rfl }

/-- Puts a word on top. -/
def push (s : Stack) (v : Int32) : Except StackError Stack :=
  if s.size < s.capacity then
    .ok { s with words := v :: s.words, size := s.size + 1, size_eq := by simp [s.size_eq] }
  else .error .overflow

/-- Takes the top word away. -/
def pop (s : Stack) : Except StackError (Int32 × Stack) :=
  match h : s.words with
  | [] => .error .underflow
  | v :: rest =>
    .ok (v, { s with words := rest, size := s.size - 1, size_eq := by simp [s.size_eq, h] })

/-- The top word. -/
def peek (s : Stack) : Except StackError Int32 :=
  match s.words with
  | [] => .error .underflow
  | v :: _ => .ok v

/-- Puts a second copy of the top word on top. -/
def dup (s : Stack) : Except StackError Stack :=
  match s.peek with
  | .ok v => s.push v
  | .error e => .error e

/-- Replaces the top word by a function of it. -/
def mapTop (s : Stack) (f : Int32 → Int32) : Except StackError Stack :=
  match h : s.words with
  | [] => .error .underflow
  | v :: rest => .ok { s with words := f v :: rest, size_eq := by simp [s.size_eq, h] }

/-- The word at a position counted from the bottom. -/
def get (s : Stack) (i : Nat) : Except StackError Int32 :=
  if i < s.size then .ok (s.words.getD (s.size - 1 - i) 0) else .error .underflow

/-- Drops the words from position `n` on. -/
def truncate (s : Stack) (n : Nat) : Stack :=
  { s with
    words := s.words.drop (s.size - n)
    size := min n s.size
    size_eq := by rw [List.length_drop, ← s.size_eq]; omega }

/-- Drops all words. -/
def clear (s : Stack) : Stack := empty s.capacity

/-- The words from the bottom up. -/
def toList (s : Stack) : List Int32 := s.words.reverse

end Stack

end GridRobot
