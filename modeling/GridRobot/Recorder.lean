import GridRobot.Session

/-!
# The call stack as an observer sees it

A recorder follows the notifications of calls and returns. A return without an open call changes only
the number of returns.
-/

set_option autoImplicit false

namespace GridRobot

/-- An open call. -/
structure CallFrame where
  function : String
  param : Int32
  line : Int32
  deriving DecidableEq, Repr

/-- The open calls, and what there was of calls so far. -/
structure Recorder where
  /-- The open calls, innermost first. -/
  frames : List CallFrame := []
  /-- The number of open calls. -/
  depth : Nat := 0
  calls : Nat := 0
  returns : Nat := 0
  maxDepth : Nat := 0
  depth_eq : depth = frames.length
  deriving DecidableEq

namespace Recorder

/-- A recorder that has followed nothing. -/
def empty : Recorder := { depth_eq := rfl }

/-- Follows a notification. -/
def observe (r : Recorder) : Notification → Recorder
  | .call function param line =>
    { r with
      frames := ⟨function, param, line⟩ :: r.frames
      depth := r.depth + 1
      calls := r.calls + 1
      maxDepth := max r.maxDepth (r.depth + 1)
      depth_eq := by simp [r.depth_eq] }
  | .ret _ =>
    { r with
      frames := r.frames.tail
      depth := r.depth - 1
      returns := r.returns + 1
      depth_eq := by simp [r.depth_eq] }

/-- Follows notifications in order. -/
def observeAll (r : Recorder) (ns : List Notification) : Recorder :=
  ns.foldl observe r

end Recorder

/-- Runs a session to its end, at most `fuel` instructions, while a recorder follows. What the
recorder has followed is not kept. -/
def Session.runRecorded : Nat → Session → Recorder → Session × Recorder
  | 0, s, r => (s, r)
  | fuel + 1, s, r =>
    let t := s.advance
    let r := r.observeAll t.heard.reverse
    let t := { t with heard := [] }
    if t.running then runRecorded fuel t r else (t, r)

end GridRobot
