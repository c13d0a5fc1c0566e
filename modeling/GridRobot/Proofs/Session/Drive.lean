import GridRobot.Proofs.Machine.Failure

/-!
# Driving a session

A session is driven on by single instructions, by source lines or to its end, in any order. `Drive`
is one such call. `step` and `run` come with the number of instructions they may execute; a call
that returns is one with enough of them, so what is said for every number holds of every call that
returns.

All three calls are made of two moves: executing an instruction, and entering the source line ahead
before its instruction is executed. What both preserve, every call preserves (`drive_induction`).

`Twin` relates sessions that differ in their observers only: they stay so whatever calls drive them.
-/

set_option autoImplicit false

namespace GridRobot

/-- A call that drives a session on. -/
inductive Drive where
  | next
  | step (fuel : Nat)
  | run (fuel : Nat)
  deriving DecidableEq, Repr

namespace Session

/-- The session after a call. -/
def drive (s : Session) : Drive → Session
  | .next => s.next
  | .step fuel => step fuel s
  | .run fuel => run fuel s

/-- The session after several calls. -/
def driveAll (s : Session) (ds : List Drive) : Session :=
  ds.foldl drive s

variable {s t : Session}

/-- The session with another source line entered last. -/
def atLine (s : Session) (n : Int32) : Session :=
  { s with machine := { s.machine with line := n } }

/-- An advance is a step that may be followed by entering the source line ahead. -/
theorem advance_cases (s : Session) :
    s.advance = s.next ∨
      ∃ n, s.next.running = true ∧ s.next.lineAhead? = some n ∧ s.advance = s.next.atLine n := by
  rw [advance]
  dsimp only
  split
  · rename_i hrunning
    split
    · rename_i n hline
      exact .inr ⟨n, hrunning, hline, rfl⟩
    · exact .inl rfl
  · exact .inl rfl

theorem step_succ (fuel : Nat) (s : Session) :
    step (fuel + 1) s =
      if s.advance.running && s.advance.lineAhead?.isNone then step fuel s.advance
      else s.advance :=
  rfl

/-! ## What every call preserves -/

section Induction

variable {P : Session → Prop} (hnext : ∀ s, P s → P s.next)
  (hline : ∀ s n, P s → s.running = true → s.lineAhead? = some n → P (s.atLine n))

include hnext hline

theorem advance_induction (h : P s) : P s.advance := by
  rcases s.advance_cases with hsame | ⟨n, hrunning, hahead, hentered⟩
  · rw [hsame]
    exact hnext s h
  · rw [hentered]
    exact hline s.next n (hnext s h) hrunning hahead

/-- What holds of a session, and is preserved by a single step and by entering the source line
ahead, holds after every call. -/
theorem drive_induction (h : P s) (d : Drive) : P (s.drive d) := by
  cases d with
  | next => exact hnext s h
  | step fuel =>
    show P (step fuel s)
    induction fuel generalizing s with
    | zero => exact h
    | succ fuel ih =>
      rw [step_succ]
      split
      · exact ih (advance_induction hnext hline h)
      · exact advance_induction hnext hline h
  | run fuel =>
    show P (run fuel s)
    induction fuel generalizing s with
    | zero => exact h
    | succ fuel ih =>
      rw [run_succ]
      split
      · exact ih (advance_induction hnext hline h)
      · exact advance_induction hnext hline h

theorem driveAll_induction (h : P s) (ds : List Drive) : P (s.driveAll ds) := by
  induction ds generalizing s with
  | nil => exact h
  | cons d ds ih => exact ih (drive_induction hnext hline h d)

end Induction

/-- A stopped session is not driven on. -/
theorem drive_of_stopped (h : s.running = false) (d : Drive) : s.drive d = s := by
  have hstays : s.drive d = s ∧ (s.drive d).running = false := by
    apply drive_induction (P := fun t => t = s ∧ t.running = false) _ _ ⟨rfl, h⟩ d
    · rintro t ⟨rfl, hstopped⟩
      rw [next_of_stopped hstopped]
      exact ⟨rfl, hstopped⟩
    · rintro t n ⟨-, hstopped⟩ hrunning
      rw [hstopped] at hrunning
      exact absurd hrunning (by simp)
  exact hstays.1

/-! ## Sessions that differ in their observers -/

/-- Two sessions are the same apart from their observers and what these have been told. -/
structure Twin (s t : Session) : Prop where
  world : s.world = t.world
  program : s.program = t.program
  machine : s.machine = t.machine
  queue : s.queue = t.queue

namespace Twin

theorem running (h : s.Twin t) : s.running = t.running := by
  rw [Session.running, Session.running, h.machine]

theorem fetch? (h : s.Twin t) : s.fetch? = t.fetch? := by
  rw [Session.fetch?, Session.fetch?, h.program, h.machine]

theorem refusal? (h : s.Twin t) : s.refusal? = t.refusal? := by
  rw [Session.refusal?, Session.refusal?, h.world, h.machine]

theorem lineAhead? (h : s.Twin t) : s.lineAhead? = t.lineAhead? := by
  rw [Session.lineAhead?, Session.lineAhead?, h.fetch?]

/-- Whoever listens, the queue is empty after a delivery and nothing else has changed. -/
theorem deliver (h : s.Twin t) : s.deliver.Twin t.deliver := by
  have hempty : ∀ u : Session, u.deliver.queue = [] := by
    intro u
    rw [Session.deliver]
    split <;> rfl
  refine ⟨?_, ?_, ?_, ?_⟩
  · rw [deliver_world, deliver_world, h.world]
  · rw [deliver_program, deliver_program, h.program]
  · rw [deliver_machine, deliver_machine, h.machine]
  · rw [hempty, hempty]

theorem withMachine (h : s.Twin t) (m : Machine) :
    Twin { s with machine := m } { t with machine := m } :=
  ⟨h.world, h.program, rfl, h.queue⟩

theorem executeNext (h : s.Twin t) (i : Instruction) :
    (s.executeNext i).Twin (t.executeNext i) := by
  have hscene : s.scene i = t.scene i := by
    rw [scene, scene, h.world, h.machine, h.queue]
  have hs : s.executeNext i = s.withScene (execute i (s.scene i)).1 := rfl
  have ht : t.executeNext i = t.withScene (execute i (t.scene i)).1 := rfl
  rw [hs, ht, hscene]
  exact ⟨rfl, h.program, rfl, rfl⟩

theorem next (h : s.Twin t) : s.next.Twin t.next := by
  rw [Session.next, Session.next, h.running, h.fetch?, h.refusal?, h.machine]
  split
  · split
    · exact h.withMachine _
    · split
      · exact h.withMachine _
      · exact (h.executeNext _).deliver
  · exact h

theorem advance (h : s.Twin t) : s.advance.Twin t.advance := by
  have hnext := h.next
  rw [Session.advance, Session.advance]
  dsimp only
  rw [hnext.running, hnext.lineAhead?]
  split
  · split
    · rw [hnext.machine]
      exact hnext.withMachine _
    · exact hnext
  · exact hnext

/-- Twins stay twins under the same calls. -/
theorem drive (h : s.Twin t) (d : Drive) : (s.drive d).Twin (t.drive d) := by
  cases d with
  | next => exact h.next
  | step fuel =>
    show (step fuel s).Twin (step fuel t)
    induction fuel generalizing s t with
    | zero => exact h
    | succ fuel ih =>
      rw [step_succ, step_succ, h.advance.running, h.advance.lineAhead?]
      split
      · exact ih h.advance
      · exact h.advance
  | run fuel =>
    show (run fuel s).Twin (run fuel t)
    induction fuel generalizing s t with
    | zero => exact h
    | succ fuel ih =>
      rw [run_succ, run_succ, h.advance.running]
      split
      · exact ih h.advance
      · exact h.advance

end Twin

end Session

end GridRobot
