import GridRobot.Outcome.Basic
import GridRobot.Proofs.Session.Drive

/-!
# The size of the steps does not matter

A session may be driven instruction by instruction, line by line or in one go. Stepping and running
enter a source line before its instruction is executed, so that between calls the last line may be
ahead of what single steps show. `Follows` says what every mix of calls leads to: a session that single
steps lead to, or such a session ahead by the line that comes next. The difference disappears when the
instruction of that line is executed. It stays only where the budget refuses this very instruction, and
then nothing but the line differs (`stopped_alike`).
-/

set_option autoImplicit false

namespace GridRobot.Session

variable {s t : Session}

/-- A step of the session was refused for lack of budget where its next instruction enters line
`n`. -/
def RefusedAtLine (s : Session) (n : Int32) : Prop :=
  ∃ k f, (s.after k).running = true ∧ (s.after k).fetch? = some (.line n) ∧
    (s.after k).refusal? = some f

theorem fetch?_of_lineAhead? {n : Int32} (h : s.lineAhead? = some n) :
    s.fetch? = some (.line n) := by
  rw [lineAhead?] at h
  split at h
  · rename_i m hfetch
    obtain rfl := Option.some.inj h
    exact hfetch
  · exact absurd h (by simp)

/-! ## One step -/

/-- Entering a line ahead of time is not seen when its instruction is executed. -/
theorem next_atLine_of_due? {n : Int32} (hdue : s.due? = some (.line n)) :
    (s.atLine n).next = s.next := by
  have hdue' : (s.atLine n).due? = some (.line n) := hdue
  rw [next_of_due? hdue, next_of_due? hdue']
  rfl

/-- A refused step leaves the line as it is. -/
theorem next_atLine_of_refused {n : Int32} {i : Instruction} {f : Fault}
    (hrunning : s.running = true) (hfetch : s.fetch? = some i) (hrefusal : s.refusal? = some f) :
    (s.atLine n).next = s.next.atLine n := by
  have hrunning' : (s.atLine n).running = true := hrunning
  have hfetch' : (s.atLine n).fetch? = some i := hfetch
  have hrefusal' : (s.atLine n).refusal? = some f := hrefusal
  simp only [next, hrunning, hfetch, hrefusal, hrunning', hfetch', hrefusal']
  rfl

/-- What a mix of calls leads to, compared with `k` single steps. -/
inductive Follows (s : Session) (k : Nat) : Session → Prop
  | same : Follows s k (s.after k)
  | ahead {n : Int32} (hrunning : (s.after k).running = true)
      (hline : (s.after k).lineAhead? = some n) : Follows s k ((s.after k).atLine n)
  | refused {n : Int32} (hstopped : (s.after k).running = false) (hrefused : s.RefusedAtLine n) :
      Follows s k ((s.after k).atLine n)

namespace Follows

variable {k : Nat}

theorem next (h : s.Follows k t) : s.Follows (k + 1) t.next := by
  cases h with
  | same => exact .same
  | @ahead n hrunning hline =>
    have hfetch := fetch?_of_lineAhead? hline
    cases hrefusal : (s.after k).refusal? with
    | none =>
      -- the line is entered now in any case
      rw [next_atLine_of_due? (due?_eq_some_iff.2 ⟨hrunning, hrefusal, hfetch⟩)]
      exact .same
    | some f =>
      rw [next_atLine_of_refused hrunning hfetch hrefusal]
      apply Follows.refused (k := k + 1)
      · exact running_next_of_due?_eq_none (by simp [due?, hrefusal])
      · exact ⟨k, f, hrunning, hfetch, hrefusal⟩
  | @refused n hstopped hrefused =>
    have hstopped' : ((s.after k).atLine n).running = false := hstopped
    have hafter : s.after (k + 1) = s.after k := next_of_stopped hstopped
    rw [next_of_stopped hstopped', ← hafter]
    rw [← hafter] at hstopped
    exact .refused hstopped hrefused

theorem atLine {n : Int32} (h : s.Follows k t) (hrunning : t.running = true)
    (hline : t.lineAhead? = some n) : s.Follows k (t.atLine n) := by
  cases h with
  | same => exact .ahead hrunning hline
  | ahead hrunning' hline' =>
    -- the line has been entered before
    obtain rfl := Option.some.inj (hline'.symm.trans hline)
    exact .ahead hrunning' hline'
  | refused hstopped _ =>
    have hrunning' : (s.after k).running = true := hrunning
    rw [hstopped] at hrunning'
    exact absurd hrunning' (by simp)

/-- Where a run has stopped, only the line may differ, and only if the budget refused to enter
it. -/
theorem of_stopped (h : s.Follows k t) (hstopped : t.running = false) :
    (s.after k).running = false ∧ t = (s.after k).atLine t.machine.line ∧
      (t.machine.line = (s.after k).machine.line ∨ s.RefusedAtLine t.machine.line) := by
  cases h with
  | same => exact ⟨hstopped, rfl, .inl rfl⟩
  | ahead hrunning _ =>
    have hstopped' : (s.after k).running = false := hstopped
    rw [hrunning] at hstopped'
    exact absurd hstopped' (by simp)
  | refused hstopped' hrefused => exact ⟨hstopped', rfl, .inr hrefused⟩

/-- An advance follows one more single step. -/
theorem advance (h : s.Follows k t) : s.Follows (k + 1) t.advance := by
  rcases t.advance_cases with hsame | ⟨n, hrunning, hline, hentered⟩
  · rw [hsame]
    exact h.next
  · rw [hentered]
    exact h.next.atLine hrunning hline

/-- A run on some fuel follows as many single steps. -/
theorem run (h : s.Follows k t) (fuel : Nat) : s.Follows (k + fuel) (Session.run fuel t) := by
  induction fuel generalizing k t with
  | zero => exact h
  | succ fuel ih =>
    -- a run that stops early is as good as one that goes on with nothing to do
    have hrun : Session.run (fuel + 1) t = Session.run fuel t.advance := by
      rw [run_succ]
      split
      · rfl
      · rename_i hstopped
        exact (run_of_stopped fuel (by simpa using hstopped)).symm
    rw [hrun, show k + (fuel + 1) = k + 1 + fuel by omega]
    exact ih h.advance

/-- Where single steps have stopped, what follows them has stopped. -/
theorem stopped (h : s.Follows k t) (hstopped : (s.after k).running = false) :
    t.running = false := by
  cases h with
  | same => exact hstopped
  | ahead hrunning _ =>
    rw [hstopped] at hrunning
    exact absurd hrunning (by simp)
  | refused hstopped' _ => exact hstopped'

end Follows

/-! ## Whole runs -/

/-- Every mix of calls follows the single steps. -/
theorem exists_follows (s : Session) (ds : List Drive) : ∃ k, s.Follows k (s.driveAll ds) := by
  apply driveAll_induction (P := fun t => ∃ k, s.Follows k t)
  · rintro t ⟨k, h⟩
    exact ⟨k + 1, h.next⟩
  · rintro t n ⟨k, h⟩ hrunning hline
    exact ⟨k, h.atLine hrunning hline⟩
  · exact ⟨0, .same⟩

/-- Single steps stop in one session only. -/
theorem after_eq_of_stopped {m n : Nat} (hm : (s.after m).running = false)
    (hn : (s.after n).running = false) : s.after m = s.after n := by
  -- the later of the two is as the earlier left it
  rcases Nat.le_total m n with hmn | hnm
  · obtain ⟨d, rfl⟩ := Nat.exists_eq_add_of_le hmn
    exact (after_add_of_fixed (next_of_stopped hm) d).symm
  · obtain ⟨d, rfl⟩ := Nat.exists_eq_add_of_le hnm
    exact after_add_of_fixed (next_of_stopped hn) d

/-- Whatever mix of calls drives a session until it stops, single steps stop too, and in the same
session: the same world and machine, the same things told to the observer, and the same report. The
line entered last may differ only if the budget refused to enter a line, and then it is that line.
Further calls change nothing. -/
theorem stopped_alike (s : Session) (ds : List Drive) (h : (s.driveAll ds).running = false) :
    (∃ n, (s.after n).running = false) ∧
    (∀ n, (s.after n).running = false →
      s.driveAll ds = (s.after n).atLine (s.driveAll ds).machine.line ∧
      (s.driveAll ds).outcome = (s.after n).outcome ∧
      ((s.driveAll ds).machine.line = (s.after n).machine.line ∨
        s.RefusedAtLine (s.driveAll ds).machine.line)) ∧
    ∀ d, (s.driveAll ds).drive d = s.driveAll ds := by
  obtain ⟨k, hfollows⟩ := s.exists_follows ds
  obtain ⟨hk, hsame, hline⟩ := hfollows.of_stopped h
  refine ⟨⟨k, hk⟩, ?_, drive_of_stopped h⟩
  intro n hn
  rw [after_eq_of_stopped hn hk]
  refine ⟨hsame, ?_, hline⟩
  -- the report does not show the line
  rw [hsame]
  rfl

/-- A turn and a line, of which the budget allows the turn. -/
def lineUnpaid : Session :=
  .new { World.new 2 2 with limits := { maxInstructions := 1 } } { code := #[.left, .line 5] }

/-- A step enters the line that the budget then refuses; single steps never enter it. -/
theorem stopped_alike_lineUnpaid :
    (lineUnpaid.driveAll [.step 4, .run 4]).running = false ∧
      (lineUnpaid.after 2).running = false ∧
      (lineUnpaid.driveAll [.step 4, .run 4]).machine.line = 5 ∧
      (lineUnpaid.after 2).machine.line = 0 ∧
      (lineUnpaid.driveAll [.step 4, .run 4]).outcome = (lineUnpaid.after 2).outcome ∧
      lineUnpaid.RefusedAtLine 5 := by
  have hstopped : (lineUnpaid.driveAll [.step 4, .run 4]).running = false := by decide +kernel
  have hsingle : (lineUnpaid.after 2).running = false := by decide +kernel
  have hline : (lineUnpaid.driveAll [.step 4, .run 4]).machine.line = 5 := by decide +kernel
  have hline' : (lineUnpaid.after 2).machine.line = 0 := by decide +kernel
  obtain ⟨-, hfinal, -⟩ := stopped_alike lineUnpaid [.step 4, .run 4] hstopped
  obtain ⟨-, houtcome, hlines⟩ := hfinal 2 hsingle
  refine ⟨hstopped, hsingle, hline, hline', houtcome, ?_⟩
  rw [hline, hline'] at hlines
  exact hlines.resolve_left (by decide)

end GridRobot.Session
