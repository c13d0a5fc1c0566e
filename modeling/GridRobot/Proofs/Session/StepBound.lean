import GridRobot.Proofs.Machine.Budget
import GridRobot.Proofs.Machine.CallReturn
import GridRobot.Proofs.Machine.Termination
import GridRobot.Proofs.Session.Granularity

/-!
# How long a run can be

The instruction limit counts jumps, calls and actions only, yet it bounds the number of all the
instructions of a run, as long as these keep to the operands of their own frames. Every return then
goes through the frame of an open call, which was paid for (`not_strayReturn`), so that a run of a
program with `N` instructions under the limit `M` executes at most `(2 * M + 1) * N` of them and then
stops (`executed_bounded`).
-/

set_option autoImplicit false

namespace GridRobot.Session

variable {s : Session} {n : Nat}

/-- A frame-respecting run returns through the frames of open calls only. -/
theorem not_strayReturn (hs : s.IsFresh) (hrespects : s.FrameRespecting n) :
    ¬ (s.after n).StrayReturn := by
  rintro ⟨⟨hdue, hfp⟩, hdepth⟩
  obtain ⟨c, hc⟩ := exists_holds hs hrespects (running_of_due? hdue)
  cases c with
  | outermost ops => exact hfp hc.fp
  | frame caller address param ops =>
    -- a frame on the stack is an open call
    rw [hc.depth] at hdepth
    exact absurd hdepth (Nat.succ_ne_zero _)

theorem strayReturns_eq_zero (hs : s.IsFresh) (hrespects : s.FrameRespecting n) :
    s.strayReturns n = 0 := by
  apply Nat.count_of_forall_not
  intro k hk
  exact not_strayReturn hs (hrespects.mono (by omega))

/-- A step that executes an instruction is among the first `(2 * M + 1) * N`. -/
theorem due?_lt_of_frameRespecting {i : Instruction} (hs : s.IsFresh)
    (hrespects : s.FrameRespecting n) (hdue : (s.after n).due? = some i) :
    n < (2 * s.world.limits.maxInstructions.toNat + 1) * s.program.code.size := by
  have hlt := due?_lt hs hdue
  rwa [strayReturns_eq_zero hs hrespects, Nat.add_zero] at hlt

/-- As many steps execute an instruction as there are steps at most. -/
theorem length_executed_le (s : Session) (n : Nat) : (s.executed n).length ≤ n := by
  have hle := List.length_filterMap_le (fun k => (s.after k).due?) (List.range n)
  rwa [List.length_range] at hle

/-- If instructions are executed by the first `bound` steps only, there are at most `bound` of
them. -/
theorem length_executed_le_of_due?_lt {bound : Nat}
    (h : ∀ k i, k < n → (s.after k).due? = some i → k < bound) :
    (s.executed n).length ≤ bound := by
  induction n with
  | zero => exact Nat.zero_le bound
  | succ n ih =>
    rw [executed_succ]
    cases hdue : (s.after n).due? with
    | none =>
      rw [Option.toList_none, List.append_nil]
      exact ih fun k i hk => h k i (by omega)
    | some i =>
      -- the step is an early one, and so are those before it
      have hlt := h n i (Nat.lt_succ_self n) hdue
      have hle := s.length_executed_le n
      simp only [Option.toList_some, List.length_append, List.length_singleton]
      omega

/-- A run that keeps to its frames executes at most `(2 * M + 1) * N` instructions, for the
instruction limit `M` and the length `N` of the program: so many up to any step until which it has
kept to them, and if it keeps to them throughout it stops by itself. -/
theorem executed_bounded (hs : s.IsFresh) :
    (∀ n, s.FrameRespecting n →
      (s.executed n).length ≤
        (2 * s.world.limits.maxInstructions.toNat + 1) * s.program.code.size) ∧
    ((∀ n, s.FrameRespecting n) → ∀ fuel,
      (2 * s.world.limits.maxInstructions.toNat + 1) * s.program.code.size < fuel →
      (run fuel s).running = false) := by
  constructor
  · intro n hrespects
    apply length_executed_le_of_due?_lt
    intro k i hk hdue
    exact due?_lt_of_frameRespecting hs (hrespects.mono (by omega)) hdue
  · intro hrespects fuel hfuel
    obtain ⟨n, rfl⟩ : ∃ n, fuel = n + 1 := ⟨fuel - 1, by omega⟩
    -- the last single step comes too late to find an instruction
    have hdue : (s.after n).due? = none := by
      cases hdue : (s.after n).due? with
      | none => rfl
      | some i =>
        have hlt := due?_lt_of_frameRespecting hs (hrespects n) hdue
        omega
    have hstopped : (s.after (n + 1)).running = false := running_next_of_due?_eq_none hdue
    have hfollows : s.Follows (n + 1) (run (n + 1) s) := by
      have h := (Follows.same (s := s) (k := 0)).run (n + 1)
      rwa [Nat.zero_add] at h
    exact hfollows.stopped hstopped

/-- A run that has stopped keeps to its frames from then on. -/
theorem FrameRespecting.of_stopped (h : s.FrameRespecting n) (hstopped : (s.after n).running = false)
    (m : Nat) : s.FrameRespecting m := by
  intro k _ i hdue
  by_cases hk : k < n
  · exact h k hk i hdue
  · obtain ⟨d, rfl⟩ := Nat.exists_eq_add_of_le (Nat.le_of_not_lt hk)
    rw [after_add_of_fixed (next_of_stopped hstopped)] at hdue
    rw [running_of_due? hdue] at hstopped
    exact absurd hstopped (by simp)

/-- Three nested calls, with budget for one more jump. -/
def threeCalls : Session :=
  .new { World.new 2 2 with limits := { maxInstructions := 7 } } countdown

/-- Three nested calls take eighteen instructions, of the hundred and thirty-five that they may. -/
theorem executed_bounded_threeCalls :
    threeCalls.IsFresh ∧ (∀ n, threeCalls.FrameRespecting n) ∧
      (threeCalls.executed 18).length = 18 ∧ (threeCalls.executed 200).length ≤ 135 ∧
      (run 136 threeCalls).running = false := by
  have hfresh : threeCalls.IsFresh := rfl
  have hearly : threeCalls.FrameRespecting 18 := by
    unfold FrameRespecting Machine.KeepsFrame
    decide +kernel
  have hrespects : ∀ n, threeCalls.FrameRespecting n :=
    hearly.of_stopped (by decide +kernel)
  obtain ⟨hlength, hstops⟩ := executed_bounded hfresh
  exact ⟨hfresh, hrespects, by decide +kernel, hlength 200 (hrespects 200),
    hstops hrespects 136 (by decide)⟩

end GridRobot.Session
