import GridRobot.Proofs.Machine.Step
import Mathlib.Data.Nat.Count

/-!
# When a run ends

Jumps, calls and actions consume the instruction budget; returns are free and go where the words of
the frame lead. A return that closes an open call is paid for by that call. A return through a frame
while no call is open is stray, and nothing pays for it: a program that has rewritten its frame can
return to itself for ever (`selfReturn_never_ends`).

Stray returns are the only way to escape the budget. A run of a program with `N` instructions under
the limit `M` executes at most `(2 * M + 1 + k) * N` instructions, where `k` is the number of its stray
returns (`due?_lt`), so it ends if and only if it makes finitely many of them
(`ends_iff_finitely_many_strayReturns`).
-/

set_option autoImplicit false

namespace GridRobot.Session

variable {s : Session} {i : Instruction}

/-- The next step returns through a frame. -/
def FramedReturn (s : Session) : Prop :=
  s.due? = some .ret ∧ s.machine.fp ≠ none

/-- The next step returns through a frame although no call is open. -/
def StrayReturn (s : Session) : Prop :=
  s.FramedReturn ∧ s.machine.callDepth = 0

instance : DecidablePred FramedReturn := fun s =>
  inferInstanceAs (Decidable (s.due? = some .ret ∧ s.machine.fp ≠ none))

instance : DecidablePred StrayReturn := fun s =>
  inferInstanceAs (Decidable (s.FramedReturn ∧ s.machine.callDepth = 0))

/-- The number of returns through a frame among the first `n` steps. -/
def framedReturns (s : Session) (n : Nat) : Nat :=
  Nat.count (fun k => (s.after k).FramedReturn) n

/-- The number of stray returns among the first `n` steps. -/
def strayReturns (s : Session) (n : Nat) : Nat :=
  Nat.count (fun k => (s.after k).StrayReturn) n

/-! ## One step -/

theorem pc_lt_of_due? (h : s.due? = some i) : s.machine.pc < s.program.code.size := by
  obtain ⟨-, -, hfetch⟩ := due?_eq_some_iff.1 h
  exact (Array.getElem?_eq_some_iff.1 hfetch).1

theorem count_lt_of_due? (h : s.due? = some i) :
    s.machine.instructionCount < s.world.limits.maxInstructions.toNat := by
  obtain ⟨-, hrefusal, -⟩ := due?_eq_some_iff.1 h
  rw [refusal?] at hrefusal
  split at hrefusal
  · exact absurd hrefusal (by simp)
  · omega

theorem count_next (hdue : s.due? = some i) (hnext : s.next.running = true) :
    s.next.machine.instructionCount =
      s.machine.instructionCount + if i.consumesBudget then 1 else 0 := by
  obtain ⟨t, ht, hmachine, -⟩ := exists_performed hdue hnext
  rw [hmachine, ht.instructionCount]
  show (if i.consumesBudget then _ else _) = _
  split <;> rfl

/-- A step goes on to the next instruction, or it is charged to the budget or to a return. -/
theorem charge_next (hdue : s.due? = some i) (hnext : s.next.running = true) :
    s.next.machine.pc = s.machine.pc + 1 ∨
      s.machine.instructionCount + 1 ≤ s.next.machine.instructionCount ∨ s.FramedReturn := by
  obtain ⟨t, ht, hmachine, -⟩ := exists_performed hdue hnext
  rcases ht.pc with hpc | hbudget | ⟨rfl, hfp⟩
  · exact .inl (hmachine ▸ hpc)
  · exact .inr (.inl (by rw [count_next hdue hnext, if_pos hbudget]))
  · exact .inr (.inr ⟨hdue, hfp⟩)

/-- A return closes a level that a call has opened, unless it is stray. -/
theorem depth_next (hdue : s.due? = some i) (hnext : s.next.running = true) :
    (if s.FramedReturn then 1 else 0) + s.next.machine.callDepth + s.machine.instructionCount ≤
      (if s.StrayReturn then 1 else 0) + s.machine.callDepth +
        s.next.machine.instructionCount := by
  obtain ⟨t, ht, hmachine, -⟩ := exists_performed hdue hnext
  have hframed : s.FramedReturn ↔ i = .ret ∧ s.machine.fp ≠ none := by
    simp [FramedReturn, hdue]
  have hscene : (s.scene i).machine.callDepth = s.machine.callDepth := rfl
  rw [count_next hdue hnext, hmachine]
  rcases ht.callDepth with ⟨⟨target, function, rfl⟩, hdepth⟩ | ⟨hret, hdepth⟩ | ⟨hret, hdepth⟩
  · -- a call opens a level and consumes budget
    have hnot : ¬ s.FramedReturn := by simp [hframed]
    have hbudget : (Instruction.call target function).consumesBudget = true := rfl
    rw [if_neg hnot, if_pos hbudget, hdepth, hscene]
    omega
  · -- a return closes a level if there is one, and is stray otherwise
    have hreturn : s.FramedReturn := hframed.2 hret
    rw [if_pos hreturn, hdepth, hscene]
    by_cases hzero : s.machine.callDepth = 0
    · have hstray : s.StrayReturn := ⟨hreturn, hzero⟩
      rw [if_pos hstray]
      omega
    · omega
  · -- no other instruction changes the depth
    have hnot : ¬ s.FramedReturn := by
      intro h
      exact hret (hframed.1 h)
    rw [if_neg hnot, hdepth, hscene]
    omega

/-! ## Whole runs -/

/-- Every return is charged to a call or is stray. -/
theorem framedReturns_add_depth_le (hs : s.IsFresh) {n : Nat}
    (hrunning : (s.after n).running = true) :
    s.framedReturns n + (s.after n).machine.callDepth ≤
      s.strayReturns n + (s.after n).machine.instructionCount := by
  induction n with
  | zero =>
    have hdepth : s.machine.callDepth = 0 := by rw [hs]; rfl
    simp [after, framedReturns, hdepth]
  | succ n ih =>
    rcases exists_due? hrunning with ⟨i, hdue⟩
    have hprev := ih (running_of_due? hdue)
    -- both counts grow with the step as `depth_next` says
    have hstep := depth_next hdue hrunning
    simp only [framedReturns, strayReturns, Nat.count_succ] at hprev ⊢
    simp only [after]
    omega

/-- The steps of a run are charged to the budget and to its returns, one length of the program for
each, and to the place that the run has reached. -/
theorem steps_le {n : Nat} (hrunning : (s.after n).running = true) :
    n ≤ ((s.after n).machine.instructionCount + s.framedReturns n) * s.program.code.size +
      (s.after n).machine.pc := by
  induction n with
  | zero => exact Nat.zero_le _
  | succ n ih =>
    rcases exists_due? hrunning with ⟨i, hdue⟩
    have hprev := ih (running_of_due? hdue)
    have hpc := pc_lt_of_due? hdue
    rw [program_after] at hpc
    have hcount : (s.after n).machine.instructionCount ≤
        (s.after (n + 1)).machine.instructionCount := by
      rw [show s.after (n + 1) = (s.after n).next from rfl, count_next hdue hrunning]
      omega
    have hreturns : s.framedReturns (n + 1) =
        s.framedReturns n + if (s.after n).FramedReturn then 1 else 0 := Nat.count_succ _ n
    rcases charge_next hdue hrunning with hseq | hcharge
    · -- in sequence: the place moves on by one
      have hle := Nat.mul_le_mul_right s.program.code.size
        (show (s.after n).machine.instructionCount + s.framedReturns n ≤
          (s.after (n + 1)).machine.instructionCount + s.framedReturns (n + 1) by omega)
      have hseq' : (s.after (n + 1)).machine.pc = (s.after n).machine.pc + 1 := hseq
      omega
    · -- charged: one more program length makes up for any place to go back to
      have hcharge' : (s.after n).machine.instructionCount + s.framedReturns n + 1 ≤
          (s.after (n + 1)).machine.instructionCount + s.framedReturns (n + 1) := by
        rcases hcharge with hbudget | hreturn
        · have hbudget' : (s.after n).machine.instructionCount + 1 ≤
              (s.after (n + 1)).machine.instructionCount := hbudget
          omega
        · rw [if_pos hreturn] at hreturns
          omega
      have hle := Nat.mul_le_mul_right s.program.code.size hcharge'
      rw [Nat.succ_mul] at hle
      omega

/-- A step that executes an instruction is among the first `(2 * M + 1 + k) * N`, where `M` is the
instruction limit, `N` the length of the program, and `k` the number of stray returns so far. -/
theorem due?_lt (hs : s.IsFresh) {n : Nat} (hdue : (s.after n).due? = some i) :
    n < (2 * s.world.limits.maxInstructions.toNat + 1 + s.strayReturns n) *
      s.program.code.size := by
  have hrunning := running_of_due? hdue
  have hsteps := steps_le hrunning
  have hreturns := framedReturns_add_depth_le hs hrunning
  have hpc := pc_lt_of_due? hdue
  have hcount := count_lt_of_due? hdue
  rw [program_after] at hpc
  rw [limits_after hrunning] at hcount
  have hle := Nat.mul_le_mul_right s.program.code.size
    (show (s.after n).machine.instructionCount + s.framedReturns n + 1 ≤
      2 * s.world.limits.maxInstructions.toNat + 1 + s.strayReturns n by omega)
  rw [Nat.succ_mul] at hle
  omega

/-- A run that ends makes no stray return after its end. -/
theorem strayReturns_le_of_stopped {n : Nat} (h : (s.after n).running = false) (m : Nat) :
    s.strayReturns m ≤ s.strayReturns n := by
  rcases Nat.le_total m n with hmn | hnm
  · exact Nat.count_monotone _ hmn
  · induction hnm with
    | refl => exact Nat.le_refl _
    | @step m hnm ih =>
      -- after the end nothing is executed, so the count stays
      have hstopped : (s.after m).running = false := by
        obtain ⟨k, rfl⟩ := Nat.exists_eq_add_of_le hnm
        rw [after_add_of_fixed (next_of_stopped h)]
        exact h
      have hnot : ¬ (s.after m).StrayReturn := by
        rintro ⟨⟨hdue, -⟩, -⟩
        rw [running_of_due? hdue] at hstopped
        exact absurd hstopped (by simp)
      have hcount : s.strayReturns (m + 1) = s.strayReturns m := by
        simp [strayReturns, Nat.count_succ, hnot]
      rw [hcount]
      exact ih

/-- A run ends exactly if it makes finitely many stray returns; with at most `k` of them it ends
within `(2 * M + 1 + k) * N + 1` steps, for the instruction limit `M` and the length `N` of the
program. -/
theorem ends_iff_finitely_many_strayReturns (hs : s.IsFresh) :
    ((∃ n, (s.after n).running = false) ↔ ∃ k, ∀ n, s.strayReturns n ≤ k) ∧
      ∀ k, (∀ n, s.strayReturns n ≤ k) →
        (s.after ((2 * s.world.limits.maxInstructions.toNat + 1 + k) * s.program.code.size +
          1)).running = false := by
  have hbound : ∀ k, (∀ n, s.strayReturns n ≤ k) →
      (s.after ((2 * s.world.limits.maxInstructions.toNat + 1 + k) * s.program.code.size +
        1)).running = false := by
    intro k hk
    -- the last step finds no instruction to execute, or it would come too late
    apply running_next_of_due?_eq_none
    cases hdue : (s.after ((2 * s.world.limits.maxInstructions.toNat + 1 + k) *
        s.program.code.size)).due? with
    | none => rfl
    | some i =>
      have hlt := due?_lt hs hdue
      have hle := Nat.mul_le_mul_right s.program.code.size
        (Nat.add_le_add_left (hk ((2 * s.world.limits.maxInstructions.toNat + 1 + k) *
          s.program.code.size)) (2 * s.world.limits.maxInstructions.toNat + 1))
      omega
  refine ⟨⟨?_, ?_⟩, hbound⟩
  · rintro ⟨n, hn⟩
    exact ⟨_, strayReturns_le_of_stopped hn⟩
  · rintro ⟨k, hk⟩
    exact ⟨_, hbound k hk⟩

/-- A function that replaces its frame by one that leads to the instructions after its return. There the
address in the frame is replaced once more, and a second return goes through the frame to the end of the
program. -/
def secondReturn : Session :=
  .new { World.new 2 2 with limits := { maxInstructions := 3 } }
    { code :=
        #[.load 0, .call 2 0,
          .pop, .pop, .pop, .pop, .load 0, .load 3, .load 10, .ret,
          .pop, .load 13, .ret, .halt] }

/-- The second return is stray. With one stray return, a limit of three and fourteen instructions the run
has ended after 113 steps. -/
theorem ends_iff_finitely_many_strayReturns_secondReturn :
    secondReturn.IsFresh ∧ (secondReturn.after 12).StrayReturn ∧
      secondReturn.strayReturns 14 = 1 ∧ (∀ n, secondReturn.strayReturns n ≤ 1) ∧
      (secondReturn.after ((2 * 3 + 1 + 1) * 14 + 1)).running = false := by
  have hfresh : secondReturn.IsFresh := rfl
  have hstray : (secondReturn.after 12).StrayReturn := by decide +kernel
  have hcount : secondReturn.strayReturns 14 = 1 := by decide +kernel
  have hends : (secondReturn.after 14).running = false := by decide +kernel
  have hone : ∀ n, secondReturn.strayReturns n ≤ 1 := by
    intro n
    rw [← hcount]
    exact strayReturns_le_of_stopped hends n
  exact ⟨hfresh, hstray, hcount, hone, (ends_iff_finitely_many_strayReturns hfresh).2 1 hone⟩

/-- A function that replaces its frame by one that leads back to its own return. -/
def selfReturn : Program :=
  { code :=
      #[.load 0, .call 2 0,
        .pop, .pop, .pop, .pop, .load 0, .load 3, .load 9, .ret] }

/-- A program may return to itself for ever. -/
theorem selfReturn_never_ends :
    ¬ ∃ n, ((Session.new (World.new 2 2) selfReturn).after n).running = false := by
  rintro ⟨n, hn⟩
  -- from the tenth step on, the session returns to itself
  have hfixed : ((Session.new (World.new 2 2) selfReturn).after 10).next =
      (Session.new (World.new 2 2) selfReturn).after 10 := by decide +kernel
  have hrunning : ((Session.new (World.new 2 2) selfReturn).after 10).running = true := by
    decide +kernel
  rw [← after_add_of_fixed hfixed n] at hrunning
  rw [running_after_of_le (Nat.le_add_left n 10) hrunning] at hn
  exact absurd hn (by simp)

end GridRobot.Session
