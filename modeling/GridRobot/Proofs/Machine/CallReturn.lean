import GridRobot.Proofs.Machine.CallStack
import Mathlib.Data.Nat.Init

/-!
# Calls and returns are balanced

A call that returns gives the machine back as the caller left it: the return that closes it goes to
the instruction after the call, restores the caller's frame and depth, and removes nothing from the
caller's stack but the parameter (`call_return_balanced`). Calls in between may nest and recurse; all
that is asked of the program is to keep to the operands of the frame it runs in.
-/

set_option autoImplicit false

namespace GridRobot

/-! ## A call among those that are open -/

/-- The call that `caller` made with `param`, to return to `address`, is open, either as the innermost
one or below others. -/
inductive CallStack.Contains (caller : CallStack) (address : Nat) (param : Int32) :
    CallStack → Prop
  | direct (ops : List Int32) : Contains caller address param (.frame caller address param ops)
  | nested {c : CallStack} (h : Contains caller address param c) (address' : Nat) (param' : Int32)
      (ops : List Int32) : Contains caller address param (.frame c address' param' ops)

namespace CallStack.Contains

variable {caller c c' : CallStack} {address : Nat} {param : Int32}

theorem depth_lt (h : Contains caller address param c) : caller.depth < c.depth := by
  induction h with
  | direct ops => exact Nat.lt_succ_self _
  | nested _ _ _ _ ih => exact Nat.lt_succ_of_lt ih

/-- At the depth of the call it is the innermost one. -/
theorem eq_frame (h : Contains caller address param c) (hdepth : c.depth = caller.depth + 1) :
    ∃ ops, c = .frame caller address param ops := by
  cases h with
  | direct ops => exact ⟨ops, rfl⟩
  | nested h _ _ _ =>
    have hlt := h.depth_lt
    simp only [CallStack.depth] at hdepth
    omega

theorem withOperands (h : Contains caller address param c) (ops : List Int32) :
    Contains caller address param (c.withOperands ops) := by
  cases h with
  | direct _ => exact .direct ops
  | nested h address' param' _ => exact .nested h address' param' ops

/-- An open call stays open until a return at its own depth. -/
theorem step {i : Instruction} {pc pc' : Nat} (h : Contains caller address param c)
    (hstep : CallStack.Step i pc c pc' c') (hret : i = .ret → c.depth ≠ caller.depth + 1) :
    Contains caller address param c' := by
  cases hstep with
  | within _ _ ops => exact h.withOperands ops
  | call _ => exact .nested (h.withOperands _) _ _ _
  | ret =>
    cases h with
    | direct _ =>
      -- the return would close the call itself
      exact absurd rfl (hret rfl)
    | nested h _ _ _ => exact h

end CallStack.Contains

/-! ## The call of a run and the return that closes it -/

namespace Session

/-- Step `i` executes a call, and step `j` is the return that closes it: the first later one at the
depth that the call has entered. -/
structure ClosedCall (s : Session) (i j : Nat) : Prop where
  call : ∃ target function, (s.after i).due? = some (.call target function)
  later : i < j
  ret : (s.after j).due? = some .ret
  depth : (s.after j).machine.callDepth = (s.after i).machine.callDepth + 1
  first : ∀ k, i < k → k < j → (s.after k).due? = some .ret →
    (s.after k).machine.callDepth ≠ (s.after i).machine.callDepth + 1

variable {s : Session} {i j : Nat}

/-- Until it is closed, a call stays open above what is left of the caller's operands. -/
theorem ClosedCall.exists_contains (h : s.ClosedCall i j) (hs : s.IsFresh)
    (hrespects : s.FrameRespecting (j + 1)) :
    ∃ c param ops, (s.after i).machine.Holds c ∧ c.operands = param :: ops ∧
      ∀ k, i < k → k ≤ j → ∃ c', (s.after k).machine.Holds c' ∧
        CallStack.Contains (c.withOperands ops) ((s.after i).machine.pc + 1) param c' := by
  rcases h.call with ⟨target, function, hcall⟩
  have hrunning : ∀ k, k ≤ j → (s.after k).running = true := by
    intro k hk
    exact running_after_of_le hk (running_of_due? h.ret)
  have hij := h.later
  -- the calls that are open before the call, and the level that it opens
  obtain ⟨c, hc⟩ := exists_holds hs (fun k hk => hrespects k (by omega)) (hrunning i (by omega))
  obtain ⟨c₁, hc₁, hstep⟩ := hc.step hcall (hrespects i (by omega) _ hcall) (hrunning (i + 1) hij)
  obtain ⟨param, ops, hparam, rfl⟩ := hstep.of_call
  refine ⟨c, param, ops, hc, hparam, ?_⟩
  intro k hik
  -- the induction follows the run from the step after the call
  induction k, hik using Nat.le_induction with
  | base =>
    intro _
    exact ⟨_, hc₁, .direct []⟩
  | succ k hik ih =>
    intro hkj
    rcases ih (by omega) with ⟨c', hc', hcontains⟩
    rcases exists_due? (hrunning (k + 1) hkj) with ⟨i', hdue⟩
    obtain ⟨c'', hc'', hstep⟩ :=
      hc'.step hdue (hrespects k (by omega) _ hdue) (hrunning (k + 1) hkj)
    refine ⟨c'', hc'', hcontains.step hstep ?_⟩
    -- a return in between stands at another depth, since the closing one is the first
    rintro rfl
    have hfirst := h.first k hik (by omega) hdue
    rw [hc'.depth, hc.depth] at hfirst
    rwa [CallStack.depth_withOperands]

/-- A call that returns leaves the machine as its caller had it, without the parameter, and the
parameter is what the function sees: whatever calls are made in between, the return goes to the
instruction after the call, restores frame and depth, and leaves the caller's stack without its top
word, and every instruction that asks for the first parameter at the depth of the call pushes that
word. -/
theorem call_return_balanced (hs : s.IsFresh) (hrespects : s.FrameRespecting (j + 1))
    (h : s.ClosedCall i j) :
    (s.after (j + 1)).running = true ∧
      (s.after (j + 1)).machine.pc = (s.after i).machine.pc + 1 ∧
      (s.after (j + 1)).machine.fp = (s.after i).machine.fp ∧
      (s.after (j + 1)).machine.callDepth = (s.after i).machine.callDepth ∧
      ∃ param, (s.after i).machine.stack.pop = .ok (param, (s.after (j + 1)).machine.stack) ∧
        ∀ k, i < k → k < j → (s.after k).due? = some (.param 0) →
          (s.after k).machine.callDepth = (s.after i).machine.callDepth + 1 →
          (s.after k).machine.stack.push param = .ok (s.after (k + 1)).machine.stack := by
  obtain ⟨c, param, ops, hc, hparam, hopen⟩ := h.exists_contains hs hrespects
  have hij := h.later
  -- at the depth that the call has entered, the call is the innermost one
  have hinnermost : ∀ k, i < k → k ≤ j →
      (s.after k).machine.callDepth = (s.after i).machine.callDepth + 1 →
      ∃ ops', (s.after k).machine.Holds
        (.frame (c.withOperands ops) ((s.after i).machine.pc + 1) param ops') := by
    intro k hik hkj hdepth
    rcases hopen k hik hkj with ⟨c', hc', hcontains⟩
    rw [hc'.depth, hc.depth, ← CallStack.depth_withOperands c ops] at hdepth
    rcases hcontains.eq_frame hdepth with ⟨ops', rfl⟩
    exact ⟨ops', hc'⟩
  -- so the closing return finds its frame and closes it
  obtain ⟨ops', hframe⟩ := hinnermost j hij (Nat.le_refl j) h.depth
  have hrunning : (s.after (j + 1)).running = true := hframe.running_next_of_ret h.ret
  obtain ⟨c', hc', hstep⟩ := hframe.step h.ret (hrespects j (by omega) _ h.ret) hrunning
  have hcapacity : (s.after (j + 1)).machine.stack.capacity =
      (s.after i).machine.stack.capacity := by
    rw [capacity_after hrunning, capacity_after (running_after_of_le (by omega) hrunning)]
  -- before the call, the parameter lay on top of what the return gives back
  have hwords : (s.after i).machine.stack.words = param :: (c.withOperands ops).words := by
    calc (s.after i).machine.stack.words = (c.withOperands ([param] ++ ops)).words := by
          rw [hc.words, List.singleton_append, ← hparam, CallStack.withOperands_operands]
      _ = param :: (c.withOperands ops).words := CallStack.words_withOperands_append c [param] ops
  obtain ⟨hpc, rfl⟩ := hstep.of_ret
  refine ⟨hrunning, hpc, ?_, ?_, param, ?_, ?_⟩
  · rw [hc.fp, ← CallStack.fp?_withOperands c ops]
    exact hc'.fp
  · rw [hc.depth, ← CallStack.depth_withOperands c ops]
    exact hc'.depth
  · rw [Stack.pop_eq_ok_iff, hwords]
    exact ⟨congrArg (param :: ·) hc'.words.symm, hcapacity⟩
  · intro k hik hkj hdue hdepth
    -- the first parameter is the top word of the frame, and the frame is that of the call
    rcases hinnermost k hik (by omega) hdepth with ⟨ops'', hframe'⟩
    have hgoes : (s.after (k + 1)).running = true := running_after_of_le (by omega) hrunning
    obtain ⟨fp, v, hfp, hget, hpush⟩ := push_of_param hdue hgoes
    obtain rfl := Option.some.inj (hfp.symm.trans hframe'.fp)
    obtain rfl := Except.ok.inj (hget.symm.trans hframe'.get_frame.2.2.2)
    exact hpush

/-- A function that calls itself with one less than its parameter, down to zero. -/
def countdown : Program :=
  { code :=
      #[.load 2, .call 3 0, .halt,
        .param 0, .jz 3, .param 0, .dec, .call 3 0, .ret] }

/-- The outermost of three nested calls is closed by the last of three returns. -/
theorem call_return_balanced_countdown :
    (Session.new (World.new 2 2) countdown).IsFresh ∧
      (Session.new (World.new 2 2) countdown).FrameRespecting (16 + 1) ∧
      (Session.new (World.new 2 2) countdown).ClosedCall 1 16 ∧
      ((Session.new (World.new 2 2) countdown).after (16 + 1)).machine.pc =
        ((Session.new (World.new 2 2) countdown).after 1).machine.pc + 1 := by
  have hfresh : (Session.new (World.new 2 2) countdown).IsFresh := rfl
  have hrespects : (Session.new (World.new 2 2) countdown).FrameRespecting (16 + 1) := by
    unfold FrameRespecting Machine.KeepsFrame
    decide +kernel
  have hfirst : ∀ k < 16, 1 < k →
      ((Session.new (World.new 2 2) countdown).after k).due? = some .ret →
      ((Session.new (World.new 2 2) countdown).after k).machine.callDepth ≠ 1 := by
    decide +kernel
  have hclosed : (Session.new (World.new 2 2) countdown).ClosedCall 1 16 :=
    { call := ⟨3, 0, by decide +kernel⟩
      later := by decide
      ret := by decide +kernel
      depth := by decide +kernel
      first := fun k hk hk' => hfirst k hk' hk }
  refine ⟨hfresh, hrespects, hclosed, ?_⟩
  exact (call_return_balanced hfresh hrespects hclosed).2.1

end Session

end GridRobot
