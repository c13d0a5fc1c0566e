import GridRobot.Proofs.Machine.Budget
import GridRobot.Proofs.Machine.Termination

/-!
# The numbers of a machine stay in range

The registers and counters of a machine have no bound of their own, but on a real machine they are
words: addresses, stack positions and counters have 64 bits, the call depth has 32, and a frame holds
positions and addresses in words of 32 bits with a sign. `Machine.InRange` says that every number fits
where it is kept. No check is made where a number grows; each is bounded by a check that was made
elsewhere, before the instruction or when a frame was opened. A step preserves all of it
(`Machine.InRange.next`), whatever the limits of the world are at that moment.
-/

set_option autoImplicit false

namespace GridRobot

/-! ## The stack keeps to its capacity -/

/-- A stack holds no more words than it may. -/
def Stack.Bounded (s : Stack) : Prop :=
  s.size ≤ s.capacity

namespace Stack

variable {s t : Stack} {v : Int32}

theorem bounded_of_push (h : s.push v = .ok t) : t.Bounded := by
  obtain ⟨hlt, hwords, hcapacity⟩ := push_eq_ok_iff.1 h
  rw [Bounded, hcapacity, size_of_words hwords, List.length_cons, ← s.size_eq]
  exact hlt

theorem bounded_of_dup (h : s.dup = .ok t) : t.Bounded := by
  rw [dup] at h
  split at h
  · exact bounded_of_push h
  · exact absurd h (by simp)

theorem Bounded.mapTop {f : Int32 → Int32} (hs : s.Bounded) (h : s.mapTop f = .ok t) :
    t.Bounded := by
  obtain ⟨u, rest, hbefore, hafter, hcapacity⟩ := words_of_mapTop h
  rw [Bounded, size_of_words hbefore] at hs
  rw [Bounded, hcapacity, size_of_words hafter]
  exact hs

theorem Bounded.pop (hs : s.Bounded) (h : s.pop = .ok (v, t)) : t.Bounded := by
  obtain ⟨hwords, hcapacity⟩ := pop_eq_ok_iff.1 h
  rw [Bounded, size_of_words hwords, List.length_cons, ← t.size_eq] at hs
  rw [Bounded, hcapacity]
  omega

theorem Bounded.truncate (hs : s.Bounded) (n : Nat) : (s.truncate n).Bounded :=
  Nat.le_trans (Nat.min_le_right n s.size) hs

end Stack

namespace Scene

variable {s : Scene}

theorem onStack_bounded {result : Except StackError Stack} (h : s.machine.stack.Bounded)
    (hresult : ∀ t, result = .ok t → t.Bounded) : (s.onStack result).1.machine.stack.Bounded := by
  cases result with
  | ok stack => exact hresult stack rfl
  | error e => exact h

theorem push_bounded (h : s.machine.stack.Bounded) (v : Int32) :
    (s.push v).1.machine.stack.Bounded :=
  onStack_bounded h fun _ hpush => Stack.bounded_of_push hpush

theorem mapTop_bounded (h : s.machine.stack.Bounded) (f : Int32 → Int32) :
    (s.mapTop f).1.machine.stack.Bounded :=
  onStack_bounded h fun _ hmap => h.mapTop hmap

/-- Taking the top word keeps the stack bounded, if what is done with it does. -/
theorem popThen_bounded {next : Int32 → Scene → Effect} (h : s.machine.stack.Bounded)
    (hnext : ∀ v stack, stack.Bounded → (next v (s.withStack stack)).1.machine.stack.Bounded) :
    (s.popThen next).1.machine.stack.Bounded := by
  rw [popThen]
  split
  · rename_i v stack hpop
    exact hnext v stack (h.pop hpop)
  · exact h

theorem pushAll_bounded (h : s.machine.stack.Bounded) (words : List Int32) :
    (s.pushAll words).1.machine.stack.Bounded := by
  induction words generalizing s with
  | nil => exact h
  | cons v rest ih =>
    have hpush := push_bounded h v
    rw [pushAll]
    split
    · rename_i u heq
      rw [heq] at hpush
      exact ih hpush
    · exact hpush

theorem pushParam_bounded (h : s.machine.stack.Bounded) (k : UInt32) :
    (s.pushParam k).1.machine.stack.Bounded := by
  rw [pushParam]
  split
  · exact h
  · split
    · exact push_bounded h _
    · exact h

theorem assertNonzero_bounded (h : s.machine.stack.Bounded) (c : Condition) :
    (s.assertNonzero c).1.machine.stack.Bounded := by
  rw [assertNonzero]
  split
  · split
    · exact h
    · exact popThen_bounded h fun _ _ hstack => hstack
  · exact h

theorem act_bounded (h : s.machine.stack.Bounded) (a : Action) :
    (s.act a).1.machine.stack.Bounded := by
  rw [act]
  dsimp only
  split
  · split <;> exact h
  · exact h

theorem jump_bounded (h : s.machine.stack.Bounded) (offset : Int32) :
    (s.jump offset).1.machine.stack.Bounded := by
  rw [jump]
  split <;> exact h

theorem call_bounded (h : s.machine.stack.Bounded) (target : UInt64) (function : Nat) :
    (s.call target function).1.machine.stack.Bounded := by
  apply popThen_bounded h
  intro param stack hstack
  dsimp only
  split
  · exact hstack
  · rename_i words _
    have hpush := pushAll_bounded (s := s.withStack stack) hstack words
    split
    · rename_i u heq
      rw [heq] at hpush
      split <;> exact hpush
    · exact hpush

theorem ret_bounded (h : s.machine.stack.Bounded) : s.ret.1.machine.stack.Bounded := by
  rw [ret]
  split
  · exact h
  · dsimp only
    split
    · split
      · exact h.truncate _
      · exact h
    · exact h

end Scene

theorem Effect.recorded_bounded {e : Effect} (h : e.1.machine.stack.Bounded) :
    (Effect.recorded e).1.machine.stack.Bounded := by
  rw [Effect.recorded_stack]
  exact h

/-- Whether or not it raises a fault, an instruction keeps the stack within its capacity. -/
theorem execute_bounded {s : Scene} (h : s.machine.stack.Bounded) (i : Instruction) :
    (execute i s).1.machine.stack.Bounded := by
  cases i with
  | load v | worldWalls | orientation | worldBuzzers | bagBuzzers =>
    exact Effect.recorded_bounded (Scene.push_bounded h _)
  | dec | inc | rotl | rotr | mask | not =>
    exact Effect.recorded_bounded (Scene.mapTop_bounded h _)
  | dup =>
    exact Effect.recorded_bounded
      (Scene.onStack_bounded h fun _ hdup => Stack.bounded_of_dup hdup)
  | and | or | eq =>
    apply Effect.recorded_bounded
    apply Scene.popThen_bounded h
    intro rhs stack hstack
    apply Scene.popThen_bounded (s := s.withStack stack) hstack
    intro lhs stack' hstack'
    exact Scene.push_bounded (s := s.withStack stack') hstack' _
  | forward | left | pickBuzzer | leaveBuzzer =>
    exact Effect.recorded_bounded (Scene.act_bounded h _)
  | pop => exact Effect.recorded_bounded (Scene.popThen_bounded h fun _ _ hstack => hstack)
  | ez c => exact Effect.recorded_bounded (Scene.assertNonzero_bounded h c)
  | param k => exact Effect.recorded_bounded (Scene.pushParam_bounded h k)
  | jmp offset => exact Effect.recorded_bounded (Scene.jump_bounded h offset)
  | jz offset =>
    apply Effect.recorded_bounded
    apply Scene.popThen_bounded h
    intro v stack hstack
    split
    · exact Scene.jump_bounded (s := s.withStack stack) hstack offset
    · exact hstack
  | call target function => exact Effect.recorded_bounded (Scene.call_bounded h target function)
  | ret => exact Effect.recorded_bounded (Scene.ret_bounded h)
  | halt | line n | unknown name => exact h

/-! ## Conversions -/

theorem toIndex?_eq_some_iff {v : Int32} {n : Nat} : toIndex? v = some n ↔ v.toInt = n := by
  have hle : (0 : Int32) ≤ v ↔ 0 ≤ v.toInt := Int32.le_iff_toInt_le
  rw [toIndex?]
  split
  · rename_i hv
    rw [hle] at hv
    rw [Option.some.injEq]
    omega
  · rename_i hv
    rw [hle] at hv
    simp only [reduceCtorEq, false_iff]
    omega

theorem toIndex?_lt {v : Int32} {n : Nat} (h : toIndex? v = some n) : n < wordBound := by
  have hlt := v.toInt_lt
  rw [toIndex?_eq_some_iff.1 h] at hlt
  rw [wordBound]
  omega

/-- A word stands for a number that is not negative, and no other number has a word. -/
theorem toWord?_eq_some_iff_toInt {n : Nat} {v : Int32} : toWord? n = some v ↔ v.toInt = n := by
  rw [toWord?_eq_some_iff, wordBound]
  constructor
  · rintro ⟨hn, rfl⟩
    exact Int32.toInt_ofNat_of_lt hn
  · intro hv
    have hlt := v.toInt_lt
    have hn : n < 2 ^ 31 := by omega
    refine ⟨hn, Int32.toInt_inj.1 ?_⟩
    rw [hv, Int32.toInt_ofNat_of_lt hn]

/-- The sum of an address and an offset is far from the bounds of a 64-bit word. -/
theorem toInt_jump {pc : Nat} (hpc : pc < 2 ^ 62) (offset : Int32) :
    (Int64.ofNat pc + offset.toInt64).toInt = pc + offset.toInt := by
  have hlt := offset.toInt_lt
  have hle := offset.le_toInt
  rw [Int64.toInt_add, Int64.toInt_ofNat_of_lt (by omega), Int32.toInt_toInt64]
  apply Int.bmod_eq_of_le <;> omega

/-- A jump goes where its offset says, unless that is before the first instruction. -/
theorem jumpTarget?_eq_some_iff {pc n : Nat} (hpc : pc < 2 ^ 62) {offset : Int32} :
    Scene.jumpTarget? pc offset = some n ↔ (n : Int) = pc + offset.toInt := by
  have hsum := toInt_jump hpc offset
  have hle : 0 ≤ Int64.ofNat pc + offset.toInt64 ↔ (0 : Int) ≤ pc + offset.toInt := by
    rw [Int64.le_iff_toInt_le, hsum]
    rfl
  rw [Scene.jumpTarget?, hsum]
  split
  · rename_i htarget
    rw [hle] at htarget
    rw [Option.some.injEq]
    omega
  · rename_i htarget
    rw [hle] at htarget
    simp only [reduceCtorEq, false_iff]
    omega

theorem jumpTarget?_lt {pc n : Nat} {offset : Int32} (h : Scene.jumpTarget? pc offset = some n) :
    n < 2 ^ 63 := by
  have hlt := (Int64.ofNat pc + offset.toInt64).toInt_lt
  rw [Scene.jumpTarget?] at h
  split at h
  · obtain rfl := Option.some.inj h
    omega
  · exact absurd h (by simp)

/-! ## One step -/

/-- Every number of a machine fits where it is kept. -/
structure Machine.InRange (m : Machine) : Prop where
  stack : m.stack.Bounded
  fp : ∀ fp ∈ m.fp, fp < wordBound
  counters : ∀ a, m.counters.get a ≤ m.instructionCount
  pc : m.pc < 2 ^ 64
  count : m.instructionCount < 2 ^ 64
  depth : m.callDepth < 2 ^ 32
  /-- The faults that a machine records end its run. -/
  fault : m.running = true → m.fault = none

namespace Machine.InRange

variable {m : Machine}

theorem fresh (limits : Limits) : (Machine.fresh limits).InRange where
  stack := Nat.zero_le _
  fp := by simp [Machine.fresh]
  counters := by
    intro a
    rw [Machine.fresh, PerAction.get_const]
  pc := by simp [Machine.fresh]
  count := by simp [Machine.fresh]
  depth := by simp [Machine.fresh]
  fault := fun _ => rfl

/-- Stopping a machine changes none of its numbers. -/
theorem stop (h : m.InRange) (fault : Option Fault) :
    Machine.InRange { m with fault, running := false } :=
  { h with fault := by simp }

end Machine.InRange

section Step

variable {i : Instruction} {s t : Scene} {f : Fault}

theorem Performed.pc_lt (h : Performed i s t) (hs : s.machine.pc < 2 ^ 64) :
    t.machine.pc < 2 ^ 64 := by
  cases h with
  | jumped hpc => exact Nat.lt_trans (jumpTarget?_lt hpc) (by decide)
  | branched _ _ hpc =>
    split at hpc
    · exact Nat.lt_trans (jumpTarget?_lt hpc) (by decide)
    · rw [hpc]
      exact hs
  | called => exact UInt64.toNat_lt _
  | returned _ _ _ _ _ hpc => exact Nat.lt_trans (toIndex?_lt hpc) (by decide)
  | _ => exact hs

theorem Performed.fp_lt (h : Performed i s t) (hs : ∀ fp ∈ s.machine.fp, fp < wordBound) :
    ∀ fp ∈ t.machine.fp, fp < wordBound := by
  cases h with
  | called _ _ hheight =>
    intro fp hfp
    obtain rfl := Option.some.inj hfp
    exact hheight
  | returned =>
    intro fp hfp
    exact toIndex?_lt hfp
  | _ => exact hs

theorem Failed.pc_lt (h : Failed i s f t) (hs : s.machine.pc < 2 ^ 64) :
    t.machine.pc < 2 ^ 64 := by
  cases h with
  | tooDeep => exact UInt64.toNat_lt _
  | _ => exact hs

theorem Failed.fp_lt (h : Failed i s f t) (hs : ∀ fp ∈ s.machine.fp, fp < wordBound) :
    ∀ fp ∈ t.machine.fp, fp < wordBound := by
  cases h with
  | tooDeep _ hheight =>
    intro fp hfp
    obtain rfl := Option.some.inj hfp
    exact hheight
  | _ => exact hs

end Step

namespace Session

variable {s : Session} {i : Instruction}

/-- The next address is not far behind the end of the program. -/
theorem scene_pc_le (hdue : s.due? = some i) : (s.scene i).machine.pc ≤ s.program.code.size :=
  pc_lt_of_due? hdue

/-- An instruction is counted only while the count is below a limit that fits. -/
theorem scene_count_lt (hdue : s.due? = some i) :
    (s.scene i).machine.instructionCount < 2 ^ 64 := by
  have hlt := count_lt_of_due? hdue
  have hlimit := s.world.limits.maxInstructions.toNat_lt
  show (if i.consumesBudget then _ else _) < _
  split <;> omega

/-- An action is counted as an instruction before it is counted as an action. -/
theorem counted_le (h : s.machine.InRange) (i : Instruction) (a : Action) :
    ((s.scene i).machine.counted i).get a ≤ (s.scene i).machine.instructionCount := by
  have hle := h.counters a
  have hscene : (s.scene i).machine.counters.get a = s.machine.counters.get a := rfl
  have hcount : (s.scene i).machine.instructionCount =
      if i.consumesBudget then s.machine.instructionCount + 1 else s.machine.instructionCount :=
    rfl
  rw [Machine.get_counted, hscene, hcount]
  split
  · rename_i ha
    rw [if_pos (Instruction.consumesBudget_of_action? ha)]
    omega
  · split <;> omega

/-- What an instruction leaves is in range. -/
theorem inRange_of_due? {t : Scene} (h : s.machine.InRange) (hdue : s.due? = some i)
    (hshort : s.program.code.size < 2 ^ 62) (hstack : t.machine.stack.Bounded)
    (hfp : ∀ fp ∈ t.machine.fp, fp < wordBound)
    (hpc : (s.scene i).machine.pc < 2 ^ 64 → t.machine.pc < 2 ^ 64)
    (hcounters : t.machine.counters = (s.scene i).machine.counted i)
    (hcount : t.machine.instructionCount = (s.scene i).machine.instructionCount)
    (hdepth : t.machine.callDepth ≤ (s.scene i).machine.callDepth + 1)
    (hfault : t.machine.running = true → t.machine.fault = none) : t.machine.InRange where
  stack := hstack
  fp := hfp
  counters := by
    intro a
    rw [hcounters, hcount]
    exact counted_le h i a
  pc := hpc (Nat.lt_of_le_of_lt (scene_pc_le hdue) (by omega))
  count := by
    rw [hcount]
    exact scene_count_lt hdue
  depth := by
    have hlt := callDepth_lt_of_due? hdue
    have hlimit := s.world.limits.maxCallDepth.toNat_lt
    have hscene : (s.scene i).machine.callDepth = s.machine.callDepth := rfl
    omega
  fault := hfault

end Session

/-- A step of a short program keeps every number in range. -/
theorem Machine.InRange.next {s : Session} (h : s.machine.InRange)
    (hshort : s.program.code.size < 2 ^ 62) : s.next.machine.InRange := by
  cases hdue : s.due? with
  | none =>
    rcases Session.next_of_due?_eq_none hdue with hnext | hnext | ⟨f, -, -, hnext⟩
    · rw [hnext]
      exact h
    · rw [hnext]
      exact h.stop _
    · rw [hnext]
      exact h.stop _
  | some i =>
    have hstack := execute_bounded (s := s.scene i) h.stack i
    rw [Session.next_machine_of_due? hdue]
    cases hexecute : execute i (s.scene i) with
    | mk t fault =>
      rw [hexecute] at hstack
      cases fault with
      | none =>
        have hperformed := performed_of_execute hexecute
        refine Session.inRange_of_due? h hdue hshort hstack (hperformed.fp_lt h.fp)
          hperformed.pc_lt hperformed.counters hperformed.instructionCount
          hperformed.callDepth_le ?_
        intro _
        exact hperformed.fault.trans (h.fault (Session.running_of_due? hdue))
      | some f =>
        obtain ⟨u, hfailed, rfl⟩ := failed_of_execute hexecute
        refine Session.inRange_of_due? (t := { u with machine := u.machine.raise f }) h hdue hshort
          hstack (hfailed.fp_lt h.fp) hfailed.pc_lt hfailed.counters hfailed.instructionCount
          hfailed.callDepth_le ?_
        intro hrunning
        exact absurd hrunning (by simp [Machine.raise])

end GridRobot
