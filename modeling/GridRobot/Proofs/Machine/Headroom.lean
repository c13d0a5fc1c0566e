import GridRobot.Proofs.Machine.Budget
import GridRobot.Proofs.Machine.CallStack

/-!
# The depth limit is reached before the stack is full

The capacity of a stack is chosen so that every level of calls that the depth limit admits has room for
its frame and for `frameOperands` operands, and the outermost level for `stackHeadroom` more. A run
that keeps to its frames and to so many operands at each level never fills the stack, since the
words of all its levels together stay below the capacity (`CallStack.Roomy.size_le`): every push
succeeds, and the fault of the stack means that the depth limit was reached
(`depth_limit_before_full_stack`).
-/

set_option autoImplicit false

namespace GridRobot

/-- The number of words that an instruction leaves in place of its operands. -/
def Instruction.results : Instruction → Nat
  | .load _ | .dup | .param _ | .worldWalls | .orientation | .worldBuzzers | .bagBuzzers => 1
  | .dec | .inc | .rotl | .rotr | .mask | .not | .and | .or | .eq => 1
  | .call _ _ => frameWords
  | _ => 0

/-- Whether an instruction adds an operand to its level. -/
def Instruction.addsOperand : Instruction → Bool
  | .load _ | .dup | .param _ | .worldWalls | .orientation | .worldBuzzers | .bagBuzzers => true
  | _ => false

theorem Instruction.results_le_frameWords (i : Instruction) : i.results ≤ frameWords := by
  cases i with
  | call target function => exact Nat.le_refl frameWords
  | load _ | dup | param _ | worldWalls | orientation | worldBuzzers | bagBuzzers | dec | inc | rotl
  | rotr | mask | not | and | or | eq => exact Nat.le_add_left 1 3
  | _ => exact Nat.zero_le frameWords

/-- An instruction that adds no operand leaves no more of them than it takes. -/
theorem Instruction.results_le_operands {i : Instruction} (stack : Stack)
    (hadds : i.addsOperand = false) (hcall : ∀ target function, i ≠ .call target function) :
    i.results ≤ i.operands stack := by
  cases i with
  | call target function => exact absurd rfl (hcall target function)
  | load _ | dup | param _ | worldWalls | orientation | worldBuzzers | bagBuzzers => cases hadds
  | dec | inc | rotl | rotr | mask | not => exact Nat.le_refl 1
  | and | or | eq => exact Nat.le_succ 1
  | _ => exact Nat.zero_le _

/-- An instruction that adds an operand takes none. -/
theorem Instruction.results_of_addsOperand {i : Instruction} (stack : Stack)
    (hadds : i.addsOperand = true) : i.results = i.operands stack + 1 := by
  cases i with
  | load _ | dup | param _ | worldWalls | orientation | worldBuzzers | bagBuzzers => rfl
  | _ => cases hadds

/-! ## The size of the stack after an instruction -/

section Size

variable {i : Instruction} {s t : Scene}

theorem size_of_push {v : Int32} (h : s.push v = (t, none)) :
    t.machine.stack.size = s.machine.stack.size + 1 := by
  obtain ⟨stack, rfl, hwords, -⟩ := Scene.words_of_push h
  rw [s.machine.stack.size_eq]
  exact Stack.size_of_words hwords

theorem size_of_mapTop {f : Int32 → Int32} (h : s.mapTop f = (t, none)) :
    t.machine.stack.size = s.machine.stack.size := by
  obtain ⟨stack, hmap, rfl⟩ := Scene.onStack_eq_none_iff.1 h
  obtain ⟨v, rest, hbefore, hafter, -⟩ := Stack.words_of_mapTop hmap
  have hsize : stack.size = (f v :: rest).length := Stack.size_of_words hafter
  rw [Stack.size_of_words hbefore]
  exact hsize

theorem size_of_popThen {next : Int32 → Scene → Effect} (h : s.popThen next = (t, none)) :
    ∃ v u, next v u = (t, none) ∧ u.machine.stack.size + 1 = s.machine.stack.size := by
  obtain ⟨v, stack, hwords, -, hnext⟩ := Scene.popThen_eq_none_iff.1 h
  refine ⟨v, _, hnext, ?_⟩
  rw [Stack.size_of_words hwords]
  exact congrArg (· + 1) stack.size_eq

theorem size_of_binary {f : Int32 → Int32 → Int32} (h : s.binary f = (t, none)) :
    t.machine.stack.size + 1 = s.machine.stack.size := by
  obtain ⟨rhs, u, hu, hsize⟩ := size_of_popThen h
  obtain ⟨lhs, u', hu', hsize'⟩ := size_of_popThen hu
  have hpush := size_of_push hu'
  omega

/-- A stack loses the operands of an instruction and gains its results. Calls and returns are left
out: what they do to the stack is said by `CallStack.Step`. -/
theorem size_of_execute (hcall : ∀ target function, i ≠ .call target function) (hret : i ≠ .ret)
    (h : execute i s = (t, none)) :
    t.machine.stack.size + i.operands s.machine.stack = s.machine.stack.size + i.results := by
  cases i with
  | load v | worldWalls | orientation | worldBuzzers | bagBuzzers =>
    exact size_of_push (Effect.recorded_eq_none_iff.1 h)
  | dec | inc | rotl | rotr | mask | not =>
    exact congrArg (· + 1) (size_of_mapTop (Effect.recorded_eq_none_iff.1 h))
  | and | or | eq => exact congrArg (· + 1) (size_of_binary (Effect.recorded_eq_none_iff.1 h))
  | dup =>
    obtain ⟨stack, hdup, rfl⟩ := Scene.onStack_eq_none_iff.1 (Effect.recorded_eq_none_iff.1 h)
    obtain ⟨v, hwords, -⟩ := Stack.words_of_dup hdup
    rw [s.machine.stack.size_eq]
    exact Stack.size_of_words hwords
  | pop =>
    obtain ⟨v, u, hu, hsize⟩ := size_of_popThen (Effect.recorded_eq_none_iff.1 h)
    obtain rfl : u = t := congrArg Prod.fst hu
    exact hsize
  | param k =>
    have hparam : s.pushParam k = (t, none) := Effect.recorded_eq_none_iff.1 h
    rw [Scene.pushParam] at hparam
    split at hparam
    · simp [Scene.failed] at hparam
    · split at hparam
      · exact size_of_push hparam
      · simp [Scene.failed] at hparam
  | ez c =>
    have hassert : s.assertNonzero c = (t, none) := Effect.recorded_eq_none_iff.1 h
    rw [Scene.assertNonzero] at hassert
    split at hassert
    · rename_i v hpeek
      split at hassert
      · simp [Scene.failed] at hassert
      · rename_i hv
        obtain ⟨_, u, hu, hsize⟩ := size_of_popThen hassert
        obtain rfl : u = t := congrArg Prod.fst hu
        -- the assertion held, so its operand was taken
        have hnonzero : s.machine.stack.words.head? ≠ some 0 := by
          rw [Stack.peek_eq_ok_iff.1 hpeek]
          exact fun hzero => hv (Option.some.inj hzero)
        have hoperands : (Instruction.ez c).operands s.machine.stack = 1 := if_neg hnonzero
        rw [hoperands]
        exact hsize
    · simp [Scene.failed] at hassert
  | jz offset =>
    cases performed_of_execute h with
    | computed _ hbudget => simp [Instruction.consumesBudget] at hbudget
    | acted ha => simp [Instruction.action?] at ha
    | ended hi => simp at hi
    | @branched _ _ _ stack _ hwords =>
      rw [Stack.size_of_words hwords]
      exact congrArg (· + 1) stack.size_eq
  | forward | left | pickBuzzer | leaveBuzzer =>
    cases performed_of_execute h with
    | computed _ hbudget => simp [Instruction.consumesBudget] at hbudget
    | ended hi => simp at hi
    | acted => rfl
  | jmp offset =>
    obtain ⟨pc, -, rfl⟩ := jump_eq_none_iff.1 (Effect.recorded_eq_none_iff.1 h)
    rfl
  | call target function => exact absurd rfl (hcall target function)
  | ret => exact absurd rfl hret
  | halt =>
    obtain rfl : { s with machine := s.machine.halt } = t := congrArg Prod.fst h
    rfl
  | line n =>
    obtain rfl : { s with machine := { s.machine with line := n } } = t := congrArg Prod.fst h
    rfl
  | unknown name =>
    have hfault : some Fault.invalidOpcode = none := congrArg Prod.snd h
    exact absurd hfault (by simp)

end Size

/-! ## What raises the fault of the stack -/

namespace Stack

variable {s : Stack} {e : StackError}

theorem capacity_le_of_push {v : Int32} (h : s.push v = .error e) : s.capacity ≤ s.size := by
  rw [push] at h
  split at h
  · exact absurd h (by simp)
  · omega

theorem eq_underflow_of_pop (h : s.pop = .error e) : e = .underflow := by
  rw [pop] at h
  split at h
  · exact (Except.error.inj h).symm
  · exact absurd h (by simp)

theorem eq_underflow_of_mapTop {f : Int32 → Int32} (h : s.mapTop f = .error e) :
    e = .underflow := by
  rw [mapTop] at h
  split at h
  · exact (Except.error.inj h).symm
  · exact absurd h (by simp)

theorem eq_underflow_of_peek (h : s.peek = .error e) : e = .underflow := by
  rw [peek] at h
  split at h
  · exact (Except.error.inj h).symm
  · exact absurd h (by simp)

theorem eq_underflow_of_get {n : Nat} (h : s.get n = .error e) : e = .underflow := by
  rw [get] at h
  split at h
  · exact absurd h (by simp)
  · exact (Except.error.inj h).symm

end Stack

namespace Scene

variable {s t : Scene}

theorem push_ne_stack (v : Int32) (hroom : s.machine.stack.size < s.machine.stack.capacity) :
    (s.push v).2 ≠ some .stack := by
  rw [push]
  cases hpush : s.machine.stack.push v with
  | ok stack => simp [onStack, done]
  | error e =>
    have hle := Stack.capacity_le_of_push hpush
    omega

theorem mapTop_ne_stack (f : Int32 → Int32) : (s.mapTop f).2 ≠ some .stack := by
  rw [mapTop]
  cases hmap : s.machine.stack.mapTop f with
  | ok stack => simp [onStack, done]
  | error e =>
    obtain rfl := Stack.eq_underflow_of_mapTop hmap
    simp [onStack, failed, StackError.fault]

/-- Taking the top word makes room for another one; where there is none, the fault is not that of a
full stack. -/
theorem popThen_ne_stack {next : Int32 → Scene → Effect}
    (hnext : ∀ v stack, stack.size + 1 = s.machine.stack.size →
      stack.capacity = s.machine.stack.capacity → (next v (s.withStack stack)).2 ≠ some .stack) :
    (s.popThen next).2 ≠ some .stack := by
  rw [popThen]
  split
  · rename_i v stack hpop
    obtain ⟨hwords, hcapacity⟩ := Stack.pop_eq_ok_iff.1 hpop
    apply hnext v stack _ hcapacity
    rw [Stack.size_of_words hwords, stack.size_eq]
    rfl
  · rename_i e hpop
    obtain rfl := Stack.eq_underflow_of_pop hpop
    simp [failed, StackError.fault]

theorem binary_ne_stack (f : Int32 → Int32 → Int32)
    (hroom : s.machine.stack.size < s.machine.stack.capacity + 2) :
    (s.binary f).2 ≠ some .stack := by
  apply popThen_ne_stack
  intro rhs stack hsize hcapacity
  apply popThen_ne_stack
  intro lhs stack' hsize' hcapacity'
  have hsize'' : stack'.size + 1 = stack.size := hsize'
  have hcapacity'' : stack'.capacity = stack.capacity := hcapacity'
  apply push_ne_stack
  show stack'.size < stack'.capacity
  omega

theorem pushParam_ne_stack (k : UInt32)
    (hroom : s.machine.stack.size < s.machine.stack.capacity) :
    (s.pushParam k).2 ≠ some .stack := by
  rw [pushParam]
  split
  · simp [failed]
  · split
    · exact push_ne_stack _ hroom
    · rename_i e hget
      obtain rfl := Stack.eq_underflow_of_get hget
      simp [failed, StackError.fault]

theorem assertNonzero_ne_stack (c : Condition) : (s.assertNonzero c).2 ≠ some .stack := by
  rw [assertNonzero]
  split
  · split
    · cases c <;> simp [failed, Condition.fault]
    · apply popThen_ne_stack
      intro v stack _ _
      simp [done]
  · rename_i e hpeek
    obtain rfl := Stack.eq_underflow_of_peek hpeek
    simp [failed, StackError.fault]

theorem dup_ne_stack (hroom : s.machine.stack.size < s.machine.stack.capacity) :
    (s.onStack s.machine.stack.dup).2 ≠ some .stack := by
  rw [Stack.dup]
  split
  · exact push_ne_stack _ hroom
  · rename_i e hpeek
    obtain rfl := Stack.eq_underflow_of_peek hpeek
    simp [onStack, failed, StackError.fault]

theorem act_ne_stack (a : Action) : (s.act a).2 ≠ some .stack := by
  rw [act]
  dsimp only
  split
  · split <;> simp [failed, done]
  · simp [done]

theorem jump_ne_stack (offset : Int32) : (s.jump offset).2 ≠ some .stack := by
  rw [jump]
  split <;> simp [failed, done]

theorem ret_ne_stack : s.ret.2 ≠ some .stack := by
  rw [ret]
  split
  · simp [done]
  · dsimp only
    split
    · split <;> simp [failed, done]
    · simp [failed]

/-- The scene after an instruction has taken its operands. -/
def withoutOperands (s : Scene) (i : Instruction) : Scene :=
  s.withStack
    (s.machine.stack.truncate (s.machine.stack.size - i.operands s.machine.stack))

theorem size_withoutOperands_le (s : Scene) (i : Instruction) :
    (s.withoutOperands i).machine.stack.size ≤ s.machine.stack.size :=
  Nat.min_le_right _ _

/-- Words for which there is room are pushed. -/
theorem pushAll_of_le {words : List Int32}
    (hroom : s.machine.stack.size + words.length ≤ s.machine.stack.capacity) :
    (s.pushAll words).2 = none := by
  induction words generalizing s with
  | nil => rfl
  | cons v rest ih =>
    simp only [List.length_cons] at hroom
    have hlt : s.machine.stack.size < s.machine.stack.capacity := by omega
    cases hpush : s.push v with
    | mk u fault =>
      cases fault with
      | some f =>
        -- the only fault of a push is that of a full stack
        simp [push, onStack, Stack.push, hlt, done] at hpush
      | none =>
        simp only [pushAll, hpush]
        obtain ⟨stack, rfl, hwords, hcapacity⟩ := words_of_push hpush
        apply ih
        have hsize : stack.size = s.machine.stack.words.length + 1 := Stack.size_of_words hwords
        show stack.size + rest.length ≤ stack.capacity
        rw [hsize, hcapacity, ← s.machine.stack.size_eq]
        omega

/-- A call for whose frame there is room raises the fault of the stack only at the depth limit. -/
theorem depth_of_call_stack {target : UInt64} {function : Nat}
    (hroom : s.machine.stack.size + frameWords ≤ s.machine.stack.capacity + 1)
    (h : s.call target function = (t, some .stack)) :
    t.machine.callDepth = s.machine.callDepth + 1 ∧
      s.world.limits.maxCallDepth.toNat ≤ s.machine.callDepth + 1 := by
  rw [call, popThen] at h
  split at h
  · rename_i param below hpop
    obtain ⟨hwords, hcapacity⟩ := Stack.pop_eq_ok_iff.1 hpop
    have hsize : s.machine.stack.size = below.size + 1 := by
      rw [Stack.size_of_words hwords, below.size_eq]
      rfl
    split at h
    · simp [failed] at h
    · rename_i words hframe
      obtain ⟨caller, -, -, -, rfl⟩ := frame?_eq_some hframe
      -- the parameter has made room for the fourth word of the frame
      have hpushed : ((s.withStack below).pushAll
          [caller, .ofNat below.size, .ofNat s.machine.pc, param]).2 = none := by
        apply pushAll_of_le
        show below.size + frameWords ≤ below.capacity
        omega
      simp only at h
      split at h
      · rename_i u hpush
        obtain ⟨stack, rfl, -, -⟩ := words_of_pushAll hpush
        split at h
        · rename_i hdepth
          obtain rfl := congrArg Prod.fst h
          exact ⟨rfl, hdepth⟩
        · simp [done] at h
      · rename_i hfailed
        exact (hfailed _ (Prod.ext rfl hpushed)).elim
  · rename_i e hpop
    obtain rfl := Stack.eq_underflow_of_pop hpop
    simp [failed, StackError.fault] at h

end Scene

section StackFault

variable {i : Instruction} {s t : Scene}

theorem Effect.recorded_ne_stack {e : Effect} (h : e.2 ≠ some .stack) :
    (Effect.recorded e).2 ≠ some .stack := by
  rw [Effect.recorded_snd]
  exact h

/-- Where the results of an instruction fit on the stack, only a call that reaches the depth limit
raises the fault of the stack. -/
theorem depth_of_stack_fault
    (hroom : s.machine.stack.size + i.results ≤
      s.machine.stack.capacity + i.operands s.machine.stack)
    (h : execute i s = (t, some .stack)) :
    t.machine.callDepth = s.machine.callDepth + 1 ∧
      s.world.limits.maxCallDepth.toNat ≤ s.machine.callDepth + 1 := by
  have hfault : (execute i s).2 = some .stack := congrArg Prod.snd h
  cases i with
  | call target function =>
    obtain ⟨u, hu, rfl⟩ := Effect.recorded_eq_some_iff.1 h
    exact Scene.depth_of_call_stack (t := u) hroom hu
  | load v | worldWalls | orientation | worldBuzzers | bagBuzzers =>
    exact absurd hfault (Effect.recorded_ne_stack (Scene.push_ne_stack _ hroom))
  | dup => exact absurd hfault (Effect.recorded_ne_stack (Scene.dup_ne_stack hroom))
  | param k => exact absurd hfault (Effect.recorded_ne_stack (Scene.pushParam_ne_stack k hroom))
  | dec | inc | rotl | rotr | mask | not =>
    exact absurd hfault (Effect.recorded_ne_stack (Scene.mapTop_ne_stack _))
  | and | or | eq => exact absurd hfault (Effect.recorded_ne_stack (Scene.binary_ne_stack _ hroom))
  | ez c => exact absurd hfault (Effect.recorded_ne_stack (Scene.assertNonzero_ne_stack c))
  | forward | left | pickBuzzer | leaveBuzzer =>
    exact absurd hfault (Effect.recorded_ne_stack (Scene.act_ne_stack _))
  | jmp offset => exact absurd hfault (Effect.recorded_ne_stack (Scene.jump_ne_stack offset))
  | ret => exact absurd hfault (Effect.recorded_ne_stack Scene.ret_ne_stack)
  | pop =>
    refine absurd hfault (Effect.recorded_ne_stack (Scene.popThen_ne_stack ?_))
    intro v stack _ _
    simp [Scene.done]
  | jz offset =>
    refine absurd hfault (Effect.recorded_ne_stack (Scene.popThen_ne_stack ?_))
    intro v stack _ _
    split
    · exact Scene.jump_ne_stack offset
    · simp [Scene.done]
  | halt | line n =>
    have hnone : none = some Fault.stack := hfault
    exact absurd hnone (by simp)
  | unknown name =>
    have hother : some Fault.invalidOpcode = some Fault.stack := hfault
    exact absurd hother (by simp)

end StackFault

/-! ## Levels with few operands -/

/-- The number of operands that a level of calls has room for: the outermost level, which has no
frame, takes more of them. -/
def operandLimit : Option Nat → Nat
  | none => frameOperands + stackHeadroom
  | some _ => frameOperands

/-- The number of operands of the active level. -/
def Machine.operandCount (m : Machine) : Nat :=
  match m.fp with
  | none => m.stack.size
  | some fp => m.stack.size - (fp + frameWords)

/-- Among the first `n` steps, those that add an operand add it to a level that has room for it. An
instruction that raises a fault adds none. -/
def Session.OperandsLimited (s : Session) (n : Nat) : Prop :=
  ∀ k < n, ∀ i ∈ (s.after k).due?, i.addsOperand = true → (s.after (k + 1)).running = true →
    (s.after k).machine.operandCount < operandLimit (s.after k).machine.fp

theorem Session.OperandsLimited.mono {s : Session} {m n : Nat} (h : s.OperandsLimited n)
    (hmn : m ≤ n) : s.OperandsLimited m := by
  intro k hk
  exact h k (by omega)

namespace CallStack

/-- No level holds more operands than it has room for. -/
def Roomy : CallStack → Prop
  | outermost operands => operands.length ≤ operandLimit none
  | frame caller _ _ operands => caller.Roomy ∧ operands.length ≤ frameOperands

variable {c : CallStack}

theorem size_withOperands (c : CallStack) (ops : List Int32) :
    (c.withOperands ops).size + c.operands.length = c.size + ops.length := by
  cases c with
  | outermost _ => exact Nat.add_comm _ _
  | frame _ _ _ _ =>
    simp only [withOperands, size, operands]
    omega

namespace Roomy

theorem operands_le (h : c.Roomy) : c.operands.length ≤ operandLimit c.fp? := by
  cases c with
  | outermost _ => exact h
  | frame _ _ _ _ => exact h.2

theorem withOperands (h : c.Roomy) {ops : List Int32} (hops : ops.length ≤ operandLimit c.fp?) :
    (c.withOperands ops).Roomy := by
  cases c with
  | outermost _ => exact hops
  | frame _ _ _ _ => exact ⟨h.1, hops⟩

/-- All levels together hold no more than their frames and operands. -/
theorem size_le (h : c.Roomy) :
    c.size ≤ c.depth * (frameWords + frameOperands) + (frameOperands + stackHeadroom) := by
  induction c with
  | outermost ops =>
    have hops : ops.length ≤ frameOperands + stackHeadroom := h
    simp only [size, depth]
    omega
  | frame caller address param ops ih =>
    have hcaller := ih h.1
    have hops := h.2
    simp only [size, depth, Nat.succ_mul]
    omega

end Roomy

end CallStack

theorem Machine.Holds.operandCount {m : Machine} {c : CallStack} (h : m.Holds c) :
    m.operandCount = c.operands.length := by
  have hsize := h.size
  rw [Machine.operandCount, h.fp, hsize]
  cases c with
  | outermost ops => rfl
  | frame caller address param ops =>
    simp only [CallStack.fp?, CallStack.size, CallStack.operands]
    omega

namespace Session

variable {s : Session} {c : CallStack} {i : Instruction}

/-- A step that adds operands only where there is room keeps every level within its room. -/
theorem exists_roomy_next (hc : s.machine.Holds c) (hroomy : c.Roomy) (hdue : s.due? = some i)
    (hkeeps : s.machine.KeepsFrame i)
    (hlimited : i.addsOperand = true → s.machine.operandCount < operandLimit s.machine.fp)
    (hnext : s.next.running = true) :
    ∃ c', s.next.machine.Holds c' ∧ c'.Roomy := by
  obtain ⟨c', hc', hstep⟩ := hc.step hdue hkeeps hnext
  refine ⟨c', hc', ?_⟩
  have hle := hroomy.operands_le
  generalize s.next.machine.pc = pc' at hstep
  cases hstep with
  | within hcall hret ops =>
    obtain ⟨t, ht, hmachine, -⟩ := exists_execute hdue hnext
    have hbalance := size_of_execute hcall hret ht
    rw [← hmachine, hc'.size] at hbalance
    have hbefore : (s.scene i).machine.stack.size = c.size := hc.size
    have hsizes := c.size_withOperands ops
    apply hroomy.withOperands
    cases hadds : i.addsOperand with
    | true =>
      -- the new operand had room
      have hresults := Instruction.results_of_addsOperand (s.scene i).machine.stack hadds
      have hlt := hlimited hadds
      rw [hc.operandCount, hc.fp] at hlt
      omega
    | false =>
      have hresults := Instruction.results_le_operands (s.scene i).machine.stack hadds hcall
      omega
  | call hparam =>
    rename_i ops
    rw [hparam, List.length_cons] at hle
    exact ⟨hroomy.withOperands (by omega), Nat.zero_le _⟩
  | ret => exact hroomy.1

/-- Along a run that keeps to its frames and limits its operands, every level keeps within its
room. -/
theorem exists_roomy {n : Nat} (hs : s.IsFresh) (hrespects : s.FrameRespecting n)
    (hlimited : s.OperandsLimited n) (hrunning : (s.after n).running = true) :
    ∃ c, (s.after n).machine.Holds c ∧ c.Roomy := by
  induction n with
  | zero => exact ⟨_, hs.holds, Nat.zero_le _⟩
  | succ n ih =>
    obtain ⟨i, hdue⟩ := exists_due? hrunning
    obtain ⟨c, hc, hroomy⟩ := ih (hrespects.mono (Nat.le_succ n)) (hlimited.mono (Nat.le_succ n))
      (running_of_due? hdue)
    exact exists_roomy_next hc hroomy hdue (hrespects n (by omega) i hdue)
      (fun hadds => hlimited n (by omega) i hdue hadds hrunning) hrunning

/-- Along such a run there is always room for a frame. -/
theorem room_of_due? {n : Nat} (hs : s.IsFresh) (hrespects : s.FrameRespecting n)
    (hlimited : s.OperandsLimited n) (hdue : (s.after n).due? = some i) :
    (s.after n).machine.stack.size + frameWords ≤ (s.after n).machine.stack.capacity := by
  have hrunning := running_of_due? hdue
  obtain ⟨c, hc, hroomy⟩ := exists_roomy hs hrespects hlimited hrunning
  have hsize := hroomy.size_le
  rw [← hc.size, ← hc.depth] at hsize
  have hfresh : s.machine = .fresh s.world.limits := hs
  have hcapacity : (s.after n).machine.stack.capacity =
      stackCapacity s.world.limits.maxCallDepth := by
    rw [capacity_after hrunning, hfresh]
    rfl
  -- the depth limit leaves one level free, which the frame does not fill
  have hdepth := callDepth_lt_of_due? hdue
  rw [limits_after hrunning] at hdepth
  have hlevels := Nat.mul_le_mul_right (frameWords + frameOperands) hdepth
  rw [hcapacity, stackCapacity]
  simp only [frameWords, frameOperands, stackHeadroom] at hsize hlevels ⊢
  omega

/-- A step raises the fault of the stack only at the depth limit, if the results of its instruction
fit on the stack. -/
theorem callDepth_of_stack_fault {trace : List Instruction} (h : s.Metered trace)
    (hroom : ∀ i ∈ s.due?, s.machine.stack.size + i.results ≤
      s.machine.stack.capacity + i.operands s.machine.stack)
    (hbefore : s.machine.fault = some .stack →
      s.machine.callDepth = s.world.limits.maxCallDepth.toNat)
    (hafter : s.next.machine.fault = some .stack) :
    s.next.machine.callDepth = s.world.limits.maxCallDepth.toNat := by
  cases hdue : s.due? with
  | some i =>
    have hdepth := callDepth_lt_of_due? hdue
    have hnone : s.machine.fault = none := h.fault (running_of_due? hdue)
    cases hfault : (execute i (s.scene i)).2 with
    | none =>
      have hsame := (performed_of_execute (Prod.ext rfl hfault)).fault
      rw [next_machine_of_due? hdue] at hafter
      exact absurd (hsame.symm.trans hafter) (by simp [scene, advanced, hnone])
    | some f =>
      -- the recorded fault is the one that the instruction raised, since there was none before
      have hraised := (next_of_raised hdue hnone hfault).2
      obtain rfl : f = .stack := Option.some.inj (hraised.symm.trans hafter)
      obtain ⟨hdeep, hlimit⟩ := depth_of_stack_fault (hroom i hdue) (Prod.ext rfl hfault)
      have hdeep' : s.next.machine.callDepth = s.machine.callDepth + 1 := by
        rw [next_machine_of_due? hdue]
        exact hdeep
      have hlimit' : s.world.limits.maxCallDepth.toNat ≤ s.machine.callDepth + 1 := hlimit
      omega
  | none =>
    rcases next_of_due?_eq_none hdue with hnext | hnext | ⟨f, hrunning, hrefusal, hnext⟩
    · rw [hnext] at hafter ⊢
      exact hbefore hafter
    · rw [hnext] at hafter ⊢
      exact hbefore hafter
    · rw [hnext] at hafter ⊢
      have hrecorded : some (s.machine.fault.getD f) = some .stack := hafter
      rw [h.fault hrunning] at hrecorded
      obtain rfl : f = .stack := Option.some.inj hrecorded
      rw [refusal?] at hrefusal
      split at hrefusal
      · exact absurd hrefusal (by simp)
      · split at hrefusal
        · exact Nat.le_antisymm h.depth_le ‹_›
        · exact absurd hrefusal (by simp)

/-- A run that keeps to its frames and adds an operand only to a level with room for it never finds
the stack full: what an instruction has taken its operands from takes all the words that it then
pushes, the words of a frame included. So the fault of the stack says that the depth limit was
reached. -/
theorem depth_limit_before_full_stack {n : Nat} (hs : s.IsFresh) (hrespects : s.FrameRespecting n)
    (hlimited : s.OperandsLimited n) :
    (∀ k < n, ∀ i ∈ (s.after k).due?, ∀ words : List Int32, words.length ≤ i.results →
      ((((s.after k).scene i).withoutOperands i).pushAll words).2 = none) ∧
    ((s.after n).machine.fault = some .stack →
      (s.after n).machine.callDepth = s.world.limits.maxCallDepth.toNat) := by
  have hroom : ∀ k < n, ∀ i ∈ (s.after k).due?,
      (s.after k).machine.stack.size + frameWords ≤ (s.after k).machine.stack.capacity := by
    intro k hk i hdue
    exact room_of_due? hs (hrespects.mono (Nat.le_of_lt hk)) (hlimited.mono (Nat.le_of_lt hk)) hdue
  constructor
  · intro k hk i hdue words hwords
    have hfits := hroom k hk i hdue
    have hresults := i.results_le_frameWords
    apply Scene.pushAll_of_le
    have hsize := Scene.size_withoutOperands_le ((s.after k).scene i) i
    show _ ≤ (s.after k).machine.stack.capacity
    have hscene : ((s.after k).scene i).machine.stack.size = (s.after k).machine.stack.size := rfl
    omega
  · -- the fault stays what the last step made it
    intro hfault
    induction n with
    | zero =>
      have hfresh : s.machine = .fresh s.world.limits := hs
      have hnone : s.machine.fault = none := by rw [hfresh]; rfl
      exact absurd (hnone.symm.trans hfault) (by simp)
    | succ n ih =>
      rw [← s.after_limits n]
      apply callDepth_of_stack_fault (metered_after hs n) _ _ hfault
      · intro i hdue
        have hfits := hroom n (by omega) i hdue
        have hresults := i.results_le_frameWords
        omega
      · intro hbefore
        rw [s.after_limits n]
        exact ih (hrespects.mono (Nat.le_succ n)) (hlimited.mono (Nat.le_succ n))
          (fun k hk => hroom k (by omega)) hbefore

/-- A function that calls itself for ever, with an operand left at each level. -/
def plunge : Session :=
  .new { World.new 2 2 with limits := { maxCallDepth := 3 } }
    { code := #[.load 7, .dup, .call 0 0] }

/-- Endless recursion is ended at the depth limit, with room left on the stack. -/
theorem depth_limit_before_full_stack_plunge :
    plunge.IsFresh ∧ plunge.FrameRespecting 9 ∧ plunge.OperandsLimited 9 ∧
      (plunge.after 9).machine.fault = some .stack ∧ (plunge.after 9).machine.callDepth = 3 ∧
      ((((plunge.after 8).scene (.call 0 0)).withoutOperands (.call 0 0)).pushAll
        [5, 11, 3, 7]).2 = none := by
  have hfresh : plunge.IsFresh := rfl
  have hrespects : plunge.FrameRespecting 9 := by
    unfold FrameRespecting Machine.KeepsFrame
    decide +kernel
  have hlimited : plunge.OperandsLimited 9 := by
    unfold OperandsLimited
    decide +kernel
  have hfault : (plunge.after 9).machine.fault = some .stack := by decide +kernel
  have hdue : (plunge.after 8).due? = some (.call 0 0) := by decide +kernel
  obtain ⟨hpushes, hdepth⟩ := depth_limit_before_full_stack hfresh hrespects hlimited
  exact ⟨hfresh, hrespects, hlimited, hfault, hdepth hfault,
    hpushes 8 (by decide) _ hdue _ (Nat.le_refl 4)⟩

end Session

end GridRobot
