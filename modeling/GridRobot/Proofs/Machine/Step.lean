import GridRobot.Proofs.Machine.Stack
import GridRobot.Session

/-!
# One step of a session

`Performed i s t` lists all that an instruction can do when it raises no fault, and
`performed_of_execute` says that the list is complete: what holds of every machine that a program can
reach is proved from its eight cases and never by opening the instructions again.

`Session.due?` is the instruction that the next step executes, and `Session.after` is the session
after a number of steps. A step from a running session either executes an instruction or ends the run
(`running_next_of_due?_eq_none`), and a run goes on only after an instruction that raised no fault
(`exists_performed`).
-/

set_option autoImplicit false

namespace GridRobot

/-- The number of top words that an instruction takes off the stack or rewrites. A failed assertion
leaves its operand in place, and a return has no operand: it closes its frame as a whole. -/
def Instruction.operands (i : Instruction) (stack : Stack) : Nat :=
  match i with
  | .pop | .dec | .inc | .rotl | .rotr | .mask | .not | .jz _ | .call _ _ => 1
  | .and | .or | .eq => 2
  | .ez _ => if stack.words.head? = some 0 then 0 else 1
  | _ => 0

/-- The word that a frame keeps for the frame of its caller, if it fits. -/
def linkWord? : Option Nat → Option Int32
  | some fp => toWord? fp
  | none => some (-1)

/-- What an instruction does that raises no fault. -/
inductive Performed : Instruction → Scene → Scene → Prop
  /-- Operands are replaced by at most one word. -/
  | computed {i : Instruction} {s : Scene} {stack : Stack} (results : List Int32)
      (hbudget : i.consumesBudget = false) (hret : i ≠ .ret)
      (hcapacity : stack.capacity = s.machine.stack.capacity)
      (hwords : stack.words = results ++ s.machine.stack.words.drop (i.operands s.machine.stack))
      (hresults : results.length ≤ 1) :
      Performed i s (s.withStack stack)
  | acted {i : Instruction} {s : Scene} {a : Action} (ha : i.action? = some a)
      (hcap : ∀ cap ∈ s.world.limits.caps.get a, s.machine.counters.get a + 1 ≤ cap.toNat) :
      Performed i s
        { s with
          world := s.world.perform a
          machine :=
            { s.machine with
              counters := s.machine.counters.set a (s.machine.counters.get a + 1) } }
  | jumped {s : Scene} {offset : Int32} {pc : Nat}
      (hpc : Scene.jumpTarget? s.machine.pc offset = some pc) :
      Performed (.jmp offset) s { s with machine := { s.machine with pc } }
  | branched {s : Scene} {offset v : Int32} {stack : Stack} {pc : Nat}
      (hwords : s.machine.stack.words = v :: stack.words)
      (hcapacity : stack.capacity = s.machine.stack.capacity)
      (hpc : if v = 0 then Scene.jumpTarget? s.machine.pc offset = some pc else pc = s.machine.pc) :
      Performed (.jz offset) s { s with machine := { s.machine with stack, pc } }
  /-- A frame replaces the parameter on top of the caller's words. -/
  | called {s : Scene} {target : UInt64} {function : Nat} {param caller : Int32}
      {below : List Int32} {stack : Stack}
      (hparam : s.machine.stack.words = param :: below)
      (hcaller : linkWord? s.machine.fp = some caller)
      (hheight : below.length < wordBound) (haddress : s.machine.pc < wordBound)
      (hcapacity : stack.capacity = s.machine.stack.capacity)
      (hwords : stack.words =
        param :: Int32.ofNat s.machine.pc :: Int32.ofNat below.length :: caller :: below)
      (hdepth : s.machine.callDepth + 1 < s.world.limits.maxCallDepth.toNat) :
      Performed (.call target function) s
        { s with
          machine :=
            { s.machine with
              fp := some below.length
              pc := target.toNat
              stack
              callDepth := s.machine.callDepth + 1 }
          queue := s.queue ++ [.call function param s.machine.line] }
  | returned {s : Scene} {fp height pc : Nat} {caller heightWord address : Int32}
      (hfp : s.machine.fp = some fp)
      (hcaller : s.machine.stack.get fp = .ok caller)
      (hheightWord : s.machine.stack.get (fp + 1) = .ok heightWord)
      (haddress : s.machine.stack.get (fp + 2) = .ok address)
      (hheight : toIndex? heightWord = some height) (hpc : toIndex? address = some pc) :
      Performed .ret s
        { s with
          machine :=
            { s.machine with
              pc
              stack := s.machine.stack.truncate height
              fp := toIndex? caller
              callDepth := s.machine.callDepth - 1 }
          queue := s.queue ++ [.ret s.machine.line] }
  | ended {i : Instruction} {s : Scene} (hi : i = .halt ∨ i = .ret ∧ s.machine.fp = none) :
      Performed i s { s with machine := s.machine.halt }
  | entered {s : Scene} {n : Int32} :
      Performed (.line n) s { s with machine := { s.machine with line := n } }

/-! ## The parts of an instruction -/

theorem Effect.recorded_eq_none_iff {e : Effect} {t : Scene} :
    Effect.recorded e = (t, none) ↔ e = (t, none) := by
  obtain ⟨s, f⟩ := e
  cases f <;> simp [Effect.recorded]

@[simp] theorem Effect.recorded_snd (e : Effect) : (Effect.recorded e).2 = e.2 := by
  obtain ⟨s, f⟩ := e
  cases f <;> rfl

@[simp] theorem Effect.recorded_stack (e : Effect) :
    (Effect.recorded e).1.machine.stack = e.1.machine.stack := by
  obtain ⟨s, f⟩ := e
  cases f <;> rfl

namespace Scene

variable {s t : Scene}

theorem onStack_eq_none_iff {result : Except StackError Stack} :
    s.onStack result = (t, none) ↔ ∃ stack, result = .ok stack ∧ t = s.withStack stack := by
  cases result with
  | error e => simp [onStack, failed]
  | ok stack => simp [onStack, done, eq_comm]

theorem popThen_eq_none_iff {next : Int32 → Scene → Effect} :
    s.popThen next = (t, none) ↔
      ∃ v stack, s.machine.stack.words = v :: stack.words ∧
        stack.capacity = s.machine.stack.capacity ∧ next v (s.withStack stack) = (t, none) := by
  rw [popThen]
  constructor
  · intro h
    split at h
    · rename_i v stack hpop
      obtain ⟨hwords, hcapacity⟩ := Stack.pop_eq_ok_iff.1 hpop
      exact ⟨v, stack, hwords, hcapacity, h⟩
    · simp [failed] at h
  · rintro ⟨v, stack, hwords, hcapacity, h⟩
    rw [Stack.pop_eq_ok_iff.2 ⟨hwords, hcapacity⟩]
    exact h

theorem words_of_push {v : Int32} (h : s.push v = (t, none)) :
    ∃ stack, t = s.withStack stack ∧ stack.words = v :: s.machine.stack.words ∧
      stack.capacity = s.machine.stack.capacity := by
  obtain ⟨stack, hpush, rfl⟩ := onStack_eq_none_iff.1 h
  exact ⟨stack, rfl, (Stack.push_eq_ok_iff.1 hpush).2⟩

/-- Pushing several words puts the last of them on top. -/
theorem words_of_pushAll {words : List Int32} (h : s.pushAll words = (t, none)) :
    ∃ stack, t = s.withStack stack ∧ stack.words = words.reverse ++ s.machine.stack.words ∧
      stack.capacity = s.machine.stack.capacity := by
  induction words generalizing s with
  | nil =>
    simp only [pushAll, done, Prod.mk.injEq, and_true] at h
    exact ⟨s.machine.stack, h.symm, rfl, rfl⟩
  | cons v rest ih =>
    simp only [pushAll] at h
    split at h
    · rename_i u hpush
      obtain ⟨stack, rfl, hwords, hcapacity⟩ := words_of_push hpush
      obtain ⟨stack', rfl, hwords', hcapacity'⟩ := ih h
      refine ⟨stack', rfl, ?_, hcapacity'.trans hcapacity⟩
      rw [hwords']
      show rest.reverse ++ stack.words = _
      rw [hwords]
      simp
    · rename_i hfailed
      exact absurd h (hfailed t)

end Scene

section Performed

variable {i : Instruction} {s t : Scene}

theorem performed_of_push {v : Int32} (hbudget : i.consumesBudget = false) (hret : i ≠ .ret)
    (hoperands : i.operands s.machine.stack = 0) (h : s.push v = (t, none)) : Performed i s t := by
  rcases Scene.words_of_push h with ⟨stack, rfl, hwords, hcapacity⟩
  exact .computed [v] hbudget hret hcapacity (by rw [hwords, hoperands]; rfl) (Nat.le_refl 1)

theorem performed_of_mapTop {f : Int32 → Int32} (hbudget : i.consumesBudget = false)
    (hret : i ≠ .ret) (hoperands : i.operands s.machine.stack = 1) (h : s.mapTop f = (t, none)) :
    Performed i s t := by
  rcases Scene.onStack_eq_none_iff.1 h with ⟨stack, hmap, rfl⟩
  rcases Stack.words_of_mapTop hmap with ⟨v, rest, hrest, hwords, hcapacity⟩
  exact .computed [f v] hbudget hret hcapacity
    (by rw [hwords, hoperands, hrest]; rfl) (Nat.le_refl 1)

theorem performed_of_binary {f : Int32 → Int32 → Int32} (hbudget : i.consumesBudget = false)
    (hret : i ≠ .ret) (hoperands : i.operands s.machine.stack = 2) (h : s.binary f = (t, none)) :
    Performed i s t := by
  -- both operands were there, and their result fits
  rcases Scene.popThen_eq_none_iff.1 h with ⟨rhs, stack, hrhs, hcapacity, h⟩
  rcases Scene.popThen_eq_none_iff.1 h with ⟨lhs, stack', hlhs, hcapacity', h⟩
  rcases Scene.words_of_push h with ⟨stack'', rfl, hwords, hcapacity''⟩
  refine .computed [f lhs rhs] hbudget hret
    (hcapacity''.trans (hcapacity'.trans hcapacity)) ?_ (Nat.le_refl 1)
  have hstack : stack.words = lhs :: stack'.words := hlhs
  rw [hwords, hoperands, hrhs, hstack]
  rfl

theorem performed_of_assertNonzero {c : Condition} (h : s.assertNonzero c = (t, none)) :
    Performed (.ez c) s t := by
  rw [Scene.assertNonzero] at h
  split at h
  · rename_i v hpeek
    have hhead := Stack.peek_eq_ok_iff.1 hpeek
    split at h
    · simp [Scene.failed] at h
    · rename_i hv
      rcases Scene.popThen_eq_none_iff.1 h with ⟨u, stack, hwords, hcapacity, h⟩
      simp only [Scene.done, Prod.mk.injEq, and_true] at h
      subst h
      have hnonzero : s.machine.stack.words.head? ≠ some 0 := by
        rw [hhead]
        intro hzero
        exact hv (Option.some.inj hzero)
      have hoperands : (Instruction.ez c).operands s.machine.stack = 1 := if_neg hnonzero
      exact .computed [] rfl (by simp) hcapacity (by rw [hoperands, hwords]; rfl) (Nat.zero_le 1)
  · simp [Scene.failed] at h

theorem performed_of_pushParam {k : UInt32} (h : s.pushParam k = (t, none)) :
    Performed (.param k) s t := by
  rw [Scene.pushParam] at h
  split at h
  · simp [Scene.failed] at h
  · split at h
    · exact performed_of_push rfl (by simp) rfl h
    · simp [Scene.failed] at h

theorem performed_of_act {a : Action} (ha : i.action? = some a) (h : s.act a = (t, none)) :
    Performed i s t := by
  -- without a fault the action was within its cap
  have hcap : ∀ cap ∈ s.world.limits.caps.get a, s.machine.counters.get a + 1 ≤ cap.toNat := by
    intro cap hcap
    simp only [Option.mem_def] at hcap
    simp only [Scene.act, hcap] at h
    split at h
    · simp [Scene.failed] at h
    · omega
  have ht : t = { s with
      world := s.world.perform a
      machine :=
        { s.machine with
          counters := s.machine.counters.set a (s.machine.counters.get a + 1) } } := by
    simp only [Scene.act] at h
    split at h
    · split at h
      · simp [Scene.failed] at h
      · exact (congrArg Prod.fst h).symm
    · exact (congrArg Prod.fst h).symm
  subst ht
  exact .acted ha hcap

theorem jump_eq_none_iff {offset : Int32} :
    s.jump offset = (t, none) ↔
      ∃ pc, Scene.jumpTarget? s.machine.pc offset = some pc ∧
        t = { s with machine := { s.machine with pc } } := by
  rw [Scene.jump]
  cases Scene.jumpTarget? s.machine.pc offset with
  | none => simp [Scene.failed]
  | some pc => simp [Scene.done, eq_comm]

theorem performed_of_jz {offset : Int32}
    (h : (s.popThen fun v s => if v = 0 then s.jump offset else s.done) = (t, none)) :
    Performed (.jz offset) s t := by
  rcases Scene.popThen_eq_none_iff.1 h with ⟨v, stack, hwords, hcapacity, h⟩
  split at h
  · rename_i hv
    rcases jump_eq_none_iff.1 h with ⟨pc, hpc, rfl⟩
    exact .branched hwords hcapacity (by rw [if_pos hv]; exact hpc)
  · rename_i hv
    simp only [Scene.done, Prod.mk.injEq, and_true] at h
    subst h
    exact .branched hwords hcapacity (by rw [if_neg hv])

theorem toWord?_eq_some_iff {n : Nat} {v : Int32} :
    toWord? n = some v ↔ n < wordBound ∧ v = Int32.ofNat n := by
  rw [toWord?]
  split
  · rename_i hn
    simp [hn, eq_comm]
  · rename_i hn
    simp [hn]

/-- The words of a frame: the caller's frame, its height, the address to return to, the parameter. -/
theorem frame?_eq_some {m : Machine} {param : Int32} {words : List Int32}
    (h : Scene.frame? m param = some words) :
    ∃ caller, linkWord? m.fp = some caller ∧ m.stack.size < wordBound ∧ m.pc < wordBound ∧
      words = [caller, Int32.ofNat m.stack.size, Int32.ofNat m.pc, param] := by
  -- the three numbers that have to fit into words, one after the other
  have hframe : Scene.frame? m param =
      (linkWord? m.fp).bind fun caller => (toWord? m.stack.size).bind fun height =>
        (toWord? m.pc).bind fun address => some [caller, height, address, param] := by
    cases hfp : m.fp <;> simp [Scene.frame?, linkWord?, hfp]
  simp only [hframe, Option.bind_eq_some_iff, Option.some.injEq] at h
  rcases h with ⟨caller, hcaller, height, hheight, address, haddress, rfl⟩
  rcases toWord?_eq_some_iff.1 hheight with ⟨hsize, rfl⟩
  rcases toWord?_eq_some_iff.1 haddress with ⟨hpc, rfl⟩
  exact ⟨caller, hcaller, hsize, hpc, rfl⟩

theorem performed_of_call {target : UInt64} {function : Nat}
    (h : s.call target function = (t, none)) : Performed (.call target function) s t := by
  -- the call fails if there is no parameter, if a word of the frame does not fit, if the stack is
  -- full, and if the depth limit is reached; in the one branch left it opens its frame
  rcases Scene.popThen_eq_none_iff.1 h with ⟨param, below, hparam, hcapacity, h⟩
  split at h
  · simp [Scene.failed] at h
  · rename_i words hframe
    rcases frame?_eq_some hframe with ⟨caller, hcaller, hheight, haddress, rfl⟩
    simp only at h
    split at h
    · rename_i u hpush
      rcases Scene.words_of_pushAll hpush with ⟨stack, rfl, hwords, hcapacity'⟩
      split at h
      · simp [Scene.failed] at h
      · rename_i hdepth
        simp only [Scene.done, Prod.mk.injEq, and_true] at h
        subst h
        have hlength : below.size = below.words.length := below.size_eq
        have hwords' : stack.words = param :: Int32.ofNat s.machine.pc ::
            Int32.ofNat below.words.length :: caller :: below.words := by
          rw [hwords, ← hlength]
          rfl
        have key := @Performed.called s target function param caller below.words stack hparam
          hcaller (hlength ▸ hheight) haddress (hcapacity'.trans hcapacity) hwords'
          (Nat.lt_of_not_le hdepth)
        rw [← hlength] at key
        exact key
    · rename_i hfailed
      exact absurd h (hfailed t)

theorem performed_of_ret (h : s.ret = (t, none)) : Performed .ret s t := by
  rw [Scene.ret] at h
  split at h
  · rename_i hfp
    simp only [Scene.done, Prod.mk.injEq, and_true] at h
    subst h
    exact .ended (.inr ⟨rfl, hfp⟩)
  · rename_i fp hfp
    -- the three words of the frame are there, and two of them are not negative
    simp only at h
    split at h
    · rename_i caller heightWord address hcaller hheightWord haddress
      split at h
      · rename_i height pc hheight hpc
        simp only [Scene.done, Prod.mk.injEq, and_true] at h
        subst h
        exact .returned hfp hcaller hheightWord haddress hheight hpc
      · simp [Scene.failed] at h
    · simp [Scene.failed] at h

/-- The cases of `Performed` are all that an instruction can do without a fault. -/
theorem performed_of_execute (h : execute i s = (t, none)) : Performed i s t := by
  cases i with
  | load v | worldWalls | orientation | worldBuzzers | bagBuzzers =>
    exact performed_of_push rfl (by simp) rfl (Effect.recorded_eq_none_iff.1 h)
  | dec | inc | rotl | rotr | mask | not =>
    exact performed_of_mapTop rfl (by simp) rfl (Effect.recorded_eq_none_iff.1 h)
  | and | or | eq =>
    exact performed_of_binary rfl (by simp) rfl (Effect.recorded_eq_none_iff.1 h)
  | forward | left | pickBuzzer | leaveBuzzer =>
    exact performed_of_act rfl (Effect.recorded_eq_none_iff.1 h)
  | ez c => exact performed_of_assertNonzero (Effect.recorded_eq_none_iff.1 h)
  | param k => exact performed_of_pushParam (Effect.recorded_eq_none_iff.1 h)
  | jz offset => exact performed_of_jz (Effect.recorded_eq_none_iff.1 h)
  | call target function => exact performed_of_call (Effect.recorded_eq_none_iff.1 h)
  | ret => exact performed_of_ret (Effect.recorded_eq_none_iff.1 h)
  | pop =>
    obtain ⟨v, stack, hwords, hcapacity, h⟩ :=
      Scene.popThen_eq_none_iff.1 (Effect.recorded_eq_none_iff.1 h)
    obtain rfl := (Prod.mk.inj h).1
    exact .computed [] rfl (by simp) hcapacity (by rw [hwords]; rfl) (Nat.zero_le 1)
  | dup =>
    obtain ⟨stack, hdup, rfl⟩ := Scene.onStack_eq_none_iff.1 (Effect.recorded_eq_none_iff.1 h)
    obtain ⟨v, hwords, hcapacity⟩ := Stack.words_of_dup hdup
    exact .computed [v] rfl (by simp) hcapacity hwords (Nat.le_refl 1)
  | jmp offset =>
    obtain ⟨pc, hpc, rfl⟩ := jump_eq_none_iff.1 (Effect.recorded_eq_none_iff.1 h)
    exact .jumped hpc
  | halt =>
    obtain rfl : { s with machine := s.machine.halt } = t := congrArg Prod.fst h
    exact .ended (.inl rfl)
  | line n =>
    obtain rfl : { s with machine := { s.machine with line := n } } = t := congrArg Prod.fst h
    exact .entered
  | unknown name =>
    have hfault : some Fault.invalidOpcode = none := congrArg Prod.snd h
    exact absurd hfault (by simp)

/-- An instruction that raises a fault ends the run. -/
theorem running_of_execute_fault {f : Fault} (h : (execute i s).2 = some f) :
    (execute i s).1.machine.running = false := by
  -- whichever family is asked, its fault is recorded
  have hrecorded : ∃ e, execute i s = Effect.recorded e := by
    rw [execute, dispatch]
    split <;> exact ⟨_, rfl⟩
  obtain ⟨⟨u, g⟩, he⟩ := hrecorded
  rw [he] at h ⊢
  cases g with
  | none => simp [Effect.recorded] at h
  | some g => rfl

end Performed

/-! ## The world

Whether or not an instruction raises a fault, the world it leaves is the one it found, or that world
after one action of the robot. -/

namespace Scene

variable (s : Scene)

@[simp] theorem onStack_world (result : Except StackError Stack) :
    (s.onStack result).1.world = s.world := by
  cases result <;> rfl

/-- Taking the top word does not change the world, if what is done with it does not. -/
theorem popThen_world {next : Int32 → Scene → Effect}
    (h : ∀ v stack, (next v (s.withStack stack)).1.world = s.world) :
    (s.popThen next).1.world = s.world := by
  rw [popThen]
  split
  · exact h _ _
  · rfl

theorem pushAll_world (words : List Int32) : (s.pushAll words).1.world = s.world := by
  induction words generalizing s with
  | nil => rfl
  | cons v rest ih =>
    have hpush : (s.push v).1.world = s.world := onStack_world s _
    rw [pushAll]
    split
    · rename_i u heq
      rw [heq] at hpush
      exact (ih u).trans hpush
    · exact hpush

theorem pushParam_world (k : UInt32) : (s.pushParam k).1.world = s.world := by
  rw [pushParam]
  split
  · rfl
  · split
    · exact onStack_world s _
    · rfl

theorem assertNonzero_world (c : Condition) : (s.assertNonzero c).1.world = s.world := by
  rw [assertNonzero]
  split
  · split
    · rfl
    · exact s.popThen_world fun _ _ => rfl
  · rfl

theorem jump_world (offset : Int32) : (s.jump offset).1.world = s.world := by
  rw [jump]
  split <;> rfl

theorem call_world (target : UInt64) (function : Nat) :
    (s.call target function).1.world = s.world := by
  apply s.popThen_world
  intro param stack
  dsimp only
  split
  · rfl
  · rename_i words _
    have hpush := (s.withStack stack).pushAll_world words
    split
    · rename_i u heq
      rw [heq] at hpush
      split <;> exact hpush
    · exact hpush

theorem ret_world : s.ret.1.world = s.world := by
  rw [ret]
  split
  · rfl
  · dsimp only
    split
    · split <;> rfl
    · rfl

/-- An action is performed even when it exceeds its cap. -/
theorem act_world (a : Action) : (s.act a).1.world = s.world.perform a := by
  rw [act]
  dsimp only
  split
  · split <;> rfl
  · rfl

end Scene

@[simp] theorem Effect.recorded_world (e : Effect) : (Effect.recorded e).1.world = e.1.world := by
  obtain ⟨s, f⟩ := e
  cases f <;> rfl

/-- An instruction changes the world by the action it stands for, and not at all if it stands for
none. -/
theorem execute_world (i : Instruction) (s : Scene) :
    (execute i s).1.world = (i.action?.map s.world.perform).getD s.world := by
  cases i with
  | load v | worldWalls | orientation | worldBuzzers | bagBuzzers | dup | dec | inc | rotl | rotr
  | mask | not =>
    exact (Effect.recorded_world _).trans (s.onStack_world _)
  | and | or | eq =>
    exact (Effect.recorded_world _).trans
      (s.popThen_world fun _ _ => Scene.popThen_world _ fun _ _ => Scene.onStack_world _ _)
  | pop => exact (Effect.recorded_world _).trans (s.popThen_world fun _ _ => rfl)
  | forward | left | pickBuzzer | leaveBuzzer =>
    exact (Effect.recorded_world _).trans (s.act_world _)
  | ez c => exact (Effect.recorded_world _).trans (s.assertNonzero_world c)
  | param k => exact (Effect.recorded_world _).trans (s.pushParam_world k)
  | jmp offset => exact (Effect.recorded_world _).trans (s.jump_world offset)
  | jz offset =>
    apply (Effect.recorded_world _).trans
    apply s.popThen_world
    intro v stack
    split
    · exact (s.withStack stack).jump_world offset
    · rfl
  | call target function => exact (Effect.recorded_world _).trans (s.call_world target function)
  | ret => exact (Effect.recorded_world _).trans s.ret_world
  | halt | line n | unknown name => rfl

/-! ## Sessions -/

namespace Session

variable {s : Session} {i : Instruction}

/-- The instruction that the next step executes, if it executes one. -/
def due? (s : Session) : Option Instruction :=
  if s.running = true ∧ s.refusal? = none then s.fetch? else none

/-- The session after a number of steps. -/
def after (s : Session) : Nat → Session
  | 0 => s
  | n + 1 => (s.after n).next

/-- Whether the machine is at the start of a run under the limits of the world. -/
def IsFresh (s : Session) : Prop :=
  s.machine = .fresh s.world.limits

/-- What an instruction finds. -/
def scene (s : Session) (i : Instruction) : Scene :=
  ⟨advanced s.machine i, s.world, s.queue⟩

theorem due?_eq_some_iff :
    s.due? = some i ↔ s.running = true ∧ s.refusal? = none ∧ s.fetch? = some i := by
  rw [due?]
  split
  · rename_i h
    simp [h]
  · rename_i h
    simp only [reduceCtorEq, false_iff]
    exact fun h' => h ⟨h'.1, h'.2.1⟩

theorem running_of_due? (h : s.due? = some i) : s.running = true :=
  (due?_eq_some_iff.1 h).1

/-- An instruction is executed below the depth limit only. -/
theorem callDepth_lt_of_due? (h : s.due? = some i) :
    s.machine.callDepth < s.world.limits.maxCallDepth.toNat := by
  obtain ⟨-, hrefusal, -⟩ := due?_eq_some_iff.1 h
  rw [refusal?] at hrefusal
  split at hrefusal
  · exact absurd hrefusal (by simp)
  · split at hrefusal
    · exact absurd hrefusal (by simp)
    · omega

/-- A step without a due instruction ends the run. -/
theorem running_next_of_due?_eq_none (h : s.due? = none) : s.next.running = false := by
  rw [next]
  split
  · rename_i hrunning
    split
    · rfl
    · rename_i i hfetch
      split
      · rfl
      · rename_i hrefusal
        have hdue : s.due? = some i := due?_eq_some_iff.2 ⟨hrunning, hrefusal, hfetch⟩
        rw [h] at hdue
        exact absurd hdue (by simp)
  · rename_i hstopped
    simpa using hstopped

theorem next_of_due? (h : s.due? = some i) : s.next = (s.executeNext i).deliver := by
  obtain ⟨hrunning, hrefusal, hfetch⟩ := due?_eq_some_iff.1 h
  simp [next, hrunning, hrefusal, hfetch]

@[simp] theorem deliver_machine (s : Session) : s.deliver.machine = s.machine := by
  rw [deliver]
  split <;> rfl

@[simp] theorem deliver_world (s : Session) : s.deliver.world = s.world := by
  rw [deliver]
  split <;> rfl

@[simp] theorem deliver_program (s : Session) : s.deliver.program = s.program := by
  rw [deliver]
  split <;> rfl

theorem next_machine_of_due? (h : s.due? = some i) :
    s.next.machine = (execute i (s.scene i)).1.machine := by
  rw [next_of_due? h, deliver_machine]
  rfl

theorem next_world_of_due? (h : s.due? = some i) :
    s.next.world = (execute i (s.scene i)).1.world := by
  rw [next_of_due? h, deliver_world]
  rfl

/-- A run goes on only after an instruction without a fault. -/
theorem exists_execute (hdue : s.due? = some i) (hnext : s.next.running = true) :
    ∃ t, execute i (s.scene i) = (t, none) ∧ s.next.machine = t.machine ∧
      s.next.world = t.world := by
  cases hfault : (execute i (s.scene i)).2 with
  | some f =>
    have hstopped := running_of_execute_fault hfault
    rw [running, next_machine_of_due? hdue, hstopped] at hnext
    exact absurd hnext (by simp)
  | none =>
    exact ⟨_, Prod.ext rfl hfault, next_machine_of_due? hdue, next_world_of_due? hdue⟩

theorem exists_performed (hdue : s.due? = some i) (hnext : s.next.running = true) :
    ∃ t, Performed i (s.scene i) t ∧ s.next.machine = t.machine ∧ s.next.world = t.world := by
  obtain ⟨t, ht, hmachine, hworld⟩ := exists_execute hdue hnext
  exact ⟨t, performed_of_execute ht, hmachine, hworld⟩

/-- A session that runs after a step had an instruction to execute. -/
theorem exists_due? (h : s.next.running = true) : ∃ i, s.due? = some i := by
  cases hdue : s.due? with
  | none =>
    rw [running_next_of_due?_eq_none hdue] at h
    exact absurd h (by simp)
  | some i => exact ⟨i, rfl⟩

/-- A run that goes on has been running. -/
theorem running_of_next (h : s.next.running = true) : s.running = true := by
  obtain ⟨i, hdue⟩ := exists_due? h
  exact running_of_due? hdue

theorem running_after_of_le {m n : Nat} (hmn : m ≤ n) (h : (s.after n).running = true) :
    (s.after m).running = true := by
  induction n with
  | zero =>
    obtain rfl : m = 0 := by omega
    exact h
  | succ n ih =>
    by_cases hm : m = n + 1
    · rw [hm]
      exact h
    · exact ih (by omega) (running_of_next h)

/-- A session that a step does not change stays as it is. -/
theorem after_add_of_fixed {n : Nat} (h : (s.after n).next = s.after n) (d : Nat) :
    s.after (n + d) = s.after n := by
  induction d with
  | zero => rfl
  | succ d ih =>
    show (s.after (n + d)).next = s.after n
    rw [ih, h]

/-- No step changes the program. -/
theorem next_program (s : Session) : s.next.program = s.program := by
  rw [next]
  split
  · split
    · rfl
    · split
      · rfl
      · rw [deliver_program]
        rfl
  · rfl

end Session

/-- No instruction changes the capacity of the stack. -/
theorem Performed.capacity {i : Instruction} {s t : Scene} (h : Performed i s t) :
    t.machine.stack.capacity = s.machine.stack.capacity := by
  cases h with
  | computed _ _ _ hcapacity _ _ => exact hcapacity
  | branched _ hcapacity _ => exact hcapacity
  | called _ _ _ _ hcapacity _ _ => exact hcapacity
  | _ => rfl

/-- No action of the robot changes the limits. -/
@[simp] theorem World.perform_limits (w : World) (a : Action) : (w.perform a).limits = w.limits := by
  cases a with
  | forward | left => rfl
  | pickBuzzer =>
    simp only [World.perform, World.pick]
    split
    · rfl
    · split <;> rfl
  | leaveBuzzer =>
    simp only [World.perform, World.leave]
    split
    · rfl
    · split <;> rfl

namespace Performed

variable {i : Instruction} {s t : Scene}

/-- No instruction changes the limits. -/
theorem limits (h : Performed i s t) : t.world.limits = s.world.limits := by
  cases h with
  | acted => exact World.perform_limits _ _
  | _ => rfl

/-- Instructions are counted before they are executed. -/
theorem instructionCount (h : Performed i s t) :
    t.machine.instructionCount = s.machine.instructionCount := by
  cases h <;> rfl

/-- Only instructions that consume budget and returns leave the sequence of the program. -/
theorem pc (h : Performed i s t) :
    t.machine.pc = s.machine.pc ∨ i.consumesBudget = true ∨ i = .ret ∧ s.machine.fp ≠ none := by
  cases h with
  | jumped | branched | called => exact .inr (.inl rfl)
  | returned hfp => exact .inr (.inr ⟨rfl, by simp [hfp]⟩)
  | _ => exact .inl rfl

/-- A call opens a level, a return closes one, and nothing else changes the depth. -/
theorem callDepth (h : Performed i s t) :
    (∃ target function, i = .call target function) ∧
        t.machine.callDepth = s.machine.callDepth + 1 ∨
      (i = .ret ∧ s.machine.fp ≠ none) ∧ t.machine.callDepth = s.machine.callDepth - 1 ∨
      ¬ (i = .ret ∧ s.machine.fp ≠ none) ∧ t.machine.callDepth = s.machine.callDepth := by
  cases h with
  | called => exact .inl ⟨⟨_, _, rfl⟩, rfl⟩
  | returned hfp => exact .inr (.inl ⟨⟨rfl, by simp [hfp]⟩, rfl⟩)
  | computed _ _ hret => exact .inr (.inr ⟨fun h => hret h.1, rfl⟩)
  | acted ha =>
    refine .inr (.inr ⟨?_, rfl⟩)
    rintro ⟨rfl, -⟩
    simp [Instruction.action?] at ha
  | ended hi =>
    refine .inr (.inr ⟨?_, rfl⟩)
    rintro ⟨rfl, hfp⟩
    simp at hi
    exact hfp hi
  | jumped | branched | entered => exact .inr (.inr ⟨by simp, rfl⟩)

end Performed

namespace Session

variable {s : Session}

/-- The capacity of the stack stays the same during a run. -/
theorem capacity_after {n : Nat} (h : (s.after n).running = true) :
    (s.after n).machine.stack.capacity = s.machine.stack.capacity := by
  induction n with
  | zero => rfl
  | succ n ih =>
    obtain ⟨i, hdue⟩ := exists_due? h
    obtain ⟨t, ht, hmachine, -⟩ := exists_performed hdue h
    have hnext : (s.after (n + 1)).machine = t.machine := hmachine
    rw [hnext, ht.capacity]
    exact ih (running_of_due? hdue)

/-- The program stays the same during a run. -/
theorem program_after (s : Session) (n : Nat) : (s.after n).program = s.program := by
  induction n with
  | zero => rfl
  | succ n ih => exact (next_program _).trans ih

/-- The limits stay the same during a run. -/
theorem limits_after {n : Nat} (h : (s.after n).running = true) :
    (s.after n).world.limits = s.world.limits := by
  induction n with
  | zero => rfl
  | succ n ih =>
    obtain ⟨i, hdue⟩ := exists_due? h
    obtain ⟨t, ht, -, hworld⟩ := exists_performed hdue h
    have hnext : (s.after (n + 1)).world = t.world := hworld
    rw [hnext, ht.limits]
    exact ih (running_of_due? hdue)

/-- What the parameter instruction pushes. -/
theorem push_of_param {k : UInt32} (hdue : s.due? = some (.param k))
    (hnext : s.next.running = true) :
    ∃ fp v, s.machine.fp = some fp ∧ s.machine.stack.get (fp + paramSlot + k.toNat) = .ok v ∧
      s.machine.stack.push v = .ok s.next.machine.stack := by
  obtain ⟨t, ht, hmachine, -⟩ := exists_execute hdue hnext
  have hparam : (s.scene (.param k)).pushParam k = (t, none) := Effect.recorded_eq_none_iff.1 ht
  rw [Scene.pushParam] at hparam
  split at hparam
  · simp [Scene.failed] at hparam
  · rename_i fp hfp
    split at hparam
    · rename_i v hget
      obtain ⟨stack, hpush, rfl⟩ := Scene.onStack_eq_none_iff.1 hparam
      rw [hmachine]
      exact ⟨fp, v, hfp, hget, hpush⟩
    · simp [Scene.failed] at hparam

end Session

end GridRobot
