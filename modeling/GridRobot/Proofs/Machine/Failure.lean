import GridRobot.Proofs.Machine.Step

/-!
# Instructions that raise a fault, and the cases of a step

`Failed i s f t` lists all that an instruction can have done when it raises the fault `f`, and
`failed_of_execute` says that the list is complete. Together with `Performed` it gives the five
cases of a step (`Session.stepped_next`): what holds along every run, up to its last step and
beyond, is proved from them.
-/

set_option autoImplicit false

namespace GridRobot

/-- What an instruction leaves behind that raises a fault, before the fault is recorded. -/
inductive Failed : Instruction → Scene → Fault → Scene → Prop
  /-- Operands may be gone, and a frame may have been pushed in part. -/
  | interrupted {i : Instruction} {s : Scene} {f : Fault} {stack : Stack}
      (haction : i.action? = none) (hcapacity : stack.capacity = s.machine.stack.capacity) :
      Failed i s f (s.withStack stack)
  /-- The action that exceeds its cap has been performed. -/
  | overCap {i : Instruction} {s : Scene} {a : Action} {cap : UInt64} (ha : i.action? = some a)
      (hcap : s.world.limits.caps.get a = some cap)
      (hcount : cap.toNat < s.machine.counters.get a + 1) :
      Failed i s .instruction
        { s with
          world := s.world.perform a
          machine :=
            { s.machine with
              counters := s.machine.counters.set a (s.machine.counters.get a + 1) } }
  /-- The call that reaches the depth limit has opened its frame. -/
  | tooDeep {s : Scene} {target : UInt64} {function : Nat} {param : Int32} {below : List Int32}
      {stack : Stack} (hparam : s.machine.stack.words = param :: below)
      (hheight : below.length < wordBound)
      (hcapacity : stack.capacity = s.machine.stack.capacity)
      (hdepth : s.world.limits.maxCallDepth.toNat ≤ s.machine.callDepth + 1) :
      Failed (.call target function) s .stack
        { s with
          machine :=
            { s.machine with
              fp := some below.length
              pc := target.toNat
              stack
              callDepth := s.machine.callDepth + 1 } }

/-! ## The parts of an instruction -/

theorem Effect.recorded_eq_some_iff {e : Effect} {t : Scene} {f : Fault} :
    Effect.recorded e = (t, some f) ↔
      ∃ u, e = (u, some f) ∧ t = { u with machine := u.machine.raise f } := by
  obtain ⟨s, g⟩ := e
  cases g with
  | none => simp [Effect.recorded]
  | some g =>
    simp only [Effect.recorded, Prod.mk.injEq, Option.some.injEq]
    constructor
    · rintro ⟨rfl, rfl⟩
      exact ⟨s, ⟨rfl, rfl⟩, rfl⟩
    · rintro ⟨u, ⟨rfl, rfl⟩, rfl⟩
      exact ⟨rfl, rfl⟩

namespace Scene

variable {s t : Scene} {f : Fault}

/-- Nothing but the words on the stack differs. -/
def SameButWords (s t : Scene) : Prop :=
  ∃ stack : Stack, stack.capacity = s.machine.stack.capacity ∧ t = s.withStack stack

theorem SameButWords.refl (s : Scene) : s.SameButWords s :=
  ⟨s.machine.stack, rfl, rfl⟩

theorem SameButWords.of_withStack {stack : Stack} (h : (s.withStack stack).SameButWords t)
    (hcapacity : stack.capacity = s.machine.stack.capacity) : s.SameButWords t := by
  obtain ⟨stack', hcapacity', rfl⟩ := h
  exact ⟨stack', hcapacity'.trans hcapacity, rfl⟩

theorem sameButWords_of_failed {g : Fault} (h : s.failed g = (t, some f)) : s.SameButWords t := by
  obtain rfl : s = t := congrArg Prod.fst h
  exact .refl s

theorem sameButWords_of_onStack {result : Except StackError Stack}
    (h : s.onStack result = (t, some f)) : s.SameButWords t := by
  cases result with
  | ok stack => simp [onStack, done] at h
  | error e => exact sameButWords_of_failed h

/-- Taking the top word changes nothing else, if what is done with it does not. -/
theorem sameButWords_of_popThen {next : Int32 → Scene → Effect}
    (hnext : ∀ v stack, next v (s.withStack stack) = (t, some f) →
      (s.withStack stack).SameButWords t)
    (h : s.popThen next = (t, some f)) : s.SameButWords t := by
  rw [popThen] at h
  split at h
  · rename_i v stack hpop
    exact (hnext v stack h).of_withStack (Stack.pop_eq_ok_iff.1 hpop).2
  · exact sameButWords_of_failed h

theorem sameButWords_of_pushAll {words : List Int32} (h : s.pushAll words = (t, some f)) :
    s.SameButWords t := by
  induction words generalizing s with
  | nil => simp [pushAll, done] at h
  | cons v rest ih =>
    rw [pushAll] at h
    split at h
    · rename_i u hpush
      obtain ⟨stack, rfl, -, hcapacity⟩ := words_of_push hpush
      exact (ih h).of_withStack hcapacity
    · exact sameButWords_of_onStack h

theorem sameButWords_of_binary {op : Int32 → Int32 → Int32} (h : s.binary op = (t, some f)) :
    s.SameButWords t := by
  apply sameButWords_of_popThen _ h
  intro rhs stack h
  apply sameButWords_of_popThen _ h
  intro lhs stack' h
  exact sameButWords_of_onStack h

theorem sameButWords_of_pushParam {k : UInt32} (h : s.pushParam k = (t, some f)) :
    s.SameButWords t := by
  rw [pushParam] at h
  split at h
  · exact sameButWords_of_failed h
  · split at h
    · exact sameButWords_of_onStack h
    · exact sameButWords_of_failed h

theorem sameButWords_of_drop (h : (s.popThen fun _ s => s.done) = (t, some f)) :
    s.SameButWords t := by
  apply sameButWords_of_popThen _ h
  intro v stack h
  simp [done] at h

theorem sameButWords_of_assertNonzero {c : Condition} (h : s.assertNonzero c = (t, some f)) :
    s.SameButWords t := by
  rw [assertNonzero] at h
  split at h
  · split at h
    · exact sameButWords_of_failed h
    · exact sameButWords_of_drop h
  · exact sameButWords_of_failed h

theorem sameButWords_of_jump {offset : Int32} (h : s.jump offset = (t, some f)) :
    s.SameButWords t := by
  rw [jump] at h
  split at h
  · simp [done] at h
  · exact sameButWords_of_failed h

theorem sameButWords_of_jz {offset : Int32}
    (h : (s.popThen fun v s => if v = 0 then s.jump offset else s.done) = (t, some f)) :
    s.SameButWords t := by
  apply sameButWords_of_popThen _ h
  intro v stack h
  split at h
  · exact sameButWords_of_jump h
  · simp [done] at h

theorem sameButWords_of_ret (h : s.ret = (t, some f)) : s.SameButWords t := by
  rw [ret] at h
  split at h
  · simp [done] at h
  · simp only at h
    split at h
    · split at h
      · simp [done] at h
      · exact sameButWords_of_failed h
    · exact sameButWords_of_failed h

end Scene

section Failed

variable {i : Instruction} {s t : Scene} {f : Fault}

theorem Scene.SameButWords.failed (h : s.SameButWords t) (haction : i.action? = none) :
    Failed i s f t := by
  obtain ⟨stack, hcapacity, rfl⟩ := h
  exact .interrupted haction hcapacity

theorem failed_of_act {a : Action} (ha : i.action? = some a) (h : s.act a = (t, some f)) :
    Failed i s f t := by
  rw [Scene.act] at h
  dsimp only at h
  split at h
  · rename_i cap hcap
    split at h
    · rename_i hcount
      obtain ⟨rfl, hfault⟩ := Prod.mk.inj h
      obtain rfl := Option.some.inj hfault
      exact .overCap ha hcap hcount
    · simp [Scene.done] at h
  · simp [Scene.done] at h

theorem failed_of_call {target : UInt64} {function : Nat}
    (h : s.call target function = (t, some f)) : Failed (.call target function) s f t := by
  rw [Scene.call, Scene.popThen] at h
  split at h
  · rename_i param below hpop
    obtain ⟨hparam, hcapacity⟩ := Stack.pop_eq_ok_iff.1 hpop
    split at h
    · -- a word of the frame does not fit
      exact ((Scene.sameButWords_of_failed h).of_withStack hcapacity).failed rfl
    · rename_i words hframe
      obtain ⟨-, -, hheight, -, -⟩ := frame?_eq_some hframe
      simp only at h
      split at h
      · rename_i u hpush
        obtain ⟨stack, rfl, -, hcapacity'⟩ := Scene.words_of_pushAll hpush
        split at h
        · -- the frame is open, but too deep
          rename_i hdepth
          obtain ⟨rfl, hfault⟩ := Prod.mk.inj h
          obtain rfl := Option.some.inj hfault
          have hlength : below.size = below.words.length := below.size_eq
          have key := @Failed.tooDeep s target function param below.words stack hparam
            (hlength ▸ hheight) (hcapacity'.trans hcapacity) hdepth
          rw [← hlength] at key
          exact key
        · simp [Scene.done] at h
      · -- the stack is full
        exact ((Scene.sameButWords_of_pushAll h).of_withStack hcapacity).failed rfl
  · exact (Scene.sameButWords_of_failed h).failed rfl

/-- What is said of an instruction before its fault is recorded. -/
theorem exists_failed {e : Effect} (h : Effect.recorded e = (t, some f))
    (hfailed : ∀ u, e = (u, some f) → Failed i s f u) :
    ∃ u, Failed i s f u ∧ t = { u with machine := u.machine.raise f } := by
  obtain ⟨u, hu, rfl⟩ := Effect.recorded_eq_some_iff.1 h
  exact ⟨u, hfailed u hu, rfl⟩

/-- The cases of `Failed` are all that an instruction can have done when it raises a fault. -/
theorem failed_of_execute (h : execute i s = (t, some f)) :
    ∃ u, Failed i s f u ∧ t = { u with machine := u.machine.raise f } := by
  cases i with
  | load v | worldWalls | orientation | worldBuzzers | bagBuzzers | dup | dec | inc | rotl | rotr
  | mask | not =>
    exact exists_failed h fun u hu => (Scene.sameButWords_of_onStack hu).failed rfl
  | and | or | eq =>
    exact exists_failed h fun u hu => (Scene.sameButWords_of_binary hu).failed rfl
  | forward | left | pickBuzzer | leaveBuzzer =>
    exact exists_failed h fun u hu => failed_of_act rfl hu
  | pop => exact exists_failed h fun u hu => (Scene.sameButWords_of_drop hu).failed rfl
  | ez c => exact exists_failed h fun u hu => (Scene.sameButWords_of_assertNonzero hu).failed rfl
  | param k => exact exists_failed h fun u hu => (Scene.sameButWords_of_pushParam hu).failed rfl
  | jz offset => exact exists_failed h fun u hu => (Scene.sameButWords_of_jz hu).failed rfl
  | jmp offset => exact exists_failed h fun u hu => (Scene.sameButWords_of_jump hu).failed rfl
  | call target function => exact exists_failed h fun u hu => failed_of_call hu
  | ret => exact exists_failed h fun u hu => (Scene.sameButWords_of_ret hu).failed rfl
  | unknown name =>
    have hrecorded : Effect.recorded (s.failed .invalidOpcode) = (t, some f) := h
    exact exists_failed hrecorded fun u hu => (Scene.sameButWords_of_failed hu).failed rfl
  | halt | line n =>
    have hfault : none = some f := congrArg Prod.snd h
    exact absurd hfault (by simp)

end Failed

/-! ## The cases of a step -/

namespace Session

/-- The session with another scene. -/
def withScene (s : Session) (t : Scene) : Session :=
  { s with machine := t.machine, world := t.world, queue := t.queue }

/-- All that a step can do. -/
inductive Stepped (s : Session) : Session → Prop
  | idle (hstopped : s.running = false) : Stepped s s
  | finished (hrunning : s.running = true) (hfetch : s.fetch? = none) :
      Stepped s { s with machine := s.machine.halt }
  | refused {i : Instruction} {f : Fault} (hrunning : s.running = true)
      (hfetch : s.fetch? = some i) (hrefusal : s.refusal? = some f) :
      Stepped s { s with machine := s.machine.raise f }
  | performed {i : Instruction} {t : Scene} (hdue : s.due? = some i)
      (h : Performed i (s.scene i) t) : Stepped s (s.withScene t).deliver
  | failed {i : Instruction} {f : Fault} {t : Scene} (hdue : s.due? = some i)
      (h : Failed i (s.scene i) f t) :
      Stepped s (s.withScene { t with machine := t.machine.raise f }).deliver

theorem stepped_next (s : Session) : s.Stepped s.next := by
  cases hdue : s.due? with
  | none =>
    rw [next]
    split
    · rename_i hrunning
      split
      · exact .finished hrunning ‹_›
      · rename_i i hfetch
        split
        · exact .refused hrunning hfetch ‹_›
        · -- an instruction would be due
          rename_i hrefusal
          rw [due?_eq_some_iff.2 ⟨hrunning, hrefusal, hfetch⟩] at hdue
          exact absurd hdue (by simp)
    · rename_i hstopped
      exact .idle (by simpa using hstopped)
  | some i =>
    have hnext : s.next = (s.withScene (execute i (s.scene i)).1).deliver := next_of_due? hdue
    rw [hnext]
    cases hexecute : execute i (s.scene i) with
    | mk t fault =>
      cases fault with
      | none => exact .performed hdue (performed_of_execute hexecute)
      | some f =>
        obtain ⟨u, hu, rfl⟩ := failed_of_execute hexecute
        exact .failed hdue hu

/-- A step that executes nothing finds the run stopped, or ends it where the program ends or a budget
is used up. -/
theorem next_of_due?_eq_none {s : Session} (hdue : s.due? = none) :
    s.next = s ∨ s.next = { s with machine := s.machine.halt } ∨
      ∃ f, s.running = true ∧ s.refusal? = some f ∧
        s.next = { s with machine := s.machine.raise f } := by
  have hstepped := s.stepped_next
  generalize s.next = t at hstepped
  cases hstepped with
  | idle => exact .inl rfl
  | finished => exact .inr (.inl rfl)
  | @refused _ f hrunning _ hrefusal => exact .inr (.inr ⟨f, hrunning, hrefusal, rfl⟩)
  | performed hdue' => exact absurd (hdue.symm.trans hdue') (by simp)
  | failed hdue' => exact absurd (hdue.symm.trans hdue') (by simp)

end Session

end GridRobot
