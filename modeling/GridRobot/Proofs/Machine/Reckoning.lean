import GridRobot.Proofs.Machine.Step

/-!
# Calculations on the stack

A check of the world is a sequence of instructions that push what they see and reduce it to one word.
`Instruction.reckon?` says, without the machine, what such an instruction makes of the words that the
calculation has pushed so far. `execute_of_reckon?` says that the machine does the same and touches
nothing below these words, and `Session.KeepsTo.reckons` extends this to whole sequences.

A session reckons for `n` steps if these steps have changed its stack and its address only. Whether it
then executes the next instruction of a sequence can be known from the program (`Session.Ahead`) or
from the run (`Session.Executes`); both are ways to keep to the sequence (`Session.KeepsTo`).
-/

set_option autoImplicit false

namespace GridRobot

/-- The stack with further words on top, the first of them uppermost. -/
def Stack.topped (base : Stack) (top : List Int32) : Stack :=
  { capacity := base.capacity
    words := top ++ base.words
    size := top.length + base.size
    size_eq := by rw [List.length_append, base.size_eq] }

namespace Stack

variable {base : Stack} {top : List Int32} {v : Int32}

theorem topped_nil (base : Stack) : base.topped [] = base :=
  ext rfl rfl

theorem push_topped (h : base.size + top.length < base.capacity) :
    (base.topped top).push v = .ok (base.topped (v :: top)) := by
  refine push_eq_ok_iff.2 ⟨?_, rfl, rfl⟩
  show top.length + base.size < base.capacity
  omega

theorem pop_topped : (base.topped (v :: top)).pop = .ok (v, base.topped top) :=
  pop_eq_ok_iff.2 ⟨rfl, rfl⟩

theorem mapTop_topped (f : Int32 → Int32) :
    (base.topped (v :: top)).mapTop f = .ok (base.topped (f v :: top)) := by
  rw [mapTop]
  split
  · rename_i hnil
    exact absurd hnil (by simp [topped])
  · rename_i u rest hcons
    obtain ⟨rfl, rfl⟩ : v = u ∧ top ++ base.words = rest := List.cons.inj hcons
    exact congrArg Except.ok (ext rfl rfl)

end Stack

/-- The word pushed onto a calculation, if there is room for it. -/
def pushWithin? (free : Nat) (v : Int32) (top : List Int32) : Option (List Int32) :=
  if top.length < free then some (v :: top) else none

/-- What an instruction of a calculation makes of the words that have been pushed so far, where there
is room for `free` words. -/
def Instruction.reckon? (w : World) (free : Nat) : Instruction → List Int32 → Option (List Int32)
  | .worldWalls, top => pushWithin? free (Int32.ofNat (w.mask w.pose.toCell)) top
  | .orientation, top => pushWithin? free (Int32.ofNat w.pose.facing.index) top
  | .rotl, v :: top => some (((v + 3) &&& 3) :: top)
  | .rotr, v :: top => some (((v + 1) &&& 3) :: top)
  | .mask, v :: top => some (shiftedOne v :: top)
  | .not, v :: top => some (flag (v = 0) :: top)
  | .and, rhs :: lhs :: top => pushWithin? free (flag (lhs &&& rhs ≠ 0)) top
  | .ez _, v :: top => if v = 0 then none else some top
  | _, _ => none

/-- What a sequence of instructions makes of the words that have been pushed so far. -/
def reckonAll? (w : World) (free : Nat) : List Instruction → List Int32 → Option (List Int32)
  | [], top => some top
  | i :: is, top => (i.reckon? w free top).bind (reckonAll? w free is)

theorem reckonAll?_append (w : World) (free : Nat) (is js : List Instruction) (top : List Int32) :
    reckonAll? w free (is ++ js) top = (reckonAll? w free is top).bind (reckonAll? w free js) := by
  induction is generalizing top with
  | nil => rfl
  | cons i is ih =>
    show (i.reckon? w free top).bind _ = ((i.reckon? w free top).bind _).bind _
    rw [Option.bind_assoc]
    congr
    funext top'
    exact ih top'

section Execute

variable {c : Scene} {base : Stack} {free : Nat} {i : Instruction} {top top' : List Int32} {v : Int32}

theorem Scene.push_of_pushWithin? (hstack : c.machine.stack = base.topped top)
    (hroom : base.size + free ≤ base.capacity) (h : pushWithin? free v top = some top') :
    c.push v = (c.withStack (base.topped top'), none) := by
  rw [pushWithin?] at h
  split at h
  · rename_i hlt
    obtain rfl := Option.some.inj h
    rw [Scene.push, hstack, Stack.push_topped (by omega)]
    rfl
  · exact absurd h (by simp)

theorem Scene.mapTop_of_topped (hstack : c.machine.stack = base.topped (v :: top)) (f : Int32 → Int32) :
    c.mapTop f = (c.withStack (base.topped (f v :: top)), none) := by
  rw [Scene.mapTop, hstack, Stack.mapTop_topped]
  rfl

theorem Scene.popThen_of_topped (hstack : c.machine.stack = base.topped (v :: top))
    (next : Int32 → Scene → Effect) :
    c.popThen next = next v (c.withStack (base.topped top)) := by
  rw [Scene.popThen, hstack, Stack.pop_topped]

theorem Scene.binary_of_pushWithin? {lhs rhs : Int32} {f : Int32 → Int32 → Int32}
    (hstack : c.machine.stack = base.topped (rhs :: lhs :: top))
    (hroom : base.size + free ≤ base.capacity)
    (h : pushWithin? free (f lhs rhs) top = some top') :
    c.binary f = (c.withStack (base.topped top'), none) := by
  rw [Scene.binary, Scene.popThen_of_topped hstack, Scene.popThen_of_topped rfl]
  exact Scene.push_of_pushWithin? rfl hroom h

theorem Scene.assertNonzero_of_topped (hstack : c.machine.stack = base.topped (v :: top)) (hv : v ≠ 0)
    (condition : Condition) :
    c.assertNonzero condition = (c.withStack (base.topped top), none) := by
  have hpeek : c.machine.stack.peek = .ok v := by
    rw [hstack]
    rfl
  rw [Scene.assertNonzero, hpeek]
  simp only [if_neg hv]
  rw [Scene.popThen_of_topped hstack]
  rfl

/-- The machine calculates what `Instruction.reckon?` says, and changes nothing but its stack. -/
theorem execute_of_reckon? (hstack : c.machine.stack = base.topped top)
    (hroom : base.size + free ≤ base.capacity) (h : i.reckon? c.world free top = some top') :
    execute i c = (c.withStack (base.topped top'), none) := by
  -- an instruction that lacks its operands among the pushed words is no part of a calculation
  cases i with
  | worldWalls | orientation =>
    exact Effect.recorded_eq_none_iff.2 (Scene.push_of_pushWithin? hstack hroom h)
  | rotl | rotr | mask | not =>
    cases top with
    | nil => exact absurd h (by simp [Instruction.reckon?])
    | cons v top =>
      obtain rfl := Option.some.inj h
      exact Effect.recorded_eq_none_iff.2 (Scene.mapTop_of_topped hstack _)
  | and =>
    rcases top with _ | ⟨rhs, _ | ⟨lhs, top⟩⟩
    · exact absurd h (by simp [Instruction.reckon?])
    · exact absurd h (by simp [Instruction.reckon?])
    · exact Effect.recorded_eq_none_iff.2 (Scene.binary_of_pushWithin? hstack hroom h)
  | ez condition =>
    cases top with
    | nil => exact absurd h (by simp [Instruction.reckon?])
    | cons v top =>
      simp only [Instruction.reckon?, Option.ite_none_left_eq_some, Option.some.injEq] at h
      obtain ⟨hv, rfl⟩ := h
      exact Effect.recorded_eq_none_iff.2 (Scene.assertNonzero_of_topped hstack hv condition)
  | _ => exact absurd h (by simp [Instruction.reckon?])

/-- Calculations are free of charge. -/
theorem Instruction.consumesBudget_of_reckon? {w : World} (h : i.reckon? w free top = some top') :
    i.consumesBudget = false := by
  cases i with
  | worldWalls | orientation | rotl | rotr | mask | not | and | ez condition => rfl
  | _ => exact absurd h (by simp [Instruction.reckon?])

end Execute

namespace Session

variable {s : Session} {n free : Nat} {i : Instruction} {is : List Instruction}
  {top top' : List Int32}

/-- A number of steps has pushed words and has changed nothing else of the machine but its address,
and nothing of the world. -/
structure Reckons (s : Session) (n : Nat) (top : List Int32) : Prop where
  machine : (s.after n).machine =
    { s.machine with pc := s.machine.pc + n, stack := s.machine.stack.topped top }
  world : (s.after n).world = s.world

theorem reckons_zero (s : Session) : s.Reckons 0 [] := by
  refine ⟨?_, rfl⟩
  rw [Stack.topped_nil]
  rfl

/-- One instruction of a calculation. -/
theorem Reckons.step (h : s.Reckons n top)
    (hroom : s.machine.stack.size + free ≤ s.machine.stack.capacity)
    (hdue : (s.after n).due? = some i) (hi : i.reckon? s.world free top = some top') :
    s.Reckons (n + 1) top' := by
  have hstack : ((s.after n).scene i).machine.stack = s.machine.stack.topped top :=
    congrArg Machine.stack h.machine
  have hexecute := execute_of_reckon? hstack hroom (h.world.symm ▸ hi)
  refine ⟨?_, ?_⟩
  · show (s.after n).next.machine = _
    rw [next_machine_of_due? hdue, hexecute]
    show { advanced (s.after n).machine i with stack := s.machine.stack.topped top' } = _
    rw [advanced, Instruction.consumesBudget_of_reckon? hi, h.machine]
    rfl
  · show (s.after n).next.world = _
    rw [next_world_of_due? hdue, hexecute]
    exact h.world

/-- As long as the session has only calculated, it executes the instructions of a sequence in order. -/
def KeepsTo (s : Session) (is : List Instruction) : Prop :=
  ∀ k i top, is[k]? = some i → s.Reckons k top → (s.after k).due? = some i

/-- A sequence of instructions stands at the address of the machine. -/
def Ahead (s : Session) (is : List Instruction) : Prop :=
  ∀ k < is.length, s.program.code[s.machine.pc + k]? = is[k]?

/-- The next steps execute the instructions of a sequence. -/
def Executes (s : Session) (is : List Instruction) : Prop :=
  ∀ k < is.length, (s.after k).due? = is[k]?

theorem Executes.keepsTo (h : s.Executes is) : s.KeepsTo is := by
  intro k i top hi hreckons
  have hlt : k < is.length := (List.getElem?_eq_some_iff.1 hi).1
  exact (h k hlt).trans hi

/-- A calculation uses up no budget, so that a session that has begun one can go on with it. -/
theorem Ahead.keepsTo (h : s.Ahead is) (hrunning : s.running = true) (hrefusal : s.refusal? = none) :
    s.KeepsTo is := by
  intro k i top hi hreckons
  have hlt : k < is.length := (List.getElem?_eq_some_iff.1 hi).1
  have hmachine := hreckons.machine
  refine due?_eq_some_iff.2 ⟨?_, ?_, ?_⟩
  · rw [running, hmachine]
    exact hrunning
  · rw [refusal?, hmachine, hreckons.world]
    exact hrefusal
  · rw [fetch?, hmachine, program_after]
    exact (h k hlt).trans hi

theorem KeepsTo.of_append {js : List Instruction} (h : s.KeepsTo (is ++ js)) : s.KeepsTo is := by
  intro k i top hi hreckons
  have hlt : k < is.length := (List.getElem?_eq_some_iff.1 hi).1
  exact h k i top ((List.getElem?_append_left hlt).trans hi) hreckons

/-- A sequence of instructions that is kept to calculates what `reckonAll?` says. -/
theorem KeepsTo.reckons (h : s.KeepsTo is)
    (hroom : s.machine.stack.size + free ≤ s.machine.stack.capacity)
    (hall : reckonAll? s.world free is [] = some top) : s.Reckons is.length top := by
  -- the sequence is split into what has been executed and the rest
  have hrest : ∀ (rest done : List Instruction) (mid : List Int32), is = done ++ rest →
      s.Reckons done.length mid → reckonAll? s.world free rest mid = some top →
      s.Reckons is.length top := by
    intro rest
    induction rest with
    | nil =>
      intro done mid his hmid hall
      obtain rfl := Option.some.inj hall
      rw [his, List.append_nil]
      exact hmid
    | cons i rest ih =>
      intro done mid his hmid hall
      obtain ⟨mid', hi, hall⟩ := Option.bind_eq_some_iff.1 hall
      have hdue : (s.after done.length).due? = some i := by
        refine h done.length i mid ?_ hmid
        rw [his]
        simp
      refine ih (done ++ [i]) mid' (by simp [his]) ?_ hall
      rw [List.length_append]
      exact hmid.step hroom hdue hi
  exact hrest is [] [] rfl s.reckons_zero hall

/-- An assertion about a zero stops the machine. -/
theorem Reckons.refuted {condition : Condition} (h : s.Reckons n (0 :: top))
    (hdue : (s.after n).due? = some (.ez condition)) :
    (s.after (n + 1)).machine =
        Machine.raise
          { s.machine with
            pc := s.machine.pc + (n + 1)
            stack := s.machine.stack.topped (0 :: top) }
          condition.fault ∧
      (s.after (n + 1)).world = s.world := by
  have hexecute : execute (.ez condition) ((s.after n).scene (.ez condition)) =
      Effect.recorded (((s.after n).scene (.ez condition)).failed condition.fault) := by
    refine congrArg Effect.recorded ?_
    have hpeek : ((s.after n).scene (.ez condition)).machine.stack.peek = .ok 0 := by
      have hstack : ((s.after n).scene (.ez condition)).machine.stack =
          s.machine.stack.topped (0 :: top) := congrArg Machine.stack h.machine
      rw [hstack]
      rfl
    show Scene.assertNonzero _ condition = _
    rw [Scene.assertNonzero, hpeek]
    rfl
  refine ⟨?_, ?_⟩
  · show (s.after n).next.machine = _
    rw [next_machine_of_due? hdue, hexecute]
    show Machine.raise (advanced (s.after n).machine (.ez condition)) condition.fault = _
    rw [h.machine]
    rfl
  · show (s.after n).next.world = _
    rw [next_world_of_due? hdue, hexecute]
    exact h.world

end Session

end GridRobot
