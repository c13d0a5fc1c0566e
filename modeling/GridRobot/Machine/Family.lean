import GridRobot.Machine.Basic

/-!
# What the instructions do

Instructions fall into five families. Each family says which instructions it claims and how it
executes them; an instruction of another family it refuses, and changes nothing. `dispatch` executes
an instruction by the first family that claims it.

An instruction that raises a fault may have taken operands off the stack before: they stay off.
-/

set_option autoImplicit false

namespace GridRobot

/-- The word of a truth value. -/
def flag (b : Bool) : Int32 :=
  if b then 1 else 0

/-- How many words are not negative. -/
def wordBound : Nat := 2147483648

/-- A position or an address as a stack word, if it fits. -/
def toWord? (n : Nat) : Option Int32 :=
  if n < wordBound then some (Int32.ofNat n) else none

/-- The position or the address that a stack word stands for. -/
def toIndex? (v : Int32) : Option Nat :=
  if 0 ≤ v then some v.toInt.toNat else none

/-- One shifted left by `v`, or zero if that leaves the word. -/
def shiftedOne (v : Int32) : Int32 :=
  if 0 ≤ v ∧ v < 32 then 1 <<< v else 0

/-- Where the active frame keeps its first parameter. -/
def paramSlot : Nat := 3

namespace Scene

/-- The scene as it is, without a fault. -/
def done (s : Scene) : Effect := (s, none)

/-- The scene as it is, with a fault. -/
def failed (s : Scene) (f : Fault) : Effect := (s, some f)

/-- The scene with another stack. -/
def withStack (s : Scene) (stack : Stack) : Scene :=
  { s with machine := { s.machine with stack } }

/-- The scene with the stack that an operation gives, or the fault of its failure. -/
def onStack (s : Scene) (result : Except StackError Stack) : Effect :=
  match result with
  | .ok stack => (s.withStack stack).done
  | .error e => s.failed e.fault

/-- Pushes a word. -/
def push (s : Scene) (v : Int32) : Effect :=
  s.onStack (s.machine.stack.push v)

/-- Replaces the top word. -/
def mapTop (s : Scene) (f : Int32 → Int32) : Effect :=
  s.onStack (s.machine.stack.mapTop f)

/-- Takes the top word and goes on with it. -/
def popThen (s : Scene) (next : Int32 → Scene → Effect) : Effect :=
  match s.machine.stack.pop with
  | .ok (v, stack) => next v (s.withStack stack)
  | .error e => s.failed e.fault

/-- Replaces the two top words by a function of them; the right operand is on top. -/
def binary (s : Scene) (f : Int32 → Int32 → Int32) : Effect :=
  s.popThen fun rhs s => s.popThen fun lhs s => s.push (f lhs rhs)

/-! ## Operands -/

/-- Pushes parameter `k` of the active frame. -/
def pushParam (s : Scene) (k : UInt32) : Effect :=
  match s.machine.fp with
  | none => s.failed .invalidOpcode
  | some fp =>
    match s.machine.stack.get (fp + paramSlot + k.toNat) with
    | .ok v => s.push v
    | .error e => s.failed e.fault

/-! ## Assertions -/

/-- Raises the condition's fault if the top word is zero, and drops it otherwise. -/
def assertNonzero (s : Scene) (c : Condition) : Effect :=
  match s.machine.stack.peek with
  | .ok v => if v = 0 then s.failed c.fault else s.popThen fun _ s => s.done
  | .error e => s.failed e.fault

/-! ## The robot -/

/-- Performs an action and counts it. The fault of an action beyond its cap is raised after the
action has been performed. -/
def act (s : Scene) (a : Action) : Effect :=
  let count := s.machine.counters.get a + 1
  let cap := s.world.limits.caps.get a
  let s :=
    { s with
      world := s.world.perform a
      machine := { s.machine with counters := s.machine.counters.set a count } }
  match cap with
  | some cap => if cap.toNat < count then s.failed .instruction else s.done
  | none => s.done

/-! ## Control -/

/-- The address `offset` instructions further on. Addresses are 64-bit words and are taken with a
sign here, so that no jump leads before the first instruction. -/
def jumpTarget? (pc : Nat) (offset : Int32) : Option Nat :=
  let target := Int64.ofNat pc + offset.toInt64
  if 0 ≤ target then some target.toInt.toNat else none

/-- Jumps relative to the next instruction. -/
def jump (s : Scene) (offset : Int32) : Effect :=
  match jumpTarget? s.machine.pc offset with
  | some pc => { s with machine := { s.machine with pc } }.done
  | none => s.failed .invalidOpcode

/-- Pushes words in order, up to the first that does not fit. -/
def pushAll (s : Scene) : List Int32 → Effect
  | [] => s.done
  | v :: rest =>
    match s.push v with
    | (s, none) => s.pushAll rest
    | failure => failure

/-- The words of a new frame, from the bottom, on a stack from which the parameter has been taken. -/
def frame? (m : Machine) (param : Int32) : Option (List Int32) := do
  let caller ←
    match m.fp with
    | some fp => toWord? fp
    | none => some (-1)
  return [caller, ← toWord? m.stack.size, ← toWord? m.pc, param]

/-- Opens a frame with the top word as its parameter and goes to the function. A call that reaches
the depth limit raises a fault and is not announced. -/
def call (s : Scene) (target : UInt64) (function : Nat) : Effect :=
  s.popThen fun param s =>
    match frame? s.machine param with
    | none => s.failed .invalidOpcode
    | some words =>
      let base := s.machine.stack.size
      match s.pushAll words with
      | (s, none) =>
        let m :=
          { s.machine with
            fp := some base
            pc := target.toNat
            callDepth := s.machine.callDepth + 1 }
        if s.world.limits.maxCallDepth.toNat ≤ m.callDepth then
          { s with machine := m }.failed .stack
        else
          { s with machine := m, queue := s.queue ++ [Event.call function param m.line] }.done
      | failure => failure

/-- Closes the active frame and goes back to the caller; without a frame the program ends. -/
def ret (s : Scene) : Effect :=
  match s.machine.fp with
  | none => { s with machine := s.machine.halt }.done
  | some fp =>
    let stack := s.machine.stack
    match stack.get fp, stack.get (fp + 1), stack.get (fp + 2) with
    | .ok caller, .ok height, .ok address =>
      match toIndex? height, toIndex? address with
      | some height, some pc =>
        let m :=
          { s.machine with
            pc
            stack := stack.truncate height
            fp := toIndex? caller
            callDepth := s.machine.callDepth - 1 }
        { s with machine := m, queue := s.queue ++ [Event.ret m.line] }.done
      | _, _ => s.failed .invalidOpcode
    | _, _, _ => s.failed .invalidOpcode

end Scene

/-- A family of instructions. -/
inductive Family where
  | stack
  | logic
  | world
  | control
  | misc
  deriving DecidableEq, Repr

namespace Family

/-- The families in the order in which they are asked. -/
def all : List Family := [stack, logic, world, control, misc]

/-- Whether a family executes an instruction. -/
def claims : Family → Instruction → Bool
  | stack, .load _ | stack, .pop | stack, .dup | stack, .dec | stack, .inc | stack, .param _ => true
  | logic, .rotl | logic, .rotr | logic, .mask | logic, .not => true
  | logic, .and | logic, .or | logic, .eq | logic, .ez _ => true
  | world, .forward | world, .left | world, .pickBuzzer | world, .leaveBuzzer => true
  | world, .worldWalls | world, .orientation | world, .worldBuzzers | world, .bagBuzzers => true
  | control, .jz _ | control, .jmp _ | control, .call _ _ | control, .ret => true
  | misc, .halt | misc, .line _ => true
  | _, _ => false

/-- Moves words on the stack. -/
def processStack (i : Instruction) (s : Scene) : Effect :=
  match i with
  | .load v => s.push v
  | .pop => s.popThen fun _ s => s.done
  | .dup => s.onStack s.machine.stack.dup
  | .dec => s.mapTop (· - 1)
  | .inc => s.mapTop (· + 1)
  | .param k => s.pushParam k
  | _ => s.failed .invalidOpcode

/-- Computes with words and asserts. -/
def processLogic (i : Instruction) (s : Scene) : Effect :=
  match i with
  | .rotl => s.mapTop fun v => (v + 3) &&& 3
  | .rotr => s.mapTop fun v => (v + 1) &&& 3
  | .mask => s.mapTop shiftedOne
  | .not => s.mapTop fun v => flag (v = 0)
  | .and => s.binary fun lhs rhs => flag (lhs &&& rhs ≠ 0)
  | .or => s.binary fun lhs rhs => flag (lhs ||| rhs ≠ 0)
  | .eq => s.binary fun lhs rhs => flag (lhs = rhs)
  | .ez c => s.assertNonzero c
  | _ => s.failed .invalidOpcode

/-- Acts in the world and looks at it. -/
def processWorld (i : Instruction) (s : Scene) : Effect :=
  match i with
  | .forward => s.act .forward
  | .left => s.act .left
  | .pickBuzzer => s.act .pickBuzzer
  | .leaveBuzzer => s.act .leaveBuzzer
  | .worldWalls => s.push (Int32.ofNat (s.world.mask s.world.pose.toCell))
  | .orientation => s.push (Int32.ofNat s.world.pose.facing.index)
  | .worldBuzzers => s.push (s.world.pile s.world.pose.toCell)
  | .bagBuzzers => s.push s.world.bag
  | _ => s.failed .invalidOpcode

/-- Jumps, calls and returns. -/
def processControl (i : Instruction) (s : Scene) : Effect :=
  match i with
  | .jmp offset => s.jump offset
  | .jz offset => s.popThen fun v s => if v = 0 then s.jump offset else s.done
  | .call target function => s.call target function
  | .ret => s.ret
  | _ => s.failed .invalidOpcode

/-- Ends the program and follows its source lines. -/
def processMisc (i : Instruction) (s : Scene) : Effect :=
  match i with
  | .halt => { s with machine := s.machine.halt }.done
  | .line n => { s with machine := { s.machine with line := n } }.done
  | _ => s.failed .invalidOpcode

/-- Executes an instruction that the family claims, and refuses every other. -/
def process : Family → Instruction → Scene → Effect
  | stack => processStack
  | logic => processLogic
  | world => processWorld
  | control => processControl
  | misc => processMisc

end Family

/-- Records the fault of an effect in the machine. -/
def Effect.recorded (e : Effect) : Effect :=
  match e with
  | (s, some f) => ({ s with machine := s.machine.raise f }, some f)
  | (s, none) => (s, none)

/-- Executes an instruction by the first of the given families that claims it. -/
def dispatch (families : List Family) (i : Instruction) (s : Scene) : Effect :=
  match families.find? (·.claims i) with
  | some family => Effect.recorded (family.process i s)
  | none => Effect.recorded (s.failed .invalidOpcode)

/-- Executes an instruction. -/
def execute (i : Instruction) (s : Scene) : Effect :=
  dispatch Family.all i s

end GridRobot
