import GridRobot.Proofs.Machine.Range
import GridRobot.Proofs.Session.Reset

/-!
# No number overflows

A session is driven on, reset and given other programs in any order, and between two calls its world
and the limits of its world may become anything (`Session.Reachable`). The numbers of its machine stay
in range all along (`Session.Reachable.inRange`). Hence the next instruction computes no number that
does not fit: neither the next address nor the target of a jump, neither a counter nor the depth, nor
the position of a parameter (`Session.StepInRange`).

The words of a frame are narrower than what they stand for. A call writes a number as it is or raises
a fault (`Session.CallExact`), and so does a return with the words it reads
(`Session.ReturnExact`).
-/

set_option autoImplicit false

namespace GridRobot

/-! ## Frames -/

/-- The number that a frame keeps for the frame of its caller. -/
def Machine.link (m : Machine) : Int :=
  match m.fp with
  | some fp => fp
  | none => -1

theorem linkWord?_eq_some_iff {m : Machine} {v : Int32} :
    linkWord? m.fp = some v ↔ v.toInt = m.link := by
  rw [Machine.link]
  cases m.fp with
  | none =>
    rw [linkWord?, Option.some.injEq]
    constructor
    · rintro rfl
      rfl
    · intro hv
      exact Int32.toInt_inj.1 hv.symm
  | some fp => exact toWord?_eq_some_iff_toInt

/-- A frame can be written if its three numbers have words. -/
theorem exists_frame? {m : Machine} (param : Int32) (hfp : ∀ fp ∈ m.fp, fp < wordBound)
    (hsize : m.stack.size < wordBound) (hpc : m.pc < wordBound) :
    ∃ words, Scene.frame? m param = some words := by
  cases hm : m.fp with
  | none => simp [Scene.frame?, hm, toWord?, hsize, hpc]
  | some fp => simp [Scene.frame?, hm, toWord?, hsize, hpc, hfp fp hm]

namespace Scene

variable {s : Scene}

/-- Words are pushed in order until one does not fit. -/
theorem pushAll_words (s : Scene) (words : List Int32) :
    ∃ written,
      (s.pushAll words).1.machine.stack.words =
        (words.take written).reverse ++ s.machine.stack.words ∧
      ((s.pushAll words).2 = none → written = words.length) := by
  induction words generalizing s with
  | nil => exact ⟨0, rfl, fun _ => rfl⟩
  | cons v rest ih =>
    cases hpush : s.machine.stack.push v with
    | error e =>
      have hfailed : s.pushAll (v :: rest) = s.failed e.fault := by
        rw [pushAll, push, hpush]
        rfl
      rw [hfailed]
      exact ⟨0, rfl, fun hnone => absurd hnone (by simp [failed])⟩
    | ok stack =>
      have hpushed : s.pushAll (v :: rest) = (s.withStack stack).pushAll rest := by
        rw [pushAll, push, hpush]
        rfl
      have hwords : (s.withStack stack).machine.stack.words = v :: s.machine.stack.words :=
        (Stack.push_eq_ok_iff.1 hpush).2.1
      obtain ⟨written, htaken, hall⟩ := ih (s.withStack stack)
      rw [hpushed]
      refine ⟨written + 1, ?_, ?_⟩
      · rw [htaken, hwords]
        simp
      · intro hnone
        rw [hall hnone, List.length_cons]

section Call

variable (target : UInt64) (function : Nat) {param : Int32} {rest : Stack}
  (hpop : s.machine.stack.pop = .ok (param, rest))

include hpop

theorem call_of_frame?_eq_none (hframe : frame? (s.withStack rest).machine param = none) :
    (s.call target function).2 = some .invalidOpcode := by
  rw [call, popThen, hpop]
  dsimp only
  rw [hframe]
  rfl

/-- A call that can write its frame leaves the stack that pushing the frame leaves. -/
theorem stack_of_call {words : List Int32}
    (hframe : frame? (s.withStack rest).machine param = some words) :
    (s.call target function).1.machine.stack =
      ((s.withStack rest).pushAll words).1.machine.stack ∧
    ((s.call target function).2 = none → ((s.withStack rest).pushAll words).2 = none) := by
  rw [call, popThen, hpop]
  dsimp only
  rw [hframe]
  dsimp only
  split
  · rename_i u hpush
    rw [hpush]
    split <;> exact ⟨rfl, fun _ => rfl⟩
  · exact ⟨rfl, id⟩

/-- A call leaves as much of its frame as there was room for. -/
theorem words_of_call {words : List Int32}
    (hframe : frame? (s.withStack rest).machine param = some words) :
    ∃ written,
      (s.call target function).1.machine.stack.words =
        (words.take written).reverse ++ rest.words ∧
      ((s.call target function).2 = none → written = words.length) := by
  obtain ⟨hstack, hnone⟩ := stack_of_call target function hpop hframe
  obtain ⟨written, htaken, hall⟩ := (s.withStack rest).pushAll_words words
  refine ⟨written, ?_, ?_⟩
  · rw [hstack]
    exact htaken
  · intro hcalled
    exact hall (hnone hcalled)

end Call

/-- A return raises a fault if a word of its frame is not on the stack, or if its height or its
address is negative, and only then. -/
theorem ret_fault {fp : Nat} (hfp : s.machine.fp = some fp) :
    s.ret.2 = none ∨
      s.ret.2 = some .invalidOpcode ∧
        ∀ height address : Int32,
          s.machine.stack.get (fp + 1) = .ok height → s.machine.stack.get (fp + 2) = .ok address →
          height.toInt < 0 ∨ address.toInt < 0 := by
  rw [ret, hfp]
  dsimp only
  split
  · rename_i caller height address hcaller hheight haddress
    split
    · exact .inl rfl
    · rename_i hnegative
      refine .inr ⟨rfl, ?_⟩
      intro height' address' hheight' haddress'
      obtain rfl := Except.ok.inj (hheight.symm.trans hheight')
      obtain rfl := Except.ok.inj (haddress.symm.trans haddress')
      by_contra hneither
      exact hnegative height.toInt.toNat address.toInt.toNat
        (toIndex?_eq_some_iff.2 (by omega)) (toIndex?_eq_some_iff.2 (by omega))
  · rename_i hmissing
    refine .inr ⟨rfl, ?_⟩
    intro height address hheight haddress
    -- the frame begins below the words that are there
    obtain ⟨caller, hcaller⟩ := Stack.get_of_get_succ hheight
    exact absurd haddress (hmissing caller height address hcaller hheight)

theorem pushParam_of_size_le {fp : Nat} {k : UInt32} (hfp : s.machine.fp = some fp)
    (hsize : s.machine.stack.size ≤ fp + paramSlot + k.toNat) :
    (s.pushParam k).2 = some .invalidOpcode := by
  rw [pushParam, hfp]
  dsimp only
  rw [Stack.get, if_neg (Nat.not_lt.2 hsize)]
  rfl

end Scene

/-! ## Reachable sessions -/

namespace Session

variable {s : Session} {i : Instruction}

/-- The sessions that a fresh one with a short program can become, whatever is asked of them and
however their worlds are changed in between. -/
inductive Reachable : Session → Prop
  | start {s : Session} (hfresh : s.IsFresh) (hshort : s.program.code.size < 2 ^ 62) : Reachable s
  | obey {s : Session} (h : Reachable s) (c : Command) : Reachable (s.obey c)
  | load {s : Session} (h : Reachable s) (program : Program)
      (hshort : program.code.size < 2 ^ 62) : Reachable (s.load program)
  | edit {s : Session} (h : Reachable s) (world : World) : Reachable { s with world }

namespace Reachable

theorem short (h : s.Reachable) : s.program.code.size < 2 ^ 62 := by
  induction h with
  | start _ hshort => exact hshort
  | @obey s _ c ih =>
    rw [((Kept.refl s).obey c).program]
    exact ih
  | load _ _ hshort => exact hshort
  | edit _ _ ih => exact ih

/-- The numbers of a reachable machine are in range. -/
theorem inRange (h : s.Reachable) : s.machine.InRange := by
  induction h with
  | start hfresh _ =>
    rw [hfresh]
    exact .fresh _
  | @obey s hs c ih =>
    cases c with
    | drive d =>
      -- a step needs a short program, which every call keeps
      have hdriven : (s.drive d).machine.InRange ∧ (s.drive d).program.code.size < 2 ^ 62 := by
        apply drive_induction
          (P := fun t => t.machine.InRange ∧ t.program.code.size < 2 ^ 62) _ _ ⟨ih, hs.short⟩ d
        · rintro t ⟨ht, hshort⟩
          rw [next_program]
          exact ⟨ht.next hshort, hshort⟩
        · rintro t n ⟨ht, hshort⟩ _ _
          exact ⟨{ ht with }, hshort⟩
      exact hdriven.1
    | restart => exact .fresh _
    | reset => exact .fresh _
    | notify enabled => exact ih
  | load => exact .fresh _
  | edit _ _ ih => exact ih

end Reachable

/-! ## What the next instruction computes -/

/-- A call writes three numbers into its frame. If they have words then these are what stands on the
stack, as far as there was room; if one has none then a fault is raised. -/
def CallExact (s : Session) : Prop :=
  ∀ param below, s.machine.stack.words = param :: below →
    if below.length < wordBound ∧ s.machine.pc + 1 < wordBound then
      ∃ (caller height address : Int32) (written : Nat),
        caller.toInt = s.machine.link ∧ height.toInt = below.length ∧
        address.toInt = s.machine.pc + 1 ∧
        s.next.machine.stack.words =
          ([caller, height, address, param].take written).reverse ++ below ∧
        (s.next.running = true → written = frameWords)
    else s.next.running = false ∧ s.next.machine.fault = some .invalidOpcode

/-- A return goes by the numbers that three words of its frame stand for. If a word is not on the
stack, or the height or the address is negative, then a fault is raised. -/
def ReturnExact (s : Session) (fp : Nat) : Prop :=
  (s.next.running = true ∧
    ∃ caller height address : Int32,
      s.machine.stack.get fp = .ok caller ∧ s.machine.stack.get (fp + 1) = .ok height ∧
      s.machine.stack.get (fp + 2) = .ok address ∧
      (s.next.machine.pc : Int) = address.toInt ∧
      (∃ n : Nat, height.toInt = n ∧ s.next.machine.stack = s.machine.stack.truncate n) ∧
      ∀ n : Nat, s.next.machine.fp = some n ↔ caller.toInt = n) ∨
  (s.next.running = false ∧ s.next.machine.fault = some .invalidOpcode ∧
    ∀ height address : Int32,
      s.machine.stack.get (fp + 1) = .ok height → s.machine.stack.get (fp + 2) = .ok address →
      height.toInt < 0 ∨ address.toInt < 0)

/-- Whatever the next instruction computes fits where it is kept. -/
structure StepInRange (s : Session) (i : Instruction) : Prop where
  pc : s.machine.pc + 1 < 2 ^ 63
  /-- A jump is computed with a sign. -/
  jump : ∀ offset : Int32,
    Int64.minValue.toInt ≤ (s.machine.pc + 1 : Int) + offset.toInt ∧
    (s.machine.pc + 1 : Int) + offset.toInt ≤ Int64.maxValue.toInt ∧
    ∀ n, Scene.jumpTarget? (s.machine.pc + 1) offset = some n ↔
      (n : Int) = (s.machine.pc + 1 : Int) + offset.toInt
  count : s.machine.instructionCount + 1 < 2 ^ 64
  counter : ∀ a, s.machine.counters.get a + 1 < 2 ^ 64
  depth : s.machine.callDepth + 1 < 2 ^ 32
  /-- The position of a parameter fits, and a fault is raised if it is not on the stack. -/
  param : ∀ fp ∈ s.machine.fp, ∀ k : UInt32,
    fp + paramSlot + k.toNat < 2 ^ 64 ∧
    (i = .param k → s.machine.stack.size ≤ fp + paramSlot + k.toNat →
      s.next.running = false ∧ s.next.machine.fault = some .invalidOpcode)
  call : ∀ target function, i = .call target function → s.CallExact
  ret : i = .ret → ∀ fp ∈ s.machine.fp, s.ReturnExact fp

section Due

variable (h : s.machine.InRange) (hdue : s.due? = some i)

include h hdue

theorem callExact {target : UInt64} {function : Nat} (hi : i = .call target function) :
    s.CallExact := by
  subst hi
  intro param below hwords
  -- the stack without the parameter
  obtain ⟨rest, hpop, rfl⟩ : ∃ rest, s.machine.stack.pop = .ok (param, rest) ∧
      rest.words = below := by
    refine ⟨⟨s.machine.stack.capacity, below, below.length, rfl⟩, ?_, rfl⟩
    exact Stack.pop_eq_ok_iff.2 ⟨hwords, rfl⟩
  have hlength : rest.words.length = rest.size := rest.size_eq.symm
  have hexecute : execute (.call target function) (s.scene (.call target function)) =
      Effect.recorded ((s.scene (.call target function)).call target function) := rfl
  rw [hlength]
  split
  · -- the caller's frame has a word because the machine is in range
    rename_i hfits
    obtain ⟨words, hframe⟩ := exists_frame?
      (m := ((s.scene (.call target function)).withStack rest).machine) param h.fp hfits.1 hfits.2
    obtain ⟨caller, hcaller, -, -, rfl⟩ := frame?_eq_some hframe
    obtain ⟨written, htaken, hall⟩ := Scene.words_of_call (s := s.scene (.call target function))
      target function hpop hframe
    refine ⟨caller, .ofNat rest.size, .ofNat (s.machine.pc + 1), written,
      linkWord?_eq_some_iff.1 hcaller, Int32.toInt_ofNat_of_lt hfits.1,
      Int32.toInt_ofNat_of_lt hfits.2, ?_, ?_⟩
    · rw [next_machine_of_due? hdue, hexecute, Effect.recorded_stack, htaken]
      rfl
    · intro hrunning
      obtain ⟨t, ht, -, -⟩ := exists_execute hdue hrunning
      have hnone := congrArg Prod.snd ht
      rw [hexecute, Effect.recorded_snd] at hnone
      exact hall hnone
  · -- without its words the frame is not written at all
    rename_i hfits
    apply next_of_raised hdue (h.fault (running_of_due? hdue))
    rw [hexecute, Effect.recorded_snd]
    apply Scene.call_of_frame?_eq_none (s := s.scene (.call target function)) target function hpop
    cases hframe : Scene.frame? ((s.scene (.call target function)).withStack rest).machine param with
    | none => rfl
    | some words =>
      obtain ⟨-, -, hsize, hpc, -⟩ := frame?_eq_some hframe
      exact absurd ⟨hsize, hpc⟩ hfits

theorem returnExact (hi : i = .ret) {fp : Nat} (hfp : s.machine.fp = some fp) :
    s.ReturnExact fp := by
  subst hi
  have hexecute : execute .ret (s.scene .ret) = Effect.recorded (s.scene .ret).ret := rfl
  rcases Scene.ret_fault (s := s.scene .ret) hfp with hnone | ⟨hfault, hnegative⟩
  · left
    have hret : (s.scene .ret).ret = ((s.scene .ret).ret.1, none) := Prod.ext rfl hnone
    have hperformed := performed_of_ret hret
    have hmachine : s.next.machine = (s.scene .ret).ret.1.machine := by
      rw [next_machine_of_due? hdue, hexecute, Effect.recorded_eq_none_iff.2 hret]
    rw [running, hmachine]
    generalize (s.scene .ret).ret.1 = t at hperformed
    cases hperformed with
    | returned hfp' hcaller hheightWord haddress hheight hpc =>
      obtain rfl : fp = _ := Option.some.inj (hfp.symm.trans hfp')
      refine ⟨running_of_due? hdue, _, _, _, hcaller, hheightWord, haddress,
        (toIndex?_eq_some_iff.1 hpc).symm, ⟨_, toIndex?_eq_some_iff.1 hheight, rfl⟩, ?_⟩
      intro n
      exact toIndex?_eq_some_iff
    | ended hi =>
      rcases hi with hi | ⟨-, houtermost⟩
      · exact absurd hi (by simp)
      · exact absurd (hfp.symm.trans houtermost) (by simp)
    | computed _ _ hret => exact absurd rfl hret
    | acted ha => exact absurd ha (by simp [Instruction.action?])
  · right
    have hraised : (execute .ret (s.scene .ret)).2 = some .invalidOpcode := by
      rw [hexecute, Effect.recorded_snd, hfault]
    obtain ⟨hstopped, hrecorded⟩ := next_of_raised hdue (h.fault (running_of_due? hdue)) hraised
    exact ⟨hstopped, hrecorded, hnegative⟩

/-- From a machine in range, a step computes no number that does not fit. -/
theorem stepInRange (hshort : s.program.code.size < 2 ^ 62) : s.StepInRange i := by
  have hpc := pc_lt_of_due? hdue
  have hcount := count_lt_of_due? hdue
  have hdepth := callDepth_lt_of_due? hdue
  have hinstructions := s.world.limits.maxInstructions.toNat_lt
  have hcalls := s.world.limits.maxCallDepth.toNat_lt
  refine ⟨by omega, ?_, by omega, ?_, by omega, ?_, ?_, ?_⟩
  · intro offset
    have hlt := offset.toInt_lt
    have hle := offset.le_toInt
    have hmin : Int64.minValue.toInt = -9223372036854775808 := rfl
    have hmax : Int64.maxValue.toInt = 9223372036854775807 := rfl
    have hnear : s.machine.pc + 1 < 2 ^ 62 := by omega
    refine ⟨by omega, by omega, ?_⟩
    intro n
    exact jumpTarget?_eq_some_iff hnear
  · intro a
    have hcounter := h.counters a
    omega
  · intro fp hfp k
    have hbound := h.fp fp hfp
    have hk := k.toNat_lt
    rw [wordBound] at hbound
    refine ⟨by rw [paramSlot]; omega, ?_⟩
    rintro rfl hsize
    apply next_of_raised hdue (h.fault (running_of_due? hdue))
    exact (Effect.recorded_snd _).trans
      (Scene.pushParam_of_size_le (s := s.scene (.param k)) hfp hsize)
  · intro target function hi
    exact callExact h hdue hi
  · intro hi fp hfp
    exact returnExact h hdue hi hfp

end Due

/-- Whatever is asked of a session with short programs, and however its world and its limits are
changed between two calls: its registers fit where they are kept, its stack keeps to its capacity, its
frame pointer fits into a word, and no action is counted more often than instructions are. Therefore
the next instruction computes no number that does not fit, and no number is cut off on its way into a
frame or out of it. -/
theorem arithmetic_in_range (h : s.Reachable) :
    (s.machine.pc < 2 ^ 64 ∧ s.machine.instructionCount < 2 ^ 64 ∧ s.machine.callDepth < 2 ^ 32) ∧
    s.machine.stack.size ≤ s.machine.stack.capacity ∧
    (∀ fp ∈ s.machine.fp, fp < 2 ^ 31) ∧
    (∀ a, s.machine.counters.get a ≤ s.machine.instructionCount) ∧
    ∀ i ∈ s.due?, s.StepInRange i := by
  have hrange := h.inRange
  refine ⟨⟨hrange.pc, hrange.count, hrange.depth⟩, hrange.stack, hrange.fp, hrange.counters, ?_⟩
  intro i hdue
  exact stepInRange hrange hdue h.short

/-- A session that is given another program after its first step, and whose limits are lowered while
the function of that program is active. -/
def detour : Session :=
  { ((((Session.new (World.new 2 2) { code := #[.forward] }).obey (.drive .next)).load
      { code := #[.load 7, .call 3 0, .halt, .param 0, .ret] }).obey (.drive .next)).obey
        (.drive (.run 2)) with
    world := { World.new 1 1 with limits := { maxInstructions := 2, maxCallDepth := 2 } } }

/-- The return of that function goes by the words of its frame, under whatever limits. -/
theorem arithmetic_in_range_detour :
    detour.Reachable ∧ detour.due? = some .ret ∧ detour.machine.fp = some 0 ∧
      detour.machine.stack.size ≤ detour.machine.stack.capacity ∧
      detour.StepInRange .ret ∧ detour.ReturnExact 0 ∧ detour.next.machine.pc = 2 := by
  have hreachable : detour.Reachable := by
    apply Reachable.edit
    apply Reachable.obey
    apply Reachable.obey
    apply Reachable.load _ _ (by decide)
    apply Reachable.obey
    exact .start rfl (by decide)
  have hdue : detour.due? = some .ret := by decide +kernel
  have hfp : detour.machine.fp = some 0 := by decide +kernel
  obtain ⟨-, hstack, -, -, hsteps⟩ := arithmetic_in_range hreachable
  have hstep := hsteps .ret hdue
  exact ⟨hreachable, hdue, hfp, hstack, hstep, hstep.ret rfl 0 hfp, by decide +kernel⟩

end Session

end GridRobot
