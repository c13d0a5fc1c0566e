import GridRobot.Proofs.Machine.Step

/-!
# The calls that a stack holds

Frames and operands share one stack, and nothing in the words tells them apart. `CallStack` is the
structured reading of such a stack: the operands of the outermost level and, for every open call, its
frame and the operands above it. `Machine.Holds` relates a machine to the calls that its stack spells.

As long as every instruction touches only the operands of its own level (`Session.FrameRespecting`),
a running machine always holds a call stack, and one step changes it in one of three ways: the
operands of the innermost level change, a call opens a level, or a return closes one
(`Machine.Holds.step`).
-/

set_option autoImplicit false

namespace GridRobot

/-- The open calls of a machine, innermost first, with the operands of each level from the top. -/
inductive CallStack where
  | outermost (operands : List Int32)
  | frame (caller : CallStack) (address : Nat) (param : Int32) (operands : List Int32)

namespace CallStack

/-- The number of words. -/
def size : CallStack → Nat
  | outermost operands => operands.length
  | frame caller _ _ operands => operands.length + frameWords + caller.size

/-- Where the innermost frame starts. -/
def fp? : CallStack → Option Nat
  | outermost _ => none
  | frame caller _ _ _ => some caller.size

/-- The word that a callee keeps for the innermost frame. -/
def link (c : CallStack) : Int32 :=
  match c.fp? with
  | some fp => Int32.ofNat fp
  | none => -1

/-- The words from the top down. -/
def words : CallStack → List Int32
  | outermost operands => operands
  | frame caller address param operands =>
    operands ++
      param :: Int32.ofNat address :: Int32.ofNat caller.size :: caller.link :: caller.words

/-- The number of open calls. -/
def depth : CallStack → Nat
  | outermost _ => 0
  | frame caller _ _ _ => caller.depth + 1

/-- The operands of the innermost level. -/
def operands : CallStack → List Int32
  | outermost operands => operands
  | frame _ _ _ operands => operands

/-- The same calls with other operands of the innermost level. -/
def withOperands : CallStack → List Int32 → CallStack
  | outermost _, operands => outermost operands
  | frame caller address param _, operands => frame caller address param operands

/-- Whether heights and addresses fit into words. -/
def Fits : CallStack → Prop
  | outermost _ => True
  | frame caller address _ _ => caller.Fits ∧ caller.size < wordBound ∧ address < wordBound

variable {c : CallStack}

@[simp] theorem length_words (c : CallStack) : c.words.length = c.size := by
  induction c with
  | outermost operands => rfl
  | frame caller address param operands ih =>
    simp only [words, size, frameWords, List.length_append, List.length_cons, ih]
    omega

@[simp] theorem withOperands_operands (c : CallStack) : c.withOperands c.operands = c := by
  cases c <;> rfl

@[simp] theorem fp?_withOperands (c : CallStack) (ops : List Int32) :
    (c.withOperands ops).fp? = c.fp? := by
  cases c <;> rfl

@[simp] theorem depth_withOperands (c : CallStack) (ops : List Int32) :
    (c.withOperands ops).depth = c.depth := by
  cases c <;> rfl

theorem Fits.withOperands (h : c.Fits) (ops : List Int32) : (c.withOperands ops).Fits := by
  cases c <;> exact h

/-- The topmost operands are the topmost words. -/
theorem words_withOperands_append (c : CallStack) (top ops : List Int32) :
    (c.withOperands (top ++ ops)).words = top ++ (c.withOperands ops).words := by
  cases c with
  | outermost _ => rfl
  | frame _ _ _ _ => simp [CallStack.withOperands, words]

end CallStack

/-! ## Words for heights, addresses and links -/

theorem toIndex?_ofNat {n : Nat} (h : n < wordBound) : toIndex? (Int32.ofNat n) = some n := by
  have hn : n < 2 ^ 31 := h
  have hint : (Int32.ofNat n).toInt = n := Int32.toInt_ofNat_of_lt hn
  have hle : (0 : Int32) ≤ Int32.ofNat n := by
    rw [Int32.le_iff_toInt_le, hint]
    exact Int.natCast_nonneg n
  rw [toIndex?, if_pos hle, hint]
  rfl

/-- A frame leads back to the frame of its caller. -/
theorem CallStack.toIndex?_link {c : CallStack} (h : c.Fits) : toIndex? c.link = c.fp? := by
  cases c with
  | outermost _ => rfl
  | frame caller _ _ _ => exact toIndex?_ofNat h.2.1

theorem CallStack.eq_link {c : CallStack} {v : Int32} (h : linkWord? c.fp? = some v) :
    v = c.link := by
  cases c with
  | outermost _ => exact (Option.some.inj h).symm
  | frame caller _ _ _ => exact (toWord?_eq_some_iff.1 h).2

/-! ## Machines that hold a call stack -/

/-- The stack, the frame and the depth of a machine are those of the given calls. -/
structure Machine.Holds (m : Machine) (c : CallStack) : Prop where
  words : m.stack.words = c.words
  fp : m.fp = c.fp?
  depth : m.callDepth = c.depth
  fits : c.Fits

/-- An instruction takes and rewrites no word of the active frame or below it. -/
def Machine.KeepsFrame (m : Machine) (i : Instruction) : Prop :=
  ∀ fp ∈ m.fp, ∀ k < m.stack.size, m.stack.size ≤ k + i.operands m.stack → fp + frameWords ≤ k

/-- Each instruction among the first `n` steps keeps to the operands of its own frame. -/
def Session.FrameRespecting (s : Session) (n : Nat) : Prop :=
  ∀ k < n, ∀ i ∈ (s.after k).due?, (s.after k).machine.KeepsFrame i

theorem Session.FrameRespecting.mono {s : Session} {m n : Nat} (h : s.FrameRespecting n)
    (hmn : m ≤ n) : s.FrameRespecting m := by
  intro k hk
  exact h k (by omega)

/-- What one instruction does to the open calls: it works on the operands of the innermost level, or
opens or closes a level. The two numbers are the addresses of this and of the next instruction. -/
inductive CallStack.Step : Instruction → Nat → CallStack → Nat → CallStack → Prop
  | within {i : Instruction} {pc pc' : Nat} {c : CallStack}
      (hcall : ∀ target function, i ≠ .call target function) (hret : i ≠ .ret)
      (ops : List Int32) : Step i pc c pc' (c.withOperands ops)
  | call {target : UInt64} {function pc : Nat} {c : CallStack} {param : Int32} {ops : List Int32}
      (hparam : c.operands = param :: ops) :
      Step (.call target function) pc c target.toNat (.frame (c.withOperands ops) (pc + 1) param [])
  | ret {pc address : Nat} {caller : CallStack} {param : Int32} {ops : List Int32} :
      Step .ret pc (.frame caller address param ops) address caller

theorem CallStack.Step.of_call {target : UInt64} {function pc pc' : Nat} {c c' : CallStack}
    (h : Step (.call target function) pc c pc' c') :
    ∃ param ops, c.operands = param :: ops ∧
      c' = .frame (c.withOperands ops) (pc + 1) param [] := by
  cases h with
  | within hcall _ _ => exact absurd rfl (hcall _ _)
  | call hparam => exact ⟨_, _, hparam, rfl⟩

theorem CallStack.Step.of_ret {pc pc' address : Nat} {caller c' : CallStack} {param : Int32}
    {ops : List Int32} (h : Step .ret pc (.frame caller address param ops) pc' c') :
    pc' = address ∧ c' = caller := by
  cases h with
  | within _ hret _ => exact absurd rfl hret
  | ret => exact ⟨rfl, rfl⟩

namespace Machine

variable {m : Machine} {i : Instruction} {c : CallStack}

theorem Holds.size (h : m.Holds c) : m.stack.size = c.size := by
  rw [m.stack.size_eq, h.words, CallStack.length_words]

/-- The words that an instruction takes or rewrites are operands of the innermost level. -/
theorem Holds.operands_le (h : m.Holds c) (hkeeps : m.KeepsFrame i) :
    min (i.operands m.stack) m.stack.size ≤ c.operands.length := by
  have hsize := h.size
  cases c with
  | outermost ops =>
    simp only [CallStack.size, CallStack.operands] at hsize ⊢
    omega
  | frame caller address param ops =>
    simp only [CallStack.size, CallStack.operands, frameWords] at hsize ⊢
    -- otherwise the parameter, the topmost word of the frame, would be among them
    have hparam := hkeeps caller.size h.fp (caller.size + 3) (by omega)
    simp only [frameWords] at hparam
    omega

theorem Holds.drop_words (h : m.Holds c) (hkeeps : m.KeepsFrame i) :
    m.stack.words.drop (i.operands m.stack) =
      (c.withOperands (c.operands.drop (i.operands m.stack))).words := by
  have hle := h.operands_le hkeeps
  rw [h.size] at hle
  rw [h.words]
  generalize i.operands m.stack = n at hle ⊢
  -- the frame starts right below the operands, so none of its words is dropped
  cases c with
  | outermost ops => rfl
  | frame caller address param ops =>
    simp only [CallStack.size, CallStack.operands, frameWords] at hle
    exact List.drop_append_of_le_length (by omega)

/-- The top word is an operand of the innermost level if an instruction may take it. -/
theorem Holds.operands_of_words {v : Int32} {rest : List Int32} (h : m.Holds c)
    (hkeeps : m.KeepsFrame i) (hi : i.operands m.stack = 1) (hwords : m.stack.words = v :: rest) :
    ∃ ops, c.operands = v :: ops ∧ rest = (c.withOperands ops).words := by
  have hsize : m.stack.size = rest.length + 1 := by rw [m.stack.size_eq, hwords]; rfl
  have hle := h.operands_le hkeeps
  cases hops : c.operands with
  | nil =>
    -- the word would belong to a frame
    rw [hi, hops, List.length_nil] at hle
    omega
  | cons u ops =>
    have hcons : c.words = u :: (c.withOperands ops).words := by
      calc c.words = (c.withOperands ([u] ++ ops)).words := by
            rw [List.singleton_append, ← hops, CallStack.withOperands_operands]
        _ = u :: (c.withOperands ops).words := CallStack.words_withOperands_append c [u] ops
    obtain ⟨rfl, rfl⟩ := List.cons.inj (hwords.symm.trans (h.words.trans hcons))
    exact ⟨ops, rfl, rfl⟩

/-- The words that a return reads are those of the innermost frame. -/
theorem Holds.get_frame {caller : CallStack} {address : Nat} {param : Int32} {ops : List Int32}
    (h : m.Holds (.frame caller address param ops)) :
    m.stack.get caller.size = .ok caller.link ∧
      m.stack.get (caller.size + 1) = .ok (Int32.ofNat caller.size) ∧
      m.stack.get (caller.size + 2) = .ok (Int32.ofNat address) ∧
      m.stack.get (caller.size + 3) = .ok param := by
  have hwords := h.words
  simp only [CallStack.words] at hwords
  have hsize := CallStack.length_words caller
  rw [← hsize]
  -- a word is found at the height of the words below it
  refine ⟨?_, ?_, ?_, ?_⟩
  · exact Stack.get_of_words (ops ++ [param, .ofNat address, .ofNat caller.size]) caller.words
      (by simp [hwords])
  · exact Stack.get_of_words (ops ++ [param, .ofNat address]) (caller.link :: caller.words)
      (by simp [hwords])
  · exact Stack.get_of_words (ops ++ [param])
      (.ofNat caller.size :: caller.link :: caller.words) (by simp [hwords])
  · exact Stack.get_of_words ops
      (.ofNat address :: .ofNat caller.size :: caller.link :: caller.words) (by simp [hwords])

/-- A return puts the machine back into the calls of the caller. -/
theorem Holds.step_ret {s t : Scene} (h : s.machine.Holds c) (hret : Performed .ret s t)
    (hrunning : t.machine.running = true) :
    ∃ c', t.machine.Holds c' ∧ ∀ pc, CallStack.Step .ret pc c t.machine.pc c' := by
  cases hret with
  | computed _ _ hne => exact absurd rfl hne
  | acted ha => simp [Instruction.action?] at ha
  | ended => simp [Machine.halt] at hrunning
  | returned hfp hcaller hheightWord haddress hheight hpc =>
    cases c with
    | outermost ops =>
      -- without an open call there is no frame to return through
      have hnone := h.fp
      rw [hfp] at hnone
      simp [CallStack.fp?] at hnone
    | frame caller address param ops =>
      rcases h.fits with ⟨hfits, hsize, hbound⟩
      rcases h.get_frame with ⟨hget, hget₁, hget₂, -⟩
      -- the three words that the return has read are those of the innermost frame
      obtain rfl := Option.some.inj (hfp.symm.trans h.fp)
      obtain rfl := Except.ok.inj (hcaller.symm.trans hget)
      obtain rfl := Except.ok.inj (hheightWord.symm.trans hget₁)
      obtain rfl := Except.ok.inj (haddress.symm.trans hget₂)
      -- they are read back as the height and the address they were written for
      rw [toIndex?_ofNat hsize] at hheight
      rw [toIndex?_ofNat hbound] at hpc
      obtain rfl := Option.some.inj hheight
      obtain rfl := Option.some.inj hpc
      have hdepth : s.machine.callDepth - 1 = caller.depth := by
        rw [h.depth]
        rfl
      have hwords : (s.machine.stack.truncate caller.size).words = caller.words := by
        rw [← CallStack.length_words]
        apply Stack.words_truncate
          (ops ++ [param, .ofNat address, .ofNat caller.size, caller.link])
        simp [h.words, CallStack.words]
      exact ⟨caller, ⟨hwords, CallStack.toIndex?_link hfits, hdepth, hfits⟩, fun _ => .ret⟩

/-- A return from an open call raises no fault. -/
theorem Holds.running_next_of_ret {s : Session} {caller : CallStack} {address : Nat}
    {param : Int32} {ops : List Int32} (h : s.machine.Holds (.frame caller address param ops))
    (hdue : s.due? = some .ret) : s.next.running = true := by
  rcases h.fits with ⟨-, hsize, hbound⟩
  rcases h.get_frame with ⟨hget, hget₁, hget₂, -⟩
  have hrunning : s.machine.running = true := Session.running_of_due? hdue
  have hfp : (s.scene .ret).machine.fp = some caller.size := h.fp
  have hstack : (s.scene .ret).machine.stack = s.machine.stack := rfl
  have hret : execute .ret (s.scene .ret) = Effect.recorded (s.scene .ret).ret := rfl
  rw [Session.running, Session.next_machine_of_due? hdue, hret]
  simp only [Scene.ret, hfp, hstack, hget, hget₁, hget₂, toIndex?_ofNat hsize,
    toIndex?_ofNat hbound]
  exact hrunning

/-- A call opens a level above what is left of the caller's operands. -/
theorem Holds.step_call {s t : Scene} {target : UInt64} {function : Nat} (h : s.machine.Holds c)
    (hkeeps : s.machine.KeepsFrame (.call target function))
    (hcall : Performed (.call target function) s t) :
    ∃ param ops, c.operands = param :: ops ∧ t.machine.pc = target.toNat ∧
      t.machine.Holds (.frame (c.withOperands ops) s.machine.pc param []) := by
  cases hcall with
  | computed _ hbudget => simp [Instruction.consumesBudget] at hbudget
  | acted ha => simp [Instruction.action?] at ha
  | ended hi => simp at hi
  | @called _ _ _ param caller below stack hparam hcaller hheight haddress _ hwords _ =>
    -- the parameter leaves the operands of the caller and becomes the top of the new frame
    rcases h.operands_of_words hkeeps rfl hparam with ⟨ops, hops, rfl⟩
    rw [CallStack.length_words] at hheight hwords ⊢
    rw [h.fp, ← CallStack.fp?_withOperands c ops] at hcaller
    obtain rfl := CallStack.eq_link hcaller
    have hdepth : s.machine.callDepth + 1 = (c.withOperands ops).depth + 1 := by
      rw [h.depth, CallStack.depth_withOperands]
    exact ⟨param, ops, hops, rfl, hwords, rfl, hdepth, h.fits.withOperands ops, hheight, haddress⟩

/-- Every other instruction works on the operands of the innermost level. -/
theorem Holds.step_within {s t : Scene} (h : s.machine.Holds c) (hkeeps : s.machine.KeepsFrame i)
    (hcall : ∀ target function, i ≠ .call target function) (hret : i ≠ .ret)
    (hperformed : Performed i s t) : ∃ ops, t.machine.Holds (c.withOperands ops) := by
  have hsame : s.machine.Holds (c.withOperands c.operands) := by
    rw [CallStack.withOperands_operands]
    exact h
  cases hperformed with
  | @computed _ _ stack results _ _ _ hwords _ =>
    -- what was taken off the stack were operands, so the frames below are as they were
    refine ⟨results ++ c.operands.drop (i.operands s.machine.stack), ?_, ?_, ?_,
      h.fits.withOperands _⟩
    · rw [CallStack.words_withOperands_append, ← h.drop_words hkeeps]
      exact hwords
    · rw [CallStack.fp?_withOperands]
      exact h.fp
    · rw [CallStack.depth_withOperands]
      exact h.depth
  | @branched _ offset v stack pc hwords _ _ =>
    rcases h.operands_of_words hkeeps rfl hwords with ⟨ops, -, hrest⟩
    refine ⟨ops, hrest, ?_, ?_, h.fits.withOperands _⟩
    · rw [CallStack.fp?_withOperands]
      exact h.fp
    · rw [CallStack.depth_withOperands]
      exact h.depth
  | called => exact absurd rfl (hcall _ _)
  | returned => exact absurd rfl hret
  | acted | jumped | ended | entered =>
    exact ⟨c.operands, hsame.words, hsame.fp, hsame.depth, hsame.fits⟩

/-- One step of a running machine changes the open calls as `CallStack.Step` says. -/
theorem Holds.step {s : Session} (h : s.machine.Holds c) (hdue : s.due? = some i)
    (hkeeps : s.machine.KeepsFrame i) (hnext : s.next.running = true) :
    ∃ c', s.next.machine.Holds c' ∧ CallStack.Step i s.machine.pc c s.next.machine.pc c' := by
  rcases Session.exists_performed hdue hnext with ⟨t, ht, hmachine, -⟩
  have hscene : (s.scene i).machine.Holds c := ⟨h.words, h.fp, h.depth, h.fits⟩
  rw [Session.running, hmachine] at hnext
  rw [hmachine]
  -- returns and calls change the levels, all other instructions only the operands
  by_cases hret : i = .ret
  · subst hret
    rcases hscene.step_ret ht hnext with ⟨c', hc', hstep⟩
    exact ⟨c', hc', hstep _⟩
  by_cases hcall : ∃ target function, i = .call target function
  · rcases hcall with ⟨target, function, rfl⟩
    rcases hscene.step_call hkeeps ht with ⟨param, ops, hops, hpc, hc'⟩
    rw [hpc]
    exact ⟨_, hc', .call hops⟩
  · have hcall' : ∀ target function, i ≠ .call target function := by
      intro target function hi
      exact hcall ⟨target, function, hi⟩
    rcases hscene.step_within hkeeps hcall' hret ht with ⟨ops, hops⟩
    exact ⟨_, hops, .within hcall' hret ops⟩

end Machine

namespace Session

variable {s : Session}

/-- A machine at its start holds no call and no operand. -/
theorem IsFresh.holds (h : s.IsFresh) : s.machine.Holds (.outermost []) := by
  rw [IsFresh] at h
  rw [h]
  exact ⟨rfl, rfl, rfl, trivial⟩

/-- Along a frame-respecting run the machine always holds a call stack. -/
theorem exists_holds (hs : s.IsFresh) {n : Nat} (hrespects : s.FrameRespecting n)
    (hrunning : (s.after n).running = true) : ∃ c, (s.after n).machine.Holds c := by
  induction n with
  | zero => exact ⟨_, hs.holds⟩
  | succ n ih =>
    -- a machine that runs after the step has executed an instruction in it
    rcases exists_due? hrunning with ⟨i, hdue⟩
    have hbefore : s.FrameRespecting n := by
      intro k hk
      exact hrespects k (by omega)
    rcases ih hbefore (running_of_due? hdue) with ⟨c, hc⟩
    rcases hc.step hdue (hrespects n (by omega) i hdue) hrunning with ⟨c', hc', -⟩
    exact ⟨c', hc'⟩

end Session

end GridRobot
