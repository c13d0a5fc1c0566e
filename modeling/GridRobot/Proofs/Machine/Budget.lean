import GridRobot.Proofs.Machine.Failure

/-!
# Budgets along a run

`Session.executed` lists the instructions that the first steps of a session execute. The counters of
the machine are counts over this list, and the limits of the world bound them: the instruction count
and the call depth never exceed their limits, and an action exceeds its cap by one at most, as the
last instruction of a run that this stops (`Metered`). A step preserves all of it (`Metered.next`),
so it holds along every run (`metered_after`).

What the limits stop, they stop cleanly (`budget_enforced`): a refused step changes nothing but the
fault, and an instruction that raises a fault leaves the world as it is, unless it is the action
that exceeds its cap.
-/

set_option autoImplicit false

namespace GridRobot

/-- The counters after an instruction. -/
def Machine.counted (m : Machine) (i : Instruction) : PerAction Nat :=
  match i.action? with
  | some a => m.counters.set a (m.counters.get a + 1)
  | none => m.counters

theorem Machine.get_counted (m : Machine) (i : Instruction) (a : Action) :
    (m.counted i).get a = m.counters.get a + if i.action? = some a then 1 else 0 := by
  rw [counted]
  cases hi : i.action? with
  | none => rfl
  | some b =>
    simp only [PerAction.get_set, Option.some.injEq]
    by_cases hba : b = a
    · rw [if_pos hba, if_pos hba, hba]
    · rw [if_neg hba, if_neg hba]
      rfl

/-- Actions consume budget. -/
theorem Instruction.consumesBudget_of_action? {i : Instruction} {a : Action}
    (h : i.action? = some a) : i.consumesBudget = true := by
  cases i with
  | forward | left | pickBuzzer | leaveBuzzer => rfl
  | _ => simp [action?] at h

theorem Instruction.action?_of_free {i : Instruction} (h : i.consumesBudget = false) :
    i.action? = none := by
  cases hi : i.action? with
  | none => rfl
  | some a =>
    rw [consumesBudget_of_action? hi] at h
    exact absurd h (by simp)

/-- An instruction is at most one action, and only if it consumes budget. -/
theorem Instruction.actions_le (i : Instruction) :
    (if i.action? = some .forward then 1 else 0) + (if i.action? = some .left then 1 else 0) +
        (if i.action? = some .pickBuzzer then 1 else 0) +
        (if i.action? = some .leaveBuzzer then 1 else 0) ≤
      if i.consumesBudget = true then 1 else 0 := by
  cases hi : i.action? with
  | none => simp
  | some a =>
    rw [consumesBudget_of_action? hi]
    cases a <;> decide

/-! ## What an instruction does to the counters -/

namespace Performed

variable {i : Instruction} {s t : Scene}

/-- An action is counted, whatever else happens. -/
theorem counters (h : Performed i s t) : t.machine.counters = s.machine.counted i := by
  cases h with
  | computed _ hbudget =>
    simp [Machine.counted, Instruction.action?_of_free hbudget, Scene.withStack]
  | acted ha => simp [Machine.counted, ha]
  | ended hi =>
    obtain rfl | ⟨rfl, -⟩ := hi
    · rfl
    · rfl
  | _ => rfl

/-- An action without a fault is within its cap. -/
theorem within_cap (h : Performed i s t) {a : Action} {cap : UInt64} (ha : i.action? = some a)
    (hcap : s.world.limits.caps.get a = some cap) :
    s.machine.counters.get a + 1 ≤ cap.toNat := by
  cases h with
  | computed _ hbudget => simp [Instruction.action?_of_free hbudget] at ha
  | acted hb hwithin =>
    obtain rfl := Option.some.inj (hb.symm.trans ha)
    exact hwithin cap hcap
  | ended hi =>
    obtain rfl | ⟨rfl, -⟩ := hi
    · simp [Instruction.action?] at ha
    · simp [Instruction.action?] at ha
  | _ => simp [Instruction.action?] at ha

theorem fault (h : Performed i s t) : t.machine.fault = s.machine.fault := by
  cases h <;> rfl

theorem callDepth_le (h : Performed i s t) : t.machine.callDepth ≤ s.machine.callDepth + 1 := by
  rcases h.callDepth with ⟨-, hdepth⟩ | ⟨-, hdepth⟩ | ⟨-, hdepth⟩ <;> omega

end Performed

namespace Failed

variable {i : Instruction} {s t : Scene} {f : Fault}

theorem counters (h : Failed i s f t) : t.machine.counters = s.machine.counted i := by
  cases h with
  | interrupted haction => simp [Machine.counted, haction, Scene.withStack]
  | overCap ha => simp [Machine.counted, ha]
  | tooDeep => rfl

theorem instructionCount (h : Failed i s f t) :
    t.machine.instructionCount = s.machine.instructionCount := by
  cases h <;> rfl

/-- No fault is recorded before the one that the instruction raises. -/
theorem fault (h : Failed i s f t) : t.machine.fault = s.machine.fault := by
  cases h <;> rfl

theorem callDepth_le (h : Failed i s f t) : t.machine.callDepth ≤ s.machine.callDepth + 1 := by
  cases h with
  | tooDeep => exact Nat.le_refl _
  | _ => exact Nat.le_succ _

theorem limits (h : Failed i s f t) : t.world.limits = s.world.limits := by
  cases h with
  | overCap => exact World.perform_limits _ _
  | _ => rfl

end Failed

/-- The first fault of a run is the one that stands in the machine. -/
theorem Session.next_of_raised {s : Session} {i : Instruction} {f : Fault}
    (hdue : s.due? = some i) (hnone : s.machine.fault = none)
    (hfault : (execute i (s.scene i)).2 = some f) :
    s.next.running = false ∧ s.next.machine.fault = some f := by
  rw [running, next_machine_of_due? hdue]
  refine ⟨running_of_execute_fault hfault, ?_⟩
  have hexecute : execute i (s.scene i) = ((execute i (s.scene i)).1, some f) :=
    Prod.ext rfl hfault
  obtain ⟨u, hfailed, hu⟩ := failed_of_execute hexecute
  rw [hu]
  show some (u.machine.fault.getD f) = some f
  rw [hfailed.fault.trans hnone]
  rfl

namespace Session

variable {s : Session}

/-- The instructions that the first `n` steps execute, in order. -/
def executed (s : Session) (n : Nat) : List Instruction :=
  (List.range n).filterMap fun k => (s.after k).due?

theorem executed_succ (s : Session) (n : Nat) :
    s.executed (n + 1) = s.executed n ++ (s.after n).due?.toList := by
  rw [executed, List.range_succ, List.filterMap_append]
  cases hdue : (s.after n).due? <;> simp [executed, hdue]

/-! ## The limits stay as they are -/

theorem Stepped.limits {t : Session} (h : s.Stepped t) : t.world.limits = s.world.limits := by
  cases h with
  | idle | finished | refused => rfl
  | performed _ h => rw [deliver_world]; exact h.limits
  | failed _ h => rw [deliver_world]; exact h.limits

theorem after_limits (s : Session) (n : Nat) : (s.after n).world.limits = s.world.limits := by
  induction n with
  | zero => rfl
  | succ n ih => exact (stepped_next _).limits.trans ih

/-! ## One step -/

/-- An action has been performed once more than its cap allows, and this has stopped the run. -/
structure OverCap (s : Session) (trace : List Instruction) (a : Action) (cap : UInt64) : Prop where
  count : s.machine.counters.get a = cap.toNat + 1
  stopped : s.running = false
  fault : s.machine.fault = some .instruction
  last : trace.getLast?.bind Instruction.action? = some a

/-- The counters of a session count the instructions of `trace`, which have been executed, and keep
to the limits of the world. -/
structure Metered (s : Session) (trace : List Instruction) : Prop where
  count : s.machine.instructionCount = trace.countP Instruction.consumesBudget
  counters : ∀ a, s.machine.counters.get a = trace.countP fun i => i.action? = some a
  count_le : s.machine.instructionCount ≤ s.world.limits.maxInstructions.toNat
  depth_le : s.machine.callDepth ≤ s.world.limits.maxCallDepth.toNat
  fault : s.running = true → s.machine.fault = none
  capped : ∀ a cap, s.world.limits.caps.get a = some cap →
    s.machine.counters.get a ≤ cap.toNat ∨ s.OverCap trace a cap

theorem IsFresh.metered (hs : s.IsFresh) : s.Metered [] := by
  have hmachine : s.machine = .fresh s.world.limits := hs
  refine ⟨?_, ?_, ?_, ?_, ?_, ?_⟩
  · rw [hmachine]
    rfl
  · intro a
    rw [hmachine]
    exact PerAction.get_const 0 a
  · rw [hmachine]
    exact Nat.zero_le _
  · rw [hmachine]
    exact Nat.zero_le _
  · intro _
    rw [hmachine]
    rfl
  · intro a cap _
    rw [hmachine]
    exact .inl (by simp [Machine.fresh])

namespace Metered

variable {trace : List Instruction} {i : Instruction} {t : Scene}

/-- While the session runs, no cap has been exceeded. -/
theorem counters_le (h : s.Metered trace) (hrunning : s.running = true) {a : Action} {cap : UInt64}
    (hcap : s.world.limits.caps.get a = some cap) : s.machine.counters.get a ≤ cap.toNat := by
  rcases h.capped a cap hcap with hle | hover
  · exact hle
  · rw [hover.stopped] at hrunning
    exact absurd hrunning (by simp)

/-- Stopping a session that runs does not change what it has counted. -/
theorem stop (h : s.Metered trace) (hrunning : s.running = true) (fault : Option Fault) :
    Metered { s with machine := { s.machine with fault, running := false } } trace :=
  { count := h.count
    counters := h.counters
    count_le := h.count_le
    depth_le := h.depth_le
    fault := by simp [running]
    capped := fun _ _ hcap => .inl (h.counters_le hrunning hcap) }

/-- An instruction counts as what it is, once it has passed the checks before it. -/
theorem execute (h : s.Metered trace) (hdue : s.due? = some i)
    (hcount : t.machine.instructionCount = (s.scene i).machine.instructionCount)
    (hcounters : t.machine.counters = (s.scene i).machine.counted i)
    (hdepth : t.machine.callDepth ≤ (s.scene i).machine.callDepth + 1)
    (hlimits : t.world.limits = s.world.limits)
    (hfault : t.machine.running = true → t.machine.fault = none)
    (hcapped : ∀ a cap, s.world.limits.caps.get a = some cap →
      t.machine.counters.get a ≤ cap.toNat ∨
        ((s.withScene t).deliver).OverCap (trace ++ [i]) a cap) :
    Metered (s.withScene t).deliver (trace ++ [i]) := by
  have hmachine : (s.withScene t).deliver.machine = t.machine := deliver_machine _
  have hworld : (s.withScene t).deliver.world.limits = s.world.limits := by
    rw [deliver_world]
    exact hlimits
  -- the budgets were not used up before the instruction
  obtain ⟨-, hrefusal, -⟩ := due?_eq_some_iff.1 hdue
  have hbudget : s.machine.instructionCount < s.world.limits.maxInstructions.toNat ∧
      s.machine.callDepth < s.world.limits.maxCallDepth.toNat := by
    rw [refusal?] at hrefusal
    split at hrefusal
    · exact absurd hrefusal (by simp)
    · split at hrefusal
      · exact absurd hrefusal (by simp)
      · omega
  have hone : t.machine.instructionCount =
      s.machine.instructionCount + if i.consumesBudget then 1 else 0 := by
    rw [hcount]
    show (if i.consumesBudget then _ else _) = _
    split <;> rfl
  have hscene : (s.scene i).machine.callDepth = s.machine.callDepth := rfl
  refine ⟨?_, ?_, ?_, ?_, ?_, ?_⟩
  · rw [hmachine, hone, h.count, List.countP_append, List.countP_singleton]
  · intro a
    rw [hmachine, hcounters, Machine.get_counted, List.countP_append, List.countP_singleton]
    have hprev : (s.scene i).machine.counters.get a = s.machine.counters.get a := rfl
    rw [hprev, h.counters a]
    simp
  · rw [hmachine, hworld, hone]
    split <;> omega
  · rw [hmachine, hworld]
    omega
  · rw [running, hmachine]
    exact hfault
  · intro a cap hcap
    rw [hworld] at hcap
    rw [hmachine]
    exact hcapped a cap hcap

/-- A step keeps the counters true and within the limits. -/
theorem next (h : s.Metered trace) : s.next.Metered (trace ++ s.due?.toList) := by
  have hnone : s.due? = none → trace ++ s.due?.toList = trace := by
    intro hdue
    rw [hdue]
    exact List.append_nil trace
  have hstepped := s.stepped_next
  generalize s.next = u at hstepped
  cases hstepped with
  | idle hstopped =>
    rw [hnone (by simp [due?, hstopped])]
    exact h
  | finished hrunning hfetch =>
    rw [hnone (by simp [due?, hfetch])]
    exact h.stop hrunning s.machine.fault
  | refused hrunning hfetch hrefusal =>
    rw [hnone (by simp [due?, hrefusal])]
    exact h.stop hrunning _
  | @performed i t hdue hperformed =>
    have hrunning := running_of_due? hdue
    rw [hdue]
    apply h.execute hdue hperformed.instructionCount hperformed.counters hperformed.callDepth_le
      hperformed.limits
    · intro _
      exact hperformed.fault.trans (h.fault hrunning)
    · intro a cap hcap
      left
      rw [hperformed.counters, Machine.get_counted]
      split
      · rename_i ha
        exact hperformed.within_cap ha hcap
      · exact h.counters_le hrunning hcap
  | @failed i f t hdue hfailed =>
    have hrunning := running_of_due? hdue
    rw [hdue]
    apply Metered.execute (t := { t with machine := t.machine.raise f }) h hdue
      hfailed.instructionCount hfailed.counters hfailed.callDepth_le hfailed.limits
    · intro hgoes
      exact absurd hgoes (by simp [Machine.raise])
    · intro a cap hcap
      have hle := h.counters_le hrunning hcap
      cases hfailed with
      | interrupted => exact .inl hle
      | tooDeep => exact .inl hle
      | overCap ha hcap' hcount =>
        rename_i b _
        by_cases hba : b = a
        · -- the action was at its cap, and is now one beyond it
          subst hba
          right
          obtain rfl := Option.some.inj (hcap'.symm.trans hcap)
          have hprev : (s.scene i).machine.counters.get b = s.machine.counters.get b := rfl
          rw [hprev] at hcount
          refine ⟨?_, ?_, ?_, ?_⟩
          · rw [deliver_machine]
            show ((s.machine.counters).set b (s.machine.counters.get b + 1)).get b = _
            rw [PerAction.get_set, if_pos rfl]
            omega
          · rw [running, deliver_machine]
            rfl
          · rw [deliver_machine]
            show some (s.machine.fault.getD .instruction) = _
            rw [h.fault hrunning]
            rfl
          · simp [ha]
        · left
          show ((s.machine.counters).set b (s.machine.counters.get b + 1)).get a ≤ _
          rw [PerAction.get_set, if_neg hba]
          exact hle

/-- Every counted action has consumed budget. -/
theorem total_le (h : s.Metered trace) :
    s.machine.counters.forward + s.machine.counters.left + s.machine.counters.pickBuzzer +
      s.machine.counters.leaveBuzzer ≤ s.machine.instructionCount := by
  have hforward := h.counters .forward
  have hleft := h.counters .left
  have hpick := h.counters .pickBuzzer
  have hleave := h.counters .leaveBuzzer
  simp only [PerAction.get] at hforward hleft hpick hleave
  rw [h.count, hforward, hleft, hpick, hleave]
  clear h hforward hleft hpick hleave
  induction trace with
  | nil => exact Nat.le_refl 0
  | cons i rest ih =>
    have hone := i.actions_le
    simp only [List.countP_cons, decide_eq_true_eq]
    omega

end Metered

/-! ## Whole runs -/

theorem metered_after (hs : s.IsFresh) (n : Nat) : (s.after n).Metered (s.executed n) := by
  induction n with
  | zero => exact hs.metered
  | succ n ih =>
    rw [executed_succ]
    exact ih.next

/-- A step without budget changes nothing but the fault and that the machine runs. -/
theorem next_of_refused {i : Instruction} {f : Fault} (hrunning : s.running = true)
    (hfetch : s.fetch? = some i) (hrefusal : s.refusal? = some f)
    (hfault : s.machine.fault = none) :
    s.next = { s with machine := { s.machine with fault := some f, running := false } } := by
  simp [next, hrunning, hfetch, hrefusal, Machine.raise, hfault]

/-- An instruction that raises a fault leaves the world as it is, or it is an action that has
exceeded its cap and was performed once. -/
theorem next_world_of_fault {i : Instruction} {f : Fault} (hdue : s.due? = some i)
    (hbefore : s.machine.fault = none) (hafter : s.next.machine.fault = some f) :
    i.action? = none ∧ s.next.world = s.world ∨
      ∃ a cap, i.action? = some a ∧ s.world.limits.caps.get a = some cap ∧
        cap.toNat < s.next.machine.counters.get a ∧ f = .instruction ∧
        s.next.world = s.world.perform a := by
  have hstepped := s.stepped_next
  generalize s.next = u at hstepped hafter
  cases hstepped with
  | idle hstopped =>
    rw [running_of_due? hdue] at hstopped
    exact absurd hstopped (by simp)
  | finished _ hfetch => simp [due?, hfetch] at hdue
  | refused _ _ hrefusal => simp [due?, hrefusal] at hdue
  | performed _ hperformed =>
    rw [deliver_machine] at hafter
    have hfault := hperformed.fault.symm.trans hafter
    exact absurd (hbefore.symm.trans hfault) (by simp)
  | failed hdue' hfailed =>
    obtain rfl := Option.some.inj (hdue'.symm.trans hdue)
    rw [deliver_machine] at hafter
    rw [deliver_machine, deliver_world]
    cases hfailed with
    | interrupted haction => exact .inl ⟨haction, rfl⟩
    | tooDeep => exact .inl ⟨rfl, rfl⟩
    | overCap ha hcap hcount =>
      refine .inr ⟨_, _, ha, hcap, ?_, ?_, rfl⟩
      · show _ < ((s.machine.counters).set _ (s.machine.counters.get _ + 1)).get _
        rw [PerAction.get_set, if_pos rfl]
        exact hcount
      · have hfault : some (s.machine.fault.getD .instruction) = some f := hafter
        rw [hbefore] at hfault
        exact (Option.some.inj hfault).symm

/-- Along every run the budgets are kept. The instruction count is the number of executed
instructions that consume budget, and at most the limit; the call depth is at most its limit; no
more actions are counted than instructions; a capped action exceeds its cap by one at most, and then
it is the last instruction of a run that has stopped for it. A refused step changes nothing but the
fault and that the machine runs; an instruction that raises a fault leaves the world as it is,
unless it is an action that exceeds its cap, which has then been performed once. -/
theorem budget_enforced (hs : s.IsFresh) (n : Nat) :
    ((s.after n).machine.instructionCount ≤ s.world.limits.maxInstructions.toNat ∧
      (s.after n).machine.instructionCount =
        (s.executed n).countP Instruction.consumesBudget) ∧
    (s.after n).machine.callDepth ≤ s.world.limits.maxCallDepth.toNat ∧
    (s.after n).machine.counters.forward + (s.after n).machine.counters.left +
        (s.after n).machine.counters.pickBuzzer + (s.after n).machine.counters.leaveBuzzer ≤
      (s.after n).machine.instructionCount ∧
    (∀ a cap, s.world.limits.caps.get a = some cap →
      (s.after n).machine.counters.get a ≤ cap.toNat + 1 ∧
      ((s.after n).machine.counters.get a = cap.toNat + 1 →
        (s.after n).running = false ∧ (s.after n).machine.fault = some .instruction ∧
        (s.executed n).getLast?.bind Instruction.action? = some a)) ∧
    (∀ i f, (s.after n).running = true → (s.after n).fetch? = some i →
      (s.after n).refusal? = some f →
      s.after (n + 1) =
        { s.after n with
          machine := { (s.after n).machine with fault := some f, running := false } }) ∧
    ∀ i f, (s.after n).due? = some i → (s.after (n + 1)).machine.fault = some f →
      i.action? = none ∧ (s.after (n + 1)).world = (s.after n).world ∨
        ∃ a cap, i.action? = some a ∧ s.world.limits.caps.get a = some cap ∧
          (s.after (n + 1)).machine.counters.get a = cap.toNat + 1 ∧ f = .instruction ∧
          (s.after (n + 1)).world = (s.after n).world.perform a := by
  have hmetered := metered_after hs n
  have hlimits := s.after_limits n
  refine ⟨⟨?_, hmetered.count⟩, ?_, hmetered.total_le, ?_, ?_, ?_⟩
  · rw [← hlimits]
    exact hmetered.count_le
  · rw [← hlimits]
    exact hmetered.depth_le
  · intro a cap hcap
    rw [← hlimits] at hcap
    rcases hmetered.capped a cap hcap with hle | hover
    · exact ⟨by omega, fun heq => by omega⟩
    · exact ⟨Nat.le_of_eq hover.count, fun _ => ⟨hover.stopped, hover.fault, hover.last⟩⟩
  · intro i f hrunning hfetch hrefusal
    exact next_of_refused hrunning hfetch hrefusal (hmetered.fault hrunning)
  · intro i f hdue hfault
    have hbefore := hmetered.fault (running_of_due? hdue)
    rcases next_world_of_fault hdue hbefore hfault with
      hfree | ⟨a, cap, ha, hcap, hover, rfl, hworld⟩
    · exact .inl hfree
    · refine .inr ⟨a, cap, ha, hlimits ▸ hcap, ?_, rfl, hworld⟩
      -- beyond the cap means one beyond it
      have hnext := metered_after hs (n + 1)
      have hcap' : (s.after (n + 1)).world.limits.caps.get a = some cap := by
        rw [s.after_limits, ← hlimits]
        exact hcap
      rcases hnext.capped a cap hcap' with hle | hover'
      · have hover'' : cap.toNat < (s.after (n + 1)).machine.counters.get a := hover
        omega
      · exact hover'.count

/-- Three moves of which one is allowed, under the given instruction limit. -/
def threeMoves (maxInstructions : UInt64) : Session :=
  .new
    { World.new 2 2 with
      limits := { maxInstructions, caps := .set (.const none) .forward (some 1) } }
    { code := #[.forward, .forward, .forward] }

/-- The second move is performed and stops the run, even where the budget ends with it; under a
limit of one instruction it is refused. -/
theorem budget_enforced_threeMoves :
    (threeMoves 2).IsFresh ∧ (threeMoves 1).IsFresh ∧
      ((threeMoves 2).after 2).machine.counters.get .forward = 2 ∧
      ((threeMoves 2).after 2).running = false ∧
      ((threeMoves 2).executed 2).getLast?.bind Instruction.action? = some .forward ∧
      ((threeMoves 2).after 2).world = ((threeMoves 2).after 1).world.perform .forward ∧
      ((threeMoves 1).after 2).world = ((threeMoves 1).after 1).world := by
  have hfresh : (threeMoves 2).IsFresh := rfl
  have hfresh' : (threeMoves 1).IsFresh := rfl
  have hcount : ((threeMoves 2).after 2).machine.counters.get .forward = 2 := by decide +kernel
  have hdue : ((threeMoves 2).after 1).due? = some .forward := by decide +kernel
  have hfault : ((threeMoves 2).after 2).machine.fault = some .instruction := by decide +kernel
  -- what is promised of a capped action, of an instruction with a fault, and of a refused step
  obtain ⟨-, -, -, hcapped, -, -⟩ := budget_enforced hfresh 2
  obtain ⟨-, -, -, -, -, hfaulty⟩ := budget_enforced hfresh 1
  obtain ⟨-, -, -, -, hrefused, -⟩ := budget_enforced hfresh' 1
  obtain ⟨hstopped, -, hlast⟩ := (hcapped .forward 1 rfl).2 hcount
  refine ⟨hfresh, hfresh', hcount, hstopped, hlast, ?_, ?_⟩
  · rcases hfaulty .forward .instruction hdue hfault with ⟨hfree, -⟩ | ⟨a, cap, ha, -, -, -, hworld⟩
    · exact absurd hfree (by simp [Instruction.action?])
    · obtain rfl : Action.forward = a := Option.some.inj ha
      exact hworld
  · rw [hrefused .forward .instruction (by decide +kernel) (by decide +kernel) (by decide +kernel)]

end Session

end GridRobot
