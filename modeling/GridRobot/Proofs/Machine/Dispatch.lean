import GridRobot.Proofs.Machine.Range
import Mathlib.Logic.ExistsUnique

/-!
# Who executes an instruction

A family says twice which instructions are its own: by what it claims and by what it does not refuse.
`Instruction.family?` lists the instructions once more, by their family. A family claims the instructions
that are listed for it (`Family.claims_iff`) and refuses all others, without a trace
(`Family.process_of_not_claims`). What it claims it can execute without a fault, so that the two lists are
the same (`Family.claims_iff_exists_done`).

Since no instruction is listed twice, the first family that claims it is the only one, and it does not
matter in which order the families are asked, as long as none is left out (`dispatch_eq`).
-/

set_option autoImplicit false

namespace GridRobot

/-- The family of an instruction. An unknown instruction has none. -/
def Instruction.family? : Instruction → Option Family
  | load _ | pop | dup | dec | inc | param _ => some .stack
  | rotl | rotr | mask | not | and | or | eq | ez _ => some .logic
  | forward | left | pickBuzzer | leaveBuzzer => some .world
  | worldWalls | orientation | worldBuzzers | bagBuzzers => some .world
  | jz _ | jmp _ | call _ _ | ret => some .control
  | halt | line _ => some .misc
  | unknown _ => none

theorem Instruction.family?_eq_none_iff {i : Instruction} :
    i.family? = none ↔ ∃ name, i = .unknown name := by
  constructor
  · intro h
    cases i with
    | unknown name => exact ⟨name, rfl⟩
    | _ => cases h
  · rintro ⟨name, rfl⟩
    rfl

/-- A scene in which no instruction need fail: a frame is open, no word on the stack is zero, and there is
room for the words of another frame. -/
def Scene.ample (words pc : Nat) : Scene where
  machine :=
    { pc
      fp := some 0
      stack :=
        { capacity := words + frameWords
          words := List.replicate words 1
          size := words
          size_eq := List.length_replicate.symm } }
  world := .new 1 1

namespace Family

variable {f : Family} {i : Instruction}

theorem mem_all (f : Family) : f ∈ all := by
  cases f <;> decide

theorem claims_eq (f : Family) (i : Instruction) : f.claims i = decide (i.family? = some f) := by
  cases i <;> cases f <;> rfl

/-- A family claims the instructions that belong to it. -/
theorem claims_iff : f.claims i = true ↔ i.family? = some f := by
  rw [claims_eq, decide_eq_true_iff]

theorem forall_not_claims_iff : (∀ f : Family, ¬ f.claims i = true) ↔ i.family? = none := by
  rw [Option.eq_none_iff_forall_ne_some]
  exact forall_congr' fun f => not_congr claims_iff

/-- An instruction that is known is claimed by one family. -/
theorem existsUnique_claims (h : ∀ name, i ≠ .unknown name) : ∃! f : Family, f.claims i = true := by
  cases hi : i.family? with
  | none =>
    obtain ⟨name, hname⟩ := Instruction.family?_eq_none_iff.1 hi
    exact absurd hname (h name)
  | some f =>
    refine ⟨f, claims_iff.2 hi, ?_⟩
    intro g hg
    exact Option.some.inj ((claims_iff.1 hg).symm.trans hi)

/-- What a family does not claim it refuses, and it leaves everything as it is. -/
theorem process_of_not_claims (h : f.claims i = false) (s : Scene) :
    f.process i s = (s, some .invalidOpcode) := by
  -- each family's own instructions contradict `h`; the others reach the last case of its `process`
  cases f with
  | stack =>
    cases i with
    | load _ | pop | dup | dec | inc | param _ => cases h
    | _ => rfl
  | logic =>
    cases i with
    | rotl | rotr | mask | not | and | or | eq | ez _ => cases h
    | _ => rfl
  | world =>
    cases i with
    | forward | left | pickBuzzer | leaveBuzzer => cases h
    | worldWalls | orientation | worldBuzzers | bagBuzzers => cases h
    | _ => rfl
  | control =>
    cases i with
    | jz _ | jmp _ | call _ _ | ret => cases h
    | _ => rfl
  | misc =>
    cases i with
    | halt | line _ => cases h
    | _ => rfl

/-- Where nothing is missing, an instruction is executed by its family without a fault. -/
theorem exists_done (h : i.family? = some f) : ∃ s, (f.process i s).2 = none := by
  cases i with
  | param k =>
    cases h
    -- the frame holds as many words as the parameter asks for
    refine ⟨.ample (k.toNat + 4) 0, ?_⟩
    have hget : ∃ v, (Scene.ample (k.toNat + 4) 0).machine.stack.get (0 + paramSlot + k.toNat) = .ok v :=
      ⟨_, if_pos (show 0 + 3 + k.toNat < k.toNat + 4 by omega)⟩
    obtain ⟨v, hv⟩ := hget
    have hpush : ∃ stack, (Scene.ample (k.toNat + 4) 0).machine.stack.push v = .ok stack :=
      ⟨_, if_pos (show k.toNat + 4 < k.toNat + 4 + 4 by omega)⟩
    obtain ⟨stack, hstack⟩ := hpush
    show (Scene.pushParam (.ample (k.toNat + 4) 0) k).2 = none
    rw [Scene.pushParam]
    simp only [show (Scene.ample (k.toNat + 4) 0).machine.fp = some 0 from rfl, hv]
    exact congrArg Prod.snd (Scene.onStack_eq_none_iff.2 ⟨stack, hstack, rfl⟩)
  | jmp offset =>
    cases h
    -- from here no offset leads before the first instruction
    have hle := offset.le_toInt
    have htarget : Scene.jumpTarget? wordBound offset = some (wordBound + offset.toInt).toNat := by
      rw [jumpTarget?_eq_some_iff (by decide), wordBound]
      omega
    refine ⟨.ample 0 wordBound, ?_⟩
    show (Scene.jump (.ample 0 wordBound) offset).2 = none
    rw [Scene.jump]
    simp only [show (Scene.ample 0 wordBound).machine.pc = wordBound from rfl, htarget]
    rfl
  | unknown name => cases h
  | _ =>
    cases h
    exact ⟨.ample 4 0, rfl⟩

/-- A family claims the instructions that it can execute without a fault, and no others. -/
theorem claims_iff_exists_done : f.claims i = true ↔ ∃ s, (f.process i s).2 = none := by
  constructor
  · intro h
    exact exists_done (claims_iff.1 h)
  · rintro ⟨s, hs⟩
    cases h : f.claims i with
    | true => rfl
    | false =>
      rw [process_of_not_claims h] at hs
      cases hs

end Family

/-- Whoever is asked first, an instruction is executed by its family. -/
theorem dispatch_eq {families : List Family} (hall : ∀ f, f ∈ families) (i : Instruction)
    (s : Scene) :
    dispatch families i s =
      match i.family? with
      | some f => Effect.recorded (f.process i s)
      | none => Effect.recorded (s.failed .invalidOpcode) := by
  rw [dispatch]
  cases hfind : families.find? (·.claims i) with
  | some g =>
    have hclaims : g.claims i = true := List.find?_some (p := fun f : Family => f.claims i) hfind
    rw [Family.claims_iff.1 hclaims]
  | none =>
    have hnone : i.family? = none :=
      Family.forall_not_claims_iff.1 fun f => List.find?_eq_none.1 hfind f (hall f)
    rw [hnone]

/-- An instruction that is known is claimed by exactly one family, and an unknown one by none; what a family
does not claim it refuses as an invalid opcode, leaving machine, world and queue as they are, and what it
claims it can execute without a fault. So, in whatever order the families are asked, an instruction has
the same effect: that of the family that claims it, with the machine stopped and its first fault kept if a
fault is raised. -/
theorem dispatch_order_irrelevant :
    (∀ i : Instruction, (∀ name, i ≠ .unknown name) → ∃! f : Family, f.claims i = true) ∧
    (∀ (name : String) (f : Family), f.claims (.unknown name) = false) ∧
    (∀ (f : Family) (i : Instruction) (s : Scene), f.claims i = false →
      f.process i s = (s, some .invalidOpcode)) ∧
    (∀ (f : Family) (i : Instruction), f.claims i = true ↔ ∃ s, (f.process i s).2 = none) ∧
    ∀ families : List Family, families.Perm Family.all → ∀ (i : Instruction) (s : Scene),
      dispatch families i s = execute i s ∧
      (∀ (f : Family) (t : Scene), f.claims i = true → f.process i s = (t, none) →
        dispatch families i s = (t, none)) ∧
      (∀ (f : Family) (t : Scene) (fault : Fault), f.claims i = true →
        f.process i s = (t, some fault) →
        dispatch families i s =
          ({ t with
              machine :=
                { t.machine with
                  running := false
                  fault := some (t.machine.fault.getD fault) } },
            some fault)) ∧
      ((∀ f : Family, f.claims i = false) →
        dispatch families i s =
          ({ s with
              machine :=
                { s.machine with
                  running := false
                  fault := some (s.machine.fault.getD .invalidOpcode) } },
            some .invalidOpcode)) := by
  refine ⟨fun i => Family.existsUnique_claims, ?_, fun f i s h => Family.process_of_not_claims h s,
    fun f i => Family.claims_iff_exists_done, ?_⟩
  · intro name f
    cases f <;> rfl
  · intro families hperm i s
    have hall : ∀ f, f ∈ families := fun f => hperm.mem_iff.2 f.mem_all
    have hdispatch := dispatch_eq hall i s
    refine ⟨hdispatch.trans (dispatch_eq Family.mem_all i s).symm, ?_, ?_, ?_⟩
    · intro f t hclaims hprocess
      rw [hdispatch, Family.claims_iff.1 hclaims]
      simp only [hprocess, Effect.recorded]
    · intro f t fault hclaims hprocess
      rw [hdispatch, Family.claims_iff.1 hclaims]
      simp only [hprocess, Effect.recorded, Machine.raise]
    · intro hclaims
      have hnone : i.family? = none :=
        Family.forall_not_claims_iff.1 fun f => Bool.not_eq_true _ ▸ hclaims f
      rw [hdispatch, hnone]
      simp only [Scene.failed, Effect.recorded, Machine.raise]

/-- A scene with a zero on the stack, after a fault. -/
def faltering : Scene :=
  { machine := { (Scene.push ⟨.fresh {}, .new 2 2, []⟩ 0).1.machine with fault := some .stack }
    world := .new 2 2 }

/-- Asked in the opposite order, the families refuse an assertion until the one is reached that claims it.
The assertion fails; its fault is answered, but the machine keeps the fault it had. -/
theorem dispatch_order_irrelevant_faltering :
    [Family.misc, .control, .world, .logic, .stack].Perm Family.all ∧
      Family.stack.process (.ez .wall) faltering = (faltering, some .invalidOpcode) ∧
      Family.logic.process (.ez .wall) faltering = (faltering, some .wall) ∧
      dispatch [.misc, .control, .world, .logic, .stack] (.ez .wall) faltering =
        ({ faltering with
            machine := { faltering.machine with running := false, fault := some .stack } },
          some .wall) ∧
      dispatch [.misc, .control, .world, .logic, .stack] (.ez .wall) faltering =
        execute (.ez .wall) faltering := by
  obtain ⟨-, -, hrefuses, -, hdispatch⟩ := dispatch_order_irrelevant
  have hperm : [Family.misc, .control, .world, .logic, .stack].Perm Family.all := by decide
  have hprocess : Family.logic.process (.ez .wall) faltering = (faltering, some .wall) := by
    decide +kernel
  obtain ⟨hsame, -, hfails, -⟩ := hdispatch _ hperm (.ez .wall) faltering
  exact ⟨hperm, hrefuses .stack _ _ rfl, hprocess, hfails .logic faltering .wall rfl hprocess, hsame⟩

end GridRobot
