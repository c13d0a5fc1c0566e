import GridRobot.Proofs.Machine.Budget
import GridRobot.Proofs.Session.Announcement
import GridRobot.Recorder
import Mathlib.Data.List.Basic

/-!
# A recorder mirrors the open calls

The machine counts its open calls, and a recorder keeps a list of them from what it is told. Neither
knows of the other, and a program can bend its frames so that returns go anywhere. Still, the two
agree after every step of every run: the recorder lists the calls that are open, in the order in which
they were made, and it has as many of them as the machine counts. The one exception is a call that
reaches the depth limit, which the machine counts and does not announce (`recorder_mirrors_calls`).

A call is open as long as the depth has not fallen below the level that it entered
(`Session.StillOpen`). The levels of the open calls are `1, 2, ...` up to the depth
(`Session.Mirrored`), so that a return, which lowers the depth by one, closes the last of them.
-/

set_option autoImplicit false

namespace GridRobot.Session

variable {s : Session} {k m n : Nat}

/-! ## One step -/

/-- The next step executes a call that reaches the depth limit. -/
def ReachesDepthLimit (s : Session) : Prop :=
  (∃ target function, s.due? = some (.call target function)) ∧
    s.next.machine.callDepth = s.world.limits.maxCallDepth.toNat

/-- What a step announces, and what it does to the depth. -/
inductive Levelled (s : Session) : Prop
  | opened {function : Nat} {param line : Int32}
      (hannounced : s.announced? = some (.call function param line))
      (hdepth : s.next.machine.callDepth = s.machine.callDepth + 1)
      (hlimit : s.next.machine.callDepth < s.world.limits.maxCallDepth.toNat)
  | closed {line : Int32} (hannounced : s.announced? = some (.ret line))
      (hdepth : s.next.machine.callDepth = s.machine.callDepth - 1)
  | exceeded (hannounced : s.announced? = none) (hreaches : s.ReachesDepthLimit)
      (hdepth : s.next.machine.callDepth = s.machine.callDepth + 1)
      (hstopped : s.next.running = false)
  | level (hannounced : s.announced? = none)
      (hdepth : s.next.machine.callDepth = s.machine.callDepth)

theorem levelled_of_performed {i : Instruction} {t : Scene} (hdue : s.due? = some i)
    (h : Performed i (s.scene i) t) (hmachine : s.next.machine = t.machine) : s.Levelled := by
  have hrunning := running_of_due? hdue
  have hnext : s.next.running = t.machine.running := congrArg Machine.running hmachine
  have hdepth : s.next.machine.callDepth = t.machine.callDepth := by rw [hmachine]
  cases h with
  | called hparam _ _ _ _ _ hlimit =>
    exact .opened (announced?_of_due? hdue (hnext.trans hrunning)) hdepth
      (by rw [hmachine]; exact hlimit)
  | returned => exact .closed (announced?_of_due? hdue (hnext.trans hrunning)) hdepth
  | ended => exact .level (announced?_of_stopped hnext) hdepth
  | computed _ hbudget hret =>
    have hannounced := announced?_of_due? hdue (hnext.trans hrunning)
    rw [Instruction.announcement?_of_free hbudget hret] at hannounced
    exact .level hannounced hdepth
  | acted ha =>
    have hannounced := announced?_of_due? hdue (hnext.trans hrunning)
    rw [Instruction.announcement?_of_action? ha] at hannounced
    exact .level hannounced hdepth
  | jumped | branched | entered =>
    exact .level (announced?_of_due? hdue (hnext.trans hrunning)) hdepth

theorem levelled_of_failed {i : Instruction} {f : Fault} {t : Scene} (hdue : s.due? = some i)
    (h : Failed i (s.scene i) f t) (hmachine : s.next.machine = t.machine.raise f) :
    s.Levelled := by
  have hstopped : s.next.running = false := congrArg Machine.running hmachine
  have hannounced := announced?_of_stopped hstopped
  have hdepth : s.next.machine.callDepth = t.machine.callDepth := by
    rw [hmachine]
    rfl
  cases h with
  | interrupted => exact .level hannounced hdepth
  | overCap => exact .level hannounced hdepth
  | @tooDeep _ target function _ _ _ _ _ _ hlimit =>
    have hlt := callDepth_lt_of_due? hdue
    have hdeep : s.next.machine.callDepth = s.machine.callDepth + 1 := hdepth
    have hlimit' : s.world.limits.maxCallDepth.toNat ≤ s.machine.callDepth + 1 := hlimit
    exact .exceeded hannounced ⟨⟨target, function, hdue⟩, by omega⟩ hdeep hstopped

/-- Every step opens a level, closes one, exceeds the limit or stays at its level. -/
theorem levelled (s : Session) : s.Levelled := by
  cases hdue : s.due? with
  | none =>
    apply Levelled.level (announced?_of_stopped (running_next_of_due?_eq_none hdue))
    rcases next_of_due?_eq_none hdue with hnext | hnext | ⟨f, -, -, hnext⟩ <;> rw [hnext] <;> rfl
  | some i =>
    cases hexecute : execute i (s.scene i) with
    | mk t fault =>
      have hmachine : s.next.machine = t.machine := by
        rw [next_machine_of_due? hdue, hexecute]
      cases fault with
      | none => exact levelled_of_performed hdue (performed_of_execute hexecute) hmachine
      | some f =>
        obtain ⟨u, hu, rfl⟩ := failed_of_execute hexecute
        exact levelled_of_failed hdue hu hmachine

/-- A step that does not rise does not reach the depth limit. -/
theorem not_reachesDepthLimit (h : s.next.machine.callDepth ≤ s.machine.callDepth) :
    ¬ s.ReachesDepthLimit := by
  rintro ⟨⟨target, function, hdue⟩, hlimit⟩
  have hlt := callDepth_lt_of_due? hdue
  omega

/-! ## The open calls -/

/-- The call that the next step announces. -/
def openedCall? (s : Session) : Option CallFrame :=
  match s.announced? with
  | some (.call function param line) => some ⟨s.program.functionName function, param, line⟩
  | _ => none

/-- After `n` steps, the depth has not fallen below the one after step `k`. -/
def StillOpen (s : Session) (k n : Nat) : Prop :=
  ∀ j ≤ n, k < j → (s.after (k + 1)).machine.callDepth ≤ (s.after j).machine.callDepth

instance (s : Session) (k n : Nat) : Decidable (s.StillOpen k n) :=
  inferInstanceAs (Decidable (∀ j ≤ n, k < j → _))

/-- The calls announced by the first `n` steps that are still open, in the order of execution. -/
def openCalls (s : Session) (n : Nat) : List CallFrame :=
  (List.range n).filterMap fun k =>
    if s.StillOpen k n then (s.after k).openedCall? else none

/-- The open calls with the levels that they have entered. -/
def openLevels (s : Session) (n : Nat) : List (Nat × CallFrame) :=
  (List.range n).filterMap fun k =>
    if s.StillOpen k n then
      (s.after k).openedCall?.map fun frame => ((s.after (k + 1)).machine.callDepth, frame)
    else none

theorem openCalls_eq (s : Session) (n : Nat) : s.openCalls n = (s.openLevels n).map Prod.snd := by
  rw [openLevels, List.map_filterMap, openCalls]
  congr 1
  funext k
  split
  · cases (s.after k).openedCall? <;> rfl
  · rfl

theorem stillOpen_succ (hk : k < n) :
    s.StillOpen k (n + 1) ↔ s.StillOpen k n ∧
      (s.after (k + 1)).machine.callDepth ≤ (s.after (n + 1)).machine.callDepth := by
  constructor
  · intro h
    exact ⟨fun j hj => h j (by omega), h (n + 1) (Nat.le_refl _) (by omega)⟩
  · rintro ⟨h, hlast⟩ j hj hkj
    by_cases hn : j = n + 1
    · rw [hn]
      exact hlast
    · exact h j (by omega) hkj

theorem stillOpen_self (s : Session) (n : Nat) : s.StillOpen n (n + 1) := by
  intro j hj hnj
  obtain rfl : j = n + 1 := by omega
  exact Nat.le_refl _

/-- A step closes the levels above its depth, and may open one. -/
theorem openLevels_succ (s : Session) (n : Nat) :
    s.openLevels (n + 1) =
      (s.openLevels n).filter (fun x => x.1 ≤ (s.after (n + 1)).machine.callDepth) ++
        ((s.after n).openedCall?.map fun frame =>
          ((s.after (n + 1)).machine.callDepth, frame)).toList := by
  rw [openLevels, List.range_succ, List.filterMap_append, openLevels, List.filter_filterMap]
  congr 1
  · apply List.filterMap_congr
    intro k hk
    rw [List.mem_range] at hk
    by_cases hopen : s.StillOpen k n
    · by_cases hlevel :
          (s.after (k + 1)).machine.callDepth ≤ (s.after (n + 1)).machine.callDepth
      · rw [if_pos ((stillOpen_succ hk).2 ⟨hopen, hlevel⟩), if_pos hopen]
        cases (s.after k).openedCall? <;> simp [Option.filter, hlevel]
      · rw [if_neg fun h => hlevel ((stillOpen_succ hk).1 h).2, if_pos hopen]
        cases (s.after k).openedCall? <;> simp [Option.filter, hlevel]
    · rw [if_neg fun h => hopen ((stillOpen_succ hk).1 h).1, if_neg hopen]
      rfl
  · rw [List.filterMap_cons, if_pos (s.stillOpen_self n)]
    cases (s.after n).openedCall? <;> rfl

/-! ## The recorder -/

/-- A recorder that has followed the session for `n` steps. -/
def recording (s : Session) (n : Nat) : Recorder :=
  Recorder.empty.observeAll (s.after n).heard.reverse

/-- The recorder follows the event of every step. -/
theorem recording_succ (h : s.Watched) (n : Nat) :
    s.recording (n + 1) = (s.recording n).observeAll
      ((s.after n).announced?.map (Event.notification s.program)).toList := by
  have hheard : (s.after (n + 1)).heard = _ := (h.after n).heard_next
  rw [recording, hheard, List.reverse_append, recording, Recorder.observeAll, Recorder.observeAll,
    Recorder.observeAll, List.foldl_append, program_after]
  cases (s.after n).announced? <;> rfl

/-- The recorder has listed the open calls, which have entered the levels from one to `m`. -/
structure Mirrored (s : Session) (n m : Nat) : Prop where
  levels : (s.openLevels n).map Prod.fst = List.range' 1 m
  frames : (s.recording n).frames.reverse = (s.openLevels n).map Prod.snd
  maxDepth : 0 < s.world.limits.maxCallDepth.toNat →
    (s.recording n).maxDepth < s.world.limits.maxCallDepth.toNat

namespace Mirrored

theorem depth (h : s.Mirrored n m) : (s.recording n).depth = m := by
  have hframes := congrArg List.length h.frames
  have hlevels := congrArg List.length h.levels
  rw [List.length_reverse, List.length_map] at hframes
  rw [List.length_map, List.length_range'] at hlevels
  rw [(s.recording n).depth_eq, hframes, hlevels]

theorem level_le (h : s.Mirrored n m) {x : Nat × CallFrame} (hx : x ∈ s.openLevels n) :
    x.1 ≤ m := by
  have hmem : x.1 ∈ List.range' 1 m := h.levels ▸ List.mem_map_of_mem hx
  have hbounds := List.mem_range'_1.1 hmem
  omega

/-- Above all levels nothing is closed. -/
theorem filter_eq_self (h : s.Mirrored n m) {d : Nat} (hd : m ≤ d) :
    (s.openLevels n).filter (fun x => x.1 ≤ d) = s.openLevels n := by
  rw [List.filter_eq_self]
  intro x hx
  have hle := h.level_le hx
  simp only [decide_eq_true_eq]
  omega

/-- The innermost call has entered the last level. -/
theorem exists_innermost (h : s.Mirrored n (m + 1)) :
    ∃ outer x, s.openLevels n = outer ++ [x] ∧ outer.map Prod.fst = List.range' 1 m ∧
      x.1 = m + 1 := by
  have hlevels := h.levels
  rw [List.range'_1_concat] at hlevels
  obtain ⟨outer, inner, hsplit, houter, hinner⟩ := List.map_eq_append_iff.1 hlevels
  obtain ⟨x, rfl, hx⟩ := List.map_eq_singleton_iff.1 hinner
  exact ⟨outer, x, hsplit, houter, by omega⟩

/-- A call that is announced opens the next level. -/
theorem opened (h : s.Mirrored n m) (hwatched : s.Watched) {function : Nat} {param line : Int32}
    (hannounced : (s.after n).announced? = some (.call function param line))
    (hdepth : (s.after (n + 1)).machine.callDepth = m + 1)
    (hlimit : m + 1 < s.world.limits.maxCallDepth.toNat) : s.Mirrored (n + 1) (m + 1) := by
  have hlevels : s.openLevels (n + 1) =
      s.openLevels n ++ [(m + 1, ⟨s.program.functionName function, param, line⟩)] := by
    rw [openLevels_succ, hdepth, h.filter_eq_self (Nat.le_succ m), openedCall?, hannounced,
      program_after]
    rfl
  have hrecording : s.recording (n + 1) =
      (s.recording n).observe (.call (s.program.functionName function) param line) := by
    rw [recording_succ hwatched, hannounced]
    rfl
  refine ⟨?_, ?_, ?_⟩
  · rw [hlevels, List.map_append, h.levels, List.range'_1_concat, Nat.add_comm 1 m]
    rfl
  · rw [hlevels, hrecording, List.map_append, ← h.frames]
    exact List.reverse_cons
  · intro hpositive
    rw [hrecording]
    have hmax := h.maxDepth hpositive
    have hnew := h.depth
    show max (s.recording n).maxDepth ((s.recording n).depth + 1) < _
    omega

/-- A return that is announced closes the last level, if there is one. -/
theorem closed (h : s.Mirrored n m) (hwatched : s.Watched) {line : Int32}
    (hannounced : (s.after n).announced? = some (.ret line))
    (hdepth : (s.after (n + 1)).machine.callDepth = m - 1) : s.Mirrored (n + 1) (m - 1) := by
  have hrecording : s.recording (n + 1) = (s.recording n).observe (.ret line) := by
    rw [recording_succ hwatched, hannounced]
    rfl
  have hsucc : s.openLevels (n + 1) = (s.openLevels n).filter (fun x => x.1 ≤ m - 1) := by
    rw [openLevels_succ, hdepth, openedCall?, hannounced]
    exact List.append_nil _
  have hframes : (s.recording (n + 1)).frames.reverse =
      ((s.openLevels n).map Prod.snd).dropLast := by
    rw [hrecording, ← h.frames, List.dropLast_reverse]
    rfl
  have hmax : (s.recording (n + 1)).maxDepth = (s.recording n).maxDepth := by
    rw [hrecording]
    rfl
  cases m with
  | zero =>
    -- nothing was open, and nothing is
    have hnil : s.openLevels n = [] := List.map_eq_nil_iff.1 h.levels
    rw [hnil] at hsucc hframes
    refine ⟨?_, ?_, ?_⟩
    · rw [hsucc]
      rfl
    · rw [hsucc, hframes]
      rfl
    · rw [hmax]
      exact h.maxDepth
  | succ m =>
    obtain ⟨outer, x, hsplit, houter, hx⟩ := h.exists_innermost
    have hclosed : s.openLevels (n + 1) = outer := by
      rw [hsucc, hsplit, List.filter_append, List.filter_eq_self.2 ?_]
      · simp [hx]
      · intro y hy
        have hmem : y.1 ∈ List.range' 1 m := houter ▸ List.mem_map_of_mem hy
        have hbounds := List.mem_range'_1.1 hmem
        simp only [decide_eq_true_eq]
        omega
    refine ⟨?_, ?_, ?_⟩
    · rw [hclosed]
      exact houter
    · rw [hclosed, hframes, hsplit, List.map_append]
      exact List.dropLast_concat
    · rw [hmax]
      exact h.maxDepth

/-- A step that announces nothing leaves the open calls as they are. -/
theorem silent (h : s.Mirrored n m) (hwatched : s.Watched)
    (hannounced : (s.after n).announced? = none)
    (hdepth : m ≤ (s.after (n + 1)).machine.callDepth) : s.Mirrored (n + 1) m := by
  have hrecording : s.recording (n + 1) = s.recording n := by
    rw [recording_succ hwatched, hannounced]
    rfl
  have hlevels : s.openLevels (n + 1) = s.openLevels n := by
    rw [openLevels_succ, h.filter_eq_self hdepth, openedCall?, hannounced]
    exact List.append_nil _
  exact ⟨hlevels ▸ h.levels, by rw [hlevels, hrecording]; exact h.frames,
    by rw [hrecording]; exact h.maxDepth⟩

end Mirrored

/-! ## Whole runs -/

/-- One of the first `n` steps has executed a call that reached the depth limit. -/
def ReachedDepthLimit (s : Session) (n : Nat) : Prop :=
  ∃ k < n, (s.after k).ReachesDepthLimit

theorem reachedDepthLimit_succ :
    s.ReachedDepthLimit (n + 1) ↔ s.ReachedDepthLimit n ∨ (s.after n).ReachesDepthLimit := by
  constructor
  · rintro ⟨k, hk, hreaches⟩
    by_cases hkn : k < n
    · exact .inl ⟨k, hkn, hreaches⟩
    · obtain rfl : k = n := by omega
      exact .inr hreaches
  · rintro (⟨k, hk, hreaches⟩ | hreaches)
    · exact ⟨k, by omega, hreaches⟩
    · exact ⟨n, Nat.lt_succ_self n, hreaches⟩

/-- Before the first step nothing is open. -/
theorem mirrored_zero (hheard : s.heard = []) : s.Mirrored 0 0 := by
  have hrecording : s.recording 0 = Recorder.empty := by
    rw [recording, after, hheard]
    rfl
  refine ⟨rfl, ?_, ?_⟩
  · rw [hrecording]
    rfl
  · intro hpositive
    rw [hrecording]
    exact hpositive

/-- Along every run the recorder mirrors the levels of the machine, but for the last one if it has
reached the depth limit. -/
theorem exists_mirrored (hs : s.IsFresh) (hwatched : s.Watched) (hheard : s.heard = []) (n : Nat) :
    ∃ m, s.Mirrored n m ∧
      (s.ReachedDepthLimit n →
        (s.after n).running = false ∧ (s.after n).machine.callDepth = m + 1) ∧
      (¬ s.ReachedDepthLimit n → (s.after n).machine.callDepth = m) := by
  induction n with
  | zero =>
    refine ⟨0, mirrored_zero hheard, ?_, ?_⟩
    · rintro ⟨k, hk, -⟩
      exact absurd hk (Nat.not_lt_zero k)
    · intro _
      have hfresh : s.machine = .fresh s.world.limits := hs
      rw [after, hfresh]
      rfl
  | succ n ih =>
    obtain ⟨m, hmirrored, hreached, hbelow⟩ := ih
    have hnext : s.after (n + 1) = (s.after n).next := rfl
    rw [reachedDepthLimit_succ]
    by_cases hlimit : s.ReachedDepthLimit n
    · -- the run has stopped, and nothing happens any more
      obtain ⟨hstopped, hdepth⟩ := hreached hlimit
      have hsame : s.after (n + 1) = s.after n := next_of_stopped hstopped
      have hsilent : (s.after n).announced? = none :=
        announced?_of_stopped (by rw [← hnext, hsame]; exact hstopped)
      rw [hsame]
      refine ⟨m, hmirrored.silent hwatched hsilent (by rw [hsame]; omega), ?_, ?_⟩
      · exact fun _ => ⟨hstopped, hdepth⟩
      · exact fun h => absurd (.inl hlimit) h
    · have hm := hbelow hlimit
      cases (s.after n).levelled with
      | opened hannounced hdepth hbound =>
        rw [hm, ← hnext] at hdepth
        rw [s.after_limits, ← hnext] at hbound
        refine ⟨m + 1, hmirrored.opened hwatched hannounced hdepth (by omega), ?_, ?_⟩
        · rintro (h | ⟨-, hreaches⟩)
          · exact absurd h hlimit
          · -- the call stays below the limit
            rw [s.after_limits, ← hnext] at hreaches
            omega
        · exact fun _ => hdepth
      | closed hannounced hdepth =>
        have hnot := not_reachesDepthLimit (s := s.after n) (by omega)
        rw [hm, ← hnext] at hdepth
        refine ⟨m - 1, hmirrored.closed hwatched hannounced hdepth, ?_, fun _ => hdepth⟩
        rintro (h | h)
        · exact absurd h hlimit
        · exact absurd h hnot
      | exceeded hannounced hreaches hdepth hstopped =>
        rw [hm, ← hnext] at hdepth
        refine ⟨m, hmirrored.silent hwatched hannounced (by omega), ?_, ?_⟩
        · exact fun _ => ⟨hstopped, hdepth⟩
        · exact fun h => absurd (.inr hreaches) h
      | level hannounced hdepth =>
        have hnot := not_reachesDepthLimit (s := s.after n) (by omega)
        rw [hm, ← hnext] at hdepth
        refine ⟨m, hmirrored.silent hwatched hannounced (by omega), ?_, fun _ => hdepth⟩
        rintro (h | h)
        · exact absurd h hlimit
        · exact absurd h hnot

/-- A session at its start with an observer installed. -/
def watched (world : World) (program : Program) : Session :=
  { Session.new world program with observed := true }

/-- After every step of every run, a recorder that follows from the start lists the open calls with
their functions, parameters and source lines, outermost first, and as many of them as the machine
counts. It has one less exactly if the run was stopped by a call that reached the depth limit, which
is not announced. It never lists as many calls as the depth limit. -/
theorem recorder_mirrors_calls (world : World) (program : Program) (n : Nat) :
    ((watched world program).ReachedDepthLimit n →
      ((watched world program).after n).running = false ∧
      ((watched world program).recording n).depth + 1 =
        ((watched world program).after n).machine.callDepth) ∧
    (¬ (watched world program).ReachedDepthLimit n →
      ((watched world program).recording n).depth =
        ((watched world program).after n).machine.callDepth) ∧
    ((watched world program).recording n).frames.reverse =
      (watched world program).openCalls n ∧
    (0 < world.limits.maxCallDepth.toNat →
      ((watched world program).recording n).maxDepth < world.limits.maxCallDepth.toNat) := by
  have hwatched : (watched world program).Watched := ⟨rfl, rfl, rfl⟩
  obtain ⟨m, hmirrored, hreached, hbelow⟩ :=
    exists_mirrored (s := watched world program) rfl hwatched rfl n
  refine ⟨?_, ?_, ?_, hmirrored.maxDepth⟩
  · intro hlimit
    obtain ⟨hstopped, hdepth⟩ := hreached hlimit
    rw [hmirrored.depth, hdepth]
    exact ⟨hstopped, rfl⟩
  · intro hlimit
    rw [hmirrored.depth, hbelow hlimit]
  · rw [openCalls_eq]
    exact hmirrored.frames

/-- A function that has another one return and then calls itself, under a limit of three levels. -/
def ladder : Session :=
  watched { World.new 2 2 with limits := { maxCallDepth := 3 } }
    { code :=
        #[.line 1, .load 4, .call 4 0, .halt,
          .load 5, .call 9 1, .line 2, .load 6, .call 4 0,
          .ret]
      names := #["climb", "rest"] }

/-- The call that has returned is gone, the two that are open are listed, and the call of the third
level is not announced. -/
theorem recorder_mirrors_calls_ladder :
    ladder.ReachedDepthLimit 11 ∧ (ladder.after 11).running = false ∧
      (ladder.after 11).machine.callDepth = 3 ∧ (ladder.recording 11).depth = 2 ∧
      (ladder.recording 11).frames.reverse = [⟨"climb", 4, 1⟩, ⟨"climb", 6, 2⟩] ∧
      (ladder.recording 11).maxDepth < 3 := by
  have hlimit : ladder.ReachedDepthLimit 11 :=
    ⟨10, by decide, ⟨9, 1, by decide +kernel⟩, by decide +kernel⟩
  have hdepth : (ladder.after 11).machine.callDepth = 3 := by decide +kernel
  have hopen : ladder.openCalls 11 = [⟨"climb", 4, 1⟩, ⟨"climb", 6, 2⟩] := by decide +kernel
  obtain ⟨hreached, -, hframes, hmax⟩ := recorder_mirrors_calls
    { World.new 2 2 with limits := { maxCallDepth := 3 } } ladder.program 11
  obtain ⟨hstopped, hless⟩ := hreached hlimit
  exact ⟨hlimit, hstopped, hdepth, Nat.succ.inj (hless.trans hdepth), hframes.trans hopen,
    hmax (by decide)⟩

end GridRobot.Session
