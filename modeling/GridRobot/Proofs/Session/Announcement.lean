import GridRobot.Proofs.Machine.Failure

/-!
# What a step tells the observer

An instruction announces at most one event: a call tells its function, its parameter and the source
line, a return tells the source line. `Session.announced?` is the event of the next step. It is
described by what the step executes and by whether the run goes on after it, since a call or a return
that ends the run announces nothing: the depth limit, a bad frame and the end of the program are not
told.

An observer that listens hears exactly these events, each of them right after its step
(`Watched.heard_next`).
-/

set_option autoImplicit false

namespace GridRobot

/-- The event that an instruction announces if the run goes on. -/
def Instruction.announcement? (i : Instruction) (m : Machine) : Option Event :=
  match i with
  | .call _ function => some (.call function (m.stack.words.headD 0) m.line)
  | .ret => some (.ret m.line)
  | _ => none

section Queue

variable {i : Instruction} {s t : Scene} {f : Fault}

theorem Instruction.announcement?_of_free (hbudget : i.consumesBudget = false) (hret : i ≠ .ret)
    (m : Machine) : i.announcement? m = none := by
  cases i with
  | call target function => simp [consumesBudget] at hbudget
  | ret => exact absurd rfl hret
  | _ => rfl

theorem Instruction.announcement?_of_action? {a : Action} (ha : i.action? = some a) (m : Machine) :
    i.announcement? m = none := by
  cases i with
  | forward | left | pickBuzzer | leaveBuzzer => rfl
  | _ => simp [action?] at ha

/-- An instruction after which the run goes on queues its event. -/
theorem Performed.queue_of_running (h : Performed i s t) (hrunning : t.machine.running = true) :
    t.queue = s.queue ++ (i.announcement? s.machine).toList := by
  cases h with
  | computed _ hbudget hret =>
    rw [Instruction.announcement?_of_free hbudget hret]
    exact (List.append_nil _).symm
  | acted ha =>
    rw [Instruction.announcement?_of_action? ha]
    exact (List.append_nil _).symm
  | called hparam =>
    rw [Instruction.announcement?, hparam]
    rfl
  | returned => rfl
  | ended => simp [Machine.halt] at hrunning
  | jumped | branched | entered => exact (List.append_nil _).symm

/-- The end of a program is not announced. -/
theorem Performed.queue_of_stopped (h : Performed i s t) (hs : s.machine.running = true)
    (ht : t.machine.running = false) : t.queue = s.queue := by
  cases h with
  | ended => rfl
  | _ =>
    have hstopped : s.machine.running = false := ht
    exact absurd (hs.symm.trans hstopped) (by simp)

/-- An instruction that raises a fault announces nothing. -/
theorem Failed.queue (h : Failed i s f t) : t.queue = s.queue := by
  cases h <;> rfl

end Queue

namespace Session

variable {s : Session}

/-- The event that the next step announces. -/
def announced? (s : Session) : Option Event :=
  if s.next.running then s.due?.bind fun i => i.announcement? s.machine else none

theorem announced?_of_stopped (h : s.next.running = false) : s.announced? = none := by
  simp [announced?, h]

theorem announced?_of_due? {i : Instruction} (hdue : s.due? = some i)
    (hnext : s.next.running = true) : s.announced? = i.announcement? s.machine := by
  simp [announced?, hnext, hdue]

/-- An instruction queues the event that its step announces. -/
theorem queue_of_due? {i : Instruction} (hdue : s.due? = some i) :
    (execute i (s.scene i)).1.queue = s.queue ++ s.announced?.toList := by
  have hsame : s.next.running = (execute i (s.scene i)).1.machine.running :=
    congrArg Machine.running (next_machine_of_due? hdue)
  have hsilent : s.next.running = false → s.queue = s.queue ++ s.announced?.toList := by
    intro hstopped
    rw [announced?_of_stopped hstopped]
    exact (List.append_nil _).symm
  cases hexecute : execute i (s.scene i) with
  | mk t fault =>
    rw [hexecute] at hsame
    cases fault with
    | some f =>
      obtain ⟨u, hu, rfl⟩ := failed_of_execute hexecute
      exact hu.queue.trans (hsilent hsame)
    | none =>
      have hperformed := performed_of_execute hexecute
      cases hnext : s.next.running with
      | true =>
        rw [announced?_of_due? hdue hnext]
        exact hperformed.queue_of_running (hsame.symm.trans hnext)
      | false =>
        have hqueue := hperformed.queue_of_stopped (running_of_due? hdue) (hsame.symm.trans hnext)
        exact hqueue.trans (hsilent hnext)

/-- An observer is installed and wants to know, and nothing is left to be delivered. -/
structure Watched (s : Session) : Prop where
  queue : s.queue = []
  notifications : s.notifications = true
  observed : s.observed = true

/-- Delivering tells the events in order, the latest last. -/
theorem heard_deliver (hnotifications : s.notifications = true) (hobserved : s.observed = true) :
    s.deliver.heard = (s.queue.map (Event.notification s.program)).reverse ++ s.heard := by
  have hfold : ∀ (events : List Event) (heard : List Notification),
      events.foldl (fun heard e => e.notification s.program :: heard) heard =
        (events.map (Event.notification s.program)).reverse ++ heard := by
    intro events
    induction events with
    | nil =>
      intro heard
      rfl
    | cons e events ih =>
      intro heard
      rw [List.foldl_cons, ih]
      simp
  simp only [deliver, hnotifications, hobserved, Bool.and_self, if_true]
  exact hfold s.queue s.heard

theorem deliver_queue (s : Session) : s.deliver.queue = [] := by
  rw [deliver]
  split <;> rfl

theorem deliver_notifications (s : Session) : s.deliver.notifications = s.notifications := by
  rw [deliver]
  split <;> rfl

theorem deliver_observed (s : Session) : s.deliver.observed = s.observed := by
  rw [deliver]
  split <;> rfl

theorem Watched.deliver (hnotifications : s.notifications = true) (hobserved : s.observed = true) :
    s.deliver.Watched :=
  ⟨s.deliver_queue, s.deliver_notifications.trans hnotifications,
    s.deliver_observed.trans hobserved⟩

/-- The observer stays, and keeps up with the run. -/
theorem Watched.next (h : s.Watched) : s.next.Watched := by
  have hstepped := s.stepped_next
  generalize s.next = t at hstepped
  cases hstepped with
  | idle | finished | refused => exact ⟨h.queue, h.notifications, h.observed⟩
  | performed => exact Watched.deliver h.notifications h.observed
  | failed => exact Watched.deliver h.notifications h.observed

theorem Watched.after (h : s.Watched) (n : Nat) : (s.after n).Watched := by
  induction n with
  | zero => exact h
  | succ n ih => exact ih.next

/-- The observer hears the event that a step announces, and nothing else. -/
theorem Watched.heard_next (h : s.Watched) :
    s.next.heard = (s.announced?.map (Event.notification s.program)).toList ++ s.heard := by
  cases hdue : s.due? with
  | none =>
    rw [announced?_of_stopped (running_next_of_due?_eq_none hdue)]
    rcases next_of_due?_eq_none hdue with hnext | hnext | ⟨f, -, -, hnext⟩ <;> rw [hnext] <;> rfl
  | some i =>
    have hheard : (s.executeNext i).deliver.heard =
        ((execute i (s.scene i)).1.queue.map (Event.notification s.program)).reverse ++ s.heard :=
      heard_deliver (s := s.executeNext i) h.notifications h.observed
    rw [next_of_due? hdue, hheard, queue_of_due? hdue, h.queue, List.nil_append]
    -- there is at most one event
    cases s.announced? <;> rfl

end Session

end GridRobot
