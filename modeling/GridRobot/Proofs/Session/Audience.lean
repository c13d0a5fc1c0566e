import GridRobot.Proofs.Session.Announcement
import GridRobot.Proofs.Session.Reset

/-!
# Observers are told what happens and change nothing

Between the calls that drive a session, notifications are turned on and off and observers come and go.
An `Order` is a command to the session or a change of its observer. Two sessions that get the same
commands, but for notifications, go through the same machines and worlds, whoever listens to them.

What an observer is told is stated through the sessions at which a call makes its steps
(`Session.visits`): the events of these steps are told in their order if someone listens during the
call, and are lost otherwise (`Session.heard_drive`). The queue is empty between any two steps, so
nothing is told later.
-/

set_option autoImplicit false

namespace GridRobot

namespace Session

variable {s t : Session}

/-! ## One step -/

/-- An observer is installed and wants to know. -/
def listening (s : Session) : Bool :=
  s.notifications && s.observed

/-- What the next step tells an observer that listens. -/
def told? (s : Session) : Option Notification :=
  s.announced?.map (Event.notification s.program)

/-- The second session has the audience of the first, and no event waits to be delivered. -/
structure Attended (s t : Session) : Prop where
  queue : t.queue = []
  notifications : t.notifications = s.notifications
  observed : t.observed = s.observed

theorem Attended.listening (h : s.Attended t) : t.listening = s.listening := by
  rw [Session.listening, Session.listening, h.notifications, h.observed]

theorem Attended.trans {u : Session} (h : s.Attended t) (h' : t.Attended u) : s.Attended u :=
  ⟨h'.queue, h'.notifications.trans h.notifications, h'.observed.trans h.observed⟩

theorem attended_deliver (s : Session) (c : Scene) : s.Attended (s.withScene c).deliver :=
  ⟨deliver_queue _, deliver_notifications _, deliver_observed _⟩

theorem attended_next (h : s.queue = []) : s.Attended s.next := by
  have hstepped := s.stepped_next
  generalize s.next = t at hstepped
  cases hstepped with
  | idle | finished | refused => exact ⟨h, rfl, rfl⟩
  | performed => exact attended_deliver s _
  | failed => exact attended_deliver s _

/-- Where nobody listens, a delivery tells nothing. -/
theorem heard_deliver_of_not_listening (h : s.listening = false) : s.deliver.heard = s.heard := by
  rw [deliver]
  split
  · rename_i hlistening
    exact absurd (hlistening.symm.trans h) (by simp)
  · rfl

/-- A step tells its event to those who listen. -/
theorem heard_next (h : s.queue = []) :
    s.next.heard = (if s.listening then s.told?.toList else []) ++ s.heard := by
  cases hlistening : s.listening with
  | true =>
    obtain ⟨hnotifications, hobserved⟩ := Bool.and_eq_true_iff.1 hlistening
    exact Watched.heard_next ⟨h, hnotifications, hobserved⟩
  | false =>
    have hstepped := s.stepped_next
    generalize s.next = t at hstepped
    cases hstepped with
    | idle | finished | refused => rfl
    | performed => exact heard_deliver_of_not_listening (s := Session.withScene s _) hlistening
    | failed => exact heard_deliver_of_not_listening (s := Session.withScene s _) hlistening

/-- Entering the source line ahead tells nobody. -/
theorem heard_advance (h : s.queue = []) :
    s.Attended s.advance ∧
      s.advance.heard = (if s.listening then s.told?.toList else []) ++ s.heard := by
  rcases s.advance_cases with hsame | ⟨n, -, -, hentered⟩
  · rw [hsame]
    exact ⟨attended_next h, heard_next h⟩
  · have hattended := attended_next h
    rw [hentered]
    exact ⟨⟨hattended.queue, hattended.notifications, hattended.observed⟩, heard_next h⟩

/-! ## One call -/

/-- Whether the machine runs and is not about to enter a source line. -/
def midLine (s : Session) : Bool :=
  s.running && s.lineAhead?.isNone

/-- Advances as long as the session may go on, at most `fuel` times. -/
def loop (goesOn : Session → Bool) : Nat → Session → Session
  | 0, s => s
  | fuel + 1, s => if goesOn s.advance then loop goesOn fuel s.advance else s.advance

/-- The sessions from which a loop advances. -/
def loopVisits (goesOn : Session → Bool) : Nat → Session → List Session
  | 0, _ => []
  | fuel + 1, s => s :: if goesOn s.advance then loopVisits goesOn fuel s.advance else []

theorem step_eq_loop (fuel : Nat) (s : Session) : step fuel s = loop midLine fuel s := by
  induction fuel generalizing s with
  | zero => rfl
  | succ fuel ih =>
    rw [step_succ, ih]
    rfl

theorem run_eq_loop (fuel : Nat) (s : Session) : run fuel s = loop running fuel s := by
  induction fuel generalizing s with
  | zero => rfl
  | succ fuel ih =>
    rw [run_succ, ih]
    rfl

/-- The sessions at which a call makes a step. -/
def visits (s : Session) : Drive → List Session
  | .next => [s]
  | .step fuel => loopVisits midLine fuel s
  | .run fuel => loopVisits running fuel s

/-- The events of the instructions that a call executes, in the order of their execution. -/
def events (s : Session) (d : Drive) : List Notification :=
  (s.visits d).filterMap told?

theorem heard_loop (goesOn : Session → Bool) (fuel : Nat) (h : s.queue = []) :
    s.Attended (loop goesOn fuel s) ∧
      (loop goesOn fuel s).heard =
        (if s.listening then ((loopVisits goesOn fuel s).filterMap told?).reverse else []) ++
          s.heard := by
  induction fuel generalizing s with
  | zero =>
    refine ⟨⟨h, rfl, rfl⟩, ?_⟩
    show s.heard = (if s.listening then [] else []) ++ s.heard
    rw [ite_self, List.nil_append]
  | succ fuel ih =>
    obtain ⟨hattended, hheard⟩ := heard_advance h
    rw [loop, loopVisits]
    by_cases hgoes : goesOn s.advance = true
    · obtain ⟨hattended', hheard'⟩ := ih hattended.queue
      rw [if_pos hgoes, if_pos hgoes]
      refine ⟨hattended.trans hattended', ?_⟩
      -- the event of the first step has been told before those of the others
      rw [hheard', hheard, hattended.listening, List.filterMap_cons]
      cases s.listening <;> cases s.told? <;> simp
    · rw [if_neg hgoes, if_neg hgoes]
      refine ⟨hattended, ?_⟩
      rw [hheard, List.filterMap_cons]
      cases s.told? <;> rfl

/-- A call tells the events of its instructions to those who listen, the latest last. -/
theorem heard_drive (h : s.queue = []) (d : Drive) :
    s.Attended (s.drive d) ∧
      (s.drive d).heard = (if s.listening then (s.events d).reverse else []) ++ s.heard := by
  cases d with
  | next =>
    refine ⟨attended_next h, (heard_next h).trans ?_⟩
    show _ = (if s.listening then ([s].filterMap told?).reverse else []) ++ s.heard
    rw [List.filterMap_cons]
    cases s.told? <;> rfl
  | step fuel =>
    show s.Attended (step fuel s) ∧ (step fuel s).heard = _
    rw [step_eq_loop]
    exact heard_loop midLine fuel h
  | run fuel =>
    show s.Attended (run fuel s) ∧ (run fuel s).heard = _
    rw [run_eq_loop]
    exact heard_loop running fuel h

/-- What a program can see of a session. -/
def state (s : Session) : Machine × World :=
  (s.machine, s.world)

theorem Twin.loopVisits {goesOn : Session → Bool} (hgoes : ∀ u v, u.Twin v → goesOn u = goesOn v)
    (h : s.Twin t) (fuel : Nat) :
    (loopVisits goesOn fuel s).map state = (loopVisits goesOn fuel t).map state := by
  induction fuel generalizing s t with
  | zero => rfl
  | succ fuel ih =>
    have hstate : s.state = t.state := by rw [state, state, h.machine, h.world]
    rw [Session.loopVisits, Session.loopVisits, List.map_cons, List.map_cons, hstate,
      hgoes _ _ h.advance]
    split
    · rw [ih h.advance]
    · rfl

/-- Twins make the same steps in a call. -/
theorem Twin.visits (h : s.Twin t) (d : Drive) :
    (s.visits d).map state = (t.visits d).map state := by
  cases d with
  | next =>
    show [s.state] = [t.state]
    rw [state, state, h.machine, h.world]
  | step fuel =>
    refine Twin.loopVisits ?_ h fuel
    intro u v huv
    rw [midLine, midLine, huv.running, huv.lineAhead?]
  | run fuel =>
    refine Twin.loopVisits ?_ h fuel
    intro u v huv
    exact huv.running

/-! ## Observers that come and go -/

/-- A command to a session, or a change of its observer. -/
inductive Order where
  | command (c : Command)
  /-- Installs an observer that has been told something before. -/
  | install (told : List Notification)
  | remove
  deriving DecidableEq, Repr

/-- The command in an order that does not concern observers. -/
def Order.shared? : Order → Option Command
  | .command (.notify _) => none
  | .command c => some c
  | _ => none

/-- The session after an order. -/
def follow (s : Session) : Order → Session
  | .command c => s.obey c
  | .install told => { s with observed := true, heard := told }
  | .remove => { s with observed := false }

/-- The session after several orders. -/
def followAll (s : Session) (os : List Order) : Session :=
  os.foldl follow s

/-- The events of the instructions that are executed on an order. -/
def eventsOf (s : Session) : Order → List Notification
  | .command (.drive d) => s.events d
  | _ => []

/-- The events of the instructions that are executed while someone listens. -/
def transcript (s : Session) : List Order → List Notification
  | [] => []
  | o :: os => (if s.listening then s.eventsOf o else []) ++ (s.follow o).transcript os

theorem Twin.symm (h : s.Twin t) : t.Twin s :=
  ⟨h.world.symm, h.program.symm, h.machine.symm, h.queue.symm⟩

theorem Twin.trans {u : Session} (h : s.Twin t) (h' : t.Twin u) : s.Twin u :=
  ⟨h.world.trans h'.world, h.program.trans h'.program, h.machine.trans h'.machine,
    h.queue.trans h'.queue⟩

/-- Only the commands that do not concern observers matter to a session. -/
theorem Twin.followAll (h : s.Twin t) (os : List Order) :
    (s.followAll os).Twin (t.obeyAll (os.filterMap Order.shared?)) := by
  induction os generalizing s t with
  | nil => exact h
  | cons o os ih =>
    cases o with
    | install told => exact ih ⟨h.world, h.program, h.machine, h.queue⟩
    | remove => exact ih ⟨h.world, h.program, h.machine, h.queue⟩
    | command c =>
      cases c with
      | notify enabled => exact ih ⟨h.world, h.program, h.machine, h.queue⟩
      | drive d => exact ih (h.obey (.drive d))
      | restart => exact ih (h.obey .restart)
      | reset => exact ih (h.obey .reset)

theorem queue_follow (h : s.queue = []) (o : Order) : (s.follow o).queue = [] := by
  cases o with
  | install told => exact h
  | remove => exact h
  | command c =>
    cases c with
    | drive d => exact (heard_drive h d).1.queue
    | restart => rfl
    | reset => rfl
    | notify enabled => exact h

theorem queue_followAll (h : s.queue = []) (os : List Order) : (s.followAll os).queue = [] := by
  induction os generalizing s with
  | nil => exact h
  | cons o os ih => exact ih (queue_follow h o)

/-- Only orders that concern observers change who listens. -/
theorem listening_follow (h : s.queue = []) {o : Order} (ho : o.shared? ≠ none) :
    (s.follow o).listening = s.listening := by
  cases o with
  | install told => exact absurd rfl ho
  | remove => exact absurd rfl ho
  | command c =>
    cases c with
    | drive d => exact (heard_drive h d).1.listening
    | restart => rfl
    | reset => rfl
    | notify enabled => exact absurd rfl ho

/-- As long as no other observer is installed, what has been told grows by the events of an order. -/
theorem heard_follow (h : s.queue = []) {o : Order} (ho : ∀ told, o ≠ .install told) :
    (s.follow o).heard = (if s.listening then s.eventsOf o else []).reverse ++ s.heard := by
  have hsilent : s.heard = (if s.listening then [] else []).reverse ++ s.heard := by
    rw [ite_self]
    rfl
  cases o with
  | install told => exact absurd rfl (ho told)
  | remove => exact hsilent
  | command c =>
    cases c with
    | drive d =>
      refine (heard_drive h d).2.trans ?_
      show _ = (if s.listening then s.events d else []).reverse ++ s.heard
      cases s.listening <;> rfl
    | restart => exact hsilent
    | reset => exact hsilent
    | notify enabled => exact hsilent

theorem heard_followAll (h : s.queue = []) {os : List Order}
    (hos : ∀ told, Order.install told ∉ os) :
    (s.followAll os).heard = (s.transcript os).reverse ++ s.heard := by
  induction os generalizing s with
  | nil => rfl
  | cons o os ih =>
    have ho : ∀ told, o ≠ .install told := by
      rintro told rfl
      exact hos told List.mem_cons_self
    have hrest : ∀ told, Order.install told ∉ os := by
      intro told hmem
      exact hos told (List.mem_cons_of_mem o hmem)
    show ((s.follow o).followAll os).heard = _
    rw [ih (queue_follow h o) hrest, heard_follow h ho, transcript, List.reverse_append,
      List.append_assoc]

theorem followAll_append (s : Session) (os os' : List Order) :
    s.followAll (os ++ os') = (s.followAll os).followAll os' :=
  List.foldl_append

/-- Two sessions that differ in their observers only, and that have no event to deliver, go through
the same machines and worlds, between the calls and within them, whenever they get the same commands
apart from those that concern observers. After every order there is no event to deliver, and no other
order changes who listens. As long as no other observer takes its place, an observer is told exactly
the events of the instructions that are executed while it is installed and notifications are on, each
once and in the order of their execution. -/
theorem observers_inert (htwin : s.Twin t) (hqueue : s.queue = []) :
    (∀ os os', os.filterMap Order.shared? = os'.filterMap Order.shared? →
      (s.followAll os).machine = (t.followAll os').machine ∧
      (s.followAll os).world = (t.followAll os').world ∧
      ∀ d, ((s.followAll os).visits d).map state = ((t.followAll os').visits d).map state) ∧
    (∀ os, (s.followAll os).queue = []) ∧
    (∀ os o, o.shared? ≠ none →
      ((s.followAll os).follow o).listening = (s.followAll os).listening) ∧
    (∀ before told since, (∀ told', Order.install told' ∉ since) →
      (s.followAll (before ++ .install told :: since)).heard =
        ((s.followAll (before ++ [.install told])).transcript since).reverse ++ told) := by
  refine ⟨?_, queue_followAll hqueue, ?_, ?_⟩
  · intro os os' hcommands
    have hleft := htwin.followAll os
    have hright := (htwin.symm.trans htwin).followAll os'
    rw [← hcommands] at hright
    have hboth := hleft.trans hright.symm
    exact ⟨hboth.machine, hboth.world, hboth.visits⟩
  · intro os o ho
    exact listening_follow (queue_followAll hqueue os) ho
  · intro before told since hsince
    have hsplit : before ++ Order.install told :: since = (before ++ [.install told]) ++ since := by
      simp
    have htold : (s.followAll (before ++ [.install told])).heard = told := by
      rw [followAll_append]
      rfl
    rw [hsplit, followAll_append, heard_followAll (queue_followAll hqueue _) hsince, htold]

/-- Two calls, each of which returns. -/
def gossip : Session :=
  .new (World.new 2 2)
    { code := #[.load 4, .call 5 0, .load 6, .call 5 1, .halt, .line 3, .ret]
      names := #["first", "second"] }

/-- The observer listens to the first call, not up to the second one, and then again. -/
def eavesdrop : List Order :=
  [.command (.drive .next), .command (.drive .next), .command (.notify false),
    .command (.drive (.step 9)), .command (.drive .next), .command (.notify true),
    .command (.drive (.run 9))]

/-- The same calls without an observer. -/
def unheard : List Order :=
  [.command (.drive .next), .command (.drive .next), .command (.drive (.step 9)),
    .command (.drive .next), .remove, .command (.drive (.run 9))]

/-- The return of the first call and the second call are not told, neither then nor later. -/
theorem observers_inert_gossip :
    gossip.Twin { gossip with notifications := false } ∧ gossip.queue = [] ∧
      (gossip.followAll (.install [] :: eavesdrop)).state =
        (Session.followAll { gossip with notifications := false } unheard).state ∧
      (gossip.followAll (.install [] :: eavesdrop)).heard =
        [.ret 3, .call "first" 4 0] := by
  have htwin : gossip.Twin { gossip with notifications := false } := ⟨rfl, rfl, rfl, rfl⟩
  have hinert := observers_inert htwin rfl
  obtain ⟨hmachine, hworld, -⟩ := hinert.1 (.install [] :: eavesdrop) unheard (by decide)
  refine ⟨htwin, rfl, ?_, ?_⟩
  · rw [state, state, hmachine, hworld]
  · refine (hinert.2.2.2 [] [] eavesdrop (by simp [eavesdrop])).trans ?_
    decide +kernel

end Session

end GridRobot
