import Expander.Proofs.Moves
import Expander.Proofs.Opening

/-!
The states that a session passes through.

A session can be looked at between two calls of its host, and between two events of a call. In all
of these states it is standing. A property of the system holds in all of them if it holds when the
system is created and lasts through single events and through the calls that act at once
(`Lasts.reachable`): the other calls are made of events.
-/

set_option autoImplicit false

namespace Expander

namespace Simulation

def popped (s : Simulation) (e : Event) (others : List Event) : Simulation :=
  { s with events := ⟨others⟩, now := max s.now e.tick }

def Fires (s s' : Simulation) : Prop :=
  ∃ e others, s.events.events = e :: others ∧ (s.popped e others).dispatch e = (.ok (), s')

/-- The first step to the next completion. -/
inductive Polls (fuel : Nat) (s : Simulation) : Halt × List Completion × Simulation → Prop where
  /-- The next event is handled, and the poll goes on. -/
  | advances {tick : Tick} {ran : Simulation} : s.nextEventTick = some tick →
      s.runUntil tick = (.settled, ran) → Polls fuel s (pollWithin fuel ran)
  | halts {tick : Tick} {halt : Halt} {ran : Simulation} : s.nextEventTick = some tick →
      s.runUntil tick = (halt, ran) → halt ≠ .settled → Polls fuel s (halt, [], ran)
  /-- What reaches the host next is handed out. -/
  | collects (completed : Tick) :
      Polls fuel s (.settled, { s with now := max s.now completed }.takeCompletions)
  | idles : Polls fuel s (.settled, [], s)

theorem polls_pollWithin (fuel : Nat) (s : Simulation) :
    Polls fuel s (pollWithin (fuel + 1) s) := by
  rw [pollWithin]
  beta_reduce
  split
  next completed event _ next =>
    split
    next =>
      split
      next ran run => exact .advances next run
      next halt ran unsettled run => exact .halts next run unsettled
    next => exact .collects completed
  next completed _ _ => exact .collects completed
  next event _ next =>
    split
    next ran run => exact .advances next run
    next halt ran unsettled run => exact .halts next run unsettled
  next => exact .idles

theorem load_eq_ok {s s' : Simulation} {addr : Nat} {data : List UInt8}
    (loaded : s.load addr data = .ok s') :
    ∃ id stage store, s.fabric.stage? id = some stage ∧
      s' = s.setStage id (stage.withStore store) := by
  rw [load] at loaded
  split at loaded
  · cases loaded
  · rename_i range id stage store located
    split at loaded
    · cases loaded
    · rename_i written _
      cases loaded
      obtain ⟨registration, -, located⟩ := Option.bind_eq_some_iff.1 located
      obtain ⟨stage', found, located⟩ := Option.bind_eq_some_iff.1 located
      obtain ⟨store', -, eq⟩ := Option.map_eq_some_iff.1 located
      cases eq
      exact ⟨_, _, written, found, rfl⟩

end Simulation

namespace Session

/-- The states that a session passes through, between calls and between events. -/
inductive Reachable (config : Config) : Session → Prop where
  | start {machine : Machine} {s : Simulation} :
      Simulation.create machine config = .ok s → Reachable config (start s)
  | call {h : Session} (call : HostCall) : Reachable config h → Reachable config (h.after call)
  /-- A call is about to handle the next event. -/
  | event {h : Session} {s : Simulation} : Reachable config h → h.system.Fires s →
      Reachable config { h with system := s }

variable {h : Session} {s : Simulation} {config : Config}

theorem Standing.fires (standing : h.Standing) (fires : h.system.Fires s) :
    h.Reaches true { h with system := s } := by
  obtain ⟨e, others, events, handled⟩ := fires
  obtain ⟨s', handled', reaches⟩ := standing.event events
  cases handled.symm.trans handled'
  exact reaches

theorem Reachable.standing (reachable : Reachable config h) : h.Standing := by
  induction reachable with
  | start created => exact standing_start created
  | @call h call _ ih =>
    have reaches : h.Reaches false (h.after call) := ih.after call nofun
    exact reaches.standing
  | event _ fires ih => exact (ih.fires fires).standing

theorem Reachable.run (reachable : Reachable config h) (calls : List HostCall) :
    Reachable config (h.run calls) := by
  induction calls generalizing h with
  | nil => exact reachable
  | cons call calls ih => exact ih (.call call reachable)

/-- The property outlasts an event, and every call that acts at once. -/
structure Lasts (P : Simulation → Prop) : Prop where
  fires : ∀ {h : Session} {s : Simulation}, h.Standing → P h.system → h.system.Fires s → P s
  /-- Time passes, completions are handed out, or a retry is reported. -/
  eased : ∀ {s : Simulation} (now : Tick) (completions : List Completion) (hostRetry : Bool),
    P s → P { s with now, completions, hostRetry }
  send : ∀ {h : Session} (access : Access), h.Standing → P h.system →
    P (h.system.sendRequest access.request).2
  atomic : ∀ {h : Session} (access : Access), h.Standing → P h.system →
    P (h.system.accessAtomic access.request).2
  load : ∀ {h : Session} {s : Simulation} {addr : Nat} {data : List UInt8}, h.Standing →
    P h.system → h.system.load addr data = .ok s → P s

variable {P : Simulation → Prop}

theorem Lasts.drain (lasts : Lasts P) {due : EventQueue → Option (Event × EventQueue)}
    (first : ∀ q e rest, due q = some (e, rest) → q.events = e :: rest.events) (fuel : Nat)
    (standing : h.Standing) (holds : P h.system) :
    P (Simulation.drain due fuel h.system).2 := by
  induction fuel generalizing h with
  | zero =>
    rw [Simulation.drain]
    split <;> exact holds
  | succ fuel ih =>
    rw [Simulation.drain]
    split
    next => exact holds
    next e rest some =>
      have events := first _ _ _ some
      obtain ⟨s, handled, reaches⟩ := standing.event events
      simp only [handled]
      exact ih reaches.standing (lasts.fires standing holds ⟨e, rest.events, events, handled⟩)

theorem Lasts.wait (lasts : Lasts P) (now : Tick) (holds : P s) : P { s with now } :=
  lasts.eased now s.completions s.hostRetry holds

theorem Lasts.runUntil (lasts : Lasts P) (limit : Tick) (standing : h.Standing)
    (holds : P h.system) : P (h.system.runUntil limit).2 := by
  have drained := lasts.drain (events_popDue limit) h.system.budget standing holds
  rw [Simulation.runUntil]
  split
  next ran eq =>
    rw [eq] at drained
    exact lasts.wait _ drained
  next => exact drained

theorem Lasts.runUntilIdle (lasts : Lasts P) (standing : h.Standing) (holds : P h.system) :
    P h.system.runUntilIdle.2 := by
  have drained := lasts.drain events_pop h.system.budget standing holds
  rw [Simulation.runUntilIdle]
  split
  next ran eq =>
    rw [eq] at drained
    exact lasts.wait _ drained
  next => exact drained

theorem Lasts.take (lasts : Lasts P) (holds : P s) : P s.takeCompletions.2 :=
  lasts.eased s.now _ s.hostRetry holds

theorem Lasts.pollWithin (lasts : Lasts P) (fuel : Nat) (standing : h.Standing)
    (holds : P h.system) : P (Simulation.pollWithin fuel h.system).2.2 := by
  induction fuel generalizing h with
  | zero => exact holds
  | succ fuel ih =>
    have polls := Simulation.polls_pollWithin fuel h.system
    generalize Simulation.pollWithin (fuel + 1) h.system = polled at polls ⊢
    cases polls with
    | @advances tick ran next run =>
      have kept := lasts.runUntil tick standing holds
      rw [run] at kept
      obtain ⟨halt, s, eq, reaches, -⟩ := standing.runUntil tick
      cases run.symm.trans eq
      exact ih reaches.standing kept
    | @halts tick halt ran next run =>
      have kept := lasts.runUntil tick standing holds
      rw [run] at kept
      exact kept
    | collects completed => exact lasts.take (lasts.wait _ holds)
    | idles => exact holds

theorem Lasts.after (lasts : Lasts P) (call : HostCall) (standing : h.Standing)
    (holds : P h.system) : P (h.after call).system := by
  cases call with
  | send access =>
    have kept := lasts.send access standing holds
    rw [Session.after]
    split
    all_goals
      rename_i eq
      rw [eq] at kept
      exact kept
  | atomic access => exact lasts.atomic access standing holds
  | runUntil limit => exact lasts.runUntil limit standing holds
  | runUntilIdle => exact lasts.runUntilIdle standing holds
  | poll => exact lasts.pollWithin _ standing holds
  | take => exact lasts.take holds
  | takeRetry => exact lasts.eased h.system.now h.system.completions false holds
  | load addr data =>
    rw [Session.after]
    split
    next eq => exact lasts.load standing holds eq
    next => exact holds

theorem Lasts.reachable (lasts : Lasts P)
    (start : ∀ {machine : Machine} s, Simulation.create machine config = .ok s → P s)
    (reachable : Reachable config h) : P h.system := by
  induction reachable with
  | start created => exact start _ created
  | call call reachable ih => exact lasts.after call reachable.standing ih
  | event reachable fires ih => exact lasts.fires reachable.standing ih fires

end Session

end Expander
