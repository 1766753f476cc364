import Expander.Proofs.Events
import Expander.Proofs.Ledger

/-!
What a session keeps to while time passes.

A standing session has the layout of its configuration, an attended system and balanced books. The
events of a run never fail, and each of them is a step of the books (`Standing.drain`); so running
to a tick, running until nothing is pending, and collecting completions keep the session standing.
-/

set_option autoImplicit false

namespace Expander

def Simulation.Settled (s : Simulation) : Prop :=
  s.events.events = [] ∧ ∀ c ∈ s.completions, c.completed ≤ s.now

namespace Session

def ledger (h : Session) : Ledger where
  nextId := h.system.nextId
  views := h.system.cargo
  accepted := h.accepted
  produced := h.produced

def expander (h : Session) : AddressRange := h.system.config.device.range

/-- The layout is that of the configuration, no wake-up is lost, and the books balance. -/
structure Standing (h : Session) : Prop where
  valid : h.system.config.Valid
  sites : h.system.fabric.sites = h.system.config.sites
  /-- The host reaches system memory and the front. -/
  routes : ∀ route ∈ h.system.fabric.interconnect.routes,
    (route.range = h.system.config.system.memoryRange ∧ route.target = 0) ∨
    (route.range = h.expander ∧ route.target = h.system.config.front)
  attended : h.system.Attended h.unanswered []
  balanced : h.ledger.Balanced h.expander
  issued : h.system.host.issued = h.accepted.length
  completed : h.system.host.completed = h.produced.length

/-- A session goes on to another standing one, and the books step by step. -/
structure Reaches (timed : Bool) (h h' : Session) : Prop where
  standing : h'.Standing
  config : h'.system.config = h.system.config
  steps : Ledger.Steps h.expander timed h.ledger h'.ledger

variable {timed : Bool} {h h' h'' : Session} {s : Simulation}

theorem Standing.chained (standing : h.Standing) :
    Chained h.system.fabric.sites h.expander := by
  rw [standing.sites]
  exact standing.valid.chained

theorem Standing.refl (standing : h.Standing) : h.Reaches timed h := ⟨standing, rfl, .refl⟩

theorem Reaches.trans (first : h.Reaches timed h') (second : h'.Reaches timed h'') :
    h.Reaches timed h'' := by
  refine ⟨second.standing, second.config.trans first.config, first.steps.trans ?_⟩
  have same : h'.expander = h.expander := by rw [expander, first.config, expander]
  exact same ▸ second.steps

theorem Reaches.loosen (reaches : h.Reaches true h') : h.Reaches timed h' := by
  cases timed with
  | true => exact reaches
  | false =>
    have steps := Relation.ReflTransGen.mono (fun _ _ => Ledger.Step.loosen) _ _ reaches.steps
    exact ⟨reaches.standing, reaches.config, steps⟩

theorem Standing.reaches (standing : h.Standing)
    (layout : h'.system.config = h.system.config ∧
      h'.system.fabric.sites = h.system.fabric.sites ∧
      h'.system.fabric.interconnect.routes = h.system.fabric.interconnect.routes)
    (attended : h'.system.Attended h'.unanswered [])
    (steps : Ledger.Steps h.expander timed h.ledger h'.ledger)
    (issued : h'.system.host.issued = h'.accepted.length)
    (completed : h'.system.host.completed = h'.produced.length) : h.Reaches timed h' := by
  obtain ⟨config, sites, routes⟩ := layout
  have expander : h'.expander = h.expander := by rw [expander, config, Session.expander]
  refine ⟨⟨config ▸ standing.valid, sites.trans (config ▸ standing.sites), ?_, attended,
    expander ▸ standing.balanced.steps steps, issued, completed⟩, config, steps⟩
  rw [routes, config, expander]
  exact standing.routes

theorem Standing.unseen (standing : h.Standing)
    (layout : s.config = h.system.config ∧ s.fabric.nodes = h.system.fabric.nodes ∧
      s.fabric.interconnect.routes = h.system.fabric.interconnect.routes)
    (books : s.nextId = h.system.nextId ∧ s.completions = h.system.completions)
    (counts : s.host.issued = h.system.host.issued ∧
      s.host.completed = h.system.host.completed) {unanswered : Bool}
    (attended : s.Attended unanswered []) :
    h.Reaches timed { h with system := s, unanswered } := by
  obtain ⟨config, nodes, routes⟩ := layout
  have ledger : ledger { h with system := s, unanswered } = h.ledger := by
    simp only [Session.ledger, Simulation.cargo, nodes, books.1, produced, books.2]
  refine standing.reaches ⟨config, ?_, routes⟩ attended (ledger ▸ .refl)
    (counts.1.trans standing.issued) ?_
  · simp only [Fabric.sites, nodes]
  · simp only [produced, books.2]
    exact counts.2.trans standing.completed

theorem Standing.wait (standing : h.Standing) (tick : Tick) (le : h.system.now ≤ tick)
    (ahead : ∀ e ∈ h.system.events.events, tick ≤ e.tick) :
    h.Reaches true { h with system := { h.system with now := tick } } :=
  standing.unseen (s := { h.system with now := tick }) ⟨rfl, rfl, rfl⟩ ⟨rfl, rfl⟩ ⟨rfl, rfl⟩
    (standing.attended.wait le ahead)

theorem Standing.progress {events : EventQueue} {now : Tick} (standing : h.Standing)
    (progress : { h.system with events, now }.Progress s)
    (attended : s.Attended h.unanswered []) : h.Reaches true { h with system := s } := by
  obtain ⟨out, flow, completions, completed⟩ := progress.flow
  have kept : s.config = h.system.config ∧ s.nextId = h.system.nextId ∧
      s.fabric.interconnect = h.system.fabric.interconnect := by
    obtain ⟨_, _, _, _, _, rfl⟩ := progress.rest
    exact ⟨rfl, rfl, rfl⟩
  obtain ⟨config, nextId, interconnect⟩ := kept
  simp only at completions completed
  -- The completions carry ticks that the move itself does not know; the step takes them as
  -- a function of the packet.
  have moved : Ledger.Step h.expander true h.ledger _ := .move
    (fun p => now + h.system.fabric.interconnect.transitTime p.payload) flow
  have produced : produced { h with system := s } = h.produced ++ out.map fun p =>
      Completion.ofResponse p (now + h.system.fabric.interconnect.transitTime p.payload) := by
    simp only [Session.produced, completions, List.append_assoc]
  have books : ledger { h with system := s } = { h.ledger with
      views := s.cargo
      produced := h.ledger.produced + (out.map fun p => Completion.ofResponse p
        (now + h.system.fabric.interconnect.transitTime p.payload) : List Completion) } := by
    simp only [ledger, produced, nextId, Multiset.coe_add]
  refine standing.reaches ⟨config, progress.sites, congrArg _ interconnect⟩ attended
    (.single (books ▸ moved)) (progress.issued.trans standing.issued) ?_
  simp only [produced, completed, standing.completed, List.length_append, List.length_map]

theorem Standing.event {e : Event} {others : List Event} (standing : h.Standing)
    (events : h.system.events.events = e :: others) :
    ∃ s, { h.system with events := ⟨others⟩, now := max h.system.now e.tick }.dispatch e =
      (.ok (), s) ∧ h.Reaches true { h with system := s } := by
  have now : max h.system.now e.tick = e.tick :=
    Nat.max_eq_right (standing.attended.timely e (events ▸ List.mem_cons_self))
  have popped := standing.attended.pop events
  rw [now] at popped ⊢
  obtain ⟨s, eq, attended, progress⟩ := Simulation.dispatch_spec
    (s := { h.system with events := ⟨others⟩, now := e.tick }) standing.chained
    standing.balanced.orderly popped
  exact ⟨s, eq, standing.progress progress attended⟩

theorem Standing.drain {due : EventQueue → Option (Event × EventQueue)}
    (first : ∀ q e rest, due q = some (e, rest) → q.events = e :: rest.events) (fuel : Nat)
    (standing : h.Standing) :
    ∃ halt s, Simulation.drain due fuel h.system = (halt, s) ∧
      h.Reaches true { h with system := s } ∧
      ((halt = .settled ∧ due s.events = none) ∨ halt = .exhausted) := by
  -- Each event leaves a standing session behind, so the hypothesis is for every session.
  induction fuel generalizing h with
  | zero =>
    rw [Simulation.drain]
    split
    next none => exact ⟨_, _, rfl, standing.refl, .inl ⟨rfl, Option.isNone_iff_eq_none.1 none⟩⟩
    next => exact ⟨_, _, rfl, standing.refl, .inr rfl⟩
  | succ fuel ih =>
    rw [Simulation.drain]
    split
    next none => exact ⟨_, _, rfl, standing.refl, .inl ⟨rfl, none⟩⟩
    next e rest some =>
      obtain ⟨s, eq, reaches⟩ := standing.event (first _ _ _ some)
      obtain ⟨halt, s', eq', reaches', ended⟩ := ih reaches.standing
      simp only [eq]
      exact ⟨halt, s', eq', reaches.trans reaches', ended⟩

theorem events_popDue (limit : Tick) (q : EventQueue) (e : Event) (rest : EventQueue)
    (h : q.popDue limit = some (e, rest)) : q.events = e :: rest.events := by
  rw [EventQueue.popDue] at h
  split at h
  · cases h
  · rename_i events
    split at h
    · cases h
      exact events
    · cases h

theorem events_pop (q : EventQueue) (e : Event) (rest : EventQueue)
    (h : q.pop = some (e, rest)) : q.events = e :: rest.events := by
  rw [EventQueue.pop] at h
  split at h
  · cases h
  · rename_i events
    cases h
    exact events

theorem ahead_of_nextTick {q : EventQueue} (tick : Tick) (sorted : q.Sorted)
    (next : ∀ first, q.nextTick = some first → tick ≤ first) : ∀ e ∈ q.events, tick ≤ e.tick := by
  obtain ⟨events⟩ := q
  cases events with
  | nil => exact nofun
  | cons first others =>
    have early : tick ≤ first.tick := next first.tick rfl
    intro e mem
    rcases List.mem_cons.1 mem with rfl | later
    · exact early
    · have notBefore := (List.pairwise_cons.1 sorted).1 e later
      simp only [Event.before, decide_eq_false_iff_not] at notBefore
      exact Nat.le_trans early (Nat.le_of_not_lt notBefore)

theorem ahead_of_popDue {q : EventQueue} {limit : Tick} (sorted : q.Sorted)
    (none : q.popDue limit = none) : ∀ e ∈ q.events, limit < e.tick := by
  refine ahead_of_nextTick (limit + 1) sorted fun first next => ?_
  rw [EventQueue.popDue] at none
  obtain ⟨e, head, rfl⟩ := Option.map_eq_some_iff.1 next
  split at none
  · rename_i events
    cases (events ▸ head : [].head? = some e)
  · rename_i first others events
    cases (events ▸ head : (first :: others).head? = some e)
    split at none
    · cases none
    · rename_i late
      exact Nat.lt_of_not_le late

theorem Standing.runUntil (standing : h.Standing) (limit : Tick) :
    ∃ halt s, h.system.runUntil limit = (halt, s) ∧ h.Reaches true { h with system := s } ∧
      (halt = .settled ∨ halt = .exhausted) := by
  obtain ⟨halt, s, eq, reaches, ended⟩ := standing.drain
    (events_popDue limit) h.system.budget
  rw [Simulation.runUntil, eq]
  rcases ended with ⟨rfl, none⟩ | rfl
  · have attended := reaches.standing.attended
    have waited := reaches.standing.wait (max s.now limit) (Nat.le_max_left ..) fun e mem =>
      Nat.max_le.2
        ⟨attended.timely e mem, Nat.le_of_lt (ahead_of_popDue attended.sorted none e mem)⟩
    exact ⟨_, _, rfl, reaches.trans waited, .inl rfl⟩
  · exact ⟨_, _, rfl, reaches, .inr rfl⟩

theorem Standing.runUntilIdle (standing : h.Standing) :
    ∃ halt s, h.system.runUntilIdle = (halt, s) ∧ h.Reaches true { h with system := s } ∧
      ((halt = .settled ∧ s.Settled) ∨ halt = .exhausted) := by
  obtain ⟨halt, s, eq, reaches, ended⟩ := standing.drain events_pop
    h.system.budget
  rw [Simulation.runUntilIdle, eq]
  rcases ended with ⟨rfl, none⟩ | rfl
  · have empty : s.events.events = [] := by
      rw [EventQueue.pop] at none
      split at none
      · assumption
      · cases none
    -- Time moves on to the last completion, so that every completion has landed.
    have waited := reaches.standing.wait (max s.now (s.lastCompletion.getD 0))
      (Nat.le_max_left ..) fun e mem => by simp [empty] at mem
    refine ⟨_, _, rfl, reaches.trans waited, .inl ⟨rfl, empty, fun c mem => ?_⟩⟩
    have last : c.completed ≤ s.lastCompletion.getD 0 :=
      List.le_max?_getD_of_mem (List.mem_map_of_mem mem)
    exact Nat.le_trans last (Nat.le_max_right ..)
  · exact ⟨_, _, rfl, reaches, .inr rfl⟩

theorem Standing.take (standing : h.Standing) :
    h.Reaches true { h with
      system := h.system.takeCompletions.2
      returned := h.returned ++ h.system.takeCompletions.1 } := by
  have same : (h.returned ++ h.system.takeCompletions.1 ++
      h.system.takeCompletions.2.completions).Perm h.produced := by
    rw [List.append_assoc, produced]
    refine List.Perm.append_left _ ?_
    have sorted := sortStable_perm Simulation.completesBefore
      (h.system.completions.filter fun c => decide (c.completed ≤ h.system.now))
    exact (sorted.append_right _).trans (List.filter_append_perm _ _)
  have ledger : ledger { h with
      system := h.system.takeCompletions.2
      returned := h.returned ++ h.system.takeCompletions.1 } = h.ledger := by
    simp only [Session.ledger]
    congr 1
    exact Multiset.coe_eq_coe.2 same
  exact standing.reaches ⟨rfl, rfl, rfl⟩ (standing.attended.alike rfl rfl rfl rfl)
    (ledger ▸ .refl) standing.issued (standing.completed.trans same.length_eq.symm)

theorem Standing.collect (standing : h.Standing) {completed : Tick}
    (ahead : ∀ e ∈ h.system.events.events, completed ≤ e.tick) :
    h.Reaches true { h with
      system := { h.system with now := max h.system.now completed }.takeCompletions.2
      returned := h.returned ++
        { h.system with now := max h.system.now completed }.takeCompletions.1 } := by
  have waited := standing.wait (max h.system.now completed) (Nat.le_max_left ..) fun e mem =>
    Nat.max_le.2 ⟨standing.attended.timely e mem, ahead e mem⟩
  exact waited.trans waited.standing.take

/-- Advancing event by event to the next completion. -/
theorem Standing.pollWithin (fuel : Nat) (standing : h.Standing) :
    ∃ halt collected s, Simulation.pollWithin fuel h.system = (halt, collected, s) ∧
      h.Reaches true { h with system := s, returned := h.returned ++ collected } := by
  have idle (s : Simulation) (reaches : h.Reaches true { h with system := s }) :
      h.Reaches true { h with system := s, returned := h.returned ++ [] } := by
    rw [List.append_nil]
    exact reaches
  induction fuel generalizing h with
  | zero => exact ⟨_, _, _, rfl, idle h.system standing.refl⟩
  | succ fuel ih =>
    -- The polls that go on run to a tick first, and poll again with less fuel if that run settles.
    have advance (tick : Tick) (polled : Halt × List Completion × Simulation)
        (settled : ∀ ran, h.system.runUntil tick = (.settled, ran) →
          polled = Simulation.pollWithin fuel ran)
        (exhausted : ∀ ran, h.system.runUntil tick = (.exhausted, ran) →
          polled = (.exhausted, [], ran)) :
        ∃ halt collected s, polled = (halt, collected, s) ∧
          h.Reaches true { h with system := s, returned := h.returned ++ collected } := by
      obtain ⟨halt, ran, eq, reaches, ended⟩ := standing.runUntil tick
      rcases ended with rfl | rfl
      · obtain ⟨halt, collected, s, polled, reaches'⟩ := ih reaches.standing fun s more => by
          rw [List.append_nil]
          exact more
        exact ⟨halt, collected, s, (settled ran eq).trans polled, reaches.trans reaches'⟩
      · exact ⟨_, _, _, exhausted ran eq, idle ran reaches⟩
    have sorted := standing.attended.sorted
    rw [Simulation.pollWithin]
    split
    next completed event _ next =>
      split
      next =>
        exact advance event _ (fun ran eq => by simp only [eq]) (fun ran eq => by simp only [eq])
      next late =>
        have ahead := ahead_of_nextTick completed sorted fun first eq => by
          cases next.symm.trans eq
          exact Nat.le_of_not_le late
        exact ⟨_, _, _, rfl, standing.collect ahead⟩
    next completed _ none =>
      have ahead := ahead_of_nextTick completed sorted fun first eq => by
        cases none.symm.trans eq
      exact ⟨_, _, _, rfl, standing.collect ahead⟩
    next event _ _ =>
      exact advance event _ (fun ran eq => by simp only [eq]) (fun ran eq => by simp only [eq])
    next => exact ⟨_, _, _, rfl, idle h.system standing.refl⟩

theorem Standing.takeRetry (standing : h.Standing) :
    h.Reaches true { h with
      system := h.system.takeRetry.2
      unanswered := h.unanswered && !h.system.takeRetry.1 } := by
  have attended := standing.attended
  refine standing.unseen (s := h.system.takeRetry.2) ⟨rfl, rfl, rfl⟩ ⟨rfl, rfl⟩ ⟨rfl, rfl⟩
    ⟨attended.sound, attended.armed,
    attended.requests, attended.responses, attended.host, fun waits => ?_, attended.sorted,
    attended.timely⟩
  obtain ⟨refused, untold⟩ := Bool.and_eq_true_iff.1 waits
  have untold' : h.system.hostRetry = false := Bool.not_eq_true' _ ▸ untold
  rcases attended.promised refused with told | owed
  · exact absurd (untold'.symm.trans told) Bool.false_ne_true
  · exact .inr owed

end Session

end Expander
