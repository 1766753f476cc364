import Expander.Proofs.Reachability

/-!
The steps that a session takes.

Whatever a call does comes about in steps: an event is handled, time passes up to the next event at
most, or the host is served at once (`Standing.steps_after`). A property of sessions that every step
keeps holds from then on (`Steps.keeps`), also when it speaks of what the host was handed. A call
that lets time pass takes only such steps as the system takes by itself (`Standing.advances_after`).
-/

set_option autoImplicit false

namespace Expander

def HostCall.immediate : HostCall → Bool
  | send _ | atomic _ | take | takeRetry | load .. => true
  | runUntil _ | runUntilIdle | poll => false

namespace Simulation

def pollOn (fuel : Nat) : Halt × Simulation → Halt × List Completion × Simulation
  | (.settled, ran) => pollWithin fuel ran
  | (.fault e, ran) => (.fault e, [], ran)
  | (.exhausted, ran) => (.exhausted, [], ran)

/-- A poll runs to the next event, unless a completion reaches the host before. -/
theorem pollWithin_succ (fuel : Nat) (s : Simulation) :
    (∃ tick, s.nextEventTick = some tick ∧
      (∀ completed, s.nextCompletion = some completed → tick ≤ completed) ∧
      pollWithin (fuel + 1) s = pollOn fuel (s.runUntil tick)) ∨
    (∃ completed, s.nextCompletion = some completed ∧
      (∀ tick, s.nextEventTick = some tick → completed < tick) ∧ pollWithin (fuel + 1) s =
        (.settled, { s with now := max s.now completed }.takeCompletions)) ∨
    (s.nextCompletion = none ∧ s.nextEventTick = none ∧
      pollWithin (fuel + 1) s = (.settled, [], s)) := by
  rw [pollWithin]
  beta_reduce
  split
  next completed event waits next =>
    split
    next early =>
      refine .inl ⟨event, next, fun completed' waits' => ?_, ?_⟩
      · cases waits.symm.trans waits'
        exact early
      · rcases s.runUntil event with ⟨_ | _ | _, ran⟩ <;> rfl
    next late =>
      refine .inr (.inl ⟨completed, waits, fun tick next' => ?_, rfl⟩)
      cases next.symm.trans next'
      exact Nat.lt_of_not_le late
  next completed waits none =>
    refine .inr (.inl ⟨completed, waits, fun tick next => ?_, rfl⟩)
    cases none.symm.trans next
  next event none next =>
    refine .inl ⟨event, next, fun completed waits => ?_, ?_⟩
    · cases none.symm.trans waits
    · rcases s.runUntil event with ⟨_ | _ | _, ran⟩ <;> rfl
  next none none' => exact .inr (.inr ⟨none, none', rfl⟩)

end Simulation

namespace Session

/-- What a session does by itself while its host lets time pass. -/
inductive Advance (h : Session) : Session → Prop where
  | fires {s : Simulation} : h.system.Fires s → Advance h { h with system := s }
  /-- Time passes, and no event is left behind. -/
  | waits {tick : Tick} : h.system.now ≤ tick → (∀ e ∈ h.system.events.events, tick ≤ e.tick) →
      Advance h { h with system := { h.system with now := tick } }
  /-- The host is handed what has reached it. -/
  | takes : Advance h (h.after .take)

abbrev Advances : Session → Session → Prop := Relation.ReflTransGen Advance

/-- What a session does at once. -/
inductive Step (h : Session) : Session → Prop where
  | fires {s : Simulation} : h.system.Fires s → Step h { h with system := s }
  /-- Time passes, and no event is left behind. -/
  | waits {tick : Tick} : h.system.now ≤ tick → (∀ e ∈ h.system.events.events, tick ≤ e.tick) →
      Step h { h with system := { h.system with now := tick } }
  | calls {call : HostCall} : call.immediate = true → Step h (h.after call)

abbrev Steps : Session → Session → Prop := Relation.ReflTransGen Step

variable {h h' : Session} {s : Simulation} {config : Config} {P : Session → Prop}

theorem Advance.step (advance : h.Advance h') : h.Step h' := by
  cases advance with
  | fires fires => exact .fires fires
  | waits le ahead => exact .waits le ahead
  | takes => exact .calls rfl

theorem Advances.steps (advances : h.Advances h') : h.Steps h' := by
  induction advances with
  | refl => exact .refl
  | tail _ advance ih => exact ih.tail advance.step

theorem Standing.step (standing : h.Standing) (step : h.Step h') : h.Reaches false h' := by
  cases step with
  | fires fires => exact (standing.fires fires).loosen
  | waits le ahead => exact (standing.wait _ le ahead).loosen
  | calls => exact standing.after _ nofun

theorem Standing.steps (standing : h.Standing) (steps : h.Steps h') : h.Reaches false h' := by
  induction steps with
  | refl => exact standing.refl
  | tail _ step ih => exact ih.trans (ih.standing.step step)

theorem Steps.keeps (steps : h.Steps h') (standing : h.Standing) (holds : P h)
    (step : ∀ {h h' : Session}, h.Standing → P h → h.Step h' → P h') : P h' := by
  induction steps with
  | refl => exact holds
  | tail before next ih => exact step (standing.steps before).standing ih next

theorem Lasts.step {P : Simulation → Prop} (lasts : Lasts P) (standing : h.Standing)
    (holds : P h.system) (step : h.Step h') : P h'.system := by
  cases step with
  | fires fires => exact lasts.fires standing holds fires
  | waits => exact lasts.wait _ holds
  | calls => exact lasts.after _ standing holds

theorem Step.accepted_subset (step : h.Step h') : h.accepted ⊆ h'.accepted := by
  cases step with
  | fires | waits => exact fun g mem => mem
  | @calls call =>
    intro g mem
    cases call with
    | send access =>
      rw [after]
      split
      · exact List.mem_append_left _ mem
      · exact mem
      · exact mem
    | atomic | runUntil | runUntilIdle | poll | take | takeRetry => exact mem
    | load addr data =>
      rw [after]
      split <;> exact mem

theorem Standing.advances_drain {due : EventQueue → Option (Event × EventQueue)}
    (first : ∀ q e rest, due q = some (e, rest) → q.events = e :: rest.events) (fuel : Nat)
    (standing : h.Standing) :
    h.Advances { h with system := (Simulation.drain due fuel h.system).2 } := by
  induction fuel generalizing h with
  | zero =>
    rw [Simulation.drain]
    split <;> exact .refl
  | succ fuel ih =>
    rw [Simulation.drain]
    split
    next => exact .refl
    next e rest some =>
      obtain ⟨s, handled, reaches⟩ := standing.event (first _ _ _ some)
      have fires : h.system.Fires s := ⟨e, rest.events, first _ _ _ some, handled⟩
      simp only [handled]
      exact .head (.fires fires) (ih reaches.standing)

theorem Standing.advances_runUntil (limit : Tick) (standing : h.Standing) :
    h.Advances { h with system := (h.system.runUntil limit).2 } := by
  have drained := standing.advances_drain (events_popDue limit) h.system.budget
  obtain ⟨halt, s, eq, reaches, ended⟩ :=
    standing.drain (events_popDue limit) h.system.budget
  rw [eq] at drained
  rw [Simulation.runUntil, eq]
  rcases ended with ⟨rfl, none⟩ | rfl
  · have attended := reaches.standing.attended
    have ahead := ahead_of_popDue attended.sorted none
    exact drained.tail (.waits (Nat.le_max_left ..) fun e mem =>
      Nat.max_le.2 ⟨attended.timely e mem, Nat.le_of_lt (ahead e mem)⟩)
  · exact drained

theorem Standing.advances_runUntilIdle (standing : h.Standing) :
    h.Advances { h with system := h.system.runUntilIdle.2 } := by
  have drained := standing.advances_drain events_pop h.system.budget
  obtain ⟨halt, s, eq, -, ended⟩ := standing.drain events_pop h.system.budget
  rw [eq] at drained
  rw [Simulation.runUntilIdle, eq]
  rcases ended with ⟨rfl, none⟩ | rfl
  · have empty : s.events.events = [] := by
      rw [EventQueue.pop] at none
      split at none
      · assumption
      · cases none
    exact drained.tail (.waits (Nat.le_max_left ..) fun e mem => by simp [empty] at mem)
  · exact drained

theorem Standing.advances_collect {completed : Tick} (standing : h.Standing)
    (ahead : ∀ e ∈ h.system.events.events, completed ≤ e.tick) :
    h.Advances { h with
      system := { h.system with now := max h.system.now completed }.takeCompletions.2
      returned := h.returned ++
        { h.system with now := max h.system.now completed }.takeCompletions.1 } := by
  have waits : h.Advance { h with system := { h.system with now := max h.system.now completed } } :=
    .waits (Nat.le_max_left ..) fun e mem =>
      Nat.max_le.2 ⟨standing.attended.timely e mem, ahead e mem⟩
  exact .tail (.single waits) .takes

theorem Standing.advances_pollWithin (fuel : Nat) (standing : h.Standing) :
    h.Advances { h with
      system := (Simulation.pollWithin fuel h.system).2.2
      returned := h.returned ++ (Simulation.pollWithin fuel h.system).2.1 } := by
  induction fuel generalizing h with
  | zero => simpa [Simulation.pollWithin] using .refl
  | succ fuel ih =>
    have sorted := standing.attended.sorted
    rcases Simulation.pollWithin_succ fuel h.system with ⟨tick, -, -, eq⟩ |
      ⟨completed, -, late, eq⟩ | ⟨-, -, eq⟩
    · have ran := standing.advances_runUntil tick
      rw [eq]
      generalize h.system.runUntil tick = run at ran ⊢
      obtain ⟨halt, s⟩ := run
      cases halt with
      | settled => exact ran.trans (ih (standing.steps ran.steps).standing)
      | fault | exhausted => simpa [Simulation.pollOn] using ran
    · rw [eq]
      exact standing.advances_collect (ahead_of_nextTick completed sorted fun first next =>
        Nat.le_of_lt (late first next))
    · simpa [eq] using .refl

theorem Standing.advances_after {call : HostCall} (standing : h.Standing)
    (waits : call.immediate = false) : h.Advances (h.after call) := by
  cases call with
  | runUntil limit => exact standing.advances_runUntil limit
  | runUntilIdle => exact standing.advances_runUntilIdle
  | poll => exact standing.advances_pollWithin _
  | send | atomic | take | takeRetry | load => cases waits

theorem Standing.steps_after (call : HostCall) (standing : h.Standing) :
    h.Steps (h.after call) := by
  cases immediate : call.immediate with
  | true => exact .single (.calls immediate)
  | false => exact (standing.advances_after immediate).steps

theorem Reachable.steps (reachable : Reachable config h) :
    ∃ (machine : Machine) (s : Simulation), Simulation.create machine config = .ok s ∧
      Steps (Session.start s) h := by
  induction reachable with
  | start created => exact ⟨_, _, created, .refl⟩
  | call call reachable ih =>
    obtain ⟨machine, s, created, before⟩ := ih
    exact ⟨machine, s, created, before.trans (reachable.standing.steps_after call)⟩
  | event _ fires ih =>
    obtain ⟨machine, s, created, before⟩ := ih
    exact ⟨machine, s, created, before.tail (.fires fires)⟩

/-- What holds of every session before its first call, and what every step keeps, holds in every
state that a session passes through. -/
theorem Reachable.keeps (reachable : Reachable config h)
    (opening : ∀ {machine : Machine} s, Simulation.create machine config = .ok s →
      P (Session.start s))
    (step : ∀ {h h' : Session}, h.Standing → P h → h.Step h' → P h') : P h := by
  obtain ⟨_, s, created, steps⟩ := reachable.steps
  exact steps.keeps (standing_start created) (opening s created) step

end Session

end Expander
