import Expander.Proofs.Chronology
import Expander.Proofs.Termination

/-!
Stopping on the way makes no difference.

A run handles the pending events in order, and none of them lies in the past. So it does not matter
whether time passes up to an event at once, or stops before (`runUntil_runUntil`): the event sets
the time to its own tick. Neither do stops that a host puts in anywhere on the way of its calls
(`Sliced`).
-/

set_option autoImplicit false

namespace Expander

namespace Simulation

/-- The events that `due` hands out are handled, until there are none. -/
inductive Drained (due : EventQueue → Option (Event × EventQueue)) :
    Simulation → Simulation → Prop where
  | idle {s : Simulation} : due s.events = none → Drained due s s
  | next {s s' t : Simulation} {e : Event} {rest : EventQueue} : due s.events = some (e, rest) →
      { s with events := rest, now := max s.now e.tick }.dispatch e = (.ok (), s') →
      Drained due s' t → Drained due s t

/-- The steps to the next completion. -/
inductive Polled : Simulation → List Completion × Simulation → Prop where
  | advance {s m : Simulation} {tick : Tick} {r : List Completion × Simulation} :
      s.nextEventTick = some tick → (∀ completed, s.nextCompletion = some completed →
        tick ≤ completed) → s.runUntil tick = (.settled, m) → Polled m r → Polled s r
  | collect {s : Simulation} {completed : Tick} : s.nextCompletion = some completed →
      (∀ tick, s.nextEventTick = some tick → completed < tick) →
      Polled s { s with now := max s.now completed }.takeCompletions
  | idle {s : Simulation} : s.nextCompletion = none → s.nextEventTick = none → Polled s ([], s)

variable {due : EventQueue → Option (Event × EventQueue)} {s m t t' : Simulation} {a b : Tick}
  {fuel : Nat} {r r' : List Completion × Simulation}

theorem drained_of_drain (ran : drain due fuel s = (.settled, t)) : Drained due s t := by
  induction fuel generalizing s with
  | zero =>
    rw [drain] at ran
    split at ran
    next none =>
      cases ran
      exact .idle (Option.isNone_iff_eq_none.1 none)
    next => cases ran
  | succ fuel ih =>
    rw [drain] at ran
    split at ran
    next none =>
      cases ran
      exact .idle none
    next e rest some =>
      split at ran
      next next handled => exact .next some handled (ih ran)
      next => cases ran

theorem Drained.unique (first : Drained due s t) (second : Drained due s t') : t = t' := by
  induction first with
  | idle none =>
    cases second with
    | idle => rfl
    | next some => cases none.symm.trans some
  | next some handled _ ih =>
    cases second with
    | idle none => cases none.symm.trans some
    | next some' handled' rest' =>
      cases some.symm.trans some'
      cases handled.symm.trans handled'
      exact ih rest'

theorem Drained.after {due' : EventQueue → Option (Event × EventQueue)}
    (sooner : ∀ q e rest, due q = some (e, rest) → due' q = some (e, rest))
    (first : Drained due s m) (second : Drained due' s t) : Drained due' m t := by
  induction first with
  | idle => exact second
  | next some handled _ ih =>
    cases second with
    | idle none => cases none.symm.trans (sooner _ _ _ some)
    | next some' handled' rest' =>
      cases (sooner _ _ _ some).symm.trans some'
      cases handled.symm.trans handled'
      exact ih rest'

theorem Drained.wait (first : ∀ q e rest, due q = some (e, rest) → q.events = e :: rest.events)
    (drained : Drained due s t) (le : s.now ≤ a) (ahead : ∀ e ∈ s.events.events, a ≤ e.tick) :
    Drained due { s with now := a } t ∨
      t = s ∧ Drained due { s with now := a } { s with now := a } := by
  cases drained with
  | idle none => exact .inr ⟨rfl, .idle none⟩
  | @next _ _ _ e rest some handled later =>
    have late : a ≤ e.tick := ahead e (first _ _ _ some ▸ List.mem_cons_self)
    have same : max a e.tick = max s.now e.tick := by
      rw [Nat.max_eq_right late, Nat.max_eq_right (Nat.le_trans le late)]
    refine .inl (.next some ?_ later)
    simp only [same]
    exact handled

theorem popDue_eq_some {q : EventQueue} {limit : Tick} {e : Event} {rest : EventQueue} :
    q.popDue limit = some (e, rest) ↔ q.pop = some (e, rest) ∧ e.tick ≤ limit := by
  rw [EventQueue.popDue, EventQueue.pop]
  split
  · simp
  · split <;> simp <;> grind

theorem popDue_mono (le : a ≤ b) (q : EventQueue) (e : Event) (rest : EventQueue)
    (some : q.popDue a = some (e, rest)) : q.popDue b = .some (e, rest) := by
  obtain ⟨first, early⟩ := popDue_eq_some.1 some
  exact popDue_eq_some.2 ⟨first, Nat.le_trans early le⟩

theorem runUntil_ahead (ahead : ∀ e ∈ s.events.events, a < e.tick) :
    s.runUntil a = (.settled, { s with now := max s.now a }) := by
  have none : s.events.popDue a = none := by
    rw [Option.eq_none_iff_forall_ne_some]
    rintro ⟨e, rest⟩ some
    have early := (popDue_eq_some.1 some).2
    have late := ahead e (Session.events_popDue _ _ _ _ some ▸ List.mem_cons_self)
    exact Nat.not_le.2 late early
  rw [runUntil]
  cases s.budget <;> simp [drain, none]

theorem polled_of_pollWithin (polled : pollWithin fuel s = (.settled, r)) : Polled s r := by
  induction fuel generalizing s with
  | zero => cases polled
  | succ fuel ih =>
    rcases s.pollWithin_succ fuel with ⟨tick, next, early, eq⟩ | ⟨completed, waits, late, eq⟩ |
      ⟨none, none', eq⟩
    · rw [eq] at polled
      cases ran : s.runUntil tick with
      | mk halt m =>
        rw [ran] at polled
        cases halt with
        | settled => exact .advance next early ran (ih polled)
        | fault | exhausted => cases polled
    · cases eq.symm.trans polled
      exact .collect waits late
    · cases eq.symm.trans polled
      exact .idle none none'

theorem Polled.unique (first : Polled s r) (second : Polled s r') : r = r' := by
  induction first with
  | advance next early ran _ ih =>
    cases second with
    | advance next' _ ran' rest =>
      cases next.symm.trans next'
      cases ran.symm.trans ran'
      exact ih rest
    | collect waits late => exact absurd (early _ waits) (Nat.not_le.2 (late _ next))
    | idle _ none => cases none.symm.trans next
  | collect waits late =>
    cases second with
    | advance next early _ _ => exact absurd (early _ waits) (Nat.not_le.2 (late _ next))
    | collect waits' _ =>
      cases waits.symm.trans waits'
      rfl
    | idle none _ => cases none.symm.trans waits
  | idle none none' =>
    cases second with
    | advance next _ _ _ => cases none'.symm.trans next
    | collect waits _ => cases none.symm.trans waits
    | idle => rfl

end Simulation

namespace Session

open Simulation (Drained Polled)

variable {h : Session} {config : Config} {s t : Simulation} {a b : Tick}
  {r : List Completion × Simulation}

theorem Reachable.drained_runUntil (reachable : Reachable config h) (limit : Tick) :
    ∃ t, Drained (fun q => q.popDue limit) h.system t ∧
      h.system.runUntil limit = (.settled, { t with now := max t.now limit }) := by
  have settled := reachable.runUntil_settled limit
  rw [Simulation.runUntil] at settled ⊢
  generalize eq : Simulation.drain _ _ _ = ran at settled ⊢
  obtain ⟨halt, t⟩ := ran
  cases halt with
  | settled => exact ⟨t, Simulation.drained_of_drain eq, rfl⟩
  | fault e => cases settled
  | exhausted => cases settled

theorem Reachable.drained_runUntilIdle (reachable : Reachable config h) :
    ∃ t, Drained EventQueue.pop h.system t ∧ h.system.runUntilIdle =
      (.settled, { t with now := max t.now (t.lastCompletion.getD 0) }) := by
  have settled := reachable.runUntilIdle_settled
  rw [Simulation.runUntilIdle] at settled ⊢
  generalize eq : Simulation.drain _ _ _ = ran at settled ⊢
  obtain ⟨halt, t⟩ := ran
  cases halt with
  | settled => exact ⟨t, Simulation.drained_of_drain eq, rfl⟩
  | fault e => cases settled
  | exhausted => cases settled

theorem Reachable.polled (reachable : Reachable config h) :
    ∃ r, Polled h.system r ∧ h.system.pollCompletions = (.settled, r) := by
  have settled := reachable.pollWithin_settled (h.system.budget + 1) (bounded_reach _)
    (Nat.lt_succ_of_le (Simulation.effort_le_budget reachable.numbered))
  have polled : h.system.pollCompletions = (.settled, h.system.pollCompletions.2) :=
    Prod.ext settled rfl
  exact ⟨_, Simulation.polled_of_pollWithin polled, polled⟩

theorem Standing.now_drained (standing : h.Standing)
    (drained : Drained (fun q => q.popDue a) h.system t) : t.now ≤ max h.system.now a := by
  generalize eq : h.system = s at drained
  induction drained generalizing h with
  | idle => exact eq ▸ Nat.le_max_left ..
  | @next s s' t e rest some handled _ ih =>
    subst eq
    have events := events_popDue _ _ _ _ some
    have fires : h.system.Fires s' := ⟨e, rest.events, events, handled⟩
    obtain ⟨e', others, events', now⟩ := now_fires fires
    cases events.symm.trans events'
    have early : e.tick ≤ a := (Simulation.popDue_eq_some.1 some).2
    have le := ih (standing.fires fires).standing rfl
    rw [now] at le
    grind

theorem Reachable.runUntil_runUntil (reachable : Reachable config h) (le : a ≤ b) :
    (h.system.runUntil a).2.runUntil b = h.system.runUntil b := by
  obtain ⟨m, first, stop⟩ := reachable.drained_runUntil a
  obtain ⟨t, whole, ran⟩ := reachable.drained_runUntil b
  have stopped : Reachable config (h.after (.runUntil a)) := .call _ reachable
  rw [after, stop] at stopped
  obtain ⟨t', rest, ran'⟩ := stopped.drained_runUntil b
  -- The rest of the run starts from `m`, where the time has not yet been set to `a`.
  have later : Drained (fun q => q.popDue b) m t := first.after (Simulation.popDue_mono le) whole
  have waited := later.wait (events_popDue b) (Nat.le_max_left m.now a)
    stopped.standing.attended.timely
  rw [stop, ran, ran']
  rcases waited with same | ⟨rfl, same⟩
  · rw [rest.unique same]
  · rw [rest.unique same]
    simp only [Nat.max_assoc, Nat.max_eq_right le]

theorem Reachable.runUntil_runUntilIdle (reachable : Reachable config h)
    (le : a ≤ h.system.runUntilIdle.2.now) :
    (h.system.runUntil a).2.runUntilIdle = h.system.runUntilIdle := by
  obtain ⟨m, first, stop⟩ := reachable.drained_runUntil a
  obtain ⟨t, whole, ran⟩ := reachable.drained_runUntilIdle
  have stopped : Reachable config (h.after (.runUntil a)) := .call _ reachable
  rw [after, stop] at stopped
  obtain ⟨t', rest, ran'⟩ := stopped.drained_runUntilIdle
  have later : Drained EventQueue.pop m t :=
    first.after (fun _ _ _ some => (Simulation.popDue_eq_some.1 some).1) whole
  have waited := later.wait events_pop (Nat.le_max_left m.now a)
    stopped.standing.attended.timely
  rw [ran] at le
  rw [stop, ran, ran']
  rcases waited with same | ⟨rfl, same⟩
  · rw [rest.unique same]
  · rw [rest.unique same]
    -- Nothing is left after the stop, so that the time goes on to the last completion.
    have last : max (max t.now a) (t.lastCompletion.getD 0) =
        max t.now (t.lastCompletion.getD 0) := by
      have le' : a ≤ max t.now (t.lastCompletion.getD 0) := le
      grind
    exact congrArg (fun now => (Halt.settled, { t with now })) last

theorem Reachable.polled_runUntil (reachable : Reachable config h)
    (polled : Polled h.system r) (late : h.system.now < a) (le : a ≤ r.2.now) :
    Polled (h.system.runUntil a).2 r := by
  generalize eq : h.system = s at polled
  induction polled generalizing h with
  | @advance s m tick r next early ran later ih =>
    subst eq
    have sorted := reachable.standing.attended.sorted
    rcases Nat.lt_trichotomy tick a with before | same | behind
    · have there : Reachable config (h.after (.runUntil tick)) := .call _ reachable
      rw [after, ran] at there
      obtain ⟨t, drained, ran'⟩ := reachable.drained_runUntil tick
      cases ran.symm.trans ran'
      have now := reachable.standing.now_drained drained
      have split := reachable.runUntil_runUntil (Nat.le_of_lt before)
      rw [ran] at split
      rw [← split]
      exact ih there (by grind) le rfl
    · subst same
      rw [ran]
      exact later
    · have ahead := ahead_of_nextTick (a + 1) sorted fun first next' => by
        cases next.symm.trans next'
        exact behind
      have split := reachable.runUntil_runUntil (Nat.le_of_lt behind)
      rw [Simulation.runUntil_ahead ahead] at split ⊢
      exact .advance next early (split.trans ran) later
  | @collect s completed waits after =>
    subst eq
    have ahead := ahead_of_nextTick (completed + 1) reachable.standing.attended.sorted after
    have early : a ≤ completed := by
      have le' : a ≤ max h.system.now completed := le
      grind
    have same : max h.system.now completed = max (max h.system.now a) completed := by
      rw [Nat.max_assoc, Nat.max_eq_right early]
    rw [Simulation.runUntil_ahead fun e mem => Nat.lt_of_le_of_lt early (ahead e mem), same]
    exact .collect waits after
  | idle =>
    subst eq
    exact absurd le (Nat.not_le.2 late)

/-- A tick that a call passes on its way, so that stopping there first makes no difference. -/
inductive Passes (h : Session) (a : Tick) : HostCall → Prop where
  | runUntil {limit : Tick} : a ≤ limit → Passes h a (.runUntil limit)
  | runUntilIdle : a ≤ (h.after .runUntilIdle).system.now → Passes h a .runUntilIdle
  | poll : h.system.now < a → a ≤ (h.after .poll).system.now → Passes h a .poll
  /-- Nothing is left to be handled up to that tick. -/
  | past {call : HostCall} : a ≤ h.system.now → (∀ e ∈ h.system.events.events, a < e.tick) →
      Passes h a call

/-- The second list makes the calls of the first one, and stops on the way. -/
inductive Sliced : Session → List HostCall → List HostCall → Prop where
  | done {h : Session} : Sliced h [] []
  | call {h : Session} {call : HostCall} {calls sliced : List HostCall} :
      Sliced (h.after call) calls sliced → Sliced h (call :: calls) (call :: sliced)
  | stop {h : Session} {a : Tick} {call : HostCall} {calls sliced : List HostCall} :
      h.Passes a call → Sliced (h.after (.runUntil a)) (call :: calls) sliced →
      Sliced h (call :: calls) (.runUntil a :: sliced)

def admissions (h : Session) : List HostCall → List (Except SimError Admission)
  | [] => []
  | .send access :: calls =>
    (h.system.sendRequest access.request).1 :: (h.after (.send access)).admissions calls
  | call :: calls => (h.after call).admissions calls

theorem after_stop (le : a ≤ h.system.now) (ahead : ∀ e ∈ h.system.events.events, a < e.tick) :
    h.after (.runUntil a) = h := by
  rw [after, Simulation.runUntil_ahead ahead, Nat.max_eq_left le]

theorem Reachable.after_passes (reachable : Reachable config h) {call : HostCall}
    (passes : h.Passes a call) : (h.after (.runUntil a)).after call = h.after call := by
  cases passes with
  | runUntil le => simp only [after, reachable.runUntil_runUntil le]
  | runUntilIdle le => simp only [after, reachable.runUntil_runUntilIdle le]
  | poll late le =>
    obtain ⟨r, polled, eq⟩ := reachable.polled
    have stopped : Reachable config (h.after (.runUntil a)) := .call _ reachable
    obtain ⟨r', polled', eq'⟩ := stopped.polled
    rw [after, eq] at le
    have same := polled'.unique (reachable.polled_runUntil polled late le)
    simp only [after] at eq' ⊢
    rw [eq, eq', same]
  | past le ahead => rw [after_stop le ahead]

theorem Reachable.admissions_passes (reachable : Reachable config h) {call : HostCall}
    (passes : h.Passes a call) (calls : List HostCall) :
    (h.after (.runUntil a)).admissions (call :: calls) = h.admissions (call :: calls) := by
  have same := reachable.after_passes passes
  cases passes with
  | runUntil | runUntilIdle | poll => simp only [admissions, same]
  | past le ahead => rw [after_stop le ahead]

/-- Time can be sliced: a stop on the way to a tick leaves the run as it is, and stops on the way of
any calls change neither the session nor what the host is told of its requests. -/
theorem sliceable_reachable (reachable : Reachable config h) :
    (∀ a b, a ≤ b → (h.system.runUntil a).2.runUntil b = h.system.runUntil b) ∧
    ∀ calls sliced, h.Sliced calls sliced →
      h.run sliced = h.run calls ∧ h.admissions sliced = h.admissions calls := by
  refine ⟨fun a b => reachable.runUntil_runUntil, fun calls sliced slices => ?_⟩
  induction slices with
  | done => exact ⟨rfl, rfl⟩
  | @call h call calls sliced _ ih =>
    obtain ⟨run, told⟩ := ih (.call call reachable)
    refine ⟨run, ?_⟩
    cases call with
    | send access => exact congrArg (List.cons _) told
    | atomic | runUntil | runUntilIdle | poll | take | takeRetry | load => exact told
  | @stop h a call calls sliced passes _ ih =>
    obtain ⟨run, told⟩ := ih (.call _ reachable)
    refine ⟨run.trans ?_, told.trans (reachable.admissions_passes passes calls)⟩
    exact congrArg (fun after : Session => after.run calls) (reachable.after_passes passes)

/-- Stops while a read is in the bridge, and while the host waits for another one. -/
theorem sliceable_stops : ∃ s, Simulation.create .standard {} = .ok s ∧
    (s.runUntil 60000).2.runUntil 100000 = s.runUntil 100000 ∧
    (start s).run [.send (.read 0x100000000 64), .runUntil 60000, .runUntil 100000,
        .send (.read 0x100000040 64), .runUntil 120000, .poll] =
      (start s).run [.send (.read 0x100000000 64), .runUntil 100000,
        .send (.read 0x100000040 64), .poll] := by
  refine ⟨_, rfl, ?_⟩
  have sliceable := sliceable_reachable (.start (show Simulation.create .standard {} = _ from rfl))
  refine ⟨sliceable.1 _ _ (by decide), (sliceable.2 _ _ ?_).1⟩
  exact .call (.stop (.runUntil (by decide)) (.call (.call
    (.stop (.poll (by decide +kernel) (by decide +kernel)) (.call .done)))))

end Session

end Expander
