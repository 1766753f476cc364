import Expander.Proofs.Course
import Expander.Proofs.Numbering

/-!
How time passes in a system.

Time never goes back, and a response that leaves to the host is stamped with the tick at which it
will have reached it, which is never in the past (`Simulation.Elapses`). No assumption is made on
the state of the system, and it is no matter whether an event fails.
-/

set_option autoImplicit false

namespace Expander

namespace Simulation

variable {s s' s'' : Simulation} {id : ComponentId} {p : Packet} {c : Completion} {tick : Tick}

theorem now_performActions (s : Simulation) (pending : List (ComponentId × Action)) :
    (s.performActions pending).now = s.now := by
  obtain ⟨_, _, _, eq⟩ := (sameBooks_performActions s pending).rest
  rw [eq]

theorem config_performActions (s : Simulation) (pending : List (ComponentId × Action)) :
    (s.performActions pending).config = s.config := by
  obtain ⟨_, _, _, eq⟩ := (sameBooks_performActions s pending).rest
  rw [eq]

theorem nextId_performActions (s : Simulation) (pending : List (ComponentId × Action)) :
    (s.performActions pending).nextId = s.nextId := by
  obtain ⟨_, _, _, eq⟩ := (sameBooks_performActions s pending).rest
  rw [eq]

theorem completions_performActions (s : Simulation) (pending : List (ComponentId × Action)) :
    (s.performActions pending).completions = s.completions := by
  obtain ⟨_, _, _, eq⟩ := (sameBooks_performActions s pending).rest
  rw [eq]

theorem isRanking_completesBefore : IsRanking completesBefore where
  asymm a b h := by
    simp only [completesBefore, decide_eq_true_eq, decide_eq_false_iff_not] at h ⊢
    grind
  trans a b c first second := by
    simp only [completesBefore, decide_eq_false_iff_not] at first second ⊢
    grind

theorem mem_takeCompletions :
    c ∈ s.takeCompletions.1 ↔ c ∈ s.completions ∧ c.completed ≤ s.now := by
  rw [takeCompletions, (sortStable_perm _ _).mem_iff, List.mem_filter, decide_eq_true_iff]

theorem mem_left_takeCompletions :
    c ∈ s.takeCompletions.2.completions ↔ c ∈ s.completions ∧ s.now < c.completed := by
  simp [takeCompletions]

theorem ordered_takeCompletions (s : Simulation) : s.takeCompletions.1.Pairwise fun a b =>
    a.completed < b.completed ∨ a.completed = b.completed ∧ a.id ≤ b.id := by
  refine (inOrder_sortStable isRanking_completesBefore _).imp fun {a b} before => ?_
  simp only [completesBefore, decide_eq_false_iff_not] at before
  grind

/-- Neither has time passed, nor has anything left to the host. -/
structure SameClock (s s' : Simulation) : Prop where
  now : s'.now = s.now
  completions : s'.completions = s.completions

theorem SameClock.refl (s : Simulation) : s.SameClock s := ⟨rfl, rfl⟩

theorem SameClock.trans (first : s.SameClock s') (second : s'.SameClock s'') : s.SameClock s'' :=
  ⟨second.now.trans first.now, second.completions.trans first.completions⟩

theorem sameClock_settle (s : Simulation) (id : ComponentId) (stage : Stage)
    (actions : List Action) : s.SameClock (s.settle id stage actions) := by
  rw [settle_eq]
  exact ⟨now_performActions _ _, completions_performActions _ _⟩

theorem SameClock.settled (same : s.SameClock s') (id : ComponentId) (stage : Stage)
    (actions : List Action) : s.SameClock (s'.settle id stage actions) :=
  same.trans (s'.sameClock_settle id stage actions)

theorem sameClock_react (s : Simulation) (id : ComponentId) (f : Stage → Stage × List Action) :
    s.SameClock (s.react id f) := by
  rw [react]
  split
  · exact .refl s
  · exact s.sameClock_settle _ _ _

theorem sameClock_offerRequest (s : Simulation) (id : ComponentId) (p : Packet) :
    s.SameClock (s.offerRequest id p).2 := by
  rw [offerRequest]
  split
  · exact .refl s
  · exact s.sameClock_settle _ _ _

theorem sameClock_offerResponse (s : Simulation) (id : ComponentId) (p : Packet) :
    s.SameClock (s.offerResponse id p).2 := by
  rw [offerResponse]
  split
  · exact .refl s
  · exact s.sameClock_settle _ _ _

theorem sameClock_takeRequest (takes : s.takeRequest id = some (p, s')) : s.SameClock s' := by
  obtain ⟨stage, -, takes⟩ := Option.bind_eq_some_iff.1 takes
  obtain ⟨taken, -, eq⟩ := Option.map_eq_some_iff.1 takes
  cases eq
  exact ⟨rfl, rfl⟩

theorem sameClock_takeResponse (takes : s.takeResponse id = some (p, s')) : s.SameClock s' := by
  obtain ⟨stage, -, takes⟩ := Option.bind_eq_some_iff.1 takes
  obtain ⟨taken, -, eq⟩ := Option.map_eq_some_iff.1 takes
  cases eq
  exact ⟨rfl, rfl⟩

theorem sameClock_forwardRequest (s : Simulation) (id : ComponentId) :
    s.SameClock (s.forwardRequest id).2 := by
  rw [forwardRequest]
  split
  · exact .refl s
  split
  · exact .refl s
  next down _ _ p taken takes =>
    have offers := (sameClock_takeRequest takes).trans
      (taken.sameClock_offerRequest down (p.arriveAt down s.now))
    split <;> rename_i eq <;> rw [eq] at offers
    · exact offers.trans (sameClock_react _ _ _)
    · exact offers.trans (sameClock_react _ _ _)
    · exact offers

theorem sameClock_sendRequest (s : Simulation) (r : HostRequest) :
    s.SameClock (s.sendRequest r).2 := by
  rw [sendRequest]
  split
  · exact .refl s
  split
  · exact ⟨rfl, rfl⟩
  dsimp only
  split
  · exact ⟨rfl, rfl⟩
  split
  · refine .settled ?_ _ _ _
    exact ⟨rfl, rfl⟩
  · refine .settled ?_ _ _ _
    exact ⟨rfl, rfl⟩
  · exact ⟨rfl, rfl⟩

theorem SameClock.walked (same : s.SameClock s') (fuel : Nat) (id : ComponentId) (p : Packet)
    (latency : Tick) : s.SameClock (walkAtomic fuel id p latency s').2 := by
  induction fuel generalizing id p latency s' with
  | zero => exact same
  | succ fuel ih =>
    rw [walkAtomic]
    split
    · exact same
    dsimp only
    split
    · exact ⟨same.now, same.completions⟩
    · exact ⟨same.now, same.completions⟩
    split
    · exact ⟨same.now, same.completions⟩
    · refine ih ?_ _ _ _
      exact ⟨same.now, same.completions⟩

theorem sameClock_accessAtomic (s : Simulation) (r : HostRequest) :
    s.SameClock (s.accessAtomic r).2 := by
  rw [accessAtomic]
  split
  · exact .refl s
  split
  · exact ⟨rfl, rfl⟩
  next target interconnect _ =>
    let routed : Simulation :=
      { s with fabric := { s.fabric with interconnect }, nextId := s.nextId + 1 }
    have same : s.SameClock routed := ⟨rfl, rfl⟩
    have walks := same.walked s.fabric.nodes.length target (r.toPacket s.nextId s.now)
      (interconnect.transitTime (r.toPacket s.nextId s.now).payload)
    dsimp only
    split <;> rename_i eq <;> rw [eq] at walks <;> exact walks

/-- No time has passed, and what has left to the host has not reached it before now. -/
structure Stamps (s s' : Simulation) : Prop where
  now : s'.now = s.now
  completions : ∃ stamped, s'.completions = s.completions ++ stamped ∧
    ∀ c ∈ stamped, s.now ≤ c.completed

theorem SameClock.stamps (same : s.SameClock s') : s.Stamps s' :=
  ⟨same.now, [], by rw [same.completions, List.append_nil], nofun⟩

theorem stamps_complete (s : Simulation) (p : Packet) : s.Stamps (s.complete p) :=
  ⟨rfl, _, rfl, List.forall_mem_singleton.2 (Nat.le_add_right ..)⟩

theorem SameClock.stamps_trans (same : s.SameClock s') (stamps : s'.Stamps s'') :
    s.Stamps s'' := by
  obtain ⟨now, stamped, completions, late⟩ := stamps
  rw [same.now] at now late
  exact ⟨now, stamped, same.completions ▸ completions, late⟩

theorem Stamps.same_trans (stamps : s.Stamps s') (same : s'.SameClock s'') : s.Stamps s'' := by
  obtain ⟨now, stamped, completions, late⟩ := stamps
  exact ⟨same.now.trans now, stamped, same.completions.trans completions, late⟩

theorem stamps_forwardResponse (s : Simulation) (id : ComponentId) :
    s.Stamps (s.forwardResponse id).2 := by
  rw [forwardResponse]
  split
  · exact (SameClock.refl s).stamps
  split
  · exact (SameClock.refl s).stamps
  next p taken takes =>
    have took := sameClock_takeResponse takes
    split
    · exact took.stamps_trans ((taken.stamps_complete p).same_trans (sameClock_react _ _ _))
    next up _ =>
      have offers := took.trans (taken.sameClock_offerResponse up p)
      split <;> rename_i eq <;> rw [eq] at offers
      · exact (offers.trans (sameClock_react _ _ _)).stamps
      · exact (offers.trans (sameClock_react _ _ _)).stamps
      · exact offers.stamps

theorem stamps_dispatch (s : Simulation) (e : Event) : s.Stamps (s.dispatch e).2 := by
  rw [dispatch]
  split
  · exact (s.sameClock_forwardRequest _).stamps
  · exact s.stamps_forwardResponse _
  · exact (s.sameClock_react _ _).stamps

/-- Time has not gone back, and what has left to the host has not reached it before. -/
structure Elapses (s s' : Simulation) : Prop where
  now : s.now ≤ s'.now
  completions : ∃ stamped, s'.completions = s.completions ++ stamped ∧
    ∀ c ∈ stamped, s.now ≤ c.completed

theorem Stamps.elapses (stamps : s.Stamps s') : s.Elapses s' := ⟨stamps.now.ge, stamps.completions⟩

theorem Elapses.refl (s : Simulation) : s.Elapses s := (SameClock.refl s).stamps.elapses

theorem Elapses.trans (first : s.Elapses s') (second : s'.Elapses s'') : s.Elapses s'' := by
  obtain ⟨le, stamped, completions, late⟩ := first
  obtain ⟨le', stamped', completions', late'⟩ := second
  refine ⟨Nat.le_trans le le', stamped ++ stamped', ?_, ?_⟩
  · rw [completions', completions, List.append_assoc]
  · exact List.forall_mem_append.2 ⟨late, fun c mem => Nat.le_trans le (late' c mem)⟩

theorem elapses_wait (s : Simulation) (tick : Tick) : s.Elapses { s with now := max s.now tick } :=
  ⟨Nat.le_max_left .., [], (List.append_nil _).symm, nofun⟩

theorem elapses_popped (s : Simulation) (e : Event) (others : List Event) :
    s.Elapses ((s.popped e others).dispatch e).2 := by
  have popped : s.Elapses (s.popped e others) :=
    ⟨Nat.le_max_left .., [], (List.append_nil _).symm, nofun⟩
  exact popped.trans (stamps_dispatch _ e).elapses

theorem elapses_drain (due : EventQueue → Option (Event × EventQueue)) (fuel : Nat)
    (s : Simulation) : s.Elapses (drain due fuel s).2 := by
  induction fuel generalizing s with
  | zero =>
    rw [drain]
    split <;> exact .refl s
  | succ fuel ih =>
    rw [drain]
    split
    · exact .refl s
    next e events _ =>
      have handled := s.elapses_popped e events.events
      rw [popped] at handled
      split
      next next eq =>
        rw [eq] at handled
        exact handled.trans (ih next)
      next failed eq =>
        rw [eq] at handled
        exact handled

theorem elapses_runUntil (s : Simulation) (limit : Tick) : s.Elapses (s.runUntil limit).2 := by
  have drained := elapses_drain (fun q => q.popDue limit) s.budget s
  rw [runUntil]
  split
  next ran eq =>
    rw [eq] at drained
    exact drained.trans (ran.elapses_wait limit)
  next => exact drained

theorem elapses_runUntilIdle (s : Simulation) : s.Elapses s.runUntilIdle.2 := by
  have drained := elapses_drain EventQueue.pop s.budget s
  rw [runUntilIdle]
  split
  next ran eq =>
    rw [eq] at drained
    exact drained.trans (ran.elapses_wait _)
  next => exact drained

/-- A poll hands out nothing, or takes what has reached the host by then. -/
theorem elapses_pollWithin (fuel : Nat) (s : Simulation) :
    ((pollWithin fuel s).2.1 = [] ∧ s.Elapses (pollWithin fuel s).2.2) ∨
      ∃ ran, s.Elapses ran ∧ (pollWithin fuel s).2 = ran.takeCompletions := by
  induction fuel generalizing s with
  | zero => exact .inl ⟨rfl, .refl s⟩
  | succ fuel ih =>
    rcases pollWithin_succ fuel s with ⟨tick, -, -, eq⟩ | ⟨completed, -, -, eq⟩ | ⟨-, -, eq⟩
    · have elapses := s.elapses_runUntil tick
      rw [eq]
      generalize s.runUntil tick = run at elapses ⊢
      obtain ⟨halt, ran⟩ := run
      cases halt with
      | settled =>
        exact (ih ran).imp (fun idle => ⟨idle.1, elapses.trans idle.2⟩)
          fun ⟨last, later, taken⟩ => ⟨last, elapses.trans later, taken⟩
      | fault | exhausted => exact .inl ⟨rfl, elapses⟩
    · rw [eq]
      exact .inr ⟨_, s.elapses_wait completed, rfl⟩
    · rw [eq]
      exact .inl ⟨rfl, .refl s⟩

end Simulation

namespace Session

/-- The completions that a call hands out. -/
def handed (h : Session) : HostCall → List Completion
  | .take => h.system.takeCompletions.1
  | .poll => h.system.pollCompletions.2.1
  | .send _ | .atomic _ | .runUntil _ | .runUntilIdle | .takeRetry | .load .. => []

variable {h h' : Session} {s : Simulation} {config : Config}

theorem returned_after (h : Session) (call : HostCall) :
    (h.after call).returned = h.returned ++ h.handed call := by
  cases call with
  | poll | take => rfl
  | atomic | runUntil | runUntilIdle | takeRetry => exact (List.append_nil _).symm
  | send access =>
    rw [after, handed, List.append_nil]
    split <;> rfl
  | load addr data =>
    rw [after, handed, List.append_nil]
    split <;> rfl

theorem now_fires (fires : h.system.Fires s) :
    ∃ e others, h.system.events.events = e :: others ∧ s.now = max h.system.now e.tick := by
  obtain ⟨e, others, events, handled⟩ := fires
  have stamps := Simulation.stamps_dispatch (h.system.popped e others) e
  rw [handled] at stamps
  exact ⟨e, others, events, stamps.now⟩

theorem stamps_fires (fires : h.system.Fires s) :
    h.system.now ≤ s.now ∧ ∃ stamped, s.completions = h.system.completions ++ stamped ∧
      ∀ c ∈ stamped, s.now ≤ c.completed := by
  obtain ⟨e, others, events, handled⟩ := fires
  have stamps := Simulation.stamps_dispatch (h.system.popped e others) e
  rw [handled] at stamps
  refine ⟨stamps.now ▸ Nat.le_max_left .., ?_⟩
  rw [stamps.now]
  exact stamps.completions

theorem untimed {call : HostCall} (immediate : call.immediate = true) (keeps : call ≠ .take) :
    (h.after call).system.now = h.system.now ∧
      (h.after call).system.completions = h.system.completions ∧
      (h.after call).returned = h.returned := by
  cases call with
  | runUntil | runUntilIdle | poll => cases immediate
  | take => exact absurd rfl keeps
  | takeRetry => exact ⟨rfl, rfl, rfl⟩
  | send access =>
    have same := h.system.sameClock_sendRequest access.request
    rw [after]
    split <;> rename_i eq <;> rw [eq] at same <;> exact ⟨same.now, same.completions, rfl⟩
  | atomic access =>
    have same := h.system.sameClock_accessAtomic access.request
    exact ⟨same.now, same.completions, rfl⟩
  | load addr data =>
    rw [after]
    split
    next s loaded =>
      obtain ⟨_, _, _, -, rfl⟩ := Simulation.load_eq_ok loaded
      exact ⟨rfl, rfl, rfl⟩
    next => exact ⟨rfl, rfl, rfl⟩

end Session

end Expander
