import Mathlib.Algebra.Group.Action.Defs
import Expander.Proofs.Numbering
import Expander.Proofs.Stage.Effort

/-!
Every run of events ends.

The effort of a system is what its pending events and the loads of its stages can still bring about
while the host sends nothing. Each event that is handled leaves less of it (`Standing.spends`): a
packet that moves on pays for the events of both stages, a burst that is issued pays for its
response and the next round, and a packet that is refused costs nothing. The effort fits in the
budget of a run, so that no run is cut short.
-/

set_option autoImplicit false

namespace Expander

namespace Fabric

variable {f : Fabric} {id other : ComponentId} {old old' : Stage}

def tally (f : Fabric) (m : Stage → Nat) : Nat := (f.nodes.map fun node => m node.stage).sum

theorem tally_split (found : f.stage? id = some old) : ∃ others : List Stage,
    ∀ m : Stage → Nat, f.tally m = m old + (others.map m).sum ∧
      ∀ stage, (f.setStage id stage).tally m = m stage + (others.map m).sum := by
  obtain ⟨node, at_id, rfl⟩ := stage?_eq_some.1 found
  obtain ⟨lt, rfl⟩ := List.getElem?_eq_some_iff.1 at_id
  refine ⟨(f.nodes.eraseIdx id).map (·.stage), fun m => ⟨?_, fun stage => ?_⟩⟩
  · have split := (List.getElem_cons_eraseIdx_perm lt).map fun node => m node.stage
    rw [tally, ← split.sum_eq, List.map_cons, List.sum_cons, List.map_map]
    rfl
  · have lt' : id < (f.setStage id stage).nodes.length := by simpa [setStage] using lt
    have split := (List.getElem_cons_eraseIdx_perm lt').map fun node => m node.stage
    rw [tally, ← split.sum_eq, List.map_cons, List.sum_cons, List.map_map]
    simp only [setStage, List.eraseIdx_modify_of_eq, List.getElem_modify_eq]
    rfl

theorem tally_setStage (found : f.stage? id = some old) (m : Stage → Nat) (stage : Stage) :
    (f.setStage id stage).tally m + m old = f.tally m + m stage := by
  obtain ⟨others, split⟩ := tally_split found
  obtain ⟨before, after⟩ := split m
  have after' := after stage
  omega

theorem tally_setStage₂ (ne : id ≠ other) (found : f.stage? id = some old)
    (found' : f.stage? other = some old') (m : Stage → Nat) (stage stage' : Stage) :
    ((f.setStage id stage).setStage other stage').tally m + (m old + m old') =
      f.tally m + (m stage + m stage') := by
  have first := tally_setStage found m stage
  have still : (f.setStage id stage).stage? other = some old' :=
    (stage?_setStage_ne ne.symm).trans found'
  have second := tally_setStage still m stage'
  omega

end Fabric

namespace Simulation

def pendingEffort (reach : Tick → Nat) (events : List Event) : Nat :=
  (events.map fun e => e.kind.effort reach e.tick).sum

def askedEffort (reach : Tick → Nat) (now : Tick) (pending : List (ComponentId × Action)) : Nat :=
  (pending.map fun request => request.2.effort reach now).sum

def reach (s : Simulation) (tick : Tick) : Nat := s.fabric.tally fun stage => stage.load.reach tick

def credit (k : Nat) (s : Simulation) : Nat := s.fabric.tally fun stage => stage.load.credit k

def effort (k : Nat) (s : Simulation) : Nat := pendingEffort s.reach s.events.events + s.credit k

variable {s s' moved : Simulation} {id : ComponentId} {stage : Stage} {reach : Tick → Nat}
  {k : Nat} {pending : List (ComponentId × Action)} {kind : EventKind} {expander : AddressRange}

/-- The stages hold the same, and what was to be performed is pending at most. -/
structure Settles (reach : Tick → Nat) (s s' : Simulation) (effort : Nat) : Prop where
  loads : ∀ m : Load → Nat, (s'.fabric.tally fun stage => m stage.load) =
    s.fabric.tally fun stage => m stage.load
  now : s'.now = s.now
  effort : pendingEffort reach s'.events.events ≤ pendingEffort reach s.events.events + effort

theorem Settles.refl (reach : Tick → Nat) (s : Simulation) (effort : Nat) :
    Settles reach s s effort := ⟨fun _ => rfl, rfl, Nat.le_add_right _ _⟩

theorem Settles.trans {s'' : Simulation} {first second : Nat} (h : Settles reach s s' first)
    (h' : Settles reach s' s'' second) : Settles reach s s'' (first + second) := by
  refine ⟨fun m => (h'.loads m).trans (h.loads m), h'.now.trans h.now, ?_⟩
  have effort := h.effort
  have effort' := h'.effort
  omega

theorem settles_wake (reach : Tick → Nat) (s : Simulation) (id : ComponentId) (w : Wakeup) :
    Settles reach s (s.wake id w) ((Action.wake w).effort reach s.now) := by
  refine ⟨fun _ => rfl, rfl, ?_⟩
  have added := (EventQueue.events_schedule_perm s.events ⟨max w.tick s.now, id, w.kind⟩).map
    fun e => e.kind.effort reach e.tick
  rw [pendingEffort, wake, added.sum_eq, List.map_cons, List.sum_cons, Nat.add_comm]
  exact Nat.le_refl _

theorem settles_wakes (reach : Tick → Nat) (s : Simulation) (id : ComponentId)
    (wakes : List Wakeup) : Settles reach s (wakes.foldl (fun s w => s.wake id w) s)
      (effortOf reach s.now (wakes.map .wake)) := by
  induction wakes generalizing s with
  | nil => exact .refl reach s 0
  | cons w rest ih => exact (settles_wake reach s id w).trans (ih _)

theorem settles_told (found : s.fabric.stage? id = some stage) {told : Stage}
    {wakes : List Wakeup} (load : told.load = stage.load)
    (light : effortOf reach s.now (wakes.map .wake) ≤ 1) :
    Settles reach s (wakes.foldl (fun s w => s.wake id w) (s.setStage id told)) 1 := by
  have settles := settles_wakes reach (s.setStage id told) id wakes
  refine ⟨fun m => (settles.loads m).trans ?_, settles.now, ?_⟩
  · have same := Fabric.tally_setStage found (fun stage => m stage.load) told
    simp only [load] at same
    exact Nat.add_right_cancel same
  · exact Nat.le_trans settles.effort (Nat.add_le_add_left light _)

theorem settles_perform (reach : Tick → Nat) (s : Simulation) (id : ComponentId)
    (action : Action) : Settles reach s (s.perform id action) (action.effort reach s.now) := by
  cases action with
  | wake w => exact settles_wake reach s id w
  | retryRequest =>
    rw [perform]
    split
    · exact .refl reach s _
    · exact ⟨fun _ => rfl, rfl, Nat.le_add_right _ _⟩
    · rename_i up before
      rw [retryRequest]
      split
      · exact .refl reach s _
      · rename_i stage found
        exact settles_told found (stage.load_recvRequestRetry s.now)
          (stage.effort_recvRequestRetry s.now)
  | retryResponse =>
    rw [perform]
    split
    · exact .refl reach s _
    · rename_i down behind
      rw [retryResponse]
      split
      · exact .refl reach s _
      · rename_i stage found
        exact settles_told found (stage.load_recvResponseRetry s.now)
          (stage.effort_recvResponseRetry s.now)

theorem settles_performActions (reach : Tick → Nat) (s : Simulation)
    (pending : List (ComponentId × Action)) :
    Settles reach s (s.performActions pending) (askedEffort reach s.now pending) := by
  induction pending generalizing s with
  | nil => exact .refl reach s 0
  | cons request rest ih =>
    have first := settles_perform reach s request.1 request.2
    have rest' := ih (s.perform request.1 request.2)
    rw [first.now] at rest'
    exact first.trans rest'

theorem askedEffort_append (first second : List (ComponentId × Action)) {now : Tick} :
    askedEffort reach now (first ++ second) =
      askedEffort reach now first + askedEffort reach now second := by
  rw [askedEffort, List.map_append, List.sum_append]
  rfl

theorem askedEffort_asked (id : ComponentId) (actions : List Action) {now : Tick} :
    askedEffort reach now (asked id actions) = effortOf reach now actions := by
  rw [askedEffort, asked, List.map_map]
  rfl

/-- A move leaves no more for a round to wait for, and what it asks for is paid by the event that
set it off and by the loads. -/
structure Spends (k : Nat) (s moved : Simulation) (kind : EventKind)
    (pending : List (ComponentId × Action)) : Prop where
  reach : ∀ tick, moved.reach tick ≤ s.reach tick
  now : moved.now = s.now
  events : moved.events = s.events
  credit : moved.credit k + askedEffort moved.reach s.now pending <
    s.credit k + kind.effort moved.reach s.now

theorem one_le_effort (kind : EventKind) (reach : Tick → Nat) (tick : Tick) :
    1 ≤ kind.effort reach tick := by
  cases kind <;> simp only [EventKind.effort] <;> omega

variable {down up : ComponentId} {upper lower taken answered : Stage} {p : Packet}
  {actions : List Action}

/-- A request that moves on pays three events, and a response as well. -/
private theorem spends_request (ne : down ≠ id) (hupper : s.fabric.stage? id = some upper)
    (hlower : s.fabric.stage? down = some lower)
    (took : upper.takeRequest s.now = some (p, taken)) (sound : lower.Sound)
    (rank : upper.load.rank = lower.load.rank + 1)
    (reply : lower.recvRequest s.now (p.arriveAt down s.now) = ⟨answered, actions, .accepted⟩)
    (bounded : ∀ tick, 2 + s.reach tick ≤ k) :
    Spends k s ((s.setStage down answered).setStage id (taken.requestSent s.now).1) .sendRequest
      (asked down actions ++ asked id (taken.requestSent s.now).2) := by
  have tally (m : Load → Nat) := Fabric.tally_setStage₂ ne hlower hupper (fun stage => m stage.load)
    answered (taken.requestSent s.now).1
  have before := Stage.load_takeRequest took
  have sent := taken.load_requestSent s.now
  have taken_rank : taken.load.rank = lower.load.rank + 1 := rank ▸ (congrArg Load.rank before).symm
  have reaches (tick : Tick) : Simulation.reach ((s.setStage down answered).setStage id
      (taken.requestSent s.now).1) tick ≤ s.reach tick := by
    have admits := (Stage.admits_recvRequest sound bounded reply).1 tick
    have total := tally fun l => l.reach tick
    have head : upper.load.reach tick = taken.load.reach tick + (p.size + 1) :=
      before ▸ Load.reach_cons taken.load p.size tick
    have size : (p.arriveAt down s.now).size = p.size := rfl
    simp only [sent, size] at total admits
    simp only [Simulation.reach, setStage]
    omega
  refine ⟨reaches, rfl, rfl, ?_⟩
  generalize Simulation.reach ((s.setStage down answered).setStage id
    (taken.requestSent s.now).1) = after at reaches ⊢
  have bounded' (tick : Tick) : 2 + after tick ≤ k :=
    Nat.le_trans (Nat.add_le_add_left (reaches tick) 2) (bounded tick)
  have admits := (Stage.admits_recvRequest sound bounded' reply).2
  have total := tally fun l => l.credit k
  have head : upper.load.credit k =
      taken.load.credit k + Load.requestCredit k taken.load.rank p.size :=
    before ▸ Load.credit_cons k taken.load p.size
  have size : (p.arriveAt down s.now).size = p.size := rfl
  have light : effortOf after s.now (taken.requestSent s.now).2 ≤ 2 :=
    taken.effort_requestSent s.now
  rw [askedEffort_append, askedEffort_asked, askedEffort_asked]
  simp only [sent, size, head, taken_rank, Load.requestCredit] at total admits
  simp only [credit, setStage, EventKind.effort]
  omega

private theorem spends_response (ne : up ≠ id) (hlower : s.fabric.stage? id = some lower)
    (hupper : s.fabric.stage? up = some upper)
    (took : lower.takeResponse s.now = some (p, taken))
    (rank : upper.load.rank = lower.load.rank + 1)
    (reply : upper.recvResponse s.now p = ⟨answered, actions, .accepted⟩) :
    Spends k s ((s.setStage up answered).setStage id (taken.responseSent s.now).1) .sendResponse
      (asked up actions ++ asked id (taken.responseSent s.now).2) := by
  have tally (m : Load → Nat) := Fabric.tally_setStage₂ ne hupper hlower (fun stage => m stage.load)
    answered (taken.responseSent s.now).1
  have before := Stage.load_takeResponse took
  have sent := taken.load_responseSent s.now
  have taken_in := Stage.load_recvResponse reply
  have taken_rank : taken.load.rank = lower.load.rank := (congrArg Load.rank before).symm
  have top := upper.rank_le
  refine ⟨fun tick => ?_, rfl, rfl, ?_⟩
  · have total := tally fun l => l.reach tick
    have head : lower.load.reach tick = taken.load.reach tick := by rw [before]; rfl
    have kept : answered.load.reach tick = upper.load.reach tick := by rw [taken_in]; rfl
    simp only [sent, head, kept] at total
    simp only [Simulation.reach, setStage]
    omega
  · generalize Simulation.reach _ = after
    have asks : (upper.recvResponse s.now p).actions = actions := congrArg Reply.actions reply
    have cost : effortOf after s.now actions ≤ 1 := asks ▸ upper.effort_recvResponse s.now p
    have total := tally fun l => l.credit k
    have head : lower.load.credit k = taken.load.credit k + (11 - 3 * taken.load.rank) :=
      before ▸ Load.credit_answer k taken.load
    have brought : answered.load.credit k = upper.load.credit k + (11 - 3 * upper.load.rank) :=
      taken_in ▸ Load.credit_answer k upper.load
    have light : effortOf after s.now (taken.responseSent s.now).2 ≤ 2 :=
      taken.effort_responseSent s.now
    rw [askedEffort_append, askedEffort_asked, askedEffort_asked]
    simp only [sent, head, brought, taken_rank] at total
    simp only [credit, setStage, EventKind.effort]
    omega

private theorem spends_completed (hlower : s.fabric.stage? id = some lower)
    (took : lower.takeResponse s.now = some (p, taken)) :
    Spends k s ((s.complete p).setStage id (taken.responseSent s.now).1) .sendResponse
      (asked id (taken.responseSent s.now).2) := by
  have tally (m : Load → Nat) := Fabric.tally_setStage hlower (fun stage => m stage.load)
    (taken.responseSent s.now).1
  have before := Stage.load_takeResponse took
  have sent := taken.load_responseSent s.now
  refine ⟨fun tick => ?_, rfl, rfl, ?_⟩
  · have total := tally fun l => l.reach tick
    have head : lower.load.reach tick = taken.load.reach tick := by rw [before]; rfl
    simp only [sent, head] at total
    simp only [Simulation.reach, setStage, complete]
    omega
  · generalize Simulation.reach _ = after
    have total := tally fun l => l.credit k
    have head : lower.load.credit k = taken.load.credit k + (11 - 3 * taken.load.rank) :=
      before ▸ Load.credit_answer k taken.load
    have top := taken.rank_le
    have light : effortOf after s.now (taken.responseSent s.now).2 ≤ 2 :=
      taken.effort_responseSent s.now
    rw [askedEffort_asked]
    simp only [sent, head] at total
    simp only [credit, setStage, complete, EventKind.effort]
    omega

private theorem spends_back (ne : id ≠ up) (found : s.fabric.stage? id = some lower)
    (found' : s.fabric.stage? up = some upper) {lower' upper' : Stage}
    (pays : Load.Pays k lower.load lower'.load 0) (same : upper'.load = upper.load)
    (kind : EventKind) : Spends k s ((s.setStage id lower').setStage up upper') kind [] := by
  have tally (m : Load → Nat) := Fabric.tally_setStage₂ ne found found' (fun stage => m stage.load)
    lower' upper'
  refine ⟨fun tick => ?_, rfl, rfl, ?_⟩
  · have total := tally fun l => l.reach tick
    have less := pays.reach tick
    simp only [same] at total
    simp only [Simulation.reach, setStage]
    omega
  · generalize Simulation.reach _ = after
    have total := tally fun l => l.credit k
    have less := pays.credit
    have one := one_le_effort kind after s.now
    simp only [same] at total
    simp only [credit, setStage, askedEffort, List.map_nil, List.sum_nil]
    omega

private theorem reach_lt_reach (found : s.fabric.stage? id = some stage) {ran : Stage}
    {now tick : Tick} (mem : tick ∈ ran.load.inFlight) (lt : now < tick) :
    Simulation.reach (s.setStage id ran) tick < Simulation.reach (s.setStage id ran) now := by
  obtain ⟨others, split⟩ := Fabric.tally_split found
  have before := (split fun stage => stage.load.reach now).2 ran
  have after := (split fun stage => stage.load.reach tick).2 ran
  have own := Load.reach_lt mem lt
  have rest : (others.map fun stage => stage.load.reach tick).sum ≤
      (others.map fun stage => stage.load.reach now).sum :=
    List.sum_le_sum fun stage _ => stage.load.reach_antitone (Nat.le_of_lt lt)
  simp only [Simulation.reach, setStage]
  omega

private theorem spends_processed (found : s.fabric.stage? id = some stage)
    (bounded : ∀ tick, 2 + s.reach tick ≤ k) :
    Spends k s (s.setStage id (stage.process s.now).1) .process
      (asked id (stage.process s.now).2) := by
  have tally (m : Load → Nat) := Fabric.tally_setStage found (fun stage => m stage.load)
    (stage.process s.now).1
  have reaches (tick : Tick) : Simulation.reach (s.setStage id (stage.process s.now).1) tick ≤
      s.reach tick := by
    have total := tally fun l => l.reach tick
    have less := stage.reach_process s.now tick
    simp only [Simulation.reach, setStage]
    omega
  have later (tick : Tick) (mem : tick ∈ (stage.process s.now).1.load.inFlight)
      (lt : s.now < tick) := reach_lt_reach found mem lt
  refine ⟨reaches, rfl, rfl, ?_⟩
  generalize Simulation.reach (s.setStage id (stage.process s.now).1) = after at reaches later ⊢
  obtain ⟨effort, cost, pays⟩ := stage.pays_process s.now
    (fun tick => Nat.le_trans (Nat.add_le_add_left (reaches tick) 2) (bounded tick)) later
  have total := tally fun l => l.credit k
  have paid := pays.credit
  rw [askedEffort_asked]
  simp only [credit, setStage, EventKind.effort]
  omega

theorem spends_moved (moves : s.Moved id kind moved pending)
    (chained : Chained s.fabric.sites expander)
    (sound : ∀ i stage, s.fabric.stage? i = some stage → stage.Sound)
    (ranked : ∀ i stage, s.fabric.stage? i = some stage → stage.load.rank = i)
    (bounded : ∀ tick, 2 + s.reach tick ≤ k) : Spends k s moved kind pending := by
  cases moves with
  | idle =>
    exact ⟨fun _ => Nat.le_refl _, rfl, rfl, Nat.lt_add_of_pos_right (one_le_effort ..)⟩
  | request behind hupper hlower took reply =>
    obtain ⟨rfl, -⟩ := Fabric.stage_behind chained behind
    have rank := (ranked _ _ hupper).trans (congrArg (· + 1) (ranked _ _ hlower)).symm
    exact spends_request (Nat.succ_ne_self _).symm hupper hlower took (sound _ _ hlower) rank reply
      bounded
  | requestBack behind hupper hlower took reply denies =>
    obtain ⟨rfl, -⟩ := Fabric.stage_behind chained behind
    exact spends_back (Nat.succ_ne_self _).symm hlower hupper denies.pays
      (Stage.load_requestRefused took) _
  | response before hlower hupper took reply =>
    obtain ⟨rfl, -⟩ := Fabric.stage_before chained before
    have rank := (ranked _ _ hupper).trans (congrArg (· + 1) (ranked _ _ hlower)).symm
    exact spends_response (Nat.succ_ne_self _) hlower hupper took rank reply
  | responseBack before hlower hupper took reply denies =>
    obtain ⟨rfl, -⟩ := Fabric.stage_before chained before
    exact spends_back (Nat.succ_ne_self _) hupper hlower (denies.load ▸ .refl k _)
      (Stage.load_responseRefused took) _
  | completed host hlower took => exact spends_completed hlower took
  | processed found => exact spends_processed found bounded

theorem effort_kind_le (kind : EventKind) {later : Tick → Nat} {tick tick' : Tick}
    (le : later tick' ≤ reach tick) : kind.effort later tick' ≤ kind.effort reach tick := by
  cases kind with
  | sendRequest | sendResponse => exact Nat.le_refl 1
  | process => exact Nat.add_le_add_left le 2

theorem pendingEffort_mono {later : Tick → Nat} (le : ∀ tick, later tick ≤ reach tick)
    (events : List Event) : pendingEffort later events ≤ pendingEffort reach events := by
  exact List.sum_le_sum fun e _ => effort_kind_le e.kind (le e.tick)

theorem reach_antitone (s : Simulation) {tick later : Tick} (le : tick ≤ later) :
    s.reach later ≤ s.reach tick :=
  List.sum_le_sum fun node _ => node.stage.load.reach_antitone le

theorem effort_pos (pending : s.events.events ≠ []) (k : Nat) : 0 < s.effort k := by
  obtain ⟨e, others, events⟩ := List.exists_cons_of_ne_nil pending
  have one := one_le_effort e.kind s.reach e.tick
  rw [effort, events, pendingEffort, List.map_cons, List.sum_cons]
  omega

/-- The effort of a system fits in the budget of its runs. -/
theorem effort_le_budget (numbered : s.Numbered) : s.effort (2 + s.reach 0) ≤ s.budget := by
  have reaches (tick : Tick) : s.reach tick ≤ s.fabric.workload :=
    List.sum_le_sum fun node _ => node.stage.reach_le_workload tick
  have cost : s.fabric.workload + 8 ≤ s.workload := by
    rw [workload]
    omega
  have credits : s.credit (2 + s.reach 0) ≤ s.workload * s.fabric.workload := by
    have split : s.workload * s.fabric.workload =
        (s.fabric.nodes.map fun node => s.workload * node.stage.workload).sum := by
      rw [List.sum_map_mul_left]
      rfl
    rw [split]
    refine List.sum_le_sum fun node mem => ?_
    obtain ⟨id, at_id⟩ := List.mem_iff_getElem?.1 mem
    have least := reaches 0
    exact Stage.credit_le_workload
      (numbered id _ (Fabric.stage?_eq_some.2 ⟨node, at_id, rfl⟩)) (by omega) (by omega)
  have events : pendingEffort s.reach s.events.events ≤ s.workload * s.events.size := by
    have each (e : Event) (_ : e ∈ s.events.events) :
        e.kind.effort s.reach e.tick ≤ s.workload := by
      have least := reaches e.tick
      cases e.kind <;> simp only [EventKind.effort] <;> omega
    have sum := List.sum_le_card_nsmul _ _ fun n mem => by
      obtain ⟨e, mem', rfl⟩ := List.mem_map.1 mem
      exact each e mem'
    rw [List.length_map, smul_eq_mul, Nat.mul_comm] at sum
    exact sum
  have total : s.workload * s.events.size + s.workload * s.fabric.workload ≤
      s.workload * s.workload := by
    rw [← Nat.mul_add]
    refine Nat.mul_le_mul_left _ ?_
    rw [workload]
    omega
  have scaled : s.workload * s.workload ≤ s.budget := by
    rw [budget, Nat.mul_assoc]
    exact Nat.le_mul_of_pos_left _ (by decide)
  rw [effort]
  omega

/-- So many events are handled, one after the other. -/
inductive Fired : Nat → Simulation → Simulation → Prop where
  | done (s : Simulation) : Fired 0 s s
  | next {n : Nat} {s s' s'' : Simulation} : s.Fires s' → Fired n s' s'' → Fired (n + 1) s s''

/-- However long the events of a system are handled, they come to an end, and no run is cut short
before. -/
structure Terminates (s : Simulation) : Prop where
  bounded : ∀ n s', Fired n s s' → n ≤ s.budget
  runUntil : ∀ limit, (s.runUntil limit).1 = .settled
  runUntilIdle : s.runUntilIdle.1 = .settled
  poll : s.pollCompletions.1 = .settled

end Simulation

theorem ResolvedConfig.rank_site {c : ResolvedConfig} {id : ComponentId} {site : Site}
    (found : c.sites[id]? = some site) {stage : Stage} (frame : stage.view.frame = site.frame) :
    stage.load.rank = id := by
  rcases c.sites_cases with eq | eq | ⟨b, -, eq⟩ <;> rw [eq] at found
  · rcases id with _ | _ | id <;> cases found <;> cases stage <;> first | rfl | cases frame
  · rcases id with _ | _ | _ | id <;> cases found <;> cases stage <;> first | rfl | cases frame
  · rcases id with _ | _ | _ | _ | id <;> cases found <;> cases stage <;> first | rfl | cases frame

namespace Session

variable {h : Session} {s : Simulation} {k : Nat} {config : Config}

/-- An event that is handled leaves less to be done than before. -/
theorem Standing.spends (standing : h.Standing) (fires : h.system.Fires s)
    (bounded : ∀ tick, 2 + h.system.reach tick ≤ k) :
    (∀ tick, s.reach tick ≤ h.system.reach tick) ∧ s.effort k < h.system.effort k := by
  obtain ⟨e, others, moved, pending, events, moves, rfl⟩ := standing.moved fires
  have ranked (id : ComponentId) (stage : Stage) (found : h.system.fabric.stage? id = some stage) :
      stage.load.rank = id := ResolvedConfig.rank_site (standing.site found) rfl
  have spends := Simulation.spends_moved moves standing.chained standing.attended.sound ranked
    bounded
  have settles := Simulation.settles_performActions moved.reach moved pending
  have reach (tick : Tick) : (moved.performActions pending).reach tick = moved.reach tick :=
    settles.loads fun l => l.reach tick
  have credit : (moved.performActions pending).credit k = moved.credit k :=
    settles.loads fun l => l.credit k
  refine ⟨fun tick => (reach tick).trans_le (spends.reach tick), ?_⟩
  have rest : Simulation.pendingEffort moved.reach others ≤
      Simulation.pendingEffort h.system.reach others :=
    Simulation.pendingEffort_mono spends.reach others
  have asked : Simulation.pendingEffort moved.reach (moved.performActions pending).events.events ≤
      Simulation.pendingEffort moved.reach others +
        Simulation.askedEffort moved.reach (max h.system.now e.tick) pending := by
    have effort := settles.effort
    rw [spends.now, spends.events] at effort
    exact effort
  have spent : moved.credit k +
      Simulation.askedEffort moved.reach (max h.system.now e.tick) pending <
      h.system.credit k + e.kind.effort moved.reach (max h.system.now e.tick) := spends.credit
  -- The event fires at its own tick or later, when a round has no more to wait for.
  have fired : e.kind.effort moved.reach (max h.system.now e.tick) ≤
      e.kind.effort h.system.reach e.tick := by
    refine Simulation.effort_kind_le e.kind (Nat.le_trans (spends.reach _) ?_)
    exact h.system.reach_antitone (Nat.le_max_right ..)
  have all : Simulation.pendingEffort h.system.reach h.system.events.events =
      e.kind.effort h.system.reach e.tick + Simulation.pendingEffort h.system.reach others := by
    rw [events]
    rfl
  simp only [Simulation.effort, funext reach, credit, all]
  omega

theorem Standing.fired {n : Nat} (standing : h.Standing) (fired : Simulation.Fired n h.system s)
    (bounded : ∀ tick, 2 + h.system.reach tick ≤ k) :
    (∀ tick, s.reach tick ≤ h.system.reach tick) ∧ n + s.effort k ≤ h.system.effort k := by
  generalize start : h.system = before at fired
  induction fired generalizing h with
  | done =>
    subst start
    exact ⟨fun _ => Nat.le_refl _, (Nat.zero_add _).le⟩
  | @next n before between after fires _ ih =>
    subst start
    obtain ⟨reach, less⟩ := standing.spends fires bounded
    obtain ⟨reach', rest⟩ : (∀ tick, after.reach tick ≤ between.reach tick) ∧
        n + after.effort k ≤ between.effort k :=
      ih (standing.fires fires).standing
        (fun tick => Nat.le_trans (Nat.add_le_add_left (reach tick) 2) (bounded tick)) rfl
    refine ⟨fun tick => Nat.le_trans (reach' tick) (reach tick), ?_⟩
    omega

/-- What a run handles is a series of events: one at least if one is due, and as many as it may if
it is cut short. -/
theorem Standing.fired_drain {due : EventQueue → Option (Event × EventQueue)}
    (first : ∀ q e rest, due q = some (e, rest) → q.events = e :: rest.events) (fuel : Nat)
    (standing : h.Standing) {halt : Halt}
    (ran : Simulation.drain due fuel h.system = (halt, s)) :
    ∃ n, Simulation.Fired n h.system s ∧
      (halt = .settled → due h.system.events ≠ none → 0 < n) ∧
      (halt = .exhausted → n = fuel ∧ s.events.events ≠ []) := by
  induction fuel generalizing h with
  | zero =>
    rw [Simulation.drain] at ran
    split at ran
    next idle =>
      cases ran
      exact ⟨0, .done _, fun _ busy => absurd (Option.isNone_iff_eq_none.1 idle) busy,
        fun cut => absurd cut (by decide)⟩
    next busy =>
      cases ran
      obtain ⟨⟨e, rest⟩, some⟩ := Option.ne_none_iff_exists'.1
        (fun none => busy (Option.isNone_iff_eq_none.2 none))
      refine ⟨0, .done _, fun settled => absurd settled (by decide), fun _ => ⟨rfl, ?_⟩⟩
      rw [first _ _ _ some]
      exact List.cons_ne_nil _ _
  | succ fuel ih =>
    rw [Simulation.drain] at ran
    split at ran
    next idle =>
      cases ran
      exact ⟨0, .done _, fun _ busy => absurd idle busy, fun cut => absurd cut (by decide)⟩
    next e rest some =>
      have events := first _ _ _ some
      obtain ⟨next, handled, reaches⟩ := standing.event events
      simp only [handled] at ran
      obtain ⟨n, fired, -, cut⟩ := ih reaches.standing ran
      refine ⟨n + 1, .next ⟨e, rest.events, events, handled⟩ fired, fun _ _ => Nat.succ_pos n,
        fun exhausted => ?_⟩
      obtain ⟨rfl, pending⟩ := cut exhausted
      exact ⟨rfl, pending⟩

theorem Standing.drain_settled {due : EventQueue → Option (Event × EventQueue)}
    (first : ∀ q e rest, due q = some (e, rest) → q.events = e :: rest.events) {fuel : Nat}
    (standing : h.Standing) (bounded : ∀ tick, 2 + h.system.reach tick ≤ k)
    (enough : h.system.effort k ≤ fuel) :
    (Simulation.drain due fuel h.system).1 = .settled := by
  obtain ⟨halt, s, ran, -, ended⟩ := standing.drain first fuel
  rw [ran]
  rcases ended with ⟨settled, -⟩ | exhausted
  · exact settled
  · obtain ⟨n, fired, -, cut⟩ := standing.fired_drain first fuel ran
    obtain ⟨rfl, pending⟩ := cut exhausted
    have spent := (standing.fired fired bounded).2
    have left := Simulation.effort_pos pending k
    omega

theorem bounded_reach (s : Simulation) (tick : Tick) : 2 + s.reach tick ≤ 2 + s.reach 0 :=
  Nat.add_le_add_left (s.reach_antitone (Nat.zero_le tick)) 2

theorem Reachable.runUntil_settled (reachable : Reachable config h) (limit : Tick) :
    (h.system.runUntil limit).1 = .settled := by
  have settled := reachable.standing.drain_settled (events_popDue limit) (bounded_reach _)
    (Simulation.effort_le_budget reachable.numbered)
  rw [Simulation.runUntil]
  generalize Simulation.drain _ _ _ = ran at settled ⊢
  obtain ⟨halt, s⟩ := ran
  cases (settled : halt = .settled)
  rfl

theorem Reachable.runUntilIdle_settled (reachable : Reachable config h) :
    h.system.runUntilIdle.1 = .settled := by
  have settled := reachable.standing.drain_settled events_pop (bounded_reach _)
    (Simulation.effort_le_budget reachable.numbered)
  rw [Simulation.runUntilIdle]
  generalize Simulation.drain _ _ _ = ran at settled ⊢
  obtain ⟨halt, s⟩ := ran
  cases (settled : halt = .settled)
  rfl

theorem Reachable.spends_runUntil (reachable : Reachable config h) {limit : Tick}
    (next : h.system.nextEventTick = some limit) (bounded : ∀ tick, 2 + h.system.reach tick ≤ k) :
    (∀ tick, (h.system.runUntil limit).2.reach tick ≤ h.system.reach tick) ∧
      (h.system.runUntil limit).2.effort k < h.system.effort k := by
  have due : h.system.events.popDue limit ≠ none := by
    obtain ⟨e, head, rfl⟩ := Option.map_eq_some_iff.1 next
    obtain ⟨rest, events⟩ := List.head?_eq_some_iff.1 head
    simp [EventQueue.popDue, events]
  have settled := reachable.runUntil_settled limit
  rw [Simulation.runUntil] at settled ⊢
  generalize ran : Simulation.drain _ _ _ = drained at settled ⊢
  obtain ⟨halt, s⟩ := drained
  obtain ⟨n, fired, handles, -⟩ :=
    reachable.standing.fired_drain (events_popDue limit) _ ran
  have spent := reachable.standing.fired fired bounded
  cases halt with
  | settled =>
    have some := handles rfl due
    have less : s.effort k < h.system.effort k := by omega
    exact ⟨spent.1, less⟩
  | fault e => cases settled
  | exhausted => cases settled

theorem Reachable.pollWithin_settled (reachable : Reachable config h) (fuel : Nat)
    (bounded : ∀ tick, 2 + h.system.reach tick ≤ k) (enough : h.system.effort k < fuel) :
    (Simulation.pollWithin fuel h.system).1 = .settled := by
  induction fuel generalizing h with
  | zero => exact absurd enough (Nat.not_lt_zero _)
  | succ fuel ih =>
    have polls := Simulation.polls_pollWithin fuel h.system
    generalize Simulation.pollWithin (fuel + 1) h.system = polled at polls ⊢
    cases polls with
    | @advances tick ran next run =>
      obtain ⟨reach, less⟩ := reachable.spends_runUntil next bounded
      have further : Reachable config (h.after (.runUntil tick)) := .call (.runUntil tick) reachable
      rw [Session.after] at further
      rw [run] at reach less further
      exact ih further
        (fun after => Nat.le_trans (Nat.add_le_add_left (reach after) 2) (bounded after))
        (Nat.lt_of_lt_of_le less (Nat.le_of_lt_succ enough))
    | @halts tick halt ran next run unsettled =>
      have settled := reachable.runUntil_settled tick
      rw [run] at settled
      exact absurd settled unsettled
    | collects completed => rfl
    | idles => rfl

/-- In every state of a session the events come to an end. -/
theorem terminates_reachable (reachable : Reachable config h) : h.system.Terminates where
  bounded n s fired := by
    have spent := (reachable.standing.fired fired (bounded_reach _)).2
    have fits := Simulation.effort_le_budget reachable.numbered
    omega
  runUntil := reachable.runUntil_settled
  runUntilIdle := reachable.runUntilIdle_settled
  poll := reachable.pollWithin_settled _ (bounded_reach _)
    (Nat.lt_succ_of_le (Simulation.effort_le_budget reachable.numbered))

/-- Reads and writes that wait for each other at a controller with short queues. -/
theorem terminates_crowded : ∃ config s, Simulation.create .standard config = .ok s ∧
    ((start s).run [.send (.read 0x100000000 64), .send (.write 0x100000040 [1, 2]),
      .send (.read 0x100000080 64)]).system.events.size = 1 ∧
    ((start s).run [.send (.read 0x100000000 64), .send (.write 0x100000040 [1, 2]),
      .send (.read 0x100000080 64)]).system.Terminates :=
  ⟨{ controller := { maxPendingReads := some 1 } }, _, rfl,
    by decide +kernel, terminates_reachable (.run (.start (show Simulation.create .standard
      { controller := { maxPendingReads := some 1 } } = _ from rfl)) _)⟩

end Session

end Expander
