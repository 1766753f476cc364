import Expander.Proofs.Agreement
import Expander.Proofs.Dialogue
import Expander.Proofs.Slicing

/-!
The expander does not notice system memory.

A host that leaves its accesses of system memory out is told the same of the expander, at the same
call and tick, but for the numbers of transactions (`undisturbed_run`). Of two sessions that go
through the same with the expander, one handles events of system memory in addition, so that time
may have passed in it alone (`Trails`). Each event of the expander is the next one in both.
-/

set_option autoImplicit false

namespace Expander

/-- The second system shows the expander as the first one will, when it has got that far. -/
structure Simulation.Trails (f : TransactionId → TransactionId) (s t : Simulation) : Prop where
  mirrored : Mirrored f { s with now := t.now } t
  now : s.now ≤ t.now

open Simulation (Mirrored Trails Drained)

variable {f : TransactionId → TransactionId}

theorem Simulation.Trails.intro {s t : Simulation} {now : Tick}
    (mirrored : Mirrored f { s with now } t) (le : s.now ≤ now) : Trails f s t := by
  obtain rfl : t.now = now := mirrored.now
  exact ⟨mirrored, le⟩

theorem Simulation.Mirrored.trails {s t : Simulation} (mirrored : Mirrored f s t) :
    Trails f s t :=
  .intro (show Mirrored f { s with now := s.now } t from mirrored) (Nat.le_refl _)

namespace Session

/-- A session in which either path has kept to its stages. -/
structure Kept (config : Config) (h : Session) : Prop where
  reachable : Reachable config h
  housed : h.system.Housed

variable {h k h' : Session} {s t : Simulation} {machine : Machine} {config : Config}
  {access : Access} {call : HostCall}

theorem Kept.standing (kept : Kept config h) : h.Standing := kept.reachable.standing

theorem Kept.fires (kept : Kept config h) (fires : h.system.Fires s) :
    Kept config { h with system := s } :=
  ⟨.event kept.reachable fires, (kept.standing.fires fires).housed kept.housed⟩

theorem Kept.reaches (kept : Kept config h) (timed : call.timed = true) :
    h.Reaches true (h.after call) := kept.standing.after call fun _ => timed

theorem Kept.after (kept : Kept config h) (timed : call.timed = true) :
    Kept config (h.after call) :=
  ⟨.call _ kept.reachable, (kept.reaches timed).housed kept.housed⟩

theorem Kept.nextId_waits (kept : Kept config h) (waits : call.waits = true) :
    (h.after call).system.nextId = h.system.nextId := by
  obtain ⟨timed, accepted⟩ := h.still_of_waits waits
  obtain ⟨more, grown, nextId⟩ := (kept.reaches timed).steps.numbering
  obtain rfl : more = [] := List.self_eq_append_right.1 (accepted.symm.trans grown)
  exact nextId

theorem Kept.nextId_le (kept : Kept config h) (timed : call.timed = true) :
    h.system.nextId ≤ (h.after call).system.nextId := by
  obtain ⟨more, -, nextId⟩ := (kept.reaches timed).steps.numbering
  exact Nat.le.intro nextId.symm

/-- An event of system memory is one more in the second session, and an event of the expander is the
next one in both. -/
theorem Kept.trails_fires {e : Event} {others : List Event} (kept : Kept config h)
    (kept' : Kept config k) (trails : Trails f h.system k.system) (inj : Function.Injective f)
    (events : k.system.events.events = e :: others)
    (handled : (k.system.popped e others).dispatch e = (.ok (), t)) :
    Trails f h.system t ∨
      ∃ others' s, h.system.events.events = e :: others' ∧
        (h.system.popped e others').dispatch e = (.ok (), s) ∧ Trails f s t := by
  have mirrored := trails.mirrored
  have timely := kept'.standing.attended.timely e (events ▸ List.mem_cons_self)
  have now : max k.system.now e.tick = e.tick := Nat.max_eq_right timely
  have late : h.system.now ≤ e.tick := Nat.le_trans trails.now timely
  have shown := mirrored.events
  have sorted := mirrored.sorted
  rw [events] at shown
  rw [EventQueue.Sorted, events] at sorted
  obtain ⟨-, sorted⟩ := List.pairwise_cons.1 sorted
  by_cases memory : e.target = 0
  · left
    have skips : e.isExpanders = false := decide_eq_false fun ne => ne memory
    rw [List.filter_cons_of_neg (skips ▸ Bool.false_ne_true)] at shown
    have waited : Mirrored f { h.system with now := e.tick } (k.system.popped e others) :=
      { mirrored with now := now, events := shown, sorted := sorted }
    obtain ⟨moved, pending, moves, rfl⟩ := Simulation.moved_dispatch
      (s := k.system.popped e others) kept'.standing.chained kept'.standing.attended.sound handled
    rw [memory] at moves
    have after := waited.memory kept'.standing.chained kept'.housed
      kept.standing.valid.disjoint moves
    exact .intro after late
  · right
    have shows : e.isExpanders = true := decide_eq_true memory
    rw [List.filter_cons_of_pos shows] at shown
    have popped : Mirrored f (h.system.popped e (others.filter Event.isExpanders))
        (k.system.popped e others) :=
      { mirrored with
        now := now.trans (Nat.max_eq_right late).symm, events := rfl, sorted := sorted }
    have inside (stage taken : Stage) (p : Packet)
        (found : h.system.fabric.stage? e.target = some stage)
        (took : stage.takeResponse (max h.system.now e.tick) = some (p, taken)) :=
      (kept.housed.leaving found took).2 memory
    have dispatched := popped.dispatch inj memory inside
    cases handled' : (h.system.popped e (others.filter Event.isExpanders)).dispatch e with
    | mk outcome s =>
      rw [handled, handled'] at dispatched
      obtain ⟨same, after⟩ := dispatched
      cases same
      exact ⟨_, s, shown, handled', after.trails⟩

theorem Kept.drained {limit : Tick} (kept : Kept config h) (kept' : Kept config k)
    (trails : Trails f h.system k.system) (inj : Function.Injective f)
    (drained : Drained (fun q => q.popDue limit) k.system t) :
    ∃ s, Drained (fun q => q.popDue limit) h.system s ∧ Trails f s t ∧ h.system.now ≤ s.now := by
  generalize eq : k.system = u at drained
  induction drained generalizing h k with
  | @idle u none =>
    subst eq
    refine ⟨h.system, .idle ?_, trails, Nat.le_refl _⟩
    refine Option.eq_none_iff_forall_ne_some.2 ?_
    rintro ⟨e, rest⟩ some
    have early := (Simulation.popDue_eq_some.1 some).2
    have mem : e ∈ h.system.events.events := events_popDue _ _ _ _ some ▸ List.mem_cons_self
    rw [trails.mirrored.events] at mem
    have late := ahead_of_popDue trails.mirrored.sorted none e (List.mem_of_mem_filter mem)
    exact absurd early (Nat.not_le.2 late)
  | @next u u' t e rest some handled _ ih =>
    subst eq
    have events := events_popDue _ _ _ _ some
    have early := (Simulation.popDue_eq_some.1 some).2
    have next := kept'.fires ⟨e, rest.events, events, handled⟩
    rcases kept.trails_fires kept' trails inj events handled with
      trails' | ⟨others, s, events', handled', trails'⟩
    · exact ih kept next trails' rfl
    · have fires : h.system.Fires s := ⟨e, others, events', handled'⟩
      obtain ⟨s', drained', trails'', le⟩ := ih (kept.fires fires) next trails' rfl
      refine ⟨s', .next ?_ handled' drained', trails'', (stamps_fires fires).1.trans le⟩
      refine Simulation.popDue_eq_some.2 ⟨?_, early⟩
      rw [EventQueue.pop, events']

end Session

theorem Simulation.LeadsTo.eq_zero_iff {s : Simulation} {access : Access} {target : ComponentId}
    (leads : s.LeadsTo access target)
    (apart : s.config.system.memoryRange.overlaps s.config.device.range = false) :
    target = 0 ↔ s.config.system.memoryRange.contains access.request.addr = true := by
  rcases leads with ⟨rfl, inside⟩ | ⟨pos, inside⟩
  · exact ⟨fun _ => AddressRange.contains_of_containsAccess inside, fun _ => rfl⟩
  · refine ⟨fun eq => absurd eq (Nat.ne_of_gt pos), fun memory => ?_⟩
    exact absurd ((AddressRange.not_containsAccess_of_apart apart memory).symm.trans inside)
      Bool.false_ne_true

namespace Session

/-- An access gets to a stage that faces the host, and the stage replies to it. -/
structure Meets (h : Session) (access : Access) (target : ComponentId) (stage : Stage)
    (reply : Reply Stage Delivery) : Prop where
  standing : h.Standing
  faced : h.system.fabric.hostSide? target = some .host
  found : h.system.fabric.stage? target = some stage
  leads : h.system.LeadsTo access target
  replies : stage.recvRequest h.system.now (h.system.offered access target) = reply

/-- The second session has gone through the same with the expander as the first one, with other
numbers of transactions. -/
structure Parallel (f : TransactionId → TransactionId) (h k : Session) : Prop where
  system : Mirrored f h.system k.system
  returned : k.returned.filter h.system.config.isExpanders =
    h.returned.map (Completion.renumber f)

variable {h k h' : Session} {s t : Simulation} {machine : Machine} {config : Config}
  {access : Access} {call : HostCall}

namespace Parallel

theorem produced (parallel : Parallel f h k) :
    k.produced.filter h.system.config.isExpanders = h.produced.map (Completion.renumber f) := by
  rw [Session.produced, Session.produced, List.filter_append, List.map_append, parallel.returned,
    parallel.system.completions]

theorem runUntil (parallel : Parallel f h k) (inj : Function.Injective f) (kept : Kept config h)
    (kept' : Kept config k) (limit : Tick) :
    k.told (.runUntil limit) = h.told (.runUntil limit) ∧
      Mirrored f (h.after (.runUntil limit)).system (k.after (.runUntil limit)).system := by
  obtain ⟨s, drained, ran⟩ := kept.reachable.drained_runUntil limit
  obtain ⟨t, drained', ran'⟩ := kept'.reachable.drained_runUntil limit
  obtain ⟨_, same, trails, late⟩ := kept.drained kept' parallel.system.trails inj drained'
  obtain rfl := drained.unique same
  have early := kept'.standing.now_drained drained'
  have now : max s.now limit = max t.now limit := by
    have start := parallel.system.now
    have le := trails.now
    grind
  simp only [told, after, ran, ran', now]
  exact ⟨trivial, trails.mirrored.wait _⟩

theorem after (parallel : Parallel f h k) (ascending : StrictMono f) (kept : Kept config h)
    (kept' : Kept config k) (paced : call.paced = true) (keeps : ∀ access, call ≠ .send access) :
    (k.told call).ofExpander h.system.config = (h.told call).renumber f ∧
      Parallel f (h.after call) (k.after call) := by
  have config := (kept.reaches (call.timed_of_paced paced)).config
  cases call with
  | send access => exact absurd rfl (keeps access)
  | atomic | runUntilIdle | poll | load => cases paced
  | runUntil limit =>
    obtain ⟨told, system⟩ := parallel.runUntil ascending.injective kept kept' limit
    refine ⟨?_, system, ?_⟩
    · rw [told]
      rfl
    · rw [config]
      exact parallel.returned
  | take =>
    obtain ⟨told, system⟩ := parallel.system.takeCompletions ascending
    refine ⟨congrArg Told.handed told, system, ?_⟩
    simp only [Session.after, List.filter_append, List.map_append]
    rw [← told, ← parallel.returned]
    rfl
  | takeRetry =>
    exact ⟨congrArg Told.retry parallel.system.hostRetry, { parallel.system with hostRetry := rfl },
      parallel.returned⟩

theorem meets {target target' : ComponentId} {stage stage' : Stage}
    {reply reply' : Reply Stage Delivery} (parallel : Parallel f h k) (inj : Function.Injective f)
    (next : f h.system.nextId = k.system.nextId)
    (outside : h.system.config.system.memoryRange.contains access.request.addr = false)
    (met : h.Meets access target stage reply) (met' : k.Meets access target' stage' reply') :
    target' = target ∧ target ≠ 0 ∧ stage' = stage.renumber f ∧
      reply' = reply.renumber (Stage.renumber f) f := by
  obtain ⟨standing, faced, found, leads, rfl⟩ := met
  obtain ⟨standing', faced', found', leads', rfl⟩ := met'
  have config := parallel.system.config
  have ne : target ≠ 0 := fun eq => Bool.false_ne_true
    (outside.symm.trans ((leads.eq_zero_iff standing.valid.disjoint).1 eq))
  have ne' : target' ≠ 0 := fun eq => Bool.false_ne_true
    (outside.symm.trans (config ▸ (leads'.eq_zero_iff standing'.valid.disjoint).1 eq))
  have last := ((Fabric.placed_stage standing.chained found).host.1 faced).resolve_left ne
  have last' := ((Fabric.placed_stage standing'.chained found').host.1 faced').resolve_left ne'
  rw [standing.sites] at last
  rw [standing'.sites, config] at last'
  obtain rfl : target' = target := Nat.succ.inj (last'.trans last.symm)
  rw [parallel.system.stages _ ne, found, Option.map_some] at found'
  obtain rfl := Option.some.inj found'
  refine ⟨rfl, ne, rfl, ?_⟩
  rw [parallel.system.offered next, parallel.system.now]
  exact stage.recvRequest_renumber inj

theorem memory (parallel : Parallel f h k) (standing : k.Standing)
    (inside : h.system.config.system.memoryRange.contains access.request.addr = true) :
    Parallel f h (k.after (.send access)) := by
  have system := parallel.system
  have offers := standing.offers access
  have first {target : ComponentId} (leads : k.system.LeadsTo access target) : target = 0 :=
    (leads.eq_zero_iff standing.valid.disjoint).2 (system.config ▸ inside)
  rw [Session.after]
  generalize k.system.sendRequest access.request = outcome at offers ⊢
  cases offers with
  | rejected => exact ⟨{ system with }, parallel.returned⟩
  | @refused target stage denied lastHit _ _ _ leads =>
    obtain rfl := first leads
    exact ⟨{ system.memory_setStage denied with }, parallel.returned⟩
  | @accepted target stage answered actions lastHit _ _ _ leads reply =>
    obtain rfl := first leads
    have wakes := Stage.onlyWakes_recvRequest stage k.system.now (k.system.offered access 0)
    rw [reply] at wakes
    have routed : Mirrored f h.system { k.system.remembering lastHit with
        nextId := k.system.nextId + 1
        host := { k.system.host with issued := k.system.host.issued + 1 } } := { system with }
    exact ⟨(routed.memory_setStage answered).memory_wakes wakes, parallel.returned⟩

end Parallel

variable {g : TransactionId → TransactionId} {n m : TransactionId}

/-- An ascending numbering that is settled below `n`. -/
structure Continues (f g : TransactionId → TransactionId) (n : TransactionId) : Prop where
  ascending : StrictMono f
  same : ∀ i < n, f i = g i

def numberedFrom (g : TransactionId → TransactionId) (n m i : TransactionId) : TransactionId :=
  if i < n then g i else m + (i - n)

theorem continues_numberedFrom (ascending : StrictMono g) (below : ∀ i < n, g i < m) :
    Continues (numberedFrom g n m) g n where
  ascending i j lt := by
    simp only [numberedFrom]
    split <;> split
    · exact ascending lt
    · rename_i lower upper
      exact Nat.lt_of_lt_of_le (below i lower) (Nat.le_add_right m _)
    · grind
    · grind
  same i lt := if_pos lt

theorem numberedFrom_self : numberedFrom g n m n = m := by
  rw [numberedFrom, if_neg (Nat.lt_irrefl n), Nat.sub_self]
  rfl

theorem numberedFrom_lt (below : ∀ i < n, g i < m) {i : TransactionId} (lt : i < n + 1) :
    numberedFrom g n m i < m + 1 := by
  rcases Nat.lt_succ_iff_lt_or_eq.1 lt with lt | rfl
  · rw [numberedFrom, if_pos lt]
    exact Nat.lt_succ_of_lt (below i lt)
  · rw [numberedFrom_self]
    exact Nat.lt_succ_self m

theorem Continues.back (continues : Continues f (numberedFrom g n m) (n + 1)) :
    f n = m ∧ Continues f g n :=
  ⟨(continues.same n (Nat.lt_succ_self n)).trans numberedFrom_self, continues.ascending,
    fun i lt => (continues.same i (Nat.lt_succ_of_lt lt)).trans (if_pos lt)⟩

/-- The second session goes along with the first one, whatever numbers come next. -/
structure Tracks (g : TransactionId → TransactionId) (h k : Session) : Prop where
  ascending : StrictMono g
  below : ∀ i < h.system.nextId, g i < k.system.nextId
  parallel : ∀ f, Continues f g h.system.nextId → Parallel f h k

namespace Tracks

variable {target target' : ComponentId} {stage stage' : Stage} {lastHit lastHit' : Nat}

theorem next (tracks : Tracks g h k) :
    Continues (numberedFrom g h.system.nextId k.system.nextId) g h.system.nextId :=
  continues_numberedFrom tracks.ascending tracks.below

theorem meets {reply reply' : Reply Stage Delivery} (tracks : Tracks g h k)
    (outside : h.system.config.system.memoryRange.contains access.request.addr = false)
    (met : h.Meets access target stage reply) (met' : k.Meets access target' stage' reply') :
    target' = target ∧ target ≠ 0 ∧
      stage' = stage.renumber (numberedFrom g h.system.nextId k.system.nextId) ∧
      reply' = reply.renumber (Stage.renumber (numberedFrom g h.system.nextId k.system.nextId))
        (numberedFrom g h.system.nextId k.system.nextId) :=
  (tracks.parallel _ tracks.next).meets tracks.next.ascending.injective numberedFrom_self outside
    met met'

theorem refused {denied denied' : Stage} {answer answer' : Delivery} (tracks : Tracks g h k)
    (outside : h.system.config.system.memoryRange.contains access.request.addr = false)
    (met : h.Meets access target stage ⟨denied, [], answer⟩)
    (met' : k.Meets access target' stage' ⟨denied', [], answer'⟩)
    (denies : stage.DeniesRequest h.system.now denied) (continues : Continues f g h.system.nextId) :
    Mirrored f ((h.system.remembering lastHit).setStage target denied)
      ((k.system.remembering lastHit').setStage target' denied') := by
  obtain ⟨rfl, ne, rfl, same⟩ := tracks.meets outside met met'
  have mirrored := (tracks.parallel f continues).system
  have found := met'.found
  rw [mirrored.stages _ ne, met.found, Option.map_some] at found
  have placed := (mirrored.remembering lastHit lastHit').setStage ne denied
  rw [denies.renumber_congr (Option.some.inj found)] at placed
  rw [show denied' = denied.renumber _ from congrArg Reply.stage same]
  exact placed

theorem accepted {answered answered' : Stage} {actions actions' : List Action}
    {host host' : HostStatistics} {answer answer' : Delivery} (tracks : Tracks g h k)
    (outside : h.system.config.system.memoryRange.contains access.request.addr = false)
    (met : h.Meets access target stage ⟨answered, actions, answer⟩)
    (met' : k.Meets access target' stage' ⟨answered', actions', answer'⟩)
    (continues : Continues f (numberedFrom g h.system.nextId k.system.nextId)
      (h.system.nextId + 1)) :
    Mirrored f
      (({ h.system.remembering lastHit with nextId := h.system.nextId + 1, host }.setStage target
        answered).performActions (asked target actions))
      (({ k.system.remembering lastHit' with
        nextId := k.system.nextId + 1, host := host' }.setStage target'
          answered').performActions (asked target' actions')) := by
  obtain ⟨number, continues⟩ := Continues.back continues
  have parallel := tracks.parallel f continues
  obtain ⟨rfl, ne, -, same⟩ :=
    parallel.meets continues.ascending.injective number outside met met'
  have routed : Mirrored f
      { h.system.remembering lastHit with nextId := h.system.nextId + 1, host }
      { k.system.remembering lastHit' with nextId := k.system.nextId + 1, host := host' } :=
    { parallel.system with }
  have settled := routed.settle ne answered actions
  rw [Simulation.settle_eq, Simulation.settle_eq] at settled
  rw [show answered' = answered.renumber f from congrArg Reply.stage same,
    show actions' = actions from congrArg Reply.actions same]
  exact settled

/-- An access of the expander has the same outcome in both. -/
theorem send (tracks : Tracks g h k) (standing : h.Standing) (standing' : k.Standing)
    (outside : h.system.config.system.memoryRange.contains access.request.addr = false) :
    ∃ g', (∀ i < h.system.nextId, g' i = g i) ∧
      Tracks g' (h.after (.send access)) (k.after (.send access)) ∧
      ∀ f, Continues f g' (h.after (.send access)).system.nextId →
        k.told (.send access) = (h.told (.send access)).renumber f := by
  have entrance := (tracks.parallel _ tracks.next).system.entrance
  have rejection :=
    Simulation.rejection?_congr (Prod.ext entrance.1 entrance.2) access.request
  have returned (f : TransactionId → TransactionId) (continues : Continues f g h.system.nextId) :=
    (tracks.parallel f continues).returned
  have offers := standing.offers access
  have offers' := standing'.offers access
  simp only [told, after]
  generalize h.system.sendRequest access.request = outcome at offers ⊢
  generalize k.system.sendRequest access.request = outcome' at offers' ⊢
  -- Either outcome is one of three; only the pairs of the same kind are possible.
  cases offers with
  | rejected lastHit rejects =>
    cases offers' with
    | rejected lastHit' rejects' =>
      obtain rfl := Option.some.inj (rejects.symm.trans (rejection.symm.trans rejects'))
      refine ⟨g, fun _ _ => rfl, ⟨tracks.ascending, tracks.below, fun f continues => ?_⟩,
        fun f _ => rfl⟩
      exact ⟨(tracks.parallel f continues).system.remembering .., returned f continues⟩
    | refused _ passes | accepted _ passes =>
      cases rejects.symm.trans (rejection.symm.trans passes)
  | refused lastHit passes faced found leads reply denies =>
    have met : h.Meets access _ _ _ := ⟨standing, faced, found, leads, reply⟩
    cases offers' with
    | rejected _ rejects => cases rejects.symm.trans (rejection.trans passes)
    | refused lastHit' _ faced' found' leads' reply' =>
      have met' : k.Meets access _ _ _ := ⟨standing', faced', found', leads', reply'⟩
      refine ⟨g, fun _ _ => rfl, ⟨tracks.ascending, tracks.below, fun f continues => ?_⟩,
        fun f _ => rfl⟩
      exact ⟨{ tracks.refused outside met met' denies continues with }, returned f continues⟩
    | accepted _ _ faced' found' leads' reply' =>
      have met' : k.Meets access _ _ _ := ⟨standing', faced', found', leads', reply'⟩
      cases congrArg Reply.answer (tracks.meets outside met met').2.2.2
  | accepted lastHit passes faced found leads reply =>
    have met : h.Meets access _ _ _ := ⟨standing, faced, found, leads, reply⟩
    cases offers' with
    | rejected _ rejects => cases rejects.symm.trans (rejection.trans passes)
    | refused _ _ faced' found' leads' reply' =>
      have met' : k.Meets access _ _ _ := ⟨standing', faced', found', leads', reply'⟩
      cases congrArg Reply.answer (tracks.meets outside met met').2.2.2
    | accepted lastHit' _ faced' found' leads' reply' =>
      have met' : k.Meets access _ _ _ := ⟨standing', faced', found', leads', reply'⟩
      simp only [Simulation.nextId_performActions]
      refine ⟨_, tracks.next.same, ⟨tracks.next.ascending, ?_, fun f continues => ?_⟩,
        fun f continues => ?_⟩
      · simp only [Simulation.nextId_performActions]
        exact fun i => numberedFrom_lt tracks.below
      · rw [Simulation.nextId_performActions] at continues
        refine ⟨tracks.accepted outside met met' continues, ?_⟩
        simp only [Simulation.config_performActions]
        exact returned f (Continues.back continues).2
      · have number := (Continues.back continues).1
        exact congrArg (fun id => Told.offered (.ok (.accepted id))) number.symm

theorem step (tracks : Tracks g h k) (kept : Kept config h) (kept' : Kept config k)
    (paced : call.paced = true)
    (outside : call.offersIn h.system.config.system.memoryRange = false) :
    ∃ g', (∀ i < h.system.nextId, g' i = g i) ∧ Tracks g' (h.after call) (k.after call) ∧
      ∀ f, Continues f g' (h.after call).system.nextId →
        (k.told call).ofExpander h.system.config = (h.told call).renumber f := by
  cases call with
  | send access =>
    obtain ⟨g', same, tracks', told⟩ := tracks.send kept.standing kept'.standing outside
    refine ⟨g', same, tracks', fun f continues => ?_⟩
    rw [← told f continues]
    rfl
  | atomic | runUntilIdle | poll | load => cases paced
  | runUntil | take | takeRetry =>
    have after (f : TransactionId → TransactionId) (continues : Continues f g h.system.nextId) :=
      (tracks.parallel f continues).after continues.ascending kept kept' paced nofun
    refine ⟨g, fun _ _ => rfl, ⟨tracks.ascending, ?_, ?_⟩, ?_⟩
    all_goals rw [kept.nextId_waits rfl]
    · rw [kept'.nextId_waits rfl]
      exact tracks.below
    · exact fun f continues => (after f continues).2
    · exact fun f continues => (after f continues).1

theorem memory (tracks : Tracks g h k) (kept' : Kept config k)
    (inside : call.offersIn h.system.config.system.memoryRange = true) :
    Tracks g h (k.after call) := by
  cases call with
  | atomic | runUntil | runUntilIdle | poll | take | takeRetry | load => cases inside
  | send access =>
    exact ⟨tracks.ascending,
      fun i lt => Nat.lt_of_lt_of_le (tracks.below i lt) (kept'.nextId_le rfl),
      fun f continues => (tracks.parallel f continues).memory kept'.standing inside⟩

/-- What the hosts are told of the expander all along is the same. -/
theorem run {c : ResolvedConfig} {calls : List HostCall} (tracks : Tracks g h k)
    (kept : Kept config h) (kept' : Kept config k) (same : h.system.config = c)
    (paced : ∀ call ∈ calls, call.paced = true) :
    ∃ g', (∀ i < h.system.nextId, g' i = g i) ∧
      Tracks g' (h.run (HostCall.sparing c.system.memoryRange calls)) (k.run calls) ∧
      k.toldOfExpander c calls =
        (h.dialogue (HostCall.sparing c.system.memoryRange calls)).map
          fun said => (said.1, said.2.renumber g') := by
  induction calls generalizing g h k with
  | nil => exact ⟨g, fun _ _ => rfl, tracks, rfl⟩
  | cons call calls ih =>
    obtain ⟨first, rest⟩ := List.forall_mem_cons.1 paced
    have timed := call.timed_of_paced first
    cases offers : call.offersIn c.system.memoryRange with
    | true =>
      obtain ⟨g', agrees, tracks', told⟩ :=
        ih (tracks.memory kept' (same ▸ offers)) kept (kept'.after timed) same rest
      refine ⟨g', agrees, ?_⟩
      simp only [toldOfExpander, HostCall.sparing, dialogue, List.filter_cons, offers]
      exact ⟨tracks', told⟩
    | false =>
      obtain ⟨g₁, agrees₁, tracks₁, told₁⟩ := tracks.step kept kept' first (same ▸ offers)
      obtain ⟨g', agrees, tracks', told⟩ := ih tracks₁ (kept.after timed) (kept'.after timed)
        ((kept.reaches timed).config.trans same) rest
      refine ⟨g', fun i lt => ?_, ?_⟩
      · exact (agrees i (Nat.lt_of_lt_of_le lt (kept.nextId_le timed))).trans (agrees₁ i lt)
      · simp only [toldOfExpander, HostCall.sparing, dialogue, List.filter_cons, offers]
        refine ⟨tracks', ?_⟩
        have now := told₁ g' ⟨tracks'.ascending, agrees⟩
        rw [same] at now
        exact congrArg₂ (fun said rest => (call, said) :: rest) now told

end Tracks

/-- A host that leaves out what it offers to system memory sees the same of the expander, but for
the numbers of the transactions. -/
structure Undisturbed (f : TransactionId → TransactionId) (s : Simulation)
    (calls : List HostCall) : Prop where
  /-- Other numbers, in the same order. -/
  ascending : StrictMono f
  /-- Each call that is left tells the same. -/
  told : (start s).toldOfExpander s.config calls =
    ((start s).dialogue (HostCall.sparing s.config.system.memoryRange calls)).map
      fun said => (said.1, said.2.renumber f)
  /-- The completions are the same and come about in the same order, handed out or not. -/
  completions : ((start s).run calls).produced.filter s.config.isExpanders =
    ((start s).run (HostCall.sparing s.config.system.memoryRange calls)).produced.map
      (Completion.renumber f)

/-- Accesses of system memory do not disturb the expander. -/
theorem undisturbed_run {s : Simulation} (created : Simulation.create machine config = .ok s)
    (calls : List HostCall) (paced : ∀ call ∈ calls, call.paced = true) :
    ∃ f, Undisturbed f s calls := by
  have fresh := Simulation.fresh_create created
  have kept : Kept config (start s) := ⟨.start created, fresh.housed⟩
  have tracks : Tracks id (start s) (start s) :=
    ⟨strictMono_id, fun _ lt => lt, fun f _ => ⟨fresh.mirrored f, rfl⟩⟩
  have same : (start s).system.config = s.config := rfl
  obtain ⟨f, -, tracks', told⟩ := tracks.run kept kept same paced
  refine ⟨f, tracks'.ascending, told, ?_⟩
  have reaches : (start s).Reaches false ((start s).run
      (HostCall.sparing s.config.system.memoryRange calls)) := kept.standing.run _ nofun
  have produced := (tracks'.parallel f ⟨tracks'.ascending, fun _ _ => rfl⟩).produced
  rw [reaches.config] at produced
  exact produced

/-- A host that writes to system memory and reads from it while it waits for the expander. -/
theorem undisturbed_read : ∃ s f, Simulation.create .standard {} = .ok s ∧
    ((start s).run [.send (.write 0x1000 [1, 2]), .send (.read 0x100000000 4),
      .send (.read 0x1000 2), .runUntil 50000, .send (.write 0x100000000 [7]), .takeRetry,
      .runUntil 1000000, .take]).produced.map (fun c => (c.id, c.completed)) =
        [(0, 36000), (2, 36000), (1, 215652), (3, 224000)] ∧
    ((start s).run [.send (.read 0x100000000 4), .runUntil 50000,
      .send (.write 0x100000000 [7]), .takeRetry, .runUntil 1000000, .take]).produced.map
        (fun c => (c.id, c.completed)) = [(0, 215652), (1, 224000)] ∧
    Undisturbed f s [.send (.write 0x1000 [1, 2]), .send (.read 0x100000000 4),
      .send (.read 0x1000 2), .runUntil 50000, .send (.write 0x100000000 [7]), .takeRetry,
      .runUntil 1000000, .take] := by
  obtain ⟨f, undisturbed⟩ := undisturbed_run (show Simulation.create .standard {} = _ from rfl)
    [.send (.write 0x1000 [1, 2]), .send (.read 0x100000000 4), .send (.read 0x1000 2),
      .runUntil 50000, .send (.write 0x100000000 [7]), .takeRetry, .runUntil 1000000, .take]
    (by decide)
  exact ⟨_, f, rfl, by decide +kernel, by decide +kernel, undisturbed⟩

end Session

end Expander
