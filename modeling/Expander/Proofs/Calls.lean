import Expander.Proofs.Standing

/-!
The calls of a host.

Every call keeps a session standing (`Standing.after`), and so does every sequence of calls. Without
direct writes and accesses that skip the queues, the books show all that happens to the bytes.
-/

set_option autoImplicit false

namespace Expander

namespace Interconnect

variable {n n' : Interconnect} {addr size : Nat} {target : Option ComponentId}

theorem routes_route (h : n.route addr size = (target, n')) : n'.routes = n.routes := by
  rw [route] at h
  split at h
  · cases h
    rfl
  · split at h <;> cases h <;> rfl

theorem route_eq_some {id : ComponentId} (h : n.route addr size = (some id, n')) :
    ∃ r ∈ n.routes, r.target = id ∧ r.range.containsAccess addr size = true := by
  rw [route] at h
  split at h
  · rename_i r last
    cases h
    obtain ⟨found, takes⟩ := Option.filter_eq_some_iff.1 last
    exact ⟨r, List.mem_of_getElem? found, rfl, takes⟩
  · split at h
    · cases h
    · rename_i index found
      obtain ⟨lt, takes, -⟩ := List.findIdx?_eq_some_iff_getElem.1 found
      simp only [Prod.mk.injEq, List.getElem?_eq_getElem lt, Option.map_some,
        Option.some.injEq] at h
      exact ⟨_, List.getElem_mem lt, h.1, takes⟩

end Interconnect

namespace Simulation

variable {s : Simulation} {unanswered : Bool} {id : ComponentId} {stage old : Stage}
  {actions : List Action} {v : StageView} {expander : AddressRange}

theorem Attended.settle (chained : Chained s.fabric.sites expander)
    (h : s.Attended unanswered []) (found : s.fabric.stage? id = some old)
    (yields : Stage.Yields s.now (s.Due [] id) v (stage, actions))
    (handover : s.Handover id old.view v) (frame : v.frame = old.view.frame) :
    (s.settle id stage actions).Attended unanswered [] ∧
      (s.setStage id stage).SameBooks (s.settle id stage actions) := by
  have moved := Attended.setStage [] [] h found yields handover
  have sites : (s.setStage id stage).fabric.sites = s.fabric.sites :=
    Fabric.sites_setStage found ((congrArg StageView.frame yields.view).trans frame)
  rw [List.append_nil] at moved
  rw [settle_eq]
  exact ⟨moved.performActions _ (sites ▸ chained), sameBooks_performActions _ _⟩

theorem Attended.refuse (id : ComponentId) (h : s.Attended unanswered [])
    (front : s.fabric.hostSide? id = some .host) (found : s.fabric.stage? id = some stage)
    (owes : stage.view.owesRequest = true) : s.Attended true [] :=
  ⟨h.sound, h.armed, h.requests, h.responses, h.host,
    fun _ => .inr ⟨id, stage, front, found, .inl owes⟩, h.sorted, h.timely⟩

theorem mem_held {views : List StageView} {v : StageView} {p : Packet} (mem : v ∈ views)
    (packet : p ∈ v.packets) : p.transaction ∈ held views := by
  obtain ⟨behind, front, rfl⟩ := List.append_of_mem mem
  rw [held_append, held_cons, Multiset.mem_add, Multiset.mem_add]
  exact .inr (.inl (Multiset.mem_map_of_mem _ packet))

/-- Bytes have changed, and nothing else that the books show. -/
structure Poked (s s' : Simulation) : Prop where
  sites : s'.fabric.sites = s.fabric.sites
  cargo : s'.cargo.map StageView.blank = s.cargo.map StageView.blank
  rest : ∃ nodes, s' = { s with fabric := { s.fabric with nodes } }

theorem Poked.refl (s : Simulation) : s.Poked s := ⟨rfl, rfl, _, rfl⟩

theorem Poked.trans {s s' s'' : Simulation} (h : s.Poked s') (h' : s'.Poked s'') :
    s.Poked s'' := by
  obtain ⟨nodes, rfl⟩ := h.rest
  obtain ⟨nodes', rfl⟩ := h'.rest
  exact ⟨h'.sites.trans h.sites, h'.cargo.trans h.cargo, nodes', rfl⟩

theorem Attended.poke {store : Option Store} (h : s.Attended unanswered [])
    (found : s.fabric.stage? id = some old)
    (yields : Stage.Yields s.now (s.Due [] id) { old.view with store } (stage, [])) :
    (s.setStage id stage).Attended unanswered [] ∧ s.Poked (s.setStage id stage) := by
  have view : stage.view = { old.view with store } :=
    yields.view_of_onlyWakes .nil
  refine ⟨Attended.setStage [] [] h found yields
    ⟨.inl, .inl, fun owes => owes, fun owes => owes⟩, ?_, ?_, _, rfl⟩
  · exact Fabric.sites_setStage found (by rw [view])
  · obtain ⟨behind, front, -, cargo, after⟩ := cargo_split found
    rw [after, cargo, List.map_append, List.map_append, List.map_cons, List.map_cons, view]
    rfl

theorem Attended.walkAtomic (fuel : Nat) (id : ComponentId) (p : Packet) (latency : Tick)
    (h : s.Attended unanswered []) :
    (walkAtomic fuel id p latency s).2.Attended unanswered [] ∧
      s.Poked (walkAtomic fuel id p latency s).2 := by
  -- Each stage on the way changes its bytes at most, and the walk goes on from the changed system.
  induction fuel generalizing s id p latency with
  | zero => exact ⟨h, .refl s⟩
  | succ fuel ih =>
    rw [Simulation.walkAtomic]
    split
    next => exact ⟨h, .refl s⟩
    next stage found =>
      have poked := h.poke found (Stage.yields_accessAtomic (h.sound id stage found)
        (h.armed id stage found) (p.arriveAt id (s.now + latency)))
      simp only
      split
      next => exact poked
      next => exact poked
      next =>
        split
        next => exact poked
        next =>
          obtain ⟨attended, poked'⟩ := ih _ _ _ poked.1
          exact ⟨attended, poked.2.trans poked'⟩

end Simulation

namespace Session

variable {timed : Bool} {h : Session}

/-- Where the interconnect sends a request, a stage faces the host; one that sends it on has an
expander behind it that holds all of its bytes. -/
theorem Standing.target {addr size : Nat} {target : ComponentId} {interconnect : Interconnect}
    (standing : h.Standing)
    (routed : h.system.fabric.interconnect.route addr size = (some target, interconnect)) :
    ∃ stage, h.system.fabric.stage? target = some stage ∧
      h.system.fabric.hostSide? target = some .host ∧
      (stage.view.frame.held? = none → h.expander.containsAccess addr size = true) := by
  obtain ⟨r, mem, rfl, inside⟩ := Interconnect.route_eq_some routed
  have chained := standing.chained
  have more := chained.expander
  -- The routes are those of the configuration: one to system memory, one to the front.
  have place : r.target = 0 ∨ (r.target + 1 = h.system.fabric.sites.length ∧
      h.expander.containsAccess addr size = true) := by
    rcases standing.routes r mem with ⟨-, memory⟩ | ⟨range, front⟩
    · exact .inl memory
    · refine .inr ⟨?_, range ▸ inside⟩
      rw [front, ResolvedConfig.front, standing.sites]
      rw [standing.sites] at more
      exact Nat.sub_add_cancel (Nat.le_of_lt more)
  have lt : r.target < h.system.fabric.sites.length := by grind
  obtain ⟨stage, found⟩ := Fabric.exists_stage (List.getElem?_eq_getElem lt)
  have placed := Fabric.placed_stage chained found
  refine ⟨stage, found, placed.host.2 (place.imp_right And.left), fun passes => ?_⟩
  rcases place with memory | ⟨-, expander⟩
  · have isMemory := placed.memory.2 memory
    cases frame : stage.view.frame <;> simp [frame, StageFrame.isMemory, StageFrame.held?] at *
  · exact expander

theorem Standing.answers_fresh {id : ComponentId} {stage : Stage} (standing : h.Standing)
    (found : h.system.fabric.stage? id = some stage) :
    ∀ q ∈ stage.view.answers, q.id ≠ h.system.nextId := by
  intro q mem same
  have shown : stage.view.calm ∈ h.system.cargo :=
    List.mem_of_getElem? (Simulation.cargo_getElem? found)
  have packets : q ∈ stage.view.calm.packets := Multiset.mem_add.2 (.inr mem)
  exact standing.balanced.fresh
    (Multiset.mem_map.2 ⟨q.transaction, Simulation.mem_held shown packets, same⟩)

private theorem Standing.admitted {target : ComponentId} {stage answered : Stage}
    {actions : List Action} {p : Packet} {access : Access} {interconnect : Interconnect}
    {host : HostStatistics} (standing : h.Standing)
    (routes : interconnect.routes = h.system.fabric.interconnect.routes)
    (found : h.system.fabric.stage? target = some stage)
    (faced : h.system.fabric.hostSide? target = some .host)
    (packet : p.bare = Grant.packet ⟨h.system.nextId, access, h.system.now⟩)
    (accepts : stage.view.Accepts h.expander p)
    (yields : Stage.Yields h.system.now (h.system.Due [] target) (stage.view.receive p)
      (answered, actions)) (wakes : OnlyWakes actions)
    (counted : host.issued = h.system.host.issued + 1 ∧
      host.completed = h.system.host.completed) :
    h.Reaches true { h with
      system := { h.system with
        fabric := { h.system.fabric with interconnect }
        nextId := h.system.nextId + 1
        host }.settle target answered actions
      accepted := h.accepted ++ [⟨h.system.nextId, access, h.system.now⟩] } := by
  obtain ⟨attended, same⟩ := Simulation.Attended.settle (s := { h.system with
    fabric := { h.system.fabric with interconnect }, nextId := h.system.nextId + 1, host })
    standing.chained (standing.attended.alike rfl rfl rfl rfl) found yields
    (Simulation.handover_receive _ _ _ _) (frame_receive _ _)
  have view : answered.view = stage.view.receive p :=
    yields.view_of_onlyWakes wakes
  obtain ⟨behind, front, length, cargo, after⟩ := Simulation.cargo_split found
  have faces := Simulation.facesHost standing.chained faced found length cargo rfl
  have step : Ledger.Step h.expander true h.ledger _ :=
    .receive access h.system.now cargo faces (packet ▸ accepts)
  -- Actions move no packet, so the cargo is that of the system with the stage replaced.
  have cargo' := same.cargo.trans (after answered)
  rw [view, StageView.calm_receive, ← StageView.receive_bare, packet] at cargo'
  have sites := same.sites.trans (Fabric.sites_setStage found (by rw [view, frame_receive]))
  obtain ⟨nodes, events, hostRetry, eq⟩ := same.rest
  generalize Simulation.settle _ target answered actions = s at *
  subst eq
  refine standing.reaches ⟨rfl, sites, routes⟩ attended (.single ?_) ?_ ?_
  · simp only [ledger, cargo']
    exact step
  · simp only [Simulation.setStage, counted.1, standing.issued, List.length_append,
      List.length_singleton]
  · exact counted.2.trans standing.completed

private theorem Standing.refused {target : ComponentId} {stage answered : Stage}
    {interconnect : Interconnect} {host : HostStatistics} (standing : h.Standing)
    (routes : interconnect.routes = h.system.fabric.interconnect.routes)
    (found : h.system.fabric.stage? target = some stage)
    (faced : h.system.fabric.hostSide? target = some .host)
    (yields : Stage.Yields h.system.now (h.system.Due [] target)
      { stage.view with owesRequest := true } (answered, []))
    (counted : host.issued = h.system.host.issued ∧
      host.completed = h.system.host.completed) :
    h.Reaches true { h with
      system := { h.system with
        fabric := { h.system.fabric with interconnect }
        host }.settle target answered []
      unanswered := true } := by
  obtain ⟨attended, same⟩ := Simulation.Attended.settle (s := { h.system with
    fabric := { h.system.fabric with interconnect }, host })
    standing.chained (standing.attended.alike rfl rfl rfl rfl) found yields
    ⟨.inl, .inl, fun _ => rfl, fun owes => owes⟩ rfl
  have view : answered.view = { stage.view with owesRequest := true } :=
    yields.view_of_onlyWakes .nil
  obtain ⟨behind, front, length, cargo, after⟩ := Simulation.cargo_split found
  have promised : Simulation.Attended _ true [] := attended.refuse target
    ((Fabric.hostSide?_setStage ..).trans faced) (Fabric.stage?_setStage_self found) (by rw [view])
  have cargo' : (h.system.setStage target answered).cargo = h.system.cargo := by
    rw [after, view, cargo]
    rfl
  have sites := Fabric.sites_setStage found (show answered.view.frame = _ by rw [view])
  refine standing.reaches ⟨rfl, sites, routes⟩ promised ?_ (counted.1.trans standing.issued)
    (counted.2.trans standing.completed)
  have books : ledger { h with
      system := { h.system with
        fabric := { h.system.fabric with interconnect }
        host }.settle target answered []
      unanswered := true } = h.ledger := by
    simp only [ledger]
    congr 1
  rw [books]
  exact .refl

/-- Offering a request: the first stage takes it, or it refuses and owes a retry, or the request
is turned away. -/
theorem Standing.send (standing : h.Standing) (access : Access) :
    h.Reaches true (h.after (.send access)) := by
  have turned (interconnect : Interconnect)
      (routes : interconnect.routes = h.system.fabric.interconnect.routes) :
      h.Reaches true { h with
        system := { h.system with fabric := { h.system.fabric with interconnect } } } :=
    standing.unseen (s := { h.system with fabric := { h.system.fabric with interconnect } })
      ⟨rfl, rfl, routes⟩ ⟨rfl, rfl⟩ ⟨rfl, rfl⟩ (standing.attended.alike rfl rfl rfl rfl)
  rw [after, Simulation.sendRequest]
  cases h.system.window.check access.request with
  | error e => exact standing.refl
  | ok =>
    cases routed : h.system.fabric.interconnect.route access.request.addr access.request.size with
    | mk target interconnect =>
      have routes := Interconnect.routes_route routed
      cases target with
      | none => exact turned interconnect routes
      | some target =>
        obtain ⟨stage, found, faced, inside⟩ := standing.target routed
        have found' : Fabric.stage? { h.system.fabric with interconnect } target = some stage :=
          found
        simp only [found']
        generalize arrived : Packet.arriveAt _ target h.system.now = p
        have packet : p.bare = Grant.packet ⟨h.system.nextId, access, h.system.now⟩ := by
          rw [← arrived, ← Grant.bare_packet]
          rfl
        have attended := standing.attended
        have number : p.id = h.system.nextId :=
          (congrArg Packet.id packet).trans (Grant.id_packet _)
        have fresh : ∀ q ∈ stage.view.answers, q.id ≠ p.id := by
          rw [number]
          exact standing.answers_fresh found
        have offered := Stage.offered_recvRequest (attended.sound target stage found)
          (attended.armed target stage found) fresh
        rcases offered with ⟨-, reply⟩ | ⟨-, answered, yields, reply⟩ |
          ⟨serves, answered, actions, yields, wakes, reply⟩
        · rw [reply]
          exact turned interconnect routes
        · rw [reply]
          exact standing.refused routes found faced yields ⟨rfl, rfl⟩
        · rw [reply]
          have addr : p.addr = access.request.addr :=
            (congrArg Packet.addr packet).trans (Grant.addr_packet _)
          have size : p.size = access.request.size :=
            (congrArg Packet.size packet).trans (Grant.size_packet _)
          rw [← addr, ← size] at inside
          exact standing.admitted routes found faced packet ⟨serves, inside⟩ yields wakes ⟨rfl, rfl⟩

private theorem Standing.poked {s : Simulation} {nextId : TransactionId}
    {interconnect : Interconnect} (standing : h.Standing) (le : h.system.nextId ≤ nextId)
    (routes : interconnect.routes = h.system.fabric.interconnect.routes)
    (attended : s.Attended h.unanswered [])
    (poked : { h.system with
      fabric := { h.system.fabric with interconnect }
      nextId }.Poked s) : h.Reaches false { h with system := s } := by
  have blank := poked.cargo
  have sites := poked.sites
  obtain ⟨nodes, rfl⟩ := poked.rest
  exact standing.reaches ⟨rfl, sites, routes⟩ attended (.single (.poke rfl le blank))
    standing.issued standing.completed

theorem Standing.atomic (standing : h.Standing) (access : Access) :
    h.Reaches false (h.after (.atomic access)) := by
  rw [after, Simulation.accessAtomic]
  cases h.system.window.check access.request with
  | error e => exact standing.refl
  | ok =>
    cases routed : h.system.fabric.interconnect.route access.request.addr access.request.size with
    | mk target interconnect =>
      have routes := Interconnect.routes_route routed
      cases target with
      | none =>
        exact standing.poked (Nat.le_refl _) routes (standing.attended.alike rfl rfl rfl rfl)
          (.refl _)
      | some target =>
        have start : Simulation.Attended { h.system with
            fabric := { h.system.fabric with interconnect }
            nextId := h.system.nextId + 1 } h.unanswered [] :=
          standing.attended.alike rfl rfl rfl rfl
        have walked := start.walkAtomic h.system.fabric.nodes.length target
          (access.request.toPacket h.system.nextId h.system.now)
          (interconnect.transitTime (access.request.toPacket h.system.nextId h.system.now).payload)
        have reaches := standing.poked (Nat.le_succ _) routes walked.1 walked.2
        simp only
        split
        next eq =>
          rw [eq] at reaches
          exact reaches
        next eq =>
          rw [eq] at reaches
          exact reaches

theorem Standing.load (standing : h.Standing) (addr : Nat) (data : List UInt8) :
    h.Reaches false (h.after (.load addr data)) := by
  have attended := standing.attended
  rw [after, Simulation.load]
  cases located : h.system.storeFor addr data.length with
  | none => exact standing.refl
  | some entry =>
    obtain ⟨range, id, stage, store⟩ := entry
    obtain ⟨registration, -, located⟩ := Option.bind_eq_some_iff.1 located
    obtain ⟨stage', found, located⟩ := Option.bind_eq_some_iff.1 located
    obtain ⟨store', holds, eq⟩ := Option.map_eq_some_iff.1 located
    cases eq
    cases write : store.write? (registration.1.offsetOf addr) data with
    | none =>
      simp only [write]
      exact standing.refl
    | some written =>
      simp only [write]
      have poked := attended.poke found (Stage.yields_withStore holds (Store.size_write? write)
        (attended.sound _ _ found) (attended.armed _ _ found))
      exact standing.poked (Nat.le_refl _) rfl poked.1 poked.2

theorem Standing.after (standing : h.Standing) (call : HostCall)
    (allowed : timed = true → call.timed = true) : h.Reaches timed (h.after call) := by
  cases call with
  | send access => exact (standing.send access).loosen
  | atomic access =>
    cases timed with
    | true => cases allowed rfl
    | false => exact standing.atomic access
  | runUntil limit =>
    obtain ⟨halt, s, eq, reaches, -⟩ := standing.runUntil limit
    rw [Session.after, eq]
    exact reaches.loosen
  | runUntilIdle =>
    obtain ⟨halt, s, eq, reaches, -⟩ := standing.runUntilIdle
    rw [Session.after, eq]
    exact reaches.loosen
  | poll =>
    obtain ⟨halt, collected, s, eq, reaches⟩ := standing.pollWithin (h.system.budget + 1)
    rw [Session.after, Simulation.pollCompletions, eq]
    exact reaches.loosen
  | take => exact standing.take.loosen
  | takeRetry => exact standing.takeRetry.loosen
  | load addr data =>
    cases timed with
    | true => cases allowed rfl
    | false => exact standing.load addr data

end Session

end Expander
