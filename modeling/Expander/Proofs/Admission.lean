import Expander.Proofs.Reachability
import Expander.Proofs.Replay
import Expander.Proofs.Wakefulness

/-!
How a system answers the accesses of its host.

Whether an access is turned away does not depend on what the stages hold (`rejection?`): it is too
large for the window of the controller, or no route takes all of it. Otherwise a request that is
sent is taken or refused by the stage that faces the host (`Standing.sent`), and an access without
queueing reaches the stage with its bytes (`Standing.performed`). No stage on the way finds that it
does not serve the access.
-/

set_option autoImplicit false

namespace Expander

namespace Interconnect

variable {n n' : Interconnect} {addr size : Nat} {target : Option ComponentId}

theorem eq_of_route (h : n.route addr size = (target, n')) :
    n' = { n with lastHit := n'.lastHit } := by
  rw [route] at h
  split at h
  · cases h
    rfl
  · split at h <;> cases h <;> rfl

theorem route_eq_none_iff (h : n.route addr size = (target, n')) :
    target = none ↔ n.decode? addr size = none := by
  rw [decode?, Option.map_eq_none_iff, List.find?_eq_none]
  rw [route] at h
  split at h
  next r last =>
    cases h
    obtain ⟨found, takes⟩ := Option.filter_eq_some_iff.1 last
    exact iff_of_false (Option.some_ne_none _) fun none =>
      none r (List.mem_of_getElem? found) takes
  next =>
    split at h
    next none =>
      cases h
      exact ⟨fun _ r mem => by simpa using List.findIdx?_eq_none_iff.1 none r mem, fun _ => rfl⟩
    next index found =>
      obtain ⟨lt, takes, -⟩ := List.findIdx?_eq_some_iff_getElem.1 found
      cases h
      rw [List.getElem?_eq_getElem lt]
      exact iff_of_false (Option.some_ne_none _) fun none =>
        none _ (List.getElem_mem lt) takes

end Interconnect

namespace StageView

variable {v : StageView} {range : AddressRange} {p q : Packet}

theorem answer_congr (same : p.bare = q.bare) : v.answer range p = v.answer range q := by
  have bare (r : Packet) : v.answer range r = v.answer range r.bare := rfl
  rw [bare p, same, ← bare q]

theorem written_congr (same : p.bare = q.bare) : v.written range p = v.written range q := by
  have bare (r : Packet) : v.written range r = v.written range r.bare := rfl
  rw [bare p, same, ← bare q]

end StageView

namespace Fabric

theorem setStage_same {f : Fabric} {id : ComponentId} {stage : Stage}
    (found : f.stage? id = some stage) : f.setStage id stage = f := by
  obtain ⟨node, at_id, rfl⟩ := stage?_eq_some.1 found
  have same : f.nodes.modify id (fun other => { other with stage := node.stage }) = f.nodes := by
    refine List.ext_getElem? fun i => ?_
    rw [List.getElem?_modify]
    split
    next eq =>
      subst eq
      rw [at_id]
      rfl
    next => cases f.nodes[i]? <;> rfl
  rw [setStage, same]

end Fabric

namespace Stage

variable {s : Stage} {range : AddressRange} {p : Packet}

theorem accessAtomic_forwards (forwards : s.view.frame.forwards = true)
    (serves : s.view.frame.serves p.addr p.size = true) :
    ∃ delay q, s.accessAtomic p = (.forward delay, q, s) ∧ q.bare = p.bare := by
  cases s with
  | bridge b =>
    have passes : b.serves p = true := serves
    refine ⟨b.delayFor p.addr, b.tag p, ?_, b.bare_tag p⟩
    simp only [accessAtomic, Bridge.accessAtomic, passes, if_true]
  | device d =>
    have passes : d.config.range.containsAccess p.addr p.size = true := serves
    refine ⟨2 * d.config.protocolLatency, Device.tagRequest p, ?_, Device.bare_tagRequest p⟩
    simp only [accessAtomic, Device.accessAtomic, passes, if_true]
  | controller c => cases forwards
  | memory m => cases forwards

theorem accessAtomic_holder (held : s.view.frame.held? = some range)
    (inside : range.containsAccess p.addr p.size = true) :
    ∃ delay, (s.accessAtomic p).1 = .complete delay ∧
      (s.accessAtomic p).2.1.bare = s.view.answer range p ∧
      (s.accessAtomic p).2.2.view = { s.view with store := s.view.written range p } := by
  cases s with
  | bridge b => cases held
  | device d => cases held
  | controller c =>
    cases held
    cases kind : p.kind with
    | read =>
      refine ⟨c.atomicLatency, ?_⟩
      simp [accessAtomic, Controller.accessAtomic, inside, kind, view, Controller.view,
        StageView.answer, StageView.written]
    | write =>
      have write : p.bare.kind = .write := kind
      refine ⟨c.atomicLatency, ?_⟩
      simp [accessAtomic, Controller.accessAtomic, inside, kind, view, Controller.view,
        StageView.answer, StageView.written, Packet.respond_write write _ []]
      rfl
  | memory m =>
    cases held
    have performed := SystemMemory.view_perform m p
    have answer := SystemMemory.bare_perform m p
    refine ⟨m.latency, ?_⟩
    simp only [accessAtomic, SystemMemory.accessAtomic, inside, if_true]
    exact ⟨trivial, answer, performed⟩

end Stage

namespace Simulation

def remembering (s : Simulation) (lastHit : Nat) : Simulation :=
  { s with fabric := { s.fabric with interconnect := { s.fabric.interconnect with lastHit } } }

def rejection? (s : Simulation) (r : HostRequest) : Option SimError :=
  match s.window.check r with
  | .error e => some e
  | .ok () => if (s.fabric.interconnect.decode? r.addr r.size).isNone then some (unrouted r.addr)
    else none

theorem rejection?_of_routed {s : Simulation} {r : HostRequest} {target : Option ComponentId}
    {n : Interconnect} (check : s.window.check r = .ok ())
    (routed : s.fabric.interconnect.route r.addr r.size = (target, n)) :
    s.rejection? r = if target.isNone then some (unrouted r.addr) else none := by
  have decoded := Interconnect.route_eq_none_iff routed
  rw [rejection?, check]
  simp only [Option.isNone_iff_eq_none, decoded]

def offered (s : Simulation) (access : Access) (target : ComponentId) : Packet :=
  { access.request.toPacket s.nextId s.now with
    headerDelay := s.fabric.interconnect.transitTime
      (access.request.toPacket s.nextId s.now).payload }.arriveAt target s.now

def LeadsTo (s : Simulation) (access : Access) (target : ComponentId) : Prop :=
  (target = 0 ∧ s.config.system.memoryRange.containsAccess access.request.addr
      access.request.size = true) ∨
    (0 < target ∧ s.config.device.range.containsAccess access.request.addr
      access.request.size = true)

/-- The outcomes of sending a request, with the packet as which it is offered. -/
inductive Offers (s : Simulation) (access : Access) :
    Except SimError Admission × Simulation → Prop where
  | rejected {e : SimError} (lastHit : Nat) : s.rejection? access.request = some e →
      Offers s access (.error e, s.remembering lastHit)
  | refused {target : ComponentId} {stage denied : Stage} (lastHit : Nat) :
      s.rejection? access.request = none → s.fabric.hostSide? target = some .host →
      s.fabric.stage? target = some stage → s.LeadsTo access target →
      stage.recvRequest s.now (s.offered access target) =
        ⟨denied, [], .busy (s.offered access target)⟩ →
      stage.DeniesRequest s.now denied →
      Offers s access (.ok (.retry access.request),
        { (s.remembering lastHit).setStage target denied with
          host := { s.host with retried := s.host.retried + 1 } })
  | accepted {target : ComponentId} {stage answered : Stage} {actions : List Action}
      (lastHit : Nat) :
      s.rejection? access.request = none → s.fabric.hostSide? target = some .host →
      s.fabric.stage? target = some stage → s.LeadsTo access target →
      stage.recvRequest s.now (s.offered access target) = ⟨answered, actions, .accepted⟩ →
      Offers s access (.ok (.accepted s.nextId),
        ({ s.remembering lastHit with
          nextId := s.nextId + 1
          host := { s.host with issued := s.host.issued + 1 } }.setStage target
            answered).performActions (asked target actions))

/-- The outcomes of sending a request. -/
inductive Sent (s : Simulation) (access : Access) :
    Except SimError Admission × Simulation → Prop where
  /-- The request is turned away, and no stage gets to see it. -/
  | rejected {e : SimError} (lastHit : Nat) : s.rejection? access.request = some e →
      Sent s access (.error e, s.remembering lastHit)
  /-- The stage that faces the host hands the request back. -/
  | refused {target : ComponentId} {stage denied : Stage} (lastHit : Nat) :
      s.rejection? access.request = none → s.fabric.hostSide? target = some .host →
      s.fabric.stage? target = some stage → stage.DeniesRequest s.now denied →
      Sent s access (.ok (.retry access.request),
        { (s.remembering lastHit).setStage target denied with
          host := { s.host with retried := s.host.retried + 1 } })
  /-- The stage that faces the host takes the request. -/
  | accepted {target : ComponentId} {stage answered : Stage} {p : Packet}
      {actions : List Action} (lastHit : Nat) :
      s.rejection? access.request = none → s.fabric.hostSide? target = some .host →
      s.fabric.stage? target = some stage →
      stage.recvRequest s.now p = ⟨answered, actions, .accepted⟩ →
      Sent s access (.ok (.accepted s.nextId),
        ({ s.remembering lastHit with
          nextId := s.nextId + 1
          host := { s.host with issued := s.host.issued + 1 } }.setStage target
            answered).performActions (asked target actions))

/-- The outcomes of an access without queueing. -/
inductive Performed (s : Simulation) (access : Access) :
    Except SimError Completion × Simulation → Prop where
  | rejected {e : SimError} (lastHit : Nat) : s.rejection? access.request = some e →
      Performed s access (.error e, s.remembering lastHit)
  /-- The stage with the bytes performs the access. -/
  | performed {id : ComponentId} {range : AddressRange} {holder : Stage} {q : Packet}
      {completion : Completion} (lastHit : Nat) :
      s.rejection? access.request = none → s.fabric.stage? id = some holder →
      holder.view.frame.held? = some range →
      Grant.within range ⟨s.nextId, access, s.now⟩ = true →
      (holder.accessAtomic q).2.2.view = { holder.view with
        store := holder.view.written range (Grant.packet ⟨s.nextId, access, s.now⟩) } →
      completion.transaction = Grant.transaction ⟨s.nextId, access, s.now⟩ →
      completion.data = (holder.view.answer range (Grant.packet ⟨s.nextId, access, s.now⟩)).data →
      Performed s access (.ok completion,
        { s.remembering lastHit with nextId := s.nextId + 1 }.setStage id
          (holder.accessAtomic q).2.2)

variable {s : Simulation} {expander range : AddressRange} {id : ComponentId} {p : Packet}

theorem Offers.sent {access : Access} {outcome : Except SimError Admission × Simulation}
    (offers : s.Offers access outcome) : s.Sent access outcome := by
  cases offers with
  | rejected lastHit rejection => exact .rejected lastHit rejection
  | refused lastHit rejection faced found _ _ denies =>
    exact .refused lastHit rejection faced found denies
  | accepted lastHit rejection faced found _ reply =>
    exact .accepted lastHit rejection faced found reply

theorem bare_offered (s : Simulation) (access : Access) (target : ComponentId) :
    (s.offered access target).bare = Grant.packet ⟨s.nextId, access, s.now⟩ := by
  rw [← Grant.bare_packet]
  rfl

theorem accessAtomic_of_walk {r : HostRequest} {target : ComponentId} {n : Interconnect}
    {response : Packet} {delay : Tick} {after : Simulation} (check : s.window.check r = .ok ())
    (routed : s.fabric.interconnect.route r.addr r.size = (some target, n))
    (walked : walkAtomic s.fabric.nodes.length target (r.toPacket s.nextId s.now)
      (n.transitTime (r.toPacket s.nextId s.now).payload)
      { s with fabric := { s.fabric with interconnect := n }, nextId := s.nextId + 1 } =
        (.ok (response, delay), after)) :
    s.accessAtomic r =
      (.ok (.ofResponse response (s.now + (delay + n.transitTime response.payload))), after) := by
  simp only [accessAtomic, check, routed, walked]

def Walks (s : Simulation) (id : ComponentId) (range : AddressRange) (p : Packet)
    (walked : Except SimError (Packet × Tick) × Simulation) : Prop :=
  ∃ holder q delay, s.fabric.stage? id = some holder ∧ holder.view.frame.held? = some range ∧
    (holder.accessAtomic q).2.1.bare = holder.view.answer range p ∧
    (holder.accessAtomic q).2.2.view = { holder.view with store := holder.view.written range p } ∧
    walked = (.ok ((holder.accessAtomic q).2.1, delay), s.setStage id (holder.accessAtomic q).2.2)

private theorem walks_holder {holder : Stage} (found : s.fabric.stage? id = some holder)
    (held : holder.view.frame.held? = some range)
    (inside : range.containsAccess p.addr p.size = true) (fuel : Nat) (latency : Tick) :
    s.Walks id range p (walkAtomic (fuel + 1) id p latency s) := by
  obtain ⟨delay, ends, answer, view⟩ := Stage.accessAtomic_holder
    (p := p.arriveAt id (s.now + latency)) held inside
  refine ⟨holder, p.arriveAt id (s.now + latency), latency + delay, found, held, answer, view, ?_⟩
  simp only [walkAtomic, found, ends]
  rfl

/-- A walk into the expander passes the stages in front of the controller as they are. -/
theorem walks_expander (chained : Chained s.fabric.sites expander) {stage : Stage}
    (found : s.fabric.stage? id = some stage) (pos : 0 < id)
    (inside : expander.containsAccess p.addr p.size = true) {fuel : Nat} (le : id ≤ fuel)
    (latency : Tick) : s.Walks 1 expander p (walkAtomic fuel id p latency s) := by
  induction fuel generalizing id stage p latency with
  | zero => exact absurd le (Nat.not_le.2 pos)
  | succ fuel ih =>
    have placed := Fabric.placed_stage chained found
    cases held : stage.view.frame.held? with
    | some range =>
      obtain ⟨rfl, rfl⟩ := placed.held pos range held
      exact walks_holder found held inside fuel latency
    | none =>
      have forwards := StageFrame.forwards_of_not_held held
      obtain ⟨down, behind⟩ := Option.isSome_iff_exists.1 (placed.forwards.symm.trans forwards)
      obtain ⟨rfl, pos', -, lower, hlower⟩ := Fabric.stage_behind chained behind
      obtain ⟨delay, q, passes, bare⟩ := Stage.accessAtomic_forwards
        (p := p.arriveAt (down + 1) (s.now + latency)) forwards (placed.serves pos _ _ inside)
      have bare' : q.bare = p.bare := bare
      have inside' : expander.containsAccess q.addr q.size = true := by
        rw [← Packet.bare_addr q, ← Packet.bare_size q, bare']
        exact inside
      obtain ⟨holder, r, total, found', held', answer, view, walked⟩ :=
        ih hlower pos' inside' (Nat.le_of_succ_le_succ le) (latency + delay)
      refine ⟨holder, r, total, found', held', answer.trans (StageView.answer_congr bare'),
        view.trans (by rw [StageView.written_congr bare']), ?_⟩
      have behind' : s.fabric.memorySide? (down + 1) = some down := behind
      simp only [walkAtomic, found, passes, Fabric.setStage_same found]
      rw [behind']
      exact walked

end Simulation

theorem ResolvedConfig.memorySite_first (c : ResolvedConfig) : c.sites[0]? = some c.memorySite := by
  rcases c.sites_cases with eq | eq | ⟨bridge, -, eq⟩ <;> rw [eq] <;> rfl

namespace Session

variable {h : Session}

theorem Standing.entered {addr size : Nat} {target : ComponentId} {interconnect : Interconnect}
    (standing : h.Standing)
    (routed : h.system.fabric.interconnect.route addr size = (some target, interconnect)) :
    ∃ stage, h.system.fabric.stage? target = some stage ∧
      h.system.fabric.hostSide? target = some .host ∧
      stage.view.frame.serves addr size = true ∧
      (target = 0 ∧ stage.view.frame.held? = some h.system.config.system.memoryRange ∧
          h.system.config.system.memoryRange.containsAccess addr size = true ∨
        0 < target ∧ h.expander.containsAccess addr size = true) := by
  obtain ⟨r, mem, rfl, inside⟩ := Interconnect.route_eq_some routed
  obtain ⟨stage, found, faced, -⟩ := standing.target routed
  have placed := Fabric.placed_stage standing.chained found
  refine ⟨stage, found, faced, ?_⟩
  rcases standing.routes r mem with ⟨range, memory⟩ | ⟨range, front⟩
  · have site := standing.site found
    rw [memory, ResolvedConfig.memorySite_first] at site
    have frame : stage.view.frame = h.system.config.memorySite.frame :=
      (congrArg Site.frame (Option.some.inj site)).symm
    rw [range] at inside
    rw [frame]
    exact ⟨inside, .inl ⟨memory, rfl, inside⟩⟩
  · have pos : 0 < r.target := by
      have more := standing.chained.expander
      rw [standing.sites] at more
      rw [front, ResolvedConfig.front]
      exact Nat.sub_pos_of_lt more
    rw [range] at inside
    exact ⟨placed.serves pos _ _ inside, .inr ⟨pos, inside⟩⟩

/-- A request is turned away before any stage gets to see it, or the stage that faces the host takes
or refuses it. -/
theorem Standing.offers (standing : h.Standing) (access : Access) :
    h.system.Offers access (h.system.sendRequest access.request) := by
  rw [Simulation.sendRequest]
  cases check : h.system.window.check access.request with
  | error e =>
    refine .rejected h.system.fabric.interconnect.lastHit ?_
    rw [Simulation.rejection?, check]
  | ok =>
    cases routed : h.system.fabric.interconnect.route access.request.addr access.request.size with
    | mk target interconnect =>
      have remembers := Interconnect.eq_of_route routed
      have rejection := Simulation.rejection?_of_routed check routed
      cases target with
      | none =>
        rw [remembers]
        exact .rejected interconnect.lastHit rejection
      | some target =>
        obtain ⟨stage, found, faced, serves, place⟩ := standing.entered routed
        have leads : h.system.LeadsTo access target :=
          place.imp (fun memory => ⟨memory.1, memory.2.2⟩) id
        have found' : Fabric.stage? { h.system.fabric with interconnect } target = some stage :=
          found
        simp only [found']
        -- The time on the interconnect does not depend on the route that is remembered.
        have packet : { access.request.toPacket h.system.nextId h.system.now with
            headerDelay := interconnect.transitTime
              (access.request.toPacket h.system.nextId h.system.now).payload }.arriveAt target
                h.system.now = h.system.offered access target := by
          rw [remembers]
          rfl
        rw [packet]
        have bare := h.system.bare_offered access target
        have request : HostRequest.ofPacket (h.system.offered access target) = access.request := by
          have same : HostRequest.ofPacket (h.system.offered access target) =
            .ofPacket (h.system.offered access target).bare := rfl
          rw [same, bare]
          cases access <;> rfl
        have sound := standing.attended.sound target stage found
        cases answer : (stage.recvRequest h.system.now (h.system.offered access target)).answer with
        | accepted =>
          have reply : stage.recvRequest h.system.now (h.system.offered access target) =
            ⟨_, _, .accepted⟩ := congrArg (Reply.mk _ _) answer
          simp only [Simulation.settle_eq]
          rw [remembers]
          exact .accepted interconnect.lastHit rejection faced found leads reply
        | busy back =>
          obtain ⟨denied, denies, reply⟩ := Stage.denies_recvRequest sound answer
          have same : back = h.system.offered access target := by
            rw [reply] at answer
            cases answer
            rfl
          simp only [reply, Simulation.settle_eq, same, request]
          rw [remembers]
          exact .refused interconnect.lastHit rejection faced found leads reply denies
        | unroutable back =>
          obtain ⟨unserved, -⟩ := Stage.unroutable_recvRequest sound answer
          have addr : (h.system.offered access target).addr = access.request.addr :=
            (congrArg Packet.addr bare).trans (Grant.addr_packet _)
          have size : (h.system.offered access target).size = access.request.size :=
            (congrArg Packet.size bare).trans (Grant.size_packet _)
          rw [addr, size, serves] at unserved
          cases unserved

theorem Standing.sent (standing : h.Standing) (access : Access) :
    h.system.Sent access (h.system.sendRequest access.request) :=
  (standing.offers access).sent

/-- An access without queueing is turned away, or the stage with its bytes performs it. -/
theorem Standing.performed (standing : h.Standing) (access : Access) :
    h.system.Performed access (h.system.accessAtomic access.request) := by
  cases check : h.system.window.check access.request with
  | error e =>
    rw [Simulation.accessAtomic, check]
    refine .rejected h.system.fabric.interconnect.lastHit ?_
    rw [Simulation.rejection?, check]
  | ok =>
    cases routed : h.system.fabric.interconnect.route access.request.addr access.request.size with
    | mk target interconnect =>
      obtain ⟨lastHit, rfl⟩ : ∃ lastHit, interconnect =
          { h.system.fabric.interconnect with lastHit } := ⟨_, Interconnect.eq_of_route routed⟩
      have rejection := Simulation.rejection?_of_routed check routed
      cases target with
      | none =>
        simp only [Simulation.accessAtomic, check, routed]
        exact .rejected lastHit rejection
      | some target =>
        obtain ⟨stage, found, -, -, place⟩ := standing.entered routed
        -- The number and the remembered route are of no account to the walk.
        let start : Simulation :=
          { h.system.remembering lastHit with nextId := h.system.nextId + 1 }
        let grant : Grant := ⟨h.system.nextId, access, h.system.now⟩
        have stands : start.fabric.stage? target = some stage := found
        obtain ⟨id, range, inside, walks⟩ : ∃ id range, grant.within range = true ∧
            start.Walks id range grant.packet
              (Simulation.walkAtomic h.system.fabric.nodes.length target grant.packet
                (start.fabric.interconnect.transitTime grant.packet.payload) start) := by
          have lt : target < h.system.fabric.nodes.length := by
            obtain ⟨node, at_target, -⟩ := Fabric.stage?_eq_some.1 found
            exact (List.getElem?_eq_some_iff.1 at_target).1
          rcases place with ⟨rfl, held, inside⟩ | ⟨pos, inside⟩
          · obtain ⟨fuel, length⟩ := Nat.exists_eq_add_of_lt lt
            rw [length, Nat.zero_add]
            refine ⟨0, _, inside, Simulation.walks_holder stands held ?_ fuel _⟩
            rw [grant.addr_packet, grant.size_packet]
            exact inside
          · refine ⟨1, _, inside, Simulation.walks_expander (s := start) standing.chained stands
              pos ?_ (Nat.le_of_lt lt) _⟩
            rw [grant.addr_packet, grant.size_packet]
            exact inside
        obtain ⟨holder, q, delay, found', held, answer, view, walked⟩ := walks
        rw [Simulation.accessAtomic_of_walk check routed walked]
        refine .performed lastHit rejection found' held inside view ?_ ?_
        · rw [Completion.transaction_ofResponse, ← Packet.bare_transaction, answer,
            StageView.answer, Packet.transaction_respond, Packet.bare_transaction]
          exact grant.transaction_packet
        · exact (congrArg Packet.data answer : (holder.accessAtomic q).2.1.bare.data = _)

end Session

end Expander
