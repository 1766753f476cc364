import Expander.Proofs.Opening

/-!
No wake-up is lost inside the fabric.

Between the calls of a host, whatever can be sent has its event pending, at the tick from which it
can be sent; whatever waits for a retry waits for a full buffer that owes one.
-/

set_option autoImplicit false

namespace Expander

namespace Simulation

/-- The event of a component is pending. -/
def Scheduled (s : Simulation) (id : ComponentId) (kind : EventKind) (tick : Tick) : Prop :=
  ⟨tick, id, kind⟩ ∈ s.events.events

/-- Unless the queue waits for a retry, the event that sends its head is pending, at the tick from
which the head may leave or now. -/
def HeadScheduled (s : Simulation) (id : ComponentId) (kind : EventKind) (q : PacketQueue)
    (awaiting : Bool) : Prop :=
  awaiting = false → ∀ head rest, q.entries = head :: rest →
    s.Scheduled id kind (max head.ready s.now)

/-- The events that the stages need are pending, and the retries that they wait for are owed. -/
structure Wakeful (s : Simulation) : Prop where
  bridge : ∀ id b, s.fabric.stage? id = some (.bridge b) →
    s.HeadScheduled id .sendRequest b.requests b.awaitingRequestRetry ∧
    s.HeadScheduled id .sendResponse b.responses b.awaitingResponseRetry
  device : ∀ id d, s.fabric.stage? id = some (.device d) →
    s.HeadScheduled id .sendRequest d.requests d.awaitingRequestRetry ∧
    s.HeadScheduled id .sendResponse d.responses d.awaitingResponseRetry
  memory : ∀ id m, s.fabric.stage? id = some (.memory m) →
    s.HeadScheduled id .sendResponse m.responses m.awaitingRetry
  /-- The controller has planned a round while bursts are queued. -/
  round : ∀ id c, s.fabric.stage? id = some (.controller c) →
    c.readQueue ≠ [] ∨ c.writeQueue ≠ [] →
    ∃ tick, c.nextRound = some tick ∧ s.now ≤ tick ∧ s.Scheduled id .process tick
  idle : s.events.events = [] → ∀ id c, s.fabric.stage? id = some (.controller c) →
    c.readQueue = [] ∧ c.writeQueue = []
  /-- The controller sends the response that is ready first. -/
  response : ∀ id c, s.fabric.stage? id = some (.controller c) →
    c.awaitingResponseRetry = false →
    ∀ earliest, (c.responses.toList.map (·.ready)).min? = some earliest →
      s.Scheduled id .sendResponse (max earliest s.now)
  /-- A bridge waits for a device whose buffer is full. -/
  requestRetry : ∀ id b, s.fabric.stage? id = some (.bridge b) → b.awaitingRequestRetry = true →
    ∃ down d, s.fabric.memorySide? id = some down ∧ s.fabric.stage? down = some (.device d) ∧
      d.requests.isFull = true ∧ d.requestRetryOwed = true
  /-- The controller waits for a device whose buffer is full. -/
  responseRetry : ∀ id c, s.fabric.stage? id = some (.controller c) →
    c.awaitingResponseRetry = true →
    ∃ up d, s.fabric.hostSide? id = some (.component up) ∧
      s.fabric.stage? up = some (.device d) ∧
      d.responses.isFull = true ∧ d.responseRetryOwed = true

variable {s : Simulation} {unanswered : Bool} {id : ComponentId} {stage : Stage} {w : Wakeup}

theorem scheduled_of_due (h : s.Due [] id w) : s.Scheduled id w.kind w.tick :=
  h.resolve_right fun ⟨_, mem, _⟩ => nomatch mem

theorem headScheduled_of_roused {kind : EventKind} {awaiting : Bool} {q : PacketQueue}
    (h : Roused s.now (s.Due [] id) kind awaiting q.headReady) :
    s.HeadScheduled id kind q awaiting := by
  intro free head rest entries
  refine scheduled_of_due (h free head.ready ?_)
  rw [PacketQueue.headReady, entries]
  rfl

theorem Attended.round {c : Controller Media} (h : s.Attended unanswered [])
    (found : s.fabric.stage? id = some (.controller c))
    (queued : c.readQueue ≠ [] ∨ c.writeQueue ≠ []) :
    ∃ tick, c.nextRound = some tick ∧ s.now ≤ tick ∧ s.Scheduled id .process tick := by
  have armed : c.Armed s.now (s.Due [] id) := h.armed id _ found
  obtain ⟨tick, planned⟩ := Option.ne_none_iff_exists'.1 (armed.planned queued)
  obtain ⟨le, due⟩ := armed.round tick planned
  exact ⟨tick, planned, le, scheduled_of_due due⟩

theorem Attended.response {c : Controller Media} (h : s.Attended unanswered [])
    (found : s.fabric.stage? id = some (.controller c)) (free : c.awaitingResponseRetry = false)
    {earliest : Tick} (min : (c.responses.toList.map (·.ready)).min? = some earliest) :
    s.Scheduled id .sendResponse (max earliest s.now) := by
  have armed : c.Armed s.now (s.Due [] id) := h.armed id _ found
  obtain ⟨r, mem, rfl⟩ := List.mem_map.1 (List.min?_mem min)
  -- The response that is ready first has a wake-up of its own, or is ready now.
  rcases Nat.lt_or_ge s.now r.ready with unready | ready
  · rw [Nat.max_eq_left (Nat.le_of_lt unready)]
    exact scheduled_of_due (armed.responses.unready r mem unready)
  · rw [Nat.max_eq_right ready]
    exact scheduled_of_due (armed.responses.ready free r mem ready)

end Simulation

namespace Session

variable {h : Session} {machine : Machine} {config : Config} {s : Simulation}
  {id down up : ComponentId}

theorem Standing.site {stage : Stage} (standing : h.Standing)
    (found : h.system.fabric.stage? id = some stage) :
    h.system.config.sites[id]? = some ⟨stage.view.frame, h.system.fabric.hostSide? id,
      h.system.fabric.memorySide? id⟩ := by
  obtain ⟨node, at_id, rfl⟩ := Fabric.stage?_eq_some.1 found
  rw [← standing.sites, Fabric.site_eq_some]
  refine ⟨node, at_id, ?_⟩
  simp [Node.site, Fabric.hostSide?, Fabric.memorySide?, at_id]

theorem Standing.device_at {peer : Peer} (standing : h.Standing)
    (site : h.system.config.sites[id]? = some (h.system.config.deviceSite peer)) :
    ∃ d, h.system.fabric.stage? id = some (.device d) := by
  obtain ⟨stage, found⟩ := Fabric.exists_stage (standing.sites ▸ site)
  have frame : stage.view.frame = (h.system.config.deviceSite peer).frame :=
    congrArg Site.frame (Option.some.inj ((standing.site found).symm.trans site))
  cases stage with
  | device d => exact ⟨d, found⟩
  | bridge b => cases frame
  | controller c => cases frame
  | memory m => cases frame

theorem Standing.device_behind {b : Bridge} (standing : h.Standing)
    (found : h.system.fabric.stage? id = some (.bridge b)) :
    ∃ down d, h.system.fabric.memorySide? id = some down ∧
      h.system.fabric.stage? down = some (.device d) := by
  obtain ⟨links, peer, site⟩ := ResolvedConfig.site_behind_bridge (standing.site found) rfl
  obtain ⟨d, device⟩ := standing.device_at site
  exact ⟨2, d, links, device⟩

theorem Standing.device_before {c : Controller Media} (standing : h.Standing)
    (found : h.system.fabric.stage? id = some (.controller c)) :
    h.system.fabric.hostSide? id = some .host ∨
    ∃ up d, h.system.fabric.hostSide? id = some (.component up) ∧
      h.system.fabric.stage? up = some (.device d) := by
  rcases ResolvedConfig.site_before_controller (standing.site found) rfl with
    ⟨-, host, -⟩ | ⟨links, peer, site⟩
  · exact .inl host
  · obtain ⟨d, device⟩ := standing.device_at site
    exact .inr ⟨2, d, links, device⟩

/-- A standing session has lost no wake-up. -/
theorem Standing.wakeful (standing : h.Standing) : h.system.Wakeful where
  bridge id b found := by
    have armed : b.Armed h.system.now (h.system.Due [] id) := standing.attended.armed id _ found
    exact ⟨Simulation.headScheduled_of_roused armed.requests,
      Simulation.headScheduled_of_roused armed.responses⟩
  device id d found := by
    have armed : d.Armed h.system.now (h.system.Due [] id) := standing.attended.armed id _ found
    exact ⟨Simulation.headScheduled_of_roused armed.requests,
      Simulation.headScheduled_of_roused armed.responses⟩
  memory id m found := by
    have armed : m.Armed h.system.now (h.system.Due [] id) := standing.attended.armed id _ found
    exact Simulation.headScheduled_of_roused armed.responses
  round id c found queued := standing.attended.round found queued
  idle empty id c found := by
    by_contra busy
    have queued : c.readQueue ≠ [] ∨ c.writeQueue ≠ [] := by tauto
    obtain ⟨tick, -, -, scheduled⟩ := standing.attended.round found queued
    rw [Simulation.Scheduled, empty] at scheduled
    cases scheduled
  response id c found free earliest min := standing.attended.response found free min
  requestRetry id b found awaits := by
    obtain ⟨down, d, links, device⟩ := standing.device_behind found
    have owed : d.requestRetryOwed = true :=
      (standing.attended.requests id down _ _ links found device awaits).resolve_right nofun
    have sound : d.Sound := standing.attended.sound down _ device
    exact ⟨down, d, links, device, sound.requestOwed owed, owed⟩
  responseRetry id c found awaits := by
    rcases standing.device_before found with host | ⟨up, d, links, device⟩
    · have free : c.awaitingResponseRetry = false := standing.attended.host id _ host found
      exact absurd (free.symm.trans awaits) nofun
    · obtain ⟨-, -, behind, -⟩ := Fabric.stage_before standing.chained links
      have owed : d.responseRetryOwed = true :=
        (standing.attended.responses up id _ _ behind device found awaits).resolve_right nofun
      have sound : d.Sound := standing.attended.sound up _ device
      exact ⟨up, d, links, device, sound.responseOwed owed, owed⟩

/-- No call of the host loses a wake-up. -/
theorem wakeful_run (created : Simulation.create machine config = .ok s) (calls : List HostCall) :
    ((start s).run calls).system.Wakeful :=
  (standing_run created calls).wakeful

/-- A read of the expander waits in the bridge, with its event pending. -/
theorem wakeful_read : ∃ s, Simulation.create .standard {} = .ok s ∧
    ((start s).run [.send (.read 0x100000000 64), .runUntil 60000]).system.Wakeful ∧
    ((start s).run [.send (.read 0x100000000 64), .runUntil 60000]).system.Scheduled 3 .sendRequest
      67000 :=
  ⟨_, rfl, wakeful_run (show Simulation.create .standard {} = _ from rfl) _,
    List.mem_singleton.2 rfl⟩

end Session

end Expander
