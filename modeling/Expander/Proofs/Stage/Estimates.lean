import Expander.Proofs.Layout
import Expander.Proofs.Session
import Expander.Proofs.Stage.Waits

/-!
How soon a packet can be back at the host.

From every place on its way a packet still has fixed latencies to pay before its completion reaches
the host. The estimate of a packet is the tick at which it may leave its place and these latencies
together; nothing that a stage does brings an estimate forward.
-/

set_option autoImplicit false

namespace Expander

/-- A transaction, and a tick before which its completion does not reach the host. -/
structure Estimate where
  transaction : Transaction
  tick : Tick

def Estimate.NoSooner (before after : List Estimate) : Prop :=
  ∀ e ∈ after, ∃ e₀ ∈ before, e₀.transaction = e.transaction ∧ e₀.tick ≤ e.tick

namespace ResolvedConfig

def transit (c : ResolvedConfig) (bytes : Nat) : Tick :=
  c.system.busLatency + ceilDiv (max bytes 1) (max c.system.busWidth 1) * c.system.busClock

def bridge? (c : ResolvedConfig) : Option BridgeConfig :=
  if c.topology = .controller then none else c.bridge

def bridgeLatency (c : ResolvedConfig) : Tick :=
  match c.bridge? with
  | none => 0
  | some bridge => bridge.latency + bridge.protocolLatency

def deviceLatency (c : ResolvedConfig) : Tick :=
  if c.topology = .controller then 0 else c.device.protocolLatency

def bridgeToll (c : ResolvedConfig) (addr : Nat) : Tick :=
  match c.bridge? with
  | none => 0
  | some bridge =>
    bridge.latency + if c.device.range.contains addr then bridge.protocolLatency else 0

def expanderLatency (c : ResolvedConfig) (g : Grant) : Tick :=
  c.transit g.packet.payload + 2 * c.bridgeLatency + 2 * c.deviceLatency +
    c.controller.frontendLatency + c.transit (g.packet.respond []).payload

def memoryAccessLatency (c : ResolvedConfig) (g : Grant) : Tick :=
  c.transit g.packet.payload + c.system.memoryLatency + c.transit (g.packet.respond []).payload

def leastLatency (c : ResolvedConfig) (g : Grant) : Tick :=
  if c.device.range.contains g.access.request.addr then c.expanderLatency g
  else c.memoryAccessLatency g

def mediaLatency (c : ResolvedConfig) : Tick :=
  c.controller.backendLatency + c.media.timing.least

def latencyOf (c : ResolvedConfig) (p : Packet) : ComponentId → Tick
  | 0 => c.system.memoryLatency
  | 1 => c.controller.frontendLatency
  | 2 => c.deviceLatency
  | _ + 3 => c.bridgeToll p.addr

def homeward (c : ResolvedConfig) (p : Packet) : ComponentId → Tick
  | 1 => c.deviceLatency + (c.bridgeToll p.addr + c.transit p.payload)
  | 2 => c.bridgeToll p.addr + c.transit p.payload
  | 0 | _ + 3 => c.transit p.payload

def answered (c : ResolvedConfig) (p : Packet) : Tick :=
  c.controller.frontendLatency + c.homeward (p.respond []) 1

def onward (c : ResolvedConfig) (p : Packet) : ComponentId → Tick
  | 0 => c.homeward (p.respond []) 0
  | 1 => c.homeward (p.respond []) 1
  | 2 => c.answered p
  | _ + 3 => c.deviceLatency + c.answered p

variable {c : ResolvedConfig} {p q : Packet} {id : ComponentId}

theorem bridgeToll_of_contains {addr : Nat} (inside : c.device.range.contains addr = true) :
    c.bridgeToll addr = c.bridgeLatency := by
  rw [bridgeToll, bridgeLatency]
  cases c.bridge? with
  | none => rfl
  | some bridge => simp only [inside, if_true]

theorem latencyOf_bare (c : ResolvedConfig) (p : Packet) (id : ComponentId) :
    c.latencyOf p.bare id = c.latencyOf p id := by
  rcases id with _ | _ | _ | id <;> rfl

theorem homeward_bare (c : ResolvedConfig) (p : Packet) (id : ComponentId) :
    c.homeward p.bare id = c.homeward p id := by
  rcases id with _ | _ | _ | id <;> rfl

theorem onward_bare (c : ResolvedConfig) (p : Packet) (id : ComponentId) :
    c.onward p.bare id = c.onward p id := by
  rcases id with _ | _ | _ | id <;> rfl

theorem homeward_respond (c : ResolvedConfig) (p : Packet) (data : List UInt8)
    (id : ComponentId) : c.homeward (p.respond data) id = c.homeward (p.respond []) id := by
  rcases id with _ | _ | _ | id <;> rfl

theorem latencyOf_respond (c : ResolvedConfig) (p : Packet) (data : List UInt8)
    (id : ComponentId) : c.latencyOf (p.respond data) id = c.latencyOf p id := by
  rcases id with _ | _ | _ | id <;> rfl

theorem onward_succ (c : ResolvedConfig) (p : Packet) {down : ComponentId} (pos : 0 < down)
    (le : down ≤ 2) : c.onward p (down + 1) = c.latencyOf p down + c.onward p down := by
  rcases down with _ | _ | _ | down
  · cases pos
  · rfl
  · rfl
  · exact absurd (Nat.le_of_succ_le_succ (Nat.le_of_succ_le_succ le)) (Nat.not_succ_le_zero _)

theorem homeward_succ (c : ResolvedConfig) (p : Packet) {id : ComponentId} (pos : 0 < id)
    (le : id ≤ 2) : c.homeward p id = c.latencyOf p (id + 1) + c.homeward p (id + 1) := by
  rcases id with _ | _ | _ | id
  · cases pos
  · rfl
  · rfl
  · exact absurd (Nat.le_of_succ_le_succ (Nat.le_of_succ_le_succ le)) (Nat.not_succ_le_zero _)

theorem front_cases (front : id + 1 = c.sites.length) :
    (id = 1 ∧ c.deviceLatency = 0 ∧ ∀ addr, c.bridgeToll addr = 0) ∨
    (id = 2 ∧ ∀ addr, c.bridgeToll addr = 0) ∨ id = 3 := by
  rw [sites] at front
  simp only [deviceLatency, bridgeToll, bridge?]
  cases topology : c.topology <;> cases bridge : c.bridge <;>
    simp only [topology, bridge, List.length_cons, List.length_nil, reduceCtorEq, if_true,
      if_false, Nat.add_right_cancel_iff, implies_true, and_true] at front ⊢ <;> subst front <;>
    simp

theorem homeward_of_bare_respond {data : List UInt8} (same : q.bare = p.bare.respond data)
    (ending : id < 2) : q.transaction = p.transaction ∧ c.latencyOf q id = c.latencyOf p id ∧
      c.homeward q id = c.onward p id := by
  refine ⟨?_, ?_, ?_⟩
  · rw [← Packet.bare_transaction q, same, Packet.transaction_respond, Packet.bare_transaction]
  · rw [← c.latencyOf_bare q, same, c.latencyOf_respond, c.latencyOf_bare]
  · rw [← c.homeward_bare q, same, c.homeward_respond, ← c.onward_bare p]
    rcases id with _ | _ | id
    · rfl
    · rfl
    · exact absurd (Nat.lt_of_succ_lt_succ (Nat.lt_of_succ_lt_succ ending)) (Nat.not_lt_zero _)

theorem homeward_front (c : ResolvedConfig) (p : Packet)
    (front : id = 0 ∨ id + 1 = c.sites.length) : c.homeward p id = c.transit p.payload := by
  rcases front with rfl | front
  · rfl
  · rcases front_cases front with ⟨rfl, device, bridge⟩ | ⟨rfl, bridge⟩ | rfl
    · rw [homeward, device, bridge, Nat.zero_add, Nat.zero_add]
    · rw [homeward, bridge, Nat.zero_add]
    · rfl

theorem onward_front (c : ResolvedConfig) (p : Packet) (front : id + 1 = c.sites.length) :
    c.latencyOf p id + c.onward p id = 2 * c.bridgeToll p.addr + 2 * c.deviceLatency +
      c.controller.frontendLatency + c.transit (p.respond []).payload := by
  have addr : (p.respond []).addr = p.addr := rfl
  rcases front_cases front with ⟨rfl, device, bridge⟩ | ⟨rfl, bridge⟩ | rfl
  · simp only [latencyOf, onward, homeward, device, bridge]
    grind
  · simp only [latencyOf, onward, answered, homeward, bridge]
    grind
  · simp only [latencyOf, onward, answered, homeward, addr]
    grind

end ResolvedConfig

theorem Packet.transaction_congr {p q : Packet} (same : p.bare = q.bare) :
    p.transaction = q.transaction := by
  rw [← bare_transaction p, same, bare_transaction]

namespace Stage

variable {c : ResolvedConfig} {wait now later : Tick} {id : ComponentId} {s s' : Stage}
  {p : Packet} {e : Estimate} {w : Waiting}

def outboundEstimate (c : ResolvedConfig) (id : ComponentId) (w : Waiting) : Estimate :=
  ⟨w.packet.transaction, w.ready + c.onward w.packet id⟩

def parkedEstimate (c : ResolvedConfig) (wait now : Tick) (id : ComponentId) (r : PendingRead) :
    Estimate :=
  ⟨r.packet.transaction,
    now + wait + r.headerDelay + c.latencyOf r.packet id + c.homeward r.packet id⟩

def homeboundEstimate (c : ResolvedConfig) (id : ComponentId) (w : Waiting) : Estimate :=
  ⟨w.packet.transaction, w.ready + c.homeward w.packet id⟩

def estimates (c : ResolvedConfig) (wait now : Tick) (id : ComponentId) (s : Stage) :
    List Estimate :=
  s.outbound.map (outboundEstimate c id) ++
    (s.parked.map (parkedEstimate c wait now id) ++ s.homebound.map (homeboundEstimate c id))

theorem mem_estimates : e ∈ s.estimates c wait now id ↔
    (∃ w ∈ s.outbound, outboundEstimate c id w = e) ∨
      (∃ r ∈ s.parked, parkedEstimate c wait now id r = e) ∨
      ∃ w ∈ s.homebound, homeboundEstimate c id w = e := by
  simp only [estimates, List.mem_append, List.mem_map]

theorem SameHold.estimates (same : s.SameHold s') :
    s'.estimates c wait now id = s.estimates c wait now id := by
  simp only [Stage.estimates, same.outbound, same.parked, same.homebound]

theorem noSooner_later (le : now ≤ later) :
    Estimate.NoSooner (s.estimates c wait now id) (s.estimates c wait later id) := by
  intro e mem
  rcases mem_estimates.1 mem with out | ⟨r, parked, rfl⟩ | home
  · exact ⟨e, mem_estimates.2 (.inl out), rfl, Nat.le_refl _⟩
  · refine ⟨_, mem_estimates.2 (.inr (.inl ⟨r, parked, rfl⟩)), rfl, ?_⟩
    simp only [parkedEstimate]
    grind
  · exact ⟨e, mem_estimates.2 (.inr (.inr home)), rfl, Nat.le_refl _⟩

/-- A request that a stage has taken pays there, and from there on. -/
theorem Takes.estimates (takes : s.Takes now p s') (latency : s.latency p = c.latencyOf p id)
    (forwards : s.forwardsRequests = decide (2 ≤ id))
    (mem : e ∈ s'.estimates c wait now id) : e ∈ s.estimates c wait now id ∨
      e.transaction = p.transaction ∧
        now + p.headerDelay + c.latencyOf p id + c.onward p id ≤ e.tick := by
  have place (ending : s.forwardsRequests = false) : id < 2 := by
    rw [forwards, decide_eq_false_iff_not] at ending
    exact Nat.lt_of_not_le ending
  rw [mem_estimates] at mem ⊢
  cases takes with
  | queues w forwarding bare charged ready channels outbound parked homebound =>
    rw [outbound, parked, homebound] at mem
    rcases mem with ⟨w', mem, rfl⟩ | rest
    · rcases List.mem_append.1 mem with old | new
      · exact .inl (.inl ⟨w', old, rfl⟩)
      · cases List.mem_singleton.1 new
        refine .inr ⟨Packet.transaction_congr bare, ?_⟩
        rw [outboundEstimate, ready, latency, ← c.onward_bare w.packet, bare, c.onward_bare]
    · exact .inl (.inr rest)
  | parks r data ending bare charged delay channels outbound filed parked homebound =>
    rw [outbound, homebound] at mem
    rcases mem with out | ⟨r', mem, rfl⟩ | home
    · exact .inl (.inl out)
    · rcases parked r' mem with rfl | old
      · obtain ⟨same, paid, home⟩ := c.homeward_of_bare_respond bare (place ending)
        refine .inr ⟨same, ?_⟩
        rw [parkedEstimate, delay, paid, home]
        grind
      · exact .inl (.inr (.inl ⟨r', old, rfl⟩))
    · exact .inl (.inr (.inr home))
  | answers w data ending bare charged ready channels outbound parked homebound =>
    rw [outbound, parked] at mem
    rcases mem with out | reads | ⟨w', mem, rfl⟩
    · exact .inl (.inl out)
    · exact .inl (.inr (.inl reads))
    · rcases List.mem_cons.1 (homebound.mem_iff.1 mem) with rfl | old
      · obtain ⟨same, -, home⟩ := c.homeward_of_bare_respond bare (place ending)
        refine .inr ⟨same, ?_⟩
        rw [homeboundEstimate, ready, latency, home]
      · exact .inl (.inr (.inr ⟨w', old, rfl⟩))

theorem TakesBack.estimates (takes : s.TakesBack now p s' w)
    (latency : s.latency p = c.latencyOf p id) (mem : e ∈ s'.estimates c wait now id) :
    e ∈ s.estimates c wait now id ∨ e.transaction = p.transaction ∧
      now + p.headerDelay + c.latencyOf p id + c.homeward p id ≤ e.tick := by
  rw [mem_estimates, takes.outbound, takes.parked, takes.homebound] at mem
  rw [mem_estimates]
  rcases mem with out | reads | ⟨w', mem, rfl⟩
  · exact .inl (.inl out)
  · exact .inl (.inr (.inl reads))
  · rcases List.mem_append.1 mem with old | new
    · exact .inl (.inr (.inr ⟨w', old, rfl⟩))
    · cases List.mem_singleton.1 new
      refine .inr ⟨Packet.transaction_congr takes.packet, ?_⟩
      rw [homeboundEstimate, takes.ready, latency, ← c.homeward_bare w.packet, takes.packet,
        c.homeward_bare]

theorem estimates_takeRequest (c : ResolvedConfig) (wait : Tick) (id : ComponentId)
    (took : s.takeRequest now = some (p, s')) :
    (∃ e₀ ∈ s.estimates c wait now id, e₀.transaction = p.transaction ∧
      e₀.tick ≤ now + c.onward p id) ∧
    s'.estimates c wait now id ⊆ s.estimates c wait now id ∧
    Estimate.NoSooner (s.estimates c wait now id)
      ((s'.requestRefused now p).estimates c wait now id) := by
  obtain ⟨ready, le, outbound, -, parked, homebound⟩ := hold_takeRequest took
  obtain ⟨outbound', -, parked', homebound'⟩ := hold_requestRefused took
  have left : outboundEstimate c id ⟨p, ready⟩ ∈ s.estimates c wait now id :=
    mem_estimates.2 (.inl ⟨_, outbound ▸ List.mem_cons_self, rfl⟩)
  have soon : ready + c.onward p id ≤ now + c.onward p id := Nat.add_le_add_right le _
  have stays : s'.estimates c wait now id ⊆ s.estimates c wait now id := by
    intro e mem
    rw [mem_estimates, parked, homebound] at mem
    rw [mem_estimates, outbound]
    rcases mem with ⟨w, mem, eq⟩ | rest
    · exact .inl ⟨w, List.mem_cons_of_mem _ mem, eq⟩
    · exact .inr rest
  refine ⟨⟨_, left, rfl, soon⟩, stays, fun e mem => ?_⟩
  rw [mem_estimates, outbound', parked', homebound'] at mem
  rcases mem with ⟨w, mem, rfl⟩ | rest
  · rcases List.mem_cons.1 mem with rfl | old
    · exact ⟨_, left, rfl, soon⟩
    · exact ⟨_, stays (mem_estimates.2 (.inl ⟨w, old, rfl⟩)), rfl, Nat.le_refl _⟩
  · exact ⟨e, stays (mem_estimates.2 (.inr rest)), rfl, Nat.le_refl _⟩

theorem estimates_takeResponse (c : ResolvedConfig) (wait : Tick) (id : ComponentId)
    (took : s.takeResponse now = some (p, s')) :
    (∃ e₀ ∈ s.estimates c wait now id, e₀.transaction = p.transaction ∧
      e₀.tick ≤ now + c.homeward p id) ∧
    s'.estimates c wait now id ⊆ s.estimates c wait now id ∧
    Estimate.NoSooner (s.estimates c wait now id)
      ((s'.responseRefused now p).estimates c wait now id) := by
  obtain ⟨ready, le, homebound, -, outbound, parked, place, late, homebound', -, outbound',
    parked'⟩ := hold_takeResponse took
  have left : homeboundEstimate c id ⟨p, ready⟩ ∈ s.estimates c wait now id :=
    mem_estimates.2 (.inr (.inr ⟨_, homebound.mem_iff.2 List.mem_cons_self, rfl⟩))
  have stays (w : Waiting) (mem : w ∈ s'.homebound) : w ∈ s.homebound :=
    homebound.mem_iff.2 (List.mem_cons_of_mem _ mem)
  refine ⟨⟨_, left, rfl, Nat.add_le_add_right le _⟩, fun e mem => ?_, fun e mem => ?_⟩
  · rw [mem_estimates, outbound, parked] at mem
    rw [mem_estimates]
    rcases mem with out | reads | ⟨w, mem, eq⟩
    · exact .inl out
    · exact .inr (.inl reads)
    · exact .inr (.inr ⟨w, stays w mem, eq⟩)
  · rw [mem_estimates, outbound', parked'] at mem
    rcases mem with out | reads | ⟨w, mem, rfl⟩
    · exact ⟨e, mem_estimates.2 (.inl out), rfl, Nat.le_refl _⟩
    · exact ⟨e, mem_estimates.2 (.inr (.inl reads)), rfl, Nat.le_refl _⟩
    · rcases List.mem_cons.1 (homebound'.mem_iff.1 mem) with rfl | old
      · exact ⟨_, left, rfl, Nat.add_le_add_right late _⟩
      · exact ⟨_, mem_estimates.2 (.inr (.inr ⟨w, stays w old, rfl⟩)), rfl, Nat.le_refl _⟩

theorem Works.estimates {timing : MediaTiming} (works : s.Works timing now s')
    (le : s.parked ≠ [] → wait ≤ timing.least + s.backend)
    (latency : ∀ p, s.latency p = c.latencyOf p id) :
    Estimate.NoSooner (s.estimates c wait now id) (s'.estimates c wait now id) := by
  intro e mem
  rw [mem_estimates, works.outbound] at mem
  rcases mem with out | ⟨r', mem, rfl⟩ | ⟨w, mem, rfl⟩
  · exact ⟨e, mem_estimates.2 (.inl out), rfl, Nat.le_refl _⟩
  · obtain ⟨r, mem, packet, delay⟩ := works.parked r' mem
    refine ⟨_, mem_estimates.2 (.inr (.inl ⟨r, mem, rfl⟩)), ?_, ?_⟩
    · simp only [parkedEstimate, packet]
    · simp only [parkedEstimate, packet, delay, Nat.le_refl]
  · rcases works.homebound w mem with old | ⟨r, mem, done, late, packet, ready⟩
    · exact ⟨_, mem_estimates.2 (.inr (.inr ⟨w, old, rfl⟩)), rfl, Nat.le_refl _⟩
    · refine ⟨_, mem_estimates.2 (.inr (.inl ⟨r, mem, rfl⟩)), ?_, ?_⟩
      · simp only [parkedEstimate, homeboundEstimate, packet]
      · have least := le (List.ne_nil_of_mem mem)
        simp only [parkedEstimate, homeboundEstimate, packet, ready, latency]
        grind

theorem transactions_estimates (c : ResolvedConfig) (wait now : Tick) (id : ComponentId)
    (s : Stage) : ((s.estimates c wait now id).map fun e => e.transaction : Multiset Transaction) =
      s.view.calm.packets.map Packet.transaction := by
  cases s <;>
    simp [estimates, outbound, parked, homebound, outboundEstimate, parkedEstimate,
      homeboundEstimate, view, Bridge.view, Device.view, Controller.view, SystemMemory.view,
      StageView.calm, StageView.packets, PacketQueue.packets, Controller.answers,
      Function.comp_def]

end Stage

end Expander
