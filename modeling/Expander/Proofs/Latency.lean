import Expander.Proofs.Estimates

/-!
No traffic undercuts the fixed latencies.

An access starts with the sum of all fixed latencies on its way, and no step of a session brings an
estimate forward, whatever else is under way (`Standing.noSooner_step`); so its completion has paid
at least these (`Floored`). A read that has to wait for the media pays for them besides.
-/

set_option autoImplicit false

namespace Expander

def Completion.estimate (c : Completion) : Estimate := ⟨c.transaction, c.completed⟩

namespace Simulation

variable {s : Simulation} {wait later : Tick} {e : Estimate} {target : ComponentId}
  {access : Access}

def estimates (wait : Tick) (s : Simulation) : List Estimate :=
  s.fabric.nodes.zipIdx.flatMap fun n => n.1.stage.estimates s.config wait s.now n.2

theorem mem_estimates : e ∈ s.estimates wait ↔ s.Expects wait e := by
  simp only [estimates, List.mem_flatMap, Prod.exists, List.mem_zipIdx_iff_getElem?]
  constructor
  · rintro ⟨node, id, found, mem⟩
    exact ⟨id, _, Fabric.stage?_eq_some.2 ⟨node, found, rfl⟩, mem⟩
  · rintro ⟨id, stage, found, mem⟩
    obtain ⟨node, at_id, rfl⟩ := Fabric.stage?_eq_some.1 found
    exact ⟨node, id, at_id, mem⟩

theorem transactions_estimates (wait : Tick) (s : Simulation) :
    ((s.estimates wait).map fun e => e.transaction : Multiset Transaction) = held s.cargo := by
  have all (nodes : List Node) (first : Nat) :
      (((nodes.zipIdx first).flatMap fun n => n.1.stage.estimates s.config wait s.now n.2).map
        fun e => e.transaction : Multiset Transaction) =
        held (nodes.map fun node => node.stage.view.calm) := by
    induction nodes generalizing first with
    | nil => rfl
    | cons node nodes ih =>
      rw [List.zipIdx_cons, List.flatMap_cons, List.map_append, ← Multiset.coe_add, ih,
        Stage.transactions_estimates, List.map_cons, held_cons]
  exact all s.fabric.nodes 0

theorem expects_later {events : EventQueue} {completions : List Completion} {hostRetry : Bool}
    (le : s.now ≤ later)
    (expects : { s with events, completions, hostRetry, now := later }.Expects wait e) :
    ∃ e₀, s.Expects wait e₀ ∧ e₀.transaction = e.transaction ∧ e₀.tick ≤ e.tick := by
  obtain ⟨id, stage, found, mem⟩ := expects
  obtain ⟨e₀, mem₀, same, le⟩ := Stage.noSooner_later le e mem
  exact ⟨e₀, ⟨id, stage, found, mem₀⟩, same, le⟩

end Simulation

namespace ResolvedConfig

variable {c : ResolvedConfig} {g : Grant} {target : ComponentId}

theorem leastLatency_eq (apart : c.system.memoryRange.overlaps c.device.range = false)
    (faced : c.Faced target)
    (leads : (target = 0 ∧ c.system.memoryRange.contains g.access.request.addr = true) ∨
      (0 < target ∧ c.device.range.contains g.access.request.addr = true)) :
    c.leastLatency g =
      c.transit g.packet.payload + c.latencyOf g.packet target + c.onward g.packet target := by
  rcases leads with ⟨rfl, inside⟩ | ⟨pos, inside⟩
  · have outside := AddressRange.not_contains_of_apart apart inside
    rw [leastLatency, outside, if_neg Bool.false_ne_true]
    rfl
  · rcases faced with rfl | front
    · cases pos
    · have toll : c.bridgeToll g.packet.addr = c.bridgeLatency := by
        rw [g.addr_packet]
        exact bridgeToll_of_contains inside
      have paid := c.onward_front g.packet front
      rw [toll] at paid
      rw [leastLatency, inside, if_pos rfl, expanderLatency]
      grind

end ResolvedConfig

namespace Session

variable {h h' : Session} {wait : Tick} {e e' : Estimate} {config : Config} {s : Simulation}

def expected (wait : Tick) (h : Session) : List Estimate :=
  h.system.estimates wait ++ h.produced.map Completion.estimate

theorem mem_expected : e ∈ h.expected wait ↔
    h.system.Expects wait e ∨ ∃ c ∈ h.produced, c.estimate = e := by
  rw [expected, List.mem_append, Simulation.mem_estimates, List.mem_map]

theorem Standing.transactions_expected (standing : h.Standing) (wait : Tick) :
    ((h.expected wait).map fun e => e.transaction).Perm (h.accepted.map Grant.transaction) := by
  refine Multiset.coe_eq_coe.1 (Eq.trans ?_ standing.balanced.conserved)
  rw [expected, List.map_append, ← Multiset.coe_add, Simulation.transactions_estimates,
    List.map_map]
  rfl

theorem Standing.expected_unique (standing : h.Standing) (mem : e ∈ h.expected wait)
    (mem' : e' ∈ h.expected wait) (same : e.transaction.id = e'.transaction.id) : e = e' := by
  have numbers : ((h.expected wait).map fun e => e.transaction.id).Nodup := by
    have ids := (standing.transactions_expected wait).map Transaction.id
    rw [List.map_map, List.map_map] at ids
    refine ids.nodup_iff.2 (List.pairwise_map.2 (standing.balanced.ascending.imp ?_))
    exact Nat.ne_of_lt
  exact List.inj_on_of_nodup_map numbers mem mem' same

def NoSoonerThan (wait : Tick) (h h' : Session) (e : Estimate) : Prop :=
  (∃ e₀ ∈ h.expected wait, e₀.transaction = e.transaction ∧ e₀.tick ≤ e.tick) ∨
    ∃ g, g.id = h.system.nextId ∧ h'.accepted = h.accepted ++ [g] ∧
      g.transaction = e.transaction ∧ g.issued + h.system.config.leastLatency g ≤ e.tick

theorem Standing.noSooner_fires (standing : h.Standing) (tuned : h.system.Tuned)
    (le : wait ≤ h.system.config.media.timing.least +
      h.system.config.controller.backendLatency) (fires : h.system.Fires s) :
    h.system.NoSooner wait s := by
  obtain ⟨event, others, moved, pending, -, moves, rfl⟩ := standing.moved fires
  have laid := standing.laid
  have laid' : Simulation.Laid (h.system.popped event others) :=
    ⟨laid.latency, laid.forwards, laid.backend, laid.outward, laid.homeward, laid.host⟩
  have tuned' : Simulation.Tuned (h.system.popped event others) := ⟨tuned.bus, tuned.stages⟩
  have now : h.system.now ≤ max h.system.now event.tick := Nat.le_max_left ..
  have before {e : Estimate} (expects : (h.system.popped event others).Expects wait e) :
      ∃ e₀, h.system.Expects wait e₀ ∧ e₀.transaction = e.transaction ∧ e₀.tick ≤ e.tick :=
    Simulation.expects_later now expects
  obtain ⟨stages, completions⟩ := Simulation.noSooner_moved laid' tuned' le moves
  refine ⟨fun e expects => ?_, fun c mem => ?_⟩
  · obtain ⟨e₁, expects₁, same₁, le₁⟩ := stages e expects.of_performActions
    obtain ⟨e₀, expects₀, same₀, le₀⟩ := before expects₁
    exact ⟨e₀, expects₀, same₀.trans same₁, Nat.le_trans le₀ le₁⟩
  · rw [Simulation.completions_performActions] at mem
    refine (completions c mem).imp id ?_
    rintro ⟨e₁, expects₁, same₁, le₁⟩
    obtain ⟨e₀, expects₀, same₀, le₀⟩ := before expects₁
    exact ⟨e₀, expects₀, same₀.trans same₁, Nat.le_trans le₀ le₁⟩

theorem Standing.faced {target : ComponentId} {stage : Stage} (standing : h.Standing)
    (found : h.system.fabric.stage? target = some stage)
    (faces : h.system.fabric.hostSide? target = some .host) :
    h.system.config.Faced target := by
  have placed := (Fabric.placed_stage standing.chained found).host.1 faces
  rw [standing.sites] at placed
  exact placed

/-- A request that is accepted starts with all the fixed latencies on its way to pay. -/
theorem Standing.noSooner_send (standing : h.Standing) (tuned : h.system.Tuned) (access : Access)
    (expects : (h.after (.send access)).system.Expects wait e) :
    h.system.Expects wait e ∨ ∃ g, g.id = h.system.nextId ∧
      (h.after (.send access)).accepted = h.accepted ++ [g] ∧ g.transaction = e.transaction ∧
      g.issued + h.system.config.leastLatency g ≤ e.tick := by
  have offers := standing.offers access
  rw [Session.after] at expects ⊢
  generalize h.system.sendRequest access.request = outcome at offers expects ⊢
  cases offers with
  | rejected => exact .inl expects
  | @refused target stage denied lastHit _ _ found _ _ denies =>
    have refused : (h.system.setStage target denied).Expects wait e := expects
    rcases refused.of_setStage with told | others
    · rw [denies.sameHold.estimates] at told
      exact .inl ⟨target, stage, found, told⟩
    · exact .inl others
  | @accepted target stage answered actions lastHit _ faced found leads reply =>
    have placed : (h.system.setStage target answered).Expects wait e := expects.of_performActions
    rcases placed.of_setStage with taken | others
    · have laid := standing.laid
      rcases (Stage.takes_recvRequest reply).estimates (laid.latency _ _ found _)
        (laid.forwards _ _ found) taken with old | ⟨same, late⟩
      · exact .inl ⟨target, stage, found, old⟩
      · have bare := h.system.bare_offered access target
        refine .inr ⟨⟨h.system.nextId, access, h.system.now⟩, rfl, rfl, ?_, ?_⟩
        · rw [same, ← Packet.bare_transaction (h.system.offered access target), bare]
          exact (Grant.transaction_packet _).symm
        · rw [ResolvedConfig.leastLatency_eq standing.valid.disjoint (standing.faced found faced)
            (leads.imp (fun left => ⟨left.1, AddressRange.contains_of_containsAccess left.2⟩)
              fun right => ⟨right.1, AddressRange.contains_of_containsAccess right.2⟩)]
          rw [← ResolvedConfig.latencyOf_bare, ← ResolvedConfig.onward_bare, bare] at late
          have header : (h.system.offered access target).headerDelay =
              h.system.config.transit
                (Grant.packet ⟨h.system.nextId, access, h.system.now⟩).payload :=
            tuned.transit _
          grind
    · exact .inl others

theorem produced_immediate {call : HostCall} (immediate : call.immediate = true) :
    (h.after call).produced ⊆ h.produced := by
  intro c mem
  by_cases take : call = .take
  · subst take
    rcases List.mem_append.1 mem with handed | waits
    · rcases List.mem_append.1 handed with before | taken
      · exact List.mem_append_left _ before
      · exact List.mem_append_right _ (Simulation.mem_takeCompletions.1 taken).1
    · exact List.mem_append_right _ (Simulation.mem_left_takeCompletions.1 waits).1
  · obtain ⟨-, completions, returned⟩ := untimed immediate take
    rw [produced, completions, returned] at mem
    exact mem

theorem Standing.sameHold_immediate {call : HostCall} (standing : h.Standing)
    (immediate : call.immediate = true) (quiet : ∀ access, call ≠ .send access)
    {id : ComponentId} {stage : Stage}
    (found : (h.after call).system.fabric.stage? id = some stage) :
    ∃ before, h.system.fabric.stage? id = some before ∧ before.SameHold stage := by
  cases call with
  | runUntil | runUntilIdle | poll => cases immediate
  | send access => exact absurd rfl (quiet access)
  | take | takeRetry => exact ⟨stage, found, .refl stage⟩
  | atomic access =>
    have performed := standing.performed access
    rw [Session.after] at found
    generalize h.system.accessAtomic access.request = outcome at performed found
    cases performed with
    | rejected => exact ⟨stage, found, .refl stage⟩
    | @performed _ range holder q _ _ _ stands =>
      exact Simulation.sameHold_setStage stands (Stage.sameHold_accessAtomic holder q) found
  | load addr data =>
    rw [Session.after] at found
    split at found
    next s loaded =>
      obtain ⟨_, old, store, stands, rfl⟩ := Simulation.load_eq_ok loaded
      exact Simulation.sameHold_setStage stands (Stage.sameHold_withStore old store) found
    next => exact ⟨stage, found, .refl stage⟩

theorem now_immediate {call : HostCall} (immediate : call.immediate = true) :
    (h.after call).system.now = h.system.now := by
  by_cases take : call = .take
  · subst take
    rfl
  · exact (untimed immediate take).1

theorem Standing.expects_immediate {call : HostCall} (standing : h.Standing)
    (immediate : call.immediate = true) (quiet : ∀ access, call ≠ .send access)
    (expects : (h.after call).system.Expects wait e) : h.system.Expects wait e := by
  have reaches : h.Reaches false (h.after call) := standing.after call nofun
  obtain ⟨id, stage, found, mem⟩ := expects
  obtain ⟨before, stands, same⟩ := standing.sameHold_immediate immediate quiet found
  rw [reaches.config, now_immediate immediate, same.estimates] at mem
  exact ⟨id, before, stands, mem⟩

/-- No step brings anything forward. -/
theorem Standing.noSooner_step (standing : h.Standing) (tuned : h.system.Tuned)
    (le : wait ≤ h.system.config.media.timing.least +
      h.system.config.controller.backendLatency) (step : h.Step h')
    (mem : e ∈ h'.expected wait) : h.NoSoonerThan wait h' e := by
  have of_expects (expects : ∃ e₀, h.system.Expects wait e₀ ∧
      e₀.transaction = e.transaction ∧ e₀.tick ≤ e.tick) : h.NoSoonerThan wait h' e := by
    obtain ⟨e₀, expects, same, le⟩ := expects
    exact .inl ⟨e₀, mem_expected.2 (.inl expects), same, le⟩
  have of_produced {c : Completion} (mem : c ∈ h.produced) (eq : c.estimate = e) :
      h.NoSoonerThan wait h' e :=
    .inl ⟨e, mem_expected.2 (.inr ⟨c, mem, eq⟩), rfl, Nat.le_refl _⟩
  rw [mem_expected] at mem
  cases step with
  | fires fires =>
    obtain ⟨stages, completions⟩ := standing.noSooner_fires tuned le fires
    rcases mem with expects | ⟨c, mem, rfl⟩
    · exact of_expects (stages e expects)
    · rcases List.mem_append.1 mem with handed | waits
      · exact of_produced (List.mem_append_left _ handed) rfl
      · rcases completions c waits with old | new
        · exact of_produced (List.mem_append_right _ old) rfl
        · exact of_expects new
  | waits later =>
    rcases mem with expects | ⟨c, mem, eq⟩
    · exact of_expects (Simulation.expects_later later expects)
    · exact of_produced mem eq
  | @calls call immediate =>
    rcases mem with expects | ⟨c, mem, eq⟩
    · by_cases sends : ∃ access, call = .send access
      · obtain ⟨access, rfl⟩ := sends
        rcases standing.noSooner_send tuned access expects with old | new
        · exact of_expects ⟨e, old, rfl, Nat.le_refl _⟩
        · exact .inr new
      · have quiet (access : Access) : call ≠ .send access := fun eq => sends ⟨access, eq⟩
        exact of_expects ⟨e, standing.expects_immediate immediate quiet expects, rfl,
          Nat.le_refl _⟩
    · exact of_produced (produced_immediate immediate mem) eq

/-- Nothing is expected sooner than its access was sent and has paid the fixed latencies. -/
structure Floored (h : Session) : Prop where
  tuned : h.system.Tuned
  floor : ∀ e ∈ h.expected 0, ∃ g ∈ h.accepted, g.transaction = e.transaction ∧
    g.issued + h.system.config.leastLatency g ≤ e.tick

/-- If the media take at least `wait`, nothing is expected of an access before a tick. -/
structure Awaits (wait tick : Tick) (g : Grant) (h : Session) : Prop where
  tuned : h.system.Tuned
  le : wait ≤ h.system.config.media.timing.least + h.system.config.controller.backendLatency
  given : g ∈ h.accepted
  floor : ∀ e ∈ h.expected wait, e.transaction.id = g.id →
    e.transaction = g.transaction ∧ tick ≤ e.tick

theorem Floored.step (standing : h.Standing) (floored : h.Floored) (step : h.Step h') :
    h'.Floored where
  tuned := lasts_tuned.step standing floored.tuned step
  floor e mem := by
    rw [(standing.step step).config]
    rcases standing.noSooner_step floored.tuned (Nat.zero_le _) step mem with
      ⟨e₀, mem₀, same, late⟩ | ⟨g, -, accepted, same, late⟩
    · obtain ⟨g, given, same', floor⟩ := floored.floor e₀ mem₀
      exact ⟨g, step.accepted_subset given, same'.trans same, Nat.le_trans floor late⟩
    · exact ⟨g, accepted ▸ List.mem_append_right _ (List.mem_singleton_self g), same, late⟩

theorem Awaits.step {tick : Tick} {g : Grant} (standing : h.Standing)
    (awaits : h.Awaits wait tick g) (step : h.Step h') : h'.Awaits wait tick g where
  tuned := lasts_tuned.step standing awaits.tuned step
  le := (standing.step step).config ▸ awaits.le
  given := step.accepted_subset awaits.given
  floor e mem number := by
    rcases standing.noSooner_step awaits.tuned awaits.le step mem with
      ⟨e₀, mem₀, same, late⟩ | ⟨new, fresh, -, same, -⟩
    · obtain ⟨same', floor⟩ := awaits.floor e₀ mem₀ (same ▸ number)
      exact ⟨same ▸ same', Nat.le_trans floor late⟩
    · -- The number of an access that is accepted now has not been given out before.
      have number' : new.id = g.id := (congrArg Transaction.id same).trans number
      have known := standing.balanced.bounded g awaits.given
      exact absurd (fresh.symm.trans number') (Nat.ne_of_gt known)

theorem Reachable.floored (reachable : Reachable config h) : h.Floored := by
  refine reachable.keeps (fun s created => ?_) Floored.step
  refine ⟨Simulation.tuned_create created, fun e mem => ?_⟩
  have none : (((Session.start s).expected 0).map fun e => e.transaction).Perm [] :=
    (standing_start created).transactions_expected 0
  rw [List.map_eq_nil_iff.1 none.eq_nil] at mem
  cases mem

/-- A step in which the controller takes a request; afterwards it holds what it held when it had
taken it. -/
structure Admits (h h' : Session) (c : Controller Media) (p : Packet) : Prop where
  step : h.Step h'
  before : h.system.fabric.stage? 1 = some (.controller c)
  taken : ∃ c' actions after, c.recvRequest h'.system.now p = ⟨c', actions, .accepted⟩ ∧
    h'.system.fabric.stage? 1 = some after ∧ (Stage.controller c').SameHold after

/-- From its admission on, a read that waits for the media is to pay for them. -/
theorem Admits.awaits {c : Controller Media} {p : Packet} (admits : h.Admits h' c p)
    (standing : h.Standing) (floored : h.Floored) (read : p.kind = .read)
    (fresh : c.freshBurstsOf p ≠ []) : ∃ g, g.id = p.id ∧
      h'.Awaits h.system.config.mediaLatency
        (g.issued + (h.system.config.expanderLatency g + h.system.config.mediaLatency)) g := by
  obtain ⟨c', actions, after, reply, found, hold⟩ := admits.taken
  obtain ⟨r, parked, same⟩ := Stage.parks_recvRequest read fresh reply
  rw [← hold.parked] at parked
  have standing' := (standing.step admits.step).standing
  have floored' := floored.step standing admits.step
  have config := (standing.step admits.step).config
  have waits (wait : Tick) : Stage.parkedEstimate h'.system.config wait h'.system.now 1 r ∈
      h'.expected wait :=
    mem_expected.2 (.inl ⟨1, _, found, Stage.mem_estimates.2 (.inr (.inl ⟨r, parked, rfl⟩))⟩)
  obtain ⟨g, given, granted, floor⟩ := floored'.floor _ (waits 0)
  have transaction : g.transaction = p.transaction := granted.trans same
  have inside : h.system.config.device.range.contains g.access.request.addr = true := by
    have addr : g.access.request.addr = p.addr := congrArg Transaction.addr transaction
    have held := (Fabric.placed_stage standing.chained admits.before).held Nat.zero_lt_one _ rfl
    have range : c.range = h.expander := held.2
    have serves : c.range.containsAccess p.addr p.size = true := by
      rcases Controller.recvRequest_eq c h'.system.now p with ⟨-, eq⟩ | ⟨serves, -⟩ | ⟨serves, -⟩
      · cases eq.symm.trans reply
      · exact serves
      · exact serves
    rw [addr, ← Session.expander, ← range]
    exact AddressRange.contains_of_containsAccess serves
  have least : h.system.config.leastLatency g = h.system.config.expanderLatency g := by
    rw [ResolvedConfig.leastLatency, inside, if_pos rfl]
  refine ⟨g, congrArg Transaction.id transaction, floored'.tuned, ?_, given,
    fun e mem number => ?_⟩
  · rw [config, ResolvedConfig.mediaLatency, Nat.add_comm]
  · have unique := standing'.expected_unique mem (waits _)
      (number.trans (congrArg Transaction.id granted))
    rw [config, least] at floor
    rw [unique, config]
    refine ⟨granted.symm, ?_⟩
    simp only [Stage.parkedEstimate] at floor ⊢
    grind

end Session

end Expander
