import Expander.Proofs.Housing
import Expander.Proofs.Latency

/-!
The latency of system memory.

System memory takes every access, and answers in the order in which it took them. So a response is
not held back by anything but the responses to accesses that were accepted before and have reached
the memory later: it leaves when the last of these is ready (`served_in_line`). A large write takes
longer to the memory than a read behind it, and then the read has to wait.
-/

set_option autoImplicit false

namespace Expander

namespace ResolvedConfig

def arrival (c : ResolvedConfig) (g : Grant) : Tick := g.issued + c.transit g.packet.payload

def latestArrival (c : ResolvedConfig) (grants : List Grant) : Tick :=
  grants.foldr (fun g tick => max (c.arrival g) tick) 0

/-- The response to an access waits in the memory for its latency. -/
structure Answers (c : ResolvedConfig) (g : Grant) (w : Waiting) : Prop where
  transaction : w.packet.transaction = g.transaction
  payload : w.packet.payload = (g.packet.respond []).payload
  ready : w.ready = c.arrival g + c.system.memoryLatency

/-- The accesses that were answered by a tick, and those whose responses wait in line. -/
structure Serves (c : ResolvedConfig) (done waiting : List Grant) (line : List Waiting)
    (now : Tick) : Prop where
  answers : List.Forall₂ c.Answers waiting line
  gone : ∀ g ∈ done, c.arrival g + c.system.memoryLatency ≤ now
  /-- The first response in line has not been held back any longer than by those before it. -/
  head : ∀ g rest, waiting = g :: rest →
    now ≤ c.latestArrival (done ++ [g]) + c.system.memoryLatency

variable {c : ResolvedConfig} {grants done waiting : List Grant} {g : Grant}
  {line rest : List Waiting} {now next tick : Tick} {w : Waiting}

theorem latestArrival_le_iff :
    c.latestArrival grants ≤ tick ↔ ∀ g ∈ grants, c.arrival g ≤ tick := by
  induction grants with
  | nil => simp [latestArrival]
  | cons g rest ih =>
    rw [List.forall_mem_cons, ← ih, ← Nat.max_le]
    rfl

theorem arrival_le_latestArrival (mem : g ∈ grants) : c.arrival g ≤ c.latestArrival grants :=
  latestArrival_le_iff.1 (Nat.le_refl _) g mem

theorem latestArrival_le_append (grants others : List Grant) :
    c.latestArrival grants ≤ c.latestArrival (grants ++ others) :=
  latestArrival_le_iff.2 fun _ mem => arrival_le_latestArrival (List.mem_append_left others mem)

theorem latestArrival_append_eq_iff (before : List Grant) (g : Grant) :
    c.latestArrival (before ++ [g]) = c.arrival g ↔ ∀ w ∈ before, c.arrival w ≤ c.arrival g := by
  have last : c.arrival g ≤ c.latestArrival (before ++ [g]) :=
    arrival_le_latestArrival (List.mem_append_right before (List.mem_singleton_self g))
  rw [Nat.le_antisymm_iff, and_iff_left last, latestArrival_le_iff]
  simp [or_imp, forall_and]

namespace Serves

theorem later (h : c.Serves done waiting line now) (le : now ≤ next)
    (due : ∀ w rest, line = w :: rest → next ≤ max w.ready now) :
    c.Serves done waiting line next := by
  refine ⟨h.answers, fun g mem => (h.gone g mem).trans le, ?_⟩
  rintro g rest rfl
  obtain ⟨w, others, answers, -, eq⟩ := List.forall₂_cons_left_iff.1 h.answers
  have arrives : c.arrival g ≤ c.latestArrival (done ++ [g]) :=
    arrival_le_latestArrival (List.mem_append_right done (List.mem_singleton_self g))
  refine (due w others eq).trans (Nat.max_le.2 ⟨?_, h.head g rest rfl⟩)
  rw [answers.ready]
  exact Nat.add_le_add_right arrives _

theorem leave (h : c.Serves done waiting (w :: rest) now) (ready : w.ready ≤ now) :
    ∃ g others, waiting = g :: others ∧ c.Answers g w ∧
      now = c.latestArrival (done ++ [g]) + c.system.memoryLatency ∧
      c.Serves (done ++ [g]) others rest now := by
  obtain ⟨g, others, answers, behind, rfl⟩ := List.forall₂_cons_right_iff.1 h.answers
  have gone : ∀ a ∈ done ++ [g], c.arrival a + c.system.memoryLatency ≤ now := by
    intro a mem
    rcases List.mem_append.1 mem with before | last
    · exact h.gone a before
    · cases List.mem_singleton.1 last
      exact answers.ready ▸ ready
  have last : c.arrival g + c.system.memoryLatency ≤ now := answers.ready ▸ ready
  have all : c.latestArrival (done ++ [g]) ≤ now - c.system.memoryLatency :=
    latestArrival_le_iff.2 fun a mem => Nat.le_sub_of_add_le (gone a mem)
  have leaves : now = c.latestArrival (done ++ [g]) + c.system.memoryLatency :=
    Nat.le_antisymm (h.head g others rfl)
      (Nat.add_le_of_le_sub (Nat.le_of_add_left_le last) all)
  refine ⟨g, others, rfl, answers, leaves, behind, gone, fun a _ _ => ?_⟩
  calc now = c.latestArrival (done ++ [g]) + c.system.memoryLatency := leaves
    _ ≤ _ := Nat.add_le_add_right (latestArrival_le_append _ _) _

theorem join (h : c.Serves done waiting line now) (answers : c.Answers g w)
    (ahead : now ≤ c.arrival g) : c.Serves done (waiting ++ [g]) (line ++ [w]) now := by
  refine ⟨List.rel_append h.answers (.cons answers .nil), h.gone, fun a others eq => ?_⟩
  cases waiting with
  | nil =>
    cases eq
    have arrives : c.arrival g ≤ c.latestArrival (done ++ [g]) :=
      arrival_le_latestArrival (List.mem_append_right done (List.mem_singleton_self g))
    exact (ahead.trans arrives).trans (Nat.le_add_right ..)
  | cons first others' =>
    cases eq
    exact h.head a others' rfl

end Serves

end ResolvedConfig

namespace SystemMemory

variable {m : SystemMemory} {now : Tick} {p : Packet} {actions : List Action}

theorem homebound_recvRequest {answered : Stage} (sound : m.Sound)
    (reply : (Stage.memory m).recvRequest now p = ⟨answered, actions, .accepted⟩) :
    ∃ q, answered.homebound =
        (Stage.memory m).homebound ++ [⟨q, now + p.headerDelay + m.latency⟩] ∧
      q.bare = m.view.answer m.range p := by
  have notFull : m.responses.isFull = false := by simp [PacketQueue.isFull, sound.unbounded]
  have pushed := PacketQueue.push?_of_not_full (m.perform p.chargeHeader).1
    (now + p.headerDelay + m.latency) notFull
  rw [Stage.recvRequest, recvRequest] at reply
  split at reply
  · cases reply
  · simp only [pushed] at reply
    cases reply
    exact ⟨_, rfl, bare_perform m p.chargeHeader⟩

theorem response_of_bare {q : Packet} {g : Grant} (bare : p.bare = g.packet)
    (response : q.bare = m.view.answer m.range p) :
    q.transaction = g.transaction ∧ q.payload = (g.packet.respond []).payload := by
  rw [StageView.answer, bare] at response
  constructor
  · rw [← Packet.bare_transaction, response, Packet.transaction_respond, Grant.transaction_packet]
  · -- What is on the wire back does not depend on the bytes that were read.
    have payload : q.bare.payload = q.payload := rfl
    rw [← payload, response]
    rfl

theorem recvRequest_ne_busy (sound : m.Sound) (now : Tick) (p back : Packet) :
    (m.recvRequest now p).answer ≠ .busy back := by
  rcases recvRequest_cases sound now p with ⟨-, eq⟩ | ⟨-, ready, responses, -, eq⟩ <;> rw [eq] <;>
    exact nofun

end SystemMemory

namespace Simulation

def line (s : Simulation) : List Waiting := ((s.fabric.stage? 0).map Stage.homebound).getD []

variable {s s' after : Simulation} {id : ComponentId} {stage : Stage} {kind : EventKind}
  {pending : List (ComponentId × Action)} {expander : AddressRange}

theorem line_of_stage (found : s.fabric.stage? 0 = some stage) : s.line = stage.homebound := by
  rw [line, found]
  rfl

theorem line_congr (same : s'.fabric.stage? 0 = s.fabric.stage? 0) : s'.line = s.line := by
  rw [line, line, same]

theorem line_of_sameHold (found : s'.fabric.stage? 0 = some stage)
    (held : ∃ before, s.fabric.stage? 0 = some before ∧ before.SameHold stage) :
    s'.line = s.line := by
  obtain ⟨before, stands, same⟩ := held
  rw [line_of_stage found, line_of_stage stands, same.homebound]

theorem Moved.now (moves : s.Moved id kind after pending) : after.now = s.now := by
  cases moves <;> rfl

theorem walkAtomic_memory {m : SystemMemory} {p : Packet}
    (found : s.fabric.stage? 0 = some (.memory m))
    (inside : m.range.containsAccess p.addr p.size = true) (fuel : Nat) (latency : Tick) :
    ∃ q after, walkAtomic (fuel + 1) 0 p latency s = (.ok (q, latency + m.latency), after) ∧
      q.bare = m.view.answer m.range p := by
  have inside' : m.range.containsAccess (p.arriveAt 0 (s.now + latency)).addr
      (p.arriveAt 0 (s.now + latency)).size = true := inside
  refine ⟨_, s.setStage 0 (.memory (m.perform (p.arriveAt 0 (s.now + latency))).2), ?_,
    SystemMemory.bare_perform m (p.arriveAt 0 (s.now + latency))⟩
  simp only [walkAtomic, found, Stage.accessAtomic, SystemMemory.accessAtomic, inside', if_true]
  rfl

/-- An event leaves the line of system memory as it is, or takes the first response out, which then
is on its way to the host. -/
theorem Moved.line (chained : Chained s.fabric.sites expander) (housed : s.Housed)
    (apart : s.config.system.memoryRange.overlaps s.config.device.range = false)
    (moves : s.Moved id kind after pending) :
    (after.line = s.line ∧ ∀ c ∈ after.completions,
      s.config.system.memoryRange.contains c.addr = true → c ∈ s.completions) ∨
    ∃ w rest, s.line = w :: rest ∧ w.ready ≤ s.now ∧ after.line = rest ∧
      after.completions = s.completions ++ [Completion.ofResponse w.packet
        (s.now + s.fabric.interconnect.transitTime w.packet.payload)] := by
  have others {i : ComponentId} {new : Stage} (pos : 0 < i) :
      (s.fabric.setStage i new).stage? 0 = s.fabric.stage? 0 :=
    Fabric.stage?_setStage_ne (Nat.ne_of_lt pos)
  have others₂ {i j : ComponentId} {new new' : Stage} (pos : 0 < i) (pos' : 0 < j) :
      ((s.fabric.setStage i new).setStage j new').stage? 0 = s.fabric.stage? 0 :=
    (Fabric.stage?_setStage_ne (Nat.ne_of_lt pos')).trans (others pos)
  cases moves with
  | idle => exact .inl ⟨rfl, fun _ mem _ => mem⟩
  | request behind | requestBack behind =>
    obtain ⟨rfl, pos, -⟩ := Fabric.stage_behind chained behind
    exact .inl ⟨line_congr (others₂ pos (Nat.succ_pos _)), fun _ mem _ => mem⟩
  | response before | responseBack before =>
    obtain ⟨rfl, pos, -⟩ := Fabric.stage_before chained before
    exact .inl ⟨line_congr (others₂ (Nat.succ_pos _) pos), fun _ mem _ => mem⟩
  | @completed lower taken p host hlower took =>
    rcases Nat.eq_zero_or_pos id with rfl | pos
    · obtain ⟨m, rfl⟩ := Fabric.memory_of_first chained hlower
      obtain ⟨⟨q, m'⟩, gave, eq⟩ := Option.map_eq_some_iff.1 took
      cases eq
      obtain ⟨-, responses, popped, rfl⟩ := SystemMemory.takeResponse_eq_some gave
      obtain ⟨tick, ready, entries, -⟩ := PacketQueue.popReady?_eq_some popped
      have left : ((s.complete q).setStage 0 (.memory { m with responses })).fabric.stage? 0 =
          some (.memory { m with responses }) := Fabric.stage?_setStage_self hlower
      exact .inr ⟨⟨q, tick⟩, responses.entries, (line_of_stage hlower).trans entries, ready,
        line_of_stage left, rfl⟩
    · refine .inl ⟨line_congr (others pos), fun c mem inside => ?_⟩
      rcases List.mem_append.1 mem with old | new
      · exact old
      · cases List.mem_singleton.1 new
        have outside := (housed.leaving hlower took).2 (Nat.ne_of_gt pos)
        have apart' := AddressRange.not_contains_of_apart apart inside
        cases apart'.symm.trans outside
  | @processed stage' found =>
    refine .inl ⟨?_, fun _ mem _ => mem⟩
    rcases Nat.eq_zero_or_pos id with rfl | pos
    · obtain ⟨m, rfl⟩ := Fabric.memory_of_first chained found
      rw [line_of_stage found]
      exact line_of_stage (Fabric.stage?_setStage_self found)
    · exact line_congr (others pos)

end Simulation

namespace Session

variable {h h' : Session} {machine : Machine} {config : Config} {s : Simulation} {w : Waiting}
  {rest : List Waiting}

def memoryGrants (h : Session) : List Grant :=
  h.accepted.filter fun g => h.system.config.system.memoryRange.contains g.access.request.addr

/-- The completion is that of an accepted access of system memory, which was answered when all
accesses up to it had reached the memory. -/
def ServedInLine (h : Session) (c : Completion) : Prop :=
  ∃ before g after, h.memoryGrants = before ++ g :: after ∧ c.transaction = g.transaction ∧
    c.completed = h.system.config.latestArrival (before ++ [g]) +
      h.system.config.system.memoryLatency +
        h.system.config.transit (g.packet.respond []).payload

/-- System memory has answered the first accesses of its range, and the responses to the others
wait in line. -/
structure MemoryServes (h : Session) : Prop where
  line : ∃ done waiting, h.memoryGrants = done ++ waiting ∧
    h.system.config.Serves done waiting h.system.line h.system.now
  served : ∀ c ∈ h.produced,
    h.system.config.system.memoryRange.contains c.addr = true → h.ServedInLine c

theorem Standing.exists_memory (standing : h.Standing) :
    ∃ m, h.system.fabric.stage? 0 = some (.memory m) := by
  have site := h.system.config.memorySite_first
  rw [← standing.sites] at site
  obtain ⟨stage, found⟩ := Fabric.exists_stage site
  obtain ⟨m, rfl⟩ := Fabric.memory_of_first standing.chained found
  exact ⟨m, found⟩

theorem Standing.memory_latency {m : SystemMemory} (standing : h.Standing)
    (found : h.system.fabric.stage? 0 = some (.memory m)) :
    m.latency = h.system.config.system.memoryLatency :=
  standing.laid.latency 0 _ found (Grant.packet ⟨0, .read 0 0, 0⟩)

theorem Standing.line_due (standing : h.Standing) (line : h.system.line = w :: rest) :
    ∃ e ∈ h.system.events.events, e.tick = max w.ready h.system.now := by
  obtain ⟨m, found⟩ := standing.exists_memory
  have host : h.system.fabric.hostSide? 0 = some .host :=
    (Fabric.placed_stage standing.chained found).host.2 (.inl rfl)
  have free : m.awaitingRetry = false := standing.attended.host 0 _ host found
  rw [Simulation.line_of_stage found] at line
  exact ⟨_, standing.wakeful.memory 0 m found free w rest line, rfl⟩

theorem Standing.now_le_line (standing : h.Standing) (fires : h.system.Fires s)
    (line : h.system.line = w :: rest) : s.now ≤ max w.ready h.system.now := by
  obtain ⟨first, others, events, now⟩ := now_fires fires
  obtain ⟨e, mem, tick⟩ := standing.line_due line
  have ahead := ahead_of_nextTick first.tick standing.attended.sorted fun tick next => by
    rw [EventQueue.nextTick, events] at next
    cases next
    exact Nat.le_refl _
  rw [now]
  exact Nat.max_le.2 ⟨Nat.le_max_right .., tick ▸ ahead e mem⟩

theorem ServedInLine.later {c : Completion} (served : h.ServedInLine c)
    (config : h'.system.config = h.system.config) {joined : List Grant}
    (grants : h'.memoryGrants = h.memoryGrants ++ joined) : h'.ServedInLine c := by
  obtain ⟨before, g, after, split, same, completed⟩ := served
  refine ⟨before, g, after ++ joined, ?_, same, config ▸ completed⟩
  rw [grants, split, List.append_assoc, List.cons_append]

theorem memoryGrants_congr (config : h'.system.config = h.system.config)
    (accepted : h'.accepted = h.accepted) : h'.memoryGrants = h.memoryGrants := by
  rw [memoryGrants, memoryGrants, config, accepted]

theorem MemoryServes.unchanged (serves : h.MemoryServes)
    (config : h'.system.config = h.system.config) (accepted : h'.memoryGrants = h.memoryGrants)
    (line : h'.system.line = h.system.line) (le : h.system.now ≤ h'.system.now)
    (due : ∀ w rest, h.system.line = w :: rest → h'.system.now ≤ max w.ready h.system.now)
    (produced : ∀ c ∈ h'.produced,
      h.system.config.system.memoryRange.contains c.addr = true → c ∈ h.produced) :
    h'.MemoryServes := by
  obtain ⟨done, waiting, split, inLine⟩ := serves.line
  refine ⟨⟨done, waiting, accepted.trans split, ?_⟩, fun c mem inside => ?_⟩
  · rw [config, line]
    exact inLine.later le due
  · rw [config] at inside
    exact (serves.served c (produced c mem inside) inside).later config
      (accepted.trans (List.append_nil _).symm)

theorem MemoryServes.joins {g : Grant} (serves : h.MemoryServes)
    (config : h'.system.config = h.system.config) (grants : h'.memoryGrants = h.memoryGrants ++ [g])
    (line : h'.system.line = h.system.line ++ [w]) (now : h'.system.now = h.system.now)
    (produced : h'.produced = h.produced) (answers : h.system.config.Answers g w)
    (ahead : h.system.now ≤ h.system.config.arrival g) : h'.MemoryServes := by
  obtain ⟨done, waiting, split, inLine⟩ := serves.line
  refine ⟨⟨done, waiting ++ [g], ?_, ?_⟩, fun c mem inside => ?_⟩
  · rw [grants, split, List.append_assoc]
  · rw [config, line, now]
    exact inLine.join answers ahead
  · rw [config] at inside
    exact (serves.served c (produced ▸ mem) inside).later config grants

theorem MemoryServes.fires (serves : h.MemoryServes) (standing : h.Standing)
    (tuned : h.system.Tuned) (housed : h.system.Housed) (fires : h.system.Fires s) :
    { h with system := s }.MemoryServes := by
  have reaches := standing.fires fires
  have le := (stamps_fires fires).1
  have due : ∀ w rest, h.system.line = w :: rest → s.now ≤ max w.ready h.system.now :=
    fun w rest line => standing.now_le_line fires line
  obtain ⟨m, found⟩ := reaches.standing.exists_memory
  have config : s.config = h.system.config := reaches.config
  have grants : memoryGrants { h with system := s } = h.memoryGrants :=
    memoryGrants_congr config rfl
  obtain ⟨e, others, moved, pending, -, moves, rfl⟩ := standing.moved fires
  have chained : Chained (h.system.popped e others).fabric.sites h.expander := standing.chained
  have line := Simulation.line_of_sameHold found (Simulation.sameHold_performActions pending found)
  have completions := Simulation.completions_performActions moved pending
  have now : (moved.performActions pending).now = (h.system.popped e others).now :=
    (Simulation.now_performActions moved pending).trans moves.now
  rcases moves.line chained housed standing.valid.disjoint with ⟨same, old⟩ |
    ⟨w, rest, first, ready, left, stamped⟩
  · refine serves.unchanged config grants (line.trans same) le due fun c mem inside => ?_
    rcases List.mem_append.1 mem with returned | waits
    · exact List.mem_append_left _ returned
    · exact List.mem_append_right _ (old c (completions ▸ waits) inside)
  · obtain ⟨done, waiting, split, inLine⟩ := serves.line
    have before : h.system.line = w :: rest := first
    rw [before] at inLine
    obtain ⟨g, waiting, rfl, answers, leaves, inLine⟩ :=
      (inLine.later le fun w' rest' eq => due w' rest' (before.trans eq)).leave (now ▸ ready)
    have split' : h.memoryGrants = done ++ [g] ++ waiting := by
      rw [split, List.append_assoc, List.singleton_append]
    refine ⟨⟨done ++ [g], waiting, grants.trans split', ?_⟩, fun c mem inside => ?_⟩
    · rw [config, line, left]
      exact inLine
    · rw [config] at inside
      have new : c ∈ h.produced ∨ c = Completion.ofResponse w.packet
          ((moved.performActions pending).now +
            h.system.fabric.interconnect.transitTime w.packet.payload) := by
        rw [produced, completions, stamped, ← now] at mem
        rcases List.mem_append.1 mem with returned | waits
        · exact .inl (List.mem_append_left _ returned)
        · rcases List.mem_append.1 waits with old | new
          · exact .inl (List.mem_append_right _ old)
          · exact .inr (List.mem_singleton.1 new)
      rcases new with old | rfl
      · exact (serves.served c old inside).later config (grants.trans (List.append_nil _).symm)
      · refine ⟨done, g, waiting, grants.trans split, answers.transaction, ?_⟩
        rw [config, Completion.ofResponse, tuned.transit, answers.payload, leaves]

theorem MemoryServes.waits {tick : Tick} (serves : h.MemoryServes) (standing : h.Standing)
    (le : h.system.now ≤ tick) (ahead : ∀ e ∈ h.system.events.events, tick ≤ e.tick) :
    { h with system := { h.system with now := tick } }.MemoryServes := by
  refine serves.unchanged rfl rfl rfl le (fun w rest line => ?_) fun c mem _ => mem
  obtain ⟨e, mem, eq⟩ := standing.line_due line
  exact eq ▸ ahead e mem

theorem memoryGrants_append (config : h'.system.config = h.system.config) {g : Grant}
    (accepted : h'.accepted = h.accepted ++ [g]) :
    h'.memoryGrants = h.memoryGrants ++
      if h.system.config.system.memoryRange.contains g.access.request.addr then [g] else [] := by
  rw [memoryGrants, memoryGrants, config, accepted, List.filter_append, List.filter_singleton,
    Bool.cond_eq_ite]

theorem Standing.answers {access : Access} {m : SystemMemory} {q : Packet} (standing : h.Standing)
    (tuned : h.system.Tuned) (found : h.system.fabric.stage? 0 = some (.memory m))
    (response : q.bare = m.view.answer m.range (h.system.offered access 0)) :
    h.system.config.Answers ⟨h.system.nextId, access, h.system.now⟩
      ⟨q, h.system.now + (h.system.offered access 0).headerDelay + m.latency⟩ := by
  obtain ⟨transaction, payload⟩ :=
    SystemMemory.response_of_bare (h.system.bare_offered access 0) response
  refine ⟨transaction, payload, ?_⟩
  have header : (h.system.offered access 0).headerDelay = h.system.config.transit
      (Grant.packet ⟨h.system.nextId, access, h.system.now⟩).payload := tuned.transit _
  rw [ResolvedConfig.arrival, header, standing.memory_latency found]

theorem MemoryServes.send (serves : h.MemoryServes) (standing : h.Standing)
    (tuned : h.system.Tuned) (access : Access) : (h.after (.send access)).MemoryServes := by
  have reaches := standing.send access
  have offers := standing.offers access
  rw [after] at reaches ⊢
  generalize h.system.sendRequest access.request = outcome at offers reaches ⊢
  have due {now : Tick} (same : now = h.system.now) (w : Waiting) (rest : List Waiting)
      (_ : h.system.line = w :: rest) : now ≤ max w.ready h.system.now :=
    same ▸ Nat.le_max_right ..
  cases offers with
  | rejected lastHit =>
    exact serves.unchanged rfl rfl rfl (Nat.le_refl _) (due rfl) fun c mem _ => mem
  | @refused target stage denied lastHit _ _ found _ _ denies =>
    obtain ⟨m, stands⟩ := reaches.standing.exists_memory
    have line := Simulation.line_of_sameHold stands
      (Simulation.sameHold_setStage found denies.sameHold stands)
    exact serves.unchanged rfl rfl line (Nat.le_refl _) (due rfl) fun c mem _ => mem
  | @accepted target stage answered actions lastHit _ faced found leads reply =>
    set taken := ({ h.system.remembering lastHit with
      nextId := h.system.nextId + 1
      host := { h.system.host with issued := h.system.host.issued + 1 } }.setStage target
        answered)
    obtain ⟨m, stands⟩ := reaches.standing.exists_memory
    have line := Simulation.line_of_sameHold stands
      (Simulation.sameHold_performActions (asked target actions) stands)
    have now : (taken.performActions (asked target actions)).now = h.system.now :=
      Simulation.now_performActions ..
    have completions := Simulation.completions_performActions taken (asked target actions)
    have grants := memoryGrants_append reaches.config rfl
    have produced : h.returned ++ (taken.performActions (asked target actions)).completions =
        h.produced := congrArg (h.returned ++ ·) completions
    rcases leads with ⟨rfl, inside⟩ | ⟨pos, inside⟩
    · obtain ⟨memory, was⟩ := standing.exists_memory
      cases found.symm.trans was
      rw [if_pos (AddressRange.contains_of_containsAccess inside)] at grants
      obtain ⟨q, joined, response⟩ := SystemMemory.homebound_recvRequest
        (standing.attended.sound 0 _ found) reply
      have last : taken.line = answered.homebound :=
        Simulation.line_of_stage (Fabric.stage?_setStage_self found)
      rw [← Simulation.line_of_stage found, ← last, ← line] at joined
      exact serves.joins reaches.config grants joined now produced
        (standing.answers tuned found response) (Nat.le_add_right ..)
    · have first : (taken.fabric.stage? 0) = h.system.fabric.stage? 0 :=
        Fabric.stage?_setStage_ne (Nat.ne_of_lt pos)
      have outside : h.system.config.system.memoryRange.contains access.request.addr = false :=
        AddressRange.not_contains_of_apart
          ((AddressRange.overlaps_comm ..).trans standing.valid.disjoint)
          (AddressRange.contains_of_containsAccess inside)
      rw [outside, if_neg Bool.false_ne_true, List.append_nil] at grants
      exact serves.unchanged reaches.config grants (line.trans (Simulation.line_congr first))
        (Nat.le_of_eq now.symm) (due now) fun c mem _ => produced ▸ mem

theorem accepted_of_quiet {call : HostCall} (h : Session)
    (quiet : ∀ access, call ≠ .send access) : (h.after call).accepted = h.accepted := by
  cases call with
  | send access => exact absurd rfl (quiet access)
  | load =>
    rw [after]
    split <;> rfl
  | atomic | runUntil | runUntilIdle | poll | take | takeRetry => rfl

theorem Standing.line_immediate {call : HostCall} (standing : h.Standing)
    (immediate : call.immediate = true) (quiet : ∀ access, call ≠ .send access) :
    (h.after call).system.line = h.system.line := by
  have reaches : h.Reaches false (h.after call) := standing.after call nofun
  obtain ⟨m, found⟩ := reaches.standing.exists_memory
  exact Simulation.line_of_sameHold found (standing.sameHold_immediate immediate quiet found)

theorem MemoryServes.step (serves : h.MemoryServes) (standing : h.Standing)
    (tuned : h.system.Tuned) (housed : h.system.Housed) (step : h.Step h') : h'.MemoryServes := by
  have config := (standing.step step).config
  cases step with
  | fires fires => exact serves.fires standing tuned housed fires
  | waits le ahead => exact serves.waits standing le ahead
  | @calls call immediate =>
    by_cases sends : ∃ access, call = .send access
    · obtain ⟨access, rfl⟩ := sends
      exact serves.send standing tuned access
    · have quiet (access : Access) : call ≠ .send access := fun eq => sends ⟨access, eq⟩
      have now := now_immediate (h := h) immediate
      exact serves.unchanged config (memoryGrants_congr config (h.accepted_of_quiet quiet))
        (standing.line_immediate immediate quiet) (Nat.le_of_eq now.symm)
        (fun _ _ _ => now ▸ Nat.le_max_right ..)
        fun c mem _ => produced_immediate immediate mem

theorem memoryServes_start (created : Simulation.create machine config = .ok s) :
    (start s).MemoryServes := by
  obtain ⟨m, found⟩ := (standing_start created).exists_memory
  have empty : s.line = [] := (Simulation.line_of_stage found).trans <|
    (Simulation.fresh_create created).forall_stage (P := fun stage => stage.homebound = [])
      rfl rfl rfl (fun _ => rfl) found
  have produced : (start s).produced = [] := (Simulation.fresh_create created).completions
  refine ⟨⟨[], [], rfl, ?_, nofun, nofun⟩, fun c mem => ?_⟩
  · exact empty ▸ .nil
  · rw [produced] at mem
    cases mem

theorem Reachable.memoryServes (reachable : Reachable config h) : h.MemoryServes := by
  obtain ⟨_, s, created, steps⟩ := reachable.steps
  have opening : (Session.start s).MemoryServes ∧ s.Tuned ∧ s.Housed :=
    ⟨memoryServes_start created, Simulation.tuned_create created,
      (Simulation.fresh_create created).housed⟩
  have kept : h.MemoryServes ∧ h.system.Tuned ∧ h.system.Housed := by
    refine steps.keeps (P := fun h => h.MemoryServes ∧ h.system.Tuned ∧ h.system.Housed)
      (standing_start created) opening ?_
    rintro h h' standing ⟨serves, tuned, housed⟩ step
    exact ⟨serves.step standing tuned housed step, lasts_tuned.step standing tuned step,
      (standing.step step).housed housed⟩
  exact kept.1

/-- An access without queueing that is led to system memory is performed there. -/
theorem Standing.accessAtomic_memory {access : Access} {n : Interconnect} (standing : h.Standing)
    (tuned : h.system.Tuned) (check : h.system.window.check access.request = .ok ())
    (routed : h.system.fabric.interconnect.route access.request.addr access.request.size =
      (some 0, n)) :
    ∃ q after, h.system.accessAtomic access.request = (.ok (.ofResponse q (h.system.now +
        h.system.config.memoryAccessLatency ⟨h.system.nextId, access, h.system.now⟩)), after) ∧
      q.transaction = Grant.transaction ⟨h.system.nextId, access, h.system.now⟩ := by
  obtain ⟨lastHit, rfl⟩ : ∃ lastHit, n = { h.system.fabric.interconnect with lastHit } :=
    ⟨_, Interconnect.eq_of_route routed⟩
  -- The number and the remembered route are of no account to the walk.
  let start : Simulation := { h.system.remembering lastHit with nextId := h.system.nextId + 1 }
  let grant : Grant := ⟨h.system.nextId, access, h.system.now⟩
  obtain ⟨m, found⟩ := standing.exists_memory
  have stands : start.fabric.stage? 0 = some (.memory m) := found
  have inside : m.range.containsAccess grant.packet.addr grant.packet.size = true := by
    obtain ⟨stage, found', -, serves, -⟩ := standing.entered routed
    cases found.symm.trans found'
    rw [grant.addr_packet, grant.size_packet]
    exact serves
  obtain ⟨fuel, length⟩ : ∃ fuel, h.system.fabric.nodes.length = fuel + 1 := by
    obtain ⟨node, first, -⟩ := Fabric.stage?_eq_some.1 found
    exact Nat.exists_eq_add_one.2 (List.getElem?_eq_some_iff.1 first).1
  obtain ⟨q, after, walked, response⟩ := Simulation.walkAtomic_memory stands inside fuel
    (start.fabric.interconnect.transitTime grant.packet.payload)
  obtain ⟨transaction, payload⟩ := SystemMemory.response_of_bare grant.bare_packet response
  have transit (bytes : Nat) :
      start.fabric.interconnect.transitTime bytes = h.system.config.transit bytes :=
    tuned.transit bytes
  have total : start.fabric.interconnect.transitTime grant.packet.payload + m.latency +
      start.fabric.interconnect.transitTime q.payload =
        h.system.config.memoryAccessLatency grant := by
    rw [transit, transit, payload, standing.memory_latency found,
      ResolvedConfig.memoryAccessLatency]
  rw [← length] at walked
  refine ⟨q, after, ?_, transaction⟩
  rw [Simulation.accessAtomic_of_walk check routed walked, ← total]
  rfl

theorem Standing.latency_atomic (standing : h.Standing) (tuned : h.system.Tuned) {access : Access}
    {c : Completion} (performed : (h.system.accessAtomic access.request).1 = .ok c)
    (inside : h.system.config.system.memoryRange.contains access.request.addr = true) :
    c.latency = h.system.config.memoryAccessLatency ⟨h.system.nextId, access, h.system.now⟩ := by
  cases check : h.system.window.check access.request with
  | error e =>
    simp only [Simulation.accessAtomic, check] at performed
    cases performed
  | ok =>
    cases routed : h.system.fabric.interconnect.route access.request.addr access.request.size with
    | mk target n =>
      cases target with
      | none =>
        simp only [Simulation.accessAtomic, check, routed] at performed
        cases performed
      | some target =>
        obtain ⟨stage, -, -, -, ⟨rfl, -, -⟩ | ⟨-, other⟩⟩ := standing.entered routed
        · obtain ⟨q, after, eq, same⟩ := standing.accessAtomic_memory tuned check routed
          rw [eq] at performed
          cases performed
          have issued : q.issued = h.system.now := congrArg Transaction.issued same
          rw [Completion.latency, Completion.ofResponse, issued, Nat.add_sub_cancel_left]
        · cases (AddressRange.not_containsAccess_of_apart standing.valid.disjoint inside).symm.trans
            other

/-- System memory answers in the order in which it took the accesses, and holds back no access for
any other reason. -/
structure AnswersInOrder (h : Session) : Prop where
  /-- The accesses up to a completed one must have reached the memory before it is answered, and the
  latency is the fixed one if none of them reached it later. -/
  completed : ∀ c ∈ h.produced,
    h.system.config.system.memoryRange.contains c.addr = true →
    ∃ before g after, h.memoryGrants = before ++ g :: after ∧ c.transaction = g.transaction ∧
      c.completed = h.system.config.latestArrival (before ++ [g]) +
        h.system.config.system.memoryLatency +
          h.system.config.transit (g.packet.respond []).payload ∧
      (c.latency = h.system.config.memoryAccessLatency g ↔
        ∀ w ∈ before, h.system.config.arrival w ≤ h.system.config.arrival g)
  performed : ∀ access c, (h.system.accessAtomic access.request).1 = .ok c →
    h.system.config.system.memoryRange.contains access.request.addr = true →
    c.latency = h.system.config.memoryAccessLatency ⟨h.system.nextId, access, h.system.now⟩
  /-- System memory has room for any number of responses, and refuses nothing. -/
  unlimited : ∀ id m, h.system.fabric.stage? id = some (.memory m) →
    m.responses.capacity = none ∧ ∀ now p back, (m.recvRequest now p).answer ≠ .busy back

/-- System memory serves its accesses in line, whatever else is under way. -/
theorem served_in_line (reachable : Reachable config h) : h.AnswersInOrder where
  completed c mem inside := by
    obtain ⟨before, g, after, split, same, completed⟩ := reachable.memoryServes.served c mem inside
    refine ⟨before, g, after, split, same, completed, ?_⟩
    have issued : c.issued = g.issued := congrArg Transaction.issued same
    rw [← ResolvedConfig.latestArrival_append_eq_iff, Completion.latency, completed, issued,
      ResolvedConfig.memoryAccessLatency, ResolvedConfig.arrival]
    have arrives : h.system.config.arrival g ≤ h.system.config.latestArrival (before ++ [g]) :=
      ResolvedConfig.arrival_le_latestArrival
        (List.mem_append_right before (List.mem_singleton_self g))
    rw [ResolvedConfig.arrival] at arrives
    grind
  performed access c performed inside :=
    reachable.standing.latency_atomic reachable.tuned performed inside
  unlimited id m found :=
    have sound := reachable.standing.attended.sound id _ found
    ⟨sound.unbounded, SystemMemory.recvRequest_ne_busy sound⟩

/-- Two reads that reach system memory one behind the other. -/
theorem answers_in_order_reads : ∃ s, Simulation.create .standard {} = .ok s ∧
    ((start s).run [.send (.read 0 64), .send (.read 64 64), .runUntilIdle]).produced.map
      (fun c => c.latency) = [39000, 39000] ∧
    ((start s).run [.send (.read 0 64), .send (.read 64 64), .runUntilIdle]).AnswersInOrder :=
  ⟨_, rfl, by decide +kernel,
    served_in_line (.run (.start (show Simulation.create .standard {} = _ from rfl)) _)⟩

/-- A write of 64 bytes takes longer to system memory than a read behind it, which is to wait for
the response to the write. -/
def readBehindWrite : List HostCall :=
  [.send (.write 0 (List.replicate 64 0x5a)), .send (.read 0 64), .runUntilIdle]

/-- The latency of system memory is not the same whatever else is under way. -/
theorem read_waits_for_write : ∃ s, Simulation.create .standard {} = .ok s ∧
    ((start s).run readBehindWrite).produced.map (fun c => c.latency) = [39000, 42000] ∧
    s.config.memoryAccessLatency ⟨1, .read 0 64, 0⟩ = 39000 ∧
    ¬ ∀ c ∈ ((start s).run readBehindWrite).produced,
      s.config.system.memoryRange.contains c.addr = true →
      ∃ g ∈ ((start s).run readBehindWrite).accepted, c.transaction = g.transaction ∧
        c.latency = s.config.memoryAccessLatency g :=
  ⟨_, rfl, by decide +kernel, by decide +kernel, by decide +kernel⟩

end Session

end Expander
