import Expander.Proofs.Agreement
import Expander.Proofs.Capacity
import Expander.Proofs.Course
import Expander.Proofs.Stage.Room

/-!
Retries that the host can rely on.

A patient host sends nothing to the expander between a refusal and the retry for it. In its sessions
the retry is reported only when the front of the expander has room, and nothing but a request to the
expander takes the room away; so what was refused is then accepted (`taken_after_retry`). Whatever
happens that is not such a request, the front relents: an event moves a packet on from it or a
response through it, and the host is told to retry just if the front redeems its promise
(`Simulation.Eases`).
-/

set_option autoImplicit false

namespace Expander

theorem Stage.relents_told {now : Tick} {old new : Stage} (told : old.Told now new) :
    old.Relents False new := by
  induction told with
  | still => exact .refl old
  | @request middle _ ih => exact (ih.trans (middle.relents_recvRequestRetry now)).mono .inl
  | @response middle _ ih => exact (ih.trans (middle.relents_recvResponseRetry now)).mono .inl

namespace Simulation

def Relents (i : ComponentId) (told : Prop) (s s' : Simulation) : Prop :=
  ∀ stage, s.fabric.stage? i = some stage → ∃ stage', s'.fabric.stage? i = some stage' ∧
    stage.Relents told stage'

def Eases (i : ComponentId) (s s' : Simulation) : Prop :=
  s.Relents i (s'.hostRetry = true ∧ s.hostRetry = false) s'

def TellsHost (s : Simulation) (pending : List (ComponentId × Action)) : Prop :=
  ∃ j, (j, .retryRequest) ∈ pending ∧ s.fabric.hostSide? j = some .host

/-- The front of the expander sends requests on. -/
structure Fronted (s : Simulation) (expander : AddressRange) (i : ComponentId) : Prop where
  chained : Chained s.fabric.sites expander
  faced : s.fabric.hostSide? i = some .host
  pos : 0 < i
  forwards : ∀ stage, s.fabric.stage? i = some stage → stage.view.frame.forwards = true

variable {s s' s'' after : Simulation} {i j id : ComponentId} {old new : Stage} {kind : EventKind}
  {pending : List (ComponentId × Action)} {expander : AddressRange} {told told' : Prop}

theorem relents_of_stage (same : s'.fabric.stage? i = s.fabric.stage? i) : s.Relents i False s' :=
  fun stage found => ⟨stage, same.trans found, .refl stage⟩

theorem Relents.mono (h : s.Relents i told s') (sub : told' → told) : s.Relents i told' s' :=
  fun stage found => (h stage found).imp fun _ relents => ⟨relents.1, relents.2.mono sub⟩

theorem Relents.trans (first : s.Relents i told s') (second : s'.Relents i told' s'') :
    s.Relents i (told ∨ told') s'' := by
  intro stage found
  obtain ⟨stage', found', relents⟩ := first stage found
  obtain ⟨stage'', found'', relents'⟩ := second stage' found'
  exact ⟨stage'', found'', relents.trans relents'⟩

theorem not_tellsHost_nil : ¬ s.TellsHost [] := by
  rintro ⟨j, mem, -⟩
  cases mem

theorem relents_setStage (found : s.fabric.stage? id = some old) (relents : old.Relents told new) :
    s.Relents i (i = id ∧ told) (s.setStage id new) := by
  intro stage at_i
  by_cases same : i = id
  · subst same
    cases at_i.symm.trans found
    exact ⟨new, Fabric.stage?_setStage_self found, relents.mono And.right⟩
  · exact ⟨stage, (Fabric.stage?_setStage_ne same).trans at_i,
      (Stage.Relents.refl stage).mono fun both => same both.1⟩

theorem eases_of_stage (same : s'.fabric.stage? i = s.fabric.stage? i)
    (hostRetry : s'.hostRetry = true → s.hostRetry = true) : s.Eases i s' :=
  (relents_of_stage same).mono fun both => absurd (both.2.symm.trans (hostRetry both.1)) nofun

theorem Eases.trans (first : s.Eases i s') (second : s'.Eases i s'') : s.Eases i s'' := by
  refine (Relents.trans first second).mono ?_
  rintro ⟨retry, none⟩
  cases between : s'.hostRetry with
  | true => exact .inl ⟨rfl, none⟩
  | false => exact .inr ⟨retry, rfl⟩

theorem hostRetry_wakes (s : Simulation) (id : ComponentId) (wakes : List Wakeup) :
    (wakes.foldl (fun s w => s.wake id w) s).hostRetry = s.hostRetry := by
  induction wakes generalizing s with
  | nil => rfl
  | cons w rest ih => exact ih (s.wake id w)

theorem hostRetry_retryRequest (s : Simulation) (id : ComponentId) :
    (s.retryRequest id).hostRetry = s.hostRetry := by
  rw [retryRequest]
  split
  · rfl
  · exact hostRetry_wakes ..

theorem hostRetry_retryResponse (s : Simulation) (id : ComponentId) :
    (s.retryResponse id).hostRetry = s.hostRetry := by
  rw [retryResponse]
  split
  · rfl
  · exact hostRetry_wakes ..

theorem hostRetry_perform (s : Simulation) (j : ComponentId) (action : Action)
    (told : (s.perform j action).hostRetry = true) :
    s.hostRetry = true ∨ action = .retryRequest ∧ s.fabric.hostSide? j = some .host := by
  cases action with
  | wake w => exact .inl told
  | retryRequest =>
    rw [perform] at told
    split at told
    next => exact .inl told
    next host => exact .inr ⟨rfl, host⟩
    next up before => exact .inl (hostRetry_retryRequest s up ▸ told)
  | retryResponse =>
    rw [perform] at told
    split at told
    next => exact .inl told
    next down behind => exact .inl (hostRetry_retryResponse s down ▸ told)

theorem hostRetry_performActions (s : Simulation) (pending : List (ComponentId × Action))
    (told : (s.performActions pending).hostRetry = true) :
    s.hostRetry = true ∨ s.TellsHost pending := by
  induction pending generalizing s with
  | nil => exact .inl told
  | cons request rest ih =>
    rcases ih (s.perform request.1 request.2) told with retry | ⟨j, mem, host⟩
    · rcases hostRetry_perform s request.1 request.2 retry with retry | ⟨eq, host⟩
      · exact .inl retry
      · exact .inr ⟨request.1, eq ▸ List.mem_cons_self, host⟩
    · have sites := (sameBooks_perform s request.1 request.2).sites
      rw [Fabric.hostSide?_congr sites] at host
      exact .inr ⟨j, List.mem_cons_of_mem _ mem, host⟩

theorem relents_performActions (s : Simulation) (i : ComponentId)
    (pending : List (ComponentId × Action)) : s.Relents i False (s.performActions pending) := by
  intro stage found
  obtain ⟨stage', found'⟩ : ∃ stage', (s.performActions pending).fabric.stage? i = some stage' := by
    obtain ⟨node, at_i, -⟩ := Fabric.stage?_eq_some.1 found
    have site := Fabric.site_eq_some.2 ⟨node, at_i, rfl⟩
    rw [← (sameBooks_performActions s pending).sites] at site
    exact Fabric.exists_stage site
  obtain ⟨before, stands, told⟩ := told_performActions pending found'
  cases found.symm.trans stands
  exact ⟨stage', found', Stage.relents_told told⟩

theorem Fronted.alone (fronted : s.Fronted expander i) (host : s.fabric.hostSide? j = some .host) :
    j = 0 ∨ j = i := by
  have last {k : ComponentId} (host : s.fabric.hostSide? k = some .host) :
      k = 0 ∨ k + 1 = s.fabric.sites.length := by
    obtain ⟨stage, found⟩ := Fabric.exists_of_hostSide? host
    exact (Fabric.placed_stage fronted.chained found).host.1 host
  rcases last host with first | last'
  · exact .inl first
  · rcases last fronted.faced with first | last
    · exact absurd first (Nat.ne_of_gt fronted.pos)
    · exact .inr (Nat.succ.inj (last'.trans last.symm))

theorem Fronted.behind {down : ComponentId} (fronted : s.Fronted expander i)
    (behind : s.fabric.memorySide? id = some down) : i ≠ down ∧ id ≠ down ∧ id ≠ 0 := by
  obtain ⟨rfl, -, before, -⟩ := Fabric.stage_behind fronted.chained behind
  refine ⟨?_, Nat.succ_ne_self down, Nat.succ_ne_zero down⟩
  rintro rfl
  cases before.symm.trans fronted.faced

theorem Fronted.before {up : ComponentId} (fronted : s.Fronted expander i)
    (before : s.fabric.hostSide? id = some (.component up)) : i ≠ id := by
  rintro rfl
  cases before.symm.trans fronted.faced

/-- The front relents with every move, and the host is told to retry just if it redeems its
promise. -/
theorem Moved.relents (fronted : s.Fronted expander i) (moves : s.Moved id kind after pending) :
    s.Relents i (s.TellsHost pending) after := by
  cases moves with
  | idle => exact (relents_of_stage rfl).mono not_tellsHost_nil
  | @request down upper taken lower answered p actions behind hupper hlower took reply =>
    obtain ⟨apart, ne, pos⟩ := fronted.behind behind
    have first : s.Relents i False (s.setStage down answered) :=
      relents_of_stage (Fabric.stage?_setStage_ne apart)
    have second := relents_setStage (s := s.setStage down answered) (i := i)
      ((Fabric.stage?_setStage_ne ne).trans hupper) (Stage.relents_requestSent took)
    refine (first.trans second).mono ?_
    rintro ⟨j, mem, host⟩
    rcases List.mem_append.1 mem with mem | mem
    · have wakes : OnlyWakes actions := by
        have all := Stage.onlyWakes_recvRequest lower s.now (p.arriveAt down s.now)
        rwa [reply] at all
      exact absurd (mem_asked.1 mem).2 wakes.retryRequest_not_mem
    · obtain ⟨rfl, told⟩ := mem_asked.1 mem
      rcases fronted.alone host with first | same
      · exact absurd first pos
      · exact .inr ⟨same.symm, told⟩
  | @requestBack down upper taken lower refused p behind hupper hlower took reply denies =>
    obtain ⟨apart, ne, -⟩ := fronted.behind behind
    have first : s.Relents i False (s.setStage down refused) :=
      relents_of_stage (Fabric.stage?_setStage_ne apart)
    have second := relents_setStage (s := s.setStage down refused) (i := i)
      ((Fabric.stage?_setStage_ne ne).trans hupper) (Stage.relents_requestRefused took)
    exact (first.trans second).mono fun told => absurd told not_tellsHost_nil
  | @response up lower taken upper answered p actions before hlower hupper took reply =>
    have first := relents_setStage (i := i) hupper (Stage.relents_recvResponse reply)
    have second : (s.setStage up answered).Relents i False
        ((s.setStage up answered).setStage id (taken.responseSent s.now).1) :=
      relents_of_stage (Fabric.stage?_setStage_ne (fronted.before before))
    refine (first.trans second).mono ?_
    rintro ⟨j, mem, host⟩
    rcases List.mem_append.1 mem with mem | mem
    · have wakes : OnlyWakes actions := by
        have all := Stage.onlyWakes_recvResponse upper s.now p
        rwa [reply] at all
      exact absurd (mem_asked.1 mem).2 wakes.retryRequest_not_mem
    · obtain ⟨rfl, -⟩ := mem_asked.1 mem
      cases before.symm.trans host
  | @responseBack up lower taken upper refused p before hlower hupper took reply denies =>
    have first := relents_setStage (i := i) hupper (Stage.relents_recvResponse reply)
    have second : (s.setStage up refused).Relents i False
        ((s.setStage up refused).setStage id (taken.responseRefused s.now p)) :=
      relents_of_stage (Fabric.stage?_setStage_ne (fronted.before before))
    exact (first.trans second).mono fun told => absurd told not_tellsHost_nil
  | @completed lower taken p host hlower took =>
    rcases fronted.alone host with rfl | rfl
    · obtain ⟨m, rfl⟩ := Fabric.memory_of_first fronted.chained hlower
      refine (relents_of_stage (Fabric.stage?_setStage_ne (Nat.ne_of_gt fronted.pos))).mono ?_
      rintro ⟨j, mem, -⟩
      obtain ⟨⟨q, m'⟩, some, eq⟩ := Option.map_eq_some_iff.1 took
      cases eq
      exact absurd (mem_asked.1 mem).2 (OnlyWakes.map_wake _).retryRequest_not_mem
    · have sent := relents_setStage (s := s.complete p) (i := id) hlower
        (Stage.relents_responseSent (fronted.forwards _ hlower) took)
      refine Relents.mono sent ?_
      rintro ⟨j, mem, -⟩
      exact ⟨rfl, (mem_asked.1 mem).2⟩
  | @processed stage found =>
    by_cases same : i = id
    · subst same
      have eq := Stage.process_of_forwards (fronted.forwards _ found) s.now
      rw [eq]
      exact (relents_setStage found (.refl stage)).mono fun told => absurd told not_tellsHost_nil
    · refine (relents_of_stage (Fabric.stage?_setStage_ne same)).mono ?_
      rintro ⟨j, mem, host⟩
      obtain ⟨rfl, told⟩ := mem_asked.1 mem
      rcases fronted.alone host with rfl | same'
      · obtain ⟨m, rfl⟩ := Fabric.memory_of_first fronted.chained found
        cases told
      · exact same same'.symm

theorem eases_load {addr : Nat} {data : List UInt8} (i : ComponentId)
    (loaded : s.load addr data = .ok s') : s.Eases i s' := by
  obtain ⟨id, stage, store, found, rfl⟩ := load_eq_ok loaded
  refine (relents_setStage found (stage.relents_withStore store)).mono ?_
  rintro ⟨retry, none⟩
  cases none.symm.trans retry

theorem Moved.hostRetry (moves : s.Moved id kind after pending) :
    after.hostRetry = s.hostRetry := by
  cases moves <;> rfl

theorem Moved.hostSide? (moves : s.Moved id kind after pending) (j : ComponentId) :
    after.fabric.hostSide? j = s.fabric.hostSide? j := by
  cases moves <;> simp [Simulation.setStage, Simulation.complete]

end Simulation

theorem Config.resolve_topology {config : Config} {c : ResolvedConfig}
    (resolved : config.resolve = .ok c) : c.topology = config.topology := by
  rw [Config.resolve] at resolved
  obtain ⟨⟨⟩, -, resolved⟩ := bind_eq_ok.1 resolved
  obtain ⟨⟨⟩, -, resolved⟩ := bind_eq_ok.1 resolved
  obtain ⟨⟨⟩, -, resolved⟩ := bind_eq_ok.1 resolved
  obtain ⟨controller, -, resolved⟩ := bind_eq_ok.1 resolved
  simp only at resolved
  split at resolved
  · obtain ⟨⟨⟩, impossible, -⟩ := bind_eq_ok.1 resolved
    cases impossible
  obtain ⟨⟨⟩, -, resolved⟩ := bind_eq_ok.1 resolved
  split at resolved
  · obtain ⟨bridge, -, resolved⟩ := bind_eq_ok.1 resolved
    cases resolved
    rfl
  · cases resolved
    rfl

theorem Simulation.topology_create {machine : Machine} {config : Config} {s : Simulation}
    (created : create machine config = .ok s) : s.config.topology = config.topology :=
  Config.resolve_topology (resolve_of_create created)

theorem ResolvedConfig.front_site {c : ResolvedConfig} (relays : c.topology ≠ .controller) :
    0 < c.front ∧ ∃ site, c.sites[c.front]? = some site ∧ site.hostSide = some .host ∧
      site.frame.forwards = true := by
  rw [front, sites]
  cases topology : c.topology with
  | controller => exact absurd topology relays
  | bridged | direct => cases c.bridge <;> exact ⟨Nat.succ_pos _, _, rfl, rfl, rfl⟩

def HostCall.enters (range : AddressRange) : HostCall → Bool
  | send access => range.containsAccess access.request.addr access.request.size
  | atomic _ | runUntil _ | runUntilIdle | poll | take | takeRetry | load .. => false

namespace Session

variable {h h' : Session} {s : Simulation} {machine : Machine} {config : Config} {stage : Stage}

abbrev front (h : Session) : ComponentId := h.system.config.front

def Patient : Session → List HostCall → Prop
  | _, [] => True
  | h, call :: rest =>
    (h.unanswered = true → call.enters h.expander = false) ∧ Patient (h.after call) rest

theorem Standing.fronted (standing : h.Standing)
    (relays : h.system.config.topology ≠ .controller) :
    h.system.Fronted h.expander h.front := by
  obtain ⟨pos, site, at_front, host, forwards⟩ := ResolvedConfig.front_site relays
  refine ⟨standing.chained, ?_, pos, fun stage found => ?_⟩
  · rw [← standing.sites] at at_front
    exact (Fabric.hostSide?_of_site at_front).1.trans host
  · cases (standing.site found).symm.trans at_front
    exact forwards

theorem Standing.exists_front (standing : h.Standing)
    (relays : h.system.config.topology ≠ .controller) :
    ∃ stage, h.system.fabric.stage? h.front = some stage :=
  Fabric.exists_of_hostSide? (standing.fronted relays).faced

theorem Standing.eases_fires (standing : h.Standing)
    (relays : h.system.config.topology ≠ .controller) (fires : h.system.Fires s) :
    h.system.Eases h.front s := by
  obtain ⟨e, others, moved, pending, -, moves, rfl⟩ := standing.moved fires
  obtain ⟨chained, faced, pos, forwards⟩ := standing.fronted relays
  have fronted : (h.system.popped e others).Fronted h.expander h.front :=
    ⟨chained, faced, pos, forwards⟩
  have later := Simulation.relents_performActions moved h.front pending
  refine Simulation.Relents.mono ((moves.relents fronted).trans later) ?_
  rintro ⟨retry, none⟩
  rcases Simulation.hostRetry_performActions moved pending retry with retry | ⟨j, mem, host⟩
  · cases none.symm.trans (moves.hostRetry.symm.trans retry)
  · exact .inl ⟨j, mem, (moves.hostSide? j).symm.trans host⟩

theorem Standing.eases_advance (standing : h.Standing)
    (relays : h.system.config.topology ≠ .controller) (advance : h.Advance h') :
    h.system.Eases h.front h'.system := by
  cases advance with
  | fires fires => exact standing.eases_fires relays fires
  | waits | takes => exact Simulation.eases_of_stage rfl id

theorem Standing.eases_advances (standing : h.Standing)
    (relays : h.system.config.topology ≠ .controller) (advances : h.Advances h') :
    h.system.Eases h.front h'.system := by
  induction advances with
  | refl => exact Simulation.eases_of_stage rfl id
  | tail before advance ih =>
    have reached := standing.steps (Advances.steps before)
    have eases := reached.standing.eases_advance (reached.config ▸ relays) advance
    rw [front, reached.config] at eases
    exact ih.trans eases

/-- A request that is sent lets the front relent, unless it enters the expander. There the front
makes a promise only if it refuses the request. -/
theorem Standing.eases_send (standing : h.Standing)
    (relays : h.system.config.topology ≠ .controller) (access : Access) :
    (h.system.Eases h.front (h.after (.send access)).system ∧
      (h.after (.send access)).unanswered = h.unanswered) ∨
    (HostCall.enters h.expander (.send access) = true ∧
      (h.after (.send access)).system.hostRetry = h.system.hostRetry ∧
      ∃ stage stage', h.system.fabric.stage? h.front = some stage ∧
        (h.after (.send access)).system.fabric.stage? h.front = some stage' ∧
        (stage.Bounded → stage'.Bounded) ∧
        ((h.after (.send access)).unanswered = true ∨
          stage'.view.owesRequest = stage.view.owesRequest ∧
            (h.after (.send access)).unanswered = h.unanswered)) := by
  have fronted := standing.fronted relays
  have offers := standing.offers access
  rw [Session.after]
  generalize h.system.sendRequest access.request = outcome at offers
  cases offers with
  | rejected lastHit => exact .inl ⟨Simulation.eases_of_stage rfl id, rfl⟩
  | @refused target stage denied lastHit rejection faced found leads reply denies =>
    rcases leads with ⟨rfl, -⟩ | ⟨pos, inside⟩
    · obtain ⟨m, rfl⟩ := Fabric.memory_of_first fronted.chained found
      cases denies
    · obtain rfl : target = h.front := (fronted.alone faced).resolve_left (Nat.ne_of_gt pos)
      exact .inr ⟨inside, rfl, stage, denied, found, Fabric.stage?_setStage_self found,
        denies.bounded, .inl rfl⟩
  | @accepted target stage answered actions lastHit rejection faced found leads reply =>
    have wakes : OnlyWakes actions := by
      have all := Stage.onlyWakes_recvRequest stage h.system.now (h.system.offered access target)
      rwa [reply] at all
    obtain ⟨events, eq, -⟩ := Simulation.performActions_wakes wakes
      (Simulation.setStage { h.system.remembering lastHit with
        nextId := h.system.nextId + 1
        host := { h.system.host with issued := h.system.host.issued + 1 } } target answered) target
    rw [eq]
    rcases leads with ⟨rfl, -⟩ | ⟨pos, inside⟩
    · exact .inl ⟨Simulation.eases_of_stage
        (Fabric.stage?_setStage_ne (Nat.ne_of_gt fronted.pos)) id, rfl⟩
    · obtain rfl : target = h.front := (fronted.alone faced).resolve_left (Nat.ne_of_gt pos)
      obtain ⟨owes, bounded⟩ := Stage.owes_recvRequest (fronted.forwards stage found) reply
      exact .inr ⟨inside, rfl, stage, answered, found, Fabric.stage?_setStage_self found,
        fun _ => bounded, .inr ⟨owes, rfl⟩⟩

theorem Standing.eases_atomic (standing : h.Standing)
    (relays : h.system.config.topology ≠ .controller) (access : Access) :
    h.system.Eases h.front (h.system.accessAtomic access.request).2 := by
  have performed := standing.performed access
  generalize h.system.accessAtomic access.request = outcome at performed
  cases performed with
  | rejected lastHit => exact Simulation.eases_of_stage rfl id
  | @performed id range holder q _ lastHit rejection found held =>
    have ne : h.front ≠ id := by
      rintro rfl
      have forwards := (standing.fronted relays).forwards holder found
      cases holder with
      | bridge | device => cases held
      | controller | memory => cases forwards
    exact Simulation.eases_of_stage (Fabric.stage?_setStage_ne ne) fun told => told

theorem Standing.eases_after {call : HostCall} (standing : h.Standing)
    (relays : h.system.config.topology ≠ .controller)
    (apart : call.enters h.expander = false) :
    h.system.Eases h.front (h.after call).system ∧
      (call ≠ .takeRetry → (h.after call).unanswered = h.unanswered) := by
  cases call with
  | send access =>
    rcases standing.eases_send relays access with ⟨eases, same⟩ | ⟨inside, -⟩
    · exact ⟨eases, fun _ => same⟩
    · cases apart.symm.trans inside
  | atomic access => exact ⟨standing.eases_atomic relays access, fun _ => rfl⟩
  | runUntil | runUntilIdle | poll =>
    exact ⟨standing.eases_advances relays (standing.advances_after rfl), fun _ => rfl⟩
  | take => exact ⟨Simulation.eases_of_stage rfl id, fun _ => rfl⟩
  | takeRetry => exact ⟨Simulation.eases_of_stage rfl nofun, fun ne => absurd rfl ne⟩
  | load addr data =>
    rw [Session.after]
    split
    next loaded => exact ⟨Simulation.eases_load h.front loaded, fun _ => rfl⟩
    next => exact ⟨Simulation.eases_of_stage rfl id, fun _ => rfl⟩

/-- The front has promised a retry only to a host that waits for one; and when it has kept its
promise, it has room. -/
structure Faithful (h : Session) : Prop where
  bounded : ∀ stage, h.system.fabric.stage? h.front = some stage → stage.Bounded
  promised : ∀ stage, h.system.fabric.stage? h.front = some stage →
    stage.view.owesRequest = true → h.unanswered = true
  kept : h.system.hostRetry = true → h.unanswered = true ∧
    ∀ stage, h.system.fabric.stage? h.front = some stage →
      stage.view.owesRequest = false ∧ stage.HasRoom

theorem Faithful.eases (faithful : h.Faithful) (found : h.system.fabric.stage? h.front = some stage)
    (eases : h.system.Eases h.front h'.system) (config : h'.system.config = h.system.config)
    (unanswered : h'.unanswered = h.unanswered) : h'.Faithful := by
  obtain ⟨stage', found', relents⟩ := eases stage found
  have bounded := faithful.bounded stage found
  have only {other : Stage} (at_front : h'.system.fabric.stage? h'.front = some other) :
      other = stage' := by
    rw [front, config] at at_front
    exact Option.some.inj (at_front.symm.trans found')
  refine ⟨fun other at_front => ?_, fun other at_front owes => ?_, fun told => ?_⟩
  · rw [only at_front]
    exact relents.bounded bounded
  · rw [only at_front] at owes
    exact unanswered.trans (faithful.promised stage found (relents.owes owes))
  · rw [unanswered]
    cases before : h.system.hostRetry with
    | true =>
      obtain ⟨waits, all⟩ := faithful.kept before
      obtain ⟨free, room⟩ := all stage found
      refine ⟨waits, fun other at_front => ?_⟩
      rw [only at_front]
      exact ⟨Bool.eq_false_iff.2 fun owes => absurd (free.symm.trans (relents.owes owes)) nofun,
        relents.room room⟩
    | false =>
      obtain ⟨owed, free, room⟩ := relents.redeemed ⟨told, before⟩ bounded
      refine ⟨faithful.promised stage found owed, fun other at_front => ?_⟩
      rw [only at_front]
      exact ⟨free, room⟩

theorem Faithful.takeRetry (faithful : h.Faithful) : (h.after .takeRetry).Faithful := by
  refine ⟨faithful.bounded, fun stage found owes => ?_, nofun⟩
  have waits := faithful.promised stage found owes
  have untold : h.system.hostRetry = false := by
    by_contra told
    have free := ((faithful.kept (Bool.eq_true_of_not_eq_false told)).2 stage found).1
    cases free.symm.trans owes
  have answered : (h.after .takeRetry).unanswered = (h.unanswered && !h.system.hostRetry) := rfl
  rw [answered, waits, untold]
  rfl

/-- No call of a patient host makes the front break its word. -/
theorem Faithful.after {call : HostCall} (faithful : h.Faithful) (standing : h.Standing)
    (relays : h.system.config.topology ≠ .controller)
    (patient : h.unanswered = true → call.enters h.expander = false) :
    (h.after call).Faithful := by
  obtain ⟨stage, found⟩ := standing.exists_front relays
  have reaches : h.Reaches false (h.after call) := standing.after call nofun
  have config := reaches.config
  cases enters : call.enters h.expander with
  | false =>
    by_cases retry : call = .takeRetry
    · exact retry ▸ faithful.takeRetry
    · obtain ⟨eases, same⟩ := standing.eases_after relays enters
      exact faithful.eases found eases config (same retry)
  | true =>
    have answered : h.unanswered = false := by
      by_contra waits
      exact absurd ((patient (Bool.eq_true_of_not_eq_false waits)).symm.trans enters) nofun
    cases call with
    | send access =>
      rcases standing.eases_send relays access with ⟨eases, same⟩ |
        ⟨-, hostRetry, old, new, at_front, at_front', bounded, promises⟩
      · exact faithful.eases found eases config same
      have only {other : Stage} (found : (h.after (.send access)).system.fabric.stage?
          (h.after (.send access)).front = some other) : other = new := by
        rw [front, config] at found
        exact Option.some.inj (found.symm.trans at_front')
      refine ⟨fun other found => ?_, fun other found owes => ?_, fun told => ?_⟩
      · rw [only found]
        exact bounded (faithful.bounded old at_front)
      · rcases promises with refused | ⟨same, -⟩
        · exact refused
        · rw [only found, same] at owes
          cases answered.symm.trans (faithful.promised old at_front owes)
      · cases answered.symm.trans (faithful.kept (hostRetry ▸ told)).1
    | atomic | runUntil | runUntilIdle | poll | take | takeRetry | load => cases enters

theorem Standing.faithful_run (standing : h.Standing)
    (relays : h.system.config.topology ≠ .controller) (faithful : h.Faithful)
    (calls : List HostCall) (patient : h.Patient calls) : (h.run calls).Faithful := by
  induction calls generalizing h with
  | nil => exact faithful
  | cons call calls ih =>
    have reaches : h.Reaches false (h.after call) := standing.after call nofun
    exact ih reaches.standing (reaches.config ▸ relays)
      (faithful.after standing relays patient.1) patient.2

theorem Standing.eases_run (standing : h.Standing)
    (relays : h.system.config.topology ≠ .controller) (calls : List HostCall)
    (apart : ∀ call ∈ calls, call.enters h.expander = false) :
    h.system.Eases h.front (h.run calls).system := by
  induction calls generalizing h with
  | nil => exact Simulation.eases_of_stage rfl id
  | cons call calls ih =>
    have reaches : h.Reaches false (h.after call) := standing.after call nofun
    have first := (standing.eases_after relays (apart call List.mem_cons_self)).1
    have rest := ih reaches.standing (reaches.config ▸ relays) fun other mem => by
      rw [expander, reaches.config]
      exact apart other (List.mem_cons_of_mem call mem)
    rw [front, reaches.config] at rest
    exact first.trans rest

theorem Standing.patient (standing : h.Standing) (calls : List HostCall)
    (apart : ∀ call ∈ calls, call.enters h.expander = false) : h.Patient calls := by
  induction calls generalizing h with
  | nil => trivial
  | cons call calls ih =>
    have reaches : h.Reaches false (h.after call) := standing.after call nofun
    refine ⟨fun _ => apart call List.mem_cons_self, ih reaches.standing fun other mem => ?_⟩
    rw [expander, reaches.config]
    exact apart other (List.mem_cons_of_mem call mem)

theorem Faithful.room {waiting later : List HostCall} (faithful : h.Faithful)
    (standing : h.Standing) (relays : h.system.config.topology ≠ .controller)
    (apart : ∀ call ∈ waiting ++ later, call.enters h.expander = false)
    (told : (h.run waiting).system.takeRetry.1 = true) :
    ∃ stage, (h.run (waiting ++ .takeRetry :: later)).system.fabric.stage?
      (h.run (waiting ++ .takeRetry :: later)).front = some stage ∧ stage.HasRoom := by
  have waited : h.Reaches false (h.run waiting) := standing.run waiting nofun
  have all : h.Reaches false (h.run (waiting ++ .takeRetry :: later)) := standing.run _ nofun
  have relays' : (h.run waiting).system.config.topology ≠ .controller := waited.config ▸ relays
  have kept := standing.faithful_run relays faithful waiting
    (standing.patient waiting fun call mem => apart call (List.mem_append_left later mem))
  obtain ⟨stage, found⟩ := waited.standing.exists_front relays'
  have eases := waited.standing.eases_run relays' (.takeRetry :: later) fun call mem => by
    rw [expander, waited.config]
    rcases List.mem_cons.1 mem with rfl | mem
    · rfl
    · exact apart call (List.mem_append_right waiting mem)
  obtain ⟨stage', found', relents⟩ := eases stage found
  refine ⟨stage', ?_, relents.room ((kept.kept told).2 stage found).2⟩
  rw [front, all.config, run_append]
  rwa [front, waited.config] at found'

theorem faithful_start (created : Simulation.create machine config = .ok s) :
    (start s).Faithful := by
  have fresh := Simulation.fresh_create created
  have unused : ∀ stage, s.fabric.stage? s.config.front = some stage →
      stage.Bounded ∧ stage.view.owesRequest = false := fun stage found =>
    fresh.forall_stage (P := fun stage => stage.Bounded ∧ stage.view.owesRequest = false)
      ⟨trivial, rfl⟩ ⟨trivial, rfl⟩
      ⟨PacketQueue.bounded_empty _, rfl⟩ (fun _ => ⟨trivial, rfl⟩) found
  refine ⟨fun stage found => (unused stage found).1, fun stage found owes => ?_, fun told => ?_⟩
  · cases (unused stage found).2.symm.trans owes
  · cases fresh.hostRetry.symm.trans told

theorem Standing.accepts (standing : h.Standing)
    (relays : h.system.config.topology ≠ .controller)
    (found : h.system.fabric.stage? h.front = some stage) (room : stage.HasRoom) {access : Access}
    (unrejected : h.system.rejection? access.request = none) :
    ∃ id, (h.system.sendRequest access.request).1 = .ok (.accepted id) := by
  have fronted := standing.fronted relays
  have offers := standing.offers access
  generalize h.system.sendRequest access.request = outcome at offers ⊢
  cases offers with
  | rejected lastHit rejection => cases unrejected.symm.trans rejection
  | @refused target faced denied lastHit rejection host at_target leads reply denies =>
    rcases fronted.alone host with rfl | rfl
    · obtain ⟨m, rfl⟩ := Fabric.memory_of_first fronted.chained at_target
      cases denies
    · cases found.symm.trans at_target
      exact absurd reply room.not_denied
  | accepted lastHit => exact ⟨_, rfl⟩

theorem Standing.refused_eq {access : Access} {back : HostRequest} (standing : h.Standing)
    (refused : (h.system.sendRequest access.request).1 = .ok (.retry back)) :
    back = access.request ∧ h.system.rejection? access.request = none := by
  have offers := standing.offers access
  generalize h.system.sendRequest access.request = outcome at offers refused
  cases offers with
  | rejected | accepted => cases refused
  | refused lastHit rejection =>
    cases refused
    exact ⟨rfl, rejection⟩

theorem Reachable.entrance (reachable : Reachable config h)
    (created : Simulation.create machine config = .ok s) : h.system.entrance = s.entrance :=
  (lasts_entrance s.entrance).reachable
    (fun _ created' => by rw [Simulation.create_unique created created']) reachable

/-- A patient host that offers a refused request again after the retry gets it accepted, however
long it has waited; and the front of the expander owes a retry only while it has no room. -/
theorem taken_after_retry (created : Simulation.create machine config = .ok s)
    (relays : config.topology ≠ .controller) :
    (∀ before access back waiting later, (start s).Patient (before ++ [.send access]) →
      (((start s).run before).system.sendRequest access.request).1 = .ok (.retry back) →
      (∀ call ∈ waiting ++ later, call.enters s.config.device.range = false) →
      ((((start s).run before).after (.send access)).run waiting).system.takeRetry.1 = true →
      ∃ id, (((((start s).run before).after (.send access)).run
        (waiting ++ .takeRetry :: later)).system.sendRequest back).1 = .ok (.accepted id)) ∧
    ∀ h, Reachable config h →
      (∀ id b, h.system.fabric.stage? id = some (.bridge b) → b.retryOwed = true →
        b.requests.isFull = true ∨ b.config.responseDepth ≤ b.reserved) ∧
      ∀ id d, h.system.fabric.stage? id = some (.device d) → d.requestRetryOwed = true →
        d.requests.isFull = true := by
  constructor
  · intro before access back waiting later patient refused apart told
    rw [← Simulation.topology_create created] at relays
    have opened : Reachable config (start s) := .start created
    have first := opened.run before
    obtain ⟨rfl, unrejected⟩ := first.standing.refused_eq refused
    have second : Reachable config (((start s).run before).after (.send access)) :=
      .call (.send access) first
    have last := second.run (waiting ++ .takeRetry :: later)
    have faithful := opened.standing.faithful_run relays (faithful_start created) _ patient
    have asked : (start s).Reaches false ((start s).run (before ++ [.send access])) :=
      opened.standing.run _ (absurd · Bool.false_ne_true)
    have config := asked.config
    rw [run_append] at faithful config
    have relays' : (((start s).run before).after (.send access)).system.config.topology ≠
        .controller := config ▸ relays
    obtain ⟨stage, found, room⟩ := Faithful.room faithful second.standing relays'
      (fun call mem => by rw [expander]; exact config ▸ apart call mem) told
    refine last.standing.accepts ?_ found room ?_
    · have ended : (((start s).run before).after (.send access)).Reaches false
          ((((start s).run before).after (.send access)).run (waiting ++ .takeRetry :: later)) :=
        second.standing.run _ (absurd · Bool.false_ne_true)
      rwa [ended.config]
    · rw [← unrejected]
      exact Simulation.rejection?_congr
        ((last.entrance created).trans (first.entrance created).symm) _
  · intro h reachable
    have sound := reachable.standing.attended.sound
    refine ⟨fun id b found owed => ?_, fun id d found owed => ?_⟩
    · have bridge : b.Sound := sound id _ found
      exact Bridge.hasRoom_eq_false_iff.1 (bridge.owed owed)
    · have device : d.Sound := sound id _ found
      exact device.requestOwed owed

def narrowBridge : Config where
  bridge := { requestDepth := 1 }

/-- The second of two reads is refused, and accepted when it is sent again much later than the
retry. -/
theorem taken_after_retry_read : ∃ s, Simulation.create .standard narrowBridge = .ok s ∧
    narrowBridge.topology ≠ .controller ∧
    (((start s).run [.send (.read 0x100000000 64)]).system.sendRequest
      (.read 0x100000040 64)).1 = .ok (.retry (.read 0x100000040 64)) ∧
    ∃ id, (((((start s).run [.send (.read 0x100000000 64)]).after
      (.send (.read 0x100000040 64))).run
        ([.runUntil 100000] ++ .takeRetry :: [.runUntil 900000])).system.sendRequest
          (.read 0x100000040 64)).1 = .ok (.accepted id) := by
  have taken := (taken_after_retry (show Simulation.create .standard narrowBridge = .ok _ from rfl)
    (by decide)).1 [.send (.read 0x100000000 64)] (.read 0x100000040 64) (.read 0x100000040 64)
    [.runUntil 100000] [.runUntil 900000] ⟨nofun, fun waits => absurd waits (by decide +kernel),
      trivial⟩ (by decide +kernel) (by decide +kernel) (by decide +kernel)
  exact ⟨_, rfl, by decide, by decide +kernel, taken⟩

end Session

end Expander
