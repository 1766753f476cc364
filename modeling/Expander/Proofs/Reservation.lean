import Expander.Proofs.Buffering
import Expander.Proofs.Reachability

/-!
The responses that a bridge reserves room for.

A bridge takes a request only if it can reserve room for the response, and gives the room free when
the response is sent. In between the packet waits in the bridge, is held by a port, or is at the
peer towards the memory; that peer answers what it was handed, each packet once at most. So what is
reserved is never less than what both queues hold, and an offered response always finds room
(`Transit.Reserves`). In a created system the stages behind the bridge are such a peer.
-/

set_option autoImplicit false

namespace Expander

theorem Bridge.recvResponse_accepted {b : Bridge} (room : b.responses.isFull = false) (now : Tick)
    (p : Packet) : (b.recvResponse now p).answer = .accepted := by
  rw [recvResponse, PacketQueue.push?_of_not_full _ _ room]

namespace Lane

def handed (lane : Lane) : Nat := lane.sent.length + lane.held.toList.length

theorem Kept.length {passage : Passage} {now : Tick} {queue : PacketQueue} {lane : Lane}
    (h : lane.Kept passage now queue) : lane.accepted.length = lane.handed + queue.size := by
  rw [h.follows.length_eq, line, List.length_append, List.length_append, List.length_map]
  rfl

end Lane

namespace Transit

variable {t : Transit Bridge} {passage : Way → Passage} {call : PortCall}

/-- The peer towards the memory answers what it was handed, each packet once at most, and nothing
that it refuses. -/
def Solicited (t : Transit Bridge) (call : PortCall) : Prop :=
  match call.act, call.way with
  | .offer _, .response => (t.lane .response).accepted.length < (t.lane .request).handed
  | .refused _, .request =>
    (t.lane .response).accepted.length ≤ (t.lane .request).sent.length
  | _, _ => True

instance (t : Transit Bridge) : (call : PortCall) → Decidable (t.Solicited call)
  | ⟨.response, _, .offer _⟩ => inferInstanceAs (Decidable (_ < _))
  | ⟨.request, _, .refused _⟩ => inferInstanceAs (Decidable (_ ≤ _))
  | ⟨.request, _, .offer _⟩ | ⟨.response, _, .refused _⟩ | ⟨_, _, .take⟩ | ⟨_, _, .sent⟩
  | ⟨_, _, .retry⟩ => inferInstanceAs (Decidable True)

/-- The port protocol with a peer that answers what it was handed. -/
def Answered (t : Transit Bridge) (call : PortCall) : Prop := t.Proper call ∧ t.Solicited call

instance (t : Transit Bridge) (call : PortCall) : Decidable (t.Answered call) :=
  inferInstanceAs (Decidable (_ ∧ _))

/-- What is reserved are the accepted requests whose response has not been sent. -/
structure Balanced (t : Transit Bridge) : Prop where
  reserved : t.relay.reserved + (t.lane .response).sent.length =
    (t.lane .request).accepted.length
  fits : t.relay.reserved ≤ t.relay.config.responseDepth
  answered : (t.lane .response).accepted.length ≤ (t.lane .request).handed

theorem Balanced.reserved_eq (h : t.Balanced) (kept : t.Kept passage) :
    ∃ away, (t.lane .response).accepted.length + away = (t.lane .request).handed ∧
      t.relay.reserved = t.relay.requests.size + away +
        (t.lane .response).held.toList.length + t.relay.responses.size := by
  obtain ⟨away, handed⟩ := Nat.exists_eq_add_of_le h.answered
  have requests := (kept.lanes .request).length
  have responses := (kept.lanes .response).length
  have reserved := h.reserved
  refine ⟨away, handed.symm, ?_⟩
  simp only [Relay.queue, Bridge.queue, Lane.handed] at requests responses handed
  omega

theorem Balanced.request (h : t.Balanced) {now : Tick} {act : PortAct} {s : Bridge} {l : Lane}
    (turn : t.turn ⟨.request, now, act⟩ = (s, l)) (config : s.config = t.relay.config)
    (grows : s.reserved + (t.lane .request).accepted.length =
      t.relay.reserved + l.accepted.length)
    (fits : s.reserved ≤ t.relay.config.responseDepth)
    (answered : (t.lane .response).accepted.length ≤ l.handed) :
    (t.after ⟨.request, now, act⟩).Balanced := by
  have reserved := h.reserved
  refine ⟨?_, ?_, ?_⟩ <;> simp only [Transit.after, turn, Function.update_self, ne_eq,
    reduceCtorEq, not_false_eq_true, Function.update_of_ne]
  · omega
  · rwa [config]
  · exact answered

theorem Balanced.response (h : t.Balanced) {now : Tick} {act : PortAct} {s : Bridge} {l : Lane}
    (turn : t.turn ⟨.response, now, act⟩ = (s, l)) (config : s.config = t.relay.config)
    (shrinks : s.reserved + l.sent.length =
      t.relay.reserved + (t.lane .response).sent.length)
    (fits : s.reserved ≤ t.relay.reserved)
    (answered : l.accepted.length ≤ (t.lane .request).handed) :
    (t.after ⟨.response, now, act⟩).Balanced := by
  have reserved := h.reserved
  refine ⟨?_, ?_, ?_⟩ <;> simp only [Transit.after, turn, Function.update_self, ne_eq,
    reduceCtorEq, not_false_eq_true, Function.update_of_ne]
  · omega
  · rw [config]
    exact fits.trans h.fits
  · exact answered

theorem Balanced.after_request (h : t.Balanced) {now : Tick} {act : PortAct}
    (allowed : (t.lane .request).Allows act) (solicited : t.Solicited ⟨.request, now, act⟩) :
    (t.after ⟨.request, now, act⟩).Balanced := by
  cases act with
  | offer p =>
    rcases t.relay.recvRequest_cases now p with ⟨-, eq⟩ | ⟨-, -, counters, eq⟩ |
      ⟨-, room, requests, counters, -, eq⟩
    · refine h.request (s := t.relay) (l := t.lane .request) ?_ rfl rfl h.fits h.answered
      simp [turn, Relay.offer, eq]
    · refine h.request (s := { t.relay with retryOwed := true, counters })
        (l := t.lane .request) ?_ rfl rfl h.fits h.answered
      simp [turn, Relay.offer, eq]
    · simp only [Bridge.hasRoom, Bool.and_eq_true, decide_eq_true_eq] at room
      refine h.request
        (s := { t.relay with requests, reserved := t.relay.reserved + 1, counters })
        (l := { t.lane .request with accepted := (t.lane .request).accepted ++ [⟨now, p⟩] })
        ?_ rfl ?_ room.2 h.answered
      · simp [turn, Relay.offer, eq]
      · simp only [List.length_append, List.length_singleton]
        omega
  | take =>
    have free : (t.lane .request).held = none := allowed
    cases taken : t.relay.takeRequest now with
    | none =>
      refine h.request (s := t.relay) (l := t.lane .request) ?_ rfl rfl h.fits h.answered
      simp only [turn, Relay.take, taken]
    | some head =>
      obtain ⟨p, b⟩ := head
      obtain ⟨-, requests, -, rfl⟩ := Bridge.takeRequest_eq_some taken
      refine h.request (s := { t.relay with requests })
        (l := { t.lane .request with held := some ⟨now, p⟩ }) ?_ rfl rfl h.fits ?_
      · simp only [turn, Relay.take, taken]
      · refine h.answered.trans ?_
        simp [Lane.handed, free]
  | sent =>
    have sent : (t.relay.requestSent now).1.config = t.relay.config ∧
        (t.relay.requestSent now).1.reserved = t.relay.reserved := by
      simp [Bridge.requestSent, Bridge.retryIfRoom_eq]
    refine h.request rfl sent.1 ?_ (sent.2 ▸ h.fits) ?_
    · exact congrArg (· + _) sent.2
    · refine h.answered.trans ?_
      simp [Lane.handed]
  | refused p => exact h.request rfl rfl rfl h.fits (solicited.trans (Nat.le_add_right _ _))
  | retry => exact h.request rfl rfl rfl h.fits h.answered

theorem Balanced.after_response (h : t.Balanced) (kept : t.Kept passage) {now : Tick}
    {act : PortAct} (allowed : (t.lane .response).Allows act)
    (solicited : t.Solicited ⟨.response, now, act⟩) :
    (t.after ⟨.response, now, act⟩).Balanced := by
  cases act with
  | offer p =>
    rcases t.relay.recvResponse_cases now p with ⟨-, eq⟩ | ⟨responses, counters, -, eq⟩
    · refine h.response (s := t.relay) (l := t.lane .response) ?_ rfl rfl (Nat.le_refl _)
        h.answered
      simp [turn, Relay.offer, eq]
    · refine h.response
        (s := { t.relay with responses, lastResponse := some now, counters })
        (l := { t.lane .response with accepted := (t.lane .response).accepted ++ [⟨now, p⟩] })
        ?_ rfl rfl (Nat.le_refl _) ?_
      · simp [turn, Relay.offer, eq]
      · rw [List.length_append]
        exact solicited
  | take =>
    cases taken : t.relay.takeResponse now with
    | none =>
      refine h.response (s := t.relay) (l := t.lane .response) ?_ rfl rfl (Nat.le_refl _)
        h.answered
      simp only [turn, Relay.take, taken]
    | some head =>
      obtain ⟨p, b⟩ := head
      obtain ⟨-, responses, -, rfl⟩ := Bridge.takeResponse_eq_some taken
      refine h.response (s := { t.relay with responses })
        (l := { t.lane .response with held := some ⟨now, p⟩ }) ?_ rfl rfl (Nat.le_refl _)
        h.answered
      simp only [turn, Relay.take, taken]
  | sent =>
    have sent : (t.relay.responseSent now).1.config = t.relay.config ∧
        (t.relay.responseSent now).1.reserved = t.relay.reserved - 1 := by
      simp [Bridge.responseSent, Bridge.retryIfRoom_eq]
    obtain ⟨away, -, reserved⟩ := h.reserved_eq kept
    have held : (t.lane .response).held.toList.length = 1 := by
      cases held : (t.lane .response).held with
      | none => exact absurd held allowed
      | some => rfl
    refine h.response rfl sent.1 ?_ (sent.2 ▸ Nat.sub_le _ _) h.answered
    -- The reservation is not zero: the response that was held is one of those it is for.
    simp only [Relay.sent, sent.2, List.length_append]
    omega
  | refused p => exact h.response rfl rfl rfl (Nat.le_refl _) h.answered
  | retry => exact h.response rfl rfl rfl (Nat.le_refl _) h.answered

theorem Balanced.after (h : t.Balanced) (kept : t.Kept passage) (answered : t.Answered call) :
    (t.after call).Balanced := by
  obtain ⟨way, now, act⟩ := call
  obtain ⟨⟨-, allowed⟩, solicited⟩ := answered
  cases way with
  | request => exact h.after_request allowed solicited
  | response => exact h.after_response kept allowed solicited

/-- What a bridge keeps to with the room that it reserves. -/
structure Reserves (config : BridgeConfig) (t : Transit Bridge) : Prop where
  /-- Room is reserved for the accepted requests whose response has not been sent. -/
  balance : t.relay.reserved + (t.lane .response).sent.length =
    (t.lane .request).accepted.length
  fits : t.relay.reserved ≤ config.responseDepth
  /-- What waits in the bridge has room reserved. -/
  covers : t.relay.requests.size + t.relay.responses.size ≤ t.relay.reserved
  /-- A response that is sent gives room free that was reserved. -/
  spends : ∀ now, t.Answered ⟨.response, now, .sent⟩ → 0 < t.relay.reserved
  accepts : ∀ now p, t.Answered ⟨.response, now, .offer p⟩ →
    (t.relay.recvResponse now p).answer = .accepted

theorem Balanced.reserves {config : BridgeConfig} (h : t.Balanced) (kept : t.Kept passage)
    (depth : (passage .response).depth = config.responseDepth) : t.Reserves config := by
  obtain ⟨away, handed, reserved⟩ := h.reserved_eq kept
  have capacity := (kept.lanes .response).capacity
  have same : t.relay.config.responseDepth = (passage .response).depth :=
    congrArg Passage.depth (congrFun kept.settings .response)
  have fits := h.fits
  refine ⟨h.reserved, ?_, ?_, ?_, ?_⟩
  · rwa [same, depth] at fits
  · omega
  · rintro now ⟨⟨-, allowed⟩, -⟩
    cases held : (t.lane .response).held with
    | none => exact absurd held allowed
    | some d =>
      rw [held, Option.toList_some, List.length_singleton] at reserved
      omega
  · rintro now p ⟨-, solicited⟩
    have waiting : (t.lane .response).accepted.length < (t.lane .request).handed := solicited
    have room : t.relay.responses.entries.length < (passage .response).depth := by
      rw [PacketQueue.size, PacketQueue.size] at reserved
      omega
    refine Bridge.recvResponse_accepted ?_ now p
    have limit : t.relay.responses.capacity = some (passage .response).depth := capacity
    simpa [PacketQueue.isFull, limit] using room

theorem Keeps.reserves {name : String} {config : BridgeConfig} {expander : AddressRange}
    {calls : List PortCall}
    (keeps : (start (Bridge.create name config expander)).Keeps Answered calls) :
    ((start (Bridge.create name config expander)).run calls).Reserves config := by
  have fresh : (start (Bridge.create name config expander)).Balanced :=
    ⟨rfl, Nat.zero_le _, Nat.le_refl _⟩
  have kept : (start (Bridge.create name config expander)).Kept
      (Bridge.create name config expander).passage :=
    kept_start (fun way => by cases way <;> rfl) (fun way => by cases way <;> rfl)
  have both := keeps.run
    (P := fun t => t.Balanced ∧ t.Kept (Bridge.create name config expander).passage)
    (fun _ _ holds answered => ⟨holds.1.after holds.2 answered, holds.2.after answered.1⟩)
    ⟨fresh, kept⟩
  exact both.1.reserves both.2 rfl

end Transit

theorem Session.Reachable.offerResponse_accepted {config : Config} {h : Session}
    (reachable : Reachable config h) {now : Tick} {events : EventQueue} {down up : ComponentId}
    {b : Bridge} (front : h.system.fabric.hostSide? down = some (.component up))
    (upper : h.system.fabric.stage? up = some (.bridge b)) {p : Packet} {taken : Simulation}
    (took : Simulation.takeResponse { h.system with now, events } down = some (p, taken)) :
    (taken.offerResponse up p).1 = .accepted := by
  have standing := reachable.standing
  obtain ⟨lower, found, handed⟩ := Option.bind_eq_some_iff.1 took
  obtain ⟨⟨q, left⟩, head, eq⟩ := Option.map_eq_some_iff.1 handed
  cases eq
  obtain ⟨rfl, pos, -, -⟩ := Fabric.stage_before standing.chained front
  have answer : q.bare ∈ lower.view.answers := by
    rw [(Stage.view_takeResponse head).2]
    exact Multiset.mem_cons_self _ _
  have room := Simulation.bridge_room standing.chained standing.balanced.orderly pos found upper
    (standing.attended.sound _ _ upper) answer
  have stage : (h.system.fabric.setStage down left).stage? (down + 1) = some (.bridge b) :=
    (Fabric.stage?_setStage_ne (Nat.succ_ne_self down)).trans upper
  simp only [Simulation.offerResponse, stage]
  exact Bridge.recvResponse_accepted room _ _

/-- What a bridge reserves is what its responses need: it counts the accepted requests without a
sent response, covers both queues, never runs below zero, and leaves room for every response that
answers a request. So no bridge of a running system refuses a response. -/
theorem reserves_of_answered :
    (∀ name config expander calls,
      (Transit.start (Bridge.create name config expander)).Keeps Transit.Answered calls →
        ((Transit.start (Bridge.create name config expander)).run calls).Reserves config) ∧
    ∀ config h, Session.Reachable config h → ∀ now events down up b,
      h.system.fabric.hostSide? down = some (.component up) →
      h.system.fabric.stage? up = some (.bridge b) → ∀ p taken,
      Simulation.takeResponse { h.system with now, events } down = some (p, taken) →
        (taken.offerResponse up p).1 = .accepted :=
  ⟨fun _ _ _ _ keeps => keeps.reserves, fun _ _ reachable _ _ _ _ _ front upper _ _ took =>
    reachable.offerResponse_accepted front upper took⟩

/-- A read goes to the device and comes back, with a refusal each way. A second one is turned away,
since room for one response is all there is. -/
def roundTrip : List PortCall :=
  let p := Packet.read 0 0 64 0
  let marked := { p with link := some .m2sReq }
  let answer := marked.respond []
  [⟨.request, 0, .offer p⟩, ⟨.request, 0, .offer (.read 1 64 64 0)⟩, ⟨.request, 64000, .take⟩,
    ⟨.request, 64000, .refused marked⟩, ⟨.request, 65000, .retry⟩, ⟨.request, 65000, .take⟩,
    ⟨.request, 65000, .sent⟩, ⟨.response, 70000, .offer answer⟩, ⟨.response, 134000, .take⟩,
    ⟨.response, 134000, .refused answer⟩, ⟨.response, 135000, .retry⟩,
    ⟨.response, 135000, .take⟩]

theorem exists_bridge {found : Option Stage} (bridge : found.any (· matches .bridge _) = true) :
    ∃ b, found = some (.bridge b) := by
  obtain ⟨stage, rfl, isBridge⟩ := (Option.any_eq_true _ _).1 bridge
  cases stage with
  | bridge b => exact ⟨b, rfl⟩
  | device | controller | memory => cases isBridge

/-- Room for one response is reserved, used, and about to be given free. In the default system the
device hands the response to a read over to the bridge. -/
theorem reserves_round_trip :
    (let config : BridgeConfig := { responseDepth := 1, ranges := [⟨0, 4096⟩] }
      let bridge := Transit.start (Bridge.create "bridge" config ⟨0, 4096⟩)
      bridge.Keeps Transit.Answered roundTrip ∧ (bridge.run roundTrip).relay.reserved = 1 ∧
        (bridge.run roundTrip).Answered ⟨.response, 135000, .sent⟩ ∧
        (bridge.run roundTrip).Reserves config) ∧
    ∃ s b p taken, Simulation.create .standard {} = .ok s ∧
      let h := (Session.start s).run [.send (.read 0x100000000 64), .runUntil 140000]
      h.system.fabric.hostSide? 2 = some (.component 3) ∧
      h.system.fabric.stage? 3 = some (.bridge b) ∧
      Simulation.takeResponse { h.system with now := 148652 } 2 = some (p, taken) ∧
      (taken.offerResponse 3 p).1 = .accepted := by
  constructor
  · intro config bridge
    have keeps : bridge.Keeps Transit.Answered roundTrip := by decide
    exact ⟨keeps, by decide, by decide, reserves_of_answered.1 "bridge" config _ _ keeps⟩
  · have state : ((Simulation.create .standard {}).toOption.map fun s =>
        let h := (Session.start s).run [.send (.read 0x100000000 64), .runUntil 140000]
        h.system.fabric.hostSide? 2 = some (.component 3) &&
          (h.system.fabric.stage? 3).any (· matches .bridge _) &&
          (Simulation.takeResponse { h.system with now := 148652 } 2).isSome) =
        some true := by decide +kernel
    cases created : Simulation.create .standard {} with
    | error =>
      rw [created] at state
      cases state
    | ok s =>
      have reached := (Session.Reachable.start created).run
        [.send (.read 0x100000000 64), .runUntil 140000]
      simp only [created, Except.toOption, Option.map_some, Option.some.injEq,
        Bool.and_eq_true, decide_eq_true_eq] at state
      obtain ⟨⟨front, bridge⟩, took⟩ := state
      obtain ⟨b, upper⟩ := exists_bridge bridge
      obtain ⟨⟨p, taken⟩, took⟩ := Option.isSome_iff_exists.1 took
      exact ⟨s, b, p, taken, rfl, front, upper, took,
        reserves_of_answered.2 _ _ reached 148652 _ 2 3 b front upper p taken took⟩

end Expander
