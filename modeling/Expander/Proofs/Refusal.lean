import Expander.Proofs.Numbering

/-!
Packets that are turned down leave no trace.

A request that the host is told to offer again comes back as it was, and only the stage that refused
it keeps a record of that (`TurnsDown.refused`); an error leaves no record at all. Inside the fabric
a packet that a stage refuses goes back to the front of the queue that it came from, its hops
included, so that it is the next to be offered again (`HandsBack`).
-/

set_option autoImplicit false

namespace Expander

namespace PacketQueue

variable {q q' : PacketQueue} {now : Tick} {p : Packet}

def first? (q : PacketQueue) : Option Packet := q.entries.head?.map (·.packet)

theorem first?_popReady (h : q.popReady? now = some (p, q')) : q.first? = some p := by
  obtain ⟨tick, -, entries, -⟩ := popReady?_eq_some h
  rw [first?, entries, List.head?_cons, Option.map_some]

end PacketQueue

namespace Stage

variable {s taken : Stage} {now : Tick} {p : Packet}

def nextRequest? : Stage → Option Packet
  | bridge b => b.requests.first?
  | device d => d.requests.first?
  | controller _ | memory _ => none

def nextResponse? : Stage → Option Packet
  | bridge b => b.responses.first?
  | device d => d.responses.first?
  | controller c => c.responses.top?.map (·.packet)
  | memory m => m.responses.first?

theorem nextRequest_refused (took : s.takeRequest now = some (p, taken)) :
    s.nextRequest? = some p ∧ (taken.requestRefused now p).nextRequest? = some p := by
  rcases takeRequest_inv took with ⟨b, b', rfl, rfl, took'⟩ | ⟨d, d', rfl, rfl, took'⟩
  · obtain ⟨-, requests, popped, rfl⟩ := Bridge.takeRequest_eq_some took'
    exact ⟨PacketQueue.first?_popReady popped, rfl⟩
  · obtain ⟨-, requests, popped, rfl⟩ := Device.takeRequest_eq_some took'
    exact ⟨PacketQueue.first?_popReady popped, rfl⟩

theorem nextResponse_refused (sound : s.Sound) (numbered : s.Numbered)
    (took : s.takeResponse now = some (p, taken)) :
    s.nextResponse? = some p ∧ (taken.responseRefused now p).nextResponse? = some p := by
  cases s with
  | bridge b =>
    obtain ⟨⟨q, b'⟩, took', eq⟩ := Option.map_eq_some_iff.1 took
    cases eq
    obtain ⟨-, responses, popped, rfl⟩ := Bridge.takeResponse_eq_some took'
    exact ⟨PacketQueue.first?_popReady popped, rfl⟩
  | device d =>
    obtain ⟨⟨q, d'⟩, took', eq⟩ := Option.map_eq_some_iff.1 took
    cases eq
    obtain ⟨-, responses, popped, rfl⟩ := Device.takeResponse_eq_some took'
    exact ⟨PacketQueue.first?_popReady popped, rfl⟩
  | controller c =>
    obtain ⟨⟨q, c'⟩, took', eq⟩ := Option.map_eq_some_iff.1 took
    cases eq
    exact Controller.top_responseRefused sound numbered took'
  | memory m =>
    obtain ⟨⟨q, m'⟩, took', eq⟩ := Option.map_eq_some_iff.1 took
    cases eq
    obtain ⟨-, responses, popped, rfl⟩ := SystemMemory.takeResponse_eq_some took'
    exact ⟨PacketQueue.first?_popReady popped, rfl⟩

end Stage

namespace Simulation

/-- What a component does with a packet that its neighbour refuses. -/
structure HandsBack (s : Simulation) (e : Event) : Prop where
  /-- The request comes back with the hop of the refused arrival, which the sender takes off. -/
  request : ∀ down upper lower taken p back, e.kind = .sendRequest →
    s.fabric.memorySide? e.target = some down → s.fabric.stage? e.target = some upper →
    s.fabric.stage? down = some lower → upper.takeRequest s.now = some (p, taken) →
    (lower.recvRequest s.now (p.arriveAt down s.now)).answer = .busy back →
    back = p.arriveAt down s.now ∧ upper.nextRequest? = some p ∧
      (taken.requestRefused s.now p).nextRequest? = some p ∧
      ∃ denied, lower.DeniesRequest s.now denied ∧ s.dispatch e = (.ok (),
        (s.setStage down denied).setStage e.target (taken.requestRefused s.now p))
  response : ∀ up lower upper taken p back, e.kind = .sendResponse →
    s.fabric.hostSide? e.target = some (.component up) → s.fabric.stage? e.target = some lower →
    s.fabric.stage? up = some upper → lower.takeResponse s.now = some (p, taken) →
    (upper.recvResponse s.now p).answer = .busy back →
    back = p ∧ lower.nextResponse? = some p ∧
      (taken.responseRefused s.now p).nextResponse? = some p ∧
      ∃ denied, upper.DeniesResponse denied ∧ s.dispatch e = (.ok (),
        (s.setStage up denied).setStage e.target (taken.responseRefused s.now p))

/-- What is turned down comes back as it was, and changes nothing but the record of the refusal. -/
structure TurnsDown (s : Simulation) : Prop where
  /-- The stage that faces the host has refused the request. -/
  refused : ∀ (access : Access) back s', s.sendRequest access.request = (.ok (.retry back), s') →
    back = access.request ∧ ∃ target stage denied lastHit,
      s.fabric.hostSide? target = some .host ∧ s.fabric.stage? target = some stage ∧
      stage.DeniesRequest s.now denied ∧
      s' = { (s.remembering lastHit).setStage target denied with
        host := { s.host with retried := s.host.retried + 1 } }
  rejected : ∀ (access : Access) e s', s.sendRequest access.request = (.error e, s') →
    ∃ lastHit, s' = s.remembering lastHit
  /-- A stage refuses what any neighbour offers at any time. -/
  request : ∀ id stage now p back, s.fabric.stage? id = some stage →
    (stage.recvRequest now p).answer = .busy back →
    back = p ∧ ∃ denied, stage.DeniesRequest now denied ∧
      stage.recvRequest now p = ⟨denied, [], .busy p⟩
  response : ∀ id stage now p back, s.fabric.stage? id = some stage →
    (stage.recvResponse now p).answer = .busy back →
    back = p ∧ ∃ denied, stage.DeniesResponse denied ∧
      stage.recvResponse now p = ⟨denied, [], .busy p⟩
  event : ∀ e others, s.events.events = e :: others → (s.popped e others).HandsBack e

variable {s : Simulation} {expander : AddressRange}

theorem handsBack (chained : Chained s.fabric.sites expander)
    (sound : ∀ id stage, s.fabric.stage? id = some stage → stage.Sound) (numbered : s.Numbered)
    (e : Event) : s.HandsBack e where
  request down upper lower taken p back kind behind hupper hlower took busy := by
    obtain ⟨next, -⟩ := Fabric.stage_behind chained behind
    have ne : e.target ≠ down := next ▸ Nat.succ_ne_self down
    obtain ⟨denied, denies, reply, moved⟩ :=
      forwardRequest_back behind ne hupper hlower (sound _ _ hlower) took busy
    obtain ⟨first, first'⟩ := Stage.nextRequest_refused took
    rw [reply] at busy
    cases busy
    refine ⟨rfl, first, first', denied, denies, ?_⟩
    rw [dispatch, kind]
    exact moved
  response up lower upper taken p back kind before hlower hupper took busy := by
    obtain ⟨next, -⟩ := Fabric.stage_before chained before
    have ne : e.target ≠ up := next ▸ (Nat.succ_ne_self e.target).symm
    obtain ⟨denied, denies, reply, moved⟩ := forwardResponse_back before ne hlower hupper took busy
    obtain ⟨first, first'⟩ :=
      Stage.nextResponse_refused (sound _ _ hlower) (numbered _ _ hlower) took
    rw [reply] at busy
    cases busy
    refine ⟨rfl, first, first', denied, denies, ?_⟩
    rw [dispatch, kind]
    exact moved

end Simulation

namespace Session

variable {h : Session} {config : Config}

/-- In every state of a session, what is turned down leaves no trace. -/
theorem turnsDown_reachable (reachable : Reachable config h) : h.system.TurnsDown where
  refused access back s' sends := by
    have sent := reachable.standing.sent access
    rw [sends] at sent
    cases sent with
    | refused lastHit _ faced found denies =>
      exact ⟨rfl, _, _, _, lastHit, faced, found, denies, rfl⟩
  rejected access e s' sends := by
    have sent := reachable.standing.sent access
    rw [sends] at sent
    cases sent with
    | rejected lastHit => exact ⟨lastHit, rfl⟩
  request id stage now p back found busy := by
    obtain ⟨denied, denies, reply⟩ :=
      Stage.denies_recvRequest (reachable.standing.attended.sound id stage found) busy
    rw [reply] at busy
    cases busy
    exact ⟨rfl, denied, denies, reply⟩
  response id stage now p back _ busy := by
    obtain ⟨denied, denies, reply⟩ := Stage.denies_recvResponse busy
    rw [reply] at busy
    cases busy
    exact ⟨rfl, denied, denies, reply⟩
  event e others _ := Simulation.handsBack (s := h.system.popped e others)
    reachable.standing.chained reachable.standing.attended.sound reachable.numbered e

/-- A controller that takes one read at a time refuses the second one. -/
theorem turnsDown_second_read : ∃ config s, Simulation.create .standard config = .ok s ∧
    (((start s).run [.send (.read 0x100000000 64)]).system.sendRequest (.read 0x100000040 64)).1 =
      .ok (.retry (.read 0x100000040 64)) ∧
    ((start s).run [.send (.read 0x100000000 64)]).system.TurnsDown :=
  ⟨{ topology := .controller, controller := { maxPendingReads := some 1 } }, _, rfl,
    by decide +kernel, turnsDown_reachable (.run (.start (show Simulation.create .standard
      { topology := .controller, controller := { maxPendingReads := some 1 } } = _ from rfl)) _)⟩

end Session

end Expander
