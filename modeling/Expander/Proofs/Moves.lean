import Expander.Proofs.Dispatch
import Expander.Proofs.Stage.Refusal

/-!
The moves that an event can make.

An event that does not fail makes one of seven moves: a request or a response goes to the next stage
or comes back refused, a response leaves to the host, a component runs its own processing, or
nothing happens. The actions that the stages ask for come after the move (`moved_dispatch`).
-/

set_option autoImplicit false

namespace Expander

theorem Packet.dropLastHop_arriveAt (p : Packet) (id : ComponentId) (now : Tick) :
    (p.arriveAt id now).dropLastHop = p := by
  simp [arriveAt, dropLastHop]

namespace Simulation

/-- What an event of a component does to the stages, and the actions that it leaves to be
performed. -/
inductive Moved (s : Simulation) (id : ComponentId) :
    EventKind → Simulation → List (ComponentId × Action) → Prop where
  /-- Nothing can be sent, or no stage is there to do it. -/
  | idle (kind : EventKind) : Moved s id kind s []
  /-- The head request goes to the stage behind. -/
  | request {down : ComponentId} {upper taken lower answered : Stage} {p : Packet}
      {actions : List Action} :
      s.fabric.memorySide? id = some down → s.fabric.stage? id = some upper →
      s.fabric.stage? down = some lower → upper.takeRequest s.now = some (p, taken) →
      lower.recvRequest s.now (p.arriveAt down s.now) = ⟨answered, actions, .accepted⟩ →
      Moved s id .sendRequest ((s.setStage down answered).setStage id (taken.requestSent s.now).1)
        (asked down actions ++ asked id (taken.requestSent s.now).2)
  /-- The stage behind refuses the head request, which goes back. -/
  | requestBack {down : ComponentId} {upper taken lower refused : Stage} {p : Packet} :
      s.fabric.memorySide? id = some down → s.fabric.stage? id = some upper →
      s.fabric.stage? down = some lower → upper.takeRequest s.now = some (p, taken) →
      lower.recvRequest s.now (p.arriveAt down s.now) =
        ⟨refused, [], .busy (p.arriveAt down s.now)⟩ →
      lower.DeniesRequest s.now refused →
      Moved s id .sendRequest ((s.setStage down refused).setStage id (taken.requestRefused s.now p))
        []
  /-- The head response goes to the stage in front. -/
  | response {up : ComponentId} {lower taken upper answered : Stage} {p : Packet}
      {actions : List Action} :
      s.fabric.hostSide? id = some (.component up) → s.fabric.stage? id = some lower →
      s.fabric.stage? up = some upper → lower.takeResponse s.now = some (p, taken) →
      upper.recvResponse s.now p = ⟨answered, actions, .accepted⟩ →
      Moved s id .sendResponse ((s.setStage up answered).setStage id (taken.responseSent s.now).1)
        (asked up actions ++ asked id (taken.responseSent s.now).2)
  /-- The stage in front refuses the head response, which goes back. -/
  | responseBack {up : ComponentId} {lower taken upper refused : Stage} {p : Packet} :
      s.fabric.hostSide? id = some (.component up) → s.fabric.stage? id = some lower →
      s.fabric.stage? up = some upper → lower.takeResponse s.now = some (p, taken) →
      upper.recvResponse s.now p = ⟨refused, [], .busy p⟩ → upper.DeniesResponse refused →
      Moved s id .sendResponse ((s.setStage up refused).setStage id (taken.responseRefused s.now p))
        []
  /-- The head response leaves to the host. -/
  | completed {lower taken : Stage} {p : Packet} :
      s.fabric.hostSide? id = some .host → s.fabric.stage? id = some lower →
      lower.takeResponse s.now = some (p, taken) →
      Moved s id .sendResponse ((s.complete p).setStage id (taken.responseSent s.now).1)
        (asked id (taken.responseSent s.now).2)
  | processed {stage : Stage} : s.fabric.stage? id = some stage →
      Moved s id .process (s.setStage id (stage.process s.now).1)
        (asked id (stage.process s.now).2)

variable {s s' : Simulation} {id up down : ComponentId} {upper lower taken : Stage}
  {p back : Packet} {expander : AddressRange}

private theorem forwardRequest_unroutable (behind : s.fabric.memorySide? id = some down)
    (ne : id ≠ down) (hupper : s.fabric.stage? id = some upper)
    (hlower : s.fabric.stage? down = some lower)
    (took : upper.takeRequest s.now = some (p, taken))
    (reply : (lower.recvRequest s.now (p.arriveAt down s.now)).answer = .unroutable back) :
    ∃ e, (s.forwardRequest id).1 = .error e := by
  have stays : (s.fabric.setStage id taken).stage? down = some lower := by
    rw [Fabric.stage?_setStage_ne ne.symm, hlower]
  simp only [forwardRequest, behind, takeRequest, hupper, Option.bind_some, took, Option.map_some,
    offerRequest, stays, reply]
  exact ⟨_, rfl⟩

private theorem forwardResponse_unroutable (before : s.fabric.hostSide? id = some (.component up))
    (ne : id ≠ up) (hlower : s.fabric.stage? id = some lower)
    (hupper : s.fabric.stage? up = some upper)
    (took : lower.takeResponse s.now = some (p, taken))
    (reply : (upper.recvResponse s.now p).answer = .unroutable back) :
    ∃ e, (s.forwardResponse id).1 = .error e := by
  have stays : (s.fabric.setStage id taken).stage? up = some upper := by
    rw [Fabric.stage?_setStage_ne ne.symm, hupper]
  simp only [forwardResponse, before, takeResponse, hlower, Option.bind_some, took, Option.map_some,
    offerResponse, stays, reply]
  exact ⟨_, rfl⟩

theorem forwardRequest_back (behind : s.fabric.memorySide? id = some down) (ne : id ≠ down)
    (hupper : s.fabric.stage? id = some upper) (hlower : s.fabric.stage? down = some lower)
    (sound : lower.Sound) (took : upper.takeRequest s.now = some (p, taken))
    (busy : (lower.recvRequest s.now (p.arriveAt down s.now)).answer = .busy back) :
    ∃ refused, lower.DeniesRequest s.now refused ∧
      lower.recvRequest s.now (p.arriveAt down s.now) =
        ⟨refused, [], .busy (p.arriveAt down s.now)⟩ ∧
      s.forwardRequest id = (.ok (),
        (s.setStage down refused).setStage id (taken.requestRefused s.now p)) := by
  obtain ⟨refused, denies, reply⟩ := Stage.denies_recvRequest sound busy
  have moved := forwardRequest_refused behind ne hupper hlower took reply
  rw [Packet.dropLastHop_arriveAt] at moved
  exact ⟨refused, denies, reply, moved⟩

theorem forwardResponse_back (before : s.fabric.hostSide? id = some (.component up))
    (ne : id ≠ up) (hlower : s.fabric.stage? id = some lower)
    (hupper : s.fabric.stage? up = some upper)
    (took : lower.takeResponse s.now = some (p, taken))
    (busy : (upper.recvResponse s.now p).answer = .busy back) :
    ∃ refused, upper.DeniesResponse refused ∧
      upper.recvResponse s.now p = ⟨refused, [], .busy p⟩ ∧
      s.forwardResponse id = (.ok (),
        (s.setStage up refused).setStage id (taken.responseRefused s.now p)) := by
  obtain ⟨refused, denies, reply⟩ := Stage.denies_recvResponse busy
  exact ⟨refused, denies, reply, forwardResponse_refused before ne hlower hupper took reply⟩

private theorem moved_forwardRequest (chained : Chained s.fabric.sites expander)
    (sound : ∀ i stage, s.fabric.stage? i = some stage → stage.Sound)
    (h : s.forwardRequest id = (.ok (), s')) :
    ∃ moved pending, s.Moved id .sendRequest moved pending ∧
      s' = moved.performActions pending := by
  have still (idle : s.forwardRequest id = (.ok (), s)) : ∃ moved pending,
      s.Moved id .sendRequest moved pending ∧ s' = moved.performActions pending := by
    cases h.symm.trans idle
    exact ⟨_, _, .idle _, rfl⟩
  cases behind : s.fabric.memorySide? id with
  | none => exact still (by rw [forwardRequest, behind])
  | some down =>
    obtain ⟨rfl, -, -, lower, hlower⟩ := Fabric.stage_behind chained behind
    obtain ⟨upper, hupper⟩ := Fabric.exists_of_memorySide? behind
    have ne : down + 1 ≠ down := Nat.succ_ne_self _
    cases took : upper.takeRequest s.now with
    | none => exact still (forwardRequest_idle hupper (.inr took))
    | some head =>
      obtain ⟨p, taken⟩ := head
      cases answer : (lower.recvRequest s.now (p.arriveAt down s.now)).answer with
      | accepted =>
        have reply : lower.recvRequest s.now (p.arriveAt down s.now) = ⟨_, _, .accepted⟩ :=
          congrArg (Reply.mk _ _) answer
        have moved := forwardRequest_accepted behind ne hupper hlower took reply
          (Stage.onlyWakes_recvRequest _ _ _)
        cases h.symm.trans moved
        exact ⟨_, _, .request behind hupper hlower took reply, rfl⟩
      | busy back =>
        obtain ⟨refused, denies, reply, moved⟩ :=
          forwardRequest_back behind ne hupper hlower (sound _ _ hlower) took answer
        cases h.symm.trans moved
        exact ⟨_, _, .requestBack behind hupper hlower took reply denies, rfl⟩
      | unroutable back =>
        obtain ⟨e, failed⟩ := forwardRequest_unroutable behind ne hupper hlower took answer
        rw [h] at failed
        cases failed

private theorem moved_forwardResponse (chained : Chained s.fabric.sites expander)
    (h : s.forwardResponse id = (.ok (), s')) :
    ∃ moved pending, s.Moved id .sendResponse moved pending ∧
      s' = moved.performActions pending := by
  have still (idle : s.forwardResponse id = (.ok (), s)) : ∃ moved pending,
      s.Moved id .sendResponse moved pending ∧ s' = moved.performActions pending := by
    cases h.symm.trans idle
    exact ⟨_, _, .idle _, rfl⟩
  cases peer : s.fabric.hostSide? id with
  | none => exact still (by rw [forwardResponse, peer])
  | some peer' =>
    obtain ⟨lower, hlower⟩ := Fabric.exists_of_hostSide? peer
    cases took : lower.takeResponse s.now with
    | none => exact still (forwardResponse_idle hlower took)
    | some head =>
      obtain ⟨p, taken⟩ := head
      cases peer' with
      | host =>
        cases h.symm.trans (forwardResponse_host peer hlower took)
        exact ⟨_, _, .completed peer hlower took, rfl⟩
      | component up =>
        obtain ⟨rfl, -, -, upper, hupper⟩ := Fabric.stage_before chained peer
        have ne : id ≠ id + 1 := (Nat.succ_ne_self id).symm
        cases answer : (upper.recvResponse s.now p).answer with
        | accepted =>
          have reply : upper.recvResponse s.now p = ⟨_, _, .accepted⟩ :=
            congrArg (Reply.mk _ _) answer
          have moved := forwardResponse_accepted peer ne hlower hupper took reply
            (Stage.onlyWakes_recvResponse _ _ _)
          cases h.symm.trans moved
          exact ⟨_, _, .response peer hlower hupper took reply, rfl⟩
        | busy back =>
          obtain ⟨refused, denies, reply, moved⟩ :=
            forwardResponse_back peer ne hlower hupper took answer
          cases h.symm.trans moved
          exact ⟨_, _, .responseBack peer hlower hupper took reply denies, rfl⟩
        | unroutable back =>
          obtain ⟨e, failed⟩ := forwardResponse_unroutable peer ne hlower hupper took answer
          rw [h] at failed
          cases failed

theorem moved_dispatch {e : Event} (chained : Chained s.fabric.sites expander)
    (sound : ∀ i stage, s.fabric.stage? i = some stage → stage.Sound)
    (h : s.dispatch e = (.ok (), s')) :
    ∃ moved pending, s.Moved e.target e.kind moved pending ∧
      s' = moved.performActions pending := by
  rw [dispatch] at h
  cases kind : e.kind <;> rw [kind] at h
  · exact moved_forwardRequest chained sound h
  · exact moved_forwardResponse chained h
  · cases h
    cases found : s.fabric.stage? e.target with
    | none =>
      refine ⟨_, _, .idle _, ?_⟩
      rw [react, found]
      rfl
    | some stage => exact ⟨_, _, .processed found, react_eq found _⟩

end Simulation

end Expander
