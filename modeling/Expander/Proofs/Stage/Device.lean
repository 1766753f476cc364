import Expander.Proofs.Stage.View

/-!
The front-end device as a stage.

A sound device owes a retry only while the buffer in question is full, and waits for a retry only
while it has a request to send. Both buffers of an armed device are roused. Every call keeps the
two, and changes the view in the way its name says.
-/

set_option autoImplicit false

namespace Expander.Device

/-- What every device keeps to between calls. -/
structure Sound (d : Device) : Prop where
  /-- A retry of a request is owed only by a full buffer. -/
  requestOwed : d.requestRetryOwed = true → d.requests.isFull = true
  /-- A retry of a response is owed only by a full buffer. -/
  responseOwed : d.responseRetryOwed = true → d.responses.isFull = true
  /-- Only a request waits for a retry. -/
  waiting : d.awaitingRequestRetry = true → d.requests.packets ≠ []

/-- Both heads have their wake-ups. -/
structure Armed (now : Tick) (due : Wakeup → Prop) (d : Device) : Prop where
  requests : Roused now due .sendRequest d.awaitingRequestRetry d.requests.headReady
  responses : Roused now due .sendResponse d.awaitingResponseRetry d.responses.headReady

variable {d d' : Device} {now : Tick} {p q : Packet} {due : Wakeup → Prop}

theorem Armed.mono {due' : Wakeup → Prop} (h : d.Armed now due) (sub : ∀ w, due w → due' w) :
    d.Armed now due' :=
  ⟨h.requests.mono sub, h.responses.mono sub⟩

theorem Armed.later {next : Tick} (h : d.Armed now due) (le : now ≤ next)
    (ahead : ∀ w, due w → next ≤ w.tick) : d.Armed next due :=
  ⟨h.requests.later le ahead, h.responses.later le ahead⟩

theorem bare_tagRequest (p : Packet) : (tagRequest p).bare = p.bare := by
  rw [tagRequest]
  split <;> rfl

theorem bare_tagResponse (p : Packet) : (tagResponse p).bare = p.bare := rfl

theorem recvRequest_cases (d : Device) (now : Tick) (p : Packet) :
    (d.config.range.containsAccess p.addr p.size = false ∧
      d.recvRequest now p = ⟨d, [], .unroutable p⟩) ∨
    (d.config.range.containsAccess p.addr p.size = true ∧ d.requests.isFull = true ∧ ∃ counters,
      d.recvRequest now p = ⟨{ d with requestRetryOwed := true, counters }, [], .busy p⟩) ∨
    (d.config.range.containsAccess p.addr p.size = true ∧ ∃ requests counters,
      d.requests.push? (tagRequest p.chargeHeader)
        (now + p.headerDelay + d.config.protocolLatency) = some requests ∧
      d.recvRequest now p = ⟨{ d with requests, counters },
        if d.requests.isEmpty && !d.awaitingRequestRetry then
          [.at (now + p.headerDelay + d.config.protocolLatency) .sendRequest] else [],
        .accepted⟩) := by
  rw [recvRequest]
  split
  next unserved => exact .inl ⟨by simpa using unserved, rfl⟩
  next served =>
    have serves : d.config.range.containsAccess p.addr p.size = true := by simpa using served
    simp only
    split
    next full => exact .inr (.inl ⟨serves, PacketQueue.push?_eq_none full, _, rfl⟩)
    next requests pushed => exact .inr (.inr ⟨serves, requests, _, pushed, rfl⟩)

theorem armed_recvRequest (h : d.Armed now due) :
    (d.recvRequest now p).stage.Armed now
      fun w => due w ∨ Called now (d.recvRequest now p).actions w := by
  rcases recvRequest_cases d now p with ⟨-, eq⟩ | ⟨-, -, counters, eq⟩ |
    ⟨-, requests, counters, pushed, eq⟩
  · rw [eq]
    exact ⟨h.requests.mono fun _ => .inl, h.responses.mono fun _ => .inl⟩
  · rw [eq]
    exact ⟨h.requests.mono fun _ => .inl, h.responses.mono fun _ => .inl⟩
  · rw [eq]
    exact ⟨PacketQueue.roused_push h.requests pushed, h.responses.mono fun _ => .inl⟩

theorem sound_recvRequest (h : d.Sound) : (d.recvRequest now p).stage.Sound := by
  rcases recvRequest_cases d now p with ⟨-, eq⟩ | ⟨-, full, counters, eq⟩ |
    ⟨-, requests, counters, pushed, eq⟩
  · rwa [eq]
  · rw [eq]
    exact ⟨fun _ => full, h.responseOwed, h.waiting⟩
  · rw [eq]
    have notFull := (PacketQueue.push?_eq_some pushed).1
    refine ⟨fun owed => ?_, h.responseOwed, fun _ => ?_⟩
    · exact absurd (h.requestOwed owed) (by simp [notFull])
    · simp [PacketQueue.packets_push pushed]

theorem takeRequest_eq_some (h : d.takeRequest now = some (p, d')) :
    d.awaitingRequestRetry = false ∧ ∃ requests, d.requests.popReady? now = some (p, requests) ∧
      d' = { d with requests } := by
  rw [takeRequest] at h
  split at h
  · cases h
  · rename_i free
    obtain ⟨⟨p', requests⟩, popped, eq⟩ := Option.map_eq_some_iff.1 h
    cases eq
    exact ⟨by simpa using free, requests, popped, rfl⟩

theorem armed_takeRequest_none (h : d.takeRequest now = none)
    (armed : d.Armed now fun w => w = ⟨now, .sendRequest⟩ ∨ due w) : d.Armed now due := by
  refine ⟨PacketQueue.roused_spent armed.requests fun free => ?_, armed.responses.ignore nofun⟩
  simpa [takeRequest, free] using h

theorem view_takeRequest (h : d.takeRequest now = some (p, d')) :
    d.view.awaitsRequest = false ∧
      d.view = { d'.view with requests := p.bare :: d'.view.requests } := by
  obtain ⟨free, requests, popped, rfl⟩ := takeRequest_eq_some h
  obtain ⟨-, -, -, capacity⟩ := PacketQueue.popReady?_eq_some popped
  refine ⟨free, ?_⟩
  simp [view, PacketQueue.packets_popReady popped, capacity]

theorem view_requestSent (d : Device) (now : Tick) :
    (d.requestSent now).1.view = d.view.redeem (d.requestSent now).2 := by
  simp only [requestSent, StageView.redeem_map_wake_append]
  cases howed : d.requestRetryOwed <;> simp [view, StageView.redeem, howed]

theorem armed_requestSent (h : d.takeRequest now = some (p, d'))
    (armed : d.Armed now fun w => w = ⟨now, .sendRequest⟩ ∨ due w) :
    (d'.requestSent now).1.Armed now fun w => due w ∨ Called now (d'.requestSent now).2 w := by
  obtain ⟨-, requests, -, rfl⟩ := takeRequest_eq_some h
  exact ⟨roused_sendAfter.mono fun _ => Or.imp_right Called.append_left,
    (armed.responses.ignore nofun).mono fun _ => .inl⟩

theorem sound_requestSent (h : d.takeRequest now = some (p, d')) (sound : d.Sound) :
    (d'.requestSent now).1.Sound := by
  obtain ⟨free, requests, -, rfl⟩ := takeRequest_eq_some h
  refine ⟨nofun, sound.responseOwed, fun waits => ?_⟩
  exact absurd waits (by simp [requestSent, free])

theorem armed_requestRefused (h : d.takeRequest now = some (p, d'))
    (armed : d.Armed now fun w => w = ⟨now, .sendRequest⟩ ∨ due w) :
    (d'.requestRefused now q).Armed now due := by
  obtain ⟨-, requests, -, rfl⟩ := takeRequest_eq_some h
  exact ⟨roused_awaiting, armed.responses.ignore nofun⟩

theorem sound_requestRefused (h : d.takeRequest now = some (p, d')) (sound : d.Sound) :
    (d'.requestRefused now q).Sound := by
  obtain ⟨-, requests, popped, rfl⟩ := takeRequest_eq_some h
  obtain ⟨-, -, -, capacity⟩ := PacketQueue.popReady?_eq_some popped
  have length : (requests.pushFront q now).packets.length = d.requests.packets.length := by
    simp [PacketQueue.packets_popReady popped]
  refine ⟨fun owed => ?_, sound.responseOwed, fun _ => ?_⟩
  · rw [← sound.requestOwed owed]
    exact PacketQueue.isFull_congr length capacity
  · simp [requestRefused]

theorem sound_recvRequestRetry (h : d.Sound) : (d.recvRequestRetry now).1.Sound :=
  ⟨h.requestOwed, h.responseOwed, nofun⟩

theorem armed_recvRequestRetry (h : d.Armed now due) :
    (d.recvRequestRetry now).1.Armed now
      fun w => due w ∨ Called now ((d.recvRequestRetry now).2.map .wake) w :=
  ⟨roused_sendAfter, h.responses.mono fun _ => .inl⟩

theorem recvResponse_cases (d : Device) (now : Tick) (p : Packet) :
    (d.responses.isFull = true ∧ ∃ counters,
      d.recvResponse now p = ⟨{ d with responseRetryOwed := true, counters }, [], .busy p⟩) ∨
    (∃ responses counters,
      d.responses.push? (tagResponse p.chargeHeader)
        (now + p.headerDelay + d.config.protocolLatency) = some responses ∧
      d.recvResponse now p = ⟨{ d with responses, counters },
        if d.responses.isEmpty && !d.awaitingResponseRetry then
          [.at (now + p.headerDelay + d.config.protocolLatency) .sendResponse] else [],
        .accepted⟩) := by
  rw [recvResponse]
  split
  next full => exact .inl ⟨PacketQueue.push?_eq_none full, _, rfl⟩
  next responses pushed => exact .inr ⟨responses, _, pushed, rfl⟩

theorem armed_recvResponse (h : d.Armed now due) :
    (d.recvResponse now p).stage.Armed now
      fun w => due w ∨ Called now (d.recvResponse now p).actions w := by
  rcases recvResponse_cases d now p with ⟨-, counters, eq⟩ |
    ⟨responses, counters, pushed, eq⟩
  · rw [eq]
    exact ⟨h.requests.mono fun _ => .inl, h.responses.mono fun _ => .inl⟩
  · rw [eq]
    exact ⟨h.requests.mono fun _ => .inl, PacketQueue.roused_push h.responses pushed⟩

theorem sound_recvResponse (h : d.Sound) : (d.recvResponse now p).stage.Sound := by
  rcases recvResponse_cases d now p with ⟨full, counters, eq⟩ |
    ⟨responses, counters, pushed, eq⟩
  · rw [eq]
    exact ⟨h.requestOwed, fun _ => full, h.waiting⟩
  · rw [eq]
    have notFull := (PacketQueue.push?_eq_some pushed).1
    refine ⟨h.requestOwed, fun owed => ?_, h.waiting⟩
    exact absurd (h.responseOwed owed) (by simp [notFull])

theorem takeResponse_eq_some (h : d.takeResponse now = some (p, d')) :
    d.awaitingResponseRetry = false ∧
      ∃ responses, d.responses.popReady? now = some (p, responses) ∧
        d' = { d with responses } := by
  rw [takeResponse] at h
  split at h
  · cases h
  · rename_i free
    obtain ⟨⟨p', responses⟩, popped, eq⟩ := Option.map_eq_some_iff.1 h
    cases eq
    exact ⟨by simpa using free, responses, popped, rfl⟩

theorem armed_takeResponse_none (h : d.takeResponse now = none)
    (armed : d.Armed now fun w => w = ⟨now, .sendResponse⟩ ∨ due w) : d.Armed now due := by
  refine ⟨armed.requests.ignore nofun, PacketQueue.roused_spent armed.responses fun free => ?_⟩
  simpa [takeResponse, free] using h

theorem view_takeResponse (h : d.takeResponse now = some (p, d')) :
    d.view.awaitsResponse = false ∧
      d.view = { d'.view with answers := p.bare ::ₘ d'.view.answers } := by
  obtain ⟨free, responses, popped, rfl⟩ := takeResponse_eq_some h
  obtain ⟨-, -, -, capacity⟩ := PacketQueue.popReady?_eq_some popped
  refine ⟨free, ?_⟩
  simp [view, PacketQueue.packets_popReady popped, capacity]

theorem view_responseSent (d : Device) (now : Tick) :
    (d.responseSent now).1.view = d.view.redeem (d.responseSent now).2 := by
  simp only [responseSent, StageView.redeem_map_wake_append]
  cases howed : d.responseRetryOwed <;> simp [view, StageView.redeem, howed]

theorem armed_responseSent (h : d.takeResponse now = some (p, d'))
    (armed : d.Armed now fun w => w = ⟨now, .sendResponse⟩ ∨ due w) :
    (d'.responseSent now).1.Armed now fun w => due w ∨ Called now (d'.responseSent now).2 w := by
  obtain ⟨-, responses, -, rfl⟩ := takeResponse_eq_some h
  exact ⟨(armed.requests.ignore nofun).mono fun _ => .inl,
    roused_sendAfter.mono fun _ => Or.imp_right Called.append_left⟩

theorem sound_responseSent (h : d.takeResponse now = some (p, d')) (sound : d.Sound) :
    (d'.responseSent now).1.Sound := by
  obtain ⟨-, responses, -, rfl⟩ := takeResponse_eq_some h
  exact ⟨sound.requestOwed, nofun, sound.waiting⟩

theorem armed_responseRefused (h : d.takeResponse now = some (p, d'))
    (armed : d.Armed now fun w => w = ⟨now, .sendResponse⟩ ∨ due w) :
    (d'.responseRefused now q).Armed now due := by
  obtain ⟨-, responses, -, rfl⟩ := takeResponse_eq_some h
  exact ⟨armed.requests.ignore nofun, roused_awaiting⟩

theorem sound_responseRefused (h : d.takeResponse now = some (p, d')) (sound : d.Sound) :
    (d'.responseRefused now q).Sound := by
  obtain ⟨-, responses, popped, rfl⟩ := takeResponse_eq_some h
  obtain ⟨-, -, -, capacity⟩ := PacketQueue.popReady?_eq_some popped
  have length : (responses.pushFront q now).packets.length = d.responses.packets.length := by
    simp [PacketQueue.packets_popReady popped]
  refine ⟨sound.requestOwed, fun owed => ?_, sound.waiting⟩
  rw [← sound.responseOwed owed]
  exact PacketQueue.isFull_congr length capacity

theorem sound_recvResponseRetry (h : d.Sound) : (d.recvResponseRetry now).1.Sound :=
  ⟨h.requestOwed, h.responseOwed, h.waiting⟩

theorem armed_recvResponseRetry (h : d.Armed now due) :
    (d.recvResponseRetry now).1.Armed now
      fun w => due w ∨ Called now ((d.recvResponseRetry now).2.map .wake) w :=
  ⟨h.requests.mono fun _ => .inl, roused_sendAfter⟩

end Expander.Device
