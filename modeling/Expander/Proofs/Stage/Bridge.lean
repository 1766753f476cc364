import Expander.Proofs.Stage.View

/-!
The bridge as a stage.

A sound bridge owes a retry only while it has no room, and has reserved no more responses than its
response queue holds. Both queues of an armed bridge are roused. Every call keeps the two, and
changes the view in the way its name says.
-/

set_option autoImplicit false

namespace Expander.Bridge

/-- What every bridge keeps to between calls. -/
structure Sound (b : Bridge) : Prop where
  /-- A retry is owed only for want of room. -/
  owed : b.retryOwed = true → b.hasRoom = false
  /-- Every reserved response fits. -/
  reserved_le : b.reserved ≤ b.config.responseDepth

/-- Both heads have their wake-ups. -/
structure Armed (now : Tick) (due : Wakeup → Prop) (b : Bridge) : Prop where
  requests : Roused now due .sendRequest b.awaitingRequestRetry b.requests.headReady
  responses : Roused now due .sendResponse b.awaitingResponseRetry b.responses.headReady

variable {b b' : Bridge} {now : Tick} {p q : Packet} {due : Wakeup → Prop}

theorem Armed.mono {due' : Wakeup → Prop} (h : b.Armed now due) (sub : ∀ w, due w → due' w) :
    b.Armed now due' :=
  ⟨h.requests.mono sub, h.responses.mono sub⟩

theorem Armed.later {next : Tick} (h : b.Armed now due) (le : now ≤ next)
    (ahead : ∀ w, due w → next ≤ w.tick) : b.Armed next due :=
  ⟨h.requests.later le ahead, h.responses.later le ahead⟩

theorem bare_tag (b : Bridge) (p : Packet) : (b.tag p).bare = p.bare := by
  rw [tag]
  split <;> rfl

theorem hasRoom_eq_false_iff :
    b.hasRoom = false ↔ b.requests.isFull = true ∨ b.config.responseDepth ≤ b.reserved := by
  cases h : b.requests.isFull <;> simp [hasRoom, h]

theorem retryIfRoom_eq (b : Bridge) :
    b.retryIfRoom = ({ b with retryOwed := b.retryOwed && !b.hasRoom },
      if b.retryOwed && b.hasRoom then [.retryRequest] else []) := by
  rw [retryIfRoom]
  cases howed : b.retryOwed with
  | false =>
    obtain ⟨⟩ := b
    simp_all
  | true =>
    cases hroom : b.hasRoom with
    | false =>
      obtain ⟨⟩ := b
      simp_all
    | true => rfl

theorem sound_retryIfRoom (le : b.reserved ≤ b.config.responseDepth) :
    b.retryIfRoom.1.Sound := by
  rw [retryIfRoom_eq]
  refine ⟨fun owed => ?_, le⟩
  have none : b.hasRoom = false := by
    simp only [Bool.and_eq_true, Bool.not_eq_eq_eq_not, Bool.not_true] at owed
    exact owed.2
  exact none

theorem recvRequest_cases (b : Bridge) (now : Tick) (p : Packet) :
    (b.serves p = false ∧ b.recvRequest now p = ⟨b, [], .unroutable p⟩) ∨
    (b.serves p = true ∧ b.hasRoom = false ∧ ∃ counters,
      b.recvRequest now p = ⟨{ b with retryOwed := true, counters }, [], .busy p⟩) ∨
    (b.serves p = true ∧ b.hasRoom = true ∧ ∃ requests counters,
      b.requests.push? (b.tag p.chargeHeader) (now + p.headerDelay + b.delayFor p.addr) =
        some requests ∧
      b.recvRequest now p = ⟨{ b with requests, reserved := b.reserved + 1, counters },
        wakeFirst b.requests b.awaitingRequestRetry (now + p.headerDelay + b.delayFor p.addr)
          .sendRequest, .accepted⟩) := by
  rw [recvRequest]
  split
  next unserved => exact .inl ⟨by simpa using unserved, rfl⟩
  next served =>
    have serves : b.serves p = true := by simpa using served
    split
    next reserved =>
      exact .inr (.inl ⟨serves, hasRoom_eq_false_iff.2 (.inr reserved), _, rfl⟩)
    next free =>
      simp only
      split
      next full =>
        have isFull := PacketQueue.push?_eq_none full
        exact .inr (.inl ⟨serves, hasRoom_eq_false_iff.2 (.inl isFull), _, rfl⟩)
      next requests pushed =>
        have notFull := (PacketQueue.push?_eq_some pushed).1
        refine .inr (.inr ⟨serves, ?_, requests, _, pushed, rfl⟩)
        simpa [hasRoom, notFull] using free

theorem armed_recvRequest (h : b.Armed now due) :
    (b.recvRequest now p).stage.Armed now
      fun w => due w ∨ Called now (b.recvRequest now p).actions w := by
  rcases recvRequest_cases b now p with ⟨-, eq⟩ | ⟨-, -, counters, eq⟩ |
    ⟨-, -, requests, counters, pushed, eq⟩
  · rw [eq]
    exact ⟨h.requests.mono fun _ => .inl, h.responses.mono fun _ => .inl⟩
  · rw [eq]
    exact ⟨h.requests.mono fun _ => .inl, h.responses.mono fun _ => .inl⟩
  · rw [eq]
    exact ⟨PacketQueue.roused_push h.requests pushed, h.responses.mono fun _ => .inl⟩

theorem sound_recvRequest (h : b.Sound) : (b.recvRequest now p).stage.Sound := by
  rcases recvRequest_cases b now p with ⟨-, eq⟩ | ⟨-, full, counters, eq⟩ |
    ⟨-, room, requests, counters, pushed, eq⟩
  · rwa [eq]
  · rw [eq]
    exact ⟨fun _ => full, h.reserved_le⟩
  · rw [eq]
    have lt : b.reserved < b.config.responseDepth := by
      simp only [hasRoom, Bool.and_eq_true, decide_eq_true_eq] at room
      exact room.2
    refine ⟨fun owed => ?_, lt⟩
    exact absurd (h.owed owed) (by simp [room])

theorem takeRequest_eq_some (h : b.takeRequest now = some (p, b')) :
    b.awaitingRequestRetry = false ∧ ∃ requests, b.requests.popReady? now = some (p, requests) ∧
      b' = { b with requests } := by
  rw [takeRequest] at h
  split at h
  · cases h
  · rename_i free
    obtain ⟨⟨p', requests⟩, popped, eq⟩ := Option.map_eq_some_iff.1 h
    cases eq
    exact ⟨by simpa using free, requests, popped, rfl⟩

theorem armed_takeRequest_none (h : b.takeRequest now = none)
    (armed : b.Armed now fun w => w = ⟨now, .sendRequest⟩ ∨ due w) : b.Armed now due := by
  refine ⟨PacketQueue.roused_spent armed.requests fun free => ?_, armed.responses.ignore nofun⟩
  simpa [takeRequest, free] using h

theorem view_takeRequest (h : b.takeRequest now = some (p, b')) :
    b.view.awaitsRequest = false ∧
      b.view = { b'.view with requests := p.bare :: b'.view.requests } := by
  obtain ⟨free, requests, popped, rfl⟩ := takeRequest_eq_some h
  obtain ⟨-, -, -, capacity⟩ := PacketQueue.popReady?_eq_some popped
  refine ⟨free, ?_⟩
  simp [view, PacketQueue.packets_popReady popped, capacity]

theorem view_retryIfRoom (b : Bridge) : b.retryIfRoom.1.view = b.view.redeem b.retryIfRoom.2 := by
  rw [retryIfRoom_eq]
  cases howed : b.retryOwed <;> cases hroom : b.hasRoom <;>
    simp [view, StageView.redeem, howed]

theorem view_requestSent (b : Bridge) (now : Tick) :
    (b.requestSent now).1.view = b.view.redeem (b.requestSent now).2 := by
  simp only [requestSent, StageView.redeem_map_wake_append]
  exact view_retryIfRoom b

theorem armed_requestSent (h : b.takeRequest now = some (p, b'))
    (armed : b.Armed now fun w => w = ⟨now, .sendRequest⟩ ∨ due w) :
    (b'.requestSent now).1.Armed now fun w => due w ∨ Called now (b'.requestSent now).2 w := by
  obtain ⟨-, requests, -, rfl⟩ := takeRequest_eq_some h
  simp only [requestSent, retryIfRoom_eq]
  exact ⟨roused_sendAfter.mono fun _ => Or.imp_right Called.append_left,
    (armed.responses.ignore nofun).mono fun _ => .inl⟩

theorem sound_requestSent (h : b.takeRequest now = some (p, b')) (sound : b.Sound) :
    (b'.requestSent now).1.Sound := by
  obtain ⟨-, requests, -, rfl⟩ := takeRequest_eq_some h
  exact sound_retryIfRoom sound.reserved_le

theorem armed_requestRefused (h : b.takeRequest now = some (p, b'))
    (armed : b.Armed now fun w => w = ⟨now, .sendRequest⟩ ∨ due w) :
    (b'.requestRefused now q).Armed now due := by
  obtain ⟨-, requests, -, rfl⟩ := takeRequest_eq_some h
  exact ⟨roused_awaiting, armed.responses.ignore nofun⟩

theorem sound_requestRefused (h : b.takeRequest now = some (p, b')) (sound : b.Sound) :
    (b'.requestRefused now q).Sound := by
  obtain ⟨-, requests, popped, rfl⟩ := takeRequest_eq_some h
  obtain ⟨-, -, entries, capacity⟩ := PacketQueue.popReady?_eq_some popped
  refine ⟨fun owed => ?_, sound.reserved_le⟩
  have full := hasRoom_eq_false_iff.1 (sound.owed owed)
  refine hasRoom_eq_false_iff.2 (full.imp_left fun isFull => ?_)
  rw [← isFull]
  have length : (requests.pushFront q now).packets.length = b.requests.packets.length := by
    simp [PacketQueue.packets_popReady popped]
  exact PacketQueue.isFull_congr length capacity

theorem sound_recvRequestRetry (h : b.Sound) : (b.recvRequestRetry now).1.Sound :=
  ⟨h.owed, h.reserved_le⟩

theorem armed_recvRequestRetry (h : b.Armed now due) :
    (b.recvRequestRetry now).1.Armed now
      fun w => due w ∨ Called now ((b.recvRequestRetry now).2.map .wake) w :=
  ⟨roused_sendAfter, h.responses.mono fun _ => .inl⟩

theorem recvResponse_cases (b : Bridge) (now : Tick) (p : Packet) :
    (b.responses.isFull = true ∧ b.recvResponse now p = ⟨b, [], .busy p⟩) ∨
    (∃ responses counters,
      b.responses.push? p.chargeHeader (now + p.headerDelay + b.delayFor p.addr) =
        some responses ∧
      b.recvResponse now p = ⟨{ b with responses, lastResponse := some now, counters },
        wakeFirst b.responses b.awaitingResponseRetry (now + p.headerDelay + b.delayFor p.addr)
          .sendResponse, .accepted⟩) := by
  rw [recvResponse]
  split
  next full => exact .inl ⟨PacketQueue.push?_eq_none full, rfl⟩
  next responses pushed => exact .inr ⟨responses, _, pushed, rfl⟩

theorem armed_recvResponse (h : b.Armed now due) :
    (b.recvResponse now p).stage.Armed now
      fun w => due w ∨ Called now (b.recvResponse now p).actions w := by
  rcases recvResponse_cases b now p with ⟨-, eq⟩ | ⟨responses, counters, pushed, eq⟩
  · rw [eq]
    exact ⟨h.requests.mono fun _ => .inl, h.responses.mono fun _ => .inl⟩
  · rw [eq]
    exact ⟨h.requests.mono fun _ => .inl, PacketQueue.roused_push h.responses pushed⟩

theorem sound_recvResponse (h : b.Sound) : (b.recvResponse now p).stage.Sound := by
  rcases recvResponse_cases b now p with ⟨-, eq⟩ | ⟨responses, counters, pushed, eq⟩
  · rwa [eq]
  · rw [eq]
    exact ⟨h.owed, h.reserved_le⟩

theorem takeResponse_eq_some (h : b.takeResponse now = some (p, b')) :
    b.awaitingResponseRetry = false ∧
      ∃ responses, b.responses.popReady? now = some (p, responses) ∧
        b' = { b with responses } := by
  rw [takeResponse] at h
  split at h
  · cases h
  · rename_i free
    obtain ⟨⟨p', responses⟩, popped, eq⟩ := Option.map_eq_some_iff.1 h
    cases eq
    exact ⟨by simpa using free, responses, popped, rfl⟩

theorem armed_takeResponse_none (h : b.takeResponse now = none)
    (armed : b.Armed now fun w => w = ⟨now, .sendResponse⟩ ∨ due w) : b.Armed now due := by
  refine ⟨armed.requests.ignore nofun, PacketQueue.roused_spent armed.responses fun free => ?_⟩
  simpa [takeResponse, free] using h

theorem view_takeResponse (h : b.takeResponse now = some (p, b')) :
    b.view.awaitsResponse = false ∧
      b.view = { b'.view with answers := p.bare ::ₘ b'.view.answers } := by
  obtain ⟨free, responses, popped, rfl⟩ := takeResponse_eq_some h
  obtain ⟨-, -, -, capacity⟩ := PacketQueue.popReady?_eq_some popped
  refine ⟨free, ?_⟩
  simp [view, PacketQueue.packets_popReady popped, capacity]

theorem view_responseSent (b : Bridge) (now : Tick) :
    (b.responseSent now).1.view =
      { b.view with reserved := b.reserved - 1 }.redeem (b.responseSent now).2 := by
  simp only [responseSent, StageView.redeem_map_wake_append]
  exact view_retryIfRoom { b with reserved := b.reserved - 1 }

theorem armed_responseSent (h : b.takeResponse now = some (p, b'))
    (armed : b.Armed now fun w => w = ⟨now, .sendResponse⟩ ∨ due w) :
    (b'.responseSent now).1.Armed now fun w => due w ∨ Called now (b'.responseSent now).2 w := by
  obtain ⟨-, responses, -, rfl⟩ := takeResponse_eq_some h
  simp only [responseSent, retryIfRoom_eq]
  exact ⟨(armed.requests.ignore nofun).mono fun _ => .inl,
    roused_sendAfter.mono fun _ => Or.imp_right Called.append_left⟩

theorem sound_responseSent (h : b.takeResponse now = some (p, b')) (sound : b.Sound) :
    (b'.responseSent now).1.Sound := by
  obtain ⟨-, responses, -, rfl⟩ := takeResponse_eq_some h
  exact sound_retryIfRoom ((Nat.sub_le _ 1).trans sound.reserved_le)

theorem armed_responseRefused (h : b.takeResponse now = some (p, b'))
    (armed : b.Armed now fun w => w = ⟨now, .sendResponse⟩ ∨ due w) :
    (b'.responseRefused now q).Armed now due := by
  obtain ⟨-, responses, -, rfl⟩ := takeResponse_eq_some h
  exact ⟨armed.requests.ignore nofun, roused_awaiting⟩

theorem sound_responseRefused (h : b.takeResponse now = some (p, b')) (sound : b.Sound) :
    (b'.responseRefused now q).Sound := by
  obtain ⟨-, responses, -, rfl⟩ := takeResponse_eq_some h
  exact ⟨sound.owed, sound.reserved_le⟩

theorem sound_recvResponseRetry (h : b.Sound) : (b.recvResponseRetry now).1.Sound :=
  ⟨h.owed, h.reserved_le⟩

theorem armed_recvResponseRetry (h : b.Armed now due) :
    (b.recvResponseRetry now).1.Armed now
      fun w => due w ∨ Called now ((b.recvResponseRetry now).2.map .wake) w :=
  ⟨h.requests.mono fun _ => .inl, roused_sendAfter⟩

end Expander.Bridge
