import Expander.Proofs.Stage.Renumbering.Controller

/-!
Stages with other transaction numbers.

A stage hands numbers of transactions on, and compares them only with each other. So a stage whose
packets have been given other numbers does as before, with the other numbers, as long as different
numbers stay different (`Stage.recvRequest_renumber`, `Stage.process_renumber`).
-/

set_option autoImplicit false

namespace Expander

variable {f : TransactionId → TransactionId} {now : Tick} {p : Packet}

namespace Bridge

def renumber (f : TransactionId → TransactionId) (b : Bridge) : Bridge :=
  { b with requests := b.requests.renumber f, responses := b.responses.renumber f }

variable (b : Bridge)

theorem tag_renumber (p : Packet) : (b.renumber f).tag (p.renumber f) = (b.tag p).renumber f := by
  have same : (b.renumber f).expander.contains (p.renumber f).addr = b.expander.contains p.addr :=
    rfl
  rw [tag, tag, same]
  split <;> rfl

theorem hasRoom_renumber : (b.renumber f).hasRoom = b.hasRoom := by
  have full : (b.renumber f).requests.isFull = b.requests.isFull := b.requests.isFull_renumber
  rw [hasRoom, hasRoom, full]
  rfl

theorem retryIfRoom_renumber :
    (b.renumber f).retryIfRoom = (b.retryIfRoom.1.renumber f, b.retryIfRoom.2) := by
  have same : (b.renumber f).retryOwed = b.retryOwed := rfl
  rw [retryIfRoom, retryIfRoom, hasRoom_renumber, same]
  split <;> rfl

theorem wakeFirst_renumber (q : PacketQueue) (awaiting : Bool) (ready : Tick) (kind : EventKind) :
    wakeFirst (q.renumber f) awaiting ready kind = wakeFirst q awaiting ready kind := by
  simp only [wakeFirst, PacketQueue.isEmpty_renumber]

theorem recvRequest_renumber : (b.renumber f).recvRequest now (p.renumber f) =
    (b.recvRequest now p).renumber (renumber f) f := by
  have serves : (b.renumber f).serves (p.renumber f) = b.serves p := rfl
  have reserved : (b.renumber f).reserved = b.reserved := rfl
  have config : (b.renumber f).config = b.config := rfl
  have requests : (b.renumber f).requests = b.requests.renumber f := rfl
  have delay : (b.renumber f).delayFor (p.renumber f).addr = b.delayFor p.addr := rfl
  simp only [recvRequest, serves, reserved, config, requests, delay, tag_renumber,
    Packet.renumber_chargeHeader, Packet.headerDelay_renumber, PacketQueue.push?_renumber,
    wakeFirst_renumber]
  split
  · rfl
  · split
    · rfl
    · cases b.requests.push? (b.tag p.chargeHeader) (now + p.headerDelay + b.delayFor p.addr) <;>
        rfl

theorem takeRequest_renumber : (b.renumber f).takeRequest now =
    (b.takeRequest now).map fun r => (r.1.renumber f, r.2.renumber f) := by
  have awaits : (b.renumber f).awaitingRequestRetry = b.awaitingRequestRetry := rfl
  have requests : (b.renumber f).requests = b.requests.renumber f := rfl
  rw [takeRequest, takeRequest, awaits, requests, PacketQueue.popReady?_renumber]
  split
  · rfl
  · cases b.requests.popReady? now <;> rfl

theorem requestSent_renumber : (b.renumber f).requestSent now =
    ((b.requestSent now).1.renumber f, (b.requestSent now).2) := by
  have requests : (b.renumber f).requests = b.requests.renumber f := rfl
  simp only [requestSent, retryIfRoom_renumber, requests, PacketQueue.headReady_renumber]

theorem recvRequestRetry_renumber : (b.renumber f).recvRequestRetry now =
    ((b.recvRequestRetry now).1.renumber f, (b.recvRequestRetry now).2) := by
  have requests : (b.renumber f).requests = b.requests.renumber f := rfl
  rw [recvRequestRetry, recvRequestRetry, requests, PacketQueue.headReady_renumber]
  rfl

theorem recvResponse_renumber : (b.renumber f).recvResponse now (p.renumber f) =
    (b.recvResponse now p).renumber (renumber f) f := by
  have responses : (b.renumber f).responses = b.responses.renumber f := rfl
  have delay : (b.renumber f).delayFor (p.renumber f).addr = b.delayFor p.addr := rfl
  simp only [recvResponse, responses, delay, Packet.renumber_chargeHeader,
    Packet.headerDelay_renumber, PacketQueue.push?_renumber, wakeFirst_renumber]
  cases b.responses.push? p.chargeHeader (now + p.headerDelay + b.delayFor p.addr) <;> rfl

theorem takeResponse_renumber : (b.renumber f).takeResponse now =
    (b.takeResponse now).map fun r => (r.1.renumber f, r.2.renumber f) := by
  have awaits : (b.renumber f).awaitingResponseRetry = b.awaitingResponseRetry := rfl
  have responses : (b.renumber f).responses = b.responses.renumber f := rfl
  rw [takeResponse, takeResponse, awaits, responses, PacketQueue.popReady?_renumber]
  split
  · rfl
  · cases b.responses.popReady? now <;> rfl

theorem responseSent_renumber : (b.renumber f).responseSent now =
    ((b.responseSent now).1.renumber f, (b.responseSent now).2) := by
  have freed := retryIfRoom_renumber (f := f) { b with reserved := b.reserved - 1 }
  have ready : (b.renumber f).responses.headReady = b.responses.headReady :=
    b.responses.headReady_renumber
  rw [responseSent, responseSent, ready]
  exact congrArg (fun r : Bridge × List Action =>
    (r.1, (sendAfter .sendResponse now b.responses.headReady).map .wake ++ r.2)) freed

theorem recvResponseRetry_renumber : (b.renumber f).recvResponseRetry now =
    ((b.recvResponseRetry now).1.renumber f, (b.recvResponseRetry now).2) := by
  have responses : (b.renumber f).responses = b.responses.renumber f := rfl
  rw [recvResponseRetry, recvResponseRetry, responses, PacketQueue.headReady_renumber]
  rfl

end Bridge

namespace Device

def renumber (f : TransactionId → TransactionId) (d : Device) : Device :=
  { d with requests := d.requests.renumber f, responses := d.responses.renumber f }

variable (d : Device)

theorem tagRequest_renumber (p : Packet) :
    tagRequest (p.renumber f) = (tagRequest p).renumber f := by
  have same : (p.renumber f).link = p.link := rfl
  rw [tagRequest, tagRequest, same]
  split <;> rfl

theorem recvRequest_renumber : (d.renumber f).recvRequest now (p.renumber f) =
    (d.recvRequest now p).renumber (renumber f) f := by
  have config : (d.renumber f).config = d.config := rfl
  have requests : (d.renumber f).requests = d.requests.renumber f := rfl
  simp only [recvRequest, config, requests, Packet.renumber_chargeHeader, tagRequest_renumber,
    Packet.addr_renumber, Packet.size_renumber, Packet.headerDelay_renumber,
    PacketQueue.push?_renumber, PacketQueue.isEmpty_renumber]
  split
  · rfl
  · cases d.requests.push? (tagRequest p.chargeHeader)
      (now + p.headerDelay + d.config.protocolLatency) with
    | none => rfl
    | some requests =>
      simp only [Option.map_some, PacketQueue.size_renumber]
      rfl

theorem takeRequest_renumber : (d.renumber f).takeRequest now =
    (d.takeRequest now).map fun r => (r.1.renumber f, r.2.renumber f) := by
  have awaits : (d.renumber f).awaitingRequestRetry = d.awaitingRequestRetry := rfl
  have requests : (d.renumber f).requests = d.requests.renumber f := rfl
  rw [takeRequest, takeRequest, awaits, requests, PacketQueue.popReady?_renumber]
  split
  · rfl
  · cases d.requests.popReady? now <;> rfl

theorem requestSent_renumber : (d.renumber f).requestSent now =
    ((d.requestSent now).1.renumber f, (d.requestSent now).2) := by
  have requests : (d.renumber f).requests = d.requests.renumber f := rfl
  rw [requestSent, requestSent, requests, PacketQueue.headReady_renumber]
  rfl

theorem recvRequestRetry_renumber : (d.renumber f).recvRequestRetry now =
    ((d.recvRequestRetry now).1.renumber f, (d.recvRequestRetry now).2) := by
  have requests : (d.renumber f).requests = d.requests.renumber f := rfl
  rw [recvRequestRetry, recvRequestRetry, requests, PacketQueue.headReady_renumber]
  rfl

theorem recvResponse_renumber : (d.renumber f).recvResponse now (p.renumber f) =
    (d.recvResponse now p).renumber (renumber f) f := by
  have config : (d.renumber f).config = d.config := rfl
  have responses : (d.renumber f).responses = d.responses.renumber f := rfl
  have tagged : tagResponse (p.renumber f).chargeHeader = (tagResponse p.chargeHeader).renumber f :=
    rfl
  simp only [recvResponse, config, responses, tagged, Packet.headerDelay_renumber,
    PacketQueue.push?_renumber, PacketQueue.isEmpty_renumber]
  cases d.responses.push? (tagResponse p.chargeHeader)
    (now + p.headerDelay + d.config.protocolLatency) with
  | none => rfl
  | some responses =>
    simp only [Option.map_some, PacketQueue.size_renumber]
    rfl

theorem takeResponse_renumber : (d.renumber f).takeResponse now =
    (d.takeResponse now).map fun r => (r.1.renumber f, r.2.renumber f) := by
  have awaits : (d.renumber f).awaitingResponseRetry = d.awaitingResponseRetry := rfl
  have responses : (d.renumber f).responses = d.responses.renumber f := rfl
  rw [takeResponse, takeResponse, awaits, responses, PacketQueue.popReady?_renumber]
  split
  · rfl
  · cases d.responses.popReady? now <;> rfl

theorem responseSent_renumber : (d.renumber f).responseSent now =
    ((d.responseSent now).1.renumber f, (d.responseSent now).2) := by
  have responses : (d.renumber f).responses = d.responses.renumber f := rfl
  rw [responseSent, responseSent, responses, PacketQueue.headReady_renumber]
  rfl

theorem recvResponseRetry_renumber : (d.renumber f).recvResponseRetry now =
    ((d.recvResponseRetry now).1.renumber f, (d.recvResponseRetry now).2) := by
  have responses : (d.renumber f).responses = d.responses.renumber f := rfl
  rw [recvResponseRetry, recvResponseRetry, responses, PacketQueue.headReady_renumber]
  rfl

end Device

namespace SystemMemory

def renumber (f : TransactionId → TransactionId) (m : SystemMemory) : SystemMemory :=
  { m with responses := m.responses.renumber f }

variable (m : SystemMemory)

theorem perform_renumber : (m.renumber f).perform (p.renumber f) =
    ((m.perform p).1.renumber f, (m.perform p).2.renumber f) := by
  have kind : (p.renumber f).kind = p.kind := rfl
  rw [perform, perform, kind]
  cases p.kind <;> rfl

theorem recvRequest_renumber : (m.renumber f).recvRequest now (p.renumber f) =
    (m.recvRequest now p).renumber (renumber f) f := by
  have range : (m.renumber f).range = m.range := rfl
  have latency : (m.renumber f).latency = m.latency := rfl
  have responses : (m.renumber f).responses = m.responses.renumber f := rfl
  simp only [recvRequest, range, latency, responses, Packet.addr_renumber, Packet.size_renumber,
    Packet.headerDelay_renumber, Packet.renumber_chargeHeader, perform_renumber,
    PacketQueue.push?_renumber]
  split
  · rfl
  · cases m.responses.push? (m.perform p.chargeHeader).1 (now + p.headerDelay + m.latency) <;> rfl

theorem takeResponse_renumber : (m.renumber f).takeResponse now =
    (m.takeResponse now).map fun r => (r.1.renumber f, r.2.renumber f) := by
  have awaits : (m.renumber f).awaitingRetry = m.awaitingRetry := rfl
  have responses : (m.renumber f).responses = m.responses.renumber f := rfl
  rw [takeResponse, takeResponse, awaits, responses, PacketQueue.popReady?_renumber]
  split
  · rfl
  · cases m.responses.popReady? now <;> rfl

theorem responseSent_renumber : (m.renumber f).responseSent now =
    ((m.responseSent now).1.renumber f, (m.responseSent now).2) := by
  have responses : (m.renumber f).responses = m.responses.renumber f := rfl
  rw [responseSent, responseSent, responses, PacketQueue.headReady_renumber]

end SystemMemory

namespace Stage

def renumber (f : TransactionId → TransactionId) : Stage → Stage
  | bridge b => bridge (b.renumber f)
  | device d => device (d.renumber f)
  | controller c => controller (c.renumber f)
  | memory m => memory (m.renumber f)

variable (s : Stage)

theorem name_renumber : (s.renumber f).name = s.name := by
  cases s <;> rfl

theorem recvRequest_renumber (inj : Function.Injective f) :
    (s.renumber f).recvRequest now (p.renumber f) =
      (s.recvRequest now p).renumber (renumber f) f := by
  cases s with
  | bridge b => exact congrArg (Reply.map bridge) b.recvRequest_renumber
  | device d => exact congrArg (Reply.map device) d.recvRequest_renumber
  | controller c => exact congrArg (Reply.map controller) (c.recvRequest_renumber inj)
  | memory m => exact congrArg (Reply.map memory) m.recvRequest_renumber

theorem recvResponse_renumber : (s.renumber f).recvResponse now (p.renumber f) =
    (s.recvResponse now p).renumber (renumber f) f := by
  cases s with
  | bridge b => exact congrArg (Reply.map bridge) b.recvResponse_renumber
  | device d => exact congrArg (Reply.map device) d.recvResponse_renumber
  | controller | memory => rfl

theorem takeRequest_renumber : (s.renumber f).takeRequest now =
    (s.takeRequest now).map fun r => (r.1.renumber f, r.2.renumber f) := by
  cases s with
  | bridge b =>
    simp only [renumber, takeRequest, b.takeRequest_renumber]
    cases b.takeRequest now <;> rfl
  | device d =>
    simp only [renumber, takeRequest, d.takeRequest_renumber]
    cases d.takeRequest now <;> rfl
  | controller | memory => rfl

theorem requestSent_renumber : (s.renumber f).requestSent now =
    ((s.requestSent now).1.renumber f, (s.requestSent now).2) := by
  cases s with
  | bridge b => simp only [renumber, requestSent, b.requestSent_renumber]
  | device d => simp only [renumber, requestSent, d.requestSent_renumber]
  | controller | memory => rfl

theorem requestRefused_renumber : (s.renumber f).requestRefused now (p.renumber f) =
    (s.requestRefused now p).renumber f := by
  cases s <;> rfl

theorem recvRequestRetry_renumber : (s.renumber f).recvRequestRetry now =
    ((s.recvRequestRetry now).1.renumber f, (s.recvRequestRetry now).2) := by
  cases s with
  | bridge b => simp only [renumber, recvRequestRetry, b.recvRequestRetry_renumber]
  | device d => simp only [renumber, recvRequestRetry, d.recvRequestRetry_renumber]
  | controller | memory => rfl

theorem takeResponse_renumber : (s.renumber f).takeResponse now =
    (s.takeResponse now).map fun r => (r.1.renumber f, r.2.renumber f) := by
  cases s with
  | bridge b =>
    simp only [renumber, takeResponse, b.takeResponse_renumber]
    cases b.takeResponse now <;> rfl
  | device d =>
    simp only [renumber, takeResponse, d.takeResponse_renumber]
    cases d.takeResponse now <;> rfl
  | controller c =>
    simp only [renumber, takeResponse, c.takeResponse_renumber]
    cases c.takeResponse now <;> rfl
  | memory m =>
    simp only [renumber, takeResponse, m.takeResponse_renumber]
    cases m.takeResponse now <;> rfl

theorem responseSent_renumber : (s.renumber f).responseSent now =
    ((s.responseSent now).1.renumber f, (s.responseSent now).2) := by
  cases s with
  | bridge b => simp only [renumber, responseSent, b.responseSent_renumber]
  | device d => simp only [renumber, responseSent, d.responseSent_renumber]
  | controller c => simp only [renumber, responseSent, c.responseSent_renumber]
  | memory m => simp only [renumber, responseSent, m.responseSent_renumber]

theorem responseRefused_renumber : (s.renumber f).responseRefused now (p.renumber f) =
    (s.responseRefused now p).renumber f := by
  cases s with
  | bridge | device | memory => rfl
  | controller c => exact congrArg controller c.responseRefused_renumber

theorem recvResponseRetry_renumber : (s.renumber f).recvResponseRetry now =
    ((s.recvResponseRetry now).1.renumber f, (s.recvResponseRetry now).2) := by
  cases s with
  | bridge b => simp only [renumber, recvResponseRetry, b.recvResponseRetry_renumber]
  | device d => simp only [renumber, recvResponseRetry, d.recvResponseRetry_renumber]
  | controller | memory => rfl

theorem process_renumber (inj : Function.Injective f) : (s.renumber f).process now =
    ((s.process now).1.renumber f, (s.process now).2) := by
  cases s with
  | controller c => simp only [renumber, process, c.process_renumber inj]
  | bridge | device | memory => rfl

variable {s} in
theorem DeniesRequest.renumber_congr {g : TransactionId → TransactionId} {after : Stage}
    (denies : s.DeniesRequest now after) (same : s.renumber g = s.renumber f) :
    after.renumber g = after.renumber f := by
  cases denies with
  | unreserved b =>
    exact congrArg (fun other : Bridge => Stage.bridge { other with
      retryOwed := true
      counters := { other.counters with
        responseQueueFull := other.counters.responseQueueFull + 1 } }) (Stage.bridge.inj same)
  | bridge b =>
    exact congrArg (fun other : Bridge => Stage.bridge { other with
      retryOwed := true
      counters := { other.counters with
        requestQueueFull := other.counters.requestQueueFull + 1 } }) (Stage.bridge.inj same)
  | device d =>
    exact congrArg (fun other : Device => Stage.device { other with
      requestRetryOwed := true
      counters := { other.counters with
        requestBufferFull := other.counters.requestBufferFull + 1 } }) (Stage.device.inj same)
  | read c =>
    exact congrArg (fun other : Controller Media => Stage.controller { other.prune now with
      readRetryOwed := true
      counters := { other.counters with
        rejectedReads := other.counters.rejectedReads + 1 } }) (Stage.controller.inj same)
  | write c =>
    exact congrArg (fun other : Controller Media => Stage.controller { other.prune now with
      writeRetryOwed := true
      counters := { other.counters with
        rejectedWrites := other.counters.rejectedWrites + 1 } }) (Stage.controller.inj same)

end Stage

end Expander
