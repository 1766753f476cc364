import Expander.Proofs.Stage.Renumbering.Queues

/-!
The controller with other transaction numbers.

The controller finds the read that a burst belongs to by its number. So it does as before with other
numbers, as long as different numbers stay different (`Controller.recvRequest_renumber`,
`Controller.process_renumber`).
-/

set_option autoImplicit false

namespace Expander

variable {f : TransactionId → TransactionId} {now : Tick} {p : Packet}

def Burst.renumber (f : TransactionId → TransactionId) (b : Burst) : Burst :=
  { b with packetId := f b.packetId }

def PendingRead.renumber (f : TransactionId → TransactionId) (r : PendingRead) : PendingRead :=
  { r with packet := r.packet.renumber f }

def ReadyResponse.renumber (f : TransactionId → TransactionId) (r : ReadyResponse) :
    ReadyResponse :=
  { r with packet := r.packet.renumber f }

namespace Controller

def renumber (f : TransactionId → TransactionId) (c : Controller Media) : Controller Media :=
  { c with
    readQueue := c.readQueue.map (Burst.renumber f)
    writeQueue := c.writeQueue.map (Burst.renumber f)
    pending := c.pending.map fun entry => (f entry.1, entry.2.renumber f)
    responses := c.responses.map (ReadyResponse.renumber f) }

variable (c : Controller Media)

theorem push_renumber (h : Heap ReadyResponse) (r : ReadyResponse) :
    (h.map (ReadyResponse.renumber f)).push ReadyResponse.before (r.renumber f) =
      (h.push ReadyResponse.before r).map (ReadyResponse.renumber f) :=
  Heap.push_map (fun _ _ => rfl) h r

theorem pushResponse_renumber (ready : Tick) (p : Packet) :
    (c.renumber f).pushResponse ready (p.renumber f) =
      ((c.pushResponse ready p).1.renumber f, (c.pushResponse ready p).2) := by
  have pushed := push_renumber (f := f) c.responses ⟨ready, c.nextSeq, p⟩
  exact congrArg (fun responses => ({ c.renumber f with responses, nextSeq := c.nextSeq + 1 },
    [Action.at ready .sendResponse])) pushed

theorem requestRound_renumber (tick : Tick) : (c.renumber f).requestRound tick =
    ((c.requestRound tick).1.renumber f, (c.requestRound tick).2) := by
  have planned : (c.renumber f).nextRound = c.nextRound := rfl
  have notBefore : (c.renumber f).roundNotBefore = c.roundNotBefore := rfl
  simp only [requestRound, planned, notBefore]
  split <;> rfl

theorem readRoom_renumber (needed : Nat) :
    (c.renumber f).readRoom now needed = c.readRoom now needed := by
  have length : (c.renumber f).readQueue.length = c.readQueue.length := List.length_map _
  rw [readRoom, readRoom, outstandingReads, outstandingReads, length]
  rfl

theorem writeRoom_renumber (needed : Nat) :
    (c.renumber f).writeRoom now needed = c.writeRoom now needed := by
  have length : (c.renumber f).writeQueue.length = c.writeQueue.length := List.length_map _
  rw [writeRoom, writeRoom, outstandingWrites, outstandingWrites, length]
  rfl

theorem filter_pending_renumber (inj : Function.Injective f) (id : TransactionId) :
    (c.renumber f).pending.filter (fun entry => entry.1 != f id) =
      (c.pending.filter fun entry => entry.1 != id).map
        fun entry => (f entry.1, entry.2.renumber f) := by
  rw [renumber, List.filter_map]
  refine congrArg (List.map _) (List.filter_congr fun entry _ => ?_)
  have same : f entry.1 = f id ↔ entry.1 = id := inj.eq_iff
  simp only [Function.comp_apply, bne, beq_eq_decide, same]

theorem filePending_renumber (inj : Function.Injective f) (id : TransactionId)
    (read : PendingRead) : (c.renumber f).filePending (f id) (read.renumber f) =
      (c.filePending id read).renumber f := by
  have others := filter_pending_renumber c inj id
  rw [filePending, filePending, others]
  simp only [renumber, List.map_append, List.map_cons, List.map_nil]

def countRead (c : Controller Media) (p : Packet) : Controller Media :=
  { c with counters := { c.counters with
      readRequests := c.counters.readRequests + 1
      forwardedReads := c.counters.forwardedReads +
        ((c.burstsOf p).length - (c.freshBurstsOf p).length) } }

def queueRead (c : Controller Media) (now : Tick) (p : Packet) : Controller Media :=
  { c with readQueue := c.readQueue ++ (c.freshBurstsOf p).map (c.burstAt p .read now) }

theorem queueRead_renumber : (c.renumber f).queueRead now (p.renumber f) =
    (c.queueRead now p).renumber f := by
  have fresh : (c.renumber f).freshBurstsOf (p.renumber f) = c.freshBurstsOf p := rfl
  rw [queueRead, queueRead, fresh]
  simp only [renumber, List.map_append, List.map_map]
  rfl

theorem acceptRead_eq (c : Controller Media) (now : Tick) (p : Packet) :
    c.acceptRead now p =
      if !c.readRoom now (c.freshBurstsOf p).length then
        ⟨{ c with
            readRetryOwed := true
            counters := { c.counters with rejectedReads := c.counters.rejectedReads + 1 } },
          [], .busy p⟩
      else if (c.freshBurstsOf p).isEmpty then
        let answered := (c.countRead p).pushResponse
          (now + p.headerDelay + c.config.frontendLatency)
          (p.chargeHeader.respond (c.store.readOrZero (c.range.offsetOf p.addr) p.size))
        ⟨answered.1, answered.2, .accepted⟩
      else
        let asked := (((c.countRead p).queueRead now p).filePending p.id
          { packet :=
              p.chargeHeader.respond (c.store.readOrZero (c.range.offsetOf p.addr) p.size)
            burstsLeft := (c.freshBurstsOf p).length, ready := now
            headerDelay := p.headerDelay }).requestRound now
        ⟨asked.1, asked.2, .accepted⟩ := rfl

theorem acceptRead_renumber (inj : Function.Injective f) :
    (c.renumber f).acceptRead now (p.renumber f) =
      (c.acceptRead now p).renumber (renumber f) f := by
  have fresh : (c.renumber f).freshBurstsOf (p.renumber f) = c.freshBurstsOf p := rfl
  have counted : (c.renumber f).countRead (p.renumber f) = (c.countRead p).renumber f := rfl
  have answered (ready : Tick) (data : List UInt8) :=
    pushResponse_renumber (f := f) (c.countRead p) ready (p.chargeHeader.respond data)
  have asked (read : PendingRead) :
      (((c.countRead p).renumber f).queueRead now (p.renumber f)).filePending (f p.id)
        (read.renumber f) =
      (((c.countRead p).queueRead now p).filePending p.id read).renumber f := by
    rw [queueRead_renumber, filePending_renumber _ inj]
  rw [acceptRead_eq, acceptRead_eq, fresh, counted, readRoom_renumber]
  split
  · rfl
  · split
    · exact congrArg (fun r : Controller Media × List Action => Reply.mk r.1 r.2 Delivery.accepted)
        (answered _ _)
    · have round := requestRound_renumber (f := f) (((c.countRead p).queueRead now p).filePending
        p.id { packet :=
              p.chargeHeader.respond (c.store.readOrZero (c.range.offsetOf p.addr) p.size)
               burstsLeft := (c.freshBurstsOf p).length, ready := now
               headerDelay := p.headerDelay }) now
      rw [← asked] at round
      exact congrArg (fun r : Controller Media × List Action =>
        Reply.mk r.1 r.2 Delivery.accepted) round

def queueWrite (c : Controller Media) (now : Tick) (p : Packet) : Controller Media :=
  { c with
    store := c.store.writeOrKeep (c.range.offsetOf p.addr) p.data
    writeQueue := c.writeQueue ++ (c.freshBurstsOf p).map (c.burstAt p .write now)
    queuedWrites := c.queuedWrites ++ c.freshBurstsOf p
    counters := { c.counters with
      writeRequests := c.counters.writeRequests + 1
      mergedWrites := c.counters.mergedWrites +
        ((c.burstsOf p).length - (c.freshBurstsOf p).length) } }

theorem queueWrite_renumber : (c.renumber f).queueWrite now (p.renumber f) =
    (c.queueWrite now p).renumber f := by
  have fresh : (c.renumber f).freshBurstsOf (p.renumber f) = c.freshBurstsOf p := rfl
  rw [queueWrite, queueWrite, fresh]
  simp only [renumber, List.map_append, List.map_map]
  rfl

theorem acceptWrite_eq (c : Controller Media) (now : Tick) (p : Packet) :
    c.acceptWrite now p =
      if !c.writeRoom now (c.freshBurstsOf p).length then
        ⟨{ c with
            writeRetryOwed := true
            counters := { c.counters with rejectedWrites := c.counters.rejectedWrites + 1 } },
          [], .busy p⟩
      else
        let answered := (c.queueWrite now p).pushResponse
          (now + p.headerDelay + c.config.frontendLatency) (p.chargeHeader.respond [])
        let asked := answered.1.requestRound now
        ⟨asked.1, answered.2 ++ asked.2, .accepted⟩ := rfl

theorem acceptWrite_renumber : (c.renumber f).acceptWrite now (p.renumber f) =
    (c.acceptWrite now p).renumber (renumber f) f := by
  have fresh : (c.renumber f).freshBurstsOf (p.renumber f) = c.freshBurstsOf p := rfl
  have answered := pushResponse_renumber (f := f) (c.queueWrite now p)
    (now + p.headerDelay + c.config.frontendLatency) (p.chargeHeader.respond [])
  rw [acceptWrite_eq, acceptWrite_eq, fresh, writeRoom_renumber]
  split
  · rfl
  · have config : (c.renumber f).config = c.config := rfl
    simp only [queueWrite_renumber, config, Packet.headerDelay_renumber,
      Packet.renumber_chargeHeader, Packet.renumber_respond, answered, requestRound_renumber]
    rfl

theorem recvRequest_renumber (inj : Function.Injective f) :
    (c.renumber f).recvRequest now (p.renumber f) =
      (c.recvRequest now p).renumber (renumber f) f := by
  have inside : (c.renumber f).range.containsAccess (p.renumber f).addr (p.renumber f).size =
    c.range.containsAccess p.addr p.size := rfl
  have kind : (p.renumber f).kind = p.kind := rfl
  rw [recvRequest, recvRequest, inside, kind]
  split
  · rfl
  · cases p.kind with
    | read => exact acceptRead_renumber (c.prune now) inj
    | write => exact acceptWrite_renumber (c.prune now)

theorem turnsAround_renumber : (c.renumber f).turnsAround = c.turnsAround := by
  have reads : (c.renumber f).readQueue.isEmpty = c.readQueue.isEmpty := List.isEmpty_map
  have writes : (c.renumber f).writeQueue.isEmpty = c.writeQueue.isEmpty := List.isEmpty_map
  have length : (c.renumber f).writeQueue.length = c.writeQueue.length := List.length_map _
  have direction : (c.renumber f).direction = c.direction := rfl
  rw [turnsAround, turnsAround, direction, reads, writes, length]
  cases c.direction <;> rfl

theorem chooseDirection_renumber :
    (c.renumber f).chooseDirection = c.chooseDirection.renumber f := by
  have direction : (c.renumber f).direction = c.direction := rfl
  rw [chooseDirection, chooseDirection, turnsAround_renumber]
  split
  · rw [turnAround, turnAround, direction]
    cases c.direction <;> rfl
  · rfl

theorem activeQueue_renumber :
    (c.renumber f).activeQueue = c.activeQueue.map (Burst.renumber f) := by
  have direction : (c.renumber f).direction = c.direction := rfl
  rw [activeQueue, activeQueue, direction]
  cases c.direction <;> rfl

theorem withActiveQueue_renumber (queue : List Burst) :
    (c.renumber f).withActiveQueue (queue.map (Burst.renumber f)) =
      (c.withActiveQueue queue).renumber f := by
  have direction : (c.renumber f).direction = c.direction := rfl
  rw [withActiveQueue, withActiveQueue, direction]
  cases c.direction <;> rfl

theorem chooseBurst_renumber (queue : List Burst) :
    (c.renumber f).chooseBurst (queue.map (Burst.renumber f)) = c.chooseBurst queue := by
  have starved : (c.renumber f).isStarved ∘ Burst.renumber f = c.isStarved := rfl
  have hit : (c.renumber f).isRowHit ∘ Burst.renumber f = c.isRowHit := rfl
  rw [chooseBurst, chooseBurst, List.findIdx?_map, List.findIdx?_map, starved, hit]

theorem passOver_renumber (queue : List Burst) (index : Nat) :
    passOver (queue.map (Burst.renumber f)) index =
      (passOver queue index).map (Burst.renumber f) := by
  simp only [passOver, List.eraseIdx_map, List.map_map]
  rfl

theorem lookup_pending_renumber (inj : Function.Injective f) (id : TransactionId) :
    (c.renumber f).pending.lookup (f id) = (c.pending.lookup id).map (PendingRead.renumber f) := by
  have all (pending : List (TransactionId × PendingRead)) :
      (pending.map fun entry => (f entry.1, entry.2.renumber f)).lookup (f id) =
        (pending.lookup id).map (PendingRead.renumber f) := by
    induction pending with
    | nil => rfl
    | cons entry rest ih =>
      have same : f id = f entry.1 ↔ id = entry.1 := inj.eq_iff
      rw [List.map_cons, List.lookup_cons, List.lookup_cons, ih, beq_eq_decide, beq_eq_decide]
      simp only [same]
      split <;> rfl
  exact all c.pending

theorem finishRead_renumber (inj : Function.Injective f) (id : TransactionId) (readyAt : Tick) :
    (c.renumber f).finishRead (f id) readyAt =
      ((c.finishRead id readyAt).1.renumber f, (c.finishRead id readyAt).2) := by
  rw [finishRead, finishRead, lookup_pending_renumber c inj]
  cases c.pending.lookup id with
  | none => rfl
  | some read =>
    have left : (read.renumber f).burstsLeft = read.burstsLeft := rfl
    simp only [Option.map_some, left]
    split
    · refine Prod.ext ?_ rfl
      simp only [renumber, List.map_map]
      congr 1
      refine List.map_congr_left fun entry _ => ?_
      have same : f entry.1 = f id ↔ entry.1 = id := inj.eq_iff
      simp only [Function.comp_apply, same]
      split <;> rfl
    · have answered := pushResponse_renumber (f := f)
        { c with pending := c.pending.filter fun entry => entry.1 != id }
        (max read.ready readyAt + read.headerDelay + c.config.frontendLatency +
          c.config.backendLatency) read.packet
      rw [filter_pending_renumber c inj]
      exact answered

theorem fileIssued_renumber (inj : Function.Injective f) (b : Burst) (readyAt : Tick) :
    (c.renumber f).fileIssued (b.renumber f) readyAt =
      ((c.fileIssued b readyAt).1.renumber f, (c.fileIssued b readyAt).2) := by
  have kind : (b.renumber f).kind = b.kind := rfl
  rw [fileIssued, fileIssued, kind]
  cases b.kind with
  | read =>
    exact finishRead_renumber { c with
      readsThisPhase := c.readsThisPhase + 1
      readsInFlight := readyAt :: c.readsInFlight } inj b.packetId readyAt
  | write => rfl

def served (c : Controller Media) (now : Tick) (b : Burst) (promoted : Bool) (channel : Media) :
    Controller Media × List Action :=
  { c with
    media := c.media.set (c.channelOf b) (MediaChannel.access channel b.coordinate b.kind now).2
    counters := countIssue c.counters b now promoted
      (MediaChannel.access channel b.coordinate b.kind now).1.rowHit }.fileIssued b
        (MediaChannel.access channel b.coordinate b.kind now).1.readyAt

theorem served_renumber (inj : Function.Injective f) (b : Burst) (promoted : Bool)
    (channel : Media) : (c.renumber f).served now (b.renumber f) promoted channel =
      ((c.served now b promoted channel).1.renumber f, (c.served now b promoted channel).2) :=
  fileIssued_renumber { c with
    media := c.media.set (c.channelOf b) (MediaChannel.access channel b.coordinate b.kind now).2
    counters := countIssue c.counters b now promoted
      (MediaChannel.access channel b.coordinate b.kind now).1.rowHit } inj b _

theorem issue_eq (c : Controller Media) (now : Tick) (b : Burst) (promoted : Bool)
    (channel : Media) : c.issue now b promoted channel =
      let access := MediaChannel.access channel b.coordinate b.kind now
      let next := max (now + MediaChannel.commandSlot access.2)
        (access.1.readyAt - MediaChannel.staticLatency access.2)
      let filed := c.served now b promoted channel
      let spaced := { filed.1 with roundNotBefore := next }
      if spaced.readQueue.isEmpty && spaced.writeQueue.isEmpty then (spaced, filed.2)
      else ((spaced.requestRound next).1, filed.2 ++ (spaced.requestRound next).2) := rfl

theorem issue_renumber (inj : Function.Injective f) (b : Burst) (promoted : Bool)
    (channel : Media) : (c.renumber f).issue now (b.renumber f) promoted channel =
      ((c.issue now b promoted channel).1.renumber f, (c.issue now b promoted channel).2) := by
  have coordinate : (b.renumber f).coordinate = b.coordinate := rfl
  have kind : (b.renumber f).kind = b.kind := rfl
  have spaced (next : Tick) (filed : Controller Media) :
      { filed.renumber f with roundNotBefore := next } =
        renumber f { filed with roundNotBefore := next } := rfl
  have reads (filed : Controller Media) :
      (filed.renumber f).readQueue.isEmpty = filed.readQueue.isEmpty := List.isEmpty_map
  have writes (filed : Controller Media) :
      (filed.renumber f).writeQueue.isEmpty = filed.writeQueue.isEmpty := List.isEmpty_map
  rw [issue_eq, issue_eq, served_renumber c inj, coordinate, kind]
  simp only [spaced, reads, writes, requestRound_renumber]
  split <;> rfl

theorem runRound_renumber (inj : Function.Injective f) : (c.renumber f).runRound now =
    ((c.runRound now).1.renumber f, (c.runRound now).2) := by
  have reads : (c.renumber f).readQueue.isEmpty = c.readQueue.isEmpty := List.isEmpty_map
  have writes : (c.renumber f).writeQueue.isEmpty = c.writeQueue.isEmpty := List.isEmpty_map
  rw [runRound, runRound, reads, writes]
  split
  · rfl
  · simp only [chooseDirection_renumber, activeQueue_renumber, chooseBurst_renumber,
      passOver_renumber, withActiveQueue_renumber, List.getElem?_map]
    cases c.chooseDirection.activeQueue[
      (c.chooseDirection.chooseBurst c.chooseDirection.activeQueue).1]? with
    | none => rfl
    | some b =>
      have channel (passed : Controller Media) :
          (passed.renumber f).media[(passed.renumber f).channelOf (b.renumber f)]? =
            passed.media[passed.channelOf b]? := rfl
      simp only [Option.map_some, channel]
      generalize c.chooseDirection.withActiveQueue _ = passed
      cases passed.media[passed.channelOf b]? with
      | none => rfl
      | some m => exact issue_renumber passed inj b _ m

theorem retryIfRoom_renumber : (c.renumber f).retryIfRoom now =
    ((c.retryIfRoom now).1.renumber f, (c.retryIfRoom now).2) := by
  have owed : (c.renumber f).readRetryOwed = c.readRetryOwed ∧
      (c.renumber f).writeRetryOwed = c.writeRetryOwed := ⟨rfl, rfl⟩
  have retry : (c.renumber f).canRetry now = c.canRetry now := by
    rw [canRetry, canRetry, readRoom_renumber, writeRoom_renumber]
    rfl
  have done : (c.renumber f).nextDone now = c.nextDone now := rfl
  rw [retryIfRoom, retryIfRoom, owed.1, owed.2, retry, done]
  split
  · rfl
  · split <;> rfl

def dueRound (c : Controller Media) (now : Tick) : Controller Media × List Action :=
  if (c.prune now).nextRound.any fun planned => decide (planned ≤ now) then
    { c.prune now with nextRound := none }.runRound now
  else (c.prune now, [])

theorem dueRound_renumber (inj : Function.Injective f) : (c.renumber f).dueRound now =
    ((c.dueRound now).1.renumber f, (c.dueRound now).2) := by
  have planned : ((c.renumber f).prune now).nextRound = (c.prune now).nextRound := rfl
  rw [dueRound, dueRound, planned]
  split
  · exact runRound_renumber { c.prune now with nextRound := none } inj
  · rfl

theorem process_eq (c : Controller Media) (now : Tick) : c.process now =
    (((c.dueRound now).1.retryIfRoom now).1,
      (c.dueRound now).2 ++ ((c.dueRound now).1.retryIfRoom now).2) := rfl

theorem process_renumber (inj : Function.Injective f) : (c.renumber f).process now =
    ((c.process now).1.renumber f, (c.process now).2) := by
  rw [process_eq, process_eq, dueRound_renumber c inj, retryIfRoom_renumber]

theorem takeResponse_renumber : (c.renumber f).takeResponse now =
    (c.takeResponse now).map fun r => (r.1.renumber f, r.2.renumber f) := by
  have awaits : (c.renumber f).awaitingResponseRetry = c.awaitingResponseRetry := rfl
  have popped : (c.renumber f).responses.pop? ReadyResponse.before =
      (c.responses.pop? ReadyResponse.before).map fun r =>
        (r.1.renumber f, r.2.map (ReadyResponse.renumber f)) :=
    Heap.pop?_map (fun _ _ => rfl) c.responses
  rw [takeResponse, takeResponse, awaits, popped]
  split
  · rfl
  · cases c.responses.pop? ReadyResponse.before with
    | none => rfl
    | some r =>
      have ready : (r.1.renumber f).ready = r.1.ready := rfl
      simp only [Option.map_some, ready]
      split <;> rfl

theorem responseSent_renumber : (c.renumber f).responseSent now =
    ((c.responseSent now).1.renumber f, (c.responseSent now).2) := by
  have top : (c.renumber f).responses.top? = c.responses.top?.map (ReadyResponse.renumber f) :=
    Heap.top?_map c.responses
  rw [responseSent, responseSent, top, Option.any_map]
  rfl

theorem responseRefused_renumber : (c.renumber f).responseRefused now (p.renumber f) =
    (c.responseRefused now p).renumber f := by
  have pushed := push_renumber (f := f) c.responses
    ⟨(c.lastTaken.getD (now, 0)).1, (c.lastTaken.getD (now, 0)).2, p⟩
  exact congrArg (fun responses => { c.renumber f with
    lastTaken := none, awaitingResponseRetry := true, responses }) pushed

end Controller

end Expander
