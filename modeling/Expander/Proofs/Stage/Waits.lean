import Expander.Proofs.Media
import Expander.Proofs.Stage.Refusal

/-!
What a stage holds, and until when.

A stage holds requests on their way out, reads that wait for the media, and responses on their way
home, each with the tick from which it may leave. A packet that the stage takes waits for the header
delay that it carries and for the latency of the stage, and carries no header delay from then on
(`Stage.takes_recvRequest`, `Stage.takesBack_recvResponse`). A packet that was refused is back in
its place, no earlier than before. A read that leaves the media has waited for them, and for the
header delay that was put off until then (`Stage.works_process`).
-/

set_option autoImplicit false

namespace Expander

namespace Stage

def outbound : Stage → List Waiting
  | bridge b => b.requests.entries
  | device d => d.requests.entries
  | controller _ | memory _ => []

def parked : Stage → List PendingRead
  | controller c => c.pending.map (·.2)
  | bridge _ | device _ | memory _ => []

def homebound : Stage → List Waiting
  | bridge b => b.responses.entries
  | device d => d.responses.entries
  | controller c => c.responses.toList.map fun r => ⟨r.packet, r.ready⟩
  | memory m => m.responses.entries

def latency : Stage → Packet → Tick
  | bridge b, p => b.delayFor p.addr
  | device d, _ => d.config.protocolLatency
  | controller c, _ => c.config.frontendLatency
  | memory m, _ => m.latency

def backend : Stage → Tick
  | controller c => c.config.backendLatency
  | bridge _ | device _ | memory _ => 0

def channels : Stage → List Media
  | controller c => c.media
  | bridge _ | device _ | memory _ => []

def Clocked (timing : MediaTiming) (s : Stage) : Prop := ∀ m ∈ s.channels, m.timing = timing

/-- The two stages hold the same packets, until the same ticks. -/
structure SameHold (s s' : Stage) : Prop where
  channels : s'.channels = s.channels
  outbound : s'.outbound = s.outbound
  parked : s'.parked = s.parked
  homebound : s'.homebound = s.homebound

/-- A stage before and after it has taken a request, which is a request still, or waits for the
media as a response, or is a response that leaves after the latency of the stage. -/
inductive Takes (now : Tick) (p : Packet) (s s' : Stage) : Prop where
  | queues (w : Waiting) : s.forwardsRequests = true → w.packet.bare = p.bare →
      w.packet.headerDelay = 0 → w.ready = now + p.headerDelay + s.latency p →
      s'.channels = s.channels → s'.outbound = s.outbound ++ [w] → s'.parked = s.parked →
      s'.homebound = s.homebound → Takes now p s s'
  /-- The header delay is put off until the media have answered. -/
  | parks (r : PendingRead) (data : List UInt8) : s.forwardsRequests = false →
      r.packet.bare = p.bare.respond data → r.packet.headerDelay = 0 →
      r.headerDelay = p.headerDelay → s'.channels = s.channels → s'.outbound = s.outbound →
      r ∈ s'.parked → (∀ r' ∈ s'.parked, r' = r ∨ r' ∈ s.parked) → s'.homebound = s.homebound →
      Takes now p s s'
  | answers (w : Waiting) (data : List UInt8) : s.forwardsRequests = false →
      w.packet.bare = p.bare.respond data → w.packet.headerDelay = 0 →
      w.ready = now + p.headerDelay + s.latency p → s'.channels = s.channels →
      s'.outbound = s.outbound → s'.parked = s.parked →
      s'.homebound.Perm (w :: s.homebound) → Takes now p s s'

/-- A stage before and after it has taken a response. -/
structure TakesBack (now : Tick) (p : Packet) (s s' : Stage) (w : Waiting) : Prop where
  packet : w.packet.bare = p.bare
  charged : w.packet.headerDelay = 0
  ready : w.ready = now + p.headerDelay + s.latency p
  channels : s'.channels = s.channels
  outbound : s'.outbound = s.outbound
  parked : s'.parked = s.parked
  homebound : s'.homebound = s.homebound ++ [w]

/-- A stage before and after it has worked on its own at a tick: a read that leaves the media has
waited for the end of its data, and pays the header delay that was put off. -/
structure Works (timing : MediaTiming) (now : Tick) (s s' : Stage) : Prop where
  clocked : s'.Clocked timing
  outbound : s'.outbound = s.outbound
  parked : ∀ r' ∈ s'.parked, ∃ r ∈ s.parked, r'.packet = r.packet ∧ r'.headerDelay = r.headerDelay
  homebound : ∀ w ∈ s'.homebound, w ∈ s.homebound ∨ ∃ r ∈ s.parked, ∃ done,
    now + timing.least ≤ done ∧ w.packet = r.packet ∧
      w.ready = done + r.headerDelay + s.latency r.packet + s.backend

variable {s s' : Stage} {now : Tick} {p q : Packet} {actions : List Action} {timing : MediaTiming}

theorem SameHold.refl (s : Stage) : s.SameHold s := ⟨rfl, rfl, rfl, rfl⟩

theorem SameHold.trans {s'' : Stage} (h : s.SameHold s') (h' : s'.SameHold s'') :
    s.SameHold s'' :=
  ⟨h'.channels.trans h.channels, h'.outbound.trans h.outbound, h'.parked.trans h.parked,
    h'.homebound.trans h.homebound⟩

theorem SameHold.works (h : s.SameHold s') (clocked : s.Clocked timing) :
    Works timing now s s' where
  clocked m mem := clocked m (h.channels ▸ mem)
  outbound := h.outbound
  parked r mem := ⟨r, h.parked ▸ mem, rfl, rfl⟩
  homebound _ mem := .inl (h.homebound ▸ mem)

end Stage

namespace Controller

variable {c c' c'' : Controller Media} {now : Tick} {p : Packet} {timing : MediaTiming}

/-- Two controllers with the same reads, responses and media. -/
structure SameWork (c c' : Controller Media) : Prop where
  media : c'.media = c.media
  pending : c'.pending = c.pending
  responses : c'.responses = c.responses
  config : c'.config = c.config

/-- The controller of `Stage.Works`. -/
structure Works (timing : MediaTiming) (now : Tick) (c c' : Controller Media) : Prop where
  clocked : ∀ m ∈ c'.media, m.timing = timing
  pending : ∀ e ∈ c'.pending, ∃ e₀ ∈ c.pending, e.2.packet = e₀.2.packet ∧
    e.2.headerDelay = e₀.2.headerDelay
  responses : ∀ r ∈ c'.responses.toList, r ∈ c.responses.toList ∨ ∃ e ∈ c.pending, ∃ done,
    now + timing.least ≤ done ∧ r.packet = e.2.packet ∧
      r.ready = done + e.2.headerDelay + c.config.frontendLatency + c.config.backendLatency

theorem Works.refl (clocked : ∀ m ∈ c.media, m.timing = timing) : Works timing now c c :=
  ⟨clocked, fun e mem => ⟨e, mem, rfl, rfl⟩, fun _ => .inl⟩

theorem Works.after (h : Works timing now c c') (same : c'.SameWork c'') :
    Works timing now c c'' where
  clocked := same.media ▸ h.clocked
  pending := same.pending ▸ h.pending
  responses := same.responses ▸ h.responses

theorem Works.before (h : Works timing now c' c'') (same : c.SameWork c') :
    Works timing now c c'' where
  clocked := h.clocked
  pending := same.pending ▸ h.pending
  responses := same.responses ▸ same.pending ▸ same.config ▸ h.responses

theorem SameWork.works (same : c.SameWork c') (clocked : ∀ m ∈ c.media, m.timing = timing) :
    Works timing now c c' :=
  (Works.refl clocked).after same

theorem works_finishRead (clocked : ∀ m ∈ c.media, m.timing = timing) {readyAt : Tick}
    (le : now + timing.least ≤ readyAt) (id : TransactionId) :
    Works timing now c (c.finishRead id readyAt).1 := by
  rw [finishRead]
  split
  next => exact .refl clocked
  next read found =>
    obtain ⟨front, back, split, -⟩ := List.lookup_eq_some_iff.1 found
    have pends : (id, read) ∈ c.pending := by simp [split]
    have done : now + timing.least ≤ max read.ready readyAt :=
      Nat.le_trans le (Nat.le_max_right ..)
    simp only
    split
    · refine ⟨clocked, fun e mem => ?_, fun _ => .inl⟩
      obtain ⟨e₀, mem₀, rfl⟩ := List.mem_map.1 mem
      split
      · exact ⟨_, pends, rfl, rfl⟩
      · exact ⟨e₀, mem₀, rfl, rfl⟩
    · refine ⟨clocked, fun e mem => ⟨e, (List.mem_filter.1 mem).1, rfl, rfl⟩, fun r mem => ?_⟩
      rcases List.mem_cons.1 ((Heap.push_perm ..).mem_iff.1 mem) with rfl | old
      · exact .inr ⟨_, pends, _, done, rfl, rfl⟩
      · exact .inl old

theorem works_fileIssued (clocked : ∀ m ∈ c.media, m.timing = timing) {b : Burst} {readyAt : Tick}
    (le : b.kind = .read → now + timing.least ≤ readyAt) :
    Works timing now c (c.fileIssued b readyAt).1 := by
  rw [fileIssued]
  cases kind : b.kind with
  | read =>
    have counted : c.SameWork { c with
        readsThisPhase := c.readsThisPhase + 1
        readsInFlight := readyAt :: c.readsInFlight } := ⟨rfl, rfl, rfl, rfl⟩
    refine Works.before ?_ counted
    apply works_finishRead
    · exact clocked
    · exact le kind
  | write => exact SameWork.works ⟨rfl, rfl, rfl, rfl⟩ clocked

theorem sameWork_requestRound (c : Controller Media) (tick : Tick) :
    c.SameWork (c.requestRound tick).1 := by
  rcases requestRound_cases c tick with ⟨-, -, eq⟩ | eq <;> rw [eq] <;> exact ⟨rfl, rfl, rfl, rfl⟩

theorem sameWork_chooseDirection (c : Controller Media) : c.SameWork c.chooseDirection := by
  rw [chooseDirection]
  split
  · rw [turnAround]
    split <;> exact ⟨rfl, rfl, rfl, rfl⟩
  · exact ⟨rfl, rfl, rfl, rfl⟩

theorem sameWork_withActiveQueue (c : Controller Media) (queue : List Burst) :
    c.SameWork (c.withActiveQueue queue) := by
  rw [withActiveQueue]
  split <;> exact ⟨rfl, rfl, rfl, rfl⟩

theorem sameWork_retryIfRoom (c : Controller Media) (now : Tick) :
    c.SameWork (c.retryIfRoom now).1 := by
  rw [retryIfRoom]
  split
  · exact ⟨rfl, rfl, rfl, rfl⟩
  · split <;> exact ⟨rfl, rfl, rfl, rfl⟩

theorem works_issue (clocked : ∀ m ∈ c.media, m.timing = timing) (b : Burst) (promoted : Bool)
    {channel : Media} (of : channel ∈ c.media) :
    Works timing now c (c.issue now b promoted channel).1 := by
  have ticks : channel.timing = timing := clocked channel of
  have clocked' : ∀ m ∈ c.media.set (c.channelOf b)
      (MediaChannel.access channel b.coordinate b.kind now).2, m.timing = timing := by
    intro m mem
    rcases List.mem_or_eq_of_mem_set mem with old | rfl
    · exact clocked m old
    · exact (channel.timing_access b.coordinate b.kind now).trans ticks
  have done : b.kind = .read →
      now + timing.least ≤ (MediaChannel.access channel b.coordinate b.kind now).1.readyAt := by
    intro kind
    rw [kind, ← ticks]
    exact channel.le_readyAt b.coordinate now
  -- The burst is filed in a controller whose channel has moved on.
  have filed := works_fileIssued (c := { c with
    media := c.media.set (c.channelOf b) (MediaChannel.access channel b.coordinate b.kind now).2
    counters := countIssue c.counters b now promoted
      (MediaChannel.access channel b.coordinate b.kind now).1.rowHit }) clocked' done
  have filed' : Works timing now c _ := ⟨filed.clocked, filed.pending, filed.responses⟩
  rw [issue]
  simp only
  split
  · exact filed'.after ⟨rfl, rfl, rfl, rfl⟩
  · refine Works.after ?_ (sameWork_requestRound _ _)
    exact filed'.after ⟨rfl, rfl, rfl, rfl⟩

theorem works_runRound (clocked : ∀ m ∈ c.media, m.timing = timing) :
    Works timing now c (c.runRound now).1 := by
  have turned := sameWork_chooseDirection c
  rw [runRound]
  split
  · exact .refl clocked
  · simp only
    split
    · exact turned.works clocked
    · have passed := sameWork_withActiveQueue c.chooseDirection
        (passOver c.chooseDirection.activeQueue
          (c.chooseDirection.chooseBurst c.chooseDirection.activeQueue).1)
      split
      · exact (turned.works clocked).after passed
      · rename_i channel found
        have worked : Works timing now c _ := (turned.works clocked).after passed
        have stands := List.mem_of_getElem? found
        exact ((works_issue worked.clocked _ _ stands).before passed).before turned

theorem works_process (clocked : ∀ m ∈ c.media, m.timing = timing) :
    Works timing now c (c.process now).1 := by
  have pruned : c.SameWork (c.prune now) := ⟨rfl, rfl, rfl, rfl⟩
  rw [process]
  refine Works.after ?_ (sameWork_retryIfRoom _ _)
  split
  · refine Works.before (works_runRound (c := { c.prune now with nextRound := none }) clocked) ?_
    exact ⟨rfl, rfl, rfl, rfl⟩
  · exact pruned.works clocked

end Controller

namespace Stage

variable {s s' : Stage} {now : Tick} {p q : Packet} {actions : List Action} {timing : MediaTiming}

private theorem takes_bridge {b b' : Bridge}
    (reply : b.recvRequest now p = ⟨b', actions, .accepted⟩) :
    (bridge b).Takes now p (bridge b') := by
  rcases b.recvRequest_cases now p with ⟨-, eq⟩ | ⟨-, -, counters, eq⟩ |
    ⟨-, -, requests, counters, pushed, eq⟩ <;> rw [eq] at reply <;> cases reply
  obtain ⟨-, rfl⟩ := PacketQueue.push?_eq_some pushed
  have charged : (b.tag p.chargeHeader).headerDelay = 0 := by
    rw [Bridge.tag]
    split <;> rfl
  exact .queues _ rfl (Bridge.bare_tag ..) charged rfl rfl rfl rfl rfl

private theorem takes_device {d d' : Device}
    (reply : d.recvRequest now p = ⟨d', actions, .accepted⟩) :
    (device d).Takes now p (device d') := by
  rcases d.recvRequest_cases now p with ⟨-, eq⟩ | ⟨-, -, counters, eq⟩ |
    ⟨-, requests, counters, pushed, eq⟩ <;> rw [eq] at reply <;> cases reply
  obtain ⟨-, rfl⟩ := PacketQueue.push?_eq_some pushed
  have charged : (Device.tagRequest p.chargeHeader).headerDelay = 0 := by
    rw [Device.tagRequest]
    split <;> rfl
  exact .queues _ rfl (Device.bare_tagRequest _) charged rfl rfl rfl rfl rfl

private theorem homebound_pushResponse (c : Controller Media) (ready : Tick) (p : Packet) :
    (controller (c.pushResponse ready p).1).homebound.Perm
      (⟨p, ready⟩ :: (controller c).homebound) :=
  (Heap.push_perm ReadyResponse.before c.responses ⟨ready, c.nextSeq, p⟩).map _

private theorem takes_filed {c queued c' : Controller Media} {id : TransactionId}
    {read : PendingRead} (data : List UInt8) (media : queued.media = c.media)
    (pending : queued.pending = c.pending) (responses : queued.responses = c.responses)
    (bare : read.packet.bare = p.bare.respond data) (charged : read.packet.headerDelay = 0)
    (delay : read.headerDelay = p.headerDelay)
    (asked : (queued.filePending id read).SameWork c') :
    (controller c).Takes now p (controller c') := by
  have filed : c'.pending = (c.pending.filter fun entry => entry.1 != id) ++ [(id, read)] := by
    rw [asked.pending, Controller.filePending, pending]
  refine .parks read data rfl bare charged delay (asked.media.trans media) rfl ?_
    (fun r mem => ?_) ?_
  · rw [parked, filed, List.map_append]
    exact List.mem_append_right _ List.mem_cons_self
  · rw [parked, filed, List.map_append, List.mem_append] at mem
    rcases mem with old | new
    · obtain ⟨entry, kept, rfl⟩ := List.mem_map.1 old
      exact .inr (List.mem_map_of_mem (List.mem_filter.1 kept).1)
    · exact .inl (List.mem_singleton.1 new)
  · rw [homebound, asked.responses]
    exact congrArg (fun heap : Heap ReadyResponse => heap.toList.map _) responses

private theorem takes_read {c c' : Controller Media}
    (reply : (c.prune now).acceptRead now p = ⟨c', actions, .accepted⟩) :
    (controller c).Takes now p (controller c') := by
  rw [Controller.acceptRead] at reply
  split at reply
  · cases reply
  · simp only at reply
    split at reply
    · cases reply
      exact .answers _ _ rfl (Packet.bare_respond ..) rfl rfl rfl rfl rfl
        (homebound_pushResponse ..)
    · cases reply
      refine takes_filed (c.store.readOrZero (c.range.offsetOf p.addr) p.size) ?_ ?_ ?_ ?_ ?_ ?_
        (Controller.sameWork_requestRound ..) <;> rfl

private theorem takes_write {c c' : Controller Media}
    (reply : (c.prune now).acceptWrite now p = ⟨c', actions, .accepted⟩) :
    (controller c).Takes now p (controller c') := by
  rw [Controller.acceptWrite] at reply
  split at reply
  · cases reply
  · cases reply
    refine .answers ⟨p.chargeHeader.respond [], now + p.headerDelay + c.config.frontendLatency⟩ []
      rfl rfl rfl rfl ?_ rfl ?_ ?_
    · exact (Controller.sameWork_requestRound ..).media
    · rw [parked, (Controller.sameWork_requestRound _ _).pending]
      rfl
    · rw [homebound, (Controller.sameWork_requestRound _ _).responses]
      exact homebound_pushResponse ..

private theorem takes_memory {m m' : SystemMemory}
    (reply : m.recvRequest now p = ⟨m', actions, .accepted⟩) :
    (memory m).Takes now p (memory m') := by
  have performed := SystemMemory.responses_perform m p.chargeHeader
  have packet : ∃ data, (m.perform p.chargeHeader).1 = p.chargeHeader.respond data := by
    rw [SystemMemory.perform]
    split <;> exact ⟨_, rfl⟩
  obtain ⟨data, packet⟩ := packet
  rw [SystemMemory.recvRequest] at reply
  split at reply
  · cases reply
  · simp only at reply
    split at reply
    · cases reply
    · rename_i responses pushed
      obtain ⟨-, rfl⟩ := PacketQueue.push?_eq_some pushed
      cases reply
      rw [packet]
      exact .answers ⟨p.chargeHeader.respond data, now + p.headerDelay + m.latency⟩ data rfl rfl
        rfl rfl rfl rfl rfl (List.perm_append_singleton ..)

theorem reply_of_map {σ : Type} {f : σ → Stage} {r : Reply σ Delivery}
    {delivery : Delivery} (reply : r.map f = ⟨s', actions, delivery⟩) :
    ∃ after, s' = f after ∧ r = ⟨after, actions, delivery⟩ := by
  cases r
  cases reply
  exact ⟨_, rfl, rfl⟩

theorem takes_recvRequest (reply : s.recvRequest now p = ⟨s', actions, .accepted⟩) :
    s.Takes now p s' := by
  cases s with
  | bridge b =>
    obtain ⟨b', rfl, reply'⟩ := reply_of_map reply
    exact takes_bridge reply'
  | device d =>
    obtain ⟨d', rfl, reply'⟩ := reply_of_map reply
    exact takes_device reply'
  | controller c =>
    obtain ⟨c', rfl, reply'⟩ := reply_of_map reply
    rcases Controller.recvRequest_eq c now p with ⟨-, eq⟩ | ⟨-, -, eq⟩ | ⟨-, -, eq⟩
    · cases eq.symm.trans reply'
    · exact takes_read (eq.symm.trans reply')
    · exact takes_write (eq.symm.trans reply')
  | memory m =>
    obtain ⟨m', rfl, reply'⟩ := reply_of_map reply
    exact takes_memory reply'

theorem parks_recvRequest {c c' : Controller Media} (read : p.kind = .read)
    (fresh : c.freshBurstsOf p ≠ []) (reply : c.recvRequest now p = ⟨c', actions, .accepted⟩) :
    ∃ r ∈ (controller c').parked, r.packet.transaction = p.transaction := by
  rcases Controller.recvRequest_eq c now p with ⟨-, eq⟩ | ⟨-, -, eq⟩ | ⟨-, write, -⟩
  · cases eq.symm.trans reply
  · have accepts := eq.symm.trans reply
    have same : (c.prune now).freshBurstsOf p = c.freshBurstsOf p := rfl
    have some : ((c.prune now).freshBurstsOf p).isEmpty = false := by
      rw [same]
      simpa using fresh
    rw [Controller.acceptRead] at accepts
    split at accepts
    · cases accepts
    · simp only [some, Bool.false_eq_true, if_false] at accepts
      cases accepts
      rw [parked, (Controller.sameWork_requestRound _ _).pending]
      refine ⟨_, List.mem_map_of_mem (List.mem_append_right _ List.mem_cons_self), ?_⟩
      exact Packet.transaction_respond ..
  · cases read.symm.trans write

theorem takesBack_recvResponse (reply : s.recvResponse now p = ⟨s', actions, .accepted⟩) :
    ∃ w, s.TakesBack now p s' w := by
  cases s with
  | bridge b =>
    obtain ⟨b', rfl, reply'⟩ := reply_of_map reply
    rcases b.recvResponse_cases now p with ⟨-, eq⟩ | ⟨responses, counters, pushed, eq⟩ <;>
      rw [eq] at reply' <;> cases reply'
    obtain ⟨-, rfl⟩ := PacketQueue.push?_eq_some pushed
    exact ⟨_, rfl, rfl, rfl, rfl, rfl, rfl, rfl⟩
  | device d =>
    obtain ⟨d', rfl, reply'⟩ := reply_of_map reply
    rcases d.recvResponse_cases now p with ⟨-, counters, eq⟩ |
      ⟨responses, counters, pushed, eq⟩ <;> rw [eq] at reply' <;> cases reply'
    obtain ⟨-, rfl⟩ := PacketQueue.push?_eq_some pushed
    exact ⟨_, rfl, rfl, rfl, rfl, rfl, rfl, rfl⟩
  | controller c => cases reply
  | memory m => cases reply

theorem hold_takeRequest (took : s.takeRequest now = some (p, s')) :
    ∃ ready, ready ≤ now ∧ s.outbound = ⟨p, ready⟩ :: s'.outbound ∧
      s'.channels = s.channels ∧ s'.parked = s.parked ∧ s'.homebound = s.homebound := by
  rcases takeRequest_inv took with ⟨b, b', rfl, rfl, taken⟩ | ⟨d, d', rfl, rfl, taken⟩
  · obtain ⟨-, requests, popped, rfl⟩ := Bridge.takeRequest_eq_some taken
    obtain ⟨ready, le, entries, -⟩ := PacketQueue.popReady?_eq_some popped
    exact ⟨ready, le, entries, rfl, rfl, rfl⟩
  · obtain ⟨-, requests, popped, rfl⟩ := Device.takeRequest_eq_some taken
    obtain ⟨ready, le, entries, -⟩ := PacketQueue.popReady?_eq_some popped
    exact ⟨ready, le, entries, rfl, rfl, rfl⟩

theorem sameHold_requestSent (s : Stage) (now : Tick) : s.SameHold (s.requestSent now).1 := by
  cases s with
  | bridge b =>
    simp only [requestSent, Bridge.requestSent, Bridge.retryIfRoom_eq]
    exact ⟨rfl, rfl, rfl, rfl⟩
  | device | controller | memory => exact ⟨rfl, rfl, rfl, rfl⟩

theorem hold_requestRefused (took : s.takeRequest now = some (p, s')) :
    (s'.requestRefused now p).outbound = ⟨p, now⟩ :: s'.outbound ∧
      (s'.requestRefused now p).channels = s'.channels ∧
      (s'.requestRefused now p).parked = s'.parked ∧
      (s'.requestRefused now p).homebound = s'.homebound := by
  rcases takeRequest_inv took with ⟨b, b', rfl, rfl, -⟩ | ⟨d, d', rfl, rfl, -⟩ <;>
    exact ⟨rfl, rfl, rfl, rfl⟩

theorem sameHold_recvRequestRetry (s : Stage) (now : Tick) :
    s.SameHold (s.recvRequestRetry now).1 := by
  cases s <;> exact ⟨rfl, rfl, rfl, rfl⟩

theorem hold_takeResponse (took : s.takeResponse now = some (p, s')) :
    ∃ ready, ready ≤ now ∧ s.homebound.Perm (⟨p, ready⟩ :: s'.homebound) ∧
      s'.channels = s.channels ∧ s'.outbound = s.outbound ∧ s'.parked = s.parked ∧
      ∃ place, ready ≤ place ∧
        (s'.responseRefused now p).homebound.Perm (⟨p, place⟩ :: s'.homebound) ∧
        (s'.responseRefused now p).channels = s.channels ∧
        (s'.responseRefused now p).outbound = s.outbound ∧
        (s'.responseRefused now p).parked = s.parked := by
  cases s <;> obtain ⟨⟨q, taken⟩, some, eq⟩ := Option.map_eq_some_iff.1 took <;> cases eq
  · obtain ⟨-, responses, popped, rfl⟩ := Bridge.takeResponse_eq_some some
    obtain ⟨ready, le, entries, -⟩ := PacketQueue.popReady?_eq_some popped
    exact ⟨ready, le, .of_eq entries, rfl, rfl, rfl, now, le, .refl _, rfl, rfl, rfl⟩
  · obtain ⟨-, responses, popped, rfl⟩ := Device.takeResponse_eq_some some
    obtain ⟨ready, le, entries, -⟩ := PacketQueue.popReady?_eq_some popped
    exact ⟨ready, le, .of_eq entries, rfl, rfl, rfl, now, le, .refl _, rfl, rfl, rfl⟩
  · obtain ⟨-, r, responses, popped, le, rfl, rfl⟩ := Controller.takeResponse_eq_some some
    have left := (Heap.pop?_perm popped).map fun r => (⟨r.packet, r.ready⟩ : Waiting)
    have back := (Heap.push_perm ReadyResponse.before responses ⟨r.ready, r.seq, r.packet⟩).map
      fun r => (⟨r.packet, r.ready⟩ : Waiting)
    exact ⟨r.ready, le, left, rfl, rfl, rfl, r.ready, Nat.le_refl _, back, rfl, rfl, rfl⟩
  · obtain ⟨-, responses, popped, rfl⟩ := SystemMemory.takeResponse_eq_some some
    obtain ⟨ready, le, entries, -⟩ := PacketQueue.popReady?_eq_some popped
    exact ⟨ready, le, .of_eq entries, rfl, rfl, rfl, now, le, .refl _, rfl, rfl, rfl⟩

theorem sameHold_responseSent (s : Stage) (now : Tick) : s.SameHold (s.responseSent now).1 := by
  cases s with
  | bridge b =>
    simp only [responseSent, Bridge.responseSent, Bridge.retryIfRoom_eq]
    exact ⟨rfl, rfl, rfl, rfl⟩
  | device | controller | memory => exact ⟨rfl, rfl, rfl, rfl⟩

theorem sameHold_recvResponseRetry (s : Stage) (now : Tick) :
    s.SameHold (s.recvResponseRetry now).1 := by
  cases s <;> exact ⟨rfl, rfl, rfl, rfl⟩

theorem DeniesRequest.sameHold (h : s.DeniesRequest now s') : s.SameHold s' := by
  cases h <;> exact ⟨rfl, rfl, rfl, rfl⟩

theorem DeniesResponse.sameHold (h : s.DeniesResponse s') : s.SameHold s' := by
  cases h <;> exact ⟨rfl, rfl, rfl, rfl⟩

theorem sameHold_accessAtomic (s : Stage) (p : Packet) : s.SameHold (s.accessAtomic p).2.2 := by
  cases s with
  | bridge | device => exact .refl _
  | controller c =>
    simp only [accessAtomic, Controller.accessAtomic]
    split
    · exact .refl _
    · split <;> exact ⟨rfl, rfl, rfl, rfl⟩
  | memory m =>
    simp only [accessAtomic, SystemMemory.accessAtomic, SystemMemory.perform]
    split
    · split <;> exact ⟨rfl, rfl, rfl, rfl⟩
    · exact .refl _

theorem sameHold_withStore (s : Stage) (store : Store) : s.SameHold (s.withStore store) := by
  cases s <;> exact ⟨rfl, rfl, rfl, rfl⟩

theorem works_process (clocked : s.Clocked timing) : s.Works timing now (s.process now).1 := by
  cases s with
  | controller c =>
    obtain ⟨clocked', pending, responses⟩ : Controller.Works timing now c (c.process now).1 :=
      Controller.works_process clocked
    refine ⟨clocked', rfl, fun r mem => ?_, fun w mem => ?_⟩
    · obtain ⟨e, mem', rfl⟩ := List.mem_map.1 mem
      obtain ⟨e₀, mem₀, same⟩ := pending e mem'
      exact ⟨e₀.2, List.mem_map_of_mem mem₀, same⟩
    · obtain ⟨r, mem', rfl⟩ := List.mem_map.1 mem
      rcases responses r mem' with old | ⟨e, mem₀, done, le, packet, ready⟩
      · exact .inl (List.mem_map_of_mem old)
      · exact .inr ⟨e.2, List.mem_map_of_mem mem₀, done, le, packet, ready⟩
  | bridge | device | memory => exact (SameHold.refl _).works clocked

end Stage

end Expander
