import Expander.Proofs.Scheduling.Waiting

/-!
What the calls of a controller do to its pending reads and its responses.

An accepted packet is answered at once, or it is a read that waits for bursts from the media. The
round that issues a burst of such a read counts it, and answers the read with the last of them
(`process_desk`). No other call touches the pending reads, and none adds a response.
-/

set_option autoImplicit false

namespace Expander.Controller

variable {μ : Type} {c c' c'' : Controller μ} {now : Tick} {p : Packet}

/-- A burst that was issued, and the tick at which the media has served it. -/
structure ServedBurst where
  burst : Burst
  readyAt : Tick
deriving DecidableEq, Repr

/-- Two controllers with the same pending reads, queued reads and responses, which wait for a retry
or not. -/
structure SameDesk (c c' : Controller μ) : Prop where
  config : c'.config = c.config
  pending : c'.pending = c.pending
  reads : c'.readQueue = c.readQueue
  responses : c'.responses = c.responses
  nextSeq : c'.nextSeq = c.nextSeq
  lastTaken : c'.lastTaken = c.lastTaken
  awaiting : c'.awaitingResponseRetry = c.awaitingResponseRetry

namespace SameDesk

theorem refl (c : Controller μ) : c.SameDesk c := by
  constructor <;> rfl

theorem trans (h : c.SameDesk c') (h' : c'.SameDesk c'') : c.SameDesk c'' where
  config := h'.config.trans h.config
  pending := h'.pending.trans h.pending
  reads := h'.reads.trans h.reads
  responses := h'.responses.trans h.responses
  nextSeq := h'.nextSeq.trans h.nextSeq
  lastTaken := h'.lastTaken.trans h.lastTaken
  awaiting := h'.awaiting.trans h.awaiting

theorem pushResponse (same : c.SameDesk c') (ready : Tick) (p : Packet) :
    (c.pushResponse ready p).1.SameDesk (c'.pushResponse ready p).1 where
  config := same.config
  pending := same.pending
  reads := same.reads
  responses := by
    rw [Controller.pushResponse, Controller.pushResponse, same.responses, same.nextSeq]
  nextSeq := congrArg (· + 1) same.nextSeq
  lastTaken := same.lastTaken
  awaiting := same.awaiting

end SameDesk

theorem sameDesk_requestRound (c : Controller μ) (tick : Tick) :
    c.SameDesk (c.requestRound tick).1 := by
  rcases requestRound_cases c tick with ⟨planned, -, eq⟩ | eq <;> rw [eq]
  · exact .refl c
  · constructor <;> rfl

theorem sameDesk_retryIfRoom (c : Controller μ) (now : Tick) :
    c.SameDesk (c.retryIfRoom now).1 := by
  rw [retryIfRoom]
  split
  · exact .refl c
  · split
    · constructor <;> rfl
    · exact .refl c

def answerTo (c : Controller μ) (p : Packet) : Packet :=
  match p.kind with
  | .read => c.readResponse p
  | .write => p.chargeHeader.respond []

theorem answerTo_id (c : Controller μ) (p : Packet) : (c.answerTo p).id = p.id := by
  rw [answerTo]
  cases p.kind <;> rfl

def answered (c : Controller μ) (now : Tick) (p : Packet) : Controller μ :=
  (c.pushResponse (now + p.headerDelay + c.config.frontendLatency) (c.answerTo p)).1

def parked (c : Controller μ) (now : Tick) (p : Packet) : Controller μ :=
  { c with readQueue := c.readQueue ++
      (c.freshBurstsOf p).map (c.burstAt p .read now) }.filePending p.id (c.parkedRead now p)

theorem recvRequest_desk (c : Controller μ) (now : Tick) (p : Packet) :
    ((c.recvRequest now p).answer ≠ .accepted ∧ c.SameDesk (c.recvRequest now p).stage) ∨
      ((c.recvRequest now p).answer = .accepted ∧
        (p.kind = .write ∨ c.freshBurstsOf p = []) ∧
        (c.answered now p).SameDesk (c.recvRequest now p).stage) ∨
      ((c.recvRequest now p).answer = .accepted ∧ p.kind = .read ∧ c.freshBurstsOf p ≠ [] ∧
        (c.parked now p).SameDesk (c.recvRequest now p).stage) := by
  rcases recvRequest_eq c now p with ⟨-, eq⟩ | ⟨-, kind, eq⟩ | ⟨-, kind, eq⟩ <;> rw [eq]
  · exact .inl ⟨nofun, .refl c⟩
  · rcases acceptRead_outcome (c.prune now) now p with ⟨counters, -, eq⟩ |
      ⟨none, counters, reply, -, rfl, eq⟩ | ⟨-, some, counters, asked, -, rfl, eq⟩ <;> rw [eq]
    · exact .inl ⟨nofun, by constructor <;> rfl⟩
    · refine .inr (.inl ⟨rfl, .inr none, ?_⟩)
      rw [answered, answerTo, kind]
      constructor <;> rfl
    · refine .inr (.inr ⟨rfl, kind, some, ?_⟩)
      refine SameDesk.trans ?_ (sameDesk_requestRound _ now)
      constructor <;> rfl
  · rcases acceptWrite_outcome (c.prune now) now p with ⟨counters, -, eq⟩ |
      ⟨-, counters, reply, asked, -, rfl, rfl, eq⟩ <;> rw [eq]
    · exact .inl ⟨nofun, by constructor <;> rfl⟩
    · refine .inr (.inl ⟨rfl, .inl kind, ?_⟩)
      rw [answered, answerTo, kind]
      refine SameDesk.trans ?_ (sameDesk_requestRound _ now)
      constructor <;> rfl

theorem sameDesk_finishRead (same : c.SameDesk c') (id : TransactionId) (readyAt : Tick) :
    (c.finishRead id readyAt).1.SameDesk (c'.finishRead id readyAt).1 := by
  rw [finishRead, finishRead, same.pending]
  cases c.pending.lookup id with
  | none => exact same
  | some read =>
    simp only
    split
    · exact ⟨same.config, rfl, same.reads, same.responses, same.nextSeq, same.lastTaken,
        same.awaiting⟩
    · have latency : c'.config.frontendLatency = c.config.frontendLatency ∧
          c'.config.backendLatency = c.config.backendLatency := by
        rw [same.config]
        exact ⟨rfl, rfl⟩
      rw [latency.1, latency.2]
      refine SameDesk.pushResponse ?_ _ _
      exact ⟨same.config, rfl, same.reads, same.responses, same.nextSeq, same.lastTaken,
        same.awaiting⟩

theorem awaitingResponseRetry_finishRead (c : Controller μ) (id : TransactionId) (readyAt : Tick) :
    (c.finishRead id readyAt).1.awaitingResponseRetry = c.awaitingResponseRetry := by
  rw [finishRead]
  split <;> try split
  all_goals rfl

def finished (c : Controller μ) (b : Burst) (readyAt : Tick) : Controller μ :=
  match b.kind with
  | .read => (c.finishRead b.packetId readyAt).1
  | .write => c

theorem finished_write {b : Burst} (kind : b.kind = .write) (readyAt : Tick) :
    c.finished b readyAt = c := by
  rw [finished, kind]

theorem finished_read {b : Burst} (kind : b.kind = .read) (readyAt : Tick) :
    c.finished b readyAt = (c.finishRead b.packetId readyAt).1 := by
  rw [finished, kind]

theorem sameDesk_fileIssued (same : c.SameDesk c') (b : Burst) (readyAt : Tick) :
    (c.finished b readyAt).SameDesk (c'.fileIssued b readyAt).1 := by
  rw [finished, fileIssued]
  cases b.kind with
  | read =>
    refine sameDesk_finishRead ?_ b.packetId readyAt
    exact ⟨same.config, same.pending, same.reads, same.responses, same.nextSeq, same.lastTaken,
      same.awaiting⟩
  | write =>
    exact ⟨same.config, same.pending, same.reads, same.responses, same.nextSeq, same.lastTaken,
      same.awaiting⟩

theorem sameDesk_withoutPick (c : Controller μ) (pick : Pick) :
    SameDesk { c with readQueue := (c.withoutPick pick).readQueue } (c.withoutPick pick) := by
  rw [withoutPick, withActiveQueue, chooseDirection, turnAround]
  split <;> split <;> (try split) <;> constructor <;> rfl

section Rounds

variable [MediaChannel μ] {pick : Pick}

theorem sameDesk_issue (same : c.SameDesk c') (now : Tick) (b : Burst) (promoted : Bool)
    (channel : μ) :
    (c.finished b (MediaChannel.access channel b.coordinate b.kind now).1.readyAt).SameDesk
      (c'.issue now b promoted channel).1 := by
  let served := MediaChannel.access channel b.coordinate b.kind now
  have counted : c.SameDesk { c' with
      media := c'.media.set (c'.channelOf b) served.2
      counters := countIssue c'.counters b now promoted served.1.rowHit } :=
    ⟨same.config, same.pending, same.reads, same.responses, same.nextSeq, same.lastTaken,
      same.awaiting⟩
  refine (sameDesk_fileIssued counted b served.1.readyAt).trans ?_
  rw [issue]
  simp only
  split
  · constructor <;> rfl
  · refine SameDesk.trans ?_ (sameDesk_requestRound _ _)
    constructor <;> rfl

theorem sameDesk_accessAtomic (c : Controller μ) (p : Packet) :
    c.SameDesk (c.accessAtomic p).2.2 := by
  rw [accessAtomic]
  split
  · exact .refl c
  · cases p.kind with
    | read => exact .refl c
    | write => constructor <;> rfl

def servedBy (c : Controller μ) (now : Tick) : Option ServedBurst :=
  (c.picked (.process now)).bind fun pick =>
    c.media[c.channelOf pick.burst]?.map fun channel =>
      ⟨pick.burst,
        (MediaChannel.access channel pick.burst.coordinate pick.burst.kind now).1.readyAt⟩

theorem servedBy_eq_some {served : ServedBurst} (some : c.servedBy now = some served) :
    ∃ channel : μ, served.readyAt =
      (MediaChannel.access channel served.burst.coordinate served.burst.kind now).1.readyAt := by
  obtain ⟨pick, -, found⟩ := Option.bind_eq_some_iff.1 some
  obtain ⟨channel, -, rfl⟩ := Option.map_eq_some_iff.1 found
  exact ⟨channel, rfl⟩

theorem runRound_desk (h : c.Orderly) (now : Tick) (chosen : c.nextPick = some pick) :
    ∃ channel, c.media[c.channelOf pick.burst]? = some channel ∧
      ({ c with readQueue := (c.withoutPick pick).readQueue }.finished pick.burst
        (MediaChannel.access channel pick.burst.coordinate pick.burst.kind now).1.readyAt).SameDesk
        (c.runRound now).1 := by
  obtain ⟨channel, promoted, home, eq⟩ := runRound_eq now chosen (h.housed.media_ne_nil chosen)
  refine ⟨channel, home, ?_⟩
  rw [eq]
  exact sameDesk_issue (sameDesk_withoutPick c pick) now pick.burst promoted channel

/-- What processing does to the desk: it issues nothing, or a write, or a burst of a read. -/
theorem process_desk (h : c.Orderly) (now : Tick) :
    (c.servedBy now = none ∧ c.SameDesk (c.process now).1) ∨
      ∃ served, c.servedBy now = some served ∧
        ((served.burst.kind = .write ∧ c.SameDesk (c.process now).1) ∨
          (served.burst.kind = .read ∧ ∃ place, c.readQueue[place]? = some served.burst ∧
            ({ c with readQueue := passOver c.readQueue place }.finishRead served.burst.packetId
              served.readyAt).1.SameDesk (c.process now).1)) := by
  have before : c.SameDesk (c.beforeRound now) := by constructor <;> rfl
  have orderly := h.beforeRound now
  rw [servedBy, picked]
  rcases process_rounds c now with ⟨due, eq⟩ | ⟨due, eq⟩ <;> rw [due, eq]
  · refine .inl ⟨rfl, ?_⟩
    have pruned : c.SameDesk (c.prune now) := by constructor <;> rfl
    exact pruned.trans (sameDesk_retryIfRoom _ now)
  · rw [if_pos rfl]
    cases chosen : c.nextPick with
    | none =>
      refine .inl ⟨rfl, ?_⟩
      rcases runRound_cases orderly.housed now with ⟨-, ran⟩ | ⟨pick, some, -⟩
      · rw [ran]
        exact before.trans (sameDesk_retryIfRoom _ now)
      · cases chosen.symm.trans some
    | some pick =>
      obtain ⟨channel, home, filed⟩ := runRound_desk orderly now
        (show (c.beforeRound now).nextPick = some pick from chosen)
      have kind := h.kinds _ _ (List.mem_of_getElem? (nextPick_eq_some chosen).2.2)
      have home : c.media[c.channelOf pick.burst]? = some channel := home
      refine .inr ⟨⟨pick.burst, _⟩, by rw [Option.bind_some, home, Option.map_some], ?_⟩
      have done := filed.trans (sameDesk_retryIfRoom _ now)
      obtain ⟨served, other⟩ := queue_withoutPick (c := c.beforeRound now) chosen
      have found := (nextPick_eq_some chosen).2.2
      cases facing : pick.direction with
      | write =>
        rw [facing] at kind other
        have reads : ((c.beforeRound now).withoutPick pick).readQueue = c.readQueue := other
        rw [finished_write kind, reads] at done
        exact .inl ⟨kind, before.trans done⟩
      | read =>
        rw [facing] at kind served found
        have reads : ((c.beforeRound now).withoutPick pick).readQueue =
            passOver c.readQueue pick.place := served
        rw [finished_read kind, reads] at done
        refine .inr ⟨kind, pick.place, found, SameDesk.trans (sameDesk_finishRead ?_ _ _) done⟩
        constructor <;> rfl

end Rounds

end Expander.Controller
