import Expander.Proofs.Ranges
import Expander.Proofs.Stage.Rounds

/-!
What the calls of a controller do to its two queues.

A call lets bursts join the queues (`Joins`), or it runs a round, which issues one burst: the queue
that the bus serves loses it, and every burst that stays there has waited a round more (`Issues`).
Which of the two it is can be told from the controller before the call (`picked`, `after_cases`).
-/

set_option autoImplicit false

namespace Expander

namespace BusDirection

def other : BusDirection → BusDirection
  | read => write
  | write => read

def kind : BusDirection → AccessKind
  | read => .read
  | write => .write

end BusDirection

def ControllerConfig.bufferSize (c : ControllerConfig) : BusDirection → Nat
  | .read => c.readBufferSize
  | .write => c.writeBufferSize

namespace Controller

variable {μ : Type}

def queue (c : Controller μ) : BusDirection → List Burst
  | .read => c.readQueue
  | .write => c.writeQueue

/-- The calls that reach a controller. -/
inductive Call where
  | offer (now : Tick) (p : Packet)
  | process (now : Tick)
  /-- The peer towards the host asks for the next response. -/
  | take (now : Tick)
  /-- The response that was taken last has been accepted. -/
  | sent (now : Tick)
  | refused (now : Tick) (p : Packet)
  | retry (now : Tick)
  /-- An access without queueing. -/
  | atomic (p : Packet)
deriving DecidableEq, Repr

/-- A burst that a round issues, and its place in the queue of its direction. -/
structure Pick where
  direction : BusDirection
  place : Nat
  burst : Burst
deriving DecidableEq, Repr

def roundDue (c : Controller μ) (now : Tick) : Bool :=
  c.nextRound.any fun planned => decide (planned ≤ now)

def nextDirection (c : Controller μ) : BusDirection :=
  if c.turnsAround then c.direction.other else c.direction

def nextWritesThisPhase (c : Controller μ) : Nat :=
  if c.turnsAround && decide (c.direction = .write) then 0 else c.writesThisPhase

/-- Two controllers that a round cannot tell apart. -/
structure SameBus (c c' : Controller μ) : Prop where
  config : c'.config = c.config
  range : c'.range = c.range
  media : c'.media = c.media
  direction : c'.direction = c.direction
  phase : c'.writesThisPhase = c.writesThisPhase
  bursts : c'.counters.bursts = c.counters.bursts
  reads : c'.readQueue = c.readQueue
  writes : c'.writeQueue = c.writeQueue
  index : c'.queuedWrites = c.queuedWrites

/-- A call that issues nothing: fresh bursts may have joined the queues, as far as there is room. -/
structure Joins (c c' : Controller μ) : Prop where
  config : c'.config = c.config
  range : c'.range = c.range
  media : c'.media = c.media
  direction : c'.direction = c.direction
  phase : c'.writesThisPhase = c.writesThisPhase
  bursts : c'.counters.bursts = c.counters.bursts
  queue : ∀ d, ∃ fresh, c'.queue d = c.queue d ++ fresh ∧
    (∀ b ∈ fresh, b.kind = d.kind ∧ b.roundsWaited = 0) ∧
    (fresh ≠ [] → (c'.queue d).length ≤ c.config.bufferSize d ∧ c.range.size ≠ 0) ∧
    (d = .write → c'.queuedWrites = c.queuedWrites ++ fresh.map (·.offset))

variable {c c' c'' : Controller μ} {now : Tick} {p : Packet} {b : Burst} {pick : Pick}

namespace SameBus

theorem queue (h : c.SameBus c') (d : BusDirection) : c'.queue d = c.queue d := by
  cases d with
  | read => exact h.reads
  | write => exact h.writes

theorem refl (c : Controller μ) : c.SameBus c := by
  constructor <;> rfl

theorem trans (h : c.SameBus c') (h' : c'.SameBus c'') : c.SameBus c'' where
  config := h'.config.trans h.config
  range := h'.range.trans h.range
  media := h'.media.trans h.media
  direction := h'.direction.trans h.direction
  phase := h'.phase.trans h.phase
  bursts := h'.bursts.trans h.bursts
  reads := h'.reads.trans h.reads
  writes := h'.writes.trans h.writes
  index := h'.index.trans h.index

theorem joins (h : c.SameBus c') : c.Joins c' where
  config := h.config
  range := h.range
  media := h.media
  direction := h.direction
  phase := h.phase
  bursts := h.bursts
  queue d := by
    refine ⟨[], by rw [h.queue, List.append_nil], nofun, fun some => absurd rfl some, fun _ => ?_⟩
    rw [h.index, List.map_nil, List.append_nil]

end SameBus

theorem Joins.alike (h : c.Joins c') (same : c'.SameBus c'') : c.Joins c'' where
  config := same.config.trans h.config
  range := same.range.trans h.range
  media := same.media.trans h.media
  direction := same.direction.trans h.direction
  phase := same.phase.trans h.phase
  bursts := same.bursts.trans h.bursts
  queue d := by
    rw [same.queue, same.index]
    exact h.queue d

theorem sameBus_requestRound (c : Controller μ) (tick : Tick) :
    c.SameBus (c.requestRound tick).1 := by
  rcases requestRound_cases c tick with ⟨planned, -, eq⟩ | eq <;> rw [eq]
  · exact .refl c
  · constructor <;> rfl

theorem sameBus_spaced (c : Controller μ) (next : Tick) :
    c.SameBus { c with roundNotBefore := next } := by
  constructor <;> rfl

theorem sameBus_prune (c : Controller μ) (now : Tick) : c.SameBus (c.prune now) := by
  constructor <;> rfl

theorem sameBus_retryIfRoom (c : Controller μ) (now : Tick) :
    c.SameBus (c.retryIfRoom now).1 := by
  rw [retryIfRoom]
  split
  · exact .refl c
  · split
    · constructor <;> rfl
    · exact .refl c

theorem fresh_burstAt (c : Controller μ) (p : Packet) (d : BusDirection) (now : Tick)
    (offsets : List Nat) : ∀ b ∈ offsets.map (c.burstAt p d.kind now),
      b.kind = d.kind ∧ b.roundsWaited = 0 := by
  intro b mem
  obtain ⟨offset, -, rfl⟩ := List.mem_map.1 mem
  exact ⟨rfl, rfl⟩

theorem joins_acceptRead (inhabited : c.range.size ≠ 0) :
    c.Joins (c.acceptRead now p).stage := by
  rcases acceptRead_outcome c now p with ⟨counters, bursts, eq⟩ |
    ⟨-, counters, answered, bursts, rfl, eq⟩ | ⟨room, -, counters, asked, bursts, rfl, eq⟩ <;>
    rw [eq]
  · exact SameBus.joins ⟨rfl, rfl, rfl, rfl, rfl, bursts, rfl, rfl, rfl⟩
  · exact SameBus.joins ⟨rfl, rfl, rfl, rfl, rfl, bursts, rfl, rfl, rfl⟩
  · rw [readRoom, decide_eq_true_eq] at room
    refine Joins.alike ?_ (sameBus_requestRound _ _)
    refine ⟨rfl, rfl, rfl, rfl, rfl, bursts, ?_⟩
    rintro (_ | _)
    · refine ⟨_, rfl, c.fresh_burstAt p .read now _, fun _ => ⟨?_, inhabited⟩, nofun⟩
      simpa [queue, filePending, ControllerConfig.bufferSize] using room.1
    · refine ⟨[], (List.append_nil _).symm, fun b mem => absurd mem List.not_mem_nil,
        fun some => absurd rfl some, fun _ => ?_⟩
      rw [List.map_nil, List.append_nil]
      rfl

theorem joins_acceptWrite (inhabited : c.range.size ≠ 0) :
    c.Joins (c.acceptWrite now p).stage := by
  rcases acceptWrite_outcome c now p with ⟨counters, bursts, eq⟩ |
    ⟨room, counters, answered, asked, bursts, rfl, rfl, eq⟩ <;> rw [eq]
  · exact SameBus.joins ⟨rfl, rfl, rfl, rfl, rfl, bursts, rfl, rfl, rfl⟩
  · rw [writeRoom, decide_eq_true_eq] at room
    refine Joins.alike ?_ (sameBus_requestRound _ _)
    refine ⟨rfl, rfl, rfl, rfl, rfl, bursts, ?_⟩
    rintro (_ | _)
    · exact ⟨[], (List.append_nil _).symm, fun b mem => absurd mem List.not_mem_nil,
        fun some => absurd rfl some, nofun⟩
    · refine ⟨_, rfl, c.fresh_burstAt p .write now _, fun _ => ⟨?_, inhabited⟩, fun _ => ?_⟩
      · simpa [queue, pushResponse, ControllerConfig.bufferSize] using room.1
      · rw [List.map_map, show (·.offset) ∘ c.burstAt p .write now = id from rfl, List.map_id]
        rfl

theorem joins_recvRequest (c : Controller μ) (now : Tick) (p : Packet) :
    c.Joins (c.recvRequest now p).stage := by
  -- Forgetting what is done on the media changes nothing that a round depends on.
  have pruned {c' : Controller μ} (h : (c.prune now).Joins c') : c.Joins c' :=
    ⟨h.config, h.range, h.media, h.direction, h.phase, h.bursts, fun d => by
      have same : (c.prune now).queue d = c.queue d := (sameBus_prune c now).queue d
      rw [← same]
      exact h.queue d⟩
  have inhabited (served : c.range.containsAccess p.addr p.size = true) : c.range.size ≠ 0 :=
    AddressRange.size_ne_zero (AddressRange.contains_of_containsAccess served)
  rcases recvRequest_eq c now p with ⟨-, eq⟩ | ⟨served, -, eq⟩ | ⟨served, -, eq⟩ <;> rw [eq]
  · exact (SameBus.refl c).joins
  · exact pruned (joins_acceptRead (inhabited served))
  · exact pruned (joins_acceptWrite (inhabited served))

theorem sameBus_takeResponse (took : c.takeResponse now = some (p, c')) : c.SameBus c' := by
  obtain ⟨-, r, responses, -, -, -, rfl⟩ := takeResponse_eq_some took
  constructor <;> rfl

theorem sameBus_responseSent (c : Controller μ) (now : Tick) :
    c.SameBus (c.responseSent now).1 := by
  constructor <;> rfl

theorem sameBus_responseRefused (c : Controller μ) (now : Tick) (p : Packet) :
    c.SameBus (c.responseRefused now p) := by
  constructor <;> rfl

theorem sameBus_recvResponseRetry (c : Controller μ) (now : Tick) :
    c.SameBus (c.recvResponseRetry now).1 := by
  constructor <;> rfl

theorem activeQueue_eq (c : Controller μ) : c.activeQueue = c.queue c.direction := by
  rw [activeQueue]
  cases c.direction <;> rfl

theorem queue_withActiveQueue (c : Controller μ) (rest : List Burst) :
    (c.withActiveQueue rest).queue c.direction = rest ∧
      (c.withActiveQueue rest).queue c.direction.other = c.queue c.direction.other := by
  rw [withActiveQueue]
  cases c.direction <;> exact ⟨rfl, rfl⟩

theorem sameBus_chooseDirection (c : Controller μ) :
    SameBus { c with direction := c.nextDirection, writesThisPhase := c.nextWritesThisPhase }
      c.chooseDirection := by
  rw [chooseDirection]
  split
  next turns =>
    rw [turnAround]
    cases direction : c.direction with
    | read =>
      refine ⟨rfl, rfl, rfl, ?_, ?_, rfl, rfl, rfl, rfl⟩
      · simp [nextDirection, turns, direction, BusDirection.other]
      · simp [nextWritesThisPhase, direction]
    | write =>
      refine ⟨rfl, rfl, rfl, ?_, ?_, rfl, rfl, rfl, rfl⟩
      · simp [nextDirection, turns, direction, BusDirection.other]
      · simp [nextWritesThisPhase, turns, direction]
  next stays =>
    refine ⟨rfl, rfl, rfl, ?_, ?_, rfl, rfl, rfl, rfl⟩
    · simp [nextDirection, stays]
    · simp [nextWritesThisPhase, stays]

theorem queue_chooseDirection (c : Controller μ) (d : BusDirection) :
    c.chooseDirection.queue d = c.queue d :=
  (sameBus_chooseDirection c).queue d

theorem sameBus_finishRead (c : Controller μ) (id : TransactionId) (readyAt : Tick) :
    c.SameBus (c.finishRead id readyAt).1 := by
  obtain ⟨pending, eq | ⟨ready, p, eq⟩⟩ := finishRead_shape c id readyAt <;> rw [eq]
  · constructor <;> rfl
  · constructor <;> rfl

def indexWithout (c : Controller μ) (b : Burst) : List Nat :=
  if b.kind = .write then c.queuedWrites.erase b.offset else c.queuedWrites

theorem sameBus_fileIssued (c : Controller μ) (b : Burst) (readyAt : Tick) :
    SameBus { c with
      writesThisPhase := c.writesThisPhase + if b.kind = .write then 1 else 0
      queuedWrites := c.indexWithout b } (c.fileIssued b readyAt).1 := by
  rw [fileIssued, indexWithout]
  cases b.kind with
  | read =>
    have finished := sameBus_finishRead { c with
        readsThisPhase := c.readsThisPhase + 1
        readsInFlight := readyAt :: c.readsInFlight } b.packetId readyAt
    exact ⟨finished.config, finished.range, finished.media, finished.direction, finished.phase,
      finished.bursts, finished.reads, finished.writes, finished.index⟩
  | write => constructor <;> rfl

section Rounds

variable [MediaChannel μ]

theorem sameBus_accessAtomic (c : Controller μ) (p : Packet) :
    c.SameBus (c.accessAtomic p).2.2 := by
  rw [accessAtomic]
  split
  · exact .refl c
  · cases p.kind with
    | read => exact .refl c
    | write => constructor <;> rfl

def nextPick (c : Controller μ) : Option Pick :=
  let place := (c.chooseBurst (c.queue c.nextDirection)).1
  (c.queue c.nextDirection)[place]?.map fun burst => ⟨c.nextDirection, place, burst⟩

def picked (c : Controller μ) : Call → Option Pick
  | .process now => if c.roundDue now then c.nextPick else none
  | .offer .. | .take _ | .sent _ | .refused .. | .retry _ | .atomic _ => none

def after (c : Controller μ) : Call → Controller μ
  | .offer now p => (c.recvRequest now p).stage
  | .process now => (c.process now).1
  | .take now => ((c.takeResponse now).map (·.2)).getD c
  | .sent now => (c.responseSent now).1
  | .refused now p => c.responseRefused now p
  | .retry now => (c.recvResponseRetry now).1
  | .atomic p => (c.accessAtomic p).2.2

/-- A round at a tick: one burst leaves its queue and goes to its channel, the bursts that stay in
that queue have waited a round more, and the other queue is as before. -/
structure Issues (c : Controller μ) (now : Tick) (pick : Pick) (c' : Controller μ) : Prop where
  config : c'.config = c.config
  range : c'.range = c.range
  facing : pick.direction = c.nextDirection
  direction : c'.direction = pick.direction
  phase : c'.writesThisPhase =
    c.nextWritesThisPhase + if pick.burst.kind = .write then 1 else 0
  bursts : c'.counters.bursts = c.counters.bursts + 1
  found : (c.queue pick.direction)[pick.place]? = some pick.burst
  /-- No starved burst stands before the one that is issued. -/
  eldest : ∀ {place b}, (c.queue pick.direction)[place]? = some b →
    c.config.starvationThreshold ≤ b.roundsWaited → pick.place ≤ place
  served : c'.queue pick.direction = passOver (c.queue pick.direction) pick.place
  other : c'.queue pick.direction.other = c.queue pick.direction.other
  index : c'.queuedWrites = c.indexWithout pick.burst
  media : ∃ channel, c.media[c.channelOf pick.burst]? = some channel ∧
    c'.media = c.media.set (c.channelOf pick.burst)
      (MediaChannel.access channel pick.burst.coordinate pick.burst.kind now).2

theorem Issues.alike (h : c.Issues now pick c') (same : c'.SameBus c'') :
    c.Issues now pick c'' where
  config := same.config.trans h.config
  range := same.range.trans h.range
  facing := h.facing
  direction := same.direction.trans h.direction
  phase := same.phase.trans h.phase
  bursts := same.bursts.trans h.bursts
  found := h.found
  eldest := h.eldest
  served := (same.queue _).trans h.served
  other := (same.queue _).trans h.other
  index := same.index.trans h.index
  media := by
    obtain ⟨channel, found, set⟩ := h.media
    exact ⟨channel, found, same.media.trans set⟩

theorem sameBus_issue (c : Controller μ) (now : Tick) (b : Burst) (promoted : Bool) (channel : μ) :
    ∃ counters, counters.bursts = c.counters.bursts + 1 ∧
      SameBus { c with
        media := c.media.set (c.channelOf b)
          (MediaChannel.access channel b.coordinate b.kind now).2
        writesThisPhase := c.writesThisPhase + if b.kind = .write then 1 else 0
        queuedWrites := c.indexWithout b
        counters } (c.issue now b promoted channel).1 := by
  let served := MediaChannel.access channel b.coordinate b.kind now
  have filed := sameBus_fileIssued { c with
    media := c.media.set (c.channelOf b) served.2
    counters := countIssue c.counters b now promoted served.1.rowHit } b served.1.readyAt
  refine ⟨countIssue c.counters b now promoted served.1.rowHit, ?_, ?_⟩
  · simp only [ControllerStatistics.bursts, countIssue]
    cases b.kind <;> simp <;> omega
  · refine filed.trans ?_
    rw [issue]
    simp only
    split
    · exact sameBus_spaced _ _
    · exact (sameBus_spaced _ _).trans (sameBus_requestRound _ _)

theorem chooseBurst_congr (config : c'.config = c.config) (media : c'.media = c.media)
    (queue : List Burst) : c'.chooseBurst queue = c.chooseBurst queue := by
  have starved : c'.isStarved = c.isStarved := by
    funext b
    rw [isStarved, isStarved, config]
  have hit : c'.isRowHit = c.isRowHit := by
    funext b
    rw [isRowHit, isRowHit, media]
  rw [chooseBurst, chooseBurst, starved, hit]

theorem chooseBurst_le (c : Controller μ) {queue : List Burst} {place : Nat}
    (found : queue[place]? = some b) (starved : c.config.starvationThreshold ≤ b.roundsWaited) :
    (c.chooseBurst queue).1 ≤ place := by
  have isStarved : c.isStarved b = true := decide_eq_true starved
  obtain ⟨lt, rfl⟩ := List.getElem?_eq_some_iff.1 found
  rw [chooseBurst]
  cases first : queue.findIdx? c.isStarved with
  | none =>
    have none := List.findIdx?_eq_none_iff.1 first _ (List.getElem_mem lt)
    rw [isStarved] at none
    cases none
  | some index =>
    obtain ⟨-, rfl⟩ := List.findIdx?_eq_some_iff_findIdx_eq.1 first
    apply Nat.le_of_not_lt
    intro before
    have other := List.not_of_lt_findIdx before
    rw [isStarved] at other
    cases other

theorem nextPick_eq_some (chosen : c.nextPick = some pick) :
    pick.direction = c.nextDirection ∧
      pick.place = (c.chooseBurst (c.queue c.nextDirection)).1 ∧
      (c.queue pick.direction)[pick.place]? = some pick.burst := by
  obtain ⟨burst, found, rfl⟩ := Option.map_eq_some_iff.1 chosen
  exact ⟨rfl, rfl, found⟩

theorem queue_eq_nil (none : c.nextPick = none) (d : BusDirection) : c.queue d = [] := by
  have empty : ¬ (c.readQueue ≠ [] ∨ c.writeQueue ≠ []) := by
    intro queued
    obtain ⟨-, -, -, -, active⟩ := chooseDirection_spec queued
    have turned := sameBus_chooseDirection c
    have queue : c.chooseDirection.activeQueue = c.queue c.nextDirection := by
      rw [activeQueue_eq, turned.direction]
      exact turned.queue _
    rw [queue] at active
    have lt := chooseBurst_lt c active
    rw [nextPick, Option.map_eq_none_iff, List.getElem?_eq_none_iff] at none
    omega
  rw [not_or, not_not, not_not] at empty
  cases d with
  | read => exact empty.1
  | write => exact empty.2

def withoutPick (c : Controller μ) (pick : Pick) : Controller μ :=
  c.chooseDirection.withActiveQueue (passOver (c.queue pick.direction) pick.place)

theorem sameBus_withoutPick (chosen : c.nextPick = some pick) :
    SameBus { c with
      direction := pick.direction
      writesThisPhase := c.nextWritesThisPhase
      readQueue := (c.withoutPick pick).readQueue
      writeQueue := (c.withoutPick pick).writeQueue } (c.withoutPick pick) := by
  obtain ⟨direction, -, -⟩ := nextPick_eq_some chosen
  have turned := sameBus_chooseDirection c
  have kept : c.withoutPick pick = { c.chooseDirection with
      readQueue := (c.withoutPick pick).readQueue
      writeQueue := (c.withoutPick pick).writeQueue } := by
    rw [withoutPick, withActiveQueue]
    split <;> rfl
  rw [kept]
  exact ⟨turned.config, turned.range, turned.media, turned.direction.trans direction.symm,
    turned.phase, turned.bursts, rfl, rfl, turned.index⟩

theorem queue_withoutPick (chosen : c.nextPick = some pick) :
    (c.withoutPick pick).queue pick.direction = passOver (c.queue pick.direction) pick.place ∧
      (c.withoutPick pick).queue pick.direction.other = c.queue pick.direction.other := by
  obtain ⟨direction, -, -⟩ := nextPick_eq_some chosen
  have facing : c.chooseDirection.direction = pick.direction :=
    (sameBus_chooseDirection c).direction.trans direction.symm
  have queues := queue_withActiveQueue c.chooseDirection
    (passOver (c.queue pick.direction) pick.place)
  rwa [facing, queue_chooseDirection] at queues

theorem runRound_eq (now : Tick) (chosen : c.nextPick = some pick)
    (housed : c.media ≠ []) :
    ∃ channel promoted, c.media[c.channelOf pick.burst]? = some channel ∧
      c.runRound now = (c.withoutPick pick).issue now pick.burst promoted channel := by
  obtain ⟨direction, place, found⟩ := nextPick_eq_some chosen
  have turned := sameBus_chooseDirection c
  have active : c.chooseDirection.activeQueue = c.queue pick.direction := by
    rw [activeQueue_eq, turned.direction, queue_chooseDirection, direction]
  have choice : (c.chooseDirection.chooseBurst (c.queue pick.direction)).1 = pick.place := by
    rw [chooseBurst_congr (c := c) turned.config turned.media, place, direction]
  have queued : ¬ (c.readQueue.isEmpty && c.writeQueue.isEmpty) = true := by
    simp only [Bool.and_eq_true, List.isEmpty_iff]
    rintro ⟨reads, writes⟩
    cases facing : pick.direction <;> simp [Controller.queue, facing, reads, writes] at found
  have media : (c.withoutPick pick).media = c.media := (sameBus_withoutPick chosen).media
  have lt := channelOf_lt housed pick.burst
  have channel : (c.withoutPick pick).media[(c.withoutPick pick).channelOf pick.burst]? =
      some c.media[c.channelOf pick.burst] := by
    rw [channelOf, media]
    exact List.getElem?_eq_getElem lt
  refine ⟨_, (c.chooseDirection.chooseBurst (c.queue pick.direction)).2,
    List.getElem?_eq_getElem lt, ?_⟩
  rw [runRound, if_neg queued]
  simp only
  rw [active, choice, found]
  simp only
  rw [← withoutPick, channel]

theorem issues_runRound (now : Tick) (chosen : c.nextPick = some pick)
    (housed : c.media ≠ []) : c.Issues now pick (c.runRound now).1 := by
  obtain ⟨channel, promoted, home, eq⟩ := runRound_eq now chosen housed
  have left := sameBus_withoutPick chosen
  have media : (c.withoutPick pick).media = c.media := left.media
  have index : (c.withoutPick pick).queuedWrites = c.queuedWrites := left.index
  obtain ⟨served, other⟩ := queue_withoutPick chosen
  obtain ⟨facing, place, found⟩ := nextPick_eq_some chosen
  obtain ⟨counters, counted, issued⟩ :=
    sameBus_issue (c.withoutPick pick) now pick.burst promoted channel
  rw [eq]
  refine ⟨?_, ?_, facing, ?_, ?_, ?_, found, ?_, ?_, ?_, ?_, channel, home, ?_⟩
  · exact issued.config.trans left.config
  · exact issued.range.trans left.range
  · exact issued.direction.trans left.direction
  · rw [issued.phase, left.phase]
  · rw [issued.bursts, counted, left.bursts]
  · intro other b mem starved
    rw [place, ← facing]
    exact chooseBurst_le c mem starved
  · exact (issued.queue _).trans served
  · exact (issued.queue _).trans other
  · rw [issued.index, indexWithout, index, indexWithout]
  · rw [issued.media, channelOf, media, channelOf]

def Housed (c : Controller μ) : Prop := c.media = [] → ∀ d, c.queue d = []

theorem Housed.media_ne_nil (housed : c.Housed) (chosen : c.nextPick = some pick) :
    c.media ≠ [] := by
  intro none
  have found := (nextPick_eq_some chosen).2.2
  rw [housed none] at found
  cases found

theorem runRound_cases (housed : c.Housed) (now : Tick) :
    (c.nextPick = none ∧ c.runRound now = (c, [])) ∨
      ∃ pick, c.nextPick = some pick ∧ c.Issues now pick (c.runRound now).1 := by
  cases chosen : c.nextPick with
  | none =>
    have reads : c.readQueue = [] := queue_eq_nil chosen .read
    have writes : c.writeQueue = [] := queue_eq_nil chosen .write
    exact .inl ⟨rfl, by simp [runRound, reads, writes]⟩
  | some pick =>
    exact .inr ⟨pick, rfl, issues_runRound now chosen (housed.media_ne_nil chosen)⟩

def beforeRound (c : Controller μ) (now : Tick) : Controller μ :=
  { c.prune now with nextRound := none }

theorem process_rounds (c : Controller μ) (now : Tick) :
    (c.roundDue now = false ∧ (c.process now).1 = ((c.prune now).retryIfRoom now).1) ∨
      (c.roundDue now = true ∧
        (c.process now).1 = (((c.beforeRound now).runRound now).1.retryIfRoom now).1) := by
  have same : (c.prune now).nextRound = c.nextRound := rfl
  rw [roundDue, process]
  simp only
  rw [same]
  cases due : c.nextRound.any fun planned => decide (planned ≤ now) with
  | false => exact .inl ⟨rfl, rfl⟩
  | true => exact .inr ⟨rfl, rfl⟩

theorem process_cases (housed : c.Housed) (now : Tick) :
    (c.picked (.process now) = none ∧ c.SameBus (c.process now).1) ∨
      ∃ pick, c.picked (.process now) = some pick ∧ c.Issues now pick (c.process now).1 := by
  rw [picked]
  rcases process_rounds c now with ⟨due, eq⟩ | ⟨due, eq⟩ <;> rw [due, eq]
  · exact .inl ⟨rfl, (sameBus_prune c now).trans (sameBus_retryIfRoom _ now)⟩
  · -- Only what is due is told from the plan, so that clearing it makes no difference to a round.
    have empty : (c.beforeRound now).Housed := housed
    rcases runRound_cases empty now with ⟨none, ran⟩ | ⟨pick, chosen, issues⟩
    · rw [ran]
      have same : c.SameBus (c.beforeRound now) := by constructor <;> rfl
      exact .inl ⟨none, same.trans (sameBus_retryIfRoom _ now)⟩
    · refine .inr ⟨pick, chosen, ?_⟩
      have issued : c.Issues now pick ((c.beforeRound now).runRound now).1 :=
        ⟨issues.config, issues.range, issues.facing, issues.direction, issues.phase,
          issues.bursts, issues.found, issues.eldest, issues.served, issues.other, issues.index,
          issues.media⟩
      exact issued.alike (sameBus_retryIfRoom _ now)

theorem after_cases (housed : c.Housed) (call : Call) :
    (c.picked call = none ∧ c.Joins (c.after call)) ∨
      ∃ now pick, call = .process now ∧ c.picked call = some pick ∧
        c.Issues now pick (c.after call) := by
  cases call with
  | offer now p => exact .inl ⟨rfl, joins_recvRequest c now p⟩
  | process now =>
    rcases process_cases housed now with ⟨none, same⟩ | ⟨pick, chosen, issues⟩
    · exact .inl ⟨none, same.joins⟩
    · exact .inr ⟨now, pick, rfl, chosen, issues⟩
  | take now =>
    refine .inl ⟨rfl, ?_⟩
    cases took : c.takeResponse now with
    | none => simpa [after, took] using (SameBus.refl c).joins
    | some taken => simpa [after, took] using (sameBus_takeResponse took).joins
  | sent now => exact .inl ⟨rfl, (sameBus_responseSent c now).joins⟩
  | refused now p => exact .inl ⟨rfl, (sameBus_responseRefused c now p).joins⟩
  | retry now => exact .inl ⟨rfl, (sameBus_recvResponseRetry c now).joins⟩
  | atomic p => exact .inl ⟨rfl, (sameBus_accessAtomic c p).joins⟩

end Rounds

end Controller

end Expander
