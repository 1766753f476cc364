import Expander.Proofs.Stage.PendingReads

/-!
The memory controller as a stage: admission and responses.

In a sound controller the pending reads and the read queue describe each other, and the heap of
responses is in order. In an armed controller every response that is not ready yet has a wake-up for
the tick from which it may leave, a ready one has a wake-up now unless the head waits for a retry,
and queued bursts have a planned round with a wake-up.
-/

set_option autoImplicit false

namespace Expander

theorem ReadyResponse.before_eq_false {a b : ReadyResponse} (h : a.before b = false) :
    b.ready ≤ a.ready := by
  simp only [before, decide_eq_false_iff_not, not_or] at h
  exact Nat.not_lt.1 h.1

theorem ReadyResponse.isRanking_before : IsRanking ReadyResponse.before where
  asymm a b h := by
    simp only [before, decide_eq_true_eq, decide_eq_false_iff_not] at h ⊢
    grind
  trans a b c hab hbc := by
    simp only [before, decide_eq_false_iff_not] at hab hbc ⊢
    grind

def ControllerStatistics.bursts (s : ControllerStatistics) : Nat := s.readBursts + s.writeBursts

namespace Controller

variable {μ : Type} {c c' : Controller μ} {now : Tick} {p q : Packet} {due : Wakeup → Prop}

/-- What every controller keeps to between calls. -/
structure Sound (c : Controller μ) : Prop where
  /-- The pending reads count the queued read bursts. -/
  reads : ReadsKept c.pending (c.readQueue.map (·.packetId))
  readKind : ∀ b ∈ c.readQueue, b.kind = .read
  writeKind : ∀ b ∈ c.writeQueue, b.kind = .write
  media : c.media ≠ []
  /-- The next response to leave is at the top of the heap. -/
  ordered : c.responses.Ordered ReadyResponse.before

/-- The responses have their wake-ups. -/
structure ResponsesArmed (now : Tick) (due : Wakeup → Prop) (c : Controller μ) : Prop where
  /-- A response that is not ready yet is woken when it is. -/
  unready : ∀ r ∈ c.responses.toList, now < r.ready → due ⟨r.ready, .sendResponse⟩
  /-- A ready response is woken now, unless the head waits for a retry. -/
  ready : c.awaitingResponseRetry = false → ∀ r ∈ c.responses.toList, r.ready ≤ now →
    due ⟨now, .sendResponse⟩

def RoundArmed (now : Tick) (due : Wakeup → Prop) (c : Controller μ) : Prop :=
  ∀ tick, c.nextRound = some tick → now ≤ tick ∧ due ⟨tick, .process⟩

def RoundPlanned (c : Controller μ) : Prop :=
  c.readQueue ≠ [] ∨ c.writeQueue ≠ [] → c.nextRound ≠ none

/-- The responses and the queued bursts have their wake-ups. -/
structure Armed (now : Tick) (due : Wakeup → Prop) (c : Controller μ) : Prop where
  responses : c.ResponsesArmed now due
  round : c.RoundArmed now due
  planned : c.RoundPlanned

theorem Armed.queues_eq_nil (h : c.Armed now due) (none : ∀ w, ¬ due w) :
    c.readQueue = [] ∧ c.writeQueue = [] := by
  by_contra busy
  have queued : c.readQueue ≠ [] ∨ c.writeQueue ≠ [] := by tauto
  obtain ⟨tick, planned⟩ := Option.ne_none_iff_exists'.1 (h.planned queued)
  exact none _ (h.round tick planned).2

theorem answers_eq_zero (sound : c.Sound) (armed : c.Armed now due) (none : ∀ w, ¬ due w)
    (free : c.awaitingResponseRetry = false) : c.answers = 0 := by
  have reads := sound.reads
  rw [(armed.queues_eq_nil none).1, List.map_nil] at reads
  have responses : c.responses.toList = [] := by
    refine List.eq_nil_iff_forall_not_mem.2 fun r mem => ?_
    rcases Nat.lt_or_ge now r.ready with unready | ready
    · exact none _ (armed.responses.unready r mem unready)
    · exact none _ (armed.responses.ready free r mem ready)
  rw [answers, reads.eq_nil, responses]
  rfl

theorem ResponsesArmed.mono {due' : Wakeup → Prop} (h : c.ResponsesArmed now due)
    (sub : ∀ w, due w → due' w) : c.ResponsesArmed now due' :=
  ⟨fun r mem lt => sub _ (h.unready r mem lt), fun free r mem le => sub _ (h.ready free r mem le)⟩

theorem RoundArmed.mono {due' : Wakeup → Prop} (h : c.RoundArmed now due)
    (sub : ∀ w, due w → due' w) : c.RoundArmed now due' :=
  fun tick planned => ⟨(h tick planned).1, sub _ (h tick planned).2⟩

theorem Armed.mono {due' : Wakeup → Prop} (h : c.Armed now due) (sub : ∀ w, due w → due' w) :
    c.Armed now due' :=
  ⟨h.responses.mono sub, h.round.mono sub, h.planned⟩

theorem Armed.later {next : Tick} (h : c.Armed now due) (le : now ≤ next)
    (ahead : ∀ w, due w → next ≤ w.tick) : c.Armed next due := by
  refine ⟨⟨fun r mem lt => ?_, fun free r mem ready => ?_⟩, fun tick planned => ?_, h.planned⟩
  · exact h.responses.unready r mem (Nat.lt_of_le_of_lt le lt)
  · rcases Nat.lt_or_ge now r.ready with unready | past
    · have woken := h.responses.unready r mem unready
      have same : r.ready = next := Nat.le_antisymm ready (ahead _ woken)
      rwa [same] at woken
    · have woken := h.responses.ready free r mem past
      have same : now = next := Nat.le_antisymm le (ahead _ woken)
      rwa [same] at woken
  · have woken := (h.round tick planned).2
    exact ⟨ahead _ woken, woken⟩

theorem responsesArmed_pushResponse (h : c.ResponsesArmed now due) (ready : Tick) (p : Packet) :
    (c.pushResponse ready p).1.ResponsesArmed now
      fun w => due w ∨ Called now (c.pushResponse ready p).2 w := by
  have called : Called now (c.pushResponse ready p).2 ⟨max ready now, .sendResponse⟩ :=
    called_at List.mem_cons_self
  have added := Heap.push_perm ReadyResponse.before c.responses ⟨ready, c.nextSeq, p⟩
  refine ⟨fun r mem lt => ?_, fun free r mem le => ?_⟩
  · rcases List.mem_cons.1 (added.mem_iff.1 mem) with rfl | old
    · have same : max ready now = ready := Nat.max_eq_left (Nat.le_of_lt lt)
      rw [same] at called
      exact .inr called
    · exact .inl (h.unready r old lt)
  · rcases List.mem_cons.1 (added.mem_iff.1 mem) with rfl | old
    · have same : max ready now = now := Nat.max_eq_right le
      rw [same] at called
      exact .inr called
    · exact .inl (h.ready free r old le)

theorem ordered_pushResponse (h : c.responses.Ordered ReadyResponse.before) (ready : Tick)
    (p : Packet) : (c.pushResponse ready p).1.responses.Ordered ReadyResponse.before :=
  Heap.Ordered.push ReadyResponse.isRanking_before h _

theorem requestRound_cases (c : Controller μ) (tick : Tick) :
    (∃ planned, c.nextRound = some planned ∧ c.requestRound tick = (c, [])) ∨
    c.requestRound tick = ({ c with nextRound := some (max tick c.roundNotBefore) },
      [.at (max tick c.roundNotBefore) .process]) := by
  rw [requestRound]
  cases hround : c.nextRound with
  | none => exact .inr rfl
  | some planned =>
    by_cases earlier : max tick c.roundNotBefore < planned
    · right
      exact if_pos (decide_eq_true earlier)
    · left
      exact ⟨planned, rfl, if_neg (by simpa using earlier)⟩

theorem view_requestRound (c : Controller μ) (tick : Tick) :
    (c.requestRound tick).1.view = c.view := by
  rcases requestRound_cases c tick with ⟨planned, -, eq⟩ | eq
  · rw [eq]
  · rw [eq]
    rfl

theorem armed_requestRound (responses : c.ResponsesArmed now due) (round : c.RoundArmed now due)
    {tick : Tick} (le : now ≤ tick) : (c.requestRound tick).1.Armed now
      fun w => due w ∨ Called now (c.requestRound tick).2 w := by
  rcases requestRound_cases c tick with ⟨planned, some, eq⟩ | eq
  · rw [eq]
    exact ⟨responses.mono fun _ => .inl, round.mono fun _ => .inl, fun _ => by simp [some]⟩
  · rw [eq]
    have later : now ≤ max tick c.roundNotBefore := Nat.le_trans le (Nat.le_max_left ..)
    refine ⟨⟨fun r mem lt => .inl (responses.unready r mem lt),
      fun free r mem le => .inl (responses.ready free r mem le)⟩, fun t planned => ?_, fun _ => ?_⟩
    · cases planned
      have called : Called now [.at (max tick c.roundNotBefore) .process]
          ⟨max (max tick c.roundNotBefore) now, .process⟩ := called_at List.mem_cons_self
      rw [Nat.max_eq_left later] at called
      exact ⟨later, .inr called⟩
    · simp

theorem sound_requestRound (h : c.Sound) (tick : Tick) : (c.requestRound tick).1.Sound := by
  rcases requestRound_cases c tick with ⟨planned, -, eq⟩ | eq
  · rwa [eq]
  · rw [eq]
    exact ⟨h.reads, h.readKind, h.writeKind, h.media, h.ordered⟩

theorem onlyWakes_requestRound (c : Controller μ) (tick : Tick) :
    OnlyWakes (c.requestRound tick).2 := by
  rcases requestRound_cases c tick with ⟨planned, -, eq⟩ | eq
  · rw [eq]
    exact .nil
  · rw [eq]
    exact .singleton _ _

def readResponse (c : Controller μ) (p : Packet) : Packet :=
  p.chargeHeader.respond (c.store.readOrZero (c.range.offsetOf p.addr) p.size)

def parkedRead (c : Controller μ) (now : Tick) (p : Packet) : PendingRead :=
  { packet := c.readResponse p, burstsLeft := (c.freshBurstsOf p).length, ready := now
    headerDelay := p.headerDelay }

theorem acceptRead_outcome (c : Controller μ) (now : Tick) (p : Packet) :
    (∃ counters, counters.bursts = c.counters.bursts ∧ c.acceptRead now p =
      ⟨{ c with readRetryOwed := true, counters }, [], .busy p⟩) ∨
    (c.freshBurstsOf p = [] ∧ ∃ counters answered, counters.bursts = c.counters.bursts ∧
      { c with counters }.pushResponse (now + p.headerDelay + c.config.frontendLatency)
        (c.readResponse p) = answered ∧
      c.acceptRead now p = ⟨answered.1, answered.2, .accepted⟩) ∨
    (c.readRoom now (c.freshBurstsOf p).length = true ∧ c.freshBurstsOf p ≠ [] ∧
      ∃ counters asked, counters.bursts = c.counters.bursts ∧
        ({ c with
          counters
          readQueue := c.readQueue ++ (c.freshBurstsOf p).map (c.burstAt p .read now) }.filePending
            p.id (c.parkedRead now p)).requestRound now = asked ∧
        c.acceptRead now p = ⟨asked.1, asked.2, .accepted⟩) := by
  rw [acceptRead]
  split
  next =>
    refine .inl ⟨_, ?_, rfl⟩
    rfl
  next room =>
    split
    next none =>
      refine .inr (.inl ⟨List.isEmpty_iff.1 none, _, _, ?_, rfl, rfl⟩)
      rfl
    next some =>
      refine .inr (.inr ⟨by simpa using room, ?_, _, _, ?_, rfl, rfl⟩)
      · intro none
        exact some (List.isEmpty_iff.2 none)
      · rfl

theorem acceptRead_cases (c : Controller μ) (now : Tick) (p : Packet) :
    (∃ counters, c.acceptRead now p =
      ⟨{ c with readRetryOwed := true, counters }, [], .busy p⟩) ∨
    (∃ counters answered, ({ c with counters }.pushResponse
        (now + p.headerDelay + c.config.frontendLatency) (c.readResponse p)) = answered ∧
      c.acceptRead now p = ⟨answered.1, answered.2, .accepted⟩) ∨
    (∃ counters bursts read asked, 0 < read.burstsLeft ∧ read.packet = c.readResponse p ∧
      bursts.map (·.packetId) = List.replicate read.burstsLeft p.id ∧
      ((∀ b ∈ bursts, b.kind = .read) ∧ bursts.length = (c.freshBurstsOf p).length) ∧
      ({ c with counters, readQueue := c.readQueue ++ bursts }.filePending p.id read).requestRound
        now = asked ∧
      c.acceptRead now p = ⟨asked.1, asked.2, .accepted⟩) := by
  rcases acceptRead_outcome c now p with ⟨counters, -, eq⟩ |
    ⟨-, counters, answered, -, replied, eq⟩ | ⟨-, some, counters, asked, -, round, eq⟩
  · exact .inl ⟨counters, eq⟩
  · exact .inr (.inl ⟨counters, answered, replied, eq⟩)
  · refine .inr (.inr ⟨counters, _, c.parkedRead now p, asked, List.length_pos_iff.2 some, rfl, ?_,
      ⟨?_, List.length_map _⟩, round, eq⟩)
    · rw [List.map_map]
      exact List.map_const' ..
    · intro b mem
      obtain ⟨offset, -, rfl⟩ := List.mem_map.1 mem
      rfl

theorem acceptWrite_outcome (c : Controller μ) (now : Tick) (p : Packet) :
    (∃ counters, counters.bursts = c.counters.bursts ∧ c.acceptWrite now p =
      ⟨{ c with writeRetryOwed := true, counters }, [], .busy p⟩) ∨
    (c.writeRoom now (c.freshBurstsOf p).length = true ∧
      ∃ counters answered asked, counters.bursts = c.counters.bursts ∧
        { c with
          store := c.store.writeOrKeep (c.range.offsetOf p.addr) p.data
          counters
          writeQueue := c.writeQueue ++ (c.freshBurstsOf p).map (c.burstAt p .write now)
          queuedWrites := c.queuedWrites ++ c.freshBurstsOf p }.pushResponse
              (now + p.headerDelay + c.config.frontendLatency) (p.chargeHeader.respond []) =
                answered ∧
        answered.1.requestRound now = asked ∧
        c.acceptWrite now p = ⟨asked.1, answered.2 ++ asked.2, .accepted⟩) := by
  rw [acceptWrite]
  split
  next =>
    refine .inl ⟨_, ?_, rfl⟩
    rfl
  next room =>
    refine .inr ⟨by simpa using room, _, _, _, ?_, rfl, rfl, rfl⟩
    rfl

theorem acceptWrite_cases (c : Controller μ) (now : Tick) (p : Packet) :
    (∃ counters, c.acceptWrite now p =
      ⟨{ c with writeRetryOwed := true, counters }, [], .busy p⟩) ∨
    (∃ counters bursts queuedWrites answered asked,
      ((∀ b ∈ bursts, b.kind = .write) ∧ bursts.length = (c.freshBurstsOf p).length) ∧
      { c with
        store := c.store.writeOrKeep (c.range.offsetOf p.addr) p.data
        writeQueue := c.writeQueue ++ bursts, queuedWrites, counters }.pushResponse
          (now + p.headerDelay + c.config.frontendLatency) (p.chargeHeader.respond []) = answered ∧
      answered.1.requestRound now = asked ∧
      c.acceptWrite now p = ⟨asked.1, answered.2 ++ asked.2, .accepted⟩) := by
  rcases acceptWrite_outcome c now p with ⟨counters, -, eq⟩ |
    ⟨-, counters, answered, asked, -, replied, round, eq⟩
  · exact .inl ⟨counters, eq⟩
  · refine .inr ⟨counters, _, _, answered, asked, ⟨?_, List.length_map _⟩, replied, round, eq⟩
    intro b mem
    obtain ⟨offset, -, rfl⟩ := List.mem_map.1 mem
    rfl

theorem view_filePending {id : TransactionId} (read : PendingRead)
    (fresh : id ∉ c.pending.map (·.1)) : (c.filePending id read).view =
      { c.view with answers := read.packet.bare ::ₘ c.view.answers } ∧
      (c.filePending id read).pending = c.pending ++ [(id, read)] := by
  have kept : c.pending.filter (fun entry => entry.1 != id) = c.pending := by
    refine List.filter_eq_self.2 fun entry mem => ?_
    have ne : entry.1 ≠ id := fun eq => fresh (eq ▸ List.mem_map_of_mem mem)
    simpa using ne
  refine ⟨?_, by rw [filePending, kept]⟩
  have answers : (c.filePending id read).answers = read.packet.bare ::ₘ c.answers := by
    simp only [Controller.answers, filePending, kept, List.map_append, List.map_cons, List.map_nil,
      coe_append_singleton, Multiset.cons_add]
  simp only [view, answers]
  rfl

theorem view_acceptRead {accepted : Reply (Controller μ) Delivery}
    (fresh : p.id ∉ c.pending.map (·.1)) (kind : p.kind = .read)
    (h : c.acceptRead now p = accepted) (took : accepted.answer = .accepted) :
    accepted.stage.view = c.view.receive p := by
  have bare : (c.readResponse p).bare = c.view.answer c.range p := by
    simp [readResponse, StageView.answer, view]
  have written : c.view.written c.range p = some c.store := by
    simp [StageView.written, kind, view]
  rcases acceptRead_cases c now p with ⟨counters, eq⟩ | ⟨counters, answered, rfl, eq⟩ |
    ⟨counters, bursts, read, asked, -, packet, -, -, rfl, eq⟩
  · rw [← h, eq] at took
    cases took
  · rw [← h, eq, view_pushResponse]
    simp only [StageView.receive, view, StageFrame.held?] at bare written ⊢
    rw [bare, written]
    rfl
  · have filed :=
      view_filePending (c := { c with counters, readQueue := c.readQueue ++ bursts }) read fresh
    rw [← h, eq, view_requestRound, filed.1, packet]
    simp only [StageView.receive, view, StageFrame.held?] at bare written ⊢
    rw [bare, written]
    rfl

theorem view_acceptWrite {accepted : Reply (Controller μ) Delivery} (kind : p.kind = .write)
    (h : c.acceptWrite now p = accepted) (took : accepted.answer = .accepted) :
    accepted.stage.view = c.view.receive p := by
  have bare : (p.chargeHeader.respond []).bare = c.view.answer c.range p := by
    have write : p.bare.kind = .write := kind
    simp only [Packet.bare_respond, Packet.bare_chargeHeader, StageView.answer]
    exact Packet.respond_write write _ _
  have written : c.view.written c.range p =
      some (c.store.writeOrKeep (c.range.offsetOf p.addr) p.data) := by
    simp [StageView.written, kind, view]
  rcases acceptWrite_cases c now p with ⟨counters, eq⟩ |
    ⟨counters, bursts, queuedWrites, answered, asked, -, rfl, rfl, eq⟩
  · rw [← h, eq] at took
    cases took
  · rw [← h, eq, view_requestRound, view_pushResponse]
    simp only [StageView.receive, view, StageFrame.held?, Store.size_writeOrKeep] at bare written ⊢
    rw [bare, written]
    rfl

theorem Armed.ignore_sendRequest
    (h : c.Armed now fun w => w = ⟨now, .sendRequest⟩ ∨ due w) : c.Armed now due := by
  have useful : ∀ {tick kind}, kind ≠ EventKind.sendRequest →
      (⟨tick, kind⟩ : Wakeup) = ⟨now, .sendRequest⟩ ∨ due ⟨tick, kind⟩ → due ⟨tick, kind⟩ :=
    fun ne woken => woken.resolve_left fun spent => ne (congrArg Wakeup.kind spent)
  refine ⟨⟨fun r mem lt => ?_, fun free r mem le => ?_⟩, fun tick planned => ?_, h.planned⟩
  · exact useful nofun (h.responses.unready r mem lt)
  · exact useful nofun (h.responses.ready free r mem le)
  · exact ⟨(h.round tick planned).1, useful nofun (h.round tick planned).2⟩

/-- Two controllers with the same responses, plan and queues. -/
structure Alike (c c' : Controller μ) : Prop where
  responses : c'.responses = c.responses
  awaiting : c'.awaitingResponseRetry = c.awaitingResponseRetry
  round : c'.nextRound = c.nextRound
  reads : c'.readQueue = c.readQueue
  writes : c'.writeQueue = c.writeQueue

theorem ResponsesArmed.alike (h : c.ResponsesArmed now due) (same : c.Alike c') :
    c'.ResponsesArmed now due := by
  refine ⟨?_, ?_⟩
  · rw [same.responses]
    exact h.unready
  · rw [same.responses, same.awaiting]
    exact h.ready

theorem Armed.alike (h : c.Armed now due) (same : c.Alike c') : c'.Armed now due := by
  refine ⟨h.responses.alike same, ?_, ?_⟩
  · rw [RoundArmed, same.round]
    exact h.round
  · rw [RoundPlanned, same.reads, same.writes, same.round]
    exact h.planned

theorem Sound.pushResponse (h : c.Sound) (ready : Tick) (p : Packet) :
    (c.pushResponse ready p).1.Sound :=
  ⟨h.reads, h.readKind, h.writeKind, h.media, ordered_pushResponse h.ordered ready p⟩

theorem Armed.pushResponse (h : c.Armed now due) (ready : Tick) (p : Packet) :
    (c.pushResponse ready p).1.Armed now
      fun w => due w ∨ Called now (c.pushResponse ready p).2 w := by
  refine ⟨responsesArmed_pushResponse h.responses ready p, fun tick planned => ?_, h.planned⟩
  obtain ⟨le, woken⟩ := h.round tick planned
  exact ⟨le, .inl woken⟩

theorem armed_acceptRead (h : c.Armed now due) :
    (c.acceptRead now p).stage.Armed now
      fun w => due w ∨ Called now (c.acceptRead now p).actions w := by
  rcases acceptRead_cases c now p with ⟨counters, eq⟩ | ⟨counters, answered, rfl, eq⟩ |
    ⟨counters, bursts, read, asked, -, -, -, -, rfl, eq⟩
  · rw [eq]
    have same : { c with readRetryOwed := true, counters }.Armed now due :=
      h.alike ⟨rfl, rfl, rfl, rfl, rfl⟩
    exact same.mono fun _ => .inl
  · rw [eq]
    have same : { c with counters }.Armed now due := h.alike ⟨rfl, rfl, rfl, rfl, rfl⟩
    exact same.pushResponse _ _
  · rw [eq]
    have responses : ResponsesArmed now due
        ({ c with counters, readQueue := c.readQueue ++ bursts }.filePending p.id read) :=
      ⟨h.responses.unready, h.responses.ready⟩
    exact armed_requestRound responses h.round (Nat.le_refl now)

theorem armed_acceptWrite (h : c.Armed now due) :
    (c.acceptWrite now p).stage.Armed now
      fun w => due w ∨ Called now (c.acceptWrite now p).actions w := by
  rcases acceptWrite_cases c now p with ⟨counters, eq⟩ |
    ⟨counters, bursts, queuedWrites, answered, asked, -, rfl, rfl, eq⟩
  · rw [eq]
    have same : { c with writeRetryOwed := true, counters }.Armed now due :=
      h.alike ⟨rfl, rfl, rfl, rfl, rfl⟩
    exact same.mono fun _ => .inl
  · rw [eq]
    have responses : ResponsesArmed now due
        { c with
          store := c.store.writeOrKeep (c.range.offsetOf p.addr) p.data
          writeQueue := c.writeQueue ++ bursts, queuedWrites, counters } :=
      ⟨h.responses.unready, h.responses.ready⟩
    have answered := responsesArmed_pushResponse responses
      (now + p.headerDelay + c.config.frontendLatency) (p.chargeHeader.respond [])
    have round := h.round.mono fun w => Or.inl (b := Called now (Controller.pushResponse
      { c with
        store := c.store.writeOrKeep (c.range.offsetOf p.addr) p.data
        writeQueue := c.writeQueue ++ bursts, queuedWrites, counters }
      (now + p.headerDelay + c.config.frontendLatency) (p.chargeHeader.respond [])).2 w)
    refine (armed_requestRound answered round (Nat.le_refl now)).mono fun w => ?_
    rintro ((old | pushed) | asked)
    · exact .inl old
    · exact .inr pushed.append_left
    · exact .inr asked.append_right

theorem sound_acceptRead (h : c.Sound) (fresh : p.id ∉ c.pending.map (·.1)) :
    (c.acceptRead now p).stage.Sound := by
  rcases acceptRead_cases c now p with ⟨counters, eq⟩ | ⟨counters, answered, rfl, eq⟩ |
    ⟨counters, bursts, read, asked, left, packet, owner, kinds, rfl, eq⟩
  · rw [eq]
    exact ⟨h.reads, h.readKind, h.writeKind, h.media, h.ordered⟩
  · rw [eq]
    have same : { c with counters }.Sound := ⟨h.reads, h.readKind, h.writeKind, h.media, h.ordered⟩
    exact same.pushResponse _ _
  · rw [eq]
    apply sound_requestRound
    refine ⟨?_, ?_, h.writeKind, h.media, h.ordered⟩
    · have key : read.packet.id = p.id := by
        rw [packet]
        rfl
      have filed := h.reads.file fresh key left
      have entered :=
        view_filePending (c := { c with counters, readQueue := c.readQueue ++ bursts }) read fresh
      rw [entered.2]
      rw [← owner, ← List.map_append] at filed
      exact filed
    · intro b mem
      exact (List.mem_append.1 mem).elim (h.readKind b) (kinds.1 b)

theorem sound_acceptWrite (h : c.Sound) : (c.acceptWrite now p).stage.Sound := by
  rcases acceptWrite_cases c now p with ⟨counters, eq⟩ |
    ⟨counters, bursts, queuedWrites, answered, asked, kinds, rfl, rfl, eq⟩
  · rw [eq]
    exact ⟨h.reads, h.readKind, h.writeKind, h.media, h.ordered⟩
  · rw [eq]
    apply sound_requestRound
    apply Sound.pushResponse
    refine ⟨h.reads, h.readKind, ?_, h.media, h.ordered⟩
    intro b mem
    exact (List.mem_append.1 mem).elim (h.writeKind b) (kinds.1 b)

theorem view_prune (c : Controller μ) (now : Tick) : (c.prune now).view = c.view := rfl

theorem armed_prune (h : c.Armed now due) : (c.prune now).Armed now due :=
  h.alike ⟨rfl, rfl, rfl, rfl, rfl⟩

theorem sound_prune (h : c.Sound) : (c.prune now).Sound :=
  ⟨h.reads, h.readKind, h.writeKind, h.media, h.ordered⟩

theorem recvRequest_eq (c : Controller μ) (now : Tick) (p : Packet) :
    (c.range.containsAccess p.addr p.size = false ∧
      c.recvRequest now p = ⟨c, [], .unroutable p⟩) ∨
    (c.range.containsAccess p.addr p.size = true ∧ p.kind = .read ∧
      c.recvRequest now p = (c.prune now).acceptRead now p) ∨
    (c.range.containsAccess p.addr p.size = true ∧ p.kind = .write ∧
      c.recvRequest now p = (c.prune now).acceptWrite now p) := by
  rw [recvRequest]
  split
  next unserved => exact .inl ⟨by simpa using unserved, rfl⟩
  next served =>
    have serves : c.range.containsAccess p.addr p.size = true := by simpa using served
    cases kind : p.kind with
    | read => exact .inr (.inl ⟨serves, rfl, rfl⟩)
    | write => exact .inr (.inr ⟨serves, rfl, rfl⟩)

theorem acceptRead_answer (c : Controller μ) (now : Tick) (p : Packet) :
    (∃ refused, refused.view = { c.view with owesRequest := true } ∧
      c.acceptRead now p = ⟨refused, [], .busy p⟩) ∨
    ((c.acceptRead now p).answer = .accepted ∧ OnlyWakes (c.acceptRead now p).actions) := by
  rcases acceptRead_cases c now p with ⟨counters, eq⟩ | ⟨counters, answered, rfl, eq⟩ |
    ⟨counters, bursts, read, asked, -, -, -, -, rfl, eq⟩
  · exact .inl ⟨_, rfl, eq⟩
  · rw [eq]
    exact .inr ⟨rfl, .singleton _ _⟩
  · rw [eq]
    refine .inr ⟨rfl, ?_⟩
    apply onlyWakes_requestRound

theorem acceptWrite_answer (c : Controller μ) (now : Tick) (p : Packet) :
    (∃ refused, refused.view = { c.view with owesRequest := true } ∧
      c.acceptWrite now p = ⟨refused, [], .busy p⟩) ∨
    ((c.acceptWrite now p).answer = .accepted ∧ OnlyWakes (c.acceptWrite now p).actions) := by
  rcases acceptWrite_cases c now p with ⟨counters, eq⟩ |
    ⟨counters, bursts, queuedWrites, answered, asked, -, rfl, rfl, eq⟩
  · refine .inl ⟨_, ?_, eq⟩
    simp only [view, Bool.or_true]
    rfl
  · rw [eq]
    exact .inr ⟨rfl, OnlyWakes.append (.singleton _ _) (onlyWakes_requestRound _ _)⟩

theorem recvRequest_cases (c : Controller μ) (now : Tick) (p : Packet)
    (fresh : p.id ∉ c.pending.map (·.1)) :
    (c.range.containsAccess p.addr p.size = false ∧
      c.recvRequest now p = ⟨c, [], .unroutable p⟩) ∨
    (c.range.containsAccess p.addr p.size = true ∧
      ∃ refused, refused.view = { c.view with owesRequest := true } ∧
        c.recvRequest now p = ⟨refused, [], .busy p⟩) ∨
    (c.range.containsAccess p.addr p.size = true ∧
      ∃ taken actions, taken.view = c.view.receive p ∧ OnlyWakes actions ∧
        c.recvRequest now p = ⟨taken, actions, .accepted⟩) := by
  rcases recvRequest_eq c now p with unserved | ⟨serves, kind, eq⟩ | ⟨serves, kind, eq⟩
  · exact .inl unserved
  · rcases acceptRead_answer (c.prune now) now p with ⟨refused, view, busy⟩ | ⟨took, wakes⟩
    · exact .inr (.inl ⟨serves, refused, view, eq.trans busy⟩)
    · have view := view_acceptRead (c := c.prune now) fresh kind rfl took
      refine .inr (.inr ⟨serves, _, _, view, wakes, eq.trans ?_⟩)
      rw [← took]
  · rcases acceptWrite_answer (c.prune now) now p with ⟨refused, view, busy⟩ | ⟨took, wakes⟩
    · exact .inr (.inl ⟨serves, refused, view, eq.trans busy⟩)
    · have view := view_acceptWrite (c := c.prune now) kind rfl took
      refine .inr (.inr ⟨serves, _, _, view, wakes, eq.trans ?_⟩)
      rw [← took]

theorem armed_recvRequest (h : c.Armed now due) :
    (c.recvRequest now p).stage.Armed now
      fun w => due w ∨ Called now (c.recvRequest now p).actions w := by
  rcases recvRequest_eq c now p with ⟨-, eq⟩ | ⟨-, -, eq⟩ | ⟨-, -, eq⟩
  · rw [eq]
    exact h.mono fun _ => .inl
  · rw [eq]
    exact armed_acceptRead (armed_prune h)
  · rw [eq]
    exact armed_acceptWrite (armed_prune h)

theorem sound_recvRequest (h : c.Sound) (fresh : p.id ∉ c.pending.map (·.1)) :
    (c.recvRequest now p).stage.Sound := by
  rcases recvRequest_eq c now p with ⟨-, eq⟩ | ⟨-, -, eq⟩ | ⟨-, -, eq⟩
  · rwa [eq]
  · rw [eq]
    exact sound_acceptRead (sound_prune h) fresh
  · rw [eq]
    exact sound_acceptWrite (sound_prune h)

theorem takeResponse_eq_some (h : c.takeResponse now = some (p, c')) :
    c.awaitingResponseRetry = false ∧ ∃ r responses,
      c.responses.pop? ReadyResponse.before = some (r, responses) ∧ r.ready ≤ now ∧
        r.packet = p ∧ c' = { c with responses, lastTaken := some (r.ready, r.seq) } := by
  rw [takeResponse] at h
  split at h
  · cases h
  · rename_i free
    split at h
    · cases h
    · rename_i r responses popped
      split at h
      · rename_i ready
        cases h
        exact ⟨by simpa using free, r, responses, popped, ready, rfl, rfl⟩
      · cases h

theorem armed_takeResponse_none (sound : c.Sound) (h : c.takeResponse now = none)
    (armed : c.Armed now fun w => w = ⟨now, .sendResponse⟩ ∨ due w) : c.Armed now due := by
  refine ⟨⟨fun r mem lt => ?_, fun free r mem le => ?_⟩, fun tick planned => ?_, armed.planned⟩
  · rcases armed.responses.unready r mem lt with spent | pending
    · have same : r.ready = now := congrArg Wakeup.tick spent
      exact absurd lt (by simp [same])
    · exact pending
  · exfalso
    rw [takeResponse, if_neg (by simp [free])] at h
    cases hpop : c.responses.pop? ReadyResponse.before with
    | none =>
      rw [Heap.pop?_eq_none_iff.1 hpop] at mem
      cases mem
    | some top =>
      obtain ⟨first, responses⟩ := top
      have before := Heap.pop?_first ReadyResponse.isRanking_before sound.ordered hpop mem
      have ready : first.ready ≤ now :=
        Nat.le_trans (ReadyResponse.before_eq_false before) le
      simp [hpop, ready] at h
  · obtain ⟨le, woken⟩ := armed.round tick planned
    rcases woken with spent | pending
    · cases congrArg Wakeup.kind spent
    · exact ⟨le, pending⟩

theorem view_takeResponse (h : c.takeResponse now = some (p, c')) :
    c.view.awaitsResponse = false ∧
      c.view = { c'.view with answers := p.bare ::ₘ c'.view.answers } := by
  obtain ⟨free, r, responses, popped, -, rfl, rfl⟩ := takeResponse_eq_some h
  refine ⟨free, ?_⟩
  have taken := Multiset.coe_eq_coe.2 ((Heap.pop?_perm popped).map fun r => r.packet.bare)
  have answers : c.answers = r.packet.bare ::ₘ
      { c with responses, lastTaken := some (r.ready, r.seq) }.answers := by
    simp only [Controller.answers, taken, List.map_cons, ← Multiset.cons_coe, Multiset.add_cons]
  simp only [view, answers]

theorem view_responseSent (c : Controller μ) (now : Tick) :
    (c.responseSent now).1.view = c.view.redeem (c.responseSent now).2 := by
  refine Eq.trans ?_ (StageView.redeem_of_onlyWakes _ ?_).symm
  · rfl
  · rw [responseSent]
    simp only
    split
    · exact .singleton _ _
    · exact .nil

theorem armed_responseSent (sound : c.Sound) (h : c.takeResponse now = some (p, c'))
    (armed : c.Armed now fun w => w = ⟨now, .sendResponse⟩ ∨ due w) :
    (c'.responseSent now).1.Armed now fun w => due w ∨ Called now (c'.responseSent now).2 w := by
  obtain ⟨-, first, responses, popped, -, -, rfl⟩ := takeResponse_eq_some h
  have left := Heap.pop?_perm popped
  have ordered := Heap.Ordered.pop? ReadyResponse.isRanking_before sound.ordered popped
  refine ⟨⟨fun r mem lt => ?_, fun _ r mem le => ?_⟩, fun tick planned => ?_, armed.planned⟩
  · have old : r ∈ c.responses.toList := left.mem_iff.2 (List.mem_cons_of_mem _ mem)
    rcases armed.responses.unready r old lt with spent | pending
    · have same : r.ready = now := congrArg Wakeup.tick spent
      exact absurd lt (by simp [same])
    · exact .inl pending
  · have mem' : r ∈ responses.toList := mem
    have woken : Action.at now .sendResponse ∈ (if responses.top?.any
        (fun r => decide (r.ready ≤ now)) then [.at now .sendResponse] else []) := by
      cases htop : responses.top? with
      | none =>
        cases htree : responses.tree with
        | empty => simp [Heap.toList, htree, Tree.toList] at mem'
        | node => simp [Heap.top?, htree, Tree.top?] at htop
      | some top =>
        have before := Tree.Ordered.top_first ReadyResponse.isRanking_before ordered htop mem'
        have ready : top.ready ≤ now := Nat.le_trans (ReadyResponse.before_eq_false before) le
        simp [ready]
    have called : Called now _ ⟨max now now, .sendResponse⟩ := called_at woken
    rw [Nat.max_self] at called
    exact .inr called
  · obtain ⟨le, woken⟩ := armed.round tick planned
    rcases woken with spent | pending
    · cases congrArg Wakeup.kind spent
    · exact ⟨le, .inl pending⟩

theorem sound_responseSent (sound : c.Sound) (h : c.takeResponse now = some (p, c')) :
    (c'.responseSent now).1.Sound := by
  obtain ⟨-, first, responses, popped, -, -, rfl⟩ := takeResponse_eq_some h
  exact ⟨sound.reads, sound.readKind, sound.writeKind, sound.media,
    Heap.Ordered.pop? ReadyResponse.isRanking_before sound.ordered popped⟩

theorem view_responseRefused (c : Controller μ) (now : Tick) (p : Packet) :
    (c.responseRefused now p).view =
      { c.view with answers := p.bare ::ₘ c.view.answers, awaitsResponse := true } := by
  have added := Multiset.coe_eq_coe.2 ((Heap.push_perm ReadyResponse.before c.responses
    ⟨(c.lastTaken.getD (now, 0)).1, (c.lastTaken.getD (now, 0)).2, p⟩).map fun r => r.packet.bare)
  have answers : (c.responseRefused now p).answers = p.bare ::ₘ c.answers := by
    simp only [Controller.answers, responseRefused, added, List.map_cons, ← Multiset.cons_coe,
      Multiset.add_cons]
  simp only [view, answers]
  rfl

theorem armed_responseRefused (h : c.takeResponse now = some (p, c'))
    (armed : c.Armed now fun w => w = ⟨now, .sendResponse⟩ ∨ due w) :
    (c'.responseRefused now q).Armed now due := by
  obtain ⟨-, first, responses, popped, ready, -, rfl⟩ := takeResponse_eq_some h
  have left := Heap.pop?_perm popped
  refine ⟨⟨fun r mem lt => ?_, nofun⟩, fun tick planned => ?_, armed.planned⟩
  · have added := Heap.push_perm ReadyResponse.before responses ⟨first.ready, first.seq, q⟩
    rcases List.mem_cons.1 (added.mem_iff.1 mem) with rfl | other
    · exact absurd lt (Nat.not_lt.2 ready)
    · have old : r ∈ c.responses.toList := left.mem_iff.2 (List.mem_cons_of_mem _ other)
      rcases armed.responses.unready r old lt with spent | pending
      · have same : r.ready = now := congrArg Wakeup.tick spent
        exact absurd lt (by simp [same])
      · exact pending
  · obtain ⟨le, woken⟩ := armed.round tick planned
    rcases woken with spent | pending
    · cases congrArg Wakeup.kind spent
    · exact ⟨le, pending⟩

theorem sound_responseRefused (sound : c.Sound) (h : c.takeResponse now = some (p, c')) :
    (c'.responseRefused now q).Sound := by
  obtain ⟨-, first, responses, popped, -, -, rfl⟩ := takeResponse_eq_some h
  have ordered := Heap.Ordered.pop? ReadyResponse.isRanking_before sound.ordered popped
  exact ⟨sound.reads, sound.readKind, sound.writeKind, sound.media,
    Heap.Ordered.push ReadyResponse.isRanking_before ordered _⟩

theorem armed_recvResponseRetry (h : c.Armed now due) :
    (c.recvResponseRetry now).1.Armed now
      fun w => due w ∨ Called now ((c.recvResponseRetry now).2.map .wake) w := by
  have called : Called now [Action.at now .sendResponse] ⟨max now now, .sendResponse⟩ :=
    called_at List.mem_cons_self
  rw [Nat.max_self] at called
  refine ⟨⟨fun r mem lt => .inl (h.responses.unready r mem lt), fun _ _ _ _ => .inr called⟩,
    fun tick planned => ?_, h.planned⟩
  obtain ⟨le, woken⟩ := h.round tick planned
  exact ⟨le, .inl woken⟩

theorem sound_recvResponseRetry (h : c.Sound) : (c.recvResponseRetry now).1.Sound :=
  ⟨h.reads, h.readKind, h.writeKind, h.media, h.ordered⟩

theorem accessAtomic_spec [MediaChannel μ] (sound : c.Sound) (armed : c.Armed now due)
    (p : Packet) :
    (c.accessAtomic p).2.2.view = { c.view with store := (c.accessAtomic p).2.2.view.store } ∧
      (c.accessAtomic p).2.2.Sound ∧ (c.accessAtomic p).2.2.Armed now due := by
  rw [accessAtomic]
  split
  next => exact ⟨rfl, sound, armed⟩
  next =>
    cases p.kind with
    | read => exact ⟨rfl, sound, armed⟩
    | write =>
      refine ⟨?_, ⟨sound.reads, sound.readKind, sound.writeKind, sound.media, sound.ordered⟩,
        armed.alike ⟨rfl, rfl, rfl, rfl, rfl⟩⟩
      simp only [view, Store.size_writeOrKeep]
      rfl

end Controller

end Expander
