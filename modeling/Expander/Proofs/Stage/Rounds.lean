import Expander.Proofs.Stage.Controller

/-!
The memory controller as a stage: scheduling rounds.

A round takes one burst out of the queue that the bus serves, issues it to its channel, and asks for
the next round while bursts are left. The view does not change: the last burst of a read turns its
entry into a response, and both are answers. After a round the controller redeems the retries that
it owes, if it has room.
-/

set_option autoImplicit false

namespace Expander.Controller

variable {μ : Type} {c c' : Controller μ} {now : Tick} {due : Wakeup → Prop} {b : Burst}

theorem finishRead_shape (c : Controller μ) (id : TransactionId) (readyAt : Tick) :
    ∃ pending, c.finishRead id readyAt = ({ c with pending }, []) ∨
      ∃ ready p, c.finishRead id readyAt = { c with pending }.pushResponse ready p := by
  rw [finishRead]
  cases c.pending.lookup id with
  | none => exact ⟨c.pending, .inl rfl⟩
  | some read =>
    simp only
    split
    · exact ⟨_, .inl rfl⟩
    · exact ⟨_, .inr ⟨_, _, rfl⟩⟩

theorem fileIssued_shape (c : Controller μ) (b : Burst) (readyAt : Tick) :
    ∃ filed : Controller μ, c.Alike filed ∧ filed.media = c.media ∧
      (c.fileIssued b readyAt = (filed, []) ∨
        ∃ ready p, c.fileIssued b readyAt = filed.pushResponse ready p) := by
  rw [fileIssued]
  cases b.kind with
  | write =>
    refine ⟨_, ?_, ?_, .inl rfl⟩
    · exact ⟨rfl, rfl, rfl, rfl, rfl⟩
    · rfl
  | read =>
    obtain ⟨pending, shape⟩ := finishRead_shape
      { c with
        readsThisPhase := c.readsThisPhase + 1
        readsInFlight := readyAt :: c.readsInFlight } b.packetId readyAt
    refine ⟨_, ?_, ?_, shape⟩
    · exact ⟨rfl, rfl, rfl, rfl, rfl⟩
    · rfl

/-- The controller holds all but one burst, which is being issued. -/
structure Issuing (c : Controller μ) (b : Burst) : Prop where
  /-- With the burst, the queued read bursts are those of the pending reads. -/
  reads : ReadsKept c.pending
    ((if b.kind = .read then [b.packetId] else []) ++ c.readQueue.map (·.packetId))
  readKind : ∀ b ∈ c.readQueue, b.kind = .read
  writeKind : ∀ b ∈ c.writeQueue, b.kind = .write
  media : c.media ≠ []
  ordered : c.responses.Ordered ReadyResponse.before

theorem view_fileIssued (h : c.Issuing b) (readyAt : Tick) :
    (c.fileIssued b readyAt).1.view = c.view ∧
      ReadsKept (c.fileIssued b readyAt).1.pending (c.readQueue.map (·.packetId)) := by
  have reads := h.reads
  rw [fileIssued]
  cases kind : b.kind with
  | write =>
    rw [kind] at reads
    exact ⟨rfl, reads⟩
  | read =>
    rw [kind] at reads
    have kept := readsKept_finishRead (c := { c with
      readsThisPhase := c.readsThisPhase + 1
      readsInFlight := readyAt :: c.readsInFlight }) reads readyAt
    exact ⟨kept.2, kept.1⟩

theorem sound_fileIssued (h : c.Issuing b) (readyAt : Tick) :
    (c.fileIssued b readyAt).1.Sound := by
  have reads := (view_fileIssued h readyAt).2
  obtain ⟨filed, same, media, shape⟩ := fileIssued_shape c b readyAt
  rcases shape with eq | ⟨ready, p, eq⟩
  · rw [eq] at reads ⊢
    refine ⟨?_, ?_, ?_, ?_, ?_⟩
    · rwa [same.reads]
    · rw [same.reads]
      exact h.readKind
    · rw [same.writes]
      exact h.writeKind
    · rw [media]
      exact h.media
    · rw [same.responses]
      exact h.ordered
  · rw [eq] at reads ⊢
    refine Sound.pushResponse ⟨?_, ?_, ?_, ?_, ?_⟩ ready p
    · rw [same.reads]
      exact reads
    · rw [same.reads]
      exact h.readKind
    · rw [same.writes]
      exact h.writeKind
    · rw [media]
      exact h.media
    · rw [same.responses]
      exact h.ordered

theorem armed_fileIssued (h : c.ResponsesArmed now due) (b : Burst) (readyAt : Tick) :
    (c.fileIssued b readyAt).1.ResponsesArmed now
        (fun w => due w ∨ Called now (c.fileIssued b readyAt).2 w) ∧
      OnlyWakes (c.fileIssued b readyAt).2 ∧
      (c.fileIssued b readyAt).1.nextRound = c.nextRound := by
  obtain ⟨filed, same, -, shape⟩ := fileIssued_shape c b readyAt
  rcases shape with eq | ⟨ready, p, eq⟩
  · rw [eq]
    exact ⟨(h.alike same).mono fun _ => .inl, .nil, same.round⟩
  · rw [eq]
    exact ⟨responsesArmed_pushResponse (h.alike same) ready p, .singleton _ _, same.round⟩

/-- What a call of the controller on itself keeps: the view but for promises that it redeems, the
bookkeeping, and the wake-ups together with those asked for. -/
structure Kept (now : Tick) (due : Wakeup → Prop) (c : Controller μ)
    (r : Controller μ × List Action) : Prop where
  view : r.1.view = c.view
  wakes : OnlyWakes r.2
  sound : r.1.Sound
  armed : r.1.Armed now fun w => due w ∨ Called now r.2 w

theorem kept_fileIssued (h : c.Issuing b) (responses : c.ResponsesArmed now due)
    (unplanned : c.nextRound = none) (readyAt : Tick) {next : Tick} (le : now ≤ next)
    {filed : Controller μ × List Action} (eq : c.fileIssued b readyAt = filed) :
    Kept now due c
      (let spaced := { filed.1 with roundNotBefore := next }
      if spaced.readQueue.isEmpty && spaced.writeQueue.isEmpty then (spaced, filed.2)
      else
        let asked := spaced.requestRound next
        (asked.1, filed.2 ++ asked.2)) := by
  have view := (view_fileIssued h readyAt).1
  have sound := sound_fileIssued h readyAt
  obtain ⟨armed, wakes, round⟩ := armed_fileIssued responses b readyAt
  rw [eq] at view sound armed wakes round
  have spacedSound : { filed.1 with roundNotBefore := next }.Sound :=
    ⟨sound.reads, sound.readKind, sound.writeKind, sound.media, sound.ordered⟩
  have spacedArmed : { filed.1 with roundNotBefore := next }.ResponsesArmed now
      fun w => due w ∨ Called now filed.2 w := armed.alike ⟨rfl, rfl, rfl, rfl, rfl⟩
  -- The round has just been taken, so what is asked for below is the only plan.
  have noRound : { filed.1 with roundNotBefore := next }.RoundArmed now
      fun w => due w ∨ Called now filed.2 w := by
    intro tick planned
    simp [round, unplanned] at planned
  simp only
  split
  next empty =>
    refine ⟨view, wakes, spacedSound, spacedArmed, noRound, fun queued => ?_⟩
    simp only [Bool.and_eq_true, List.isEmpty_iff] at empty
    exact absurd queued (by simp [empty])
  next =>
    refine ⟨(view_requestRound _ next).trans view, wakes.append (onlyWakes_requestRound _ next),
      sound_requestRound spacedSound next, ?_⟩
    refine (armed_requestRound spacedArmed noRound le).mono fun w => ?_
    rintro ((old | pushed) | asked)
    · exact .inl old
    · exact .inr pushed.append_left
    · exact .inr asked.append_right

theorem channelOf_lt (h : c.media ≠ []) (b : Burst) : c.channelOf b < c.media.length := by
  have pos := List.length_pos_iff.2 h
  rw [channelOf]
  omega

theorem passOver_perm {α : Type} (f : Burst → α)
    (unaged : ∀ b, f { b with roundsWaited := b.roundsWaited + 1 } = f b) {queue : List Burst}
    {index : Nat} (h : queue[index]? = some b) :
    (queue.map f).Perm (f b :: (passOver queue index).map f) := by
  obtain ⟨lt, rfl⟩ := List.getElem?_eq_some_iff.1 h
  have erased := (List.getElem_cons_eraseIdx_perm lt).symm.map f
  simpa [passOver, Function.comp_def, unaged] using erased

theorem kind_passOver {queue : List Burst} {index : Nat} {kind : AccessKind}
    (h : ∀ b ∈ queue, b.kind = kind) : ∀ b ∈ passOver queue index, b.kind = kind := by
  intro b mem
  obtain ⟨old, oldMem, rfl⟩ := List.mem_map.1 mem
  exact h old (List.mem_of_mem_eraseIdx oldMem)

theorem chooseDirection_spec (h : c.readQueue ≠ [] ∨ c.writeQueue ≠ []) :
    c.Alike c.chooseDirection ∧ c.chooseDirection.media = c.media ∧
      c.chooseDirection.pending = c.pending ∧ c.chooseDirection.view = c.view ∧
      c.chooseDirection.activeQueue ≠ [] := by
  rw [chooseDirection]
  -- The bus keeps its direction only while the queue of that direction holds a burst.
  split
  next turns =>
    rw [turnAround]
    rw [turnsAround] at turns
    cases direction : c.direction <;> simp only [direction, Bool.and_eq_true] at turns
    · exact ⟨⟨rfl, rfl, rfl, rfl, rfl⟩, rfl, rfl, rfl, by simpa [activeQueue] using turns.1⟩
    · exact ⟨⟨rfl, rfl, rfl, rfl, rfl⟩, rfl, rfl, rfl, by simpa [activeQueue] using turns.1⟩
  next stays =>
    refine ⟨⟨rfl, rfl, rfl, rfl, rfl⟩, rfl, rfl, rfl, fun empty => stays ?_⟩
    rw [activeQueue] at empty
    rw [turnsAround]
    cases direction : c.direction <;> simp only [direction] at empty ⊢
    · simpa [empty] using h
    · simpa [empty] using h

theorem issuing_passOver (h : c.Sound) {index : Nat} (burst : c.activeQueue[index]? = some b) :
    (c.withActiveQueue (passOver c.activeQueue index)).Issuing b := by
  rw [activeQueue] at burst ⊢
  rw [withActiveQueue]
  cases direction : c.direction with
  | read =>
    simp only [direction] at burst
    have kind : b.kind = .read := h.readKind b (List.mem_of_getElem? burst)
    refine ⟨?_, kind_passOver h.readKind, h.writeKind, h.media, h.ordered⟩
    rw [kind]
    exact h.reads.perm (passOver_perm (·.packetId) (fun _ => rfl) burst)
  | write =>
    simp only [direction] at burst
    have kind : b.kind = .write := h.writeKind b (List.mem_of_getElem? burst)
    refine ⟨?_, h.readKind, kind_passOver h.writeKind, h.media, h.ordered⟩
    rw [kind]
    exact h.reads

theorem withActiveQueue_frame (c : Controller μ) (queue : List Burst) :
    (c.withActiveQueue queue).view = c.view ∧
      (c.withActiveQueue queue).responses = c.responses ∧
      (c.withActiveQueue queue).awaitingResponseRetry = c.awaitingResponseRetry ∧
      (c.withActiveQueue queue).nextRound = c.nextRound := by
  rw [withActiveQueue]
  cases c.direction <;> exact ⟨rfl, rfl, rfl, rfl⟩

theorem retryIfRoom_spec (h : c.Sound) (armed : c.Armed now due) :
    (c.retryIfRoom now).1.view = c.view.redeem (c.retryIfRoom now).2 ∧
      (c.retryIfRoom now).1.Sound ∧
      (c.retryIfRoom now).1.Armed now fun w => due w ∨ Called now (c.retryIfRoom now).2 w := by
  rw [retryIfRoom]
  split
  next =>
    exact ⟨(StageView.redeem_of_onlyWakes _ .nil).symm, h, armed.mono fun _ => .inl⟩
  next =>
    split
    next =>
      have same : { c with readRetryOwed := false, writeRetryOwed := false }.Armed now due :=
        armed.alike ⟨rfl, rfl, rfl, rfl, rfl⟩
      refine ⟨?_, ⟨h.reads, h.readKind, h.writeKind, h.media, h.ordered⟩, same.mono fun _ => .inl⟩
      simp only [StageView.redeem, view, List.mem_singleton, reduceCtorEq, decide_true,
        decide_false, Bool.not_true, Bool.and_false, Bool.or_self]
      rfl
    next =>
      refine ⟨(StageView.redeem_of_onlyWakes _ ?_).symm, h, armed.mono fun _ => .inl⟩
      intro a mem
      obtain ⟨tick, -, rfl⟩ := List.mem_map.1 mem
      exact ⟨_, rfl⟩

theorem armed_spent_process
    (armed : c.Armed now fun w => w = ⟨now, .process⟩ ∨ due w) :
    c.ResponsesArmed now due ∧
      ((c.nextRound.any fun planned => decide (planned ≤ now)) = false → c.Armed now due) := by
  have responses : c.ResponsesArmed now due := by
    refine ⟨fun r mem lt => ?_, fun free r mem le => ?_⟩
    · rcases armed.responses.unready r mem lt with spent | pending
      · cases congrArg Wakeup.kind spent
      · exact pending
    · rcases armed.responses.ready free r mem le with spent | pending
      · cases congrArg Wakeup.kind spent
      · exact pending
  -- A planned round that is not due has a later tick than the wake-up that was spent.
  refine ⟨responses, fun notDue => ⟨responses, fun tick planned => ?_, armed.planned⟩⟩
  obtain ⟨le, woken⟩ := armed.round tick planned
  rcases woken with spent | pending
  · have same : tick = now := congrArg Wakeup.tick spent
    simp [planned, same] at notDue
  · exact ⟨le, pending⟩

section Round

variable [MediaChannel μ]

theorem kept_issue (h : c.Issuing b) (responses : c.ResponsesArmed now due)
    (unplanned : c.nextRound = none) (promoted : Bool) (channel : μ) :
    Kept now due c (c.issue now b promoted channel) := by
  let served := MediaChannel.access channel b.coordinate b.kind now
  let prepared : Controller μ := { c with
    media := c.media.set (c.channelOf b) served.2
    counters := countIssue c.counters b now promoted served.1.rowHit }
  have issuing : prepared.Issuing b :=
    ⟨h.reads, h.readKind, h.writeKind, by simpa [prepared] using h.media, h.ordered⟩
  have armed : prepared.ResponsesArmed now due := responses.alike ⟨rfl, rfl, rfl, rfl, rfl⟩
  have later : now ≤ max (now + MediaChannel.commandSlot served.2)
      (served.1.readyAt - MediaChannel.staticLatency served.2) :=
    Nat.le_trans (Nat.le_add_right ..) (Nat.le_max_left ..)
  have kept := kept_fileIssued issuing armed unplanned served.1.readyAt later rfl
  have view : prepared.view = c.view := by
    simp only [Controller.view, prepared, List.length_set]
    rfl
  exact ⟨kept.view.trans view, kept.wakes, kept.sound, kept.armed⟩

theorem chooseBurst_lt (c : Controller μ) {queue : List Burst} (h : queue ≠ []) :
    (c.chooseBurst queue).1 < queue.length := by
  rw [chooseBurst]
  cases starved : queue.findIdx? c.isStarved with
  | some index =>
    exact (List.findIdx?_eq_some_iff_findIdx_eq.1 starved).1
  | none =>
    cases hit : queue.findIdx? c.isRowHit with
    | some index => exact (List.findIdx?_eq_some_iff_findIdx_eq.1 hit).1
    | none => exact List.length_pos_iff.2 h

theorem kept_passOver (h : c.Sound) (responses : c.ResponsesArmed now due)
    (unplanned : c.nextRound = none) {index : Nat} (burst : c.activeQueue[index]? = some b)
    (promoted : Bool) :
    Kept now due c
      (let passed := c.withActiveQueue (passOver c.activeQueue index)
      match passed.media[passed.channelOf b]? with
      | none => (passed, [])
      | some channel => passed.issue now b promoted channel) := by
  have issuing := issuing_passOver h burst
  obtain ⟨view, same, awaiting, round⟩ :=
    withActiveQueue_frame c (passOver c.activeQueue index)
  have armed : (c.withActiveQueue (passOver c.activeQueue index)).ResponsesArmed now due := by
    refine ⟨?_, ?_⟩
    · rw [same]
      exact responses.unready
    · rw [same, awaiting]
      exact responses.ready
  have lt := channelOf_lt issuing.media b
  have kept := kept_issue issuing armed (round.trans unplanned) promoted
    (c.withActiveQueue (passOver c.activeQueue index)).media[
      (c.withActiveQueue (passOver c.activeQueue index)).channelOf b]
  simp only
  rw [List.getElem?_eq_getElem lt]
  exact ⟨kept.view.trans view, kept.wakes, kept.sound, kept.armed⟩

/-- A round without a plan issues a burst, if one is queued. -/
theorem kept_runRound (h : c.Sound) (responses : c.ResponsesArmed now due)
    (unplanned : c.nextRound = none) : Kept now due c (c.runRound now) := by
  rw [runRound]
  split
  next empty =>
    simp only [Bool.and_eq_true, List.isEmpty_iff] at empty
    refine ⟨rfl, .nil, h, responses.mono fun _ => .inl, fun tick planned => ?_, fun queued => ?_⟩
    · simp [unplanned] at planned
    · exact absurd queued (by simp [empty])
  next queued =>
    have some : c.readQueue ≠ [] ∨ c.writeQueue ≠ [] := by
      simp only [Bool.and_eq_true, List.isEmpty_iff] at queued
      tauto
    obtain ⟨same, media, pending, view, active⟩ := chooseDirection_spec some
    have turned : c.chooseDirection.Sound := by
      refine ⟨?_, ?_, ?_, ?_, ?_⟩
      · rw [pending, same.reads]
        exact h.reads
      · rw [same.reads]
        exact h.readKind
      · rw [same.writes]
        exact h.writeKind
      · rw [media]
        exact h.media
      · rw [same.responses]
        exact h.ordered
    have burst := List.getElem?_eq_getElem (chooseBurst_lt c.chooseDirection active)
    have kept := kept_passOver turned (responses.alike same) (same.round.trans unplanned) burst
      (c.chooseDirection.chooseBurst c.chooseDirection.activeQueue).2
    simp only
    rw [burst]
    exact ⟨kept.view.trans view, kept.wakes, kept.sound, kept.armed⟩

/-- What the controller's own processing does: the view changes by the retries it redeems. -/
theorem process_spec (h : c.Sound) (armed : c.Armed now fun w => w = ⟨now, .process⟩ ∨ due w) :
    (c.process now).1.view = c.view.redeem (c.process now).2 ∧
      (c.process now).1.Sound ∧
      (c.process now).1.Armed now fun w => due w ∨ Called now (c.process now).2 w := by
  have pruned : (c.prune now).Sound := sound_prune h
  obtain ⟨responses, quiet⟩ := armed_spent_process (armed_prune armed)
  have ran : Kept now due (c.prune now)
      (if (c.prune now).nextRound.any fun planned => decide (planned ≤ now) then
        { c.prune now with nextRound := none }.runRound now
      else (c.prune now, [])) := by
    split
    next =>
      have kept : Kept now due _ ({ c.prune now with nextRound := none }.runRound now) :=
        kept_runRound
          ⟨pruned.reads, pruned.readKind, pruned.writeKind, pruned.media, pruned.ordered⟩
          ⟨responses.unready, responses.ready⟩ rfl
      exact ⟨kept.view, kept.wakes, kept.sound, kept.armed⟩
    next notDue =>
      exact ⟨rfl, .nil, pruned, (quiet (by simpa using notDue)).mono fun _ => .inl⟩
  -- A round asks for wake-ups only; the retries are those that are redeemed after it.
  obtain ⟨view, sound, woken⟩ := retryIfRoom_spec ran.sound ran.armed
  rw [process]
  refine ⟨?_, sound, woken.mono fun w => ?_⟩
  · refine view.trans ?_
    rw [ran.view, view_prune]
    simp only [StageView.redeem, List.mem_append, ran.wakes.retryRequest_not_mem,
      ran.wakes.retryResponse_not_mem, false_or]
  · rintro ((old | round) | retry)
    · exact .inl old
    · exact .inr round.append_left
    · exact .inr retry.append_right

end Round

end Expander.Controller
