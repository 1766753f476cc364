import Expander.Proofs.Bursts
import Expander.Proofs.Scheduling.Journal

/-!
The queues of a controller, and the bursts in flight.

A packet enters a queue as far as there is room for its bursts (`Enters`), and a round moves one
burst from its queue to those in flight (`Departs`). The bursts of a packet are those of its bytes
that no queued write holds, so no two queued writes are of one burst, and every queued burst lies in
the range and has a channel to go to (`Sited`). What is in flight is done some time, so a limit that
is kept when a packet is accepted is kept at every later tick (`Limited`).
-/

set_option autoImplicit false

namespace Expander

theorem BusDirection.eq_other {d e : BusDirection} (apart : e ≠ d) : e = d.other := by
  cases d <;> cases e <;> first | rfl | exact absurd rfl apart

def ControllerConfig.pendingLimit (c : ControllerConfig) : BusDirection → Nat
  | .read => c.maxPendingReads
  | .write => c.maxPendingWrites

namespace Controller

variable {μ : Type} {c c' c'' : Controller μ} {now tick : Tick} {p : Packet} {b : Burst}
  {pick : Pick}

def inFlight (c : Controller μ) : BusDirection → List Tick
  | .read => c.readsInFlight
  | .write => c.writesInFlight

def outstanding (c : Controller μ) (d : BusDirection) (tick : Tick) : Nat :=
  (c.queue d).length + countAfter (c.inFlight d) tick

theorem countAfter_later (ticks : List Tick) (le : now ≤ tick) :
    countAfter ticks tick ≤ countAfter ticks now :=
  List.countP_mono_left fun t _ later => by
    have lt := of_decide_eq_true later
    exact decide_eq_true (Nat.lt_of_le_of_lt le lt)

theorem countAfter_filter {ticks : List Tick} (le : now ≤ tick) :
    countAfter (ticks.filter fun t => decide (now < t)) tick = countAfter ticks tick := by
  rw [countAfter, countAfter, List.countP_filter]
  refine List.countP_congr fun t _ => ?_
  simp only [Bool.and_eq_true, decide_eq_true_eq, and_iff_left_iff_imp]
  exact Nat.lt_of_le_of_lt le

theorem countAfter_cons_le (ready : Tick) (ticks : List Tick) (tick : Tick) :
    countAfter (ready :: ticks) tick ≤ countAfter ticks tick + 1 := by
  rw [countAfter, List.countP_cons, countAfter]
  split <;> omega

/-- Two controllers of the same kind in the same place. -/
structure SameSite (c c' : Controller μ) : Prop where
  config : c'.config = c.config
  range : c'.range = c.range
  decoder : c'.decoder = c.decoder
  channels : c'.media.length = c.media.length

/-- Two controllers with the same bursts in their queues and in flight. -/
structure SameBooks (c c' : Controller μ) : Prop extends c.SameSite c' where
  reads : c'.readQueue = c.readQueue
  writes : c'.writeQueue = c.writeQueue
  readsInFlight : c'.readsInFlight = c.readsInFlight
  writesInFlight : c'.writesInFlight = c.writesInFlight

/-- The bursts of a packet that no queued write holds join a queue in which there is room. -/
structure Enters (c : Controller μ) (now : Tick) (p : Packet) (d : BusDirection)
    (c' : Controller μ) : Prop where
  site : c.SameSite c'
  served : c.range.containsAccess p.addr p.size = true
  room : c.outstanding d now + (c.freshBurstsOf p).length ≤ c.config.pendingLimit d
  joined : c'.queue d = c.queue d ++ (c.freshBurstsOf p).map (c.burstAt p d.kind now)
  other : c'.queue d.other = c.queue d.other
  inFlight : ∀ d, c'.inFlight d = c.inFlight d

/-- A burst leaves its queue and is in flight. -/
structure Departs (c : Controller μ) (pick : Pick) (c' : Controller μ) : Prop where
  site : c.SameSite c'
  found : (c.queue pick.direction)[pick.place]? = some pick.burst
  left : c'.queue pick.direction = passOver (c.queue pick.direction) pick.place
  other : c'.queue pick.direction.other = c.queue pick.direction.other
  flown : ∃ ready, c'.inFlight pick.direction = ready :: c.inFlight pick.direction
  others : c'.inFlight pick.direction.other = c.inFlight pick.direction.other

namespace SameSite

theorem refl (c : Controller μ) : c.SameSite c := by
  constructor <;> rfl

theorem trans (h : c.SameSite c') (h' : c'.SameSite c'') : c.SameSite c'' where
  config := h'.config.trans h.config
  range := h'.range.trans h.range
  decoder := h'.decoder.trans h.decoder
  channels := h'.channels.trans h.channels

theorem burstsOf (h : c.SameSite c') : c'.burstsOf = c.burstsOf := by
  funext p
  rw [Controller.burstsOf, Controller.burstsOf, h.range, h.decoder]

end SameSite

namespace SameBooks

theorem refl (c : Controller μ) : c.SameBooks c :=
  ⟨.refl c, rfl, rfl, rfl, rfl⟩

theorem trans (h : c.SameBooks c') (h' : c'.SameBooks c'') : c.SameBooks c'' where
  toSameSite := h.toSameSite.trans h'.toSameSite
  reads := h'.reads.trans h.reads
  writes := h'.writes.trans h.writes
  readsInFlight := h'.readsInFlight.trans h.readsInFlight
  writesInFlight := h'.writesInFlight.trans h.writesInFlight

theorem queue (h : c.SameBooks c') (d : BusDirection) : c'.queue d = c.queue d := by
  cases d with
  | read => exact h.reads
  | write => exact h.writes

theorem inFlight (h : c.SameBooks c') (d : BusDirection) : c'.inFlight d = c.inFlight d := by
  cases d with
  | read => exact h.readsInFlight
  | write => exact h.writesInFlight

end SameBooks

theorem Enters.alike {d : BusDirection} (h : c.Enters now p d c') (same : c'.SameBooks c'') :
    c.Enters now p d c'' where
  site := h.site.trans same.toSameSite
  served := h.served
  room := h.room
  joined := (same.queue _).trans h.joined
  other := (same.queue _).trans h.other
  inFlight d := (same.inFlight d).trans (h.inFlight d)

theorem Departs.alike (h : c.Departs pick c') (same : c'.SameBooks c'') : c.Departs pick c'' where
  site := h.site.trans same.toSameSite
  found := h.found
  left := (same.queue _).trans h.left
  other := (same.queue _).trans h.other
  flown := by
    obtain ⟨ready, flown⟩ := h.flown
    exact ⟨ready, (same.inFlight _).trans flown⟩
  others := (same.inFlight _).trans h.others

theorem sameBooks_requestRound (c : Controller μ) (tick : Tick) :
    c.SameBooks (c.requestRound tick).1 := by
  rcases requestRound_cases c tick with ⟨planned, -, eq⟩ | eq <;> rw [eq]
  · exact .refl c
  · exact ⟨⟨rfl, rfl, rfl, rfl⟩, rfl, rfl, rfl, rfl⟩

theorem sameBooks_retryIfRoom (c : Controller μ) (now : Tick) :
    c.SameBooks (c.retryIfRoom now).1 := by
  rw [retryIfRoom]
  split
  · exact .refl c
  · split
    · exact ⟨⟨rfl, rfl, rfl, rfl⟩, rfl, rfl, rfl, rfl⟩
    · exact .refl c

theorem recvRequest_books (c : Controller μ) (now : Tick) (p : Packet) :
    c.SameBooks (c.recvRequest now p).stage ∨
      (c.prune now).SameBooks (c.recvRequest now p).stage ∨
      ∃ d, (c.prune now).Enters now p d (c.recvRequest now p).stage := by
  rcases recvRequest_eq c now p with ⟨-, eq⟩ | ⟨served, -, eq⟩ | ⟨served, -, eq⟩ <;> rw [eq]
  · exact .inl (.refl c)
  · rcases acceptRead_outcome (c.prune now) now p with ⟨counters, -, eq⟩ |
      ⟨-, counters, reply, -, rfl, eq⟩ | ⟨room, -, counters, asked, -, rfl, eq⟩ <;> rw [eq]
    · exact .inr (.inl ⟨⟨rfl, rfl, rfl, rfl⟩, rfl, rfl, rfl, rfl⟩)
    · exact .inr (.inl ⟨⟨rfl, rfl, rfl, rfl⟩, rfl, rfl, rfl, rfl⟩)
    · rw [readRoom, decide_eq_true_eq] at room
      refine .inr (.inr ⟨.read, Enters.alike ?_ (sameBooks_requestRound _ now)⟩)
      exact ⟨⟨rfl, rfl, rfl, rfl⟩, served, room.2, rfl, rfl, fun d => by cases d <;> rfl⟩
  · rcases acceptWrite_outcome (c.prune now) now p with ⟨counters, -, eq⟩ |
      ⟨room, counters, reply, asked, -, rfl, rfl, eq⟩ <;> rw [eq]
    · exact .inr (.inl ⟨⟨rfl, rfl, rfl, rfl⟩, rfl, rfl, rfl, rfl⟩)
    · rw [writeRoom, decide_eq_true_eq] at room
      refine .inr (.inr ⟨.write, Enters.alike ?_ (sameBooks_requestRound _ now)⟩)
      exact ⟨⟨rfl, rfl, rfl, rfl⟩, served, room.2, rfl, rfl, fun d => by cases d <;> rfl⟩

theorem inFlight_fileIssued (c : Controller μ) (b : Burst) (readyAt : Tick) :
    c.SameSite (c.fileIssued b readyAt).1 ∧ ∀ d : BusDirection,
      (c.fileIssued b readyAt).1.inFlight d =
        if d.kind = b.kind then readyAt :: c.inFlight d else c.inFlight d := by
  rw [fileIssued]
  cases b.kind with
  | write => exact ⟨⟨rfl, rfl, rfl, rfl⟩, fun d => by cases d <;> rfl⟩
  | read =>
    simp only
    obtain ⟨pending, eq | ⟨ready, q, eq⟩⟩ := finishRead_shape
      { c with
        readsThisPhase := c.readsThisPhase + 1
        readsInFlight := readyAt :: c.readsInFlight } b.packetId readyAt <;> rw [eq]
    · exact ⟨⟨rfl, rfl, rfl, rfl⟩, fun d => by cases d <;> rfl⟩
    · exact ⟨⟨rfl, rfl, rfl, rfl⟩, fun d => by cases d <;> rfl⟩

theorem inFlight_withoutPick (c : Controller μ) (pick : Pick) :
    c.SameSite (c.withoutPick pick) ∧ ∀ d, (c.withoutPick pick).inFlight d = c.inFlight d := by
  rw [withoutPick, withActiveQueue, chooseDirection, turnAround]
  split <;> split <;> (try split) <;>
    exact ⟨⟨rfl, rfl, rfl, rfl⟩, fun d => by cases d <;> rfl⟩

section Rounds

variable [MediaChannel μ]

theorem inFlight_issue (c : Controller μ) (now : Tick) (b : Burst) (promoted : Bool)
    (channel : μ) : c.SameSite (c.issue now b promoted channel).1 ∧ ∃ ready,
      ∀ d : BusDirection, (c.issue now b promoted channel).1.inFlight d =
        if d.kind = b.kind then ready :: c.inFlight d else c.inFlight d := by
  let served := MediaChannel.access channel b.coordinate b.kind now
  let counted : Controller μ := { c with
    media := c.media.set (c.channelOf b) served.2
    counters := countIssue c.counters b now promoted served.1.rowHit }
  have taken : c.SameSite counted := ⟨rfl, rfl, rfl, List.length_set⟩
  have spaced (c : Controller μ) (next : Tick) : c.SameBooks { c with roundNotBefore := next } :=
    ⟨⟨rfl, rfl, rfl, rfl⟩, rfl, rfl, rfl, rfl⟩
  obtain ⟨site, flown⟩ := inFlight_fileIssued counted b served.1.readyAt
  have issued : (counted.fileIssued b served.1.readyAt).1.SameBooks
      (c.issue now b promoted channel).1 := by
    rw [issue]
    simp only
    split
    · exact spaced _ _
    · exact (spaced _ _).trans (sameBooks_requestRound _ _)
  refine ⟨taken.trans (site.trans issued.toSameSite), served.1.readyAt, fun d => ?_⟩
  exact (issued.inFlight d).trans (flown d)

theorem departs_runRound (h : c.Orderly) (now : Tick) (chosen : c.nextPick = some pick) :
    c.Departs pick (c.runRound now).1 := by
  have found := (nextPick_eq_some chosen).2.2
  have kind := h.kinds _ _ (List.mem_of_getElem? found)
  have housed := h.housed.media_ne_nil chosen
  have issues := issues_runRound now chosen housed
  obtain ⟨channel, promoted, -, eq⟩ := runRound_eq now chosen housed
  obtain ⟨before, unmoved⟩ := inFlight_withoutPick c pick
  obtain ⟨site, ready, flown⟩ :=
    inFlight_issue (c.withoutPick pick) now pick.burst promoted channel
  rw [← eq] at site flown
  refine ⟨before.trans site, found, issues.served, issues.other, ⟨ready, ?_⟩, ?_⟩
  · rw [flown, if_pos kind.symm, unmoved]
  · have apart : pick.direction.other.kind ≠ pick.burst.kind := by
      rw [kind]
      cases pick.direction <;> exact nofun
    rw [flown, if_neg apart, unmoved]

theorem process_books (h : c.Orderly) (now : Tick) :
    (c.prune now).SameBooks (c.process now).1 ∨
      ∃ pick, (c.prune now).Departs pick (c.process now).1 := by
  have orderly := h.beforeRound now
  have before : (c.prune now).SameBooks (c.beforeRound now) :=
    ⟨⟨rfl, rfl, rfl, rfl⟩, rfl, rfl, rfl, rfl⟩
  rcases process_rounds c now with ⟨-, eq⟩ | ⟨-, eq⟩ <;> rw [eq]
  · exact .inl (sameBooks_retryIfRoom _ now)
  · rcases runRound_cases orderly.housed now with ⟨-, ran⟩ | ⟨pick, chosen, -⟩
    · rw [ran]
      exact .inl (before.trans (sameBooks_retryIfRoom _ now))
    · have departs : (c.beforeRound now).Departs pick ((c.beforeRound now).runRound now).1 :=
        departs_runRound orderly now chosen
      refine .inr ⟨pick, Departs.alike ?_ (sameBooks_retryIfRoom _ now)⟩
      exact ⟨before.toSameSite.trans departs.site, departs.found, departs.left, departs.other,
        departs.flown, departs.others⟩

/-- Every call leaves the books as they are, but for what is done by then; or it enters a packet;
or it issues a burst. -/
theorem after_books (h : c.Orderly) (call : Call) :
    c.SameBooks (c.after call) ∨ ∃ now, call.tick? = some now ∧
      ((c.prune now).SameBooks (c.after call) ∨
        (∃ p d, (c.prune now).Enters now p d (c.after call)) ∨
        ∃ pick, (c.prune now).Departs pick (c.after call)) := by
  cases call with
  | offer now p =>
    rcases recvRequest_books c now p with same | same | ⟨d, enters⟩
    · exact .inl same
    · exact .inr ⟨now, rfl, .inl same⟩
    · exact .inr ⟨now, rfl, .inr (.inl ⟨p, d, enters⟩)⟩
  | process now =>
    rcases process_books h now with same | departs
    · exact .inr ⟨now, rfl, .inl same⟩
    · exact .inr ⟨now, rfl, .inr (.inr departs)⟩
  | take now =>
    left
    cases took : c.takeResponse now with
    | none => simpa [after, took] using SameBooks.refl c
    | some taken =>
      obtain ⟨-, r, responses, -, -, -, eq⟩ := takeResponse_eq_some took
      simp only [after, took, Option.map_some, Option.getD_some, eq]
      exact ⟨⟨rfl, rfl, rfl, rfl⟩, rfl, rfl, rfl, rfl⟩
  | sent now =>
    exact .inl ⟨⟨rfl, rfl, rfl, rfl⟩, rfl, rfl, rfl, rfl⟩
  | refused now p =>
    exact .inl ⟨⟨rfl, rfl, rfl, rfl⟩, rfl, rfl, rfl, rfl⟩
  | retry now =>
    exact .inl ⟨⟨rfl, rfl, rfl, rfl⟩, rfl, rfl, rfl, rfl⟩
  | atomic p =>
    left
    rw [after, accessAtomic]
    split
    · exact .refl c
    · cases p.kind with
      | read => exact .refl c
      | write =>
        exact ⟨⟨rfl, rfl, rfl, rfl⟩, rfl, rfl, rfl, rfl⟩

end Rounds

/-- A burst that the controller can serve: it is aligned and in the range, and its place is the one
that the decoder gives, on a channel that there is. -/
structure Placed (c : Controller μ) (b : Burst) : Prop where
  aligned : c.decoder.geometry.burstSize ∣ b.offset
  inside : c.range.contains (c.range.base + b.offset) = true
  /-- A range of whole bursts holds all of the burst. -/
  whole : c.decoder.geometry.burstSize ∣ c.range.size →
    b.offset + c.decoder.geometry.burstSize ≤ c.range.size
  decoded : b.coordinate = c.decoder.decode b.offset
  channel : b.coordinate.channel < c.media.length

theorem Placed.alike (h : c.Placed b) (same : c.SameSite c') : c'.Placed b where
  aligned := by
    rw [same.decoder]
    exact h.aligned
  inside := by
    rw [same.range]
    exact h.inside
  whole := by
    rw [same.decoder, same.range]
    exact h.whole
  decoded := by
    rw [same.decoder]
    exact h.decoded
  channel := by
    rw [same.channels]
    exact h.channel

theorem placed_burstAt (served : c.range.containsAccess p.addr p.size = true)
    (channels : c.media.length = c.decoder.geometry.channels) (some : c.media ≠ [])
    {burst : Nat} (mem : burst ∈ c.burstsOf p) (kind : AccessKind) (now : Tick) :
    c.Placed (c.burstAt p kind now burst) := by
  obtain ⟨low, -, high⟩ := AddressRange.containsAccess_iff.1 served
  have aligned := AddressDecoder.dvd_of_mem_burstsOf mem
  have start : c.range.base + burst < c.range.stop := by
    have le := AddressDecoder.le_of_mem_burstsOf mem
    rw [AddressRange.offsetOf] at le
    omega
  have inside : burst < c.range.size := by
    rw [AddressRange.stop] at start
    omega
  refine ⟨aligned, AddressRange.contains_iff.2 ⟨Nat.le_add_right .., start⟩, fun whole => ?_, rfl,
    ?_⟩
  · have rest := Nat.le_of_dvd (Nat.sub_pos_of_lt inside) (Nat.dvd_sub whole aligned)
    exact Nat.add_comm _ burst ▸ Nat.add_le_of_le_sub (Nat.le_of_lt inside) rest
  · have positive := List.length_pos_iff.2 some
    rw [channels] at positive ⊢
    exact AddressDecoder.channel_decode_lt positive burst

/-- The queued bursts: each where it belongs, and no two writes of one burst. -/
structure Sited (c : Controller μ) : Prop where
  apart : (c.writeQueue.map (·.offset)).Nodup
  placed : ∀ d, ∀ b ∈ c.queue d, c.Placed b
  channels : c.media.length = c.decoder.geometry.channels

def Limited (c : Controller μ) (now : Tick) : Prop :=
  ∀ d tick, now ≤ tick → c.outstanding d tick ≤ c.config.pendingLimit d

theorem Enters.queue_of_ne {d e : BusDirection} (h : c.Enters now p d c') (apart : e ≠ d) :
    c'.queue e = c.queue e := by
  rw [BusDirection.eq_other apart]
  exact h.other

theorem Departs.rest_of_ne {e : BusDirection} (h : c.Departs pick c')
    (apart : e ≠ pick.direction) : c'.queue e = c.queue e ∧ c'.inFlight e = c.inFlight e := by
  rw [BusDirection.eq_other apart]
  exact ⟨h.other, h.others⟩

namespace Sited

theorem create {m : Machine} {name : String} {range : AddressRange} {config : ControllerConfig}
    {geometry : Geometry} {media : List μ} {store : Store}
    (made : create m name range config geometry media store = .ok c) : c.Sited := by
  obtain ⟨channels, -, -, rfl⟩ := create_eq_ok made
  refine ⟨List.nodup_nil, fun d b mem => ?_, channels⟩
  cases d <;> cases mem

theorem alike (h : c.Sited) (same : c.SameBooks c') : c'.Sited where
  apart := by
    rw [same.writes]
    exact h.apart
  placed d b mem := by
    rw [same.queue] at mem
    exact (h.placed d b mem).alike same.toSameSite
  channels := by
    rw [same.channels, same.decoder]
    exact h.channels

theorem enter {d : BusDirection} (h : c.Sited) (orderly : c.Orderly)
    (enters : c.Enters now p d c') : c'.Sited where
  apart := by
    cases d with
    | read =>
      have writes : c'.writeQueue = c.writeQueue := enters.other
      rw [writes]
      exact h.apart
    | write =>
      have writes : c'.writeQueue = c.writeQueue ++ _ := enters.joined
      rw [writes, List.map_append, List.map_map,
        show (·.offset) ∘ c.burstAt p BusDirection.write.kind now = id from rfl, List.map_id]
      refine List.nodup_append'.2 ⟨h.apart, (c.decoder.nodup_burstsOf _ _).filter _, ?_⟩
      intro offset queued fresh
      have absent := (List.mem_filter.1 fresh).2
      have present := orderly.indexed.mem_iff.2 queued
      simp [List.contains_eq_mem, present] at absent
  placed e b mem := by
    have some : c.media ≠ [] := by
      intro none
      exact AddressRange.size_ne_zero (AddressRange.contains_of_containsAccess enters.served)
        (orderly.uninhabited none)
    refine Placed.alike ?_ enters.site
    by_cases same : e = d
    · rw [same, enters.joined] at mem
      rcases List.mem_append.1 mem with old | new
      · exact h.placed d b old
      · obtain ⟨burst, touched, rfl⟩ := List.mem_map.1 new
        exact placed_burstAt enters.served h.channels some (List.mem_filter.1 touched).1 d.kind now
    · rw [enters.queue_of_ne same] at mem
      exact h.placed e b mem
  channels := by
    rw [enters.site.channels, enters.site.decoder]
    exact h.channels

theorem depart (h : c.Sited) (departs : c.Departs pick c') : c'.Sited where
  apart := by
    by_cases same : pick.direction = .write
    · have found := departs.found
      have left := departs.left
      rw [same] at found left
      have writes : c'.writeQueue = passOver c.writeQueue pick.place := left
      have split := (passOver_perm (·.offset) (fun _ => rfl) found).nodup_iff.1 h.apart
      rw [writes]
      exact (List.nodup_cons.1 split).2
    · have writes : c'.writeQueue = c.writeQueue := (departs.rest_of_ne (Ne.symm same)).1
      rw [writes]
      exact h.apart
  placed e b mem := by
    refine Placed.alike ?_ departs.site
    by_cases same : e = pick.direction
    · rw [same, departs.left] at mem
      obtain ⟨old, queued, rfl⟩ := List.mem_map.1 mem
      -- How long a burst has waited has nothing to do with its place.
      obtain ⟨aligned, inside, whole, decoded, channel⟩ :=
        h.placed pick.direction old (List.mem_of_mem_eraseIdx queued)
      exact ⟨aligned, inside, whole, decoded, channel⟩
    · rw [(departs.rest_of_ne same).1] at mem
      exact h.placed e b mem
  channels := by
    rw [departs.site.channels, departs.site.decoder]
    exact h.channels

theorem prune (h : c.Sited) (now : Tick) : (c.prune now).Sited where
  apart := h.apart
  placed d b mem := by
    refine Placed.alike (h.placed d b ?_) ⟨rfl, rfl, rfl, rfl⟩
    cases d <;> exact mem
  channels := h.channels

end Sited

namespace Limited

theorem create {m : Machine} {name : String} {range : AddressRange} {config : ControllerConfig}
    {geometry : Geometry} {media : List μ} {store : Store}
    (made : create m name range config geometry media store = .ok c) : c.Limited 0 := by
  obtain ⟨-, -, -, rfl⟩ := create_eq_ok made
  intro d tick _
  cases d <;> exact Nat.zero_le _

theorem alike (h : c.Limited now) (same : c.SameBooks c') : c'.Limited now := by
  intro d tick le
  rw [outstanding, same.queue, same.inFlight, same.config]
  exact h d tick le

theorem prune (h : c.Limited now) (le : now ≤ tick) : (c.prune tick).Limited tick := by
  intro d t after
  have filtered : countAfter ((c.prune tick).inFlight d) t = countAfter (c.inFlight d) t := by
    cases d <;> exact countAfter_filter after
  have queue : (c.prune tick).queue d = c.queue d := by
    cases d <;> rfl
  rw [outstanding, filtered, queue]
  exact h d t (Nat.le_trans le after)

theorem enter {d : BusDirection} (h : c.Limited now) (enters : c.Enters now p d c') :
    c'.Limited now := by
  intro e tick le
  have old := h e tick le
  rw [outstanding] at old ⊢
  rw [enters.inFlight, enters.site.config]
  by_cases same : e = d
  · have room := enters.room
    have flown := countAfter_later (c.inFlight d) le
    rw [outstanding] at room
    rw [same, enters.joined, List.length_append, List.length_map]
    omega
  · rwa [enters.queue_of_ne same]

theorem depart (h : c.Limited now) (departs : c.Departs pick c') : c'.Limited now := by
  intro e tick le
  have old := h e tick le
  rw [outstanding] at old ⊢
  rw [departs.site.config]
  by_cases same : e = pick.direction
  · subst same
    obtain ⟨ready, flown⟩ := departs.flown
    have length := (passOver_perm (fun _ => ()) (fun _ => rfl) departs.found).length_eq
    have more := countAfter_cons_le ready (c.inFlight pick.direction) tick
    simp only [List.length_map, List.length_cons] at length
    rw [departs.left, flown]
    omega
  · obtain ⟨queue, inFlight⟩ := departs.rest_of_ne same
    rwa [queue, inFlight]

end Limited

theorem Reachable.sited [MediaChannel μ] (h : c.Reachable) : c.Sited := by
  induction h with
  | created made => exact .create made
  | called reached call ih =>
    rcases after_books reached.orderly call with same | ⟨now, -, same | ⟨p, d, enters⟩ |
      ⟨pick, departs⟩⟩
    · exact ih.alike same
    · exact (ih.prune now).alike same
    · exact (ih.prune now).enter (reached.orderly.prune now) enters
    · exact (ih.prune now).depart departs

end Controller

end Expander
