import Mathlib.Data.List.Forall2
import Expander.Proofs.Relay

/-!
Bridge and device as buffers that keep the order.

A transit is a relay with what has become of the packets of each way: those that it accepted, the
one that was taken and is neither sent nor refused yet, and those that were sent. While the calls
keep to the port protocol, the packets of a way stand in the order in which they were accepted:
first those that were sent, then the one that is held, then those in the queue. Each of them carries
the tick from which it may leave, or a later one that has passed (`Lane.Kept`). So a call that takes
gets the oldest packet as soon as that may leave, unless the packet waits for a retry. A refused
packet goes back in front without a look at the capacity; it fits because nothing joins the queue
while a packet is held.
-/

set_option autoImplicit false

namespace Expander

/-- A packet, and the tick at which something happened to it. -/
structure Stamped where
  tick : Tick
  packet : Packet
deriving DecidableEq, Repr

def Waiting.stamped (w : Waiting) : Stamped := ⟨w.ready, w.packet⟩

/-- What a call on a port is for. -/
inductive PortAct where
  | offer (packet : Packet)
  | take
  /-- The packet that was taken is accepted by the other peer. -/
  | sent
  /-- The packet that was taken is handed back. -/
  | refused (packet : Packet)
  | retry
deriving DecidableEq, Repr

structure PortCall where
  way : Way
  now : Tick
  act : PortAct
deriving DecidableEq, Repr

/-- What has become of the packets of one way. -/
structure Lane where
  /-- The packets that were accepted, as they were offered, and when. -/
  accepted : List Stamped := []
  /-- The packet that was taken and is neither sent nor refused yet, and when it was taken. -/
  held : Option Stamped := none
  /-- The packets that were sent, and when they were taken. -/
  sent : List Stamped := []
  /-- Whether the packet that was refused last waits for a retry. -/
  blocked : Bool := false
deriving DecidableEq, Repr

/-- The oldest packet that was accepted and is not sent. -/
def Lane.oldest (lane : Lane) : Option Stamped := (lane.accepted.drop lane.sent.length).head?

/-- A packet that was taken is sent or refused before anything else happens in its way. -/
def Lane.Allows (lane : Lane) : PortAct → Prop
  | .offer _ | .take | .retry => lane.held = none
  | .sent => lane.held ≠ none
  | .refused p => lane.held.map (·.packet) = some p

instance (lane : Lane) : (act : PortAct) → Decidable (lane.Allows act)
  | .offer _ | .take | .retry => inferInstanceAs (Decidable (lane.held = none))
  | .sent => inferInstanceAs (Decidable (lane.held ≠ none))
  | .refused p => inferInstanceAs (Decidable (lane.held.map (·.packet) = some p))

/-- A relay, and what has become of its packets. -/
structure Transit (σ : Type) where
  relay : σ
  now : Tick := 0
  lane : Way → Lane := fun _ => {}

namespace Transit

variable {σ : Type}

/-- The port protocol: time does not go back, and what was taken is reported first. -/
def Proper (t : Transit σ) (call : PortCall) : Prop :=
  t.now ≤ call.now ∧ (t.lane call.way).Allows call.act

instance (t : Transit σ) (call : PortCall) : Decidable (t.Proper call) :=
  inferInstanceAs (Decidable (_ ∧ _))

def start (relay : σ) : Transit σ := { relay }

variable [Relay σ]

def turn (t : Transit σ) (call : PortCall) : σ × Lane :=
  let lane := t.lane call.way
  match call.act with
  | .offer p =>
    let reply := Relay.offer t.relay call.way call.now p
    (reply.stage, if reply.answer = .accepted then
      { lane with accepted := lane.accepted ++ [⟨call.now, p⟩] } else lane)
  | .take =>
    match Relay.take t.relay call.way call.now with
    | none => (t.relay, lane)
    | some (p, relay) => (relay, { lane with held := some ⟨call.now, p⟩ })
  | .sent =>
    (Relay.sent t.relay call.way call.now,
      { lane with held := none, sent := lane.sent ++ lane.held.toList })
  | .refused p =>
    (Relay.refused t.relay call.way call.now p, { lane with held := none, blocked := true })
  | .retry => (Relay.retry t.relay call.way call.now, { lane with blocked := false })

def after (t : Transit σ) (call : PortCall) : Transit σ where
  relay := (t.turn call).1
  now := call.now
  lane := Function.update t.lane call.way (t.turn call).2

def run (t : Transit σ) (calls : List PortCall) : Transit σ := calls.foldl after t

/-- What a call at `now` that takes would get. -/
def takes (t : Transit σ) (way : Way) (now : Tick) : Option Packet :=
  (Relay.take t.relay way now).map (·.1)

def Keeps (rule : Transit σ → PortCall → Prop) : Transit σ → List PortCall → Prop
  | _, [] => True
  | t, call :: calls => rule t call ∧ (t.after call).Keeps rule calls

instance (rule : Transit σ → PortCall → Prop) [∀ t call, Decidable (rule t call)] :
    (t : Transit σ) → (calls : List PortCall) → Decidable (t.Keeps rule calls)
  | _, [] => inferInstanceAs (Decidable True)
  | t, call :: calls =>
    have := instDecidableKeeps rule (t.after call) calls
    inferInstanceAs (Decidable (_ ∧ _))

theorem Keeps.run {rule : Transit σ → PortCall → Prop} {P : Transit σ → Prop}
    (step : ∀ t call, P t → rule t call → P (t.after call)) {calls : List PortCall} :
    ∀ {t : Transit σ}, P t → t.Keeps rule calls → P (t.run calls) := by
  induction calls with
  | nil => exact fun holds _ => holds
  | cons call calls ih => exact fun holds keeps => ih (step _ _ holds keeps.1) keeps.2

end Transit

/-- The tick from which an accepted packet may leave: its transport and the delay of the stage are
over. -/
def Passage.due (passage : Passage) (offered : Stamped) : Tick :=
  offered.tick + offered.packet.headerDelay + passage.delay offered.packet.addr

/-- How a packet comes out of a passage, and when: once it may, or at a tick that has passed. -/
structure Passage.Follows (passage : Passage) (now : Tick) (offered left : Stamped) : Prop where
  packet : left.packet = passage.mark offered.packet
  due_le : passage.due offered ≤ left.tick
  le : left.tick ≤ max (passage.due offered) now

section

variable {passage : Passage} {now next : Tick} {offered left : Stamped}

theorem Passage.Follows.later (follows : passage.Follows now offered left) (le : now ≤ next) :
    passage.Follows next offered left :=
  ⟨follows.packet, follows.due_le, follows.le.trans (max_le (le_max_left _ _)
    (le.trans (le_max_right _ _)))⟩

theorem Passage.Follows.moved (follows : passage.Follows now offered left) (le : left.tick ≤ now) :
    passage.Follows now offered ⟨now, left.packet⟩ :=
  ⟨follows.packet, follows.due_le.trans le, le_max_right _ _⟩

theorem Passage.Follows.tick_le_iff (follows : passage.Follows now offered left) (le : now ≤ next) :
    left.tick ≤ next ↔ passage.due offered ≤ next :=
  ⟨follows.due_le.trans, fun due => follows.le.trans (max_le due le)⟩

end

theorem forall₂_replace {α β : Type} {R : α → β → Prop} {old : β} (new : β)
    (replace : ∀ a, R a old → R a new) {front back : List β} : ∀ {l : List α},
      List.Forall₂ R l (front ++ old :: back) → List.Forall₂ R l (front ++ new :: back) := by
  induction front with
  | nil =>
    intro l related
    cases related with
    | cons first rest => exact .cons (replace _ first) rest
  | cons b front ih =>
    intro l related
    cases related with
    | cons first rest => exact .cons first (ih rest)

namespace Lane

def line (lane : Lane) (queue : PacketQueue) : List Stamped :=
  lane.sent ++ lane.held.toList ++ queue.entries.map Waiting.stamped

/-- Nothing is lost or overtaken, nothing is early or late, and there is room for what is held. -/
structure Kept (passage : Passage) (now : Tick) (queue : PacketQueue) (lane : Lane) : Prop where
  capacity : queue.capacity = some passage.depth
  room : lane.held.toList.length + queue.size ≤ passage.depth
  taken : ∀ d ∈ lane.held, d.tick ≤ now
  follows : List.Forall₂ (passage.Follows now) lane.accepted (lane.line queue)

namespace Kept

variable {passage : Passage} {now next : Tick} {queue q : PacketQueue} {lane : Lane} {p : Packet}

theorem empty (passage : Passage) (now : Tick) : Kept passage now (.empty passage.depth) {} :=
  ⟨rfl, Nat.zero_le _, nofun, .nil⟩

theorem later (h : lane.Kept passage now queue) (le : now ≤ next) :
    lane.Kept passage next queue :=
  ⟨h.capacity, h.room, fun d mem => (h.taken d mem).trans le,
    h.follows.imp fun _ _ follows => follows.later le⟩

theorem accept (h : lane.Kept passage now queue) (free : lane.held = none)
    (pushed : queue.push? (passage.mark p) (now + p.headerDelay + passage.delay p.addr) = some q) :
    Kept passage now q { lane with accepted := lane.accepted ++ [⟨now, p⟩] } := by
  obtain ⟨notFull, rfl⟩ := PacketQueue.push?_eq_some pushed
  have below : queue.entries.length < passage.depth := by
    simpa [PacketQueue.isFull, h.capacity] using notFull
  refine ⟨h.capacity, ?_, h.taken, ?_⟩
  · simpa [free, PacketQueue.size] using Nat.succ_le_of_lt below
  · have joined : lane.line { queue with entries := queue.entries ++
        [⟨passage.mark p, now + p.headerDelay + passage.delay p.addr⟩] } = lane.line queue ++
          [⟨now + p.headerDelay + passage.delay p.addr, passage.mark p⟩] := by
      simp [line, Waiting.stamped]
    exact joined ▸ List.rel_append h.follows (.cons ⟨rfl, Nat.le_refl _, le_max_left _ _⟩ .nil)

theorem take (h : lane.Kept passage now queue) (free : lane.held = none)
    (popped : queue.popReady? now = some (p, q)) :
    Kept passage now q { lane with held := some ⟨now, p⟩ } := by
  obtain ⟨tick, ready, entries, capacity⟩ := PacketQueue.popReady?_eq_some popped
  have follows := h.follows
  have room := h.room
  simp only [line, free, entries, Option.toList_none, List.append_nil, List.map_cons] at follows
  simp only [free, PacketQueue.size, entries, List.length_cons] at room
  refine ⟨capacity.trans h.capacity, ?_, ?_, ?_⟩
  · simp only [Option.toList_some, List.length_singleton, PacketQueue.size]
    simpa [Nat.add_comm] using room
  · simp
  · -- The head leaves its place in the queue, and keeps its place in the line.
    have replaced := forall₂_replace ⟨now, p⟩ (fun a old => old.moved ready) follows
    simpa [line] using replaced

theorem send (h : lane.Kept passage now queue) :
    Kept passage now queue { lane with held := none, sent := lane.sent ++ lane.held.toList } := by
  refine ⟨h.capacity, ?_, nofun, ?_⟩
  · exact (Nat.add_le_add_right (Nat.zero_le _) _).trans h.room
  · simpa [line] using h.follows

theorem refuse (h : lane.Kept passage now queue) (held : lane.held.map (·.packet) = some p) :
    Kept passage now (queue.pushFront p now) { lane with held := none, blocked := true } := by
  obtain ⟨d, taken, rfl⟩ := Option.map_eq_some_iff.1 held
  have follows := h.follows
  have room := h.room
  simp only [line, taken, Option.toList_some, List.append_assoc, List.singleton_append] at follows
  simp only [taken, Option.toList_some, List.length_singleton] at room
  refine ⟨h.capacity, ?_, nofun, ?_⟩
  · simpa [PacketQueue.size, PacketQueue.pushFront, Nat.add_comm] using room
  · have replaced := forall₂_replace ⟨now, d.packet⟩
      (fun a old => old.moved (h.taken d taken)) follows
    simpa [line, PacketQueue.pushFront, Waiting.stamped] using replaced

theorem retry (h : lane.Kept passage now queue) :
    Kept passage now queue { lane with blocked := false } :=
  ⟨h.capacity, h.room, h.taken, h.follows⟩

theorem head (h : lane.Kept passage now queue) (free : lane.held = none) :
    (queue.entries = [] ∧ lane.oldest = none) ∨ ∃ w rest offered, queue.entries = w :: rest ∧
      lane.oldest = some offered ∧ passage.Follows now offered w.stamped := by
  have follows := h.follows
  rw [line, free, Option.toList_none, List.append_nil] at follows
  have waiting := List.forall₂_drop_append _ _ _ follows
  rw [oldest]
  cases entries : queue.entries with
  | nil =>
    rw [entries] at waiting
    rw [List.forall₂_nil_right_iff.1 waiting]
    exact .inl ⟨rfl, rfl⟩
  | cons w rest =>
    rw [entries, List.map_cons] at waiting
    obtain ⟨offered, others, follows, -, eq⟩ := List.forall₂_cons_right_iff.1 waiting
    rw [eq]
    exact .inr ⟨w, rest, offered, rfl, rfl, follows⟩

theorem popReady?_iff (h : lane.Kept passage now queue) (free : lane.held = none)
    (le : now ≤ next) : (∃ q, queue.popReady? next = some (p, q)) ↔
      ∃ offered ∈ lane.oldest, passage.mark offered.packet = p ∧ passage.due offered ≤ next := by
  rw [PacketQueue.popReady?]
  rcases h.head free with ⟨entries, oldest⟩ | ⟨w, rest, offered, entries, oldest, follows⟩
  · simp [entries, oldest]
  · have ready : w.ready ≤ next ↔ passage.due offered ≤ next := follows.tick_le_iff le
    have packet : w.packet = passage.mark offered.packet := follows.packet
    simp only [entries, oldest, ready, packet, Option.mem_some_iff, exists_eq_left']
    split <;> simp [*]

end Kept

/-- What a buffer makes of the packets of one way until `now`; `takes` is what a call that takes
would get. -/
structure Buffered (passage : Passage) (now : Tick) (queue : PacketQueue)
    (takes : Tick → Option Packet) (lane : Lane) : Prop where
  /-- The packets that were sent are those that were accepted first, in that order. -/
  sent : lane.sent.map (·.packet) <+: lane.accepted.map fun a => passage.mark a.packet
  /-- What was accepted and not sent is held or waits, in that order. -/
  kept : lane.accepted.map (fun a => passage.mark a.packet) = lane.sent.map (·.packet) ++
    lane.held.toList.map (·.packet) ++ queue.entries.map (·.packet)
  /-- No packet leaves before its transport and the delay of the stage are over. -/
  timely : ∀ (i : Nat) (a d : Stamped), lane.accepted[i]? = some a → lane.sent[i]? = some d →
    passage.due a ≤ d.tick
  /-- A call that takes gets the oldest packet once that may leave, unless a retry is due first. -/
  leaves : lane.held = none → ∀ next, now ≤ next → ∀ p, takes next = some p ↔
    lane.blocked = false ∧
      ∃ a ∈ lane.oldest, passage.mark a.packet = p ∧ passage.due a ≤ next
  /-- A packet leaves as it came, but for its message class and the transport that it is charged
  for. -/
  unaltered : ∀ p, passage.mark p = { p with link := (passage.mark p).link, headerDelay := 0 }
  /-- There is room for all that wait, and for the one that is held, should it come back. -/
  bounded : lane.held.toList.length + queue.size ≤ passage.depth

theorem Kept.buffered {passage : Passage} {now : Tick} {queue : PacketQueue} {lane : Lane}
    {takes : Tick → Option Packet} (h : lane.Kept passage now queue)
    (takes_iff : ∀ next p, takes next = some p ↔
      lane.blocked = false ∧ ∃ q, queue.popReady? next = some (p, q))
    (unaltered : ∀ p, passage.mark p =
      { p with link := (passage.mark p).link, headerDelay := 0 }) :
    lane.Buffered passage now queue takes := by
  have packets : lane.accepted.map (fun a => passage.mark a.packet) =
      (lane.line queue).map (·.packet) := by
    rw [← List.forall₂_eq_eq_eq, List.forall₂_map_left_iff, List.forall₂_map_right_iff]
    exact h.follows.imp fun a d follows => follows.packet.symm
  have kept : lane.accepted.map (fun a => passage.mark a.packet) = lane.sent.map (·.packet) ++
      lane.held.toList.map (·.packet) ++ queue.entries.map (·.packet) := by
    rw [packets, line, List.map_append, List.map_append, List.map_map]
    rfl
  refine ⟨?_, kept, ?_, ?_, unaltered, h.room⟩
  · rw [kept, List.append_assoc]
    exact List.prefix_append _ _
  · intro i a d accepted sent
    obtain ⟨low, rfl⟩ := List.getElem?_eq_some_iff.1 accepted
    obtain ⟨low', rfl⟩ := List.getElem?_eq_some_iff.1 sent
    have place : i < (lane.line queue).length := by
      rw [line, List.append_assoc, List.length_append]
      exact Nat.lt_add_right _ low'
    have follows := (List.forall₂_iff_get.1 h.follows).2 i low place
    simp only [List.get_eq_getElem, line, List.append_assoc,
      List.getElem_append_left low'] at follows
    exact follows.due_le
  · intro free next le p
    rw [takes_iff, h.popReady?_iff free le]

end Lane

namespace Transit

variable {σ : Type} [Relay σ] {t : Transit σ} {passage : Way → Passage} {call : PortCall}

/-- Both ways are kept. -/
structure Kept (passage : Way → Passage) (t : Transit σ) : Prop where
  settings : Relay.passage t.relay = passage
  waits : ∀ way, Relay.waits t.relay way = (t.lane way).blocked
  lanes : ∀ way, (t.lane way).Kept (passage way) t.now (Relay.queue t.relay way)

theorem kept_start {s : σ}
    (fresh : ∀ way, Relay.queue s way = .empty (Relay.passage s way).depth)
    (free : ∀ way, Relay.waits s way = false) : (start s).Kept (Relay.passage s) := by
  refine ⟨rfl, free, fun way => ?_⟩
  rw [start, fresh way]
  exact .empty _ _

variable [LawfulRelay σ]

theorem Kept.turn (h : t.Kept passage) (proper : t.Proper call) :
    ∃ q, Relay.Turns t.relay call.way q (t.turn call).2.blocked (t.turn call).1 ∧
      (t.turn call).2.Kept (passage call.way) call.now q := by
  obtain ⟨way, now, act⟩ := call
  obtain ⟨later, allowed⟩ := proper
  obtain ⟨rfl, waits, lanes⟩ := h
  have lane := (lanes way).later later
  cases act with
  | offer p =>
    simp only [Transit.turn]
    rcases LawfulRelay.offer_cases t.relay way now p with ⟨declined, turns⟩ |
      ⟨accepted, q, pushed, turns⟩
    · rw [if_neg declined]
      exact ⟨_, waits way ▸ turns, lane⟩
    · rw [if_pos accepted]
      exact ⟨q, waits way ▸ turns, lane.accept allowed pushed⟩
  | take =>
    simp only [Transit.turn]
    split
    next => exact ⟨_, waits way ▸ .of_waits rfl (fun _ _ => rfl) rfl rfl, lane⟩
    next p relay taken =>
      obtain ⟨q, popped, turns⟩ := LawfulRelay.take_some taken
      exact ⟨q, waits way ▸ turns, lane.take allowed popped⟩
  | sent => exact ⟨_, waits way ▸ LawfulRelay.sent_idle t.relay way now, lane.send⟩
  | refused p => exact ⟨_, LawfulRelay.refused_front t.relay way now p, lane.refuse allowed⟩
  | retry => exact ⟨_, LawfulRelay.retry_idle t.relay way now, lane.retry⟩

theorem Kept.after (h : t.Kept passage) (proper : t.Proper call) :
    (t.after call).Kept passage := by
  obtain ⟨q, turns, lane⟩ := h.turn proper
  refine ⟨turns.passage.trans h.settings, fun way => ?_, fun way => ?_⟩ <;>
    by_cases own : way = call.way
  · subst own
    simp only [Transit.after, Function.update_self, turns.waits]
  · simp only [Transit.after, Function.update_of_ne own, turns.waits, h.waits]
  · subst own
    simp only [Transit.after, Function.update_self, turns.own]
    exact lane
  · simp only [Transit.after, Function.update_of_ne own, turns.other way own]
    exact (h.lanes way).later proper.1

theorem Kept.takes_iff (h : t.Kept passage) (way : Way) (next : Tick) (p : Packet) :
    t.takes way next = some p ↔ (t.lane way).blocked = false ∧
      ∃ q, (Relay.queue t.relay way).popReady? next = some (p, q) := by
  rw [← h.waits, ← LawfulRelay.take_eq_some, takes, Option.map_eq_some_iff, Prod.exists]
  exact ⟨fun ⟨_, s, took, eq⟩ => ⟨s, eq ▸ took⟩, fun ⟨s, took⟩ => ⟨p, s, took, rfl⟩⟩

theorem Keeps.buffered {s : σ} {calls : List PortCall}
    (fresh : ∀ way, Relay.queue s way = .empty (Relay.passage s way).depth)
    (free : ∀ way, Relay.waits s way = false) (keeps : (start s).Keeps Proper calls) (way : Way) :
    (((start s).run calls).lane way).Buffered (Relay.passage s way) ((start s).run calls).now
      (Relay.queue ((start s).run calls).relay way) (((start s).run calls).takes way) := by
  have kept := keeps.run (fun _ _ => Kept.after) (kept_start fresh free)
  exact (kept.lanes way).buffered (kept.takes_iff way) (LawfulRelay.unaltered s way)

/-- Bridge and device are buffers in both ways, as long as the calls keep to the port protocol: what
was accepted leaves in that order, unaltered, not too early and, when it is asked for, not too late,
and no queue outgrows its depth. -/
theorem buffered_of_proper (calls : List PortCall) :
    (∀ name config expander,
      (start (Bridge.create name config expander)).Keeps Proper calls → ∀ way,
        let t := (start (Bridge.create name config expander)).run calls
        (t.lane way).Buffered ((Bridge.create name config expander).passage way) t.now
          (t.relay.queue way) (t.takes way)) ∧
    (∀ name config storeSize,
      (start (Device.create name config storeSize)).Keeps Proper calls → ∀ way,
        let t := (start (Device.create name config storeSize)).run calls
        (t.lane way).Buffered ((Device.create name config storeSize).passage way) t.now
          (t.relay.queue way) (t.takes way)) := by
  constructor
  · intro name config expander keeps way
    exact keeps.buffered (fun way => by cases way <;> rfl) (fun way => by cases way <;> rfl) way
  · intro name config storeSize keeps way
    exact keeps.buffered (fun way => by cases way <;> rfl) (fun way => by cases way <;> rfl) way

/-- A packet with transport to be charged for passes one way: it is asked for early, refused, and
taken again after the retry. -/
def detour (way : Way) (start : Tick) (p : Packet) : List PortCall :=
  [⟨way, start, .offer { p with headerDelay := 7 }⟩, ⟨way, start + 100, .take⟩,
    ⟨way, start + 100000, .take⟩, ⟨way, start + 100000, .refused p⟩, ⟨way, start + 100000, .take⟩,
    ⟨way, start + 200000, .retry⟩, ⟨way, start + 200000, .take⟩, ⟨way, start + 200000, .sent⟩]

def detours : List PortCall :=
  let read := { Packet.read 0 0 4 0 with link := some .m2sReq }
  detour .request 0 read ++ detour .response 300000 { read.respond [1, 2, 3, 4] with
    link := some .s2mDRS }

/-- The detours lead through a bridge and through a device. -/
theorem buffered_detours :
    let bridge := Bridge.create "bridge" { requestDepth := 1, ranges := [⟨0, 4096⟩] } ⟨0, 4096⟩
    let device := Device.create "device" ⟨15 * nanosecond, 1, 1, ⟨0, 4096⟩, {}⟩ 4096
    ((start bridge).Keeps Proper detours ∧
      ∀ way, (((start bridge).run detours).lane way).sent.length = 1 ∧
        (((start bridge).run detours).lane way).Buffered (bridge.passage way) 500000
          (((start bridge).run detours).relay.queue way)
          (((start bridge).run detours).takes way)) ∧
    ((start device).Keeps Proper detours ∧
      ∀ way, (((start device).run detours).lane way).sent.length = 1 ∧
        (((start device).run detours).lane way).Buffered (device.passage way) 500000
          (((start device).run detours).relay.queue way)
          (((start device).run detours).takes way)) := by
  intro bridge device
  have bridgeKeeps : (start bridge).Keeps Proper detours := by decide
  have deviceKeeps : (start device).Keeps Proper detours := by decide
  refine ⟨⟨bridgeKeeps, fun way => ⟨?_, (buffered_of_proper _).1 _ _ _ bridgeKeeps way⟩⟩,
    ⟨deviceKeeps, fun way => ⟨?_, (buffered_of_proper _).2 _ _ _ deviceKeeps way⟩⟩⟩ <;>
    cases way <;> decide

end Transit

end Expander
