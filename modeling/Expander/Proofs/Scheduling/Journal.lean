import Expander.Proofs.Scheduling.Desk

/-!
The journal of a controller: the packets that it has accepted, the bursts that it has issued and the
responses that it has handed over.

A packet that needs bursts from the media is an entry of the pending reads as long as one of them is
queued. The bursts it needs are those that were issued and those that are queued, and its entry has
the tick at which the last of the issued ones was served (`Booked`).
-/

set_option autoImplicit false

namespace Expander.Controller

variable {μ : Type} {c c' : Controller μ} {now : Tick} {p : Packet} {id : TransactionId}

def unqueuedBursts (c : Controller μ) (p : Packet) : List Nat :=
  (c.burstsOf p).filter fun offset => !(c.writeQueue.map (·.offset)).contains offset

theorem freshBurstsOf_eq (h : c.Orderly) (p : Packet) : c.freshBurstsOf p = c.unqueuedBursts p := by
  rw [freshBurstsOf, unqueuedBursts]
  refine List.filter_congr fun offset _ => ?_
  have same : offset ∈ c.queuedWrites ↔ offset ∈ c.writeQueue.map (·.offset) := h.indexed.mem_iff
  rw [Bool.eq_iff_iff]
  simp only [Bool.not_eq_true', List.contains_eq_mem, decide_eq_false_iff_not, same]

/-- A packet that was accepted. -/
structure Admission where
  tick : Tick
  packet : Packet
  answer : Packet
  /-- The offsets of the bursts that the packet needs from the media: those of a read for which no
  write was queued. -/
  needs : List Nat
deriving DecidableEq, Repr

/-- The entry of a packet among the pending reads: the bursts that are left, and the tick at which
the last of those before them was served. -/
def Admission.entry (a : Admission) (left : Nat) (last : Tick) : PendingRead where
  packet := a.answer
  burstsLeft := left
  ready := max a.tick last
  headerDelay := a.packet.headerDelay

/-- What the calls of a controller have come to. -/
structure Journal (μ : Type) where
  controller : Controller μ
  now : Tick := 0
  admitted : List Admission := []
  issued : List ServedBurst := []
  /-- The response that was taken and is neither accepted nor refused yet. -/
  held : Option ReadyResponse := none
  sent : List ReadyResponse := []
  /-- The responses that were taken, and when. One that was refused is taken again. -/
  taken : List (Tick × ReadyResponse) := []
  /-- Whether the response that was refused last waits for a retry. -/
  blocked : Bool := false

def Call.tick? : Call → Option Tick
  | .offer now _ | .process now | .take now | .sent now | .refused now _ | .retry now => some now
  | .atomic _ => none

def admits (c : Controller μ) : Call → Option Admission
  | .offer now p =>
    if (c.recvRequest now p).answer = .accepted then
      some ⟨now, p, c.answerTo p, if p.kind = .read then c.unqueuedBursts p else []⟩
    else none
  | .process _ | .take _ | .sent _ | .refused .. | .retry _ | .atomic _ => none

/-- The response that a call takes, with its place among the responses. -/
def takes (c : Controller μ) : Call → Option ReadyResponse
  | .take now =>
    (c.takeResponse now).bind fun taken =>
      taken.2.lastTaken.map fun place => ⟨place.1, place.2, taken.1⟩
  | .offer .. | .process _ | .sent _ | .refused .. | .retry _ | .atomic _ => none

theorem takes_eq_some {r : ReadyResponse} : c.takes (.take now) = some r ↔
    c.awaitingResponseRetry = false ∧
      (∃ rest, c.responses.pop? ReadyResponse.before = some (r, rest)) ∧ r.ready ≤ now := by
  rw [takes, takeResponse]
  split
  next waits => simp [waits]
  next free =>
    cases popped : c.responses.pop? ReadyResponse.before with
    | none => simp
    | some pair =>
      obtain ⟨next, rest⟩ := pair
      have free : c.awaitingResponseRetry = false := by simpa using free
      by_cases ready : next.ready ≤ now
      · simp only [ready, if_true, Option.bind_some, Option.map_some, Option.some.injEq, free,
          Prod.mk.injEq, exists_and_left, exists_eq', and_true, true_and]
        exact ⟨fun same => same ▸ ⟨rfl, ready⟩, fun same => same.1⟩
      · simp only [ready, if_false, Option.bind_none, reduceCtorEq, free, Option.some.injEq,
          Prod.mk.injEq, exists_and_left, exists_eq', and_true, true_and, false_iff, not_and]
        exact fun same => same ▸ ready

def queuedOf (c : Controller μ) (id : TransactionId) : List Nat :=
  (c.readQueue.filter fun b => b.packetId = id).map (·.offset)

theorem queuedOf_eq_nil : c.queuedOf id = [] ↔ id ∉ c.readQueue.map (·.packetId) := by
  simp only [queuedOf, List.map_eq_nil_iff, List.filter_eq_nil_iff, decide_eq_true_eq,
    List.mem_map, not_exists, not_and]

theorem queuedOf_passOver {place : Nat} {b : Burst} (found : c.readQueue[place]? = some b)
    (id : TransactionId) : (c.queuedOf id).Perm
      ((if b.packetId = id then [b.offset] else []) ++
        { c with readQueue := passOver c.readQueue place }.queuedOf id) := by
  have split := (passOver_perm (fun b => (b.packetId, b.offset)) (fun _ => rfl) found).filterMap
    fun pair => if pair.1 = id then some pair.2 else none
  have offsets (queue : List Burst) : (queue.map fun b => (b.packetId, b.offset)).filterMap
      (fun pair => if pair.1 = id then some pair.2 else none) =
        (queue.filter fun b => b.packetId = id).map (·.offset) := by
    rw [List.filterMap_map, ← List.filterMap_eq_map, List.filterMap_filter]
    refine List.filterMap_congr fun b _ => ?_
    by_cases own : b.packetId = id <;> simp [own]
  rw [offsets, List.filterMap_cons, offsets] at split
  by_cases own : b.packetId = id
  · simpa [queuedOf, own] using split
  · simpa [queuedOf, own] using split

namespace Journal

def readsOf (j : Journal μ) (id : TransactionId) : List ServedBurst :=
  j.issued.filter fun s => s.burst.kind = .read && s.burst.packetId = id

def lastReady (j : Journal μ) (id : TransactionId) : Tick :=
  (j.readsOf id).foldl (fun last s => max last s.readyAt) 0

theorem readsOf_issued {j j' : Journal μ} {s : ServedBurst} (issued : j'.issued = j.issued ++ [s])
    (id : TransactionId) : j'.readsOf id = j.readsOf id ++
      if s.burst.kind = .read ∧ s.burst.packetId = id then [s] else [] := by
  rw [readsOf, issued, List.filter_append, readsOf]
  by_cases own : s.burst.kind = .read ∧ s.burst.packetId = id
  · rw [if_pos own]
    simp [own.1, own.2]
  · rw [if_neg own]
    simpa using own

theorem lastReady_issued {j j' : Journal μ} {s : ServedBurst} (issued : j'.issued = j.issued ++ [s])
    (id : TransactionId) : j'.lastReady id =
      if s.burst.kind = .read ∧ s.burst.packetId = id then max (j.lastReady id) s.readyAt
      else j.lastReady id := by
  rw [lastReady, readsOf_issued issued, List.foldl_append, lastReady]
  split <;> rfl

def waiting (j : Journal μ) : List ReadyResponse :=
  j.controller.responses.toList ++ j.held.toList

def responses (j : Journal μ) : List ReadyResponse := j.waiting ++ j.sent

/-- Accepted packets have numbers of their own, and a response that was taken is accepted or refused
before the next one is taken. -/
def Allows (j : Journal μ) : Call → Prop
  | .offer _ p => p.id ∉ j.admitted.map (·.packet.id)
  | .take _ => j.held = none
  | .sent _ => j.held ≠ none
  | .refused _ p => ∃ r ∈ j.held, r.packet = p
  | .process _ | .retry _ | .atomic _ => True

instance (j : Journal μ) : (call : Call) → Decidable (j.Allows call)
  | .offer _ p => inferInstanceAs (Decidable (p.id ∉ j.admitted.map (·.packet.id)))
  | .take _ => inferInstanceAs (Decidable (j.held = none))
  | .sent _ => inferInstanceAs (Decidable (j.held ≠ none))
  | .refused _ p => inferInstanceAs (Decidable (∃ r ∈ j.held, r.packet = p))
  | .process _ | .retry _ | .atomic _ => inferInstanceAs (Decidable True)

/-- The port protocol, with calls in the order of time. -/
def Proper (j : Journal μ) (call : Call) : Prop :=
  (∀ now ∈ call.tick?, j.now ≤ now) ∧ j.Allows call

instance (j : Journal μ) (call : Call) : Decidable (j.Proper call) :=
  inferInstanceAs (Decidable (_ ∧ _))

section Rounds

variable [MediaChannel μ]

def serves (c : Controller μ) : Call → Option ServedBurst
  | .process now => c.servedBy now
  | .offer .. | .take _ | .sent _ | .refused .. | .retry _ | .atomic _ => none

def holds (j : Journal μ) : Call → Option ReadyResponse
  | .take now => j.controller.takes (.take now)
  | .sent _ | .refused .. => none
  | .offer .. | .process _ | .retry _ | .atomic _ => j.held

def after (j : Journal μ) (call : Call) : Journal μ where
  controller := j.controller.after call
  now := call.tick?.getD j.now
  admitted := j.admitted ++ (j.controller.admits call).toList
  issued := j.issued ++ (serves j.controller call).toList
  held := j.holds call
  sent := match call with
    | .sent _ => j.sent ++ j.held.toList
    | _ => j.sent
  taken := j.taken ++
    (j.controller.takes call).toList.map fun r => (call.tick?.getD j.now, r)
  blocked := match call with
    | .refused .. => true
    | .retry _ => false
    | _ => j.blocked

theorem issued_after (j : Journal μ) (call : Call) :
    (j.after call).issued = j.issued ++ (serves j.controller call).toList := by
  rfl

/-- The journals of the runs that keep to the port protocol. -/
inductive Reachable : Journal μ → Prop
  | created {m name range config geometry media store} {c : Controller μ}
      (made : create m name range config geometry media store = .ok c) :
      Reachable { controller := c }
  | called {j : Journal μ} {call : Call} (reached : Reachable j) (proper : j.Proper call) :
      Reachable (j.after call)

end Rounds

/-- The responses on their way are left alone. -/
structure SameLine (j j' : Journal μ) : Prop where
  held : j'.held = j.held
  sent : j'.sent = j.sent
  taken : j'.taken = j.taken

/-- A packet with a number of its own is accepted, now. -/
structure Admits (j : Journal μ) (a : Admission) (j' : Journal μ) : Prop where
  now : a.tick = j'.now
  fresh : a.packet.id ∉ j.admitted.map (·.packet.id)
  answer : a.answer = j.controller.answerTo a.packet
  admitted : j'.admitted = j.admitted ++ [a]
  reads : ∀ id, j'.readsOf id = j.readsOf id
  line : j.SameLine j'

/-- Packets and reads are what they were. -/
structure SameReads (j j' : Journal μ) : Prop where
  pending : j'.controller.pending = j.controller.pending
  queue : j'.controller.readQueue = j.controller.readQueue
  config : j'.controller.config = j.controller.config
  nextSeq : j'.controller.nextSeq = j.controller.nextSeq
  admitted : j'.admitted = j.admitted
  reads : ∀ id, j'.readsOf id = j.readsOf id

theorem SameReads.of_desk {j j' : Journal μ} (desk : j.controller.SameDesk j'.controller)
    (admitted : j'.admitted = j.admitted) (reads : ∀ id, j'.readsOf id = j.readsOf id) :
    j.SameReads j' :=
  ⟨desk.pending, desk.reads, desk.config, desk.nextSeq, admitted, reads⟩

section Rounds

variable [MediaChannel μ]

/-- What a call can do to a journal. -/
inductive Turn (j j' : Journal μ) : Prop
  | quiet (same : j.SameReads j') (line : j.SameLine j')
      (responses : j'.controller.responses = j.controller.responses)
      (place : j'.controller.lastTaken = j.controller.lastTaken)
  /-- A packet is accepted that needs nothing from the media. -/
  | answered (a : Admission) (admits : j.Admits a j') (needs : a.needs = [])
      (desk : (j.controller.answered a.tick a.packet).SameDesk j'.controller)
  /-- A read is accepted that waits for the media. -/
  | parked (a : Admission) (admits : j.Admits a j') (kind : a.packet.kind = .read)
      (needs : a.needs = j.controller.freshBurstsOf a.packet) (some : a.needs ≠ [])
      (desk : (j.controller.parked a.tick a.packet).SameDesk j'.controller)
  /-- A burst of a read is issued. -/
  | served (s : ServedBurst) (place : Nat) (kind : s.burst.kind = .read)
      (found : j.controller.readQueue[place]? = some s.burst)
      (timely : ∃ channel : μ, s.readyAt =
        (MediaChannel.access channel s.burst.coordinate .read j'.now).1.readyAt)
      (desk : ({ j.controller with
        readQueue := passOver j.controller.readQueue place }.finishRead s.burst.packetId
          s.readyAt).1.SameDesk j'.controller)
      (admitted : j'.admitted = j.admitted) (issued : j'.issued = j.issued ++ [s])
      (line : j.SameLine j')
  /-- The next response is taken. -/
  | took (r : ReadyResponse) (same : j.SameReads j') (free : j.held = none)
      (popped : j.controller.responses.pop? ReadyResponse.before =
        some (r, j'.controller.responses))
      (ready : r.ready ≤ j'.now) (place : j'.controller.lastTaken = some (r.ready, r.seq))
      (held : j'.held = some r) (sent : j'.sent = j.sent)
      (taken : j'.taken = j.taken ++ [(j'.now, r)])
  /-- The response that was taken is accepted. -/
  | delivered (r : ReadyResponse) (same : j.SameReads j') (free : j.held = some r)
      (responses : j'.controller.responses = j.controller.responses)
      (place : j'.controller.lastTaken = none)
      (held : j'.held = none) (sent : j'.sent = j.sent ++ [r]) (taken : j'.taken = j.taken)
  /-- The response that was taken is refused, and goes back. -/
  | refused (r : ReadyResponse) (same : j.SameReads j') (free : j.held = some r)
      (responses : ∃ now, j'.controller.responses =
        j.controller.responses.push ReadyResponse.before
          ⟨(j.controller.lastTaken.getD (now, 0)).1, (j.controller.lastTaken.getD (now, 0)).2,
            r.packet⟩)
      (place : j'.controller.lastTaken = none)
      (held : j'.held = none) (sent : j'.sent = j.sent) (taken : j'.taken = j.taken)

variable {j : Journal μ}

theorem now_le_after {call : Call} (proper : j.Proper call) : j.now ≤ (j.after call).now := by
  have later := proper.1
  simp only [after]
  cases tick : call.tick? with
  | none => exact Nat.le_refl _
  | some now => exact later now tick

theorem turn_offer (h : j.controller.Orderly) {now : Tick} {p : Packet}
    (proper : j.Proper (.offer now p)) : j.Turn (j.after (.offer now p)) := by
  have line : j.SameLine (j.after (.offer now p)) := by
    refine ⟨rfl, rfl, List.append_nil _⟩
  have reads (id : TransactionId) : (j.after (.offer now p)).readsOf id = j.readsOf id := by
    simp [readsOf, after, serves]
  have admits (accepted : (j.controller.recvRequest now p).answer = .accepted) :
      j.Admits ⟨now, p, j.controller.answerTo p,
        if p.kind = .read then j.controller.unqueuedBursts p else []⟩
        (j.after (.offer now p)) := by
    refine ⟨rfl, proper.2, rfl, ?_, reads, line⟩
    simp [after, Controller.admits, accepted]
  rcases recvRequest_desk j.controller now p with ⟨declined, desk⟩ | ⟨accepted, none, desk⟩ |
    ⟨accepted, kind, some, desk⟩
  · refine .quiet (.of_desk desk ?_ reads) line desk.responses desk.lastTaken
    simp [after, Controller.admits, declined]
  · refine .answered _ (admits accepted) ?_ desk
    rcases none with write | none
    · simp [write]
    · rw [freshBurstsOf_eq h] at none
      simp [none]
  · rw [freshBurstsOf_eq h] at some
    refine .parked _ (admits accepted) kind ?_ ?_ desk
    · rw [freshBurstsOf_eq h, if_pos kind]
    · rwa [if_pos kind]

theorem turn_process (h : j.controller.Orderly) (now : Tick) :
    j.Turn (j.after (.process now)) := by
  have line : j.SameLine (j.after (.process now)) := by
    refine ⟨rfl, rfl, List.append_nil _⟩
  have admitted : (j.after (.process now)).admitted = j.admitted := List.append_nil _
  have issued : (j.after (.process now)).issued =
    j.issued ++ (j.controller.servedBy now).toList := rfl
  rcases process_desk h now with ⟨none, desk⟩ | ⟨s, some, ⟨kind, desk⟩ |
    ⟨kind, place, found, desk⟩⟩
  · refine .quiet (.of_desk desk admitted fun id => ?_) line desk.responses desk.lastTaken
    rw [readsOf, issued, none]
    simp [readsOf]
  · refine .quiet (.of_desk desk admitted fun id => ?_) line desk.responses desk.lastTaken
    rw [some] at issued
    rw [readsOf_issued issued, if_neg (by simp [kind]), List.append_nil]
  · rw [some] at issued
    obtain ⟨channel, ready⟩ := servedBy_eq_some some
    rw [kind] at ready
    exact .served s place kind found ⟨channel, ready⟩ desk admitted issued line

theorem turn_take {now : Tick} (proper : j.Proper (.take now)) :
    j.Turn (j.after (.take now)) := by
  have free : j.held = none := proper.2
  have admitted : (j.after (.take now)).admitted = j.admitted := List.append_nil _
  have reads (id : TransactionId) : (j.after (.take now)).readsOf id = j.readsOf id := by
    simp [readsOf, after, serves]
  cases took : j.controller.takeResponse now with
  | none =>
    have stays : (j.after (.take now)).controller = j.controller := by
      simp [after, Controller.after, took]
    have takes : j.controller.takes (.take now) = none := by
      simp [Controller.takes, took]
    have desk : j.controller.SameDesk (j.after (.take now)).controller := by
      rw [stays]
      exact .refl _
    refine .quiet (.of_desk desk admitted reads) ⟨?_, rfl, ?_⟩ desk.responses desk.lastTaken
    · rw [free]
      exact takes
    · simp [after, takes]
  | some pair =>
    obtain ⟨p, c'⟩ := pair
    obtain ⟨-, r, responses, popped, ready, packet, rest⟩ := takeResponse_eq_some took
    have becomes : (j.after (.take now)).controller = c' := by
      simp [after, Controller.after, took]
    have takes : j.controller.takes (.take now) = some r := by
      simp [Controller.takes, took, rest, packet.symm]
    refine .took r ⟨?_, ?_, ?_, ?_, admitted, reads⟩ free ?_ ready ?_ takes rfl ?_
    any_goals rw [becomes, rest]
    · exact popped
    · simp [after, takes, Call.tick?]

theorem turn_sent {now : Tick} (proper : j.Proper (.sent now)) :
    j.Turn (j.after (.sent now)) := by
  obtain ⟨r, held⟩ := Option.ne_none_iff_exists'.1 proper.2
  have reads (id : TransactionId) : (j.after (.sent now)).readsOf id = j.readsOf id := by
    simp [readsOf, after, serves]
  refine .delivered r ⟨rfl, rfl, rfl, rfl, List.append_nil _, reads⟩ held rfl rfl rfl ?_ ?_
  · simp [after, held]
  · exact List.append_nil _

theorem turn_refused {now : Tick} {p : Packet} (proper : j.Proper (.refused now p)) :
    j.Turn (j.after (.refused now p)) := by
  obtain ⟨-, r, held, rfl⟩ := proper
  have reads (id : TransactionId) :
      (j.after (.refused now r.packet)).readsOf id = j.readsOf id := by
    simp [readsOf, after, serves]
  refine .refused r ⟨rfl, rfl, rfl, rfl, List.append_nil _, reads⟩ held ⟨now, rfl⟩ rfl rfl rfl ?_
  exact List.append_nil _

theorem turn_after (h : j.controller.Orderly) {call : Call} (proper : j.Proper call) :
    j.Turn (j.after call) := by
  have reads (id : TransactionId) (none : serves j.controller call = none) :
      (j.after call).readsOf id = j.readsOf id := by
    simp [readsOf, after, none]
  cases call with
  | offer now p => exact turn_offer h proper
  | process now => exact turn_process h now
  | take now => exact turn_take proper
  | sent now => exact turn_sent proper
  | refused now p => exact turn_refused proper
  | retry now =>
    exact .quiet ⟨rfl, rfl, rfl, rfl, List.append_nil _, fun id => reads id rfl⟩
      ⟨rfl, rfl, List.append_nil _⟩ rfl rfl
  | atomic p =>
    have desk := sameDesk_accessAtomic j.controller p
    exact .quiet (.of_desk desk (List.append_nil _) fun id => reads id rfl)
      ⟨rfl, rfl, List.append_nil _⟩ desk.responses desk.lastTaken

theorem awaitingResponseRetry_after (h : j.controller.Orderly) (call : Call)
    (same : j.controller.awaitingResponseRetry = j.blocked) :
    (j.after call).controller.awaitingResponseRetry = (j.after call).blocked := by
  cases call with
  | offer now p =>
    rcases recvRequest_desk j.controller now p with ⟨-, desk⟩ | ⟨-, -, desk⟩ | ⟨-, -, -, desk⟩ <;>
      exact desk.awaiting.trans same
  | process now =>
    rcases process_desk h now with ⟨-, desk⟩ | ⟨s, -, ⟨-, desk⟩ | ⟨-, place, -, desk⟩⟩
    · exact desk.awaiting.trans same
    · exact desk.awaiting.trans same
    · exact (desk.awaiting.trans (awaitingResponseRetry_finishRead _ _ _)).trans same
  | take now =>
    cases took : j.controller.takeResponse now with
    | none => simpa [after, Controller.after, took] using same
    | some pair =>
      obtain ⟨-, r, responses, -, -, -, rest⟩ := takeResponse_eq_some took
      simpa [after, Controller.after, took, rest] using same
  | sent now => exact same
  | refused now p => rfl
  | retry now => rfl
  | atomic p => exact (sameDesk_accessAtomic j.controller p).awaiting.trans same

end Rounds

/-- What the pending reads of a controller have to do with its journal. -/
structure Booked (j : Journal μ) : Prop where
  reads : ReadsKept j.controller.pending (j.controller.readQueue.map (·.packetId))
  past : ∀ a ∈ j.admitted, a.tick ≤ j.now
  distinct : (j.admitted.map (·.packet.id)).Nodup
  named : ∀ a ∈ j.admitted, a.answer.id = a.packet.id
  /-- Bursts are issued for packets that were accepted. -/
  known : ∀ id, j.readsOf id ≠ [] → id ∈ j.admitted.map (·.packet.id)
  /-- A pending read is an accepted packet, with the last of its bursts so far. -/
  filed : ∀ entry ∈ j.controller.pending, ∃ a ∈ j.admitted,
    entry = (a.packet.id, a.entry entry.2.burstsLeft (j.lastReady a.packet.id))
  /-- What a packet needs was issued or is queued. -/
  bursts : ∀ a ∈ j.admitted, ((j.readsOf a.packet.id).map (·.burst.offset) ++
    j.controller.queuedOf a.packet.id).Perm a.needs

namespace Booked

variable {j j' : Journal μ} {a : Admission}

theorem admitted_of_pending (h : j.Booked) {entry : TransactionId × PendingRead}
    (mem : entry ∈ j.controller.pending) : entry.1 ∈ j.admitted.map (·.packet.id) := by
  obtain ⟨a, admitted, filed⟩ := h.filed entry mem
  rw [filed]
  exact List.mem_map_of_mem admitted

theorem admitted_of_queued (h : j.Booked) (queued : id ∈ j.controller.readQueue.map (·.packetId)) :
    id ∈ j.admitted.map (·.packet.id) := by
  obtain ⟨entry, mem, rfl⟩ := List.mem_map.1 (h.reads.owned id queued)
  exact h.admitted_of_pending mem

theorem alike (h : j.Booked) (same : j.SameReads j') (later : j.now ≤ j'.now) : j'.Booked := by
  obtain ⟨pending, queue, -, -, admitted, reads⟩ := same
  have last (id : TransactionId) : j'.lastReady id = j.lastReady id := by
    rw [lastReady, lastReady, reads]
  refine ⟨?_, ?_, ?_, ?_, ?_, ?_, ?_⟩
  · rw [pending, queue]
    exact h.reads
  · intro a mem
    rw [admitted] at mem
    exact Nat.le_trans (h.past a mem) later
  · rw [admitted]
    exact h.distinct
  · rw [admitted]
    exact h.named
  · intro id
    rw [reads, admitted]
    exact h.known id
  · intro entry mem
    rw [pending] at mem
    simp only [admitted, last]
    exact h.filed entry mem
  · intro a mem
    rw [admitted] at mem
    rw [reads, queuedOf, queue]
    exact h.bursts a mem

/-- A packet with a number of its own is accepted. It needs nothing from the media, or it is filed
together with the bursts that it needs. -/
theorem accept (h : j.Booked) (admits : j.Admits a j') (later : j.now ≤ j'.now)
    (bursts : List Burst) (own : ∀ b ∈ bursts, b.packetId = a.packet.id)
    (needs : bursts.map (·.offset) = a.needs)
    (queue : j'.controller.readQueue = j.controller.readQueue ++ bursts)
    (pending : j'.controller.pending = j.controller.pending ++
      if bursts = [] then [] else [(a.packet.id, a.entry bursts.length 0)]) : j'.Booked := by
  obtain ⟨now, fresh, answer, admitted, reads, -⟩ := admits
  have named : a.answer.id = a.packet.id := (congrArg Packet.id answer).trans (answerTo_id _ _)
  have last (id : TransactionId) : j'.lastReady id = j.lastReady id := by
    rw [lastReady, lastReady, reads]
  have unread : j.readsOf a.packet.id = [] := by
    by_contra some
    exact fresh (h.known _ some)
  have unqueued : j.controller.queuedOf a.packet.id = [] :=
    queuedOf_eq_nil.2 fun queued => fresh (h.admitted_of_queued queued)
  refine ⟨?_, ?_, ?_, ?_, ?_, ?_, ?_⟩
  · have ids : bursts.map (·.packetId) = List.replicate bursts.length a.packet.id :=
      List.eq_replicate_iff.2 ⟨List.length_map _, by simpa using own⟩
    rw [pending, queue, List.map_append, ids]
    split
    next none => simpa [none] using h.reads
    next some =>
      refine h.reads.file ?_ named (List.length_pos_iff.2 some)
      intro filed
      obtain ⟨entry, mem, same⟩ := List.mem_map.1 filed
      exact fresh (same ▸ h.admitted_of_pending mem)
  · rw [admitted]
    refine List.forall_mem_append.2 ⟨fun a mem => Nat.le_trans (h.past a mem) later, ?_⟩
    simp [now]
  · rw [admitted, List.map_append]
    exact List.nodup_append'.2 ⟨h.distinct, by simp, by simpa using fresh⟩
  · rw [admitted]
    exact List.forall_mem_append.2 ⟨h.named, by simpa using named⟩
  · intro id some
    rw [reads] at some
    rw [admitted, List.map_append]
    exact List.mem_append_left _ (h.known id some)
  · intro entry mem
    simp only [admitted, last]
    rw [pending] at mem
    rcases List.mem_append.1 mem with old | new
    · obtain ⟨a, mem, filed⟩ := h.filed entry old
      exact ⟨a, List.mem_append_left _ mem, filed⟩
    · split at new
      · cases new
      · refine ⟨a, List.mem_append_right _ (List.mem_singleton_self a), ?_⟩
        rw [List.mem_singleton.1 new, lastReady, unread]
        rfl
  · have split (id : TransactionId) : j'.controller.queuedOf id = j.controller.queuedOf id ++
        (bursts.filter fun b => b.packetId = id).map (·.offset) := by
      rw [queuedOf, queue, List.filter_append, List.map_append, queuedOf]
    rw [admitted]
    refine List.forall_mem_append.2 ⟨fun old mem => ?_, ?_⟩
    · have other : (bursts.filter fun b => b.packetId = old.packet.id) = [] := by
        refine List.filter_eq_nil_iff.2 fun b joined => ?_
        have apart : a.packet.id ≠ old.packet.id := by
          intro same
          exact fresh (same ▸ List.mem_map_of_mem mem)
        simpa [own b joined] using apart
      rw [reads, split, other, List.map_nil, List.append_nil]
      exact h.bursts old mem
    · have all : (bursts.filter fun b => b.packetId = a.packet.id) = bursts :=
        List.filter_eq_self.2 (by simpa using own)
      simp only [List.mem_singleton, forall_eq]
      rw [reads, split, unread, unqueued, all, needs]
      exact .refl _

/-- What becomes of the read whose burst was issued: its entry counts a burst less, or turns into a
response. -/
theorem served_cases (h : j.Booked) {s : ServedBurst} (issued : j'.issued = j.issued ++ [s])
    (kind : s.burst.kind = .read) {place : Nat}
    (found : j.controller.readQueue[place]? = some s.burst)
    {rest : List Burst} (left : rest = passOver j.controller.readQueue place)
    (desk : ({ j.controller with readQueue := rest }.finishRead s.burst.packetId
      s.readyAt).1.SameDesk j'.controller) :
    ∃ a ∈ j.admitted, a.packet.id = s.burst.packetId ∧ ∃ front count back,
      j.controller.pending = front ++
        (a.packet.id, a.entry count (j.lastReady a.packet.id)) :: back ∧
      ((a.packet.id ∈ rest.map (·.packetId) ∧ SameDesk { j.controller with
          readQueue := rest
          pending := front ++ (a.packet.id, a.entry ((rest.map (·.packetId)).count a.packet.id)
            (j'.lastReady a.packet.id)) :: back } j'.controller) ∨
        (a.packet.id ∉ rest.map (·.packetId) ∧ SameDesk ({ j.controller with
            readQueue := rest
            pending := front ++ back }.pushResponse
          (max a.tick (j'.lastReady a.packet.id) + a.packet.headerDelay +
            j.controller.config.frontendLatency + j.controller.config.backendLatency)
          a.answer).1 j'.controller)) := by
  have split := passOver_perm (·.packetId) (fun _ => rfl) found
  rw [← left] at split
  obtain ⟨front, read, back, pending, cases⟩ := finishRead_cases
    (c := { j.controller with readQueue := rest }) (h.reads.perm split) s.readyAt
  have pending : j.controller.pending = front ++ (s.burst.packetId, read) :: back := pending
  have mem : (s.burst.packetId, read) ∈ j.controller.pending := by
    rw [pending]
    exact List.mem_append_right _ List.mem_cons_self
  obtain ⟨a, admitted, filed⟩ := h.filed _ mem
  obtain ⟨same, entry⟩ := Prod.mk.inj filed
  have last : j'.lastReady a.packet.id = max (j.lastReady a.packet.id) s.readyAt := by
    rw [lastReady_issued issued, if_pos ⟨kind, same⟩]
  have ready : max read.ready s.readyAt = max a.tick (j'.lastReady a.packet.id) := by
    rw [entry, last]
    exact max_assoc ..
  refine ⟨a, admitted, same.symm, front, read.burstsLeft, back, ?_, ?_⟩
  · rw [pending, filed]
  rcases cases with ⟨more, eq⟩ | ⟨done, eq⟩
  · refine .inl ⟨same ▸ more, ?_⟩
    rw [eq, ready, entry, same] at desk
    exact desk
  · refine .inr ⟨same ▸ done, ?_⟩
    rw [eq, ready, entry] at desk
    exact desk

theorem filed_apart (h : j.Booked) {s : ServedBurst} (issued : j'.issued = j.issued ++ [s])
    (admitted : j'.admitted = j.admitted) {entry : TransactionId × PendingRead}
    (old : entry ∈ j.controller.pending) (apart : s.burst.packetId ≠ entry.1) :
    ∃ a ∈ j'.admitted,
      entry = (a.packet.id, a.entry entry.2.burstsLeft (j'.lastReady a.packet.id)) := by
  obtain ⟨a, mem, filed⟩ := h.filed entry old
  rw [filed] at apart
  refine ⟨a, admitted ▸ mem, ?_⟩
  rw [lastReady_issued issued, if_neg fun same => apart same.2]
  exact filed

/-- A burst of a read leaves the queue and joins those that were issued. -/
theorem serve (h : j.Booked) {s : ServedBurst} (issued : j'.issued = j.issued ++ [s])
    (kind : s.burst.kind = .read) {place : Nat}
    (found : j.controller.readQueue[place]? = some s.burst)
    (desk : ({ j.controller with
      readQueue := passOver j.controller.readQueue place }.finishRead s.burst.packetId
        s.readyAt).1.SameDesk j'.controller)
    (admitted : j'.admitted = j.admitted) (later : j.now ≤ j'.now) : j'.Booked := by
  obtain ⟨a, mem, own, front, count, back, pending, cases⟩ :=
    h.served_cases issued kind found rfl desk
  have split := h.reads.perm (passOver_perm (·.packetId) (fun _ => rfl) found)
  have queue : j'.controller.readQueue = passOver j.controller.readQueue place := by
    rcases cases with ⟨-, same⟩ | ⟨-, same⟩ <;> exact same.reads
  have reads := readsOf_issued issued
  refine ⟨?_, ?_, ?_, ?_, ?_, ?_, ?_⟩
  · rw [desk.pending, queue]
    exact (readsKept_finishRead (c := { j.controller with
      readQueue := passOver j.controller.readQueue place }) split s.readyAt).1
  · intro a mem
    rw [admitted] at mem
    exact Nat.le_trans (h.past a mem) later
  · rw [admitted]
    exact h.distinct
  · rw [admitted]
    exact h.named
  · intro id some
    rw [admitted]
    by_cases new : s.burst.packetId = id
    · rw [← new, ← own]
      exact List.mem_map_of_mem mem
    · refine h.known id ?_
      rwa [reads, if_neg fun same => new same.2, List.append_nil] at some
  · intro entry stays
    have distinct := h.reads.distinct
    rw [pending, List.map_append, List.map_cons, List.nodup_middle, ← List.map_append,
      List.nodup_cons] at distinct
    -- The other entries are of other packets, so their ticks are what they were.
    have others (rest : entry ∈ front ++ back) : ∃ a ∈ j'.admitted,
        entry = (a.packet.id, a.entry entry.2.burstsLeft (j'.lastReady a.packet.id)) := by
      refine h.filed_apart issued admitted ?_ fun same => ?_
      · rw [pending, List.perm_middle.mem_iff]
        exact List.mem_cons_of_mem _ rest
      · exact distinct.1 (List.mem_map.2 ⟨entry, rest, same.symm.trans own.symm⟩)
    rcases cases with ⟨-, same⟩ | ⟨-, same⟩
    · rw [same.pending] at stays
      rcases List.mem_append.1 stays with before | here
      · exact others (List.mem_append_left _ before)
      · rcases List.mem_cons.1 here with rfl | behind
        · rw [admitted]
          exact ⟨a, mem, rfl⟩
        · exact others (List.mem_append_right _ behind)
    · rw [same.pending] at stays
      exact others stays
  · intro a mem
    rw [admitted] at mem
    have bursts := h.bursts a mem
    have moved := queuedOf_passOver found a.packet.id
    have here : j'.controller.queuedOf a.packet.id =
        { j.controller with readQueue := passOver j.controller.readQueue place }.queuedOf
          a.packet.id := by
      rw [queuedOf, queue, queuedOf]
    rw [reads, here, List.map_append, List.append_assoc]
    refine List.Perm.trans (List.Perm.append_left _ ?_) bursts
    refine List.Perm.trans ?_ moved.symm
    by_cases own : s.burst.packetId = a.packet.id <;> simp [own, kind]

theorem parked_pending (h : j.Booked) (admits : j.Admits a j') (kind : a.packet.kind = .read) :
    (j.controller.parked a.tick a.packet).pending = j.controller.pending ++
      [(a.packet.id, a.entry (j.controller.freshBurstsOf a.packet).length 0)] := by
  have apart : (j.controller.pending.filter fun entry => entry.1 != a.packet.id) =
      j.controller.pending := by
    refine List.filter_eq_self.2 fun entry mem => ?_
    have other : entry.1 ≠ a.packet.id := by
      intro same
      exact admits.fresh (same ▸ h.admitted_of_pending mem)
    simpa using other
  have entry : j.controller.parkedRead a.tick a.packet =
      a.entry (j.controller.freshBurstsOf a.packet).length 0 := by
    rw [parkedRead, Admission.entry, admits.answer, answerTo, kind, Nat.max_zero]
  rw [parked, filePending, entry]
  simp only
  rw [apart]

theorem next [MediaChannel μ] (h : j.Booked) (turn : j.Turn j') (later : j.now ≤ j'.now) :
    j'.Booked := by
  cases turn with
  | quiet same => exact h.alike same later
  | answered a admits needs desk =>
    refine h.accept admits later [] nofun needs.symm ?_ ?_
    · rw [desk.reads, List.append_nil]
      rfl
    · rw [desk.pending, if_pos rfl, List.append_nil]
      rfl
  | parked a admits kind needs some desk =>
    refine h.accept admits later ((j.controller.freshBurstsOf a.packet).map
      (j.controller.burstAt a.packet .read a.tick)) ?_ ?_ desk.reads ?_
    · intro b mem
      obtain ⟨offset, -, rfl⟩ := List.mem_map.1 mem
      rfl
    · rw [List.map_map, needs]
      exact List.map_id _
    · rw [if_neg (by simpa [← needs] using some), List.length_map, desk.pending]
      exact h.parked_pending admits kind
  | served s place kind found timely desk admitted issued line =>
    exact h.serve issued kind found desk admitted later
  | took r same => exact h.alike same later
  | delivered r same => exact h.alike same later
  | refused r same => exact h.alike same later

end Booked

end Journal

end Expander.Controller
