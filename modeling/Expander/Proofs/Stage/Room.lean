import Expander.Proofs.Stage.Refusal

/-!
The room that a forwarding stage has for requests.

Bridge and device refuse a request for want of room, and owe a retry from then on. Unless a request
comes in, a stage relents: room that it has it keeps, and the retry that it owes it calls for at
most once, when it has room (`Relents`). Every other call of a stage is of this kind. A request that
is taken out and refused by the stage behind goes back to the place that it had, so that it takes no
room away.
-/

set_option autoImplicit false

namespace Expander

namespace PacketQueue

def Bounded (q : PacketQueue) : Prop := ∀ limit, q.capacity = some limit → q.entries.length ≤ limit

/-- The queue may hold as many packets as another one, and holds no more. -/
structure Within (q other : PacketQueue) : Prop where
  capacity : q.capacity = other.capacity
  length : q.entries.length ≤ other.entries.length

variable {q q' other : PacketQueue} {p r : Packet} {now ready : Tick}

theorem isFull_eq_false_iff :
    q.isFull = false ↔ ∀ limit, q.capacity = some limit → q.entries.length < limit := by
  cases capacity : q.capacity <;> simp [isFull, capacity]

theorem bounded_empty (capacity : Nat) : (empty capacity).Bounded := fun _ _ => Nat.zero_le _

theorem Bounded.push (push : q.push? p ready = some q') : q'.Bounded := by
  obtain ⟨free, rfl⟩ := push?_eq_some push
  intro limit capacity
  have less := isFull_eq_false_iff.1 free limit capacity
  simpa using Nat.succ_le_of_lt less

theorem Within.refl (q : PacketQueue) : q.Within q := ⟨rfl, Nat.le_refl _⟩

theorem Within.bounded (within : q.Within other) (bounded : other.Bounded) : q.Bounded :=
  fun limit capacity => within.length.trans (bounded limit (within.capacity ▸ capacity))

theorem Within.free (within : q.Within other) (free : other.isFull = false) : q.isFull = false := by
  rw [isFull_eq_false_iff] at free ⊢
  exact fun limit capacity =>
    Nat.lt_of_le_of_lt within.length (free limit (within.capacity ▸ capacity))

theorem within_popReady (popped : q.popReady? now = some (p, q')) : q'.Within q := by
  obtain ⟨tick, -, entries, capacity⟩ := popReady?_eq_some popped
  exact ⟨capacity, by simp [entries]⟩

theorem within_pushFront (popped : q.popReady? now = some (p, q')) :
    (q'.pushFront r ready).Within q := by
  obtain ⟨tick, -, entries, capacity⟩ := popReady?_eq_some popped
  exact ⟨capacity, by simp [pushFront, entries]⟩

theorem free_popReady (popped : q.popReady? now = some (p, q')) (bounded : q.Bounded) :
    q'.isFull = false := by
  obtain ⟨tick, -, entries, capacity⟩ := popReady?_eq_some popped
  rw [isFull_eq_false_iff, capacity]
  intro limit eq
  have le := bounded limit eq
  rw [entries, List.length_cons] at le
  exact Nat.lt_of_succ_le le

end PacketQueue

namespace Stage

def HasRoom : Stage → Prop
  | bridge b => b.hasRoom = true
  | device d => d.requests.isFull = false
  | controller _ | memory _ => False

def Bounded : Stage → Prop
  | device d => d.requests.Bounded
  | bridge _ | controller _ | memory _ => True

/-- A stage before and after it has relented: room stays, and no promise of a retry is made. If the
peer is told to retry, then a promise is redeemed, and there is room. -/
structure Relents (told : Prop) (s s' : Stage) : Prop where
  bounded : s.Bounded → s'.Bounded
  room : s.HasRoom → s'.HasRoom
  owes : s'.view.owesRequest = true → s.view.owesRequest = true
  redeemed : told → s.Bounded →
    s.view.owesRequest = true ∧ s'.view.owesRequest = false ∧ s'.HasRoom

variable {s s' s'' taken denied answered : Stage} {told told' : Prop} {now : Tick} {p : Packet}
  {actions : List Action} {delivery : Delivery}

theorem Relents.refl (s : Stage) : s.Relents False s := ⟨id, id, id, False.elim⟩

theorem Relents.mono (h : s.Relents told s') (sub : told' → told) : s.Relents told' s' :=
  ⟨h.bounded, h.room, h.owes, fun holds => h.redeemed (sub holds)⟩

theorem Relents.trans (first : s.Relents told s') (second : s'.Relents told' s'') :
    s.Relents (told ∨ told') s'' where
  bounded bounded := second.bounded (first.bounded bounded)
  room room := second.room (first.room room)
  owes owes := first.owes (second.owes owes)
  redeemed holds bounded := by
    rcases holds with holds | holds
    · obtain ⟨owed, free, room⟩ := first.redeemed holds bounded
      refine ⟨owed, Bool.eq_false_iff.2 fun owes => ?_, second.room room⟩
      exact absurd (free.symm.trans (second.owes owes)) nofun
    · obtain ⟨owed, free, room⟩ := second.redeemed holds (first.bounded bounded)
      exact ⟨first.owes owed, free, room⟩

theorem relents_bridge {b b' : Bridge} (config : b'.config = b.config)
    (within : b'.requests.Within b.requests) (reserved : b'.reserved ≤ b.reserved)
    (owes : b'.retryOwed = true → b.retryOwed = true) :
    (bridge b).Relents False (bridge b') := by
  refine ⟨id, fun room => ?_, owes, False.elim⟩
  have room' : b.hasRoom = true := room
  simp only [Bridge.hasRoom, Bool.and_eq_true, Bool.not_eq_true', decide_eq_true_eq] at room'
  have kept : b'.hasRoom = true := by
    simp only [Bridge.hasRoom, within.free room'.1, config, Nat.lt_of_le_of_lt reserved room'.2,
      Bool.not_false, decide_true, Bool.and_self]
  exact kept

theorem relents_device {d d' : Device} (within : d'.requests.Within d.requests)
    (owes : d'.requestRetryOwed = true → d.requestRetryOwed = true) :
    (device d).Relents False (device d') :=
  ⟨within.bounded, within.free, owes, False.elim⟩

theorem relents_retryIfRoom (b : Bridge) :
    (bridge b).Relents (.retryRequest ∈ b.retryIfRoom.2) (bridge b.retryIfRoom.1) := by
  rw [Bridge.retryIfRoom_eq]
  refine ⟨id, id, fun owes => ?_, fun told _ => ?_⟩
  · exact (Bool.and_eq_true_iff.1 owes).1
  · have both : (b.retryOwed && b.hasRoom) = true := by
      by_contra none
      simp [none] at told
    obtain ⟨owed, room⟩ := Bool.and_eq_true_iff.1 both
    exact ⟨owed, by simp [view, Bridge.view, owed, room], room⟩

theorem relents_requestSent (took : s.takeRequest now = some (p, taken)) :
    s.Relents (.retryRequest ∈ (taken.requestSent now).2) (taken.requestSent now).1 := by
  rcases takeRequest_inv took with ⟨b, b', rfl, rfl, gave⟩ | ⟨d, d', rfl, rfl, gave⟩
  · obtain ⟨-, requests, popped, rfl⟩ := Bridge.takeRequest_eq_some gave
    have left : (bridge b).Relents False (bridge { b with requests }) :=
      relents_bridge rfl (PacketQueue.within_popReady popped) (Nat.le_refl _) id
    refine (left.trans (relents_retryIfRoom { b with requests })).mono fun told => .inr ?_
    simpa [requestSent, Bridge.requestSent] using told
  · obtain ⟨-, requests, popped, rfl⟩ := Device.takeRequest_eq_some gave
    refine ⟨(PacketQueue.within_popReady popped).bounded, (PacketQueue.within_popReady popped).free,
      nofun, fun told bounded => ?_⟩
    have owed : d.requestRetryOwed = true := by
      by_contra none
      simp [requestSent, Device.requestSent, none] at told
    exact ⟨owed, rfl, PacketQueue.free_popReady popped bounded⟩

theorem relents_requestRefused (took : s.takeRequest now = some (p, taken)) :
    s.Relents False (taken.requestRefused now p) := by
  rcases takeRequest_inv took with ⟨b, b', rfl, rfl, gave⟩ | ⟨d, d', rfl, rfl, gave⟩
  · obtain ⟨-, requests, popped, rfl⟩ := Bridge.takeRequest_eq_some gave
    exact relents_bridge rfl (PacketQueue.within_pushFront popped) (Nat.le_refl _) id
  · obtain ⟨-, requests, popped, rfl⟩ := Device.takeRequest_eq_some gave
    exact relents_device (PacketQueue.within_pushFront popped) id

theorem relents_recvRequestRetry (s : Stage) (now : Tick) :
    s.Relents False (s.recvRequestRetry now).1 := by
  cases s with
  | bridge b => exact relents_bridge rfl (.refl _) (Nat.le_refl _) id
  | device d => exact relents_device (.refl _) id
  | controller | memory => exact .refl _

theorem relents_recvResponse (reply : s.recvResponse now p = ⟨answered, actions, delivery⟩) :
    s.Relents False answered := by
  rw [show answered = (s.recvResponse now p).stage by rw [reply]]
  cases s with
  | bridge b =>
    rcases Bridge.recvResponse_cases b now p with ⟨-, eq⟩ | ⟨responses, counters, -, eq⟩ <;>
      simp only [recvResponse, eq, Reply.map]
    · exact .refl _
    · exact relents_bridge rfl (.refl _) (Nat.le_refl _) id
  | device d =>
    rcases Device.recvResponse_cases d now p with ⟨-, counters, eq⟩ |
      ⟨responses, counters, -, eq⟩ <;> simp only [recvResponse, eq, Reply.map]
    · exact relents_device (.refl _) id
    · exact relents_device (.refl _) id
  | controller | memory => exact .refl _

theorem relents_responseSent (forwards : s.view.frame.forwards = true)
    (took : s.takeResponse now = some (p, taken)) :
    s.Relents (.retryRequest ∈ (taken.responseSent now).2) (taken.responseSent now).1 := by
  cases s with
  | bridge b =>
    obtain ⟨⟨q, b'⟩, some, eq⟩ := Option.map_eq_some_iff.1 took
    cases eq
    obtain ⟨-, responses, -, rfl⟩ := Bridge.takeResponse_eq_some some
    have left : (bridge b).Relents False
        (bridge { b with responses, reserved := b.reserved - 1 }) :=
      relents_bridge rfl (.refl _) (Nat.sub_le ..) id
    refine (left.trans (relents_retryIfRoom _)).mono fun told => .inr ?_
    simpa [responseSent, Bridge.responseSent] using told
  | device d =>
    obtain ⟨⟨q, d'⟩, some, eq⟩ := Option.map_eq_some_iff.1 took
    cases eq
    obtain ⟨-, responses, -, rfl⟩ := Device.takeResponse_eq_some some
    have left : (device d).Relents False
        (device { d with responses, responseRetryOwed := false }) := relents_device (.refl _) id
    refine left.mono fun told => ?_
    cases owed : d.responseRetryOwed <;> simp [responseSent, Device.responseSent, owed] at told
  | controller | memory => cases forwards

theorem relents_recvResponseRetry (s : Stage) (now : Tick) :
    s.Relents False (s.recvResponseRetry now).1 := by
  cases s with
  | bridge b => exact relents_bridge rfl (.refl _) (Nat.le_refl _) id
  | device d => exact relents_device (.refl _) id
  | controller c => exact ⟨id, id, id, False.elim⟩
  | memory m => exact ⟨id, id, id, False.elim⟩

theorem relents_withStore (s : Stage) (store : Store) : s.Relents False (s.withStore store) := by
  cases s with
  | bridge | device => exact .refl _
  | controller | memory => exact ⟨id, id, id, False.elim⟩

theorem process_of_forwards (forwards : s.view.frame.forwards = true) (now : Tick) :
    s.process now = (s, []) := by
  cases s with
  | bridge | device => rfl
  | controller | memory => cases forwards

theorem HasRoom.not_denied (room : s.HasRoom) :
    s.recvRequest now p ≠ ⟨denied, [], .busy p⟩ := by
  intro reply
  cases s with
  | bridge b =>
    have room' : b.hasRoom = true := room
    rcases Bridge.recvRequest_cases b now p with ⟨-, eq⟩ | ⟨-, full, -⟩ |
      ⟨-, -, requests, counters, -, eq⟩
    · simp [recvRequest, eq, Reply.map] at reply
    · exact absurd (full.symm.trans room') nofun
    · simp [recvRequest, eq, Reply.map] at reply
  | device d =>
    have room' : d.requests.isFull = false := room
    rcases Device.recvRequest_cases d now p with ⟨-, eq⟩ | ⟨-, full, -⟩ |
      ⟨-, requests, counters, -, eq⟩
    · simp [recvRequest, eq, Reply.map] at reply
    · exact absurd (room'.symm.trans full) nofun
    · simp [recvRequest, eq, Reply.map] at reply
  | controller | memory => exact room

theorem DeniesRequest.bounded (denies : s.DeniesRequest now denied) (bounded : s.Bounded) :
    denied.Bounded := by
  cases denies with
  | unreserved | bridge | read | write => trivial
  | device d => exact bounded

theorem owes_recvRequest (forwards : s.view.frame.forwards = true)
    (reply : s.recvRequest now p = ⟨answered, actions, .accepted⟩) :
    answered.view.owesRequest = s.view.owesRequest ∧ answered.Bounded := by
  cases s with
  | bridge b =>
    rcases Bridge.recvRequest_cases b now p with ⟨-, eq⟩ | ⟨-, -, counters, eq⟩ |
      ⟨-, -, requests, counters, -, eq⟩ <;> simp only [recvRequest, eq, Reply.map] at reply <;>
      cases reply
    exact ⟨rfl, trivial⟩
  | device d =>
    rcases Device.recvRequest_cases d now p with ⟨-, eq⟩ | ⟨-, -, counters, eq⟩ |
      ⟨-, requests, counters, pushed, eq⟩ <;> simp only [recvRequest, eq, Reply.map] at reply <;>
      cases reply
    exact ⟨rfl, PacketQueue.Bounded.push pushed⟩
  | controller | memory => cases forwards

end Stage

end Expander
