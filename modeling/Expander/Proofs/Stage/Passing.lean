import Expander.Proofs.Relay
import Expander.Proofs.Scheduling.Tallies
import Expander.Proofs.Stage.Refusal

/-!
What passes through a stage, and what the stage counts of it.

In one step of a system a stage takes a packet of one of the two ways, or it sends one on, or
nothing passes through it; a packet that is refused stays where it was. What is taken waits until it
is sent on, and is counted once, when it is taken (`Passes`). A stage that ends the requests counts
them with their bursts (`Controller.Took`).
-/

set_option autoImplicit false

namespace Expander

/-- The packets that a stage takes and sends on in a step, on each of the two ways. -/
structure Passing where
  taken : Way → Multiset Packet := fun _ => 0
  sent : Way → Multiset Packet := fun _ => 0

namespace Passing

def nothing : Passing := {}

def takes (way : Way) (p : Packet) : Passing :=
  { taken := fun w => if w = way then {p.bare} else 0 }

def sends (way : Way) (p : Packet) : Passing :=
  { sent := fun w => if w = way then {p.bare} else 0 }

variable {way w : Way} {p : Packet}

@[simp] theorem taken_nothing : nothing.taken w = 0 := rfl

@[simp] theorem sent_nothing : nothing.sent w = 0 := rfl

@[simp] theorem sent_takes : (takes way p).sent w = 0 := rfl

@[simp] theorem taken_sends : (sends way p).taken w = 0 := rfl

@[simp] theorem taken_takes_self : (takes way p).taken way = {p.bare} := if_pos rfl

@[simp] theorem sent_sends_self : (sends way p).sent way = {p.bare} := if_pos rfl

theorem taken_takes_of_ne (other : w ≠ way) : (takes way p).taken w = 0 :=
  if_neg other

theorem sent_sends_of_ne (other : w ≠ way) : (sends way p).sent w = 0 :=
  if_neg other

end Passing

open Relay in
/-- A relay that counts the packets of each way that it accepts, and nothing else under that
name. -/
class TallyingRelay (σ : Type) [Relay σ] where
  tally : σ → Way → Nat
  accepts {s : σ} {way : Way} {now : Tick} {p : Packet} :
    (offer s way now p).answer = .accepted →
      tally (offer s way now p).stage = Function.update (tally s) way (tally s way + 1)
  take {s s' : σ} {way : Way} {now : Tick} {p : Packet} :
    take s way now = some (p, s') → tally s' = tally s
  sent (s : σ) (way : Way) (now : Tick) : tally (sent s way now) = tally s
  refused (s : σ) (way : Way) (now : Tick) (p : Packet) : tally (refused s way now p) = tally s
  retry (s : σ) (way : Way) (now : Tick) : tally (retry s way now) = tally s

namespace Bridge

def tally (b : Bridge) : Way → Nat
  | .request => b.counters.requests
  | .response => b.counters.responses

instance : TallyingRelay Bridge where
  tally := tally
  accepts {b way now p} took := by
    funext w
    cases way with
    | request =>
      simp only [Relay.offer, recvRequest] at took ⊢
      split
      next unserved => simp [unserved] at took
      next served =>
        split
        next reserved => simp [served, reserved] at took
        next free =>
          split
          next full => simp [served, free, full] at took
          next => cases w <;> rfl
    | response =>
      simp only [Relay.offer, recvResponse] at took ⊢
      split
      next full => simp [full] at took
      next => cases w <;> rfl
  take {b b' way now p} took := by
    cases way with
    | request =>
      obtain ⟨-, requests, -, rfl⟩ := takeRequest_eq_some took
      rfl
    | response =>
      obtain ⟨-, responses, -, rfl⟩ := takeResponse_eq_some took
      rfl
  sent b way now := by
    cases way with
    | request =>
      simp only [Relay.sent, requestSent, retryIfRoom_eq]
      rfl
    | response =>
      simp only [Relay.sent, responseSent, retryIfRoom_eq]
      rfl
  refused b way now p := by
    cases way <;> rfl
  retry b way now := by
    cases way <;> rfl

end Bridge

namespace Device

def tally (d : Device) : Way → Nat
  | .request => d.counters.requests
  | .response => d.counters.responses

instance : TallyingRelay Device where
  tally := tally
  accepts {d way now p} took := by
    funext w
    cases way with
    | request =>
      simp only [Relay.offer, recvRequest] at took ⊢
      split
      next unserved => simp [unserved] at took
      next served =>
        split
        next full => simp [served, full] at took
        next => cases w <;> rfl
    | response =>
      simp only [Relay.offer, recvResponse] at took ⊢
      split
      next full => simp [full] at took
      next => cases w <;> rfl
  take {d d' way now p} took := by
    cases way with
    | request =>
      obtain ⟨-, requests, -, rfl⟩ := takeRequest_eq_some took
      rfl
    | response =>
      obtain ⟨-, responses, -, rfl⟩ := takeResponse_eq_some took
      rfl
  sent d way now := by
    cases way <;> rfl
  refused d way now p := by
    cases way <;> rfl
  retry d way now := by
    cases way <;> rfl

end Device

namespace Relay

variable {σ : Type} [Relay σ] [TallyingRelay σ] {s s' : σ} {way : Way} {now : Tick} {p : Packet}

/-- What waits in a relay and what it has counted, before and after a step. -/
structure Passes (s : σ) (x : Passing) (s' : σ) : Prop where
  waiting : ∀ w, x.sent w + ↑(queue s' w).packets = ↑(queue s w).packets + x.taken w
  counted : ∀ w, TallyingRelay.tally s' w = TallyingRelay.tally s w + (x.taken w).card

theorem passes_of_same (waiting : ∀ w, (queue s' w).packets = (queue s w).packets)
    (counted : TallyingRelay.tally s' = TallyingRelay.tally s) : Passes s .nothing s' where
  waiting w := by
    rw [waiting]
    exact (zero_add _).trans (add_zero _).symm
  counted w := congrFun counted w

variable [LawfulRelay σ]

omit [TallyingRelay σ] in
theorem bare_mark (s : σ) (way : Way) (p : Packet) : ((passage s way).mark p).bare = p.bare := by
  rw [LawfulRelay.unaltered]
  rfl

theorem passes_offer (way : Way) (took : (offer s way now p).answer = .accepted) :
    Passes s (.takes way p) (offer s way now p).stage := by
  rcases LawfulRelay.offer_cases s way now p with ⟨refused, -⟩ | ⟨-, q, pushed, turns⟩
  · exact absurd took refused
  · refine ⟨fun w => ?_, fun w => ?_⟩
    · rw [Passing.sent_takes, zero_add]
      by_cases own : w = way
      · subst own
        rw [turns.own, PacketQueue.packets_push pushed, bare_mark, Passing.taken_takes_self,
          ← Multiset.coe_singleton, Multiset.coe_add]
      · rw [turns.other w own, Passing.taken_takes_of_ne own, add_zero]
    · rw [TallyingRelay.accepts took]
      by_cases own : w = way
      · subst own
        rw [Function.update_self, Passing.taken_takes_self, Multiset.card_singleton]
      · rw [Function.update_of_ne own, Passing.taken_takes_of_ne own, Multiset.card_zero, add_zero]

theorem passes_sent (way : Way) (took : take s way now = some (p, s')) :
    Passes s (.sends way p) (sent s' way now) := by
  obtain ⟨q, popped, turns⟩ := LawfulRelay.take_some took
  have idle := LawfulRelay.sent_idle s' way now
  refine ⟨fun w => ?_, fun w => ?_⟩
  · rw [Passing.taken_sends, add_zero]
    by_cases own : w = way
    · subst own
      rw [idle.own, turns.own, PacketQueue.packets_popReady popped, Passing.sent_sends_self,
        Multiset.singleton_add, Multiset.cons_coe]
    · rw [idle.other w own, turns.other w own, Passing.sent_sends_of_ne own, zero_add]
  · rw [TallyingRelay.sent, TallyingRelay.take took]
    rfl

theorem passes_refused (way : Way) (took : take s way now = some (p, s')) :
    Passes s .nothing (refused s' way now p) := by
  obtain ⟨q, popped, turns⟩ := LawfulRelay.take_some took
  have back := LawfulRelay.refused_front s' way now p
  refine passes_of_same (fun w => ?_) ?_
  · by_cases own : w = way
    · subst own
      rw [back.own, turns.own, PacketQueue.packets_popReady popped]
      rfl
    · rw [back.other w own, turns.other w own]
  · rw [TallyingRelay.refused, TallyingRelay.take took]

theorem passes_retry (s : σ) (way : Way) (now : Tick) : Passes s .nothing (retry s way now) := by
  have idle := LawfulRelay.retry_idle s way now
  refine passes_of_same (fun w => ?_) (TallyingRelay.retry s way now)
  by_cases own : w = way
  · subst own
    rw [idle.own]
  · rw [idle.other w own]

end Relay

namespace Stage

variable {s s' s'' t : Stage} {x : Passing} {now : Tick} {p : Packet} {actions : List Action}

def waiting (s : Stage) : Way → Multiset Packet
  | .request => s.view.requests
  | .response => s.view.answers

def Counts (took : Way → Multiset Packet) : Stage → Prop
  | bridge b => ∀ way, b.tally way = (took way).card
  | device d => ∀ way, d.tally way = (took way).card
  | controller c => c.Took (took .request)
  | memory _ => True

/-- A stage before and after a step in which packets pass through it: a relay holds what it has
taken and not sent on, and what is taken is counted. -/
structure Passes (s : Stage) (x : Passing) (s' : Stage) : Prop where
  forwards : s'.view.frame.forwards = s.view.frame.forwards
  waiting : s.view.frame.forwards = true →
    ∀ way, x.sent way + s'.waiting way = s.waiting way + x.taken way
  counts : ∀ took, s.Counts took → s'.Counts fun way => took way + x.taken way

theorem Passes.refl (s : Stage) : s.Passes .nothing s where
  forwards := rfl
  waiting _ _ := (zero_add _).trans (add_zero _).symm
  counts _ counts := by simpa only [Passing.taken_nothing, add_zero] using counts

theorem Passes.still (h : s.Passes x s') (still : s'.Passes .nothing s'') : s.Passes x s'' where
  forwards := still.forwards.trans h.forwards
  waiting relays way := by
    have same := still.waiting (h.forwards.trans relays) way
    rw [Passing.sent_nothing, Passing.taken_nothing, zero_add, add_zero] at same
    rw [same]
    exact h.waiting relays way
  counts took counts := by
    simpa only [Passing.taken_nothing, add_zero] using still.counts _ (h.counts took counts)

theorem passes_bridge {b b' : Bridge} (h : Relay.Passes b x b') :
    (bridge b).Passes x (bridge b') where
  forwards := rfl
  waiting _ way := by
    cases way with
    | request => exact h.waiting .request
    | response => exact h.waiting .response
  counts took counts way := by
    rw [Multiset.card_add, ← counts way]
    exact h.counted way

theorem passes_device {d d' : Device} (h : Relay.Passes d x d') :
    (device d).Passes x (device d') where
  forwards := rfl
  waiting _ way := by
    cases way with
    | request => exact h.waiting .request
    | response => exact h.waiting .response
  counts took counts way := by
    rw [Multiset.card_add, ← counts way]
    exact h.counted way

theorem passes_controller {c c' : Controller Media} (none : x.taken .request = 0)
    (same : c.SameIntake c') : (controller c).Passes x (controller c') where
  forwards := rfl
  waiting := nofun
  counts took counts := by
    have taken : c'.Took (took .request + x.taken .request) := by
      rw [none, add_zero]
      exact Controller.Took.alike counts same
    exact taken

theorem passes_memory (m m' : SystemMemory) : (memory m).Passes x (memory m') where
  forwards := rfl
  waiting := nofun
  counts _ _ := trivial

theorem passes_recvRequest (reply : s.recvRequest now p = ⟨s', actions, .accepted⟩) :
    s.Passes (.takes .request p) s' := by
  have after : s' = (s.recvRequest now p).stage := by rw [reply]
  have took : (s.recvRequest now p).answer = .accepted := by rw [reply]
  rw [after]
  cases s with
  | bridge b => exact passes_bridge (Relay.passes_offer (s := b) .request took)
  | device d => exact passes_device (Relay.passes_offer (s := d) .request took)
  | controller c =>
    rcases c.recvRequest_intake now p with ⟨refused, -⟩ | ⟨-, takes⟩
    · exact absurd took refused
    · refine ⟨rfl, nofun, fun taken counts => ?_⟩
      have one := Controller.Took.take counts takes
      rw [← Multiset.singleton_add, add_comm] at one
      exact one
  | memory m => exact passes_memory _ _

theorem DeniesRequest.passes (h : DeniesRequest now s s') : s.Passes .nothing s' := by
  cases h with
  | unreserved b => exact passes_bridge (Relay.passes_of_same (fun _ => rfl) rfl)
  | bridge b => exact passes_bridge (Relay.passes_of_same (fun _ => rfl) rfl)
  | device d => exact passes_device (Relay.passes_of_same (fun _ => rfl) rfl)
  | read | write =>
    exact passes_controller rfl ⟨⟨rfl, rfl, rfl, rfl⟩, fun d => by cases d <;> rfl,
      fun d => by cases d <;> rfl⟩

theorem DeniesResponse.passes (h : DeniesResponse s s') : s.Passes .nothing s' := by
  cases h with
  | bridge b => exact .refl _
  | device d => exact passes_device (Relay.passes_of_same (fun _ => rfl) rfl)

theorem passes_recvResponse (reply : s.recvResponse now p = ⟨s', actions, .accepted⟩) :
    s.Passes (.takes .response p) s' := by
  have after : s' = (s.recvResponse now p).stage := by rw [reply]
  have took : (s.recvResponse now p).answer = .accepted := by rw [reply]
  rw [after]
  cases s with
  | bridge b => exact passes_bridge (Relay.passes_offer (s := b) .response took)
  | device d => exact passes_device (Relay.passes_offer (s := d) .response took)
  | controller | memory => cases took

theorem passes_requestSent (took : s.takeRequest now = some (p, t)) :
    s.Passes (.sends .request p) (t.requestSent now).1 := by
  rcases takeRequest_inv took with ⟨b, b', rfl, rfl, taken⟩ | ⟨d, d', rfl, rfl, taken⟩
  · exact passes_bridge (Relay.passes_sent (s := b) .request taken)
  · exact passes_device (Relay.passes_sent (s := d) .request taken)

theorem passes_requestRefused (took : s.takeRequest now = some (p, t)) :
    s.Passes .nothing (t.requestRefused now p) := by
  rcases takeRequest_inv took with ⟨b, b', rfl, rfl, taken⟩ | ⟨d, d', rfl, rfl, taken⟩
  · exact passes_bridge (Relay.passes_refused (s := b) .request taken)
  · exact passes_device (Relay.passes_refused (s := d) .request taken)

theorem sameIntake_takeResponse {c c' : Controller Media}
    (took : c.takeResponse now = some (p, c')) : c.SameIntake c' := by
  obtain ⟨-, r, responses, -, -, -, rfl⟩ := Controller.takeResponse_eq_some took
  exact .of_eq ⟨rfl, rfl, rfl, rfl⟩ rfl rfl rfl

theorem takeResponse_inv (h : s.takeResponse now = some (p, t)) :
    (∃ b b', s = bridge b ∧ t = bridge b' ∧ b.takeResponse now = some (p, b')) ∨
    (∃ d d', s = device d ∧ t = device d' ∧ d.takeResponse now = some (p, d')) ∨
    (∃ c c', s = controller c ∧ t = controller c' ∧ c.takeResponse now = some (p, c')) ∨
    ∃ m m', s = memory m ∧ t = memory m' := by
  cases s with
  | bridge b =>
    obtain ⟨⟨q, b'⟩, taken, eq⟩ := Option.map_eq_some_iff.1 h
    cases eq
    exact .inl ⟨b, b', rfl, rfl, taken⟩
  | device d =>
    obtain ⟨⟨q, d'⟩, taken, eq⟩ := Option.map_eq_some_iff.1 h
    cases eq
    exact .inr (.inl ⟨d, d', rfl, rfl, taken⟩)
  | controller c =>
    obtain ⟨⟨q, c'⟩, taken, eq⟩ := Option.map_eq_some_iff.1 h
    cases eq
    exact .inr (.inr (.inl ⟨c, c', rfl, rfl, taken⟩))
  | memory m =>
    obtain ⟨⟨q, m'⟩, -, eq⟩ := Option.map_eq_some_iff.1 h
    cases eq
    exact .inr (.inr (.inr ⟨m, m', rfl, rfl⟩))

theorem passes_responseSent (took : s.takeResponse now = some (p, t)) :
    s.Passes (.sends .response p) (t.responseSent now).1 := by
  rcases takeResponse_inv took with ⟨b, b', rfl, rfl, taken⟩ | ⟨d, d', rfl, rfl, taken⟩ |
    ⟨c, c', rfl, rfl, taken⟩ | ⟨m, m', rfl, rfl⟩
  · exact passes_bridge (Relay.passes_sent (s := b) .response taken)
  · exact passes_device (Relay.passes_sent (s := d) .response taken)
  · refine passes_controller rfl ((sameIntake_takeResponse taken).trans ?_)
    exact .of_eq ⟨rfl, rfl, rfl, rfl⟩ rfl rfl rfl
  · exact passes_memory _ _

theorem passes_responseRefused (took : s.takeResponse now = some (p, t)) :
    s.Passes .nothing (t.responseRefused now p) := by
  rcases takeResponse_inv took with ⟨b, b', rfl, rfl, taken⟩ | ⟨d, d', rfl, rfl, taken⟩ |
    ⟨c, c', rfl, rfl, taken⟩ | ⟨m, m', rfl, rfl⟩
  · exact passes_bridge (Relay.passes_refused (s := b) .response taken)
  · exact passes_device (Relay.passes_refused (s := d) .response taken)
  · refine passes_controller rfl ((sameIntake_takeResponse taken).trans ?_)
    exact .of_eq ⟨rfl, rfl, rfl, rfl⟩ rfl rfl rfl
  · exact passes_memory _ _

theorem passes_recvRequestRetry (s : Stage) (now : Tick) :
    s.Passes .nothing (s.recvRequestRetry now).1 := by
  cases s with
  | bridge b => exact passes_bridge (Relay.passes_retry b .request now)
  | device d => exact passes_device (Relay.passes_retry d .request now)
  | controller | memory => exact .refl _

theorem passes_recvResponseRetry (s : Stage) (now : Tick) :
    s.Passes .nothing (s.recvResponseRetry now).1 := by
  cases s with
  | bridge b => exact passes_bridge (Relay.passes_retry b .response now)
  | device d => exact passes_device (Relay.passes_retry d .response now)
  | controller c =>
    exact passes_controller rfl (.of_eq ⟨rfl, rfl, rfl, rfl⟩ rfl rfl rfl)
  | memory m => exact passes_memory _ _

theorem passes_process (now : Tick) (orderly : ∀ c, s = controller c → c.Orderly) :
    s.Passes .nothing (s.process now).1 := by
  cases s with
  | controller c =>
    exact passes_controller rfl (Controller.sameIntake_process (orderly c rfl) now)
  | bridge | device | memory => exact .refl _

theorem passes_accessAtomic (s : Stage) (p : Packet) :
    s.Passes .nothing (s.accessAtomic p).2.2 := by
  cases s with
  | controller c => exact passes_controller rfl (c.sameIntake_accessAtomic p)
  | memory m => exact passes_memory _ _
  | bridge | device => exact .refl _

theorem passes_withStore (s : Stage) (store : Store) : s.Passes .nothing (s.withStore store) := by
  cases s with
  | controller c =>
    exact passes_controller rfl (.of_eq ⟨rfl, rfl, rfl, rfl⟩ rfl rfl rfl)
  | memory m => exact passes_memory _ _
  | bridge | device => exact .refl _

end Stage

end Expander
