import Mathlib.Logic.Function.Basic
import Expander.Proofs.Stage.Bridge
import Expander.Proofs.Stage.Device

/-!
What bridge and device have in common.

A relay hands packets on in two ways: requests towards the memory, responses towards the host. Each
way has a queue of its own, which only the calls of that way change: an offered packet is marked and
joins the end with the tick from which it may leave, and a packet that was taken and refused goes
back in front, where it waits for a retry (`LawfulRelay`).
-/

set_option autoImplicit false

namespace Expander

/-- A way through a relay. -/
inductive Way where
  /-- Towards the memory. -/
  | request
  /-- Towards the host. -/
  | response
deriving DecidableEq, Repr

namespace Way

variable {P : Way → Prop}

theorem forall_ne_request : (∀ way, way ≠ request → P way) ↔ P response :=
  ⟨fun all => all _ nofun, fun holds way ne => by cases way with
    | request => exact absurd rfl ne
    | response => exact holds⟩

theorem forall_ne_response : (∀ way, way ≠ response → P way) ↔ P request :=
  ⟨fun all => all _ nofun, fun holds way ne => by cases way with
    | request => exact holds
    | response => exact absurd rfl ne⟩

end Way

/-- What a relay does to the packets of one way. -/
structure Passage where
  /-- What leaves for a packet that was offered. -/
  mark : Packet → Packet
  /-- The delay of a packet to an address. -/
  delay : Nat → Tick
  /-- The number of packets that wait at most. -/
  depth : Nat

/-- A stage that hands packets on, request by request and response by response. -/
class Relay (σ : Type) where
  queue : σ → Way → PacketQueue
  /-- Whether the head waits for a retry of the peer that refused it. -/
  waits : σ → Way → Bool
  passage : σ → Way → Passage
  /-- A peer offers a packet. -/
  offer : σ → Way → Tick → Packet → Reply σ Delivery
  /-- The head leaves, if it is ready. -/
  take : σ → Way → Tick → Option (Packet × σ)
  /-- The other peer has accepted the packet that was taken. -/
  sent : σ → Way → Tick → σ
  /-- The other peer has handed the packet back that was taken. -/
  refused : σ → Way → Tick → Packet → σ
  /-- The other peer has room again. -/
  retry : σ → Way → Tick → σ

namespace Relay

variable {σ : Type} [Relay σ]

/-- The queue of one way is `q` now, and its head waits for a retry or not; the other way and the
settings are what they were. -/
structure Turns (s : σ) (way : Way) (q : PacketQueue) (waiting : Bool) (s' : σ) : Prop where
  own : queue s' way = q
  other : ∀ w, w ≠ way → queue s' w = queue s w
  waits : waits s' = Function.update (waits s) way waiting
  passage : passage s' = passage s

theorem Turns.of_waits {s s' : σ} {way : Way} {q : PacketQueue} (own : queue s' way = q)
    (other : ∀ w, w ≠ way → queue s' w = queue s w) (same : Relay.waits s' = Relay.waits s)
    (settings : Relay.passage s' = Relay.passage s) : Turns s way q (Relay.waits s way) s' :=
  ⟨own, other, same.trans (Function.update_eq_self way _).symm, settings⟩

end Relay

open Relay in
/-- A relay whose calls do to the queues what their names say. -/
class LawfulRelay (σ : Type) [Relay σ] : Prop where
  /-- A packet keeps all but its message class and the transport that it is charged for. -/
  unaltered (s : σ) (way : Way) (p : Packet) : (passage s way).mark p =
    { p with link := ((passage s way).mark p).link, headerDelay := 0 }
  offer_cases (s : σ) (way : Way) (now : Tick) (p : Packet) :
    ((offer s way now p).answer ≠ .accepted ∧
      Turns s way (queue s way) (waits s way) (offer s way now p).stage) ∨
    ((offer s way now p).answer = .accepted ∧
      ∃ q, (queue s way).push? ((passage s way).mark p)
          (now + p.headerDelay + (passage s way).delay p.addr) = some q ∧
        Turns s way q (waits s way) (offer s way now p).stage)
  /-- A head that is ready leaves unless it waits for a retry. -/
  take_eq_some (s : σ) (way : Way) (now : Tick) (p : Packet) :
    (∃ s', take s way now = some (p, s')) ↔
      waits s way = false ∧ ∃ q, (queue s way).popReady? now = some (p, q)
  take_some {s s' : σ} {way : Way} {now : Tick} {p : Packet}
    (taken : take s way now = some (p, s')) :
    ∃ q, (queue s way).popReady? now = some (p, q) ∧ Turns s way q (waits s way) s'
  sent_idle (s : σ) (way : Way) (now : Tick) :
    Turns s way (queue s way) (waits s way) (sent s way now)
  refused_front (s : σ) (way : Way) (now : Tick) (p : Packet) :
    Turns s way ((queue s way).pushFront p now) true (refused s way now p)
  retry_idle (s : σ) (way : Way) (now : Tick) :
    Turns s way (queue s way) false (retry s way now)

namespace Bridge

def queue (b : Bridge) : Way → PacketQueue
  | .request => b.requests
  | .response => b.responses

def waits (b : Bridge) : Way → Bool
  | .request => b.awaitingRequestRetry
  | .response => b.awaitingResponseRetry

def passage (b : Bridge) : Way → Passage
  | .request => ⟨fun p => b.tag p.chargeHeader, b.delayFor, b.config.requestDepth⟩
  | .response => ⟨Packet.chargeHeader, b.delayFor, b.config.responseDepth⟩

instance : Relay Bridge where
  queue := queue
  waits := waits
  passage := passage
  offer b
    | .request => b.recvRequest
    | .response => b.recvResponse
  take b
    | .request => b.takeRequest
    | .response => b.takeResponse
  sent b
    | .request => fun now => (b.requestSent now).1
    | .response => fun now => (b.responseSent now).1
  refused b
    | .request => b.requestRefused
    | .response => b.responseRefused
  retry b
    | .request => fun now => (b.recvRequestRetry now).1
    | .response => fun now => (b.recvResponseRetry now).1

variable {b : Bridge} {now : Tick} {p : Packet}

instance : LawfulRelay Bridge where
  unaltered b way p := by
    cases way with
    | request =>
      simp only [Relay.passage, passage, tag]
      split <;> rfl
    | response => rfl
  offer_cases b way now p := by
    cases way with
    | request =>
      simp only [Relay.offer]
      rcases b.recvRequest_cases now p with ⟨-, eq⟩ | ⟨-, -, counters, eq⟩ |
        ⟨-, -, requests, counters, pushed, eq⟩ <;> rw [eq]
      · exact .inl ⟨nofun, .of_waits rfl (fun _ _ => rfl) rfl rfl⟩
      · exact .inl ⟨nofun, .of_waits rfl (fun _ _ => rfl) rfl rfl⟩
      · exact .inr ⟨rfl, requests, pushed, .of_waits rfl (Way.forall_ne_request.2 rfl) rfl rfl⟩
    | response =>
      simp only [Relay.offer]
      rcases b.recvResponse_cases now p with ⟨-, eq⟩ | ⟨responses, counters, pushed, eq⟩ <;>
        rw [eq]
      · exact .inl ⟨nofun, .of_waits rfl (fun _ _ => rfl) rfl rfl⟩
      · exact .inr ⟨rfl, responses, pushed, .of_waits rfl (Way.forall_ne_response.2 rfl) rfl rfl⟩
  take_eq_some b way now p := by
    cases way with
    | request =>
      cases waiting : b.awaitingRequestRetry <;>
        simp [Relay.take, Relay.waits, Relay.queue, queue, waits, takeRequest, waiting]
    | response =>
      cases waiting : b.awaitingResponseRetry <;>
        simp [Relay.take, Relay.waits, Relay.queue, queue, waits, takeResponse, waiting]
  take_some {b b' way now p} taken := by
    cases way with
    | request =>
      obtain ⟨-, requests, popped, rfl⟩ := takeRequest_eq_some taken
      exact ⟨requests, popped, .of_waits rfl (Way.forall_ne_request.2 rfl) rfl rfl⟩
    | response =>
      obtain ⟨-, responses, popped, rfl⟩ := takeResponse_eq_some taken
      exact ⟨responses, popped, .of_waits rfl (Way.forall_ne_response.2 rfl) rfl rfl⟩
  sent_idle b way now := by
    cases way with
    | request =>
      simp only [Relay.sent, requestSent, retryIfRoom_eq]
      exact .of_waits rfl (fun _ _ => rfl) rfl rfl
    | response =>
      simp only [Relay.sent, responseSent, retryIfRoom_eq]
      exact .of_waits rfl (fun _ _ => rfl) rfl rfl
  refused_front b way now p := by
    cases way with
    | request =>
      exact ⟨rfl, Way.forall_ne_request.2 rfl, funext fun w => by cases w <;> rfl, rfl⟩
    | response =>
      exact ⟨rfl, Way.forall_ne_response.2 rfl, funext fun w => by cases w <;> rfl, rfl⟩
  retry_idle b way now := by
    cases way <;> exact ⟨rfl, fun _ _ => rfl, funext fun w => by cases w <;> rfl, rfl⟩

end Bridge

namespace Device

def queue (d : Device) : Way → PacketQueue
  | .request => d.requests
  | .response => d.responses

def waits (d : Device) : Way → Bool
  | .request => d.awaitingRequestRetry
  | .response => d.awaitingResponseRetry

def passage (d : Device) : Way → Passage
  | .request => ⟨fun p => tagRequest p.chargeHeader, fun _ => d.config.protocolLatency,
      d.config.requestSize⟩
  | .response => ⟨fun p => tagResponse p.chargeHeader, fun _ => d.config.protocolLatency,
      d.config.responseSize⟩

instance : Relay Device where
  queue := queue
  waits := waits
  passage := passage
  offer d
    | .request => d.recvRequest
    | .response => d.recvResponse
  take d
    | .request => d.takeRequest
    | .response => d.takeResponse
  sent d
    | .request => fun now => (d.requestSent now).1
    | .response => fun now => (d.responseSent now).1
  refused d
    | .request => d.requestRefused
    | .response => d.responseRefused
  retry d
    | .request => fun now => (d.recvRequestRetry now).1
    | .response => fun now => (d.recvResponseRetry now).1

variable {d : Device} {now : Tick} {p : Packet}

instance : LawfulRelay Device where
  unaltered d way p := by
    cases way with
    | request =>
      simp only [Relay.passage, passage, tagRequest]
      split <;> rfl
    | response => rfl
  offer_cases d way now p := by
    cases way with
    | request =>
      simp only [Relay.offer]
      rcases d.recvRequest_cases now p with ⟨-, eq⟩ | ⟨-, -, counters, eq⟩ |
        ⟨-, requests, counters, pushed, eq⟩ <;> rw [eq]
      · exact .inl ⟨nofun, .of_waits rfl (fun _ _ => rfl) rfl rfl⟩
      · exact .inl ⟨nofun, .of_waits rfl (fun _ _ => rfl) rfl rfl⟩
      · exact .inr ⟨rfl, requests, pushed, .of_waits rfl (Way.forall_ne_request.2 rfl) rfl rfl⟩
    | response =>
      simp only [Relay.offer]
      rcases d.recvResponse_cases now p with ⟨-, counters, eq⟩ |
        ⟨responses, counters, pushed, eq⟩ <;> rw [eq]
      · exact .inl ⟨nofun, .of_waits rfl (fun _ _ => rfl) rfl rfl⟩
      · exact .inr ⟨rfl, responses, pushed, .of_waits rfl (Way.forall_ne_response.2 rfl) rfl rfl⟩
  take_eq_some d way now p := by
    cases way with
    | request =>
      cases waiting : d.awaitingRequestRetry <;>
        simp [Relay.take, Relay.waits, Relay.queue, queue, waits, takeRequest, waiting]
    | response =>
      cases waiting : d.awaitingResponseRetry <;>
        simp [Relay.take, Relay.waits, Relay.queue, queue, waits, takeResponse, waiting]
  take_some {d d' way now p} taken := by
    cases way with
    | request =>
      obtain ⟨-, requests, popped, rfl⟩ := takeRequest_eq_some taken
      exact ⟨requests, popped, .of_waits rfl (Way.forall_ne_request.2 rfl) rfl rfl⟩
    | response =>
      obtain ⟨-, responses, popped, rfl⟩ := takeResponse_eq_some taken
      exact ⟨responses, popped, .of_waits rfl (Way.forall_ne_response.2 rfl) rfl rfl⟩
  sent_idle d way now := by
    cases way <;> exact .of_waits rfl (fun _ _ => rfl) rfl rfl
  refused_front d way now p := by
    cases way with
    | request =>
      exact ⟨rfl, Way.forall_ne_request.2 rfl, funext fun w => by cases w <;> rfl, rfl⟩
    | response =>
      exact ⟨rfl, Way.forall_ne_response.2 rfl, funext fun w => by cases w <;> rfl, rfl⟩
  retry_idle d way now := by
    cases way <;> exact ⟨rfl, fun _ _ => rfl, funext fun w => by cases w <;> rfl, rfl⟩

end Device

end Expander
