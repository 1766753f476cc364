import Expander.Proofs.Stage.Bridge
import Expander.Proofs.Stage.Device
import Expander.Proofs.Stage.Rounds
import Expander.Proofs.Stage.SystemMemory

/-!
The contract of a stage.

A sound and armed stage yields a sound and armed stage with every call, and the view after the call
is the one that the call is meant to give, up to the retries that it redeems (`Yields`). What is
said of the four kinds of stages one by one is said here of all of them, and only this is used of
them from here on.
-/

set_option autoImplicit false

namespace Expander

namespace Stage

def Sound : Stage → Prop
  | bridge b => b.Sound
  | device d => d.Sound
  | controller c => c.Sound
  | memory m => m.Sound

def Armed (now : Tick) (due : Wakeup → Prop) : Stage → Prop
  | bridge b => b.Armed now due
  | device d => d.Armed now due
  | controller c => c.Armed now due
  | memory m => m.Armed now due

/-- A call leaves a sound and armed stage behind, with the view `v` but for the retries redeemed. -/
structure Yields (now : Tick) (due : Wakeup → Prop) (v : StageView) (r : Stage × List Action) :
    Prop where
  view : r.1.view = v.redeem r.2
  sound : r.1.Sound
  armed : r.1.Armed now fun w => due w ∨ Called now r.2 w

variable {s s' : Stage} {now next : Tick} {due due' : Wakeup → Prop} {p q : Packet}

theorem Armed.mono (h : s.Armed now due) (sub : ∀ w, due w → due' w) : s.Armed now due' := by
  cases s with
  | bridge b => exact Bridge.Armed.mono h sub
  | device d => exact Device.Armed.mono h sub
  | controller c => exact Controller.Armed.mono h sub
  | memory m => exact SystemMemory.Armed.mono h sub

theorem Armed.later (h : s.Armed now due) (le : now ≤ next) (ahead : ∀ w, due w → next ≤ w.tick) :
    s.Armed next due := by
  cases s with
  | bridge b => exact Bridge.Armed.later h le ahead
  | device d => exact Device.Armed.later h le ahead
  | controller c => exact Controller.Armed.later h le ahead
  | memory m => exact SystemMemory.Armed.later h le ahead

theorem yields_of_armed (sound : s.Sound) (armed : s.Armed now due) :
    Yields now due s.view (s, []) :=
  ⟨(StageView.redeem_of_onlyWakes _ .nil).symm, sound, armed.mono fun _ => .inl⟩

theorem Yields.mono {v : StageView} {r : Stage × List Action} (h : Yields now due v r)
    (sub : ∀ w, due w → due' w) : Yields now due' v r :=
  ⟨h.view, h.sound, h.armed.mono fun w => Or.imp_left (sub w)⟩

theorem Yields.of_onlyWakes {v : StageView} {r : Stage × List Action} (wakes : OnlyWakes r.2)
    (view : r.1.view = v) (sound : r.1.Sound)
    (armed : r.1.Armed now fun w => due w ∨ Called now r.2 w) : Yields now due v r :=
  ⟨view.trans (StageView.redeem_of_onlyWakes v wakes).symm, sound, armed⟩

theorem Yields.view_of_onlyWakes {v : StageView} {r : Stage × List Action} (h : Yields now due v r)
    (wakes : OnlyWakes r.2) : r.1.view = v :=
  h.view.trans (StageView.redeem_of_onlyWakes v wakes)

/-- The three outcomes of offering a request: the stage does not serve it, or it has no room, or it
takes the request. -/
def Offered (now : Tick) (due : Wakeup → Prop) (s : Stage) (p : Packet)
    (reply : Reply Stage Delivery) : Prop :=
  (s.view.frame.serves p.addr p.size = false ∧ reply = ⟨s, [], .unroutable p⟩) ∨
  (s.view.frame.serves p.addr p.size = true ∧ ∃ refused,
    Yields now due { s.view with owesRequest := true } (refused, []) ∧
    reply = ⟨refused, [], .busy p⟩) ∨
  (s.view.frame.serves p.addr p.size = true ∧ ∃ taken actions,
    Yields now due (s.view.receive p) (taken, actions) ∧ OnlyWakes actions ∧
    reply = ⟨taken, actions, .accepted⟩)

private theorem offered_bridge {b : Bridge} (sound : b.Sound) (armed : b.Armed now due) :
    Offered now due (bridge b) p ((bridge b).recvRequest now p) := by
  have armed' := Bridge.armed_recvRequest (p := p) armed
  have sound' : (b.recvRequest now p).stage.Sound := Bridge.sound_recvRequest sound
  rcases Bridge.recvRequest_cases b now p with ⟨unserved, eq⟩ | ⟨serves, -, counters, eq⟩ |
    ⟨serves, -, requests, counters, pushed, eq⟩
  · exact .inl ⟨unserved, congrArg (Reply.map bridge) eq⟩
  · rw [eq] at armed' sound'
    have yields : Yields now due { b.view with owesRequest := true }
        (bridge { b with retryOwed := true, counters }, []) :=
      .of_onlyWakes .nil rfl sound' armed'
    exact .inr (.inl ⟨serves, _, yields, congrArg (Reply.map bridge) eq⟩)
  · rw [eq] at armed' sound'
    have view : Bridge.view { b with requests, reserved := b.reserved + 1, counters } =
        b.view.receive p := by
      simp only [Bridge.view, StageView.receive, StageFrame.held?, StageFrame.reserves,
        PacketQueue.packets_push pushed, PacketQueue.capacity_push pushed, Bridge.bare_tag,
        Packet.bare_chargeHeader]
      rfl
    have wakes (ready : Tick) : OnlyWakes (Bridge.wakeFirst b.requests b.awaitingRequestRetry
        ready .sendRequest) := .ite _ _
    have yields : Yields now due (b.view.receive p)
        (bridge { b with requests, reserved := b.reserved + 1, counters }, _) :=
      .of_onlyWakes (wakes _) view sound' armed'
    exact .inr (.inr ⟨serves, _, _, yields, wakes _, congrArg (Reply.map bridge) eq⟩)

private theorem offered_device {d : Device} (sound : d.Sound) (armed : d.Armed now due) :
    Offered now due (device d) p ((device d).recvRequest now p) := by
  have armed' := Device.armed_recvRequest (p := p) armed
  have sound' : (d.recvRequest now p).stage.Sound := Device.sound_recvRequest sound
  rcases Device.recvRequest_cases d now p with ⟨unserved, eq⟩ | ⟨serves, -, counters, eq⟩ |
    ⟨serves, requests, counters, pushed, eq⟩
  · exact .inl ⟨unserved, congrArg (Reply.map device) eq⟩
  · rw [eq] at armed' sound'
    have yields : Yields now due { d.view with owesRequest := true }
        (device { d with requestRetryOwed := true, counters }, []) :=
      .of_onlyWakes .nil rfl sound' armed'
    exact .inr (.inl ⟨serves, _, yields, congrArg (Reply.map device) eq⟩)
  · rw [eq] at armed' sound'
    have view : Device.view { d with requests, counters } = d.view.receive p := by
      simp only [Device.view, StageView.receive, StageFrame.held?, StageFrame.reserves,
        PacketQueue.packets_push pushed, PacketQueue.capacity_push pushed, Device.bare_tagRequest,
        Packet.bare_chargeHeader]
      rfl
    have yields : Yields now due (d.view.receive p) (device { d with requests, counters }, _) :=
      .of_onlyWakes (.ite _ _) view sound' armed'
    exact .inr (.inr ⟨serves, _, _, yields, .ite _ _, congrArg (Reply.map device) eq⟩)

private theorem offered_controller {c : Controller Media} (sound : c.Sound)
    (armed : c.Armed now due) (fresh : ∀ q ∈ c.answers, q.id ≠ p.id) :
    Offered now due (controller c) p ((controller c).recvRequest now p) := by
  have unfiled : p.id ∉ c.pending.map (·.1) := by
    intro mem
    obtain ⟨entry, entryMem, key⟩ := List.mem_map.1 mem
    have answer : entry.2.packet.bare ∈ c.answers :=
      Multiset.mem_add.2 (.inl (Multiset.mem_coe.2 (List.mem_map.2 ⟨entry, entryMem, rfl⟩)))
    exact fresh _ answer ((sound.reads.keyed entry entryMem).symm.trans key)
  have armed' := Controller.armed_recvRequest (p := p) armed
  have sound' : (c.recvRequest now p).stage.Sound := Controller.sound_recvRequest sound unfiled
  rcases Controller.recvRequest_cases c now p unfiled with ⟨unserved, eq⟩ |
    ⟨serves, refused, view, eq⟩ | ⟨serves, taken, actions, view, wakes, eq⟩
  · exact .inl ⟨unserved, congrArg (Reply.map controller) eq⟩
  · rw [eq] at armed' sound'
    have yields : Yields now due { c.view with owesRequest := true } (controller refused, []) :=
      .of_onlyWakes .nil view sound' armed'
    exact .inr (.inl ⟨serves, _, yields, congrArg (Reply.map controller) eq⟩)
  · rw [eq] at armed' sound'
    have yields : Yields now due (c.view.receive p) (controller taken, actions) :=
      .of_onlyWakes wakes view sound' armed'
    exact .inr (.inr ⟨serves, _, _, yields, wakes, congrArg (Reply.map controller) eq⟩)

private theorem offered_memory {m : SystemMemory} (sound : m.Sound) (armed : m.Armed now due) :
    Offered now due (memory m) p ((memory m).recvRequest now p) := by
  have armed' := SystemMemory.armed_recvRequest (p := p) sound armed
  have sound' : (m.recvRequest now p).stage.Sound := SystemMemory.sound_recvRequest sound
  rcases SystemMemory.recvRequest_cases sound now p with ⟨unserved, eq⟩ |
    ⟨serves, ready, responses, pushed, eq⟩
  · exact .inl ⟨unserved, congrArg (Reply.map memory) eq⟩
  · have view : (m.recvRequest now p).stage.view = m.view.receive p :=
      SystemMemory.view_recvRequest serves sound
    rw [eq] at armed' sound' view
    have yields : Yields now due (m.view.receive p) (memory _, _) :=
      .of_onlyWakes (.singleton _ _) view sound' armed'
    exact .inr (.inr ⟨serves, _, _, yields, .singleton _ _, congrArg (Reply.map memory) eq⟩)

theorem offered_recvRequest (sound : s.Sound) (armed : s.Armed now due)
    (fresh : ∀ q ∈ s.view.answers, q.id ≠ p.id) : Offered now due s p (s.recvRequest now p) := by
  cases s with
  | bridge b => exact offered_bridge sound armed
  | device d => exact offered_device sound armed
  | controller c => exact offered_controller sound armed fresh
  | memory m => exact offered_memory sound armed

theorem takeRequest_inv (h : s.takeRequest now = some (p, s')) :
    (∃ b b', s = bridge b ∧ s' = bridge b' ∧ b.takeRequest now = some (p, b')) ∨
    (∃ d d', s = device d ∧ s' = device d' ∧ d.takeRequest now = some (p, d')) := by
  cases s with
  | bridge b =>
    obtain ⟨⟨q, b'⟩, taken, eq⟩ := Option.map_eq_some_iff.1 h
    cases eq
    exact .inl ⟨b, b', rfl, rfl, taken⟩
  | device d =>
    obtain ⟨⟨q, d'⟩, taken, eq⟩ := Option.map_eq_some_iff.1 h
    cases eq
    exact .inr ⟨d, d', rfl, rfl, taken⟩
  | controller c => cases h
  | memory m => cases h

theorem view_takeRequest (h : s.takeRequest now = some (p, s')) :
    s.view.awaitsRequest = false ∧
      s.view = { s'.view with requests := p.bare :: s'.view.requests } := by
  rcases takeRequest_inv h with ⟨b, b', rfl, rfl, taken⟩ | ⟨d, d', rfl, rfl, taken⟩
  · exact Bridge.view_takeRequest taken
  · exact Device.view_takeRequest taken

theorem armed_ending (ending : s.view.frame.forwards = false)
    (armed : s.Armed now fun w => w = ⟨now, .sendRequest⟩ ∨ due w) : s.Armed now due := by
  cases s with
  | bridge b => cases ending
  | device d => cases ending
  | controller c => exact Controller.Armed.ignore_sendRequest armed
  | memory m => exact ⟨armed.responses.ignore nofun⟩

theorem armed_takeRequest_none (h : s.takeRequest now = none)
    (armed : s.Armed now fun w => w = ⟨now, .sendRequest⟩ ∨ due w) : s.Armed now due := by
  cases s with
  | bridge b => exact Bridge.armed_takeRequest_none (Option.map_eq_none_iff.1 h) armed
  | device d => exact Device.armed_takeRequest_none (Option.map_eq_none_iff.1 h) armed
  | controller c => exact armed_ending rfl armed
  | memory m => exact armed_ending rfl armed

theorem yields_requestSent (h : s.takeRequest now = some (p, s')) (sound : s.Sound)
    (armed : s.Armed now fun w => w = ⟨now, .sendRequest⟩ ∨ due w) :
    Yields now due s'.view (s'.requestSent now) := by
  rcases takeRequest_inv h with ⟨b, b', rfl, rfl, taken⟩ | ⟨d, d', rfl, rfl, taken⟩
  · exact ⟨Bridge.view_requestSent b' now, Bridge.sound_requestSent taken sound,
      Bridge.armed_requestSent taken armed⟩
  · exact ⟨Device.view_requestSent d' now, Device.sound_requestSent taken sound,
      Device.armed_requestSent taken armed⟩

theorem yields_requestRefused (h : s.takeRequest now = some (p, s')) (sound : s.Sound)
    (armed : s.Armed now fun w => w = ⟨now, .sendRequest⟩ ∨ due w) (q : Packet) :
    Yields now due
      { s'.view with requests := q.bare :: s'.view.requests, awaitsRequest := true }
      (s'.requestRefused now q, []) := by
  rcases takeRequest_inv h with ⟨b, b', rfl, rfl, taken⟩ | ⟨d, d', rfl, rfl, taken⟩
  · exact .of_onlyWakes .nil rfl (Bridge.sound_requestRefused taken sound)
      ((Bridge.armed_requestRefused taken armed).mono fun _ => .inl)
  · exact .of_onlyWakes .nil rfl (Device.sound_requestRefused taken sound)
      ((Device.armed_requestRefused taken armed).mono fun _ => .inl)

theorem yields_recvRequestRetry (sound : s.Sound) (armed : s.Armed now due) :
    Yields now due { s.view with awaitsRequest := false }
      ((s.recvRequestRetry now).1, (s.recvRequestRetry now).2.map .wake) := by
  cases s with
  | bridge b =>
    exact .of_onlyWakes (.map_wake _) rfl (Bridge.sound_recvRequestRetry sound)
      (Bridge.armed_recvRequestRetry armed)
  | device d =>
    exact .of_onlyWakes (.map_wake _) rfl (Device.sound_recvRequestRetry sound)
      (Device.armed_recvRequestRetry armed)
  | controller c => exact yields_of_armed sound armed
  | memory m => exact yields_of_armed sound armed

def OfferedBack (now : Tick) (due : Wakeup → Prop) (s : Stage) (p : Packet)
    (reply : Reply Stage Delivery) : Prop :=
  (∃ refused, Yields now due { s.view with owesResponse := true } (refused, []) ∧
    reply = ⟨refused, [], .busy p⟩) ∨
  (∃ taken actions,
    Yields now due { s.view with answers := p.bare ::ₘ s.view.answers } (taken, actions) ∧
    OnlyWakes actions ∧ reply = ⟨taken, actions, .accepted⟩)

private theorem offeredBack_bridge {b : Bridge} (room : b.responses.isFull = false)
    (sound : b.Sound) (armed : b.Armed now due) :
    OfferedBack now due (bridge b) p ((bridge b).recvResponse now p) := by
  have armed' := Bridge.armed_recvResponse (p := p) armed
  have sound' : (b.recvResponse now p).stage.Sound := Bridge.sound_recvResponse sound
  rcases Bridge.recvResponse_cases b now p with ⟨full, -⟩ | ⟨responses, counters, pushed, eq⟩
  · simp [room] at full
  · rw [eq] at armed' sound'
    have view : Bridge.view { b with responses, lastResponse := some now, counters } =
        { b.view with answers := p.bare ::ₘ b.view.answers } := by
      simp only [Bridge.view, PacketQueue.packets_push pushed, PacketQueue.capacity_push pushed,
        coe_append_singleton, Packet.bare_chargeHeader]
    have wakes (ready : Tick) : OnlyWakes (Bridge.wakeFirst b.responses b.awaitingResponseRetry
        ready .sendResponse) := .ite _ _
    have yields : Yields now due { b.view with answers := p.bare ::ₘ b.view.answers }
        (bridge { b with responses, lastResponse := some now, counters }, _) :=
      .of_onlyWakes (wakes _) view sound' armed'
    exact .inr ⟨_, _, yields, wakes _, congrArg (Reply.map bridge) eq⟩

private theorem offeredBack_device {d : Device} (sound : d.Sound) (armed : d.Armed now due) :
    OfferedBack now due (device d) p ((device d).recvResponse now p) := by
  have armed' := Device.armed_recvResponse (p := p) armed
  have sound' : (d.recvResponse now p).stage.Sound := Device.sound_recvResponse sound
  rcases Device.recvResponse_cases d now p with ⟨-, counters, eq⟩ |
    ⟨responses, counters, pushed, eq⟩
  · rw [eq] at armed' sound'
    have yields : Yields now due { d.view with owesResponse := true }
        (device { d with responseRetryOwed := true, counters }, []) :=
      .of_onlyWakes .nil rfl sound' armed'
    exact .inl ⟨_, yields, congrArg (Reply.map device) eq⟩
  · rw [eq] at armed' sound'
    have view : Device.view { d with responses, counters } =
        { d.view with answers := p.bare ::ₘ d.view.answers } := by
      simp only [Device.view, PacketQueue.packets_push pushed, PacketQueue.capacity_push pushed,
        coe_append_singleton, Device.bare_tagResponse, Packet.bare_chargeHeader]
    have yields : Yields now due { d.view with answers := p.bare ::ₘ d.view.answers }
        (device { d with responses, counters }, _) := .of_onlyWakes (.ite _ _) view sound' armed'
    exact .inr ⟨_, _, yields, .ite _ _, congrArg (Reply.map device) eq⟩

theorem offeredBack_recvResponse (forwards : s.view.frame.forwards = true)
    (room : ∀ b, s = bridge b → b.responses.isFull = false) (sound : s.Sound)
    (armed : s.Armed now due) : OfferedBack now due s p (s.recvResponse now p) := by
  cases s with
  | bridge b => exact offeredBack_bridge (room b rfl) sound armed
  | device d => exact offeredBack_device sound armed
  | controller c => cases forwards
  | memory m => cases forwards

theorem view_takeResponse (h : s.takeResponse now = some (p, s')) :
    s.view.awaitsResponse = false ∧
      s.view = { s'.view with answers := p.bare ::ₘ s'.view.answers } := by
  cases s <;> obtain ⟨⟨q, taken⟩, some, eq⟩ := Option.map_eq_some_iff.1 h <;> cases eq
  · exact Bridge.view_takeResponse some
  · exact Device.view_takeResponse some
  · exact Controller.view_takeResponse some
  · exact SystemMemory.view_takeResponse some

theorem armed_takeResponse_none (sound : s.Sound) (h : s.takeResponse now = none)
    (armed : s.Armed now fun w => w = ⟨now, .sendResponse⟩ ∨ due w) : s.Armed now due := by
  cases s with
  | bridge b => exact Bridge.armed_takeResponse_none (Option.map_eq_none_iff.1 h) armed
  | device d => exact Device.armed_takeResponse_none (Option.map_eq_none_iff.1 h) armed
  | controller c =>
    exact Controller.armed_takeResponse_none sound (Option.map_eq_none_iff.1 h) armed
  | memory m => exact SystemMemory.armed_takeResponse_none (Option.map_eq_none_iff.1 h) armed

theorem yields_responseSent (h : s.takeResponse now = some (p, s')) (sound : s.Sound)
    (armed : s.Armed now fun w => w = ⟨now, .sendResponse⟩ ∨ due w) :
    Yields now due
      { s'.view with reserved := s'.view.reserved - if s'.view.frame.reserves then 1 else 0 }
      (s'.responseSent now) := by
  cases s <;> obtain ⟨⟨q, taken⟩, some, eq⟩ := Option.map_eq_some_iff.1 h <;> cases eq
  · exact ⟨Bridge.view_responseSent taken now, Bridge.sound_responseSent some sound,
      Bridge.armed_responseSent some armed⟩
  · exact ⟨Device.view_responseSent taken now, Device.sound_responseSent some sound,
      Device.armed_responseSent some armed⟩
  · exact ⟨Controller.view_responseSent taken now, Controller.sound_responseSent sound some,
      Controller.armed_responseSent sound some armed⟩
  · exact .of_onlyWakes (.map_wake _) rfl (SystemMemory.sound_takeResponse some sound)
      SystemMemory.armed_responseSent

theorem yields_responseRefused (h : s.takeResponse now = some (p, s')) (sound : s.Sound)
    (armed : s.Armed now fun w => w = ⟨now, .sendResponse⟩ ∨ due w) (q : Packet) :
    Yields now due
      { s'.view with answers := q.bare ::ₘ s'.view.answers, awaitsResponse := true }
      (s'.responseRefused now q, []) := by
  cases s <;> obtain ⟨⟨q', taken⟩, some, eq⟩ := Option.map_eq_some_iff.1 h <;> cases eq
  · exact .of_onlyWakes .nil rfl (Bridge.sound_responseRefused some sound)
      ((Bridge.armed_responseRefused some armed).mono fun _ => .inl)
  · exact .of_onlyWakes .nil rfl (Device.sound_responseRefused some sound)
      ((Device.armed_responseRefused some armed).mono fun _ => .inl)
  · exact .of_onlyWakes .nil (Controller.view_responseRefused taken now q)
      (Controller.sound_responseRefused sound some)
      ((Controller.armed_responseRefused some armed).mono fun _ => .inl)
  · exact .of_onlyWakes .nil rfl (SystemMemory.sound_responseRefused some sound) ⟨roused_awaiting⟩

theorem yields_recvResponseRetry (inner : ∀ m, s ≠ memory m) (sound : s.Sound)
    (armed : s.Armed now due) :
    Yields now due { s.view with awaitsResponse := false }
      ((s.recvResponseRetry now).1, (s.recvResponseRetry now).2.map .wake) := by
  cases s with
  | bridge b =>
    exact .of_onlyWakes (.map_wake _) rfl (Bridge.sound_recvResponseRetry sound)
      (Bridge.armed_recvResponseRetry armed)
  | device d =>
    exact .of_onlyWakes (.map_wake _) rfl (Device.sound_recvResponseRetry sound)
      (Device.armed_recvResponseRetry armed)
  | controller c =>
    exact .of_onlyWakes (.map_wake _) rfl (Controller.sound_recvResponseRetry sound)
      (Controller.armed_recvResponseRetry armed)
  | memory m => exact absurd rfl (inner m)

theorem yields_process (sound : s.Sound)
    (armed : s.Armed now fun w => w = ⟨now, .process⟩ ∨ due w) :
    Yields now due s.view (s.process now) := by
  cases s with
  | bridge b =>
    exact yields_of_armed sound ⟨armed.requests.ignore nofun, armed.responses.ignore nofun⟩
  | device d =>
    exact yields_of_armed sound ⟨armed.requests.ignore nofun, armed.responses.ignore nofun⟩
  | controller c =>
    obtain ⟨view, sound', armed'⟩ := Controller.process_spec sound armed
    exact ⟨view, sound', armed'⟩
  | memory m => exact yields_of_armed sound ⟨armed.responses.ignore nofun⟩

theorem yields_accessAtomic (sound : s.Sound) (armed : s.Armed now due) (p : Packet) :
    Yields now due { s.view with store := (s.accessAtomic p).2.2.view.store }
      ((s.accessAtomic p).2.2, []) := by
  cases s with
  | bridge b => exact yields_of_armed sound armed
  | device d => exact yields_of_armed sound armed
  | controller c =>
    obtain ⟨view, sound', armed'⟩ := Controller.accessAtomic_spec sound armed p
    exact .of_onlyWakes .nil view sound' (Armed.mono armed' fun _ => .inl)
  | memory m =>
    obtain ⟨view, sound', armed'⟩ := SystemMemory.accessAtomic_spec sound armed p
    exact .of_onlyWakes .nil view sound' (Armed.mono armed' fun _ => .inl)

theorem yields_withStore {old store : Store} (held : s.store? = some old)
    (size : store.size = old.size) (sound : s.Sound) (armed : s.Armed now due) :
    Yields now due { s.view with store := some store } (s.withStore store, []) := by
  cases s with
  | bridge b => cases held
  | device d => cases held
  | controller c =>
    cases held
    have view : Controller.view { c with store } = { c.view with store := some store } := by
      simp only [Controller.view, size]
      rfl
    have armed' : Controller.Armed now due { c with store } :=
      Controller.Armed.alike armed ⟨rfl, rfl, rfl, rfl, rfl⟩
    exact .of_onlyWakes .nil view
      ⟨sound.reads, sound.readKind, sound.writeKind, sound.media, sound.ordered⟩
      (armed'.mono fun _ => .inl)
  | memory m =>
    cases held
    have view : SystemMemory.view { m with store } = { m.view with store := some store } := by
      simp only [SystemMemory.view, size]
    have armed' : SystemMemory.Armed now due { m with store } := ⟨armed.responses⟩
    exact .of_onlyWakes .nil view ⟨sound.unbounded⟩ (armed'.mono fun _ => .inl)

theorem answers_eq_zero (sound : s.Sound) (armed : s.Armed now due) (none : ∀ w, ¬ due w)
    (free : s.view.awaitsResponse = false) : s.view.answers = 0 := by
  cases s with
  | bridge b => exact congrArg _ (PacketQueue.packets_eq_nil armed.responses none free)
  | device d => exact congrArg _ (PacketQueue.packets_eq_nil armed.responses none free)
  | controller c => exact Controller.answers_eq_zero sound armed none free
  | memory m => exact congrArg _ (PacketQueue.packets_eq_nil armed.responses none free)

theorem requests_eq_nil (armed : s.Armed now due) (none : ∀ w, ¬ due w)
    (free : s.view.awaitsRequest = false) : s.view.requests = [] := by
  cases s with
  | bridge b => exact PacketQueue.packets_eq_nil armed.requests none free
  | device d => exact PacketQueue.packets_eq_nil armed.requests none free
  | controller c => rfl
  | memory m => rfl

end Stage

end Expander
