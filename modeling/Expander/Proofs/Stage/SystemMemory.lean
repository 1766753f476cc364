import Expander.Proofs.Stage.View

/-!
System memory as a stage.

Its queue has no limit, so that it takes every request in its range. The queue of an armed memory is
roused. Every call keeps this, and changes the view in the way its name says.
-/

set_option autoImplicit false

namespace Expander.SystemMemory

/-- What every memory keeps to between calls. -/
structure Sound (m : SystemMemory) : Prop where
  unbounded : m.responses.capacity = none

/-- The head has its wake-up. -/
structure Armed (now : Tick) (due : Wakeup → Prop) (m : SystemMemory) : Prop where
  responses : Roused now due .sendResponse m.awaitingRetry m.responses.headReady

variable {m m' : SystemMemory} {now : Tick} {p q : Packet} {due : Wakeup → Prop}

theorem Armed.mono {due' : Wakeup → Prop} (h : m.Armed now due) (sub : ∀ w, due w → due' w) :
    m.Armed now due' :=
  ⟨h.responses.mono sub⟩

theorem Armed.later {next : Tick} (h : m.Armed now due) (le : now ≤ next)
    (ahead : ∀ w, due w → next ≤ w.tick) : m.Armed next due :=
  ⟨h.responses.later le ahead⟩

theorem bare_perform (m : SystemMemory) (p : Packet) :
    (m.perform p).1.bare = m.view.answer m.range p := by
  cases hkind : p.kind with
  | read => simp [perform, hkind, StageView.answer, view]
  | write =>
    have bare : p.bare.kind = .write := hkind
    simp only [perform, hkind, StageView.answer, Packet.bare_respond]
    exact Packet.respond_write bare _ _

theorem view_perform (m : SystemMemory) (p : Packet) :
    (m.perform p).2.view = { m.view with store := m.view.written m.range p } := by
  cases hkind : p.kind <;> simp [perform, hkind, StageView.written, view]

theorem responses_perform (m : SystemMemory) (p : Packet) :
    (m.perform p).2.responses = m.responses ∧ (m.perform p).2.awaitingRetry = m.awaitingRetry := by
  cases hkind : p.kind <;> simp [perform, hkind]

theorem recvRequest_cases (sound : m.Sound) (now : Tick) (p : Packet) :
    (m.range.containsAccess p.addr p.size = false ∧
      m.recvRequest now p = ⟨m, [], .unroutable p⟩) ∨
    (m.range.containsAccess p.addr p.size = true ∧ ∃ ready responses,
      m.responses.push? (m.perform p.chargeHeader).1 ready = some responses ∧
      m.recvRequest now p = ⟨{ (m.perform p.chargeHeader).2 with responses },
        [.at ready .sendResponse], .accepted⟩) := by
  rw [recvRequest]
  split
  next unserved => exact .inl ⟨by simpa using unserved, rfl⟩
  next served =>
    have serves : m.range.containsAccess p.addr p.size = true := by simpa using served
    have notFull : m.responses.isFull = false := by simp [PacketQueue.isFull, sound.unbounded]
    have pushed := PacketQueue.push?_of_not_full (m.perform p.chargeHeader).1
      (now + p.headerDelay + m.latency) notFull
    refine .inr ⟨serves, _, _, pushed, ?_⟩
    simp only [pushed]

theorem view_recvRequest (serves : m.range.containsAccess p.addr p.size = true)
    (sound : m.Sound) : (m.recvRequest now p).stage.view = m.view.receive p := by
  rcases recvRequest_cases sound now p with ⟨unserved, -⟩ | ⟨-, ready, responses, pushed, eq⟩
  · simp [serves] at unserved
  have queued : responses.packets = m.responses.packets ++ [m.view.answer m.range p] := by
    rw [PacketQueue.packets_push pushed, bare_perform]
    rfl
  have performed := view_perform m p.chargeHeader
  simp only [view, StageView.mk.injEq, StageFrame.memory.injEq] at performed
  have answers : (responses.packets : Multiset Packet) =
      m.view.answer m.range p ::ₘ (m.responses.packets : Multiset Packet) := by
    rw [queued, coe_append_singleton]
  rw [eq]
  simp only [view, StageView.receive, StageFrame.held?, StageView.mk.injEq, performed, answers]
  trivial

theorem armed_recvRequest (sound : m.Sound) (h : m.Armed now due) :
    (m.recvRequest now p).stage.Armed now
      fun w => due w ∨ Called now (m.recvRequest now p).actions w := by
  rcases recvRequest_cases sound now p with ⟨-, eq⟩ | ⟨-, ready, responses, pushed, eq⟩
  · rw [eq]
    exact ⟨h.responses.mono fun _ => .inl⟩
  · rw [eq]
    obtain ⟨-, awaiting⟩ := responses_perform m p.chargeHeader
    have roused := PacketQueue.roused_push h.responses pushed
    refine ⟨?_⟩
    simp only [awaiting]
    refine roused.mono fun w => Or.imp_right fun called => ?_
    obtain ⟨tick, hmem, htick⟩ := called
    split at hmem
    · exact ⟨tick, hmem, htick⟩
    · cases hmem

theorem sound_recvRequest (sound : m.Sound) : (m.recvRequest now p).stage.Sound := by
  rcases recvRequest_cases sound now p with ⟨-, eq⟩ | ⟨-, ready, responses, pushed, eq⟩
  · rwa [eq]
  · rw [eq]
    exact ⟨(PacketQueue.capacity_push pushed).trans sound.unbounded⟩

theorem takeResponse_eq_some (h : m.takeResponse now = some (p, m')) :
    m.awaitingRetry = false ∧
      ∃ responses, m.responses.popReady? now = some (p, responses) ∧
        m' = { m with responses } := by
  rw [takeResponse] at h
  split at h
  · cases h
  · rename_i free
    obtain ⟨⟨p', responses⟩, popped, eq⟩ := Option.map_eq_some_iff.1 h
    cases eq
    exact ⟨by simpa using free, responses, popped, rfl⟩

theorem armed_takeResponse_none (h : m.takeResponse now = none)
    (armed : m.Armed now fun w => w = ⟨now, .sendResponse⟩ ∨ due w) : m.Armed now due := by
  refine ⟨PacketQueue.roused_spent armed.responses fun free => ?_⟩
  simpa [takeResponse, free] using h

theorem view_takeResponse (h : m.takeResponse now = some (p, m')) :
    m.view.awaitsResponse = false ∧
      m.view = { m'.view with answers := p.bare ::ₘ m'.view.answers } := by
  obtain ⟨free, responses, popped, rfl⟩ := takeResponse_eq_some h
  refine ⟨free, ?_⟩
  simp [view, PacketQueue.packets_popReady popped]

theorem armed_responseSent :
    (m.responseSent now).1.Armed now fun w => due w ∨ Called now (m.responseSent now).2 w :=
  ⟨roused_sendAfter⟩

theorem sound_takeResponse (h : m.takeResponse now = some (p, m')) (sound : m.Sound) :
    m'.Sound := by
  obtain ⟨-, responses, popped, rfl⟩ := takeResponse_eq_some h
  obtain ⟨-, -, -, capacity⟩ := PacketQueue.popReady?_eq_some popped
  exact ⟨capacity.trans sound.unbounded⟩

theorem sound_responseRefused (h : m.takeResponse now = some (p, m')) (sound : m.Sound) :
    (m'.responseRefused now q).Sound :=
  ⟨(sound_takeResponse h sound).unbounded⟩

theorem accessAtomic_spec (sound : m.Sound) (armed : m.Armed now due) (p : Packet) :
    (m.accessAtomic p).2.2.view = { m.view with store := (m.accessAtomic p).2.2.view.store } ∧
      (m.accessAtomic p).2.2.Sound ∧ (m.accessAtomic p).2.2.Armed now due := by
  rw [accessAtomic]
  split
  next =>
    have view := view_perform m p
    obtain ⟨responses, awaiting⟩ := responses_perform m p
    simp only
    refine ⟨?_, ⟨?_⟩, ⟨?_⟩⟩
    · rw [view]
    · rw [responses]
      exact sound.unbounded
    · rw [responses, awaiting]
      exact armed.responses
  next => exact ⟨rfl, sound, armed⟩

end Expander.SystemMemory
