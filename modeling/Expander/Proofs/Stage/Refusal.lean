import Expander.Proofs.Stage.Contract

/-!
What a stage does when it refuses a packet.

A stage without room hands a packet back as it was offered, and asks for nothing. All that changes
is its own record of the refusal: a counter, the promise of a retry, and in the controller the
issued bursts that are done.
-/

set_option autoImplicit false

namespace Expander

namespace Stage

/-- A stage before and after it has refused a request. -/
inductive DeniesRequest (now : Tick) : Stage → Stage → Prop where
  /-- No room is left to reserve for the response. -/
  | unreserved (b : Bridge) : DeniesRequest now (bridge b) (bridge { b with
      retryOwed := true
      counters := { b.counters with
        responseQueueFull := b.counters.responseQueueFull + 1 } })
  | bridge (b : Bridge) : DeniesRequest now (bridge b) (bridge { b with
      retryOwed := true
      counters := { b.counters with requestQueueFull := b.counters.requestQueueFull + 1 } })
  | device (d : Device) : DeniesRequest now (device d) (device { d with
      requestRetryOwed := true
      counters := { d.counters with requestBufferFull := d.counters.requestBufferFull + 1 } })
  | read (c : Controller Media) : DeniesRequest now (controller c) (controller { c.prune now with
      readRetryOwed := true
      counters := { c.counters with rejectedReads := c.counters.rejectedReads + 1 } })
  | write (c : Controller Media) : DeniesRequest now (controller c) (controller { c.prune now with
      writeRetryOwed := true
      counters := { c.counters with rejectedWrites := c.counters.rejectedWrites + 1 } })

/-- A stage before and after it has refused a response. -/
inductive DeniesResponse : Stage → Stage → Prop where
  | bridge (b : Bridge) : DeniesResponse (bridge b) (bridge b)
  | device (d : Device) : DeniesResponse (device d) (device { d with
      responseRetryOwed := true
      counters := { d.counters with responseBufferFull := d.counters.responseBufferFull + 1 } })

variable {s s' : Stage} {now : Tick} {p back : Packet}

private theorem denies_bridge {b : Bridge} (busy : (b.recvRequest now p).answer = .busy back) :
    ∃ after, DeniesRequest now (.bridge b) (.bridge after) ∧
      b.recvRequest now p = ⟨after, [], .busy p⟩ := by
  rw [Bridge.recvRequest] at busy ⊢
  split at busy
  · cases busy
  · rename_i served
    rw [if_neg served]
    split at busy
    · rename_i reserved
      rw [if_pos reserved]
      exact ⟨_, .unreserved b, rfl⟩
    · rename_i free
      rw [if_neg free]
      simp only at busy ⊢
      split at busy
      · exact ⟨_, .bridge b, rfl⟩
      · cases busy

private theorem denies_device {d : Device} (busy : (d.recvRequest now p).answer = .busy back) :
    ∃ after, DeniesRequest now (.device d) (.device after) ∧
      d.recvRequest now p = ⟨after, [], .busy p⟩ := by
  rw [Device.recvRequest] at busy ⊢
  split at busy
  · cases busy
  · rename_i served
    rw [if_neg served]
    simp only at busy ⊢
    split at busy
    · exact ⟨_, .device d, rfl⟩
    · cases busy

private theorem denies_read {c : Controller Media}
    (busy : ((c.prune now).acceptRead now p).answer = .busy back) :
    ∃ after, DeniesRequest now (.controller c) (.controller after) ∧
      (c.prune now).acceptRead now p = ⟨after, [], .busy p⟩ := by
  rw [Controller.acceptRead] at busy ⊢
  split at busy
  · rename_i full
    rw [if_pos full]
    exact ⟨_, .read c, rfl⟩
  · simp only at busy
    split at busy <;> cases busy

private theorem denies_write {c : Controller Media}
    (busy : ((c.prune now).acceptWrite now p).answer = .busy back) :
    ∃ after, DeniesRequest now (.controller c) (.controller after) ∧
      (c.prune now).acceptWrite now p = ⟨after, [], .busy p⟩ := by
  rw [Controller.acceptWrite] at busy ⊢
  split at busy
  · rename_i full
    rw [if_pos full]
    exact ⟨_, .write c, rfl⟩
  · cases busy

theorem denies_recvRequest (sound : s.Sound) (busy : (s.recvRequest now p).answer = .busy back) :
    ∃ after, s.DeniesRequest now after ∧ s.recvRequest now p = ⟨after, [], .busy p⟩ := by
  cases s with
  | bridge b =>
    obtain ⟨after, denies, reply⟩ := denies_bridge busy
    exact ⟨_, denies, congrArg (Reply.map Stage.bridge) reply⟩
  | device d =>
    obtain ⟨after, denies, reply⟩ := denies_device busy
    exact ⟨_, denies, congrArg (Reply.map Stage.device) reply⟩
  | controller c =>
    have busy' : (c.recvRequest now p).answer = .busy back := busy
    rcases Controller.recvRequest_eq c now p with ⟨-, eq⟩ | ⟨-, -, eq⟩ | ⟨-, -, eq⟩
    · rw [eq] at busy'
      cases busy'
    · rw [eq] at busy'
      obtain ⟨after, denies, reply⟩ := denies_read busy'
      exact ⟨_, denies, congrArg (Reply.map Stage.controller) (eq.trans reply)⟩
    · rw [eq] at busy'
      obtain ⟨after, denies, reply⟩ := denies_write busy'
      exact ⟨_, denies, congrArg (Reply.map Stage.controller) (eq.trans reply)⟩
  | memory m =>
    have busy' : (m.recvRequest now p).answer = .busy back := busy
    rcases SystemMemory.recvRequest_cases sound now p with ⟨-, eq⟩ | ⟨-, _, _, -, eq⟩
    · rw [eq] at busy'
      cases busy'
    · rw [eq] at busy'
      cases busy'

theorem denies_recvResponse (busy : (s.recvResponse now p).answer = .busy back) :
    ∃ after, s.DeniesResponse after ∧ s.recvResponse now p = ⟨after, [], .busy p⟩ := by
  cases s with
  | bridge b =>
    have busy' : (b.recvResponse now p).answer = .busy back := busy
    rcases Bridge.recvResponse_cases b now p with ⟨-, eq⟩ | ⟨_, _, -, eq⟩
    · exact ⟨_, .bridge b, congrArg (Reply.map Stage.bridge) eq⟩
    · rw [eq] at busy'
      cases busy'
  | device d =>
    have busy' : (d.recvResponse now p).answer = .busy back := busy
    simp only [recvResponse]
    rw [Device.recvResponse] at busy' ⊢
    simp only at busy' ⊢
    split at busy'
    · exact ⟨_, .device d, rfl⟩
    · cases busy'
  | controller c => cases busy
  | memory m => cases busy

/-- A stage that does not serve a packet is as before. -/
theorem unroutable_recvRequest (sound : s.Sound)
    (unroutable : (s.recvRequest now p).answer = .unroutable back) :
    s.view.frame.serves p.addr p.size = false ∧ s.recvRequest now p = ⟨s, [], .unroutable p⟩ := by
  cases s with
  | bridge b =>
    have unroutable' : (b.recvRequest now p).answer = .unroutable back := unroutable
    rcases Bridge.recvRequest_cases b now p with ⟨unserved, eq⟩ | ⟨-, -, _, eq⟩ |
      ⟨-, -, _, _, -, eq⟩
    · exact ⟨unserved, congrArg (Reply.map Stage.bridge) eq⟩
    · rw [eq] at unroutable'
      cases unroutable'
    · rw [eq] at unroutable'
      cases unroutable'
  | device d =>
    have unroutable' : (d.recvRequest now p).answer = .unroutable back := unroutable
    rcases Device.recvRequest_cases d now p with ⟨unserved, eq⟩ | ⟨-, -, _, eq⟩ |
      ⟨-, _, _, -, eq⟩
    · exact ⟨unserved, congrArg (Reply.map Stage.device) eq⟩
    · rw [eq] at unroutable'
      cases unroutable'
    · rw [eq] at unroutable'
      cases unroutable'
  | controller c =>
    have unroutable' : (c.recvRequest now p).answer = .unroutable back := unroutable
    rcases Controller.recvRequest_eq c now p with ⟨unserved, eq⟩ | ⟨-, -, eq⟩ | ⟨-, -, eq⟩
    · exact ⟨unserved, congrArg (Reply.map Stage.controller) eq⟩
    · rw [eq] at unroutable'
      rcases Controller.acceptRead_answer (c.prune now) now p with ⟨_, -, busy⟩ | ⟨took, -⟩
      · rw [busy] at unroutable'
        cases unroutable'
      · cases took.symm.trans unroutable'
    · rw [eq] at unroutable'
      rcases Controller.acceptWrite_answer (c.prune now) now p with ⟨_, -, busy⟩ | ⟨took, -⟩
      · rw [busy] at unroutable'
        cases unroutable'
      · cases took.symm.trans unroutable'
  | memory m =>
    have unroutable' : (m.recvRequest now p).answer = .unroutable back := unroutable
    rcases SystemMemory.recvRequest_cases sound now p with ⟨unserved, eq⟩ | ⟨-, _, _, -, eq⟩
    · exact ⟨unserved, congrArg (Reply.map Stage.memory) eq⟩
    · rw [eq] at unroutable'
      cases unroutable'

/-- A stage that takes a packet in asks for wake-ups only. -/
theorem onlyWakes_recvRequest (s : Stage) (now : Tick) (p : Packet) :
    OnlyWakes (s.recvRequest now p).actions := by
  cases s with
  | bridge b =>
    rcases Bridge.recvRequest_cases b now p with ⟨-, eq⟩ | ⟨-, -, _, eq⟩ | ⟨-, -, _, _, -, eq⟩
    · exact (congrArg Reply.actions eq) ▸ .nil
    · exact (congrArg Reply.actions eq) ▸ .nil
    · exact (congrArg Reply.actions eq) ▸ .ite _ _
  | device d =>
    rcases Device.recvRequest_cases d now p with ⟨-, eq⟩ | ⟨-, -, _, eq⟩ | ⟨-, _, _, -, eq⟩
    · exact (congrArg Reply.actions eq) ▸ .nil
    · exact (congrArg Reply.actions eq) ▸ .nil
    · exact (congrArg Reply.actions eq) ▸ .ite _ _
  | controller c =>
    have wakes : OnlyWakes (c.recvRequest now p).actions := by
      rcases Controller.recvRequest_eq c now p with ⟨-, eq⟩ | ⟨-, -, eq⟩ | ⟨-, -, eq⟩ <;> rw [eq]
      · exact .nil
      · rcases Controller.acceptRead_answer (c.prune now) now p with ⟨_, -, busy⟩ | ⟨-, wakes⟩
        · exact busy ▸ .nil
        · exact wakes
      · rcases Controller.acceptWrite_answer (c.prune now) now p with ⟨_, -, busy⟩ | ⟨-, wakes⟩
        · exact busy ▸ .nil
        · exact wakes
    exact wakes
  | memory m =>
    have wakes : OnlyWakes (m.recvRequest now p).actions := by
      rw [SystemMemory.recvRequest]
      split
      · exact .nil
      · simp only
        split
        · exact .nil
        · exact .singleton _ _
    exact wakes

theorem onlyWakes_recvResponse (s : Stage) (now : Tick) (p : Packet) :
    OnlyWakes (s.recvResponse now p).actions := by
  cases s with
  | bridge b =>
    rcases Bridge.recvResponse_cases b now p with ⟨-, eq⟩ | ⟨_, _, -, eq⟩
    · exact (congrArg Reply.actions eq) ▸ .nil
    · exact (congrArg Reply.actions eq) ▸ .ite _ _
  | device d =>
    rcases Device.recvResponse_cases d now p with ⟨-, _, eq⟩ | ⟨_, _, -, eq⟩
    · exact (congrArg Reply.actions eq) ▸ .nil
    · exact (congrArg Reply.actions eq) ▸ .ite _ _
  | controller c => exact .nil
  | memory m => exact .nil

end Stage

end Expander
