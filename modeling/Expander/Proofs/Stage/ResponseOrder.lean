import Expander.Proofs.Stage.Contract

/-!
The order in which the controller sends its responses.

The heap counts its responses, and each of them has a number of its own (`Numbered`); every call of
a stage keeps this. So a response that was taken and refused goes back to the very place it had: it
is the next to leave again (`Controller.top_responseRefused`).
-/

set_option autoImplicit false

namespace Expander

namespace Heap

variable {α : Type} {before : α → α → Bool} {h rest : Heap α} {x : α}

theorem size_pop? (hpop : h.pop? before = some (x, rest)) : rest.size = h.size - 1 := by
  rw [pop?] at hpop
  split at hpop
  · cases hpop
    rfl
  · cases hpop

theorem mem_of_top? (found : h.top? = some x) : x ∈ h.toList := by
  obtain ⟨size, tree⟩ := h
  cases tree with
  | empty => cases found
  | node left value right =>
    cases found
    exact List.mem_cons_self

theorem exists_top (h : x ∈ rest.toList) : ∃ top, rest.top? = some top := by
  obtain ⟨size, tree⟩ := rest
  cases tree with
  | empty => cases h
  | node left value right => exact ⟨value, rfl⟩

end Heap

theorem ReadyResponse.seq_eq {a b : ReadyResponse} (h : a.before b = false)
    (h' : b.before a = false) : a.seq = b.seq := by
  simp only [before, decide_eq_false_iff_not] at h h'
  grind

namespace Controller

variable {μ : Type} {c c' : Controller μ} {now : Tick} {p q : Packet}

/-- The heap counts its responses, and numbers are not used twice. -/
structure Numbered (c : Controller μ) : Prop where
  size : c.responses.size = c.responses.toList.length
  distinct : (c.responses.toList.map (·.seq)).Nodup
  below : ∀ r ∈ c.responses.toList, r.seq < c.nextSeq

theorem Numbered.alike (h : c.Numbered) (responses : c'.responses = c.responses)
    (nextSeq : c'.nextSeq = c.nextSeq) : c'.Numbered := by
  refine ⟨?_, ?_, ?_⟩
  · rw [responses]
    exact h.size
  · rw [responses]
    exact h.distinct
  · rw [responses, nextSeq]
    exact h.below

private theorem numbered_push {heap : Heap ReadyResponse} {r : ReadyResponse} {bound : Nat}
    (size : heap.size = heap.toList.length) (distinct : (heap.toList.map (·.seq)).Nodup)
    (fresh : ∀ other ∈ heap.toList, other.seq ≠ r.seq)
    (below : ∀ other ∈ heap.toList, other.seq < bound) (lt : r.seq < bound) :
    (heap.push ReadyResponse.before r).size =
        (heap.push ReadyResponse.before r).toList.length ∧
      ((heap.push ReadyResponse.before r).toList.map (·.seq)).Nodup ∧
      ∀ other ∈ (heap.push ReadyResponse.before r).toList, other.seq < bound := by
  have added := Heap.push_perm ReadyResponse.before heap r
  refine ⟨?_, ?_, fun other mem => ?_⟩
  · rw [added.length_eq, List.length_cons, ← size]
    rfl
  · refine (added.map _).nodup_iff.2 (List.nodup_cons.2 ⟨fun mem => ?_, distinct⟩)
    obtain ⟨other, mem', same⟩ := List.mem_map.1 mem
    exact fresh other mem' same
  · rcases List.mem_cons.1 (added.mem_iff.1 mem) with rfl | old
    · exact lt
    · exact below other old

theorem Numbered.pushResponse (h : c.Numbered) (ready : Tick) (p : Packet) :
    (c.pushResponse ready p).1.Numbered := by
  obtain ⟨size, distinct, below⟩ := numbered_push (r := ⟨ready, c.nextSeq, p⟩) h.size h.distinct
    (fun other mem => Nat.ne_of_lt (h.below other mem))
    (fun other mem => Nat.lt_succ_of_lt (h.below other mem)) (Nat.lt_succ_self c.nextSeq)
  exact ⟨size, distinct, below⟩

theorem numbered_requestRound (h : c.Numbered) (tick : Tick) :
    (c.requestRound tick).1.Numbered := by
  rcases requestRound_cases c tick with ⟨planned, -, eq⟩ | eq
  · rwa [eq]
  · rw [eq]
    exact h.alike rfl rfl

theorem numbered_recvRequest (h : c.Numbered) : (c.recvRequest now p).stage.Numbered := by
  have pruned : (c.prune now).Numbered := h.alike rfl rfl
  rcases recvRequest_eq c now p with ⟨-, eq⟩ | ⟨-, -, eq⟩ | ⟨-, -, eq⟩ <;> rw [eq]
  · exact h
  · rcases acceptRead_cases (c.prune now) now p with ⟨_, eq⟩ | ⟨_, _, rfl, eq⟩ |
      ⟨_, _, _, _, -, -, -, -, rfl, eq⟩ <;> rw [eq]
    · exact pruned.alike rfl rfl
    · apply Numbered.pushResponse
      exact pruned.alike rfl rfl
    · apply numbered_requestRound
      exact pruned.alike rfl rfl
  · rcases acceptWrite_cases (c.prune now) now p with ⟨_, eq⟩ |
      ⟨_, _, _, _, _, -, rfl, rfl, eq⟩ <;> rw [eq]
    · exact pruned.alike rfl rfl
    · apply numbered_requestRound
      apply Numbered.pushResponse
      exact pruned.alike rfl rfl

theorem numbered_finishRead (h : c.Numbered) (id : TransactionId) (readyAt : Tick) :
    (c.finishRead id readyAt).1.Numbered := by
  obtain ⟨pending, eq | ⟨ready, p, eq⟩⟩ := finishRead_shape c id readyAt <;> rw [eq]
  · exact h.alike rfl rfl
  · apply Numbered.pushResponse
    exact h.alike rfl rfl

theorem numbered_fileIssued (h : c.Numbered) (b : Burst) (readyAt : Tick) :
    (c.fileIssued b readyAt).1.Numbered := by
  rw [fileIssued]
  cases b.kind with
  | read =>
    apply numbered_finishRead
    exact h.alike rfl rfl
  | write => exact h.alike rfl rfl

theorem numbered_retryIfRoom (h : c.Numbered) : (c.retryIfRoom now).1.Numbered := by
  rw [retryIfRoom]
  split
  · exact h
  · split
    · exact h.alike rfl rfl
    · exact h

section Round

variable [MediaChannel μ]

theorem numbered_issue (h : c.Numbered) (b : Burst) (promoted : Bool) (channel : μ) :
    (c.issue now b promoted channel).1.Numbered := by
  rw [issue]
  have filed := numbered_fileIssued (c := { c with
    media := c.media.set (c.channelOf b) (MediaChannel.access channel b.coordinate b.kind now).2
    counters := countIssue c.counters b now promoted
      (MediaChannel.access channel b.coordinate b.kind now).1.rowHit })
    (h.alike rfl rfl) b (MediaChannel.access channel b.coordinate b.kind now).1.readyAt
  simp only
  split
  · exact filed.alike rfl rfl
  · apply numbered_requestRound
    exact filed.alike rfl rfl

theorem numbered_runRound (h : c.Numbered) : (c.runRound now).1.Numbered := by
  have turned : c.chooseDirection.Numbered := by
    rw [chooseDirection]
    split
    · rw [turnAround]
      split <;> exact h.alike rfl rfl
    · exact h
  have passed (queue : List Burst) : (c.chooseDirection.withActiveQueue queue).Numbered := by
    rw [withActiveQueue]
    split <;> exact turned.alike rfl rfl
  rw [runRound]
  split
  · exact h
  · simp only
    split
    · exact turned
    · split
      · exact passed _
      · exact numbered_issue (passed _) _ _ _

theorem numbered_process (h : c.Numbered) : (c.process now).1.Numbered := by
  have ran : (if (c.prune now).nextRound.any fun planned => decide (planned ≤ now) then
      { c.prune now with nextRound := none }.runRound now else (c.prune now, [])).1.Numbered := by
    split
    · exact numbered_runRound (h.alike rfl rfl)
    · exact h.alike rfl rfl
  exact numbered_retryIfRoom ran

end Round

theorem numbered_responseSent (h : c.Numbered) (took : c.takeResponse now = some (p, c')) :
    (c'.responseSent now).1.Numbered := by
  obtain ⟨-, r, responses, popped, -, -, rfl⟩ := takeResponse_eq_some took
  have left := Heap.pop?_perm popped
  have distinct := (left.map (·.seq)).nodup_iff.1 h.distinct
  refine ⟨?_, (List.nodup_cons.1 distinct).2, fun other mem =>
    h.below other (left.mem_iff.2 (List.mem_cons_of_mem _ mem))⟩
  have length := left.length_eq
  rw [List.length_cons, ← h.size] at length
  exact (Heap.size_pop? popped).trans (length ▸ Nat.add_sub_cancel ..)

theorem numbered_responseRefused (h : c.Numbered) (took : c.takeResponse now = some (p, c')) :
    (c'.responseRefused now q).Numbered := by
  have sent := numbered_responseSent h took
  obtain ⟨-, r, responses, popped, -, -, rfl⟩ := takeResponse_eq_some took
  have left := Heap.pop?_perm popped
  have distinct := (left.map (·.seq)).nodup_iff.1 h.distinct
  have fresh : ∀ other ∈ responses.toList, other.seq ≠ r.seq := fun other mem same =>
    (List.nodup_cons.1 distinct).1 (List.mem_map.2 ⟨other, mem, same⟩)
  obtain ⟨size, distinct', below⟩ := numbered_push (r := ⟨r.ready, r.seq, q⟩) sent.size
    sent.distinct fresh sent.below (h.below r (left.mem_iff.2 List.mem_cons_self))
  exact ⟨size, distinct', below⟩

theorem top_responseRefused (sound : c.Sound) (h : c.Numbered)
    (took : c.takeResponse now = some (p, c')) :
    c.responses.top?.map (·.packet) = some p ∧
      (c'.responseRefused now p).responses.top?.map (·.packet) = some p := by
  have refused := Controller.sound_responseRefused (q := p) sound took
  have numbered := numbered_responseRefused (q := p) h took
  obtain ⟨-, r, responses, popped, -, rfl, rfl⟩ := takeResponse_eq_some took
  obtain ⟨-, -, top, -, -⟩ := Heap.pop?_parts popped
  have top' : c.responses.top? = some r := top
  refine ⟨by rw [top', Option.map_some], ?_⟩
  have left := Heap.pop?_perm popped
  have added := Heap.push_perm ReadyResponse.before responses r
  have back : r ∈ (responses.push ReadyResponse.before r).toList :=
    added.mem_iff.2 List.mem_cons_self
  obtain ⟨first, found⟩ := Heap.exists_top back
  have mem : first ∈ c.responses.toList :=
    (added.trans left.symm).mem_iff.1 (Heap.mem_of_top? found)
  -- Neither precedes the other, so they have one number; and a number is used once.
  have order := Heap.pop?_first ReadyResponse.isRanking_before sound.ordered popped mem
  have order' := Tree.Ordered.top_first ReadyResponse.isRanking_before refused.ordered found back
  have same : first = r := List.inj_on_of_nodup_map h.distinct mem
    (left.mem_iff.2 List.mem_cons_self) (ReadyResponse.seq_eq order order')
  have found' : (responses.push ReadyResponse.before r).top? = some r := same ▸ found
  exact congrArg (Option.map (·.packet)) found'

end Controller

namespace Stage

variable {s s' : Stage} {now : Tick} {p q : Packet} {actions : List Action} {delivery : Delivery}

def Numbered : Stage → Prop
  | controller c => c.Numbered
  | bridge _ | device _ | memory _ => True

theorem numbered_recvRequest (h : s.Numbered)
    (reply : s.recvRequest now p = ⟨s', actions, delivery⟩) : s'.Numbered := by
  rw [show s' = (s.recvRequest now p).stage by rw [reply]]
  cases s with
  | controller c => exact Controller.numbered_recvRequest h
  | bridge | device | memory => trivial

theorem numbered_recvResponse (h : s.Numbered)
    (reply : s.recvResponse now p = ⟨s', actions, delivery⟩) : s'.Numbered := by
  rw [show s' = (s.recvResponse now p).stage by rw [reply]]
  cases s with
  | controller c => exact h
  | bridge | device | memory => trivial

theorem numbered_requestSent (took : s.takeRequest now = some (p, s')) :
    (s'.requestSent now).1.Numbered := by
  rcases takeRequest_inv took with ⟨b, b', rfl, rfl, -⟩ | ⟨d, d', rfl, rfl, -⟩ <;> trivial

theorem numbered_requestRefused (took : s.takeRequest now = some (p, s')) :
    (s'.requestRefused now q).Numbered := by
  rcases takeRequest_inv took with ⟨b, b', rfl, rfl, -⟩ | ⟨d, d', rfl, rfl, -⟩ <;> trivial

theorem numbered_recvRequestRetry (h : s.Numbered) : (s.recvRequestRetry now).1.Numbered := by
  cases s with
  | controller c => exact h
  | bridge | device | memory => trivial

theorem numbered_responseSent (took : s.takeResponse now = some (p, s')) (h : s.Numbered) :
    (s'.responseSent now).1.Numbered := by
  cases s with
  | controller c =>
    obtain ⟨⟨q, taken⟩, some, eq⟩ := Option.map_eq_some_iff.1 took
    cases eq
    exact Controller.numbered_responseSent h some
  | bridge | device | memory =>
    obtain ⟨taken, -, eq⟩ := Option.map_eq_some_iff.1 took
    cases eq
    trivial

theorem numbered_responseRefused (took : s.takeResponse now = some (p, s')) (h : s.Numbered) :
    (s'.responseRefused now q).Numbered := by
  cases s with
  | controller c =>
    obtain ⟨⟨q, taken⟩, some, eq⟩ := Option.map_eq_some_iff.1 took
    cases eq
    exact Controller.numbered_responseRefused h some
  | bridge | device | memory =>
    obtain ⟨taken, -, eq⟩ := Option.map_eq_some_iff.1 took
    cases eq
    trivial

theorem numbered_recvResponseRetry (h : s.Numbered) : (s.recvResponseRetry now).1.Numbered := by
  cases s with
  | controller c => exact Controller.Numbered.alike h rfl rfl
  | bridge | device | memory => trivial

theorem numbered_process (h : s.Numbered) : (s.process now).1.Numbered := by
  cases s with
  | controller c => exact Controller.numbered_process h
  | bridge | device | memory => trivial

theorem numbered_accessAtomic (h : s.Numbered) (p : Packet) :
    (s.accessAtomic p).2.2.Numbered := by
  cases s with
  | controller c =>
    have kept : (c.accessAtomic p).2.2.Numbered := by
      rw [Controller.accessAtomic]
      split
      · exact h
      · split
        · exact h
        · exact Controller.Numbered.alike h rfl rfl
    exact kept
  | bridge | device | memory => trivial

theorem numbered_withStore (h : s.Numbered) (store : Store) : (s.withStore store).Numbered := by
  cases s with
  | controller c => exact Controller.Numbered.alike h rfl rfl
  | bridge | device | memory => trivial

end Stage

end Expander
