import Expander.Proofs.Scheduling.Journal

/-!
The order in which a controller hands its responses over.

Responses are taken in the order of their ticks, and in the order of their numbers where the ticks
are the same. One that was refused goes back to its place, and what is added later comes behind
those that were taken, since it is ready later and has a larger number (`InLine`).
-/

set_option autoImplicit false

namespace Expander

theorem ReadyResponse.before_eq_false_iff {a b : ReadyResponse} :
    a.before b = false ↔ b.ready < a.ready ∨ b.ready = a.ready ∧ b.seq ≤ a.seq := by
  simp only [before, decide_eq_false_iff_not]
  grind

namespace Controller.Journal

variable {μ : Type} {j j' : Journal μ}

theorem waiting_push (line : j.SameLine j') {r : ReadyResponse}
    (responses : j'.controller.responses = j.controller.responses.push ReadyResponse.before r) :
    j'.waiting.Perm (r :: j.waiting) := by
  have added := Heap.push_perm ReadyResponse.before j.controller.responses r
  rw [waiting, waiting, responses, line.held]
  exact added.append_right _

theorem responses_push (line : j.SameLine j') {r : ReadyResponse}
    (responses : j'.controller.responses = j.controller.responses.push ReadyResponse.before r) :
    j'.responses.Perm (r :: j.responses) := by
  rw [Journal.responses, Journal.responses, line.sent]
  exact (waiting_push line responses).append_right _

theorem responses_same (line : j.SameLine j')
    (responses : j'.controller.responses = j.controller.responses) :
    j'.responses = j.responses := by
  rw [Journal.responses, waiting, Journal.responses, waiting, responses, line.held, line.sent]

/-- The order in which responses are taken. -/
structure InLine (j : Journal μ) : Prop where
  ordered : j.controller.responses.Ordered ReadyResponse.before
  place : j.controller.lastTaken = j.held.map fun r => (r.ready, r.seq)
  numbers : ∀ r ∈ j.responses, r.seq < j.controller.nextSeq
  past : ∀ x ∈ j.taken, x.2.ready ≤ x.1 ∧ x.1 ≤ j.now
  own : ∀ x ∈ j.taken, x.2 ∈ j.responses
  sorted : j.taken.Pairwise fun x y => y.2.before x.2 = false
  /-- No response that waits comes before one that was taken. -/
  ahead : ∀ x ∈ j.taken, ∀ r ∈ j.waiting, r.before x.2 = false

namespace InLine

theorem moved (h : j.InLine) (later : j.now ≤ j'.now)
    (ordered : j'.controller.responses.Ordered ReadyResponse.before)
    (place : j'.controller.lastTaken = j'.held.map fun r => (r.ready, r.seq))
    (nextSeq : j'.controller.nextSeq = j.controller.nextSeq)
    (all : j'.responses.Perm j.responses) (waits : ∀ r ∈ j'.waiting, r ∈ j.waiting)
    (taken : j'.taken = j.taken) : j'.InLine := by
  refine ⟨ordered, place, ?_, ?_, ?_, ?_, ?_⟩
  · intro other mem
    rw [nextSeq]
    exact h.numbers other (all.mem_iff.1 mem)
  · rw [taken]
    exact fun x mem => ⟨(h.past x mem).1, Nat.le_trans (h.past x mem).2 later⟩
  · rw [taken]
    exact fun x mem => all.mem_iff.2 (h.own x mem)
  · rw [taken]
    exact h.sorted
  · rw [taken]
    exact fun x mem other mem' => h.ahead x mem other (waits other mem')

theorem stay (h : j.InLine) (line : j.SameLine j') (later : j.now ≤ j'.now)
    (responses : j'.controller.responses = j.controller.responses)
    (nextSeq : j'.controller.nextSeq = j.controller.nextSeq)
    (place : j'.controller.lastTaken = j.controller.lastTaken) : j'.InLine := by
  refine h.moved later (responses ▸ h.ordered) ?_ nextSeq ?_ ?_ line.taken
  · rw [place, line.held]
    exact h.place
  · rw [responses_same line responses]
  · rw [waiting, waiting, responses, line.held]
    exact fun r mem => mem

/-- A response that is added comes behind those that were taken, which were ready before now. -/
theorem push (h : j.InLine) (line : j.SameLine j') (later : j.now ≤ j'.now) {r : ReadyResponse}
    (responses : j'.controller.responses = j.controller.responses.push ReadyResponse.before r)
    (number : r.seq = j.controller.nextSeq)
    (nextSeq : j'.controller.nextSeq = j.controller.nextSeq + 1)
    (place : j'.controller.lastTaken = j.controller.lastTaken) (late : j'.now ≤ r.ready) :
    j'.InLine := by
  have waits := waiting_push line responses
  have all := responses_push line responses
  refine ⟨?_, ?_, ?_, ?_, ?_, ?_, ?_⟩
  · rw [responses]
    exact Heap.Ordered.push ReadyResponse.isRanking_before h.ordered r
  · rw [place, line.held]
    exact h.place
  · intro other mem
    rw [nextSeq]
    rcases List.mem_cons.1 (all.mem_iff.1 mem) with rfl | old
    · omega
    · exact Nat.lt_succ_of_lt (h.numbers other old)
  · rw [line.taken]
    exact fun x mem => ⟨(h.past x mem).1, Nat.le_trans (h.past x mem).2 later⟩
  · rw [line.taken]
    intro x mem
    exact all.mem_iff.2 (List.mem_cons_of_mem _ (h.own x mem))
  · rw [line.taken]
    exact h.sorted
  · rw [line.taken]
    intro x mem other mem'
    rcases List.mem_cons.1 (waits.mem_iff.1 mem') with rfl | old
    · obtain ⟨ready, taken⟩ := h.past x mem
      have earlier := h.numbers _ (h.own x mem)
      have due : x.2.ready ≤ other.ready :=
        Nat.le_trans ready (Nat.le_trans taken (Nat.le_trans later late))
      rw [ReadyResponse.before_eq_false_iff]
      refine (Nat.lt_or_eq_of_le due).imp_right fun same => ⟨same, ?_⟩
      omega
    · exact h.ahead x mem other old

variable {r : ReadyResponse}

/-- The response that is taken comes before all that wait. -/
theorem take (h : j.InLine) (same : j.SameReads j') (later : j.now ≤ j'.now) (free : j.held = none)
    (popped : j.controller.responses.pop? ReadyResponse.before = some (r, j'.controller.responses))
    (ready : r.ready ≤ j'.now) (place : j'.controller.lastTaken = some (r.ready, r.seq))
    (held : j'.held = some r) (sent : j'.sent = j.sent)
    (taken : j'.taken = j.taken ++ [(j'.now, r)]) :
    j'.responses.Perm j.responses ∧ j'.InLine := by
  have left := Heap.pop?_perm popped
  have waits : j'.waiting.Perm j.waiting := by
    rw [waiting, waiting, held, free, Option.toList_none, List.append_nil, Option.toList_some]
    exact (List.perm_append_singleton _ _).trans left.symm
  have all : j'.responses.Perm j.responses := by
    rw [Journal.responses, Journal.responses, sent]
    exact waits.append_right _
  have heap : j.waiting = j.controller.responses.toList := by
    rw [waiting, free]
    exact List.append_nil _
  have first : r ∈ j.waiting := by
    rw [heap]
    exact left.mem_iff.2 List.mem_cons_self
  refine ⟨all, ?_, ?_, ?_, ?_, ?_, ?_, ?_⟩
  · exact Heap.Ordered.pop? ReadyResponse.isRanking_before h.ordered popped
  · rw [place, held]
    rfl
  · intro other mem
    rw [same.nextSeq]
    exact h.numbers other (all.mem_iff.1 mem)
  · rw [taken]
    refine List.forall_mem_append.2 ⟨fun x mem => ?_, ?_⟩
    · exact ⟨(h.past x mem).1, Nat.le_trans (h.past x mem).2 later⟩
    · simpa using ready
  · rw [taken]
    refine List.forall_mem_append.2 ⟨fun x mem => all.mem_iff.2 (h.own x mem), ?_⟩
    simp only [List.mem_singleton, forall_eq]
    exact all.mem_iff.2 (List.mem_append_left _ first)
  · rw [taken]
    refine List.pairwise_append.2 ⟨h.sorted, List.pairwise_singleton _ _, fun x mem y last => ?_⟩
    rw [List.mem_singleton.1 last]
    exact h.ahead x mem r first
  · rw [taken]
    refine List.forall_mem_append.2 ⟨fun x mem other waits' => ?_, ?_⟩
    · exact h.ahead x mem other (waits.mem_iff.1 waits')
    · simp only [List.mem_singleton, forall_eq]
      intro other waits'
      refine Heap.pop?_first ReadyResponse.isRanking_before h.ordered popped ?_
      rw [← heap]
      exact waits.mem_iff.1 waits'

theorem deliver (h : j.InLine) (same : j.SameReads j') (later : j.now ≤ j'.now)
    (free : j.held = some r) (responses : j'.controller.responses = j.controller.responses)
    (place : j'.controller.lastTaken = none) (held : j'.held = none)
    (sent : j'.sent = j.sent ++ [r]) (taken : j'.taken = j.taken) :
    j'.responses.Perm j.responses ∧ j'.InLine := by
  have waits : j'.waiting = j.controller.responses.toList := by
    rw [waiting, responses, held]
    exact List.append_nil _
  have all : j'.responses.Perm j.responses := by
    rw [Journal.responses, Journal.responses, waits, sent, waiting, free, Option.toList_some,
      List.append_assoc]
    exact List.Perm.append_left _ List.perm_append_comm
  refine ⟨all, h.moved later (responses ▸ h.ordered) ?_ same.nextSeq all ?_ taken⟩
  · rw [place, held]
    rfl
  · rw [waits]
    exact fun r mem => List.mem_append_left _ mem

theorem refuse (h : j.InLine) (same : j.SameReads j') (later : j.now ≤ j'.now)
    (free : j.held = some r)
    (responses : ∃ now, j'.controller.responses =
      j.controller.responses.push ReadyResponse.before
        ⟨(j.controller.lastTaken.getD (now, 0)).1, (j.controller.lastTaken.getD (now, 0)).2,
          r.packet⟩)
    (place : j'.controller.lastTaken = none) (held : j'.held = none) (sent : j'.sent = j.sent)
    (taken : j'.taken = j.taken) : j'.responses.Perm j.responses ∧ j'.InLine := by
  obtain ⟨now, back⟩ := responses
  rw [h.place, free] at back
  have back : j'.controller.responses = j.controller.responses.push ReadyResponse.before r := back
  have added := Heap.push_perm ReadyResponse.before j.controller.responses r
  have waits : j'.waiting.Perm j.waiting := by
    rw [waiting, waiting, back, held, free, Option.toList_none, List.append_nil, Option.toList_some]
    exact added.trans (List.perm_append_singleton _ _).symm
  have all : j'.responses.Perm j.responses := by
    rw [Journal.responses, Journal.responses, sent]
    exact waits.append_right _
  refine ⟨all, h.moved later ?_ ?_ same.nextSeq all (fun r => waits.mem_iff.1) taken⟩
  · rw [back]
    exact Heap.Ordered.push ReadyResponse.isRanking_before h.ordered r
  · rw [place, held]
    rfl

theorem first (h : j.InLine) (free : j.held = none) {now : Tick}
    (took : j.controller.takes (.take now) = some r) :
    r ∈ j.waiting ∧ ∀ other ∈ j.waiting, other.before r = false := by
  obtain ⟨-, ⟨rest, popped⟩, -⟩ := takes_eq_some.1 took
  have heap : j.waiting = j.controller.responses.toList := by
    rw [waiting, free]
    exact List.append_nil _
  rw [heap]
  exact ⟨(Heap.pop?_perm popped).mem_iff.2 List.mem_cons_self,
    fun other => Heap.pop?_first ReadyResponse.isRanking_before h.ordered popped⟩

theorem isSome_takes (h : j.InLine) (free : j.held = none) (now : Tick) :
    (j.controller.takes (.take now)).isSome ↔
      j.controller.awaitingResponseRetry = false ∧ ∃ r ∈ j.waiting, r.ready ≤ now := by
  constructor
  · intro took
    obtain ⟨r, took⟩ := Option.isSome_iff_exists.1 took
    obtain ⟨released, -, ready⟩ := takes_eq_some.1 took
    exact ⟨released, r, (h.first free took).1, ready⟩
  · rintro ⟨released, r, mem, ready⟩
    rw [waiting, free, Option.toList_none, List.append_nil] at mem
    cases popped : j.controller.responses.pop? ReadyResponse.before with
    | none =>
      rw [Heap.pop?_eq_none_iff.1 popped] at mem
      cases mem
    | some pair =>
      obtain ⟨next, rest⟩ := pair
      have before := Heap.pop?_first ReadyResponse.isRanking_before h.ordered popped mem
      have le : next.ready ≤ r.ready := by
        rcases ReadyResponse.before_eq_false_iff.1 before with lt | ⟨same, -⟩
        · exact Nat.le_of_lt lt
        · exact Nat.le_of_eq same
      exact Option.isSome_iff_exists.2
        ⟨next, takes_eq_some.2 ⟨released, ⟨rest, popped⟩, Nat.le_trans le ready⟩⟩

end InLine

end Controller.Journal

end Expander
