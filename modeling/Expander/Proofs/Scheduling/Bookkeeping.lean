import Expander.Proofs.Scheduling.Answering
import Expander.Proofs.Scheduling.Books

/-!
The books of a controller: its queues, the bursts in flight, the index of queued writes and the
table of pending reads.

As long as calls come in the order of time and packets have numbers of their own, the books are in
order after every call, and within the limits however long the next call is in coming
(`bookkept_timed`). What becomes of the responses is of no account.
-/

set_option autoImplicit false

namespace Expander.Controller

variable {μ : Type} {now : Tick} {p : Packet}

/-- The queues within their sizes and limits, the index and the table as the queues have it, and
every queued burst where it belongs. -/
structure Bookkept (c : Controller μ) (now : Tick) : Prop where
  reads : c.readQueue.length ≤ c.config.readBufferSize
  writes : c.writeQueue.length ≤ c.config.writeBufferSize
  pendingReads : ∀ tick, now ≤ tick → c.outstandingReads tick ≤ c.config.maxPendingReads
  pendingWrites : ∀ tick, now ≤ tick → c.outstandingWrites tick ≤ c.config.maxPendingWrites
  apart : (c.writeQueue.map (·.offset)).Nodup
  /-- The index has the offsets of the queued writes, each once. -/
  indexed : c.queuedWrites.Perm (c.writeQueue.map (·.offset))
  /-- A pending read counts its queued bursts, of which there is one. -/
  table : ReadsKept c.pending (c.readQueue.map (·.packetId))
  placed : ∀ b ∈ c.readQueue ++ c.writeQueue, c.Placed b

namespace Journal

variable {j : Journal μ}

def Timely (j : Journal μ) (call : Call) : Prop :=
  (∀ now, call.tick? = some now → j.now ≤ now) ∧
    ∀ now p, call = .offer now p → p.id ∉ j.admitted.map (·.packet.id)

/-- The pending reads count the queued bursts, which belong to accepted packets. -/
structure Filed (j : Journal μ) : Prop where
  reads : ReadsKept j.controller.pending (j.controller.readQueue.map (·.packetId))
  known : ∀ id ∈ j.controller.readQueue.map (·.packetId), id ∈ j.admitted.map (·.packet.id)

section Rounds

variable [MediaChannel μ]

/-- The journals of the runs of timely calls, whatever becomes of the responses. -/
inductive Timed : Journal μ → Prop
  | created {m name range config geometry media store} {c : Controller μ}
      (made : create m name range config geometry media store = .ok c) : Timed { controller := c }
  | called {j : Journal μ} {call : Call} (timed : Timed j) (timely : j.Timely call) :
      Timed (j.after call)

theorem Timed.reachable (h : j.Timed) : j.controller.Reachable := by
  induction h with
  | created made => exact .created made
  | called _ _ ih => exact .called ih _

theorem admitted_after (j : Journal μ) (call : Call) :
    (j.after call).admitted = j.admitted ++ (j.controller.admits call).toList := by
  rfl

theorem mem_admitted_after {id : TransactionId} (mem : id ∈ j.admitted.map (·.packet.id))
    (call : Call) : id ∈ (j.after call).admitted.map (·.packet.id) := by
  rw [admitted_after, List.map_append]
  exact List.mem_append_left _ mem

theorem Filed.alike (h : j.Filed) {call : Call}
    (pending : (j.after call).controller.pending = j.controller.pending)
    (queue : (j.after call).controller.readQueue = j.controller.readQueue) :
    (j.after call).Filed := by
  refine ⟨?_, fun id queued => ?_⟩
  · rw [pending, queue]
    exact h.reads
  · rw [queue] at queued
    exact mem_admitted_after (h.known id queued) call

theorem Filed.offer (h : j.Filed) {now : Tick} {p : Packet}
    (timely : j.Timely (.offer now p)) : (j.after (.offer now p)).Filed := by
  rcases recvRequest_desk j.controller now p with ⟨-, desk⟩ | ⟨-, -, desk⟩ |
    ⟨accepted, -, some, desk⟩
  · exact h.alike desk.pending desk.reads
  · exact h.alike desk.pending desk.reads
  · have unknown : p.id ∉ j.controller.pending.map (·.1) := by
      intro filed
      obtain ⟨entry, mem, same⟩ := List.mem_map.1 filed
      have queued : 0 < (j.controller.readQueue.map (·.packetId)).count entry.1 := by
        rw [← h.reads.counted entry mem]
        exact h.reads.left entry mem
      exact timely.2 now p rfl (same ▸ h.known _ (List.count_pos_iff.1 queued))
    have others : (j.controller.pending.filter fun entry => entry.1 != p.id) =
        j.controller.pending := by
      refine List.filter_eq_self.2 fun entry mem => ?_
      have apart : entry.1 ≠ p.id := fun same => unknown (same ▸ List.mem_map_of_mem mem)
      simpa using apart
    have pending : (j.after (.offer now p)).controller.pending =
        j.controller.pending ++ [(p.id, j.controller.parkedRead now p)] := by
      refine desk.pending.trans ?_
      rw [parked, filePending]
      simp only
      rw [others]
    have queue : (j.after (.offer now p)).controller.readQueue.map (·.packetId) =
        j.controller.readQueue.map (·.packetId) ++
          List.replicate (j.controller.freshBurstsOf p).length p.id := by
      have reads : (j.after (.offer now p)).controller.readQueue = j.controller.readQueue ++ _ :=
        desk.reads
      rw [reads, List.map_append, List.map_map]
      exact congrArg _ (List.map_const' ..)
    refine ⟨?_, fun id queued => ?_⟩
    · rw [pending, queue]
      exact h.reads.file unknown rfl (List.length_pos_iff.2 some)
    · rw [queue] at queued
      rcases List.mem_append.1 queued with old | new
      · exact mem_admitted_after (h.known id old) _
      · rw [List.eq_of_mem_replicate new, admitted_after, List.map_append]
        refine List.mem_append_right _ ?_
        simp [admits, accepted]

theorem Filed.process (h : j.Filed) (orderly : j.controller.Orderly) (now : Tick) :
    (j.after (.process now)).Filed := by
  rcases process_desk orderly now with ⟨-, desk⟩ | ⟨s, -, ⟨-, desk⟩ | ⟨-, place, found, desk⟩⟩
  · exact h.alike desk.pending desk.reads
  · exact h.alike desk.pending desk.reads
  · have split := passOver_perm (·.packetId) (fun _ => rfl) found
    have queue : (j.after (.process now)).controller.readQueue =
        passOver j.controller.readQueue place :=
      desk.reads.trans (sameBus_finishRead _ _ _).reads
    refine ⟨?_, fun id queued => ?_⟩
    · rw [queue, show (j.after (.process now)).controller.pending = _ from desk.pending]
      exact (readsKept_finishRead (c := { j.controller with
        readQueue := passOver j.controller.readQueue place }) (h.reads.perm split) s.readyAt).1
    · rw [queue] at queued
      exact mem_admitted_after (h.known id (split.mem_iff.2 (List.mem_cons_of_mem _ queued))) _

theorem Filed.next (h : j.Filed) (orderly : j.controller.Orderly) {call : Call}
    (timely : j.Timely call) : (j.after call).Filed := by
  cases call with
  | offer now p => exact h.offer timely
  | process now => exact h.process orderly now
  | take now =>
    cases took : j.controller.takeResponse now with
    | none =>
      have stays : (j.after (.take now)).controller = j.controller := by
        simp [after, Controller.after, took]
      exact h.alike (by rw [stays]) (by rw [stays])
    | some taken =>
      obtain ⟨-, r, responses, -, -, -, eq⟩ := takeResponse_eq_some took
      have left : (j.after (.take now)).controller = taken.2 := by
        simp [after, Controller.after, took]
      exact h.alike (by rw [left, eq]) (by rw [left, eq])
  | sent now => exact h.alike rfl rfl
  | refused now p => exact h.alike rfl rfl
  | retry now => exact h.alike rfl rfl
  | atomic p =>
    have desk := sameDesk_accessAtomic j.controller p
    exact h.alike desk.pending desk.reads

theorem limited_after (h : j.controller.Limited j.now) (orderly : j.controller.Orderly)
    {call : Call} (timely : j.Timely call) :
    (j.after call).controller.Limited (j.after call).now := by
  have passed : j.now ≤ (j.after call).now := by
    simp only [after]
    cases tick : call.tick? with
    | none => exact Nat.le_refl _
    | some now => exact timely.1 now tick
  rcases after_books orderly call with same | ⟨now, tick, cases⟩
  · exact Limited.alike (fun d tick le => h d tick (Nat.le_trans passed le)) same
  · have present : (j.after call).now = now := by
      simp only [after]
      rw [tick, Option.getD_some]
    rw [present] at passed ⊢
    have pruned : (j.controller.prune now).Limited now := h.prune passed
    rcases cases with same | ⟨p, d, enters⟩ | ⟨pick, departs⟩
    · exact pruned.alike same
    · exact pruned.enter enters
    · exact pruned.depart departs

theorem Timed.limited (h : j.Timed) : j.controller.Limited j.now := by
  induction h with
  | created made => exact .create made
  | called timed timely ih => exact limited_after ih timed.reachable.orderly timely

theorem Timed.filed (h : j.Timed) : j.Filed := by
  induction h with
  | created made =>
    obtain ⟨-, -, -, rfl⟩ := create_eq_ok made
    exact ⟨.nil, nofun⟩
  | called timed timely ih => exact ih.next timed.reachable.orderly timely

/-- The books are in order after every run of timely calls, and stay within the limits however long
the next call is in coming. -/
theorem bookkept_timed (h : j.Timed) : j.controller.Bookkept j.now := by
  have orderly := h.reachable.orderly
  have limited := h.limited
  have sited := h.reachable.sited
  refine ⟨orderly.room .read, orderly.room .write, limited .read, limited .write, sited.apart,
    orderly.indexed, h.filed.reads, ?_⟩
  exact List.forall_mem_append.2 ⟨sited.placed .read, sited.placed .write⟩

end Rounds

/-- A write of one burst, a second one that is merged into it in part, and a read of three bursts of
which two have a queued write. -/
def straddling : Journal Media :=
  ((Journal.after { controller := ofConfig shortConfig }
    (.offer 0 (.write 0 4096 (List.replicate 64 0x5a) 0))).after
    (.offer 5 (.write 1 4156 (List.replicate 8 0x5a) 0))).after (.offer 9 (.read 2 4032 136 0))

theorem bookkept_straddling :
    straddling.controller.writeQueue.map (·.offset) = [4096, 4160] ∧
      straddling.controller.readQueue.map (·.offset) = [4032] ∧
      straddling.controller.Bookkept 9 := by
  have start : Timed { controller := ofConfig shortConfig } := .created (create_shortConfig)
  have timely {j : Journal Media} {now : Tick} {p : Packet} (later : j.now ≤ now)
      (fresh : p.id ∉ j.admitted.map (·.packet.id)) : j.Timely (.offer now p) := by
    refine ⟨fun tick same => ?_, fun tick q same => ?_⟩
    · cases same
      exact later
    · cases same
      exact fresh
  refine ⟨by decide +kernel, by decide +kernel, bookkept_timed (.called (.called (.called start ?_)
    ?_) ?_)⟩
  · exact timely (Nat.zero_le _) List.not_mem_nil
  · exact timely (by decide) (by decide +kernel)
  · exact timely (by decide) (by decide +kernel)

end Journal

end Expander.Controller
