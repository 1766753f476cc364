import Expander.Proofs.Scheduling.Books

/-!
Which bursts of a read need no access to the media.

The history of a controller tells which writes still stand: those that were accepted and have a
burst that was not issued since. A read is served from the write queue in each burst that a standing
write touches (`Touched`), whether or not standing writes have supplied the bytes it asks for
(`Supplied`). So a read misses the media for bytes that no queued write has exactly when a standing
write has filled its burst in part and left such a byte out (`covered_iff`).
-/

set_option autoImplicit false

namespace Expander.Controller

variable {μ : Type} {c c' : Controller μ} {now : Tick} {p q : Packet} {b : Burst}
  {burst x : Nat}

/-- What happens to the queued writes: packets are accepted, and bursts are issued. -/
inductive Event where
  | accepted (packet : Packet)
  | issued (burst : Burst)
deriving DecidableEq, Repr

def Standing (past : List Event) (burst : Nat) (p : Packet) : Prop :=
  ∃ before later, past = before ++ .accepted p :: later ∧ p.kind = .write ∧
    ∀ b, .issued b ∈ later → b.kind = .write → b.offset ≠ burst

theorem not_standing_nil : ¬ Standing [] burst p := by
  rintro ⟨before, later, split, -⟩
  simp at split

theorem standing_accepted {past : List Event} : Standing (past ++ [.accepted q]) burst p ↔
    Standing past burst p ∨ (p = q ∧ p.kind = .write) := by
  constructor
  · rintro ⟨before, later, split, write, kept⟩
    rcases List.eq_nil_or_concat' later with rfl | ⟨rest, last, rfl⟩
    · obtain ⟨-, same⟩ := List.append_inj' split rfl
      cases same
      exact .inr ⟨rfl, write⟩
    · rw [← List.cons_append, ← List.append_assoc] at split
      obtain ⟨rfl, -⟩ := List.append_inj' split rfl
      exact .inl ⟨before, rest, rfl, write, fun b mem => kept b (List.mem_append_left _ mem)⟩
  · rintro (⟨before, later, rfl, write, kept⟩ | ⟨rfl, write⟩)
    · refine ⟨before, later ++ [.accepted q], by simp, write, fun b mem => kept b ?_⟩
      simpa using mem
    · exact ⟨past, [], rfl, write, fun b mem => absurd mem List.not_mem_nil⟩

theorem standing_issued {past : List Event} : Standing (past ++ [.issued b]) burst p ↔
    Standing past burst p ∧ ¬ (b.kind = .write ∧ b.offset = burst) := by
  constructor
  · rintro ⟨before, later, split, write, kept⟩
    rcases List.eq_nil_or_concat' later with rfl | ⟨rest, last, rfl⟩
    · obtain ⟨-, same⟩ := List.append_inj' split rfl
      cases same
    · rw [← List.cons_append, ← List.append_assoc] at split
      obtain ⟨rfl, same⟩ := List.append_inj' split rfl
      cases same
      refine ⟨⟨before, rest, rfl, write, fun b mem => kept b (List.mem_append_left _ mem)⟩, ?_⟩
      rintro ⟨kind, offset⟩
      exact kept b (by simp) kind offset
  · rintro ⟨⟨before, later, rfl, write, kept⟩, apart⟩
    refine ⟨before, later ++ [.issued b], by simp, write, fun other mem kind offset => ?_⟩
    rcases List.mem_append.1 mem with old | new
    · exact kept other old kind offset
    · cases List.mem_singleton.1 new
      exact apart ⟨kind, offset⟩

def Asks (c : Controller μ) (p : Packet) (x : Nat) : Prop :=
  c.range.offsetOf p.addr ≤ x ∧ x < c.range.offsetOf p.addr + p.size

def Brings (c : Controller μ) (p : Packet) (x : Nat) : Prop :=
  c.range.offsetOf p.addr ≤ x ∧ x < c.range.offsetOf p.addr + p.data.length

def Touched (c : Controller μ) (past : List Event) (burst : Nat) : Prop :=
  ∃ p, Standing past burst p ∧ burst ∈ c.burstsOf p

def Supplied (c : Controller μ) (past : List Event) (x : Nat) : Prop :=
  ∃ p, Standing past (c.decoder.burstAlign x) p ∧ c.Brings p x

/-- A write of whole bursts. -/
structure WholeBursts (c : Controller μ) (p : Packet) : Prop where
  start : c.decoder.geometry.burstSize ∣ c.range.offsetOf p.addr
  length : c.decoder.geometry.burstSize ∣ p.size
  some : 0 < p.size
  data : p.data.length = p.size

def missed (c c' : Controller μ) : List Nat :=
  (c'.readQueue.drop c.readQueue.length).map (·.offset)

/-- A read is served from the write queue in those bytes only that queued writes have brought. -/
structure Covered (c : Controller μ) (past : List Event) (p : Packet) (c' : Controller μ) :
    Prop where
  /-- Queued writes have brought what the read asks for of a burst that goes to no channel. -/
  forwarded : ∀ burst ∈ c.burstsOf p, burst ∉ c.missed c' →
    ∀ x, c.decoder.burstAlign x = burst → c.Asks p x → c.Supplied past x
  /-- The burst of a byte that no queued write has brought goes to its channel. -/
  fetched : ∀ x, c.Asks p x → ¬ c.Supplied past x → c.decoder.burstAlign x ∈ c.missed c'

theorem mem_burstsOf_of_asks (asked : c.Asks p x) : c.decoder.burstAlign x ∈ c.burstsOf p := by
  obtain ⟨low, high⟩ := asked
  exact AddressDecoder.burstAlign_mem_burstsOf low (by omega)

theorem WholeBursts.brings (whole : c.WholeBursts p)
    (touched : c.decoder.burstAlign x ∈ c.burstsOf p) : c.Brings p x := by
  obtain ⟨start, length, some, data⟩ := whole
  have positive : 0 < c.decoder.geometry.burstSize := Nat.pos_of_dvd_of_pos length some
  obtain ⟨y, low, high, same⟩ := (AddressDecoder.mem_burstsOf positive).1 touched
  have first := AddressDecoder.burstAlign_mono (d := c.decoder) low
  rw [AddressDecoder.burstAlign_eq_self start, same] at first
  have below := c.decoder.burstAlign_le x
  have above := AddressDecoder.lt_burstAlign_add positive x
  have stop : c.decoder.burstAlign x + c.decoder.geometry.burstSize ≤
      c.range.offsetOf p.addr + p.size := by
    have before := c.decoder.burstAlign_le y
    have rest := Nat.le_of_dvd (by omega : 0 < c.range.offsetOf p.addr + p.size -
      c.decoder.burstAlign x) (Nat.dvd_sub (Nat.dvd_add start length) (c.decoder.burstAlign_dvd x))
    omega
  exact ⟨by omega, by omega⟩

theorem recvRequest_writes (c : Controller μ) (now : Tick) (p : Packet) :
    ((c.recvRequest now p).answer = .accepted ∧ p.kind = .write ∧
        (c.recvRequest now p).stage.writeQueue =
          c.writeQueue ++ (c.freshBurstsOf p).map (c.burstAt p .write now)) ∨
      (((c.recvRequest now p).answer = .accepted → p.kind ≠ .write) ∧
        (c.recvRequest now p).stage.writeQueue = c.writeQueue) := by
  rcases recvRequest_eq c now p with ⟨-, eq⟩ | ⟨-, read, eq⟩ | ⟨-, write, eq⟩ <;> rw [eq]
  · exact .inr ⟨nofun, rfl⟩
  · refine .inr ⟨fun _ write => (by cases read.symm.trans write), ?_⟩
    rcases acceptRead_outcome (c.prune now) now p with ⟨counters, -, eq⟩ |
      ⟨-, counters, reply, -, rfl, eq⟩ | ⟨-, -, counters, asked, -, rfl, eq⟩ <;> rw [eq]
    · rfl
    · rfl
    · exact (sameBus_requestRound _ now).writes
  · rcases acceptWrite_outcome (c.prune now) now p with ⟨counters, -, eq⟩ |
      ⟨-, counters, reply, asked, -, rfl, rfl, eq⟩ <;> rw [eq]
    · exact .inr ⟨nofun, rfl⟩
    · exact .inl ⟨rfl, write, (sameBus_requestRound _ now).writes⟩

section Rounds

variable [MediaChannel μ]

def events (c : Controller μ) : Call → List Event
  | .offer now p => if (c.recvRequest now p).answer = .accepted then [.accepted p] else []
  | .process now => (c.picked (.process now)).toList.map fun pick => .issued pick.burst
  | .take _ | .sent _ | .refused .. | .retry _ | .atomic _ => []

/-- The controllers that calls can lead to, with what has happened, the first event first. -/
inductive Traced : List Event → Controller μ → Prop
  | created {m name range config geometry media store} {c : Controller μ}
      (made : create m name range config geometry media store = .ok c) : Traced [] c
  | called {past : List Event} {c : Controller μ} (traced : Traced past c) (call : Call) :
      Traced (past ++ c.events call) (c.after call)

variable {past : List Event}

theorem Traced.reachable (h : Traced past c) : c.Reachable := by
  induction h with
  | created made => exact .created made
  | called _ call ih => exact .called ih call

theorem readQueue_offer (kind : p.kind = .read)
    (accepted : (c.recvRequest now p).answer = .accepted) :
    (c.after (.offer now p)).readQueue =
      c.readQueue ++ (c.freshBurstsOf p).map (c.burstAt p .read now) := by
  rcases recvRequest_desk c now p with ⟨declined, -⟩ | ⟨-, none, desk⟩ | ⟨-, -, -, desk⟩
  · exact absurd accepted declined
  · rcases none with write | none
    · rw [kind] at write
      cases write
    · rw [none, List.map_nil, List.append_nil]
      exact desk.reads
  · exact desk.reads

theorem missed_offer (kind : p.kind = .read)
    (accepted : (c.recvRequest now p).answer = .accepted) :
    c.missed (c.after (.offer now p)) = c.freshBurstsOf p := by
  rw [missed, readQueue_offer kind accepted, List.drop_left, List.map_map]
  exact List.map_id _

theorem forwardedReads_offer (kind : p.kind = .read)
    (accepted : (c.recvRequest now p).answer = .accepted) :
    (c.after (.offer now p)).counters.forwardedReads = c.counters.forwardedReads +
      ((c.burstsOf p).length - (c.freshBurstsOf p).length) := by
  have counters (c : Controller μ) (tick : Tick) :
      (c.requestRound tick).1.counters = c.counters := by
    rcases requestRound_cases c tick with ⟨planned, -, eq⟩ | eq <;> rw [eq]
  rcases recvRequest_eq c now p with ⟨-, eq⟩ | ⟨-, -, eq⟩ | ⟨-, write, -⟩
  · rw [eq] at accepted
    cases accepted
  · rw [after, eq]
    rw [eq] at accepted
    rw [acceptRead] at accepted ⊢
    split at accepted
    · cases accepted
    next room =>
      rw [if_neg room]
      split
      · rfl
      · simp only [counters]
        rfl
  · rw [kind] at write
    cases write

/-- What a call does to the write queue, and to the writes that stand: nothing; or a write is
accepted; or a burst of one is issued. -/
inductive WritesAfter (c : Controller μ) (call : Call) : Prop
  | kept (queue : (c.after call).writeQueue = c.writeQueue)
      (standing : ∀ past burst q,
        Standing (past ++ c.events call) burst q ↔ Standing past burst q)
  | joined (now : Tick) (p : Packet) (happened : c.events call = [.accepted p])
      (write : p.kind = .write)
      (queue : (c.after call).writeQueue =
        c.writeQueue ++ (c.freshBurstsOf p).map (c.burstAt p .write now))
  | left (place : Nat) (b : Burst) (happened : c.events call = [.issued b])
      (write : b.kind = .write) (found : c.writeQueue[place]? = some b)
      (queue : (c.after call).writeQueue = passOver c.writeQueue place)

theorem WritesAfter.quiet {call : Call} (none : c.events call = [])
    (same : c.SameBus (c.after call)) : c.WritesAfter call :=
  .kept same.writes fun past burst q => by rw [none, List.append_nil]

theorem writesAfter_offer (c : Controller μ) (now : Tick) (p : Packet) :
    c.WritesAfter (.offer now p) := by
  have happened : c.events (.offer now p) =
      if (c.recvRequest now p).answer = .accepted then [.accepted p] else [] := rfl
  rcases recvRequest_writes c now p with ⟨accepted, write, joined⟩ | ⟨other, same⟩
  · rw [if_pos accepted] at happened
    exact .joined now p happened write joined
  · refine .kept same fun past burst q => ?_
    rw [happened]
    split
    next accepted =>
      rw [standing_accepted, or_iff_left]
      rintro ⟨rfl, write⟩
      exact other accepted write
    next => rw [List.append_nil]

theorem writesAfter_process (h : c.Orderly) (now : Tick) : c.WritesAfter (.process now) := by
  rcases process_cases h.housed now with ⟨none, same⟩ | ⟨pick, chosen, issues⟩
  · refine .quiet ?_ same
    rw [events, none]
    rfl
  · have happened : c.events (.process now) = [.issued pick.burst] := by
      rw [events, chosen]
      rfl
    have kind := h.kinds _ _ (List.mem_of_getElem? issues.found)
    have found := issues.found
    have served := issues.served
    have other := issues.other
    cases facing : pick.direction with
    | read =>
      rw [facing] at kind other
      refine .kept other fun past burst q => ?_
      rw [happened, standing_issued, and_iff_left]
      rintro ⟨write, -⟩
      rw [kind] at write
      cases write
    | write =>
      rw [facing] at kind found served
      exact .left pick.place pick.burst happened kind found served

theorem writesAfter (h : c.Orderly) (call : Call) : c.WritesAfter call := by
  cases call with
  | offer now p => exact writesAfter_offer c now p
  | process now => exact writesAfter_process h now
  | take now =>
    refine .quiet rfl ?_
    cases took : c.takeResponse now with
    | none => simpa [after, took] using SameBus.refl c
    | some taken => simpa [after, took] using sameBus_takeResponse took
  | sent now => exact .quiet rfl (sameBus_responseSent c now)
  | refused now p => exact .quiet rfl (sameBus_responseRefused c now p)
  | retry now => exact .quiet rfl (sameBus_recvResponseRetry c now)
  | atomic p => exact .quiet rfl (sameBus_accessAtomic c p)

theorem sameSite_after (h : c.Orderly) (call : Call) : c.SameSite (c.after call) := by
  have pruned (now : Tick) : c.SameSite (c.prune now) := ⟨rfl, rfl, rfl, rfl⟩
  rcases after_books h call with same | ⟨now, -, same | ⟨p, d, enters⟩ | ⟨pick, departs⟩⟩
  · exact same.toSameSite
  · exact (pruned now).trans same.toSameSite
  · exact (pruned now).trans enters.site
  · exact (pruned now).trans departs.site

/-- The bursts with a queued write are those that standing writes touch. -/
theorem queued_iff_touched (h : Traced past c) :
    burst ∈ c.writeQueue.map (·.offset) ↔ c.Touched past burst := by
  induction h with
  | created made =>
    obtain ⟨-, -, -, rfl⟩ := create_eq_ok made
    exact ⟨nofun, fun ⟨p, standing, _⟩ => absurd standing not_standing_nil⟩
  | @called past c traced call ih =>
    have orderly := traced.reachable.orderly
    have bursts := congrFun (sameSite_after orderly call).burstsOf
    simp only [Touched, bursts]
    rcases writesAfter orderly call with ⟨queue, standing⟩ | ⟨now, p, happened, write, queue⟩ |
      ⟨place, b, happened, write, found, queue⟩
    · simp only [queue, standing]
      exact ih
    · have joined : burst ∈ (c.freshBurstsOf p).map id ↔
          burst ∈ c.burstsOf p ∧ burst ∉ c.writeQueue.map (·.offset) := by
        rw [List.map_id, freshBurstsOf_eq orderly, unqueuedBursts, List.mem_filter]
        simp [List.contains_eq_mem]
      rw [queue, List.map_append, List.mem_append, List.map_map,
        show (·.offset) ∘ c.burstAt p .write now = id from rfl, joined, happened]
      simp only [standing_accepted]
      constructor
      · rintro (old | ⟨touched, -⟩)
        · obtain ⟨q, standing, touched⟩ := ih.1 old
          exact ⟨q, .inl standing, touched⟩
        · exact ⟨p, .inr ⟨rfl, write⟩, touched⟩
      · rintro ⟨q, standing | ⟨rfl, -⟩, touched⟩
        · exact .inl (ih.2 ⟨q, standing, touched⟩)
        · by_cases old : burst ∈ c.writeQueue.map (·.offset)
          · exact .inl old
          · exact .inr ⟨touched, old⟩
    · -- The burst that is issued is the only one of its offset.
      have split := passOver_perm (·.offset) (fun _ => rfl) found
      have apart := (List.nodup_cons.1 (split.nodup_iff.1 traced.reachable.sited.apart)).1
      rw [queue, happened]
      simp only [standing_issued, write, true_and]
      constructor
      · intro left
        obtain ⟨q, standing, touched⟩ := ih.1 (split.mem_iff.2 (List.mem_cons_of_mem _ left))
        exact ⟨q, ⟨standing, fun same => apart (same ▸ left)⟩, touched⟩
      · rintro ⟨q, ⟨standing, other⟩, touched⟩
        rcases List.mem_cons.1 (split.mem_iff.1 (ih.2 ⟨q, standing, touched⟩)) with same | left
        · exact absurd same.symm other
        · exact left

/-- The bursts of a read that go to their channel are those that no queued write touches, and the
others are counted as forwarded. The write queue then supplies what the read asks for unless a
queued write touches a burst of it and none has brought one of its bytes; it does supply it when all
writes are of whole bursts. -/
theorem covered_iff (traced : Traced past c) (kind : p.kind = .read)
    (accepted : (c.recvRequest now p).answer = .accepted) :
    let c' := c.after (.offer now p)
    (∀ burst, burst ∈ c.missed c' ↔ burst ∈ c.burstsOf p ∧ ¬ c.Touched past burst) ∧
      c'.counters.forwardedReads =
        c.counters.forwardedReads + ((c.burstsOf p).length - (c.missed c').length) ∧
      (c.Covered past p c' ↔ ∀ x, c.Asks p x → c.Touched past (c.decoder.burstAlign x) →
        c.Supplied past x) ∧
      ((∀ q, .accepted q ∈ past → q.kind = .write → c.WholeBursts q) → c.Covered past p c') := by
  have orderly := traced.reachable.orderly
  have missed (burst : Nat) : burst ∈ c.missed (c.after (.offer now p)) ↔
      burst ∈ c.burstsOf p ∧ ¬ c.Touched past burst := by
    rw [missed_offer kind accepted, freshBurstsOf_eq orderly, unqueuedBursts, List.mem_filter,
      ← queued_iff_touched traced]
    simp [List.contains_eq_mem]
  have iff : c.Covered past p (c.after (.offer now p)) ↔
      ∀ x, c.Asks p x → c.Touched past (c.decoder.burstAlign x) → c.Supplied past x := by
    constructor
    · intro covered x asked touched
      exact covered.forwarded _ (mem_burstsOf_of_asks asked)
        (fun fetched => ((missed _).1 fetched).2 touched) x rfl asked
    · intro supplied
      refine ⟨fun burst mem skipped x same asked => ?_, fun x asked absent => ?_⟩
      · refine supplied x asked ?_
        by_contra untouched
        exact skipped ((missed burst).2 ⟨mem, same ▸ untouched⟩)
      · refine (missed _).2 ⟨mem_burstsOf_of_asks asked, fun touched => ?_⟩
        exact absent (supplied x asked touched)
  refine ⟨missed, ?_, iff, fun whole => iff.2 ?_⟩
  · rw [missed_offer kind accepted]
    exact forwardedReads_offer kind accepted
  · rintro x - ⟨q, standing, touched⟩
    refine ⟨q, standing, ?_⟩
    obtain ⟨before, later, rfl, write, -⟩ := standing
    exact (whole q (by simp) write).brings touched

end Rounds

def pageWrite (data : List UInt8) : Packet := .write 0 4096 data 0

def pageRead : Packet := .read 1 4096 64 0

def afterPageWrite (data : List UInt8) : Controller Media :=
  (ofConfig shortConfig).after (.offer 0 (pageWrite data))

theorem traced_afterPageWrite {data : List UInt8}
    (accepted : ((ofConfig shortConfig).recvRequest 0 (pageWrite data)).answer = .accepted) :
    Traced [.accepted (pageWrite data)] (afterPageWrite data) := by
  have traced := Traced.called (.created (create_shortConfig)) (.offer 0 (pageWrite data))
  have happened : (ofConfig shortConfig).events (.offer 0 (pageWrite data)) =
      [.accepted (pageWrite data)] := if_pos accepted
  rwa [happened] at traced

/-- A whole burst in the write queue serves the read of it. -/
theorem covered_whole_write :
    let data : List UInt8 := List.replicate 64 0x5a
    let c := afterPageWrite data
    (c.recvRequest 0 pageRead).answer = .accepted ∧ c.missed (c.after (.offer 0 pageRead)) = [] ∧
      c.Covered [.accepted (pageWrite data)] pageRead (c.after (.offer 0 pageRead)) := by
  have accepted : ((afterPageWrite (List.replicate 64 0x5a)).recvRequest 0 pageRead).answer =
      .accepted := by
    decide +kernel
  obtain ⟨-, -, -, covers⟩ := covered_iff (traced_afterPageWrite (by decide +kernel)) rfl accepted
  refine ⟨accepted, by decide +kernel, covers fun q mem _ => ?_⟩
  cases List.mem_singleton.1 mem
  exact ⟨by decide +kernel, by decide +kernel, by decide, rfl⟩

/-- Eight bytes in the write queue serve the read of their whole burst. -/
theorem not_covered_partial_write :
    let data : List UInt8 := List.replicate 8 0x5a
    let c := afterPageWrite data
    Traced [.accepted (pageWrite data)] c ∧ (c.recvRequest 0 pageRead).answer = .accepted ∧
      c.missed (c.after (.offer 0 pageRead)) = [] ∧
      ¬ c.Covered [.accepted (pageWrite data)] pageRead (c.after (.offer 0 pageRead)) := by
  have missed : (afterPageWrite (List.replicate 8 0x5a)).missed
      ((afterPageWrite (List.replicate 8 0x5a)).after (.offer 0 pageRead)) = [] := by
    decide +kernel
  refine ⟨traced_afterPageWrite (by decide +kernel), by decide +kernel, missed, fun covered => ?_⟩
  obtain ⟨q, ⟨before, later, split, -⟩, -, high⟩ := covered.forwarded 4096 (by decide +kernel)
    (by rw [missed]; exact List.not_mem_nil) 4104 (by decide +kernel)
    ⟨by decide +kernel, by decide +kernel⟩
  have same : .accepted q ∈ [Event.accepted (pageWrite (List.replicate 8 0x5a))] := by
    rw [split]
    exact List.mem_append_right _ List.mem_cons_self
  cases List.mem_singleton.1 same
  exact absurd high (by decide +kernel)

end Expander.Controller
