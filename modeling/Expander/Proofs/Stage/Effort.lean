import Mathlib.Algebra.BigOperators.Ring.List
import Mathlib.Algebra.Order.BigOperators.Group.List
import Mathlib.Algebra.Order.Ring.Nat
import Expander.Proofs.Stage.Refusal
import Expander.Proofs.Stage.ResponseOrder

/-!
The effort that a stage can still ask for.

Every packet, burst and issued burst that a stage holds can bring about a few more events
(`Load.credit`). A wake-up for a round brings about itself and the later rounds that wait for an
issued burst, one after the other (`Load.reach`). What a stage asks for in a call is paid from what
it holds less after the call.
-/

set_option autoImplicit false

namespace Expander

/-- The effort of an event at `tick`. A round may ask for one more event now, and then for a round
at each later tick at which an issued burst is done; there are `reach tick` of these at most. -/
def EventKind.effort (reach : Tick → Nat) (tick : Tick) : EventKind → Nat
  | sendRequest | sendResponse => 1
  | process => 2 + reach tick

def Action.effort (reach : Tick → Nat) (now : Tick) : Action → Nat
  | wake w => w.kind.effort reach (max w.tick now)
  | retryRequest | retryResponse => 1

def effortOf (reach : Tick → Nat) (now : Tick) (actions : List Action) : Nat :=
  (actions.map (Action.effort reach now)).sum

section Effort

variable {reach : Tick → Nat} {now : Tick}

@[simp] theorem effortOf_singleton (a : Action) :
    effortOf reach now [a] = a.effort reach now := Nat.add_zero _

@[simp] theorem effortOf_append (first second : List Action) :
    effortOf reach now (first ++ second) =
      effortOf reach now first + effortOf reach now second := by
  rw [effortOf, List.map_append, List.sum_append]
  rfl

theorem effortOf_ite (cond : Prop) [Decidable cond] (a : Action) (light : a.effort reach now ≤ 1) :
    effortOf reach now (if cond then [a] else []) ≤ 1 := by
  split
  · rwa [effortOf_singleton]
  · exact Nat.zero_le 1

theorem effortOf_sendAfter (kind : EventKind) (send : kind ≠ .process) (ready : Option Tick) :
    effortOf reach now ((sendAfter kind now ready).map .wake) ≤ 1 := by
  cases ready with
  | none => exact Nat.zero_le 1
  | some tick =>
    cases kind with
    | sendRequest | sendResponse => exact Nat.le_refl 1
    | process => exact absurd rfl send

end Effort

/-- What a stage holds that can bring about events. -/
structure Load where
  /-- The number of stages that a request in the stage has still to pass. -/
  rank : Nat
  /-- The sizes of the requests. -/
  requests : List Nat
  /-- The bursts that wait for a round. -/
  bursts : Nat
  /-- The ticks at which issued bursts are done. -/
  inFlight : List Tick
  /-- The responses, those included that wait for the media. -/
  answers : Nat

namespace Load

/-- The rounds after `tick` that wait for an issued burst, if every burst and every byte of the
requests is issued sometime. -/
def reach (l : Load) (tick : Tick) : Nat :=
  (l.requests.map (· + 1)).sum + l.bursts + Controller.countAfter l.inFlight tick

def requestCredit (k rank size : Nat) : Nat := 6 + 3 * rank + (size + 2) * (k + 1)

def answerCredit (rank answers : Nat) : Nat := (11 - 3 * rank) * answers

def credit (k : Nat) (l : Load) : Nat :=
  (l.requests.map (requestCredit k l.rank)).sum + l.bursts * (k + 1) + answerCredit l.rank l.answers

/-- The load shrinks, and the difference pays the effort. -/
structure Pays (k : Nat) (l l' : Load) (effort : Nat) : Prop where
  reach : ∀ tick, l'.reach tick ≤ l.reach tick
  credit : l'.credit k + effort ≤ l.credit k

theorem reach_cons (l : Load) (size tick : Nat) :
    { l with requests := size :: l.requests }.reach tick = l.reach tick + (size + 1) := by
  simp only [reach, List.map_cons, List.sum_cons]
  omega

theorem credit_cons (k : Nat) (l : Load) (size : Nat) :
    { l with requests := size :: l.requests }.credit k =
      l.credit k + requestCredit k l.rank size := by
  simp only [credit, List.map_cons, List.sum_cons]
  omega

theorem credit_answer (k : Nat) (l : Load) :
    { l with answers := l.answers + 1 }.credit k = l.credit k + (11 - 3 * l.rank) := by
  simp only [credit, answerCredit, Nat.mul_add, Nat.mul_one]
  omega

theorem reach_antitone (l : Load) {tick later : Tick} (le : tick ≤ later) :
    l.reach later ≤ l.reach tick := by
  refine Nat.add_le_add_left (List.countP_mono_left fun t _ after => ?_) _
  simp only [decide_eq_true_eq] at after ⊢
  exact Nat.lt_of_le_of_lt le after

theorem reach_lt {l : Load} {now tick : Tick} (mem : tick ∈ l.inFlight) (lt : now < tick) :
    l.reach tick + 1 ≤ l.reach now := by
  have split := List.perm_cons_erase mem
  have fewer :
      Controller.countAfter l.inFlight tick + 1 ≤ Controller.countAfter l.inFlight now := by
    simp only [Controller.countAfter, split.countP_eq, List.countP_cons, lt, decide_true, if_true,
      Nat.lt_irrefl, decide_false, Bool.false_eq_true, if_false, Nat.add_zero]
    refine Nat.add_le_add_right (List.countP_mono_left fun t _ after => ?_) 1
    simp only [decide_eq_true_eq] at after ⊢
    exact Nat.lt_trans lt after
  exact Nat.add_le_add_left fewer _

theorem Pays.of_sublist {k : Nat} {l : Load} {inFlight : List Tick}
    (sub : inFlight.Sublist l.inFlight) : Pays k l { l with inFlight } 0 :=
  ⟨fun _ => Nat.add_le_add_left sub.countP_le _, Nat.le_refl _⟩

theorem pays_burst {k effort answers : Nat} {l : Load} {inFlight : List Tick}
    (issued : ∀ tick, Controller.countAfter inFlight tick ≤
      Controller.countAfter l.inFlight tick + 1)
    (le : answers ≤ l.answers) (light : effort ≤ 1 + k) :
    Pays k { l with bursts := l.bursts + 1 } { l with inFlight, answers } effort := by
  refine ⟨fun tick => ?_, ?_⟩
  · have later := issued tick
    simp only [Load.reach]
    omega
  · have fewer : answerCredit l.rank answers ≤ answerCredit l.rank l.answers :=
      Nat.mul_le_mul_left _ le
    simp only [credit, Nat.add_mul, Nat.one_mul]
    omega

theorem Pays.refl (k : Nat) (l : Load) : Pays k l l 0 := ⟨fun _ => Nat.le_refl _, Nat.le_refl _⟩

theorem Pays.trans {k first second : Nat} {l l' l'' : Load} (h : Pays k l l' first)
    (h' : Pays k l' l'' second) : Pays k l l'' (first + second) := by
  refine ⟨fun tick => Nat.le_trans (h'.reach tick) (h.reach tick), ?_⟩
  have paid := h.credit
  have paid' := h'.credit
  omega

end Load

namespace Controller

variable {μ : Type} {c : Controller μ} {now : Tick} {p : Packet} {reach : Tick → Nat} {k : Nat}

def load (c : Controller μ) : Load where
  rank := 1
  requests := []
  bursts := c.readQueue.length + c.writeQueue.length
  inFlight := c.readsInFlight ++ c.writesInFlight
  answers := c.pending.length + c.responses.toList.length

theorem length_burstsOf_le (c : Controller μ) (p : Packet) :
    (c.burstsOf p).length ≤ p.size + 1 := by
  rw [burstsOf, AddressDecoder.burstsOf]
  simp only [List.length_map, List.length_range, AddressDecoder.burstAlign]
  generalize c.range.offsetOf p.addr = offset
  generalize c.decoder.geometry.burstSize = burst
  have span : offset + max p.size 1 - 1 - (offset - offset % burst) ≤ p.size + offset % burst := by
    have le := Nat.mod_le offset burst
    omega
  rcases Nat.eq_zero_or_pos burst with rfl | pos
  · rw [Nat.div_zero]
    exact Nat.succ_le_succ (Nat.zero_le _)
  · have le : p.size + offset % burst ≤ p.size * burst + offset % burst :=
      Nat.add_le_add_right (Nat.le_mul_of_pos_right _ pos) _
    have quotient := Nat.div_le_div_right (c := burst) (Nat.le_trans span le)
    rw [Nat.add_comm (p.size * burst), Nat.add_mul_div_right _ _ pos,
      Nat.div_eq_of_lt (Nat.mod_lt _ pos), Nat.zero_add] at quotient
    exact Nat.succ_le_succ quotient

theorem length_freshBurstsOf_le (c : Controller μ) (p : Packet) :
    (c.freshBurstsOf p).length ≤ p.size + 1 :=
  Nat.le_trans (List.length_filter_le ..) (length_burstsOf_le c p)

theorem load_pushResponse (c : Controller μ) (ready : Tick) (p : Packet) :
    (c.pushResponse ready p).1.load = { c.load with answers := c.load.answers + 1 } := by
  have added := (Heap.push_perm ReadyResponse.before c.responses ⟨ready, c.nextSeq, p⟩).length_eq
  simp only [load, pushResponse, added, List.length_cons, Nat.add_assoc]

theorem load_requestRound (c : Controller μ) (tick : Tick) :
    (c.requestRound tick).1.load = c.load := by
  rcases requestRound_cases c tick with ⟨planned, -, eq⟩ | eq <;> rw [eq]
  rfl

theorem effort_requestRound (c : Controller μ) (now : Tick) (bounded : ∀ tick, 2 + reach tick ≤ k)
    (tick : Tick) : effortOf reach now (c.requestRound tick).2 ≤ k := by
  rcases requestRound_cases c tick with ⟨planned, -, eq⟩ | eq <;> rw [eq]
  · exact Nat.zero_le k
  · rw [effortOf_singleton]
    exact bounded _

/-- A taken request adds a burst for each byte and one more at most, and a response. -/
structure Takes (k : Nat) (reach : Tick → Nat) (now : Tick) (size : Nat) (c : Controller μ)
    (r : Reply (Controller μ) Delivery) : Prop where
  load : ∃ bursts answers, bursts ≤ size + 1 ∧ answers ≤ c.load.answers + 1 ∧
    r.stage.load = { c.load with bursts := c.load.bursts + bursts, answers }
  effort : effortOf reach now r.actions ≤ 1 + k

theorem takes_acceptRead (bounded : ∀ tick, 2 + reach tick ≤ k)
    (took : (c.acceptRead now p).answer = .accepted) :
    Takes k reach now p.size c (c.acceptRead now p) := by
  rcases acceptRead_cases c now p with ⟨counters, eq⟩ | ⟨counters, answered, rfl, eq⟩ |
    ⟨counters, bursts, read, asked, -, -, -, ⟨-, length⟩, rfl, eq⟩
  · rw [eq] at took
    cases took
  · rw [eq]
    refine ⟨⟨0, _, Nat.zero_le _, Nat.le_refl _, ?_⟩, Nat.le_add_right 1 k⟩
    rw [load_pushResponse]
    rfl
  · rw [eq]
    have filed : (c.filePending p.id read).pending.length ≤ c.pending.length + 1 := by
      rw [filePending, List.length_append]
      exact Nat.add_le_add_right (List.length_filter_le ..) 1
    refine ⟨⟨bursts.length, (c.filePending p.id read).pending.length + c.responses.toList.length,
      ?_, ?_, ?_⟩, Nat.le_trans (effort_requestRound _ _ bounded _) (Nat.le_add_left k 1)⟩
    · exact length ▸ length_freshBurstsOf_le c p
    · simp only [load]
      omega
    · rw [load_requestRound]
      simp only [load, filePending, List.length_append, Nat.add_right_comm]

theorem takes_acceptWrite (bounded : ∀ tick, 2 + reach tick ≤ k)
    (took : (c.acceptWrite now p).answer = .accepted) :
    Takes k reach now p.size c (c.acceptWrite now p) := by
  rcases acceptWrite_cases c now p with ⟨counters, eq⟩ |
    ⟨counters, bursts, queuedWrites, answered, asked, ⟨-, length⟩, rfl, rfl, eq⟩
  · rw [eq] at took
    cases took
  · rw [eq]
    refine ⟨⟨bursts.length, _, length ▸ length_freshBurstsOf_le c p, Nat.le_refl _, ?_⟩, ?_⟩
    · rw [load_requestRound, load_pushResponse]
      simp only [load, List.length_append, Nat.add_assoc]
    · rw [effortOf_append]
      exact Nat.add_le_add (Nat.le_refl 1) (effort_requestRound _ _ bounded _)

theorem load_prune (c : Controller μ) (now : Tick) :
    ∃ inFlight : List Tick, inFlight.Sublist c.load.inFlight ∧
      (c.prune now).load = { c.load with inFlight } :=
  ⟨_, List.filter_sublist.append List.filter_sublist, rfl⟩

theorem load_finishRead (reach : Tick → Nat) (now : Tick) (c : Controller μ) (id : TransactionId)
    (readyAt : Tick) :
    ∃ answers, answers ≤ c.load.answers ∧
      (c.finishRead id readyAt).1.load = { c.load with answers } ∧
      effortOf reach now (c.finishRead id readyAt).2 ≤ 1 := by
  rw [finishRead]
  cases found : c.pending.lookup id with
  | none => exact ⟨_, Nat.le_refl _, rfl, Nat.zero_le 1⟩
  | some read =>
    simp only
    split
    · refine ⟨_, Nat.le_refl _, ?_, Nat.zero_le 1⟩
      simp only [load, List.length_map]
    · refine ⟨_, ?_, load_pushResponse _ _ _, Nat.le_refl 1⟩
      have fewer : (c.pending.filter fun entry => entry.1 != id).length < c.pending.length := by
        obtain ⟨front, back, split, -⟩ := List.lookup_eq_some_iff.1 found
        have mem : (id, read) ∈ c.pending := split ▸ List.mem_append_right _ List.mem_cons_self
        exact List.length_filter_lt_length_iff_exists.2 ⟨(id, read), mem, by simp⟩
      simp only [load]
      omega

theorem load_fileIssued (reach : Tick → Nat) (now : Tick) (c : Controller μ) (b : Burst)
    (readyAt : Tick) :
    ∃ inFlight answers, (∀ tick, countAfter inFlight tick ≤ countAfter c.load.inFlight tick + 1) ∧
      answers ≤ c.load.answers ∧
      (c.fileIssued b readyAt).1.load = { c.load with inFlight, answers } ∧
      effortOf reach now (c.fileIssued b readyAt).2 ≤ 1 := by
  have issued {inFlight : List Tick} (added : inFlight.Perm (readyAt :: c.load.inFlight))
      (tick : Tick) : countAfter inFlight tick ≤ countAfter c.load.inFlight tick + 1 := by
    rw [countAfter, added.countP_eq, List.countP_cons]
    exact Nat.add_le_add_left (by split <;> decide) _
  rw [fileIssued]
  cases b.kind with
  | read =>
    obtain ⟨answers, le, load, effort⟩ := load_finishRead reach now
      { c with
        readsThisPhase := c.readsThisPhase + 1
        readsInFlight := readyAt :: c.readsInFlight } b.packetId readyAt
    exact ⟨_, answers, issued (.refl _), le, load, effort⟩
  | write =>
    exact ⟨_, _, issued List.perm_middle, Nat.le_refl _, rfl, Nat.zero_le 1⟩

theorem load_retryIfRoom (c : Controller μ) (now : Tick) : (c.retryIfRoom now).1.load = c.load := by
  rw [retryIfRoom]
  split
  · rfl
  · split <;> rfl

theorem effort_retryIfRoom
    (later : ∀ tick ∈ c.load.inFlight, now < tick → reach tick < reach now) :
    effortOf reach now (c.retryIfRoom now).2 ≤ 1 + reach now := by
  rw [retryIfRoom]
  split
  · exact Nat.zero_le _
  · split
    · exact Nat.le_add_right 1 _
    · cases done : c.nextDone now with
      | none => exact Nat.zero_le _
      | some tick =>
        obtain ⟨mem, after⟩ := List.mem_filter.1 (List.min?_mem done)
        have lt : now < tick := by simpa using after
        have less := later tick mem lt
        simp only [Option.toList_some, List.map_cons, List.map_nil, effortOf_singleton, Action.at,
          Action.effort, EventKind.effort, Nat.max_eq_left (Nat.le_of_lt lt)]
        omega

theorem load_passOver {index : Nat} {b : Burst} (chosen : c.activeQueue[index]? = some b) :
    c.load = { (c.withActiveQueue (passOver c.activeQueue index)).load with
      bursts := (c.withActiveQueue (passOver c.activeQueue index)).load.bursts + 1 } := by
  have left := (passOver_perm (·.packetId) (fun _ => rfl) chosen).length_eq
  rw [List.length_cons, List.length_map, List.length_map] at left
  rw [activeQueue] at left ⊢
  rw [withActiveQueue]
  cases direction : c.direction <;> simp only [direction] at left ⊢ <;>
    simp only [load, left, Load.mk.injEq, true_and, and_true] <;> omega

section Round

variable [MediaChannel μ]

theorem pays_issue (bounded : ∀ tick, 2 + reach tick ≤ k) (b : Burst) (promoted : Bool)
    (channel : μ) : Load.Pays k { c.load with bursts := c.load.bursts + 1 }
      (c.issue now b promoted channel).1.load
      (effortOf reach now (c.issue now b promoted channel).2) := by
  let served := MediaChannel.access channel b.coordinate b.kind now
  obtain ⟨inFlight, answers, issued, le, load, effort⟩ := load_fileIssued reach now
    { c with
      media := c.media.set (c.channelOf b) served.2
      counters := countIssue c.counters b now promoted served.1.rowHit } b served.1.readyAt
  have pays {effort : Nat} (light : effort ≤ 1 + k) :
      Load.Pays k { c.load with bursts := c.load.bursts + 1 } _ effort :=
    load ▸ Load.pays_burst issued le light
  rw [issue]
  simp only
  split
  · exact pays (Nat.le_trans effort (Nat.le_add_right 1 k))
  · rw [load_requestRound, effortOf_append]
    exact pays (Nat.add_le_add effort (effort_requestRound _ _ bounded _))

theorem pays_runRound (bounded : ∀ tick, 2 + reach tick ≤ k) :
    Load.Pays k c.load (c.runRound now).1.load (effortOf reach now (c.runRound now).2) := by
  have turned : c.chooseDirection.load = c.load := by
    rw [chooseDirection]
    split
    · rw [turnAround]
      split <;> rfl
    · rfl
  rw [runRound]
  split
  · exact .refl k _
  · simp only
    split
    · rw [turned]
      exact .refl k _
    · rename_i burst chosen
      rw [← turned, load_passOver chosen]
      split
      · exact Load.pays_burst (fun _ => Nat.le_succ _) (Nat.le_refl _) (Nat.zero_le _)
      · exact pays_issue bounded ..

theorem pays_process (bounded : ∀ tick, 2 + reach tick ≤ k)
    (later : ∀ tick ∈ (c.process now).1.load.inFlight, now < tick → reach tick < reach now) :
    ∃ effort, effortOf reach now (c.process now).2 ≤ effort + (1 + reach now) ∧
      Load.Pays k c.load (c.process now).1.load effort := by
  obtain ⟨inFlight, sub, pruned⟩ := load_prune c now
  have first : Load.Pays k c.load (c.prune now).load 0 := pruned ▸ .of_sublist sub
  rw [process] at later ⊢
  generalize eq : (if (c.prune now).nextRound.any fun planned => decide (planned ≤ now) then
    { c.prune now with nextRound := none }.runRound now else (c.prune now, [])) = ran at later ⊢
  have round : Load.Pays k (c.prune now).load ran.1.load (effortOf reach now ran.2) := by
    rw [← eq]
    split
    · exact pays_runRound (c := { c.prune now with nextRound := none }) bounded
    · exact .refl k _
  simp only at later ⊢
  rw [load_retryIfRoom] at later ⊢
  refine ⟨0 + effortOf reach now ran.2, ?_, first.trans round⟩
  rw [effortOf_append, Nat.zero_add]
  exact Nat.add_le_add_left (effort_retryIfRoom later) _

end Round

end Controller

theorem Bridge.effort_retryIfRoom {reach : Tick → Nat} {now : Tick} (b : Bridge) :
    effortOf reach now b.retryIfRoom.2 ≤ 1 := by
  rw [retryIfRoom]
  split
  · exact Nat.le_refl 1
  · exact Nat.zero_le 1

namespace PacketQueue

variable {q q' : PacketQueue} {now ready : Tick} {p : Packet}

def sizes (q : PacketQueue) : List Nat := q.entries.map (·.packet.size)

theorem sizes_push (h : q.push? p ready = some q') : q'.sizes = q.sizes ++ [p.size] := by
  obtain ⟨-, rfl⟩ := push?_eq_some h
  simp [sizes]

theorem length_push (h : q.push? p ready = some q') :
    q'.entries.length = q.entries.length + 1 := by
  obtain ⟨-, rfl⟩ := push?_eq_some h
  simp

theorem sizes_popReady (h : q.popReady? now = some (p, q')) : q.sizes = p.size :: q'.sizes := by
  obtain ⟨tick, -, entries, -⟩ := popReady?_eq_some h
  simp [sizes, entries]

theorem length_popReady (h : q.popReady? now = some (p, q')) :
    q.entries.length = q'.entries.length + 1 := by
  obtain ⟨tick, -, entries, -⟩ := popReady?_eq_some h
  simp [entries]

end PacketQueue

namespace Stage

variable {s s' : Stage} {now : Tick} {p : Packet} {actions : List Action} {reach : Tick → Nat}
  {k : Nat}

def load : Stage → Load
  | bridge b => ⟨3, b.requests.sizes, 0, [], b.responses.entries.length⟩
  | device d => ⟨2, d.requests.sizes, 0, [], d.responses.entries.length⟩
  | controller c => c.load
  | memory m => ⟨0, [], 0, [], m.responses.entries.length⟩

theorem load_takeRequest (took : s.takeRequest now = some (p, s')) :
    s.load = { s'.load with requests := p.size :: s'.load.requests } := by
  rcases takeRequest_inv took with ⟨b, b', rfl, rfl, took'⟩ | ⟨d, d', rfl, rfl, took'⟩
  · obtain ⟨-, requests, popped, rfl⟩ := Bridge.takeRequest_eq_some took'
    simp only [load, PacketQueue.sizes_popReady popped]
  · obtain ⟨-, requests, popped, rfl⟩ := Device.takeRequest_eq_some took'
    simp only [load, PacketQueue.sizes_popReady popped]

theorem load_requestRefused (took : s.takeRequest now = some (p, s')) :
    (s'.requestRefused now p).load = s.load := by
  rw [load_takeRequest took]
  rcases takeRequest_inv took with ⟨b, b', rfl, rfl, -⟩ | ⟨d, d', rfl, rfl, -⟩ <;> rfl

theorem load_requestSent (s : Stage) (now : Tick) : (s.requestSent now).1.load = s.load := by
  cases s with
  | bridge b =>
    simp only [requestSent, Bridge.requestSent, Bridge.retryIfRoom]
    split <;> rfl
  | device | controller | memory => rfl

theorem effort_requestSent (s : Stage) (now : Tick) :
    effortOf reach now (s.requestSent now).2 ≤ 2 := by
  cases s with
  | bridge b =>
    simp only [requestSent, Bridge.requestSent, effortOf_append]
    exact Nat.add_le_add (effortOf_sendAfter .sendRequest (by decide) _)
      (Bridge.effort_retryIfRoom _)
  | device d =>
    simp only [requestSent, Device.requestSent, effortOf_append]
    exact Nat.add_le_add (effortOf_sendAfter .sendRequest (by decide) _)
      (effortOf_ite _ .retryRequest (Nat.le_refl 1))
  | controller | memory => exact Nat.zero_le 2

theorem load_recvRequestRetry (s : Stage) (now : Tick) :
    (s.recvRequestRetry now).1.load = s.load := by
  cases s <;> rfl

theorem effort_recvRequestRetry (s : Stage) (now : Tick) :
    effortOf reach now ((s.recvRequestRetry now).2.map .wake) ≤ 1 := by
  cases s with
  | bridge | device => exact effortOf_sendAfter .sendRequest (by decide) _
  | controller | memory => exact Nat.zero_le 1

theorem load_takeResponse (took : s.takeResponse now = some (p, s')) :
    s.load = { s'.load with answers := s'.load.answers + 1 } := by
  cases s <;> obtain ⟨⟨q, taken⟩, took', eq⟩ := Option.map_eq_some_iff.1 took <;> cases eq
  · obtain ⟨-, responses, popped, rfl⟩ := Bridge.takeResponse_eq_some took'
    simp only [load, PacketQueue.length_popReady popped]
  · obtain ⟨-, responses, popped, rfl⟩ := Device.takeResponse_eq_some took'
    simp only [load, PacketQueue.length_popReady popped]
  · obtain ⟨-, r, responses, popped, -, -, rfl⟩ := Controller.takeResponse_eq_some took'
    simp only [load, Controller.load, (Heap.pop?_perm popped).length_eq, List.length_cons,
      Nat.add_assoc]
  · obtain ⟨-, responses, popped, rfl⟩ := SystemMemory.takeResponse_eq_some took'
    simp only [load, PacketQueue.length_popReady popped]

theorem load_responseRefused (took : s.takeResponse now = some (p, s')) :
    (s'.responseRefused now p).load = s.load := by
  rw [load_takeResponse took]
  cases s <;> obtain ⟨⟨q, taken⟩, -, eq⟩ := Option.map_eq_some_iff.1 took <;> cases eq
  · rfl
  · rfl
  · have back := (Heap.push_perm ReadyResponse.before taken.responses
      ⟨(taken.lastTaken.getD (now, 0)).1, (taken.lastTaken.getD (now, 0)).2, q⟩).length_eq
    simp only [responseRefused, Controller.responseRefused, load, Controller.load, back,
      List.length_cons, Nat.add_assoc]
  · rfl

theorem load_responseSent (s : Stage) (now : Tick) : (s.responseSent now).1.load = s.load := by
  cases s with
  | bridge b =>
    simp only [responseSent, Bridge.responseSent, Bridge.retryIfRoom]
    split <;> rfl
  | device | controller | memory => rfl

theorem effort_responseSent (s : Stage) (now : Tick) :
    effortOf reach now (s.responseSent now).2 ≤ 2 := by
  cases s with
  | bridge b =>
    simp only [responseSent, Bridge.responseSent, effortOf_append]
    exact Nat.add_le_add (effortOf_sendAfter .sendResponse (by decide) _)
      (Bridge.effort_retryIfRoom _)
  | device d =>
    simp only [responseSent, Device.responseSent, effortOf_append]
    exact Nat.add_le_add (effortOf_sendAfter .sendResponse (by decide) _)
      (effortOf_ite _ .retryResponse (Nat.le_refl 1))
  | controller c => exact Nat.le_succ_of_le (effortOf_ite _ _ (Nat.le_refl 1))
  | memory m => exact Nat.le_succ_of_le (effortOf_sendAfter .sendResponse (by decide) _)

theorem load_recvResponseRetry (s : Stage) (now : Tick) :
    (s.recvResponseRetry now).1.load = s.load := by
  cases s <;> rfl

theorem effort_recvResponseRetry (s : Stage) (now : Tick) :
    effortOf reach now ((s.recvResponseRetry now).2.map .wake) ≤ 1 := by
  cases s with
  | bridge | device => exact effortOf_sendAfter .sendResponse (by decide) _
  | controller | memory => exact Nat.le_refl 1

theorem DeniesRequest.pays (h : s.DeniesRequest now s') : Load.Pays k s.load s'.load 0 := by
  cases h with
  | unreserved | bridge | device => exact .refl k _
  | read c | write c =>
    obtain ⟨inFlight, sub, load⟩ := Controller.load_prune c now
    have pays : Load.Pays k c.load (c.prune now).load 0 := load ▸ .of_sublist sub
    exact pays

theorem DeniesResponse.load (h : s.DeniesResponse s') : s'.load = s.load := by
  cases h <;> rfl

theorem load_recvResponse (reply : s.recvResponse now p = ⟨s', actions, .accepted⟩) :
    s'.load = { s.load with answers := s.load.answers + 1 } := by
  cases s with
  | bridge b =>
    have reply' : (b.recvResponse now p).map Stage.bridge = ⟨s', actions, .accepted⟩ := reply
    rcases Bridge.recvResponse_cases b now p with ⟨-, eq⟩ | ⟨_, _, pushed, eq⟩ <;>
      rw [eq] at reply' <;> cases reply'
    simp only [load, PacketQueue.length_push pushed]
  | device d =>
    have reply' : (d.recvResponse now p).map Stage.device = ⟨s', actions, .accepted⟩ := reply
    rcases Device.recvResponse_cases d now p with ⟨-, _, eq⟩ | ⟨_, _, pushed, eq⟩ <;>
      rw [eq] at reply' <;> cases reply'
    simp only [load, PacketQueue.length_push pushed]
  | controller c => cases reply
  | memory m => cases reply

theorem effort_recvResponse (s : Stage) (now : Tick) (p : Packet) :
    effortOf reach now (s.recvResponse now p).actions ≤ 1 := by
  cases s with
  | bridge b =>
    rcases Bridge.recvResponse_cases b now p with ⟨-, eq⟩ | ⟨_, _, -, eq⟩
    · exact (congrArg Reply.actions eq) ▸ Nat.zero_le 1
    · exact (congrArg Reply.actions eq) ▸ effortOf_ite _ _ (Nat.le_refl 1)
  | device d =>
    rcases Device.recvResponse_cases d now p with ⟨-, _, eq⟩ | ⟨_, _, -, eq⟩
    · exact (congrArg Reply.actions eq) ▸ Nat.zero_le 1
    · exact (congrArg Reply.actions eq) ▸ effortOf_ite _ _ (Nat.le_refl 1)
  | controller | memory => exact Nat.zero_le 1

def Admits (k : Nat) (s s' : Stage) (size effort : Nat) : Prop :=
  (∀ tick, s'.load.reach tick ≤ s.load.reach tick + (size + 1)) ∧
    s'.load.credit k + effort ≤ s.load.credit k + (Load.requestCredit k s.load.rank size + 1)

private theorem admits_queued {rank answers effort size : Nat} {sizes : List Nat}
    (before : s.load = ⟨rank, sizes, 0, [], answers⟩)
    (after : s'.load = ⟨rank, sizes ++ [size], 0, [], answers⟩) (light : effort ≤ 1) :
    Admits k s s' size effort := by
  rw [Admits, before, after]
  refine ⟨fun tick => ?_, ?_⟩
  · simp only [Load.reach, List.map_append, List.sum_append, List.map_cons, List.map_nil,
      List.sum_cons, List.sum_nil]
    omega
  · simp only [Load.credit, List.map_append, List.sum_append, List.map_cons, List.map_nil,
      List.sum_cons, List.sum_nil]
    omega

private theorem admits_split {c : Controller Media} {size : Nat}
    {r : Reply (Controller Media) Delivery} (takes : Controller.Takes k reach now size c r) :
    Admits k (controller c) (controller r.stage) size (effortOf reach now r.actions) := by
  obtain ⟨⟨bursts, answers, few, le, after⟩, effort⟩ := takes
  have paid : bursts * (k + 1) ≤ (size + 1) * (k + 1) := Nat.mul_le_mul_right _ few
  have credit : Load.requestCredit k 1 size = 9 + (size + 1) * (k + 1) + (k + 1) := by
    simp only [Load.requestCredit, Nat.add_mul]
    omega
  have rank : c.load.rank = 1 := rfl
  have before : (controller c).load = c.load := rfl
  have split : (controller r.stage).load = _ := after
  rw [Admits, split, before]
  refine ⟨fun tick => ?_, ?_⟩
  · simp only [Load.reach]
    omega
  · simp only [Load.credit, Load.answerCredit, rank, credit, Nat.add_mul] at paid ⊢
    omega

/-- A request that is taken in brings its credit, and costs one event more. -/
theorem admits_recvRequest (sound : s.Sound) (bounded : ∀ tick, 2 + reach tick ≤ k)
    (reply : s.recvRequest now p = ⟨s', actions, .accepted⟩) :
    Admits k s s' p.size (effortOf reach now actions) := by
  cases s with
  | bridge b =>
    have reply' : (b.recvRequest now p).map Stage.bridge = ⟨s', actions, .accepted⟩ := reply
    rcases Bridge.recvRequest_cases b now p with ⟨-, eq⟩ | ⟨-, -, _, eq⟩ |
      ⟨-, -, _, _, pushed, eq⟩ <;> rw [eq] at reply' <;> cases reply'
    have bare := congrArg Packet.size (b.bare_tag p.chargeHeader)
    have size : (b.tag p.chargeHeader).size = p.size := bare
    refine admits_queued rfl ?_ (effortOf_ite _ _ (Nat.le_refl 1))
    simp only [load, PacketQueue.sizes_push pushed, size]
  | device d =>
    have reply' : (d.recvRequest now p).map Stage.device = ⟨s', actions, .accepted⟩ := reply
    rcases Device.recvRequest_cases d now p with ⟨-, eq⟩ | ⟨-, -, _, eq⟩ |
      ⟨-, _, _, pushed, eq⟩ <;> rw [eq] at reply' <;> cases reply'
    have bare := congrArg Packet.size (Device.bare_tagRequest p.chargeHeader)
    have size : (Device.tagRequest p.chargeHeader).size = p.size := bare
    refine admits_queued rfl ?_ (effortOf_ite _ _ (Nat.le_refl 1))
    simp only [load, PacketQueue.sizes_push pushed, size]
  | controller c =>
    have reply' : (c.recvRequest now p).map Stage.controller = ⟨s', actions, .accepted⟩ := reply
    have took : (c.recvRequest now p).answer = .accepted := congrArg Reply.answer reply'
    obtain ⟨inFlight, sub, pruned⟩ := Controller.load_prune c now
    have paid : Load.Pays k c.load (c.prune now).load 0 := pruned ▸ .of_sublist sub
    have takes : Controller.Takes k reach now p.size (c.prune now) (c.recvRequest now p) := by
      rcases Controller.recvRequest_eq c now p with ⟨-, eq⟩ | ⟨-, -, eq⟩ | ⟨-, -, eq⟩ <;>
        rw [eq] at took ⊢
      · cases took
      · exact Controller.takes_acceptRead bounded took
      · exact Controller.takes_acceptWrite bounded took
    obtain ⟨reaches, credits⟩ := admits_split takes
    have stage : controller (c.recvRequest now p).stage = s' := congrArg Reply.stage reply'
    have asked : (c.recvRequest now p).actions = actions := congrArg Reply.actions reply'
    rw [stage, asked] at credits
    rw [stage] at reaches
    exact ⟨fun tick => Nat.le_trans (reaches tick) (Nat.add_le_add_right (paid.reach tick) _),
      Nat.le_trans credits (Nat.add_le_add_right paid.credit _)⟩
  | memory m =>
    have reply' : (m.recvRequest now p).map Stage.memory = ⟨s', actions, .accepted⟩ := reply
    rcases SystemMemory.recvRequest_cases sound now p with ⟨-, eq⟩ | ⟨-, _, _, pushed, eq⟩ <;>
      rw [eq] at reply' <;> cases reply'
    have pos : 3 ≤ k + 1 := Nat.succ_le_succ (Nat.le_trans (Nat.le_add_right 2 _) (bounded 0))
    have least : 2 * 3 ≤ (p.size + 2) * (k + 1) := Nat.mul_le_mul (Nat.le_add_left 2 _) pos
    refine ⟨fun tick => Nat.le_add_right _ _, ?_⟩
    simp only [load, Load.credit, Load.answerCredit, Load.requestCredit,
      PacketQueue.length_push pushed, effortOf_singleton, Action.at, Action.effort,
      EventKind.effort]
    omega

theorem pays_process (s : Stage) (now : Tick) (bounded : ∀ tick, 2 + reach tick ≤ k)
    (later : ∀ tick ∈ (s.process now).1.load.inFlight, now < tick → reach tick < reach now) :
    ∃ effort, effortOf reach now (s.process now).2 ≤ effort + (1 + reach now) ∧
      Load.Pays k s.load (s.process now).1.load effort := by
  cases s with
  | controller c => exact Controller.pays_process bounded later
  | bridge | device | memory => exact ⟨0, Nat.zero_le _, .refl k _⟩

theorem reach_process (s : Stage) (now tick : Tick) :
    (s.process now).1.load.reach tick ≤ s.load.reach tick := by
  -- Whatever the other stages hold, a round costs no more than what the load itself allows.
  have bounded (tick : Tick) :
      2 + (s.process now).1.load.reach tick ≤ 2 + (s.process now).1.load.reach 0 :=
    Nat.add_le_add_left (Load.reach_antitone _ (Nat.zero_le tick)) 2
  obtain ⟨_, -, pays⟩ := s.pays_process now bounded fun tick mem lt => Load.reach_lt mem lt
  exact pays.reach tick

theorem rank_le (s : Stage) : s.load.rank ≤ 3 := by
  cases s with
  | bridge | device | controller | memory => simp only [load, Controller.load]; omega

theorem sum_sizes (q : PacketQueue) (f : Nat → Nat) :
    (q.sizes.map f).sum = (q.entries.map fun w => f w.packet.size).sum := by
  rw [PacketQueue.sizes, List.map_map]
  rfl

theorem reach_le_workload (s : Stage) (tick : Tick) : s.load.reach tick ≤ s.workload := by
  have queued (q : PacketQueue) : (q.sizes.map (· + 1)).sum ≤ requestWork q := by
    rw [sum_sizes]
    exact List.sum_le_sum fun w _ => Nat.add_le_add_left (by decide : 1 ≤ 8) _
  cases s with
  | bridge b =>
    have le := queued b.requests
    simp only [load, Load.reach, workload, Controller.countAfter, List.countP_nil]
    omega
  | device d =>
    have le := queued d.requests
    simp only [load, Load.reach, workload, Controller.countAfter, List.countP_nil]
    omega
  | controller c =>
    have few : Controller.countAfter (c.readsInFlight ++ c.writesInFlight) tick ≤
        c.readsInFlight.length + c.writesInFlight.length :=
      List.length_append ▸ List.countP_le_length
    simp only [load, Controller.load, Load.reach, workload, List.map_nil, List.sum_nil]
    omega
  | memory m => exact Nat.zero_le _

/-- The effort that a stage can bring about is its workload, times the cost of a round. -/
theorem credit_le_workload (numbered : s.Numbered) {cost : Nat} (round : k + 1 ≤ cost)
    (eight : 8 ≤ cost) : s.load.credit k ≤ cost * s.workload := by
  have queued (q : PacketQueue) {rank : Nat} (le : rank ≤ 3) :
      (q.sizes.map (Load.requestCredit k rank)).sum ≤ cost * requestWork q := by
    have split : cost * requestWork q =
        (q.entries.map fun w => cost * (w.packet.size + 8)).sum := by
      rw [List.sum_map_mul_left]
      rfl
    rw [sum_sizes, split]
    refine List.sum_le_sum fun w _ => ?_
    have paid : (w.packet.size + 2) * (k + 1) ≤ cost * (w.packet.size + 2) :=
      Nat.mul_comm cost _ ▸ Nat.mul_le_mul_left _ round
    simp only [Load.requestCredit, Nat.mul_add] at paid ⊢
    omega
  have answered (rank n : Nat) : Load.answerCredit rank n ≤ cost * (8 * n) := by
    have most : 11 - 3 * rank ≤ cost * 8 := by omega
    rw [← Nat.mul_assoc]
    exact Nat.mul_le_mul_right n most
  cases s with
  | bridge b =>
    have requests := queued b.requests (Nat.le_refl 3)
    have responses := answered 3 b.responses.entries.length
    simp only [load, Load.credit, workload, Nat.mul_add, PacketQueue.size]
    omega
  | device d =>
    have requests := queued d.requests (Nat.le_succ 2)
    have responses := answered 2 d.responses.entries.length
    simp only [load, Load.credit, workload, Nat.mul_add, PacketQueue.size]
    omega
  | controller c =>
    have responses := answered 1 (c.pending.length + c.responses.toList.length)
    have bursts : (c.readQueue.length + c.writeQueue.length) * (k + 1) ≤
        cost * (8 * (c.readQueue.length + c.writeQueue.length)) :=
      Nat.mul_comm cost _ ▸ Nat.mul_le_mul (Nat.le_mul_of_pos_left _ (by decide)) round
    have size : c.responses.size = c.responses.toList.length := numbered.size
    simp only [load, Controller.load, Load.credit, workload, List.map_nil, List.sum_nil, size,
      Nat.mul_add] at responses bursts ⊢
    omega
  | memory m =>
    have responses := answered 0 m.responses.entries.length
    simp only [load, Load.credit, workload, List.map_nil, List.sum_nil, PacketQueue.size]
    omega

end Stage

end Expander
