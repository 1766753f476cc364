import Mathlib.Algebra.BigOperators.Group.Multiset.Basic
import Mathlib.Data.Multiset.Filter
import Expander.Proofs.Media.Tallies
import Expander.Proofs.Scheduling.Books

/-!
What the counters of a controller say of its queues and of its media.

An accepted packet is counted with all of its bursts: those that join a queue, and those that need
no access of their own (`Intake`). A round takes a burst out of its queue and counts it as issued,
at the controller, in the phase of the bus and on the channel that serves it. Nothing else is
counted, so the counters agree with each other in every state of a session
(`Controller.Reconciled`).
-/

set_option autoImplicit false

namespace Expander

theorem BusDirection.kind_injective : Function.Injective BusDirection.kind := by
  intro d e same
  cases d <;> cases e <;> first | rfl | cases same

theorem Histogram.samples_sample (h : Histogram) (value : Nat) :
    (h.sample value).samples = h.samples + 1 := by
  rw [sample]
  simp only
  repeat' split
  all_goals rfl

theorem Histogram.sum_sample (h : Histogram) (value : Nat) :
    (h.sample value).sum = h.sum + value := by
  rw [sample]
  simp only
  repeat' split
  all_goals rfl

theorem total_cons (amount : Nat) (rest : List Nat) :
    total (amount :: rest) = amount + total rest := rfl

theorem total_replicate_zero (count : Nat) : total (List.replicate count 0) = 0 := by
  induction count with
  | zero => rfl
  | succ count ih => rw [List.replicate_succ, total_cons, ih]

theorem total_map_set {α : Type} (f : α → Nat) {l : List α} {i : Nat} {a b : α} {gain : Nat}
    (found : l[i]? = some a) (more : f b = f a + gain) :
    total ((l.set i b).map f) = total (l.map f) + gain := by
  induction l generalizing i with
  | nil => cases found
  | cons first rest ih =>
    cases i with
    | zero =>
      cases found
      simp only [List.set_cons_zero, List.map_cons, total_cons, more]
      exact Nat.add_right_comm ..
    | succ i =>
      have later := ih found
      simp only [List.set_cons_succ, List.map_cons, total_cons, later]
      exact (Nat.add_assoc ..).symm

namespace MediaStatistics

def served (s : MediaStatistics) : BusDirection → Nat
  | .read => s.reads
  | .write => s.writes

theorem Counts.served {s s' : MediaStatistics} {kind : AccessKind} {access : MediaAccess}
    (h : s.Counts kind access s') (d : BusDirection) :
    s'.served d = s.served d + if kind = d.kind then 1 else 0 := by
  cases d with
  | read => exact h.reads
  | write => exact h.writes

end MediaStatistics

namespace ControllerStatistics

def requests (s : ControllerStatistics) : BusDirection → Nat
  | .read => s.readRequests
  | .write => s.writeRequests

def issued (s : ControllerStatistics) : BusDirection → Nat
  | .read => s.readBursts
  | .write => s.writeBursts

def spared (s : ControllerStatistics) : BusDirection → Nat
  | .read => s.forwardedReads
  | .write => s.mergedWrites

def phases (s : ControllerStatistics) : BusDirection → Histogram
  | .read => s.readsPerTurnaround
  | .write => s.writesPerTurnaround

end ControllerStatistics

namespace Controller

section Any

variable {μ : Type} {c c' c'' : Controller μ} {now : Tick} {p : Packet} {b : Burst} {pick : Pick}

def phaseSoFar (c : Controller μ) : BusDirection → Nat
  | .read => c.readsThisPhase
  | .write => c.writesThisPhase

/-- The bursts of the accepted requests of a direction: those that were issued, those that are
queued, and those that need no access of their own. -/
def burstsTaken (c : Controller μ) (d : BusDirection) : Nat :=
  c.counters.issued d + (c.queue d).length + c.counters.spared d

/-- Two controllers that have taken the same requests. -/
structure SameIntake (c c' : Controller μ) : Prop extends c.SameSite c' where
  requests : ∀ d, c'.counters.requests d = c.counters.requests d
  bursts : ∀ d, c'.burstsTaken d = c.burstsTaken d

/-- One more packet has been taken, with all of its bursts. -/
structure Intake (c : Controller μ) (p : Packet) (c' : Controller μ) : Prop
    extends c.SameSite c' where
  requests : ∀ d, c'.counters.requests d =
    c.counters.requests d + if p.kind = d.kind then 1 else 0
  bursts : ∀ d, c'.burstsTaken d =
    c.burstsTaken d + if p.kind = d.kind then (c.burstsOf p).length else 0

/-- The requests that a controller has taken, counted with all of their bursts. -/
structure Took (c : Controller μ) (taken : Multiset Packet) : Prop where
  requests : ∀ d, c.counters.requests d = (taken.filter fun p => p.kind = d.kind).card
  bursts : ∀ d, c.burstsTaken d =
    ((taken.filter fun p => p.kind = d.kind).map fun p => (c.burstsOf p).length).sum

def work (c : Controller μ) :
    List μ × BusDirection × (BusDirection → Nat) × (BusDirection → Nat) × Nat × Nat ×
      (BusDirection → Histogram) :=
  (c.media, c.direction, c.phaseSoFar, c.counters.issued, c.counters.rowHits,
    c.counters.busTurnarounds, c.counters.phases)

namespace SameIntake

theorem of_eq (site : c.SameSite c') (counters : c'.counters = c.counters)
    (reads : c'.readQueue = c.readQueue) (writes : c'.writeQueue = c.writeQueue) :
    c.SameIntake c' := by
  have queue : c'.queue = c.queue := by
    funext d
    cases d with
    | read => exact reads
    | write => exact writes
  refine ⟨site, fun d => by rw [counters], fun d => ?_⟩
  rw [burstsTaken, burstsTaken, counters, queue]

theorem refl (c : Controller μ) : c.SameIntake c := of_eq (.refl c) rfl rfl rfl

theorem trans (h : c.SameIntake c') (h' : c'.SameIntake c'') : c.SameIntake c'' where
  toSameSite := h.toSameSite.trans h'.toSameSite
  requests d := (h'.requests d).trans (h.requests d)
  bursts d := (h'.bursts d).trans (h.bursts d)

end SameIntake

theorem Intake.alike (h : c.Intake p c') (same : c'.SameIntake c'') : c.Intake p c'' where
  toSameSite := h.toSameSite.trans same.toSameSite
  requests d := (same.requests d).trans (h.requests d)
  bursts d := (same.bursts d).trans (h.bursts d)

theorem SameIntake.intake (same : c.SameIntake c') (h : c'.Intake p c'') : c.Intake p c'' where
  toSameSite := same.toSameSite.trans h.toSameSite
  requests d := (h.requests d).trans (congrArg (· + _) (same.requests d))
  bursts d := by
    rw [h.bursts, same.bursts, same.burstsOf]

theorem Took.alike {taken : Multiset Packet} (h : c.Took taken) (same : c.SameIntake c') :
    c'.Took taken where
  requests d := (same.requests d).trans (h.requests d)
  bursts d := by
    rw [same.bursts, h.bursts, same.burstsOf]

theorem Took.take {taken : Multiset Packet} (h : c.Took taken) (takes : c.Intake p c') :
    c'.Took (p.bare ::ₘ taken) where
  requests d := by
    rw [takes.requests, h.requests, Multiset.filter_cons]
    by_cases own : p.kind = d.kind <;> simp [own, Nat.add_comm]
  bursts d := by
    have bare : c.burstsOf p.bare = c.burstsOf p := rfl
    rw [takes.bursts, h.bursts, takes.burstsOf, Multiset.filter_cons]
    by_cases own : p.kind = d.kind <;> simp [own, bare, Nat.add_comm]

theorem length_burstsOf (c : Controller μ) (p : Packet) :
    (c.freshBurstsOf p).length + ((c.burstsOf p).length - (c.freshBurstsOf p).length) =
      (c.burstsOf p).length :=
  Nat.add_sub_cancel' (List.length_filter_le ..)

theorem sameIntake_prune (c : Controller μ) (now : Tick) : c.SameIntake (c.prune now) :=
  .of_eq ⟨rfl, rfl, rfl, rfl⟩ rfl rfl rfl

theorem sameIntake_requestRound (c : Controller μ) (tick : Tick) :
    c.SameIntake (c.requestRound tick).1 := by
  rcases requestRound_cases c tick with ⟨planned, -, eq⟩ | eq <;> rw [eq]
  · exact .refl c
  · exact .of_eq ⟨rfl, rfl, rfl, rfl⟩ rfl rfl rfl

theorem sameIntake_retryIfRoom (c : Controller μ) (now : Tick) :
    c.SameIntake (c.retryIfRoom now).1 := by
  rw [retryIfRoom]
  split
  · exact .refl c
  · split
    · exact .of_eq ⟨rfl, rfl, rfl, rfl⟩ rfl rfl rfl
    · exact .refl c

theorem acceptRead_intake (c : Controller μ) (now : Tick) (kind : p.kind = .read) :
    ((c.acceptRead now p).answer = .busy p ∧ c.SameIntake (c.acceptRead now p).stage) ∨
      ((c.acceptRead now p).answer = .accepted ∧ c.Intake p (c.acceptRead now p).stage) := by
  have split := c.length_burstsOf p
  rw [acceptRead]
  simp only
  split
  · exact .inl ⟨rfl, ⟨rfl, rfl, rfl, rfl⟩, fun d => by cases d <;> rfl,
      fun d => by cases d <;> rfl⟩
  · right
    split
    next none =>
      refine ⟨rfl, ⟨rfl, rfl, rfl, rfl⟩, ?_, ?_⟩
      · rintro (_ | _) <;> simp [kind, BusDirection.kind, pushResponse,
          ControllerStatistics.requests]
      · have empty : (c.freshBurstsOf p).length = 0 :=
          List.length_eq_zero_iff.2 (List.isEmpty_iff.1 none)
        rintro (_ | _) <;> simp [kind, BusDirection.kind, burstsTaken, pushResponse,
          ControllerStatistics.issued, ControllerStatistics.spared, queue]
        omega
    next =>
      refine ⟨rfl, Intake.alike ?_ (sameIntake_requestRound _ now)⟩
      refine ⟨⟨rfl, rfl, rfl, rfl⟩, ?_, ?_⟩
      · rintro (_ | _) <;> simp [kind, BusDirection.kind, filePending,
          ControllerStatistics.requests]
      · rintro (_ | _) <;> simp [kind, BusDirection.kind, burstsTaken, filePending,
          ControllerStatistics.issued, ControllerStatistics.spared, queue]
        omega

theorem acceptWrite_intake (c : Controller μ) (now : Tick) (kind : p.kind = .write) :
    ((c.acceptWrite now p).answer = .busy p ∧ c.SameIntake (c.acceptWrite now p).stage) ∨
      ((c.acceptWrite now p).answer = .accepted ∧ c.Intake p (c.acceptWrite now p).stage) := by
  have split := c.length_burstsOf p
  rw [acceptWrite]
  simp only
  split
  · exact .inl ⟨rfl, ⟨rfl, rfl, rfl, rfl⟩, fun d => by cases d <;> rfl,
      fun d => by cases d <;> rfl⟩
  · refine .inr ⟨rfl, Intake.alike ?_ (sameIntake_requestRound _ now)⟩
    refine ⟨⟨rfl, rfl, rfl, rfl⟩, ?_, ?_⟩
    · rintro (_ | _) <;> simp [kind, BusDirection.kind, pushResponse,
        ControllerStatistics.requests]
    · rintro (_ | _) <;> simp [kind, BusDirection.kind, burstsTaken, pushResponse,
        ControllerStatistics.issued, ControllerStatistics.spared, queue]
      omega

theorem recvRequest_intake (c : Controller μ) (now : Tick) (p : Packet) :
    ((c.recvRequest now p).answer ≠ .accepted ∧ c.SameIntake (c.recvRequest now p).stage) ∨
      ((c.recvRequest now p).answer = .accepted ∧ c.Intake p (c.recvRequest now p).stage) := by
  have pruned := sameIntake_prune c now
  rcases recvRequest_eq c now p with ⟨-, eq⟩ | ⟨-, kind, eq⟩ | ⟨-, kind, eq⟩ <;> rw [eq]
  · exact .inl ⟨nofun, .refl c⟩
  · rcases acceptRead_intake (c.prune now) now kind with ⟨busy, same⟩ | ⟨took, takes⟩
    · exact .inl ⟨busy ▸ nofun, pruned.trans same⟩
    · exact .inr ⟨took, pruned.intake takes⟩
  · rcases acceptWrite_intake (c.prune now) now kind with ⟨busy, same⟩ | ⟨took, takes⟩
    · exact .inl ⟨busy ▸ nofun, pruned.trans same⟩
    · exact .inr ⟨took, pruned.intake takes⟩

theorem work_requestRound (c : Controller μ) (tick : Tick) :
    (c.requestRound tick).1.work = c.work := by
  rcases requestRound_cases c tick with ⟨planned, -, eq⟩ | eq <;> rw [eq]
  rfl

theorem work_retryIfRoom (c : Controller μ) (now : Tick) :
    (c.retryIfRoom now).1.work = c.work := by
  rw [retryIfRoom]
  split
  · rfl
  · split <;> rfl

theorem work_recvRequest (c : Controller μ) (now : Tick) (p : Packet) :
    (c.recvRequest now p).stage.work = c.work := by
  rcases recvRequest_eq c now p with ⟨-, eq⟩ | ⟨-, -, eq⟩ | ⟨-, -, eq⟩ <;> rw [eq]
  · rw [acceptRead]
    simp only
    split
    · rfl
    · split
      · rfl
      · exact work_requestRound _ now
  · rw [acceptWrite]
    simp only
    split
    · rfl
    · exact work_requestRound _ now

/-- A burst has gone to its channel, and is counted there, in the phase of the bus and as issued. -/
structure Credits [MediaChannel μ] (c : Controller μ) (now : Tick) (b : Burst) (channel : μ)
    (c' : Controller μ) : Prop where
  media : c'.media = c.media.set (c.channelOf b)
    (MediaChannel.access channel b.coordinate b.kind now).2
  direction : c'.direction = c.direction
  phase : ∀ d, c'.phaseSoFar d = c.phaseSoFar d + if b.kind = d.kind then 1 else 0
  issued : ∀ d, c'.counters.issued d = c.counters.issued d + if b.kind = d.kind then 1 else 0
  rowHits : c'.counters.rowHits = c.counters.rowHits +
    if (MediaChannel.access channel b.coordinate b.kind now).1.rowHit then 1 else 0
  turnarounds : c'.counters.busTurnarounds = c.counters.busTurnarounds
  phases : c'.counters.phases = c.counters.phases
  requests : c'.counters.requests = c.counters.requests
  spared : c'.counters.spared = c.counters.spared

theorem fileIssued_phase (c : Controller μ) (b : Burst) (readyAt : Tick) :
    (c.fileIssued b readyAt).1.media = c.media ∧
      (c.fileIssued b readyAt).1.direction = c.direction ∧
      (c.fileIssued b readyAt).1.counters = c.counters ∧
      ∀ d, (c.fileIssued b readyAt).1.phaseSoFar d =
        c.phaseSoFar d + if b.kind = d.kind then 1 else 0 := by
  rw [fileIssued]
  cases b.kind with
  | write => exact ⟨rfl, rfl, rfl, fun d => by cases d <;> rfl⟩
  | read =>
    simp only
    obtain ⟨pending, eq | ⟨ready, q, eq⟩⟩ := finishRead_shape
      { c with
        readsThisPhase := c.readsThisPhase + 1
        readsInFlight := readyAt :: c.readsInFlight } b.packetId readyAt <;> rw [eq]
    · exact ⟨rfl, rfl, rfl, fun d => by cases d <;> rfl⟩
    · exact ⟨rfl, rfl, rfl, fun d => by cases d <;> rfl⟩

theorem issue_shape [MediaChannel μ] (c : Controller μ) (now : Tick) (b : Burst)
    (promoted : Bool) (channel : μ) :
    ∃ roundNotBefore nextRound, (c.issue now b promoted channel).1 =
      { (fileIssued { c with
          media := c.media.set (c.channelOf b)
            (MediaChannel.access channel b.coordinate b.kind now).2
          counters := countIssue c.counters b now promoted
            (MediaChannel.access channel b.coordinate b.kind now).1.rowHit } b
          (MediaChannel.access channel b.coordinate b.kind now).1.readyAt).1 with
        roundNotBefore, nextRound } := by
  rw [issue]
  simp only
  split
  · exact ⟨_, _, rfl⟩
  · rcases requestRound_cases _ _ with ⟨planned, -, eq⟩ | eq <;> rw [eq]
    · exact ⟨_, _, rfl⟩
    · exact ⟨_, _, rfl⟩

theorem counters_countIssue (s : ControllerStatistics) (b : Burst) (now : Tick)
    (promoted rowHit : Bool) :
    (∀ d, (countIssue s b now promoted rowHit).issued d =
        s.issued d + if b.kind = d.kind then 1 else 0) ∧
      (countIssue s b now promoted rowHit).phases = s.phases ∧
      (countIssue s b now promoted rowHit).requests = s.requests ∧
      (countIssue s b now promoted rowHit).spared = s.spared := by
  refine ⟨fun d => by cases d <;> rfl, ?_, ?_, ?_⟩ <;>
    · funext d
      cases d <;> rfl

theorem credits_issue [MediaChannel μ] (c : Controller μ) (now : Tick) (b : Burst)
    (promoted : Bool) (channel : μ) :
    c.Credits now b channel (c.issue now b promoted channel).1 := by
  obtain ⟨roundNotBefore, nextRound, eq⟩ := c.issue_shape now b promoted channel
  let access := MediaChannel.access channel b.coordinate b.kind now
  let counted : Controller μ := { c with
    media := c.media.set (c.channelOf b) access.2
    counters := countIssue c.counters b now promoted access.1.rowHit }
  obtain ⟨media, direction, counters, phase⟩ := counted.fileIssued_phase b access.1.readyAt
  obtain ⟨issued, phases, requests, spared⟩ :=
    counters_countIssue c.counters b now promoted access.1.rowHit
  rw [eq]
  refine ⟨media, direction, fun d => ?_, fun d => ?_, ?_, ?_, ?_, ?_, ?_⟩
  · have same : phaseSoFar { (counted.fileIssued b access.1.readyAt).1 with
        roundNotBefore, nextRound } d = (counted.fileIssued b access.1.readyAt).1.phaseSoFar d := by
      cases d <;> rfl
    have before : counted.phaseSoFar d = c.phaseSoFar d := by
      cases d <;> rfl
    rw [← before]
    exact same.trans (phase d)
  · exact (congrArg (·.issued d) counters).trans (issued d)
  · exact congrArg (·.rowHits) counters
  · exact congrArg (·.busTurnarounds) counters
  · exact (congrArg (·.phases) counters).trans phases
  · exact (congrArg (·.requests) counters).trans requests
  · exact (congrArg (·.spared) counters).trans spared

theorem counters_withoutPick (c : Controller μ) (pick : Pick) :
    (c.withoutPick pick).counters.requests = c.counters.requests ∧
      (c.withoutPick pick).counters.issued = c.counters.issued ∧
      (c.withoutPick pick).counters.spared = c.counters.spared := by
  rw [withoutPick, withActiveQueue, chooseDirection, turnAround]
  refine ⟨?_, ?_, ?_⟩ <;>
    · funext d
      split <;> split <;> (try split) <;> cases d <;> rfl

theorem sameIntake_runRound [MediaChannel μ] (h : c.Orderly) (now : Tick)
    (chosen : c.nextPick = some pick) : c.SameIntake (c.runRound now).1 := by
  have departs := departs_runRound h now chosen
  have kind := h.kinds _ _ (List.mem_of_getElem? departs.found)
  obtain ⟨channel, promoted, -, eq⟩ := runRound_eq now chosen (h.housed.media_ne_nil chosen)
  obtain ⟨requests, issued, spared⟩ := c.counters_withoutPick pick
  have credits := credits_issue (c.withoutPick pick) now pick.burst promoted channel
  rw [← eq] at credits
  refine ⟨departs.site, fun d => ?_, fun d => ?_⟩
  · rw [credits.requests, requests]
  · rw [burstsTaken, burstsTaken, credits.issued, credits.spared, issued, spared, kind]
    by_cases same : d = pick.direction
    · subst same
      have length := (passOver_perm (fun _ => ()) (fun _ => rfl) departs.found).length_eq
      simp only [List.length_map, List.length_cons] at length
      rw [departs.left, if_pos rfl]
      omega
    · have apart : pick.direction.kind ≠ d.kind :=
        fun kinds => same (BusDirection.kind_injective kinds).symm
      rw [(departs.rest_of_ne same).1, if_neg apart, Nat.add_zero]

theorem sameIntake_process [MediaChannel μ] (h : c.Orderly) (now : Tick) :
    c.SameIntake (c.process now).1 := by
  have orderly := h.beforeRound now
  have before : c.SameIntake (c.beforeRound now) := .of_eq ⟨rfl, rfl, rfl, rfl⟩ rfl rfl rfl
  rcases process_rounds c now with ⟨-, eq⟩ | ⟨-, eq⟩ <;> rw [eq]
  · exact (sameIntake_prune c now).trans (sameIntake_retryIfRoom _ now)
  · rcases runRound_cases orderly.housed now with ⟨-, ran⟩ | ⟨pick, chosen, -⟩
    · rw [ran]
      exact before.trans (sameIntake_retryIfRoom _ now)
    · exact before.trans ((sameIntake_runRound orderly now chosen).trans
        (sameIntake_retryIfRoom _ now))

theorem sameIntake_accessAtomic [MediaChannel μ] (c : Controller μ) (p : Packet) :
    c.SameIntake (c.accessAtomic p).2.2 := by
  rw [accessAtomic]
  split
  · exact .refl c
  · cases p.kind with
    | read => exact .refl c
    | write => exact .of_eq ⟨rfl, rfl, rfl, rfl⟩ rfl rfl rfl

end Any

variable {c c' : Controller Media} {now : Tick} {b : Burst} {channel : Media}

/-- The counters of a controller agree with those of its channels and with the phases of its bus. -/
structure Reconciled (c : Controller Media) : Prop where
  issued : ∀ d, c.counters.issued d =
    total (c.media.map fun m => (MediaChannel.statistics m).served d)
  rowHits : c.counters.rowHits =
    total (c.media.map fun m => (MediaChannel.statistics m).rowHits)
  channels : ∀ m ∈ c.media, m.Tallied
  turnarounds : c.counters.busTurnarounds =
    (c.counters.phases .read).samples + (c.counters.phases .write).samples
  /-- An issued burst was served in a phase that has ended, or in the one that is under way. -/
  phases : ∀ d, c.counters.issued d = (c.counters.phases d).sum + c.phaseSoFar d
  /-- No phase is under way in the direction that the bus does not serve. -/
  resting : ∀ d, d ≠ c.direction → c.phaseSoFar d = 0

namespace Reconciled

theorem alike (h : c.Reconciled) (same : c'.work = c.work) : c'.Reconciled := by
  simp only [work, Prod.mk.injEq] at same
  obtain ⟨media, direction, phase, issued, rowHits, turnarounds, phases⟩ := same
  constructor
  · rw [media, issued]
    exact h.issued
  · rw [media, rowHits]
    exact h.rowHits
  · rw [media]
    exact h.channels
  · rw [turnarounds, phases]
    exact h.turnarounds
  · rw [issued, phases, phase]
    exact h.phases
  · rw [direction, phase]
    exact h.resting

/-- When the bus turns around, the phase that ends is sampled as long as it was. -/
theorem turnAround (h : c.Reconciled) : c.turnAround.Reconciled := by
  have turnarounds := h.turnarounds
  rw [Controller.turnAround]
  cases direction : c.direction with
  | read =>
    refine ⟨fun d => ?_, h.rowHits, h.channels, ?_, ?_, ?_⟩
    · have issued := h.issued d
      cases d <;> exact issued
    · simp only [ControllerStatistics.phases, Histogram.samples_sample] at turnarounds ⊢
      omega
    · rintro (_ | _)
      · have reads := h.phases .read
        simpa [ControllerStatistics.phases, ControllerStatistics.issued, phaseSoFar,
          Histogram.sum_sample] using reads
      · exact h.phases .write
    · rintro (_ | _) other
      · rfl
      · exact absurd rfl other
  | write =>
    refine ⟨fun d => ?_, h.rowHits, h.channels, ?_, ?_, ?_⟩
    · have issued := h.issued d
      cases d <;> exact issued
    · simp only [ControllerStatistics.phases, Histogram.samples_sample] at turnarounds ⊢
      omega
    · rintro (_ | _)
      · exact h.phases .read
      · have writes := h.phases .write
        simpa [ControllerStatistics.phases, ControllerStatistics.issued, phaseSoFar,
          Histogram.sum_sample] using writes
    · rintro (_ | _) other
      · exact absurd rfl other
      · rfl

theorem credit (h : c.Reconciled) (credits : c.Credits now b channel c')
    (facing : b.kind = c.direction.kind) (found : c.media[c.channelOf b]? = some channel) :
    c'.Reconciled := by
  have counts := channel.counts_access b.coordinate b.kind now
  constructor
  · intro d
    rw [credits.issued, credits.media, h.issued]
    exact (total_map_set _ found (counts.served d)).symm
  · rw [credits.rowHits, credits.media, h.rowHits]
    exact (total_map_set _ found counts.rowHits).symm
  · rw [credits.media]
    intro m mem
    rcases List.mem_or_eq_of_mem_set mem with old | rfl
    · exact h.channels m old
    · exact Media.tallied_access (h.channels _ (List.mem_of_getElem? found)) ..
  · rw [credits.turnarounds, credits.phases]
    exact h.turnarounds
  · intro d
    rw [credits.issued, credits.phases, credits.phase, h.phases d, Nat.add_assoc]
  · rw [credits.direction]
    intro d other
    have apart : c.direction.kind ≠ d.kind :=
      fun kinds => other (BusDirection.kind_injective kinds).symm
    rw [credits.phase, h.resting d other, facing, if_neg apart]

end Reconciled

theorem reconciled_withoutPick {pick : Pick} (h : c.Reconciled) :
    (c.withoutPick pick).Reconciled := by
  have turned : c.chooseDirection.Reconciled := by
    rw [chooseDirection]
    split
    · exact h.turnAround
    · exact h
  refine turned.alike ?_
  rw [withoutPick, withActiveQueue]
  split <;> rfl

theorem reconciled_runRound (h : c.Reconciled) (orderly : c.Orderly) (now : Tick) :
    (c.runRound now).1.Reconciled := by
  rcases runRound_cases orderly.housed now with ⟨-, ran⟩ | ⟨pick, chosen, issues⟩
  · rw [ran]
    exact h
  · obtain ⟨channel, promoted, home, eq⟩ :=
      runRound_eq now chosen (orderly.housed.media_ne_nil chosen)
    have left := sameBus_withoutPick chosen
    have kind := orderly.kinds _ _ (List.mem_of_getElem? issues.found)
    rw [eq]
    refine (reconciled_withoutPick h).credit (credits_issue ..) ?_ ?_
    · exact kind.trans (congrArg BusDirection.kind left.direction.symm)
    · have media : (c.withoutPick pick).media = c.media := left.media
      rw [channelOf, media]
      exact home

theorem reconciled_process (h : c.Reconciled) (orderly : c.Orderly) (now : Tick) :
    (c.process now).1.Reconciled := by
  rcases process_rounds c now with ⟨-, eq⟩ | ⟨-, eq⟩ <;> rw [eq]
  · exact h.alike (work_retryIfRoom (c.prune now) now)
  · have ran : ((c.beforeRound now).runRound now).1.Reconciled :=
      reconciled_runRound (c := c.beforeRound now) (h.alike rfl) (orderly.beforeRound now) now
    exact ran.alike (work_retryIfRoom _ now)

theorem reconciled_after (h : c.Reconciled) (orderly : c.Orderly) (call : Call) :
    (c.after call).Reconciled := by
  cases call with
  | offer now p => exact h.alike (work_recvRequest c now p)
  | process now => exact reconciled_process h orderly now
  | take now =>
    cases took : c.takeResponse now with
    | none => simpa [after, took] using h
    | some taken =>
      obtain ⟨-, r, responses, -, -, -, eq⟩ := takeResponse_eq_some took
      simp only [after, took, Option.map_some, Option.getD_some, eq]
      exact h.alike rfl
  | sent | refused | retry => exact h.alike rfl
  | atomic p =>
    refine h.alike ?_
    rw [after, accessAtomic]
    split
    · rfl
    · cases p.kind <;> rfl

theorem reconciled_of_new {name : String} {range : AddressRange} {config : ControllerConfig}
    {decoder : AddressDecoder} (media : MediaConfig) (channels : Nat) (store : Store) :
    Reconciled { name, range, config, decoder
                 media := List.replicate channels (Media.create media), store } := by
  have fresh : MediaChannel.statistics (Media.create media) = {} := by
    rw [Media.create]
    split <;> rfl
  refine ⟨?_, ?_, fun m mem => ?_, rfl, ?_, ?_⟩
  · rintro (_ | _) <;> simp [fresh, MediaStatistics.served, ControllerStatistics.issued,
      total_replicate_zero]
  · simp [fresh, total_replicate_zero]
  · rw [List.eq_of_mem_replicate mem]
    exact Media.tallied_create media
  · rintro (_ | _) <;> rfl
  · rintro (_ | _) _ <;> rfl

end Controller

end Expander
