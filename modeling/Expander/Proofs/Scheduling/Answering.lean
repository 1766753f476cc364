import Expander.Proofs.Media
import Expander.Proofs.Scheduling.Line

/-!
The responses of a controller.

Every accepted packet is waiting for a burst that is queued, or it has exactly one response, which
waits to be taken, was taken, or was sent (`Answered`). A write and a read without missing bursts
have theirs at once; any other read has it with the last of its bursts, which the rounds issue in
time.
-/

set_option autoImplicit false

namespace Expander

namespace Controller

variable {μ : Type} {id : TransactionId}

/-- No read is done before it is issued. -/
def Forward (μ : Type) [MediaChannel μ] : Prop :=
  ∀ (channel : μ) (coordinate : Coordinate) (now : Tick),
    now ≤ (MediaChannel.access channel coordinate .read now).1.readyAt

namespace Journal

variable {j j' : Journal μ} {a : Admission}

def readyTick (j : Journal μ) (a : Admission) : Tick :=
  if a.needs = [] then a.tick + a.packet.headerDelay + j.controller.config.frontendLatency
  else j.lastReady a.packet.id + a.packet.headerDelay + j.controller.config.frontendLatency +
    j.controller.config.backendLatency

def answersTo (j : Journal μ) (a : Admission) : List (Tick × Packet) :=
  if a.packet.id ∈ j.controller.readQueue.map (·.packetId) then [] else [(j.readyTick a, a.answer)]

/-- The responses are those to the accepted packets. -/
def Answered (j : Journal μ) : Prop :=
  (j.responses.map fun r => (r.ready, r.packet)).Perm (j.admitted.flatMap j.answersTo)

theorem answersTo_congr (queued : a.packet.id ∈ j'.controller.readQueue.map (·.packetId) ↔
      a.packet.id ∈ j.controller.readQueue.map (·.packetId))
    (last : j'.lastReady a.packet.id = j.lastReady a.packet.id)
    (config : j'.controller.config = j.controller.config) : j'.answersTo a = j.answersTo a := by
  rw [answersTo, answersTo, readyTick, readyTick, last, config]
  simp only [queued]

theorem answersTo_eq_nil : j.answersTo a = [] ↔ j.controller.queuedOf a.packet.id ≠ [] := by
  rw [Ne, queuedOf_eq_nil, not_not, answersTo]
  split
  next queued => exact ⟨fun _ => queued, fun _ => rfl⟩
  next done => exact ⟨nofun, fun queued => absurd queued done⟩

theorem lastReady_congr (reads : ∀ id, j'.readsOf id = j.readsOf id) (id : TransactionId) :
    j'.lastReady id = j.lastReady id := by
  rw [lastReady, lastReady, reads]

theorem answersTo_same (same : j.SameReads j') : j'.answersTo = j.answersTo := by
  funext a
  refine answersTo_congr ?_ (lastReady_congr same.reads _) same.config
  rw [same.queue]

theorem Answered.alike (h : j.Answered) (same : j.SameReads j')
    (responses : j'.responses.Perm j.responses) : j'.Answered := by
  rw [Answered, answersTo_same same, same.admitted]
  exact (responses.map _).trans h

theorem answersTo_accept (admits : j.Admits a j') (bursts : List Burst)
    (own : ∀ b ∈ bursts, b.packetId = a.packet.id)
    (queue : j'.controller.readQueue = j.controller.readQueue ++ bursts)
    (config : j'.controller.config = j.controller.config) :
    j'.admitted.flatMap j'.answersTo = j.admitted.flatMap j.answersTo ++ j'.answersTo a := by
  have old : j.admitted.flatMap j'.answersTo = j.admitted.flatMap j.answersTo := by
    refine List.flatMap_congr fun other mem => ?_
    refine answersTo_congr ?_ (lastReady_congr admits.reads _) config
    rw [queue, List.map_append, List.mem_append]
    refine or_iff_left ?_
    intro new
    obtain ⟨b, joined, same⟩ := List.mem_map.1 new
    exact admits.fresh ((own b joined).symm.trans same ▸ List.mem_map_of_mem mem)
  rw [admits.admitted, List.flatMap_append, old, List.flatMap_singleton]

theorem Answered.answer (h : j.Answered) (booked : j.Booked) (admits : j.Admits a j')
    (needs : a.needs = [])
    (desk : (j.controller.answered a.tick a.packet).SameDesk j'.controller) : j'.Answered := by
  have unqueued : a.packet.id ∉ j.controller.readQueue.map (·.packetId) :=
    fun queued => admits.fresh (booked.admitted_of_queued queued)
  have queue : j'.controller.readQueue = j.controller.readQueue := desk.reads
  have config : j'.controller.config = j.controller.config := desk.config
  have ready : j'.answersTo a = [(a.tick + a.packet.headerDelay +
      j.controller.config.frontendLatency, j.controller.answerTo a.packet)] := by
    rw [answersTo, queue, if_neg unqueued, readyTick, if_pos needs, config, admits.answer]
  have pushed := responses_push admits.line desk.responses
  rw [Answered, answersTo_accept admits [] nofun (by simp [queue]) config, ready]
  refine (pushed.map _).trans ?_
  exact (h.cons _).trans (List.perm_append_singleton _ _).symm

theorem Answered.park (h : j.Answered) (admits : j.Admits a j')
    (needs : a.needs = j.controller.freshBurstsOf a.packet) (some : a.needs ≠ [])
    (desk : (j.controller.parked a.tick a.packet).SameDesk j'.controller) : j'.Answered := by
  have queue : j'.controller.readQueue = j.controller.readQueue ++
    a.needs.map (j.controller.burstAt a.packet .read a.tick) := needs ▸ desk.reads
  have own : ∀ b ∈ a.needs.map (j.controller.burstAt a.packet .read a.tick),
      b.packetId = a.packet.id := by
    intro b mem
    obtain ⟨offset, -, rfl⟩ := List.mem_map.1 mem
    rfl
  have waits : j'.answersTo a = [] := by
    obtain ⟨offset, mem⟩ := List.exists_mem_of_ne_nil _ some
    refine if_pos ?_
    rw [queue, List.map_append]
    refine List.mem_append_right _ (List.mem_map.2 ⟨_, List.mem_map_of_mem mem, rfl⟩)
  have pushed := responses_same admits.line desk.responses
  rw [Answered, answersTo_accept admits _ own queue desk.config, waits, List.append_nil, pushed]
  exact h

theorem answersTo_apart {s : ServedBurst} {place : Nat}
    (found : j.controller.readQueue[place]? = some s.burst)
    (queue : j'.controller.readQueue = passOver j.controller.readQueue place)
    (issued : j'.issued = j.issued ++ [s]) (config : j'.controller.config = j.controller.config)
    (apart : s.burst.packetId ≠ a.packet.id) : j'.answersTo a = j.answersTo a := by
  have split := passOver_perm (·.packetId) (fun _ => rfl) found
  refine answersTo_congr ?_ ?_ config
  · rw [queue, split.mem_iff, List.mem_cons]
    exact (or_iff_right apart.symm).symm
  · rw [lastReady_issued issued, if_neg fun same => apart same.2]

section Rounds

variable [MediaChannel μ]

theorem max_lastReady (forward : Forward μ) (past : a.tick ≤ j.now) (later : j.now ≤ j'.now)
    {s : ServedBurst} (kind : s.burst.kind = .read) (own : s.burst.packetId = a.packet.id)
    (timely : ∃ channel : μ, s.readyAt =
      (MediaChannel.access channel s.burst.coordinate .read j'.now).1.readyAt)
    (issued : j'.issued = j.issued ++ [s]) :
    max a.tick (j'.lastReady a.packet.id) = j'.lastReady a.packet.id := by
  obtain ⟨channel, ready⟩ := timely
  rw [lastReady_issued issued, if_pos ⟨kind, own⟩]
  refine Nat.max_eq_right ?_
  rw [ready]
  calc a.tick ≤ j.now := past
    _ ≤ j'.now := later
    _ ≤ _ := forward channel s.burst.coordinate j'.now
    _ ≤ _ := Nat.le_max_right _ _

theorem Answered.serve (forward : Forward μ) (h : j.Answered) (booked : j.Booked)
    (later : j.now ≤ j'.now) {s : ServedBurst} {place : Nat} (kind : s.burst.kind = .read)
    (found : j.controller.readQueue[place]? = some s.burst)
    (timely : ∃ channel : μ, s.readyAt =
      (MediaChannel.access channel s.burst.coordinate .read j'.now).1.readyAt)
    (desk : ({ j.controller with
      readQueue := passOver j.controller.readQueue place }.finishRead s.burst.packetId
        s.readyAt).1.SameDesk j'.controller)
    (admitted : j'.admitted = j.admitted) (issued : j'.issued = j.issued ++ [s])
    (line : j.SameLine j') : j'.Answered := by
  obtain ⟨a, mem, own, front, count, back, pending, cases⟩ :=
    booked.served_cases issued kind found rfl desk
  have split := passOver_perm (·.packetId) (fun _ => rfl) found
  have queue : j'.controller.readQueue = passOver j.controller.readQueue place := by
    rcases cases with ⟨-, same⟩ | ⟨-, same⟩ <;> exact same.reads
  have config : j'.controller.config = j.controller.config := by
    rcases cases with ⟨-, same⟩ | ⟨-, same⟩ <;> exact same.config
  have waited : j.answersTo a = [] := by
    refine if_pos (split.mem_iff.2 ?_)
    rw [own]
    exact List.mem_cons_self
  obtain ⟨before, behind, whole⟩ := List.append_of_mem mem
  have distinct := booked.distinct
  rw [whole, List.map_append, List.map_cons, List.nodup_middle, ← List.map_append,
    List.nodup_cons] at distinct
  -- Only the packet of the burst has one burst less in the queue and one more that was served.
  have others : (before ++ behind).flatMap j'.answersTo =
      (before ++ behind).flatMap j.answersTo := by
    refine List.flatMap_congr fun other rest => answersTo_apart found queue issued config ?_
    intro same
    exact distinct.1 (List.mem_map.2 ⟨other, rest, same.symm.trans own.symm⟩)
  have moved (j : Journal μ) : ((before ++ a :: behind).flatMap j.answersTo).Perm
      (j.answersTo a ++ (before ++ behind).flatMap j.answersTo) := by
    rw [← List.flatMap_cons]
    exact List.Perm.flatMap_right _ List.perm_middle
  rw [Answered, whole] at h
  rw [Answered, admitted, whole]
  refine List.Perm.trans ?_ (moved j').symm
  replace h := h.trans (moved j)
  rw [waited, List.nil_append] at h
  rw [others]
  rcases cases with ⟨more, same⟩ | ⟨done, same⟩
  · have waits : j'.answersTo a = [] := if_pos (by rwa [queue])
    rw [waits, List.nil_append, responses_same line same.responses]
    exact h
  · have needs : a.needs ≠ [] := by
      intro none
      have bursts := booked.bursts a mem
      rw [none, List.perm_nil, List.append_eq_nil_iff, queuedOf_eq_nil] at bursts
      refine bursts.2 (split.mem_iff.2 ?_)
      rw [own]
      exact List.mem_cons_self
    have late := max_lastReady forward (booked.past a mem) later kind own.symm timely issued
    have answer : j'.answersTo a = [(j'.lastReady a.packet.id + a.packet.headerDelay +
        j.controller.config.frontendLatency + j.controller.config.backendLatency, a.answer)] := by
      rw [answersTo, queue, if_neg done, readyTick, if_neg needs, config]
    rw [late] at same
    rw [answer]
    exact ((responses_push line same.responses).map _).trans (h.cons _)

end Rounds

/-- What the calls keep of a journal. -/
structure Settled (j : Journal μ) : Prop where
  booked : j.Booked
  answered : j.Answered
  inLine : j.InLine

theorem settled_create {m : Machine} {name : String} {range : AddressRange}
    {config : ControllerConfig} {geometry : Geometry} {media : List μ} {store : Store}
    {c : Controller μ} (made : create m name range config geometry media store = .ok c) :
    Settled { controller := c } := by
  obtain ⟨-, -, -, rfl⟩ := create_eq_ok made
  refine ⟨⟨.nil, nofun, List.nodup_nil, nofun, ?_, nofun, nofun⟩, .refl _,
    ⟨trivial, rfl, nofun, nofun, nofun, .nil, nofun⟩⟩
  exact fun id some => absurd rfl some

section Rounds

variable [MediaChannel μ]

theorem Settled.next (forward : Forward μ) (h : j.Settled) (turn : j.Turn j')
    (later : j.now ≤ j'.now) : j'.Settled := by
  have booked := h.booked.next turn later
  cases turn with
  | quiet same line responses place =>
    refine ⟨booked, h.answered.alike same ?_, h.inLine.stay line later responses same.nextSeq place⟩
    rw [responses_same line responses]
  | answered a admits needs desk =>
    refine ⟨booked, h.answered.answer h.booked admits needs desk, ?_⟩
    refine h.inLine.push admits.line later desk.responses rfl desk.nextSeq desk.lastTaken ?_
    rw [← admits.now]
    simp only [Nat.add_assoc]
    exact Nat.le_add_right _ _
  | parked a admits kind needs some desk =>
    exact ⟨booked, h.answered.park admits needs some desk,
      h.inLine.stay admits.line later desk.responses desk.nextSeq desk.lastTaken⟩
  | served s place kind found timely desk admitted issued line =>
    refine ⟨booked, h.answered.serve forward h.booked later kind found timely desk admitted issued
      line, ?_⟩
    obtain ⟨a, -, own, front, count, back, -, ⟨-, same⟩ | ⟨-, same⟩⟩ :=
      h.booked.served_cases issued kind found rfl desk
    · exact h.inLine.stay line later same.responses same.nextSeq same.lastTaken
    · refine h.inLine.push line later same.responses rfl same.nextSeq same.lastTaken ?_
      obtain ⟨channel, ready⟩ := timely
      rw [lastReady_issued issued, if_pos ⟨kind, own.symm⟩]
      calc j'.now ≤ s.readyAt := ready ▸ forward channel s.burst.coordinate j'.now
        _ ≤ max (j.lastReady a.packet.id) s.readyAt := Nat.le_max_right _ _
        _ ≤ max a.tick (max (j.lastReady a.packet.id) s.readyAt) := Nat.le_max_right _ _
        _ ≤ _ := by
          simp only [Nat.add_assoc]
          exact Nat.le_add_right _ _
  | took r same free popped ready place held sent taken =>
    obtain ⟨all, inLine⟩ := h.inLine.take same later free popped ready place held sent taken
    exact ⟨booked, h.answered.alike same all, inLine⟩
  | delivered r same free responses place held sent taken =>
    obtain ⟨all, inLine⟩ := h.inLine.deliver same later free responses place held sent taken
    exact ⟨booked, h.answered.alike same all, inLine⟩
  | refused r same free responses place held sent taken =>
    obtain ⟨all, inLine⟩ := h.inLine.refuse same later free responses place held sent taken
    exact ⟨booked, h.answered.alike same all, inLine⟩

theorem Reachable.controller (h : j.Reachable) : j.controller.Reachable := by
  induction h with
  | created made => exact .created made
  | called _ _ ih => exact .called ih _

theorem Reachable.awaitingResponseRetry_eq (h : j.Reachable) :
    j.controller.awaitingResponseRetry = j.blocked := by
  induction h with
  | created made =>
    obtain ⟨-, -, -, rfl⟩ := create_eq_ok made
    rfl
  | called reached proper ih => exact awaitingResponseRetry_after reached.controller.orderly _ ih

theorem Reachable.settled (forward : Forward μ) (h : j.Reachable) : j.Settled := by
  induction h with
  | created made => exact settled_create made
  | called reached proper ih =>
    exact ih.next forward (turn_after reached.controller.orderly proper) (now_le_after proper)

theorem Booked.queuedOf_unserved (h : j.Booked) {call : Call} (h' : (j.after call).Booked)
    (mem : a ∈ j.admitted) (none : serves j.controller call = none) :
    (j.controller.queuedOf a.packet.id).Perm ((j.after call).controller.queuedOf a.packet.id) := by
  have before := h.bursts a mem
  have behind := h'.bursts a (List.mem_append_left _ mem)
  have issued : (j.after call).issued = j.issued := by
    rw [issued_after, none]
    exact List.append_nil _
  rw [readsOf, issued] at behind
  exact (List.perm_append_left_iff _).1 (before.trans behind.symm)

theorem Booked.queuedOf_served (h : j.Booked) {call : Call} (h' : (j.after call).Booked)
    (mem : a ∈ j.admitted) {s : ServedBurst} (served : serves j.controller call = some s) :
    (j.controller.queuedOf a.packet.id).Perm
      ((if s.burst.kind = .read ∧ s.burst.packetId = a.packet.id then [s.burst.offset] else []) ++
        (j.after call).controller.queuedOf a.packet.id) := by
  have before := h.bursts a mem
  have behind := h'.bursts a (List.mem_append_left _ mem)
  have issued : (j.after call).issued = j.issued ++ [s] := by
    rw [issued_after, served]
    rfl
  rw [readsOf_issued issued, List.map_append, List.append_assoc] at behind
  have moved := (List.perm_append_left_iff _).1 (before.trans behind.symm)
  split at moved
  next own => rwa [if_pos own]
  next other => rwa [if_neg other]

theorem answersTo_after (h : j.Booked) {call : Call} (h' : (j.after call).Booked)
    (mem : a ∈ j.admitted) (waits : j.answersTo a = []) :
    (j.after call).answersTo a ≠ [] ↔ ∃ s, serves j.controller call = some s ∧
      s.burst.kind = .read ∧ s.burst.packetId = a.packet.id ∧
      j.controller.queuedOf a.packet.id = [s.burst.offset] := by
  rw [answersTo_eq_nil] at waits
  rw [Ne, answersTo_eq_nil, not_not]
  constructor
  · intro done
    cases served : serves j.controller call with
    | none =>
      have moved := h.queuedOf_unserved h' mem served
      rw [done] at moved
      exact absurd moved.eq_nil waits
    | some s =>
      have moved := h.queuedOf_served h' mem served
      rw [done, List.append_nil] at moved
      split at moved
      next own => exact ⟨s, rfl, own.1, own.2, List.perm_singleton.1 moved⟩
      next => exact absurd moved.eq_nil waits
  · rintro ⟨s, served, kind, own, last⟩
    have moved := (h.queuedOf_served h' mem served).length_eq
    rw [last, if_pos ⟨kind, own⟩, List.length_append] at moved
    exact List.length_eq_zero_iff.1 (by simpa using moved)

def run (j : Journal μ) : List Call → Journal μ
  | [] => j
  | call :: calls => (j.after call).run calls

def Obeys (j : Journal μ) : List Call → Prop
  | [] => True
  | call :: calls => j.Proper call ∧ (j.after call).Obeys calls

instance : (j : Journal μ) → (calls : List Call) → Decidable (j.Obeys calls)
  | _, [] => inferInstanceAs (Decidable True)
  | j, call :: calls =>
    have := instDecidableObeys (j.after call) calls
    inferInstanceAs (Decidable (_ ∧ _))

theorem Reachable.run (h : j.Reachable) {calls : List Call} (obeys : j.Obeys calls) :
    (j.run calls).Reachable := by
  induction calls generalizing j with
  | nil => exact h
  | cons call calls ih => exact ih (.called h obeys.1) obeys.2

theorem Booked.queued_joins (h : j.Booked) {call : Call} (h' : (j.after call).Booked)
    (joins : j.controller.Joins (j.after call).controller) (mem : a ∈ j.admitted)
    (none : j.controller.picked call = none) {b : Burst}
    (queued : b ∈ (j.after call).controller.readQueue) (own : b.packetId = a.packet.id) :
    b ∈ j.controller.readQueue := by
  obtain ⟨fresh, eq, -⟩ := joins.queue .read
  have eq : (j.after call).controller.readQueue = j.controller.readQueue ++ fresh := eq
  have unserved : serves j.controller call = Option.none := by
    cases call <;> first | rfl | simp [serves, servedBy, none]
  have same := (h.queuedOf_unserved h' mem unserved).length_eq
  rw [queuedOf, queuedOf, eq, List.filter_append, List.map_append, List.length_append,
    Nat.left_eq_add, List.length_map, List.length_eq_zero_iff, List.filter_eq_nil_iff] at same
  rw [eq] at queued
  refine (List.mem_append.1 queued).resolve_right fun joined => ?_
  exact same b joined (by simpa using own)

/-- A queued burst of a packet was queued before, with as many rounds more to wait as were run. -/
theorem Booked.queued_before (h : j.Booked) (orderly : j.controller.Orderly) {call : Call}
    (h' : (j.after call).Booked) (mem : a ∈ j.admitted) {b' : Burst}
    (queued : b' ∈ (j.after call).controller.readQueue) (own : b'.packetId = a.packet.id) :
    ∃ b ∈ j.controller.readQueue, b.packetId = a.packet.id ∧
      roundsLeft (j.after call).controller b' + j.controller.roundCount [.read, .write] call ≤
        roundsLeft j.controller b := by
  rw [roundCount]
  rcases after_cases orderly.housed call with ⟨none, joins⟩ | ⟨now, pick, -, chosen, issues⟩
  · rw [none]
    refine ⟨b', h.queued_joins h' joins mem none queued own, own, ?_⟩
    exact Nat.le_of_eq (budget_read.joins joins)
  · rw [chosen]
    by_cases write : pick.direction = .write
    · have away : pick.direction ≠ .read := by simp [write]
      have stays : (j.after call).controller.readQueue = j.controller.readQueue :=
        queue_issues issues away
      rw [stays] at queued
      exact ⟨b', queued, own, budget_read.other orderly issues (List.ne_nil_of_mem queued) away⟩
    · have read : pick.direction = .read := by
        cases facing : pick.direction with
        | read => rfl
        | write => exact absurd facing write
      have served := issues.served
      rw [read] at served
      have served : (j.after call).controller.readQueue =
        passOver j.controller.readQueue pick.place := served
      obtain ⟨place, found⟩ := List.mem_iff_getElem?.1 queued
      have lt := (orderly_issues orderly issues).waited_lt (d := .read) found
      have config : (j.after call).controller.config = j.controller.config := issues.config
      change b'.roundsWaited < (j.after call).controller.config.starvationThreshold +
        (j.after call).controller.config.bufferSize .read at lt
      rw [config] at lt
      rw [served] at queued
      obtain ⟨b, stays, rfl⟩ := List.mem_map.1 queued
      exact ⟨b, List.mem_of_mem_eraseIdx stays, own, budget_read.passed orderly issues lt read⟩

theorem answersTo_run (forward : Forward μ) (h : j.Reachable) (mem : a ∈ j.admitted)
    (left : Nat) (waits : ∀ b ∈ j.controller.readQueue, b.packetId = a.packet.id →
      roundsLeft j.controller b ≤ left)
    {calls : List Call} (obeys : j.Obeys calls)
    (enough : left ≤ j.controller.roundsServing [.read, .write] calls) :
    (j.run calls).answersTo a ≠ [] := by
  induction calls generalizing j left with
  | nil =>
    rw [run, Ne, answersTo_eq_nil, not_not, queuedOf_eq_nil]
    intro queued
    obtain ⟨b, mem', own⟩ := List.mem_map.1 queued
    have few := waits b mem' own
    rw [roundsServing] at enough
    rw [roundsLeft] at few
    omega
  | cons call calls ih =>
    have next : (j.after call).Reachable := .called h obeys.1
    refine ih next (List.mem_append_left _ mem)
      (left - j.controller.roundCount [.read, .write] call) ?_ obeys.2 ?_
    · intro b' queued own
      obtain ⟨b, mem', same, fewer⟩ := (h.settled forward).booked.queued_before
        h.controller.orderly (next.settled forward).booked mem queued own
      have few := waits b mem' same
      omega
    · rw [roundsServing] at enough
      have same : (j.after call).controller = j.controller.after call := rfl
      rw [same]
      omega

theorem Settled.numbered (h : j.Settled) (turn : j.Turn j') (later : j.now ≤ j'.now)
    {r : ReadyResponse} (mem : r ∈ j'.responses) :
    r ∈ j.responses ∨ ∀ other ∈ j.responses, other.seq < r.seq := by
  have pushed {p : Packet} {ready : Tick} (all : j'.responses.Perm
      (⟨ready, j.controller.nextSeq, p⟩ :: j.responses)) :
      r ∈ j.responses ∨ ∀ other ∈ j.responses, other.seq < r.seq := by
    rcases List.mem_cons.1 (all.mem_iff.1 mem) with rfl | old
    · exact .inr h.inLine.numbers
    · exact .inl old
  cases turn with
  | quiet same line responses => exact .inl (responses_same line responses ▸ mem)
  | answered a admits needs desk => exact pushed (responses_push admits.line desk.responses)
  | parked a admits kind needs some desk =>
    exact .inl (responses_same admits.line desk.responses ▸ mem)
  | served s place kind found timely desk admitted issued line =>
    obtain ⟨a, -, -, front, count, back, -, ⟨-, same⟩ | ⟨-, same⟩⟩ :=
      h.booked.served_cases issued kind found rfl desk
    · exact .inl (responses_same line same.responses ▸ mem)
    · exact pushed (responses_push line same.responses)
  | took r same free popped ready place held sent taken =>
    have all := (h.inLine.take same later free popped ready place held sent taken).1
    exact .inl (all.mem_iff.1 mem)
  | delivered r same free responses place held sent taken =>
    have all := (h.inLine.deliver same later free responses place held sent taken).1
    exact .inl (all.mem_iff.1 mem)
  | refused r same free responses place held sent taken =>
    have all := (h.inLine.refuse same later free responses place held sent taken).1
    exact .inl (all.mem_iff.1 mem)

end Rounds

/-- A packet has the responses that are its own. -/
theorem Settled.responses_of (h : j.Settled) (mem : a ∈ j.admitted) :
    (j.responses.filter fun r => r.packet.id = a.packet.id).map (fun r => (r.ready, r.packet)) =
      j.answersTo a := by
  have named {other : Admission} (mem : other ∈ j.admitted) {x : Tick × Packet}
      (answer : x ∈ j.answersTo other) : x.2.id = other.packet.id := by
    rw [answersTo] at answer
    split at answer
    · cases answer
    · rw [List.mem_singleton.1 answer]
      exact h.booked.named other mem
  obtain ⟨before, behind, whole⟩ := List.append_of_mem mem
  have distinct := h.booked.distinct
  rw [whole, List.map_append, List.map_cons, List.nodup_middle, ← List.map_append,
    List.nodup_cons] at distinct
  have others : ((before ++ behind).flatMap j.answersTo).filter
      (fun x => x.2.id = a.packet.id) = [] := by
    refine List.filter_eq_nil_iff.2 fun x found => ?_
    obtain ⟨other, rest, answer⟩ := List.mem_flatMap.1 found
    have admitted : other ∈ j.admitted := by
      rw [whole]
      exact List.perm_middle.mem_iff.2 (List.mem_cons_of_mem _ rest)
    rw [named admitted answer, decide_eq_true_eq]
    exact fun same => distinct.1 (List.mem_map.2 ⟨other, rest, same⟩)
  have own : (j.answersTo a).filter (fun x => x.2.id = a.packet.id) = j.answersTo a :=
    List.filter_eq_self.2 fun x answer => by simpa using named mem answer
  have all : (j.admitted.flatMap j.answersTo).Perm
      (j.answersTo a ++ (before ++ behind).flatMap j.answersTo) := by
    rw [whole, ← List.flatMap_cons]
    exact List.Perm.flatMap_right _ List.perm_middle
  have kept := (h.answered.trans all).filter fun x => x.2.id = a.packet.id
  rw [List.filter_append, others, own, List.append_nil, List.filter_map] at kept
  have kept : ((j.responses.filter fun r => r.packet.id = a.packet.id).map
      fun r => (r.ready, r.packet)).Perm (j.answersTo a) := kept
  -- A list of one response at most has one order only.
  rw [answersTo] at kept ⊢
  split at kept
  next queued => rw [if_pos queued, kept.eq_nil]
  next done => rw [if_neg done, List.perm_singleton.1 kept]

theorem Settled.known (h : j.Settled) {r : ReadyResponse} (mem : r ∈ j.responses) :
    r.packet.id ∈ j.admitted.map (·.packet.id) := by
  have answer : (r.ready, r.packet) ∈ j.admitted.flatMap j.answersTo :=
    h.answered.mem_iff.1 (List.mem_map.2 ⟨r, mem, rfl⟩)
  obtain ⟨a, admitted, answer⟩ := List.mem_flatMap.1 answer
  rw [answersTo] at answer
  split at answer
  · cases answer
  · obtain ⟨-, packet⟩ := Prod.mk.inj (List.mem_singleton.1 answer)
    rw [packet, h.booked.named a admitted]
    exact List.mem_map_of_mem admitted

section Rounds

variable [MediaChannel μ]

/-- Every accepted packet is answered once, at the right tick and in order. -/
structure Answers (j : Journal μ) : Prop where
  /-- A packet has no response while a burst of it is queued, and then exactly one, whether it waits
  to be taken, was taken or was sent. It may leave from the tick of the packet. -/
  answered : ∀ a ∈ j.admitted,
    (j.responses.filter fun r => r.packet.id = a.packet.id).map (fun r => (r.ready, r.packet)) =
      j.answersTo a
  /-- There are no other responses. -/
  known : ∀ r ∈ j.responses, r.packet.id ∈ j.admitted.map (·.packet.id)
  /-- The bursts of a packet are those it needs; each was issued or is queued. -/
  bursts : ∀ a ∈ j.admitted, ((j.readsOf a.packet.id).map (·.burst.offset) ++
    j.controller.queuedOf a.packet.id).Perm a.needs
  /-- A packet that waits has its response with the call that issues the last of its bursts. -/
  created : ∀ call, j.Proper call → ∀ a ∈ j.admitted, j.answersTo a = [] →
    ((j.after call).answersTo a ≠ [] ↔ ∃ s, serves j.controller call = some s ∧
      s.burst.kind = .read ∧ s.burst.packetId = a.packet.id ∧
      j.controller.queuedOf a.packet.id = [s.burst.offset])
  /-- Rounds enough bring every accepted packet its response. -/
  soon : ∀ calls, j.Obeys calls → ∀ a ∈ j.admitted,
    (j.controller.config.starvationThreshold + j.controller.config.readBufferSize) *
        (1 + max 1 j.controller.config.minWritesPerSwitch) ≤
      j.controller.roundsServing [.read, .write] calls →
    (j.run calls).answersTo a ≠ []
  /-- The numbers of the responses give the order in which they were created. -/
  numbered : ∀ call, j.Proper call → ∀ r ∈ (j.after call).responses,
    r ∈ j.responses ∨ ∀ other ∈ j.responses, other.seq < r.seq
  /-- Unless one is held or waits for a retry, a response is taken as soon as one is ready. -/
  handed : j.held = none → ∀ now, (j.controller.takes (.take now)).isSome ↔
    j.blocked = false ∧ ∃ r ∈ j.waiting, r.ready ≤ now
  /-- It is the first of those that wait. -/
  first : j.held = none → ∀ now r, j.controller.takes (.take now) = some r → r ∈ j.waiting ∧
    ∀ other ∈ j.waiting, r.ready < other.ready ∨ r.ready = other.ready ∧ r.seq ≤ other.seq
  /-- What is taken is one of the responses, not before its tick. -/
  punctual : ∀ x ∈ j.taken, x.2 ∈ j.responses ∧ x.2.ready ≤ x.1
  /-- Responses are taken in order, those that were refused included. -/
  ordered : j.taken.Pairwise fun x y =>
    x.2.ready < y.2.ready ∨ x.2.ready = y.2.ready ∧ x.2.seq ≤ y.2.seq

theorem answers_reachable (forward : Forward μ) (h : j.Reachable) : j.Answers := by
  have settled := h.settled forward
  have orderly := h.controller.orderly
  refine ⟨?_, ?_, settled.booked.bursts, ?_, ?_, ?_, ?_, ?_, ?_, ?_⟩
  · intro a mem
    exact settled.responses_of mem
  · intro r mem
    exact settled.known mem
  · intro call proper a mem waits
    have next : (j.after call).Reachable := .called h proper
    exact answersTo_after settled.booked (next.settled forward).booked mem waits
  · intro calls obeys a mem enough
    refine answersTo_run forward h mem _ (fun b queued own => ?_) obeys enough
    obtain ⟨place, found⟩ := List.mem_iff_getElem?.1 queued
    exact roundsLeft_le orderly found
  · intro call proper r mem
    exact settled.numbered (turn_after orderly proper) (now_le_after proper) mem
  · intro free now
    rw [settled.inLine.isSome_takes free, h.awaitingResponseRetry_eq]
  · intro free now r took
    obtain ⟨waits, before⟩ := settled.inLine.first free took
    exact ⟨waits, fun other mem => ReadyResponse.before_eq_false_iff.1 (before other mem)⟩
  · intro x mem
    exact ⟨settled.inLine.own x mem, (settled.inLine.past x mem).1⟩
  · exact settled.inLine.sorted.imp ReadyResponse.before_eq_false_iff.1

end Rounds

theorem forward_media : Forward Media := by
  intro channel coordinate now
  exact Nat.le_trans (Nat.le_add_right _ _) (channel.le_readyAt coordinate now)

def refusedOnce : List Call :=
  let response := (Packet.read 0 0 128 0).respond (List.replicate 128 0)
  [.offer 0 (.read 0 0 128 0), .process 0, .process 3332, .take 3332, .take 60000,
    .refused 60000 response, .take 70000, .retry 80000, .take 80000, .sent 80000]

theorem answers_refused_once :
    let start : Journal Media := { controller := ofConfig shortConfig }
    let j := start.run refusedOnce
    j.admitted.map (·.needs) = [[0, 64]] ∧ j.taken.map (·.1) = [60000, 80000] ∧
      j.sent.length = 1 ∧ j.Answers := by
  have start : Reachable { controller := ofConfig shortConfig } :=
    .created create_shortConfig
  refine ⟨by decide +kernel, by decide +kernel, by decide +kernel, ?_⟩
  exact answers_reachable forward_media (start.run (by decide +kernel))

end Journal

end Controller

end Expander
