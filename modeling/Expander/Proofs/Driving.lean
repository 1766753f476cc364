import Expander.Proofs.Agreement
import Expander.Proofs.Chronology
import Expander.Proofs.Conservation
import Expander.Traffic

/-!
A driven run.

`TrafficRun.loop` sends a list of requests and collects their completions. What it does to the
system is a sequence of host calls (`TrafficRun.Drives`), so that it is a session like any other. In
each state on the way the requests that are accepted and those that wait are the list, in its order,
and the requests in flight are those accepted and not collected, at most as many as the window
allows (`TrafficRun.Tracks`). When the run ends without an error, there is one completion for each
request.
-/

set_option autoImplicit false

namespace Expander

namespace Ledger

def Counted (l : Ledger) : Prop :=
  l.accepted.length = l.nextId ∧ l.accepted.map Grant.id = List.range l.nextId

variable {expander : AddressRange} {l l' : Ledger}

theorem Counted.step (counted : l.Counted) (step : Step expander true l l') : l'.Counted := by
  cases step with
  | move => exact counted
  | receive access issued =>
    refine ⟨?_, ?_⟩
    · rw [List.length_append, counted.1]
      rfl
    · rw [List.map_append, counted.2, List.range_succ]
      rfl
  | poke untimed => cases untimed

theorem Counted.steps (counted : l.Counted) (steps : Steps expander true l l') : l'.Counted := by
  induction steps with
  | refl => exact counted
  | tail _ step ih => exact ih.step step

end Ledger

theorem Access.request_injective : Function.Injective Access.request := by
  intro a b same
  cases a <;> cases b <;> simp_all [Access.request, HostRequest.read, HostRequest.write]

namespace Session

variable {h : Session} {machine : Machine} {config : Config} {s : Simulation}
  {calls : List HostCall}

theorem counted_start (created : Simulation.create machine config = .ok s) :
    (start s).ledger.Counted := by
  have nextId : s.nextId = 0 := (Simulation.fresh_create created).nextId
  refine ⟨nextId.symm, ?_⟩
  rw [show (start s).ledger.nextId = 0 from nextId]
  rfl

theorem Standing.returned_le (standing : h.Standing) :
    h.returned.length ≤ h.accepted.length := by
  have whole := standing.transactions_perm.length_eq
  rw [List.length_append, List.length_map, List.length_map] at whole
  omega

theorem Standing.returned_perm (standing : h.Standing)
    (all : h.returned.length = h.accepted.length) :
    (h.returned.map Completion.transaction).Perm (h.accepted.map Grant.transaction) := by
  have perm := standing.transactions_perm
  have whole := perm.length_eq
  rw [List.length_append, List.length_map, List.length_map, all] at whole
  have under : Place.all.flatMap h.system.transactionsAt = [] :=
    List.eq_nil_of_length_eq_zero (by omega)
  rwa [under] at perm

def Within (window : Nat) (accesses : List Access) (h : Session) : Prop :=
  h.accepted.map Grant.access <+: accesses ∧ h.accepted.length ≤ h.returned.length + window

theorem Within.waits {window : Nat} {accesses : List Access} (within : Within window accesses h)
    (waits : ∀ call ∈ calls, call.waits = true) : Within window accesses (h.run calls) := by
  induction calls generalizing h with
  | nil => exact within
  | cons call rest ih =>
    obtain ⟨first, later⟩ := List.forall_mem_cons.1 waits
    refine ih ?_ later
    rw [Within, (h.still_of_waits first).2]
    have more : h.returned.length ≤ (h.after call).returned.length := by
      rw [returned_after, List.length_append]
      exact Nat.le_add_right ..
    exact ⟨within.1, by have := within.2; omega⟩

end Session

namespace TrafficRun

/-- One turn of the driver, with the calls that it makes. -/
inductive Turns (window : Nat) : TrafficRun → List HostCall → TrafficRun → Prop where
  | accepts {d : TrafficRun} {access : Access} {rest : List HostRequest} {id : TransactionId}
      {system : Simulation} : d.waiting = access.request :: rest → d.blocked = false →
      d.inFlight < window → d.system.sendRequest access.request = (.ok (.accepted id), system) →
      Turns window d [.send access]
        { d with system, waiting := rest, inFlight := d.inFlight + 1 }
  | refuses {d : TrafficRun} {access : Access} {rest : List HostRequest} {back : HostRequest}
      {system : Simulation} : d.waiting = access.request :: rest → d.blocked = false →
      d.inFlight < window → d.system.sendRequest access.request = (.ok (.retry back), system) →
      Turns window d [.send access] { d with system, waiting := back :: rest, blocked := true }
  /-- A refused request waits: the next event is handled, and the host looks for its retry. -/
  | waits {d d' : TrafficRun} {tick : Tick} : d.blocked = true →
      d.system.nextEventTick = some tick → d.advanceBlocked = .ok d' →
      Turns window d [.runUntil tick, .takeRetry, .take] d'
  | collects {d d' : TrafficRun} : d.blocked = false → d.advanceToCompletion = .ok d' →
      Turns window d [.poll] d'

/-- Turns of the driver one after the other, and all calls that it makes in them. -/
inductive Drives (window : Nat) (d : TrafficRun) : List HostCall → TrafficRun → Prop where
  | start : Drives window d [] d
  | turn {calls more : List HostCall} {d' d'' : TrafficRun} : Drives window d calls d' →
      Turns window d' more d'' → Drives window d (calls ++ more) d''

/-- The session of a driven run. -/
structure Tracks (window : Nat) (accesses : List Access) (h : Session) (d : TrafficRun) : Prop where
  standing : h.Standing
  counted : h.ledger.Counted
  system : h.system = d.system
  returned : h.returned = d.done.reverse
  /-- What is accepted and what waits make up the list. -/
  listed : ∃ rest, h.accepted.map Grant.access ++ rest = accesses ∧
    d.waiting = rest.map Access.request
  inFlight : h.returned.length + d.inFlight = h.accepted.length
  window : d.inFlight ≤ window

variable {window : Nat} {accesses : List Access} {h : Session} {d d' start : TrafficRun}
  {calls : List HostCall} {machine : Machine} {config : Config} {s : Simulation}

theorem tracks_start (created : Simulation.create machine config = .ok s) :
    Tracks window accesses (.start s)
      { system := s, waiting := accesses.map Access.request } where
  standing := Session.standing_start created
  counted := Session.counted_start created
  system := rfl
  returned := rfl
  listed := ⟨accesses, rfl, rfl⟩
  inFlight := rfl
  window := Nat.zero_le _

theorem Tracks.within (tracks : Tracks window accesses h d) : h.Within window accesses := by
  obtain ⟨rest, listed, -⟩ := tracks.listed
  refine ⟨⟨rest, listed⟩, ?_⟩
  have inFlight := tracks.inFlight
  have le := tracks.window
  omega

theorem Tracks.collected (tracks : Tracks window accesses h d) {k : Session}
    {finished : List Completion} {blocked : Bool} (reaches : h.Reaches true k)
    (accepted : k.accepted = h.accepted) (returned : k.returned = h.returned ++ finished) :
    Tracks window accesses k ({ d with blocked }.collect finished k.system) := by
  have le := reaches.standing.returned_le
  have inFlight := tracks.inFlight
  have most := tracks.window
  rw [accepted, returned, List.length_append] at le
  refine ⟨reaches.standing, tracks.counted.steps reaches.steps, rfl, ?_, ?_, ?_, ?_⟩
  · rw [returned, tracks.returned, collect, List.reverse_append, List.reverse_reverse]
  · rw [accepted]
    exact tracks.listed
  · rw [accepted, returned, List.length_append, collect]
    simp only
    omega
  · exact Nat.le_trans (Nat.sub_le ..) most

theorem advanceBlocked_eq_ok {tick : Tick} (next : d.system.nextEventTick = some tick)
    (advances : d.advanceBlocked = .ok d') : ∃ ran, d.system.runUntil tick = (.settled, ran) ∧
      d' = { d with blocked := !ran.takeRetry.1 }.collect ran.takeRetry.2.takeCompletions.1
        ran.takeRetry.2.takeCompletions.2 := by
  rw [advanceBlocked, next] at advances
  simp only at advances
  split at advances
  · cases advances
  · cases advances
  next ran run =>
    cases advances
    exact ⟨ran, run, rfl⟩

theorem advanceToCompletion_eq_ok (advances : d.advanceToCompletion = .ok d') :
    ∃ finished ran, d.system.pollCompletions = (.settled, finished, ran) ∧
      d' = d.collect finished ran := by
  rw [advanceToCompletion] at advances
  split at advances
  · cases advances
  · cases advances
  next finished ran polled =>
    split at advances <;> cases advances
    exact ⟨finished, ran, polled, rfl⟩

/-- A turn of the driver keeps the books of the run. -/
theorem Tracks.turn (tracks : Tracks window accesses h d) (turns : Turns window d calls d') :
    Tracks window accesses (h.run calls) d' := by
  have standing := tracks.standing
  have system := tracks.system
  have inFlight := tracks.inFlight
  obtain ⟨rest, listed, queued⟩ := tracks.listed
  cases turns with
  | @accepts access waiting id next first free few sends =>
    rw [← system] at sends
    have reaches : h.Reaches true (h.after (.send access)) := standing.after _ fun _ => rfl
    have counted := tracks.counted.steps reaches.steps
    have made : h.after (.send access) =
        { h with system := next, accepted := h.accepted ++ [⟨id, access, h.system.now⟩] } := by
      rw [Session.after, sends]
    obtain ⟨head, tail, rfl, same, rfl⟩ := List.map_eq_cons_iff.1 (queued.symm.trans first)
    obtain rfl : head = access := Access.request_injective same
    change Tracks window accesses (h.after (.send head)) _
    rw [made] at reaches counted ⊢
    refine ⟨reaches.standing, counted, rfl, tracks.returned, ⟨tail, ?_, rfl⟩, ?_, few⟩
    · rw [List.map_append, List.append_assoc]
      exact listed
    · simp only [List.length_append, List.length_singleton]
      omega
  | @refuses access waiting back next first free few sends =>
    rw [← system] at sends
    have reaches : h.Reaches true (h.after (.send access)) := standing.after _ fun _ => rfl
    have counted := tracks.counted.steps reaches.steps
    have made : h.after (.send access) = { h with system := next, unanswered := true } := by
      rw [Session.after, sends]
    -- The stage hands back the very request that it was offered.
    have back_eq : back = access.request := by
      have sent := standing.sent access
      rw [sends] at sent
      cases sent with
      | refused => rfl
    change Tracks window accesses (h.after (.send access)) _
    rw [made] at reaches counted ⊢
    refine ⟨reaches.standing, counted, rfl, tracks.returned, ⟨rest, listed, ?_⟩, inFlight,
      tracks.window⟩
    rw [back_eq, ← queued, first]
  | @waits _ tick blocked next advances =>
    obtain ⟨ran, run, rfl⟩ := advanceBlocked_eq_ok next advances
    rw [← system] at run
    have reaches : h.Reaches true (h.run [.runUntil tick, .takeRetry, .take]) := by
      have first : h.Reaches true (h.after (.runUntil tick)) := standing.after _ fun _ => rfl
      have second : (h.after (.runUntil tick)).Reaches true
          ((h.after (.runUntil tick)).after .takeRetry) := first.standing.after _ fun _ => rfl
      exact (first.trans second).trans (second.standing.after .take fun _ => rfl)
    have collected : Tracks window accesses (h.run [.runUntil tick, .takeRetry, .take])
        ({ d with blocked := !ran.takeRetry.1 }.collect ran.takeRetry.2.takeCompletions.1
          (h.run [.runUntil tick, .takeRetry, .take]).system) :=
      tracks.collected reaches rfl (by
        simp only [Session.run, List.foldl_cons, List.foldl_nil, Session.after, run])
    simpa only [Session.run, List.foldl_cons, List.foldl_nil, Session.after, run] using collected
  | @collects _ free advances =>
    obtain ⟨finished, ran, polled, rfl⟩ := advanceToCompletion_eq_ok advances
    rw [← system] at polled
    have reaches : h.Reaches true (h.after .poll) := standing.after _ fun _ => rfl
    have collected : Tracks window accesses (h.after .poll)
        (d.collect finished (h.after .poll).system) :=
      tracks.collected reaches rfl (by simp only [Session.after, polled])
    simpa only [Session.run, List.foldl_cons, List.foldl_nil, Session.after, polled] using collected

theorem Tracks.within_turn (tracks : Tracks window accesses h d) (turns : Turns window d calls d')
    {before : List HostCall} (part : before <+: calls) : (h.run before).Within window accesses := by
  have whole := (tracks.turn turns).within
  have empty := tracks.within
  cases turns with
  | accepts | refuses =>
    rcases List.prefix_cons_iff.1 part with rfl | ⟨rest, rfl, nil⟩
    · exact empty
    · obtain rfl := List.prefix_nil.1 nil
      exact whole
  | waits | collects =>
    exact empty.waits fun call mem => by
      have made := part.subset mem
      simp only [List.mem_cons, List.not_mem_nil, or_false] at made
      rcases made with rfl | rfl | rfl <;> rfl

theorem Drives.tracks (first : Tracks window accesses h start)
    (drives : Drives window start calls d) :
    Tracks window accesses (h.run calls) d := by
  induction drives with
  | start => exact first
  | @turn before more _ _ _ turns ih =>
    rw [Session.run_append]
    exact ih.turn turns

theorem Drives.within (first : Tracks window accesses h start)
    (drives : Drives window start calls d) {before : List HostCall} (part : before <+: calls) :
    (h.run before).Within window accesses := by
  induction drives with
  | start =>
    obtain rfl := List.prefix_nil.1 part
    exact first.within
  | @turn earlier more _ _ drives turns ih =>
    obtain ⟨left, whole⟩ := part
    rcases List.append_eq_append_iff.1 whole with ⟨next, inside, -⟩ | ⟨next, rfl, inside⟩
    · exact ih ⟨next, inside.symm⟩
    · rw [Session.run_append]
      exact (drives.tracks first).within_turn turns ⟨left, inside.symm⟩

theorem drives_fill (first : Tracks window accesses h start) {waiting : List HostRequest}
    (drives : Drives window start calls { d with waiting })
    (fills : fill window waiting d = .ok d') :
    ∃ more, Drives window start (calls ++ more) d' := by
  induction waiting generalizing d calls with
  | nil =>
    cases fills
    exact ⟨[], (List.append_nil calls).symm ▸ drives⟩
  | cons r rest ih =>
    obtain ⟨accesses', -, queued⟩ := (drives.tracks first).listed
    obtain ⟨access, later, rfl, rfl, -⟩ := List.map_eq_cons_iff.1 queued.symm
    rw [fill] at fills
    split at fills
    · cases fills
      exact ⟨[], (List.append_nil calls).symm ▸ drives⟩
    next room =>
      obtain ⟨free, few⟩ : d.blocked = false ∧ d.inFlight < window := by simpa using room
      split at fills
      · cases fills
      next id system sends =>
        have turn := drives.turn (.accepts rfl free few sends)
        obtain ⟨more, drives'⟩ := ih turn fills
        exact ⟨.send access :: more, by rwa [List.append_cons]⟩
      next back system sends =>
        cases fills
        exact ⟨[.send access], drives.turn (.refuses rfl free few sends)⟩

theorem turns_advance {filled advanced : TrafficRun}
    (advances : (if filled.blocked then filled.advanceBlocked else filled.advanceToCompletion) =
      .ok advanced) : ∃ more, Turns window filled more advanced := by
  split at advances
  next blocked =>
    cases next : filled.system.nextEventTick with
    | none =>
      rw [advanceBlocked, next] at advances
      cases advances
    | some tick => exact ⟨_, .waits blocked next advances⟩
  next free => exact ⟨_, .collects (Bool.eq_false_iff.2 free) advances⟩

theorem loop_eq_ok {fuel : Nat} (loops : loop window (fuel + 1) d = .ok d') :
    ∃ filled, fill window d.waiting d = .ok filled ∧
      ((filled.waiting = [] ∧ filled.inFlight = 0 ∧ d' = filled) ∨
        ∃ more advanced, Turns window filled more advanced ∧
          loop window fuel advanced = .ok d') := by
  rw [loop] at loops
  obtain ⟨filled, fills, loops⟩ := bind_eq_ok.1 loops
  refine ⟨filled, mapError_eq_ok.1 fills, ?_⟩
  split at loops
  next idle =>
    cases loops
    obtain ⟨none, zero⟩ : d'.waiting = [] ∧ d'.inFlight = 0 := by simpa using idle
    exact .inl ⟨none, zero, rfl⟩
  next =>
    have step : ((if filled.blocked then filled.advanceBlocked else filled.advanceToCompletion) >>=
        loop window fuel) = .ok d' := by
      split at loops
      next blocked => rwa [if_pos blocked]
      next free => rwa [if_neg free]
    obtain ⟨advanced, advances, loops⟩ := bind_eq_ok.1 step
    obtain ⟨more, turns⟩ := turns_advance advances
    exact .inr ⟨more, advanced, turns, loops⟩

theorem drives_loop (first : Tracks window accesses h start) (fuel : Nat)
    (drives : Drives window start calls d) (loops : loop window fuel d = .ok d') :
    ∃ more, Drives window start (calls ++ more) d' ∧ d'.waiting = [] ∧ d'.inFlight = 0 := by
  induction fuel generalizing d calls with
  | zero => cases loops
  | succ fuel ih =>
    obtain ⟨filled, fills, ends⟩ := loop_eq_ok loops
    obtain ⟨sent, drives⟩ := drives_fill first drives fills
    rcases ends with ⟨none, zero, rfl⟩ | ⟨more, advanced, turns, loops⟩
    · exact ⟨sent, drives, none, zero⟩
    · obtain ⟨later, drives', ended⟩ := ih (drives.turn turns) loops
      refine ⟨sent ++ more ++ later, ?_, ended⟩
      simpa only [List.append_assoc] using drives'

end TrafficRun

def Access.entry (access : Access) (k : Nat) : TransactionId × Nat × AccessKind :=
  (k, access.request.addr, access.request.kind)

/-- The completions `done` and the system `s'` come of a driven run over the accesses from `s`
on. -/
structure Simulation.Accounts (s : Simulation) (accesses : List Access) (window : Nat)
    (done : List Completion) (s' : Simulation) : Prop where
  /-- Each access has one completion, which shows its place in the list. -/
  completed : (done.map fun c => (c.id, c.addr, c.kind)).Perm
    (accesses.mapIdx fun k access => access.entry k)
  /-- The run is a sequence of host calls. -/
  calls : ∃ calls d, TrafficRun.Drives window
      { system := s, waiting := accesses.map Access.request } calls d ∧
    ((Session.start s).run calls).system = s' ∧ ((Session.start s).run calls).returned = done ∧
    -- The accesses are accepted in the order of the list, and get their places as numbers.
    ((Session.start s).run calls).accepted.map (fun g => (g.id, g.access)) =
      accesses.mapIdx (fun k access => (k, access)) ∧
    ∀ before, before <+: calls → ((Session.start s).run before).Within window accesses

namespace Session

theorem entries_of_counted {h : Session} {accesses : List Access} (counted : h.ledger.Counted)
    (order : h.accepted.map Grant.access = accesses) :
    h.accepted.map (fun g => (g.id, g.access)) = accesses.mapIdx fun k access => (k, access) := by
  obtain ⟨length, ids⟩ := counted
  have ids' : h.accepted.map Grant.id = List.range h.accepted.length := by
    rw [show h.accepted.length = h.ledger.nextId from length]
    exact ids
  subst order
  refine List.ext_getElem (by simp) fun i lt lt' => ?_
  have at_i := List.getElem_of_eq ids' (i := i) (by simpa using lt)
  simp only [List.getElem_map, List.getElem_range] at at_i
  simp [at_i]

end Session

/-- A driven run that ends without an error accounts for every access. This does not depend on the
bound on its steps. -/
theorem Simulation.drive_accounts {machine : Machine} {config : Config} {s : Simulation}
    (created : create machine config = .ok s) (accesses : List Access) (window : Nat) :
    (∀ fuel d, TrafficRun.loop window fuel
        { system := s, waiting := accesses.map Access.request } = .ok d →
      s.Accounts accesses window d.done.reverse d.system) ∧
    ∀ done s', s.drive (accesses.map Access.request) window = .ok (done, s') →
      s.Accounts accesses window done s' := by
  have every (fuel : Nat) (d : TrafficRun) (loops : TrafficRun.loop window fuel
      { system := s, waiting := accesses.map Access.request } = .ok d) :
      s.Accounts accesses window d.done.reverse d.system := by
    have first : TrafficRun.Tracks window accesses (.start s)
        { system := s, waiting := accesses.map Access.request } := TrafficRun.tracks_start created
    obtain ⟨calls, drives, none, zero⟩ := TrafficRun.drives_loop first fuel .start loops
    rw [List.nil_append] at drives
    have tracks := drives.tracks first
    obtain ⟨rest, listed, queued⟩ := tracks.listed
    obtain rfl : rest = [] := List.map_eq_nil_iff.1 (queued.symm.trans none)
    rw [List.append_nil] at listed
    have entries := Session.entries_of_counted tracks.counted listed
    have all := tracks.inFlight
    rw [zero, Nat.add_zero] at all
    have perm := (tracks.standing.returned_perm all).map fun t => (t.id, t.addr, t.kind)
    refine ⟨?_, calls, d, drives, tracks.system, tracks.returned, entries, fun before part =>
      drives.within first part⟩
    rw [← tracks.returned]
    simp only [List.map_map] at perm
    have shown : ((Session.start s).run calls).accepted.map
        (fun g => (g.id, g.access.request.addr, g.access.request.kind)) =
          accesses.mapIdx fun k access => access.entry k := by
      have mapped := congrArg (List.map fun e => e.2.entry e.1) entries
      rw [List.map_map] at mapped
      exact mapped.trans (List.ext_getElem (by simp) (by simp))
    exact shown ▸ perm
  refine ⟨every, fun done s' drives => ?_⟩
  rw [drive] at drives
  cases loops : TrafficRun.loop window (TrafficRun.budget
      { system := s, waiting := accesses.map Access.request } + 1)
      { system := s, waiting := accesses.map Access.request } with
  | error e =>
    rw [loops] at drives
    cases drives
  | ok d =>
    rw [loops] at drives
    cases drives
    exact every _ d loops

/-- A write and a read of the same byte, one at a time. -/
theorem Simulation.drive_accounts_two :
    let accesses := [.write 0x100000000 [7], .read 0x100000000 1]
    ∃ s, create .standard {} = .ok s ∧
      ∃ done s', s.drive (accesses.map Access.request) 1 = .ok (done, s') ∧
        s.Accounts accesses 1 done s' := by
  intro accesses
  have runs : ((create .standard {}).toOption.any fun s =>
      (s.drive (accesses.map Access.request) 1).isOk) = true := by decide +kernel
  cases created : create .standard {} with
  | error e =>
    rw [created] at runs
    cases runs
  | ok s =>
    rw [created] at runs
    cases drives : s.drive (accesses.map Access.request) 1 with
    | error e =>
      simp only [Except.toOption, Option.any_some, drives] at runs
      cases runs
    | ok ended =>
      exact ⟨s, rfl, ended.1, ended.2, drives, (drive_accounts created accesses 1).2 _ _ drives⟩

end Expander
