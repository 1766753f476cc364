import Expander.Proofs.Wakefulness

/-!
When the events have run out.

Without a pending event no response is left in the stages, and every burst of the controller has
been issued. What can be left are requests in front of a controller that refused one of them and
owes a retry: it looks for room only when it issues a burst, and it has none left to issue. In all
other cases every accepted access has its completion (`Session.served_iff`).
-/

set_option autoImplicit false

namespace Expander

namespace Stage

variable {s : Stage}

theorem answers_ne_zero (sound : s.Sound) (roomy : s.view.frame.Roomy)
    (owes : s.view.owesResponse = true) : s.view.answers ≠ 0 := by
  cases s with
  | bridge b => cases owes
  | device d =>
    have full : d.responses.isFull = true := Device.Sound.responseOwed sound owes
    exact fun none => PacketQueue.packets_ne_nil full roomy.2 ((Multiset.coe_eq_zero _).1 none)
  | controller c => cases owes
  | memory m => cases owes

/-- Why a stage owes a retry for a request: requests wait in it, or it is the controller, or it is
a bridge that has reserved all of its room for responses. -/
theorem requests_ne_nil (sound : s.Sound) (roomy : s.view.frame.Roomy)
    (owes : s.view.owesRequest = true) : s.view.requests ≠ [] ∨ (∃ c, s = .controller c) ∨
      ∃ b, s = .bridge b ∧ b.config.responseDepth ≤ b.reserved := by
  cases s with
  | bridge b =>
    rcases Bridge.hasRoom_eq_false_iff.1 (Bridge.Sound.owed sound owes) with full | reserved
    · exact .inl (PacketQueue.packets_ne_nil full roomy)
    · exact .inr (.inr ⟨b, rfl, reserved⟩)
  | device d =>
    have full : d.requests.isFull = true := Device.Sound.requestOwed sound owes
    exact .inl (PacketQueue.packets_ne_nil full roomy.1)
  | controller c => exact .inr (.inl ⟨c, rfl⟩)
  | memory m => cases owes

end Stage

namespace Session

/-- The controller owes a retry to a sender that still waits for it: to the device in front of it,
or to the host, which was refused and has not been told. -/
def stalled (h : Session) : Bool :=
  h.system.fabric.nodes.any fun node =>
    match node.stage with
    | .controller c =>
      (c.readRetryOwed || c.writeRetryOwed) &&
        match node.hostSide with
        | some (.component up) =>
          match h.system.fabric.stage? up with
          | some (.device d) => d.awaitingRequestRetry
          | _ => false
        | _ => h.unanswered && !h.system.hostRetry
    | _ => false

/-- Every accepted access has its completion, and a host that was refused has been told to offer
its request again. -/
structure Served (h : Session) : Prop where
  completed : ∀ g ∈ h.accepted, ∃ c ∈ h.produced, c.transaction = g.transaction
  counted : h.system.host.issued = h.system.host.completed
  /-- No completion is handed out by a poll only when none is outstanding. -/
  polled : h.system.pollCompletions.2.1 = [] →
    ∀ g ∈ h.accepted, g.id ∈ h.returned.map Completion.id
  retried : h.unanswered = true → h.system.takeRetry.1 = true

variable {h : Session} {id : ComponentId} {stage : Stage}

theorem not_due (quiet : h.system.events.events = []) (w : Wakeup) :
    ¬ h.system.Due [] id w := by
  intro due
  have pending := Simulation.scheduled_of_due due
  rw [Simulation.Scheduled, quiet] at pending
  cases pending

theorem Standing.id_lt (standing : h.Standing)
    (found : h.system.fabric.stage? id = some stage) : id < h.system.fabric.sites.length := by
  have site := standing.site found
  rw [← standing.sites] at site
  exact (List.getElem?_eq_some_iff.1 site).1

/-- Without a pending event no response is left in the stages: the front has sent all of its own,
and so has every stage behind a stage that has room. -/
theorem Standing.answers_eq_zero {id : ComponentId} {stage : Stage} (standing : h.Standing)
    (quiet : h.system.events.events = [])
    (found : h.system.fabric.stage? id = some stage) : stage.view.answers = 0 := by
  have attended := standing.attended
  have lt := standing.id_lt found
  refine Stage.answers_eq_zero (attended.sound id stage found) (attended.armed id stage found)
    (not_due quiet) ?_
  cases links : h.system.fabric.hostSide? id with
  | none => exact absurd links (Fabric.placed_stage standing.chained found).faced
  | some peer =>
    cases peer with
    | host => exact attended.host id stage links found
    -- A head that waits is owed a retry by the stage in front, which has a full buffer then and
    -- so holds responses itself. This cannot go on up to the front: the host takes every response.
    | component up =>
      obtain ⟨rfl, -, behind, upper, hupper⟩ := Fabric.stage_before standing.chained links
      refine Bool.eq_false_iff.2 fun awaits => ?_
      have owes := (attended.responses _ _ _ _ behind hupper found awaits).resolve_right nofun
      have roomy := (Fabric.placed_stage standing.chained hupper).roomy
      exact Stage.answers_ne_zero (attended.sound _ _ hupper) roomy owes
        (standing.answers_eq_zero quiet hupper)
termination_by h.system.fabric.sites.length - id
decreasing_by exact Nat.sub_lt_sub_left lt (Nat.lt_succ_self id)

theorem stalled_of_device {c : Controller Media} {d : Device} {up : ComponentId}
    (found : h.system.fabric.stage? id = some (.controller c))
    (owes : (c.readRetryOwed || c.writeRetryOwed) = true)
    (links : h.system.fabric.hostSide? id = some (.component up))
    (device : h.system.fabric.stage? up = some (.device d))
    (awaits : d.awaitingRequestRetry = true) : h.stalled = true := by
  obtain ⟨node, at_id, stage⟩ := Fabric.stage?_eq_some.1 found
  have peer : node.hostSide = some (.component up) := by
    simpa [Fabric.hostSide?, at_id] using links
  refine List.any_eq_true.2 ⟨node, List.mem_of_getElem? at_id, ?_⟩
  simp only [stage, owes, peer, device, awaits, Bool.and_self]

theorem stalled_of_host {c : Controller Media}
    (found : h.system.fabric.stage? id = some (.controller c))
    (owes : (c.readRetryOwed || c.writeRetryOwed) = true)
    (links : h.system.fabric.hostSide? id = some .host) (waits : h.unanswered = true)
    (untold : h.system.hostRetry = false) : h.stalled = true := by
  obtain ⟨node, at_id, stage⟩ := Fabric.stage?_eq_some.1 found
  have peer : node.hostSide = some .host := by
    simpa [Fabric.hostSide?, at_id] using links
  refine List.any_eq_true.2 ⟨node, List.mem_of_getElem? at_id, ?_⟩
  simp only [stage, owes, peer, waits, untold, Bool.not_false, Bool.and_self]

theorem Standing.of_stalled (standing : h.Standing) (stalled : h.stalled = true) :
    (∃ id d, h.system.fabric.stage? id = some (.device d) ∧ d.requests.packets ≠ []) ∨
    (h.unanswered = true ∧ h.system.hostRetry = false) := by
  obtain ⟨node, -, stalls⟩ := List.any_eq_true.1 stalled
  split at stalls
  · obtain ⟨-, waits⟩ := Bool.and_eq_true_iff.1 stalls
    split at waits
    · rename_i up _
      split at waits
      · rename_i d found
        have sound : d.Sound := standing.attended.sound up _ found
        exact .inl ⟨up, d, found, sound.waiting waits⟩
      · cases waits
    · exact .inr (by simpa using waits)
  · cases stalls

/-- Without a pending event the stages hold no requests either, unless the device waits for the
controller. -/
theorem Standing.requests_eq_nil {id : ComponentId} {stage : Stage} (standing : h.Standing)
    (quiet : h.system.events.events = []) (moving : h.stalled = false)
    (found : h.system.fabric.stage? id = some stage) :
    stage.view.requests = [] := by
  have attended := standing.attended
  have chained := standing.chained
  refine Stage.requests_eq_nil (attended.armed id stage found) (not_due quiet) ?_
  refine Bool.eq_false_iff.2 fun awaits => ?_
  have forwards : stage.view.frame.forwards = true := by
    cases stage with
    | bridge b => rfl
    | device d => rfl
    | controller c => cases awaits
    | memory m => cases awaits
  rw [Fabric.forwards_iff chained found] at forwards
  obtain ⟨down, links⟩ := Option.isSome_iff_exists.1 forwards
  obtain ⟨rfl, -, before, lower, hlower⟩ := Fabric.stage_behind chained links
  have owes := (attended.requests _ _ _ _ links found hlower awaits).resolve_right nofun
  have placed := Fabric.placed_stage chained hlower
  -- The stage behind has a reason to owe the retry: its own requests wait, which the recursion
  -- towards memory rules out; it is the controller, which stalls; or it is a bridge, which has no
  -- stage in front.
  rcases Stage.requests_ne_nil (attended.sound _ _ hlower) placed.roomy owes with
    waiting | ⟨c, rfl⟩ | ⟨b, rfl, -⟩
  · exact waiting (Standing.requests_eq_nil standing quiet moving hlower)
  · rcases standing.device_before hlower with host | ⟨up, d, links', device⟩
    · cases before.symm.trans host
    · cases before.symm.trans links'
      cases found.symm.trans device
      have stalls := stalled_of_device hlower owes before device awaits
      exact absurd (moving.symm.trans stalls) Bool.false_ne_true
  · have last := (placed.reserves rfl).1
    exact Nat.ne_of_lt (standing.id_lt found) last
termination_by id

theorem Standing.held_eq_zero (standing : h.Standing) (quiet : h.system.events.events = [])
    (moving : h.stalled = false) : held h.system.cargo = 0 := by
  refine Expander.held_eq_zero fun v mem => ?_
  obtain ⟨node, inside, rfl⟩ := List.mem_map.1 mem
  obtain ⟨id, at_id⟩ := List.getElem?_of_mem inside
  have found : h.system.fabric.stage? id = some node.stage :=
    Fabric.stage?_eq_some.2 ⟨node, at_id, rfl⟩
  exact ⟨standing.requests_eq_nil quiet moving found, standing.answers_eq_zero quiet found⟩

theorem Standing.reserved_eq_zero {b : Bridge} (standing : h.Standing)
    (none : held h.system.cargo = 0)
    (found : h.system.fabric.stage? id = some (.bridge b)) :
    b.reserved < b.config.responseDepth := by
  obtain ⟨last, config, requests, frame, pos⟩ :=
    (Fabric.placed_stage standing.chained found).reserves rfl
  have depth : b.config = config := by
    simp only [Stage.view, Bridge.view, StageFrame.bridge.injEq] at frame
    exact frame.1
  have length : h.system.cargo.length = h.system.fabric.sites.length := by
    simp [Fabric.sites, Simulation.cargo]
  have top : h.system.cargo.getLast? = some (Stage.bridge b).view.calm := by
    rw [List.getLast?_eq_getElem?, length, ← last, Nat.add_sub_cancel]
    exact Simulation.cargo_getElem? found
  have reserved : b.reserved = (held h.system.cargo.tail).card :=
    standing.balanced.orderly.reserved _ top rfl
  have rest : held h.system.cargo.tail = 0 := by
    cases cargo : h.system.cargo with
    | nil => rfl
    | cons v views =>
      rw [cargo, held_cons] at none
      exact Multiset.le_zero.1 (none ▸ Multiset.le_add_left _ _)
  rw [reserved, rest, depth]
  exact pos

theorem Standing.retried (standing : h.Standing) (quiet : h.system.events.events = [])
    (moving : h.stalled = false) (waits : h.unanswered = true) : h.system.hostRetry = true := by
  rcases standing.attended.promised waits with told | ⟨id, stage, front, found, owed⟩
  · exact told
  have placed := Fabric.placed_stage standing.chained found
  have none := standing.held_eq_zero quiet moving
  rcases Stage.requests_ne_nil (standing.attended.sound _ _ found) placed.roomy
    (owed.resolve_right nofun) with waiting | ⟨c, rfl⟩ | ⟨b, rfl, full⟩
  · exact absurd (standing.requests_eq_nil quiet moving found) waiting
  · refine Bool.eq_true_of_not_eq_false fun untold => ?_
    have stalls := stalled_of_host found (owed.resolve_right nofun) front waits untold
    exact absurd (moving.symm.trans stalls) Bool.false_ne_true
  · exact absurd (standing.reserved_eq_zero none found) (Nat.not_lt.2 full)

theorem Standing.produced_eq (standing : h.Standing) (none : held h.system.cargo = 0) :
    (h.produced.map Completion.transaction).Perm (h.accepted.map Grant.transaction) := by
  have conserved := standing.balanced.conserved
  rw [show h.ledger.views = h.system.cargo from rfl, none, Multiset.zero_add] at conserved
  exact Multiset.coe_eq_coe.1 conserved

theorem completions_of_polled (settled : h.system.Settled)
    (polled : h.system.pollCompletions.2.1 = []) : h.system.completions = [] := by
  obtain ⟨quiet, landed⟩ := settled
  have next : h.system.nextEventTick = none := by
    rw [Simulation.nextEventTick, EventQueue.nextTick, quiet]
    rfl
  rw [Simulation.pollCompletions, Simulation.pollWithin, next] at polled
  -- No event is left to run, so the poll hands out whatever completion there is.
  cases first : h.system.nextCompletion with
  | none => exact List.map_eq_nil_iff.1 (List.min?_eq_none_iff.1 first)
  | some completed =>
    simp only [first, Simulation.takeCompletions] at polled
    have empty := (sortStable_perm Simulation.completesBefore _).symm.trans (.of_eq polled)
    have kept := List.filter_eq_nil_iff.1 empty.eq_nil
    refine List.eq_nil_iff_forall_not_mem.2 fun c mem => kept c mem ?_
    exact decide_eq_true (Nat.le_trans (landed c mem) (Nat.le_max_left ..))

theorem Standing.served (standing : h.Standing) (settled : h.system.Settled)
    (moving : h.stalled = false) : h.Served := by
  have perm := standing.produced_eq (standing.held_eq_zero settled.1 moving)
  have completed (g : Grant) (accepted : g ∈ h.accepted) :
      ∃ c ∈ h.produced, c.transaction = g.transaction :=
    List.mem_map.1 (perm.mem_iff.2 (List.mem_map_of_mem accepted))
  have count : h.produced.length = h.accepted.length := by
    simpa using perm.length_eq
  refine ⟨completed, ?_, fun polled g accepted => ?_, standing.retried settled.1 moving⟩
  · rw [standing.issued, standing.completed, count]
  · obtain ⟨c, mem, same⟩ := completed g accepted
    rw [produced, completions_of_polled settled polled, List.append_nil] at mem
    exact List.mem_map.2 ⟨c, mem, congrArg Transaction.id same⟩

theorem Standing.not_served (standing : h.Standing) (stalled : h.stalled = true) :
    ¬ h.Served := by
  intro served
  rcases standing.of_stalled stalled with ⟨id, d, found, waiting⟩ | ⟨waits, untold⟩
  · obtain ⟨p, rest, requests⟩ := List.exists_cons_of_ne_nil waiting
    have mem : p ∈ d.requests.packets := by
      rw [requests]
      exact List.mem_cons_self
    have inside : p ∈ (Stage.device d).view.calm.packets := Multiset.mem_add.2 (.inl mem)
    have held : p.transaction ∈ held h.system.cargo :=
      Simulation.mem_held (List.mem_of_getElem? (Simulation.cargo_getElem? found)) inside
    -- The request of the device is accepted and not completed, so the two counts differ.
    have conserved := congrArg Multiset.card standing.balanced.conserved
    have counted := served.counted
    have pos : 0 < (Expander.held h.system.cargo).card :=
      Multiset.card_pos_iff_exists_mem.2 ⟨_, held⟩
    rw [standing.issued, standing.completed] at counted
    simp only [ledger, Multiset.card_add, Multiset.card_map, Multiset.coe_card,
      List.length_map] at conserved
    omega
  · exact absurd (untold.symm.trans (served.retried waits)) Bool.false_ne_true

/-- Once the events have run out, every accepted access has its completion and a refused host has
been told, if and only if the controller does not owe a retry to a sender that waits for it. -/
theorem served_iff {machine : Machine} {config : Config} {s : Simulation}
    (created : Simulation.create machine config = .ok s) (calls : List HostCall)
    (settled : ((start s).run calls).system.runUntilIdle.1 = .settled) :
    ((start s).run (calls ++ [.runUntilIdle])).Served ↔
      ((start s).run (calls ++ [.runUntilIdle])).stalled = false := by
  obtain ⟨halt, s', eq, reaches, ended⟩ := (standing_run created calls).runUntilIdle
  have run : (start s).run (calls ++ [.runUntilIdle]) =
      { (start s).run calls with system := s' } := by
    rw [Session.run, List.foldl_append]
    exact congrArg (fun r : Halt × Simulation => { (start s).run calls with system := r.2 }) eq
  rw [eq] at settled
  have settled' := (ended.resolve_right fun exhausted => by
    cases settled.symm.trans exhausted).2
  rw [run]
  refine ⟨fun served => ?_, reaches.standing.served settled'⟩
  exact Bool.eq_false_iff.2 fun stalled => reaches.standing.not_served stalled served

/-- Two reads of the expander, one while the other is on its way. -/
theorem served_reads : ∃ s, Simulation.create .standard {} = .ok s ∧
    ((start s).run [.send (.read 0x100000000 64), .runUntil 25000,
      .send (.read 0x100000040 64)]).system.runUntilIdle.1 = .settled ∧
    ((start s).run [.send (.read 0x100000000 64), .runUntil 25000,
      .send (.read 0x100000040 64), .runUntilIdle]).Served :=
  ⟨_, rfl, by decide +kernel, (served_iff (show Simulation.create .standard {} = _ from rfl)
    [.send (.read 0x100000000 64), .runUntil 25000, .send (.read 0x100000040 64)]
    (by decide +kernel)).2 (by decide +kernel)⟩

/-- A controller with one pending read refuses the second one after it has issued the burst of the
first, and the host is never told to offer it again. -/
theorem not_served_refused : ∃ config s, Simulation.create .standard config = .ok s ∧
    ((start s).run [.send (.read 0x100000000 64), .runUntil 1,
      .send (.read 0x100000040 64)]).system.runUntilIdle.1 = .settled ∧
    ¬ ((start s).run [.send (.read 0x100000000 64), .runUntil 1,
      .send (.read 0x100000040 64), .runUntilIdle]).Served := by
  refine ⟨{ topology := .controller, controller := { maxPendingReads := some 1 } }, _, rfl,
    by decide +kernel, fun served => ?_⟩
  have told := served.retried (by decide +kernel)
  revert told
  decide +kernel

end Session

end Expander
