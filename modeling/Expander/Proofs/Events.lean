import Expander.Proofs.Attendance
import Expander.Proofs.Flow

/-!
What handling an event does.

In an attended system whose stages hold what fits together, an event never fails. One packet moves,
or none, and the system is attended again (`dispatch_spec`).
-/

set_option autoImplicit false

namespace Expander.Simulation

variable {s s' : Simulation} {unanswered : Bool} {id down : ComponentId}
  {stage lower upper taken : Stage} {p : Packet} {expander : AddressRange}

theorem cargo_getElem? (found : s.fabric.stage? id = some stage) :
    s.cargo[id]? = some stage.view.calm := by
  obtain ⟨node, hnode, rfl⟩ := Fabric.stage?_eq_some.1 found
  simp [cargo, hnode]

theorem cargo_setStage (found : s.fabric.stage? id = some stage) (after : Stage) :
    (s.setStage id after).cargo = s.cargo.set id after.view.calm := by
  obtain ⟨node, hnode, rfl⟩ := Fabric.stage?_eq_some.1 found
  refine List.ext_getElem? fun i => ?_
  simp only [cargo, setStage, Fabric.setStage, List.getElem?_map, List.getElem?_modify,
    List.getElem?_set, List.length_map]
  split
  next eq =>
    subst eq
    obtain ⟨lt, -⟩ := List.getElem?_eq_some_iff.1 hnode
    simp [lt]
  next => cases s.fabric.nodes[i]? <;> rfl

private theorem split_at {α : Type} {l : List α} {i : Nat} {a : α} (h : l[i]? = some a) :
    ∃ behind front, behind.length = i ∧ l = behind ++ a :: front := by
  obtain ⟨lt, rfl⟩ := List.getElem?_eq_some_iff.1 h
  refine ⟨l.take i, l.drop (i + 1), List.length_take_of_le (Nat.le_of_lt lt), ?_⟩
  rw [← List.drop_eq_getElem_cons lt, List.take_append_drop]

theorem cargo_split (found : s.fabric.stage? id = some stage) :
    ∃ behind front, behind.length = id ∧ s.cargo = behind ++ stage.view.calm :: front ∧
      ∀ after, (s.setStage id after).cargo = behind ++ after.view.calm :: front := by
  obtain ⟨behind, front, rfl, eq⟩ := split_at (cargo_getElem? found)
  refine ⟨behind, front, rfl, eq, fun after => ?_⟩
  rw [cargo_setStage found, eq]
  simp

theorem cargo_split_pair (hlower : s.fabric.stage? down = some lower)
    (hupper : s.fabric.stage? (down + 1) = some upper) :
    ∃ behind front, behind.length = down ∧
      s.cargo = behind ++ lower.view.calm :: upper.view.calm :: front ∧
      ∀ a b, ((s.setStage down a).setStage (down + 1) b).cargo =
        behind ++ a.view.calm :: b.view.calm :: front := by
  obtain ⟨behind, rest, rfl, eq⟩ := split_at (cargo_getElem? hlower)
  have next := cargo_getElem? hupper
  rw [eq, List.getElem?_append_right (Nat.le_add_right ..), Nat.add_sub_cancel_left] at next
  obtain ⟨front, rfl⟩ : ∃ front, rest = upper.view.calm :: front := by
    cases rest with
    | nil => cases next
    | cons b front =>
      cases next
      exact ⟨front, rfl⟩
  refine ⟨behind, front, rfl, eq, fun a b => ?_⟩
  have stays : (s.setStage behind.length a).fabric.stage? (behind.length + 1) = some upper := by
    rw [setStage, Fabric.stage?_setStage_ne (Nat.succ_ne_self _), hupper]
  rw [cargo_setStage stays, cargo_setStage hlower, eq]
  simp

theorem sites_setStage_pair (hlower : s.fabric.stage? down = some lower)
    (hupper : s.fabric.stage? (down + 1) = some upper) {a b : Stage}
    (frameA : a.view.frame = lower.view.frame) (frameB : b.view.frame = upper.view.frame) :
    ((s.setStage down a).setStage (down + 1) b).fabric.sites = s.fabric.sites := by
  have stays : (s.setStage down a).fabric.stage? (down + 1) = some upper := by
    rw [setStage, Fabric.stage?_setStage_ne (Nat.succ_ne_self _), hupper]
  exact (Fabric.sites_setStage stays frameB).trans (Fabric.sites_setStage hlower frameA)

theorem setStage_comm (s : Simulation) (down : ComponentId) (a b : Stage) :
    (s.setStage (down + 1) b).setStage down a = (s.setStage down a).setStage (down + 1) b := by
  simp only [setStage]
  rw [Fabric.setStage_comm _ (Nat.succ_ne_self down)]

/-- What handling an event may change: one packet moves, or none, and responses that leave become
completions. -/
structure Progress (s s' : Simulation) : Prop where
  sites : s'.fabric.sites = s.fabric.sites
  flow : ∃ out, Flow s.cargo s'.cargo out ∧
    s'.completions = s.completions ++ out.map (fun p =>
      Completion.ofResponse p (s.now + s.fabric.interconnect.transitTime p.payload)) ∧
    s'.host.completed = s.host.completed + out.length
  issued : s'.host.issued = s.host.issued
  rest : ∃ nodes events hostRetry completions host,
    s' = { s with fabric := { s.fabric with nodes }, events, hostRetry, completions, host }

theorem Progress.sameBooks {s₀ s s' : Simulation} (h : s₀.Progress s) (same : s.SameBooks s') :
    s₀.Progress s' := by
  obtain ⟨nodes, events, hostRetry, completions, host, rfl⟩ := h.rest
  obtain ⟨nodes', events', hostRetry', rfl⟩ := same.rest
  refine ⟨same.sites.trans h.sites, ?_, h.issued, nodes', events', hostRetry', _, _, rfl⟩
  rw [same.cargo]
  exact h.flow

theorem progress_of_cargo (sites : s'.fabric.sites = s.fabric.sites) (cargo : s'.cargo = s.cargo)
    (rest : ∃ nodes, s' = { s with fabric := { s.fabric with nodes } }) : s.Progress s' := by
  obtain ⟨nodes, rfl⟩ := rest
  refine ⟨sites, ⟨[], ?_, (List.append_nil _).symm, rfl⟩, rfl, nodes, _, _, _, _, rfl⟩
  rw [cargo]
  exact .still s.cargo

private theorem spent_or_due {kind : EventKind} {w : Wakeup}
    (h : s.Due (asked id [.wake ⟨s.now, kind⟩]) id w) : w = ⟨s.now, kind⟩ ∨ s.Due [] id w := by
  rcases h with pending | ⟨tick, mem, eq⟩
  · exact .inr (.inl pending)
  · obtain ⟨-, wake⟩ := mem_asked.1 mem
    cases List.mem_singleton.1 wake
    rw [Nat.max_self] at eq
    exact .inl (congrArg (Wakeup.mk · w.kind) eq)

private theorem due_elsewhere {i : ComponentId} {kind : EventKind} {w : Wakeup} (ne : i ≠ id)
    (h : s.Due (asked id [.wake ⟨s.now, kind⟩]) i w) : s.Due [] i w :=
  h.mono fun _ mem => absurd (mem_asked.1 mem).1 ne

theorem Attended.idle {kind : EventKind}
    (h : s.Attended unanswered (asked id [.wake ⟨s.now, kind⟩]))
    (armed : ∀ stage, s.fabric.stage? id = some stage → stage.Armed s.now (s.Due [] id)) :
    s.Attended unanswered [] where
  sound := h.sound
  armed i stage found := by
    by_cases eq : i = id
    · subst eq
      exact armed stage found
    · exact (h.armed i stage found).mono fun _ => due_elsewhere eq
  requests up down upper lower links hup hdown awaits :=
    (h.requests up down upper lower links hup hdown awaits).imp_right fun mem =>
      absurd (mem_asked.1 mem).2 (by simp)
  responses up down upper lower links hup hdown awaits :=
    (h.responses up down upper lower links hup hdown awaits).imp_right fun mem =>
      absurd (mem_asked.1 mem).2 (by simp)
  host := h.host
  promised refused := by
    refine (h.promised refused).imp_right ?_
    rintro ⟨i, stage, front, found, owed⟩
    exact ⟨i, stage, front, found, owed.imp_right fun mem => absurd (mem_asked.1 mem).2 (by simp)⟩
  sorted := h.sorted
  timely := h.timely

theorem handover_receive (s : Simulation) (id : ComponentId) (v : StageView) (p : Packet) :
    s.Handover id v (v.receive p) := by
  rw [StageView.receive]
  split
  · exact ⟨.inl, .inl, fun owes => owes, fun owes => owes⟩
  · exact ⟨.inl, .inl, fun owes => owes, fun owes => owes⟩

theorem Attended.exchange {i : ComponentId} {kind : EventKind} {own reacted peer answered : Stage}
    {v w : StageView} {reactions actions : List Action} (ne : id ≠ i)
    (h : s.Attended unanswered (asked id [.wake ⟨s.now, kind⟩]))
    (found : s.fabric.stage? id = some own) (other : s.fabric.stage? i = some peer)
    (yields : Stage.Yields s.now (s.Due [] i) w (answered, actions))
    (received : s.Handover i peer.view w)
    (sent : Stage.Yields s.now (s.Due [] id) v (reacted, reactions))
    (handover : (s.setStage i answered).Handover id own.view v) :
    ((s.setStage i answered).setStage id reacted).Attended unanswered
      (asked i actions ++ asked id reactions) := by
  -- The stage that offered is replaced second, while the actions of the other are still to be
  -- performed.
  have stays : (s.setStage i answered).fabric.stage? id = some own := by
    rw [Simulation.setStage, Fabric.stage?_setStage_ne ne, found]
  have first := Attended.setStage [] _ h other (yields.mono fun _ => Due.of_nil) received
  have swapped := first.mono fun _ mem => List.mem_append.2 (List.mem_append.1 mem).symm
  have second := Attended.setStage (s := s.setStage i answered) [⟨s.now, kind⟩] (asked i actions)
    swapped stays (sent.mono fun _ => Due.of_nil) handover
  exact second.mono fun _ mem => List.mem_append.2 (List.mem_append.1 mem).symm

private theorem forwardRequest_busy (chained : Chained s.fabric.sites expander)
    (h : s.Attended unanswered (asked id [.wake ⟨s.now, .sendRequest⟩]))
    (behind : s.fabric.memorySide? id = some down)
    (hupper : s.fabric.stage? id = some upper) (hlower : s.fabric.stage? down = some lower)
    (took : upper.takeRequest s.now = some (p, taken)) {refused : Stage}
    (yields : Stage.Yields s.now (s.Due [] down) { lower.view with owesRequest := true }
      (refused, []))
    (reply : lower.recvRequest s.now (p.arriveAt down s.now) =
      ⟨refused, [], .busy (p.arriveAt down s.now)⟩) :
    ∃ s', s.forwardRequest id = (.ok (), s') ∧ s'.Attended unanswered [] ∧ s.Progress s' := by
  obtain ⟨rfl, -, -, -⟩ := Fabric.stage_behind chained behind
  have ne : down + 1 ≠ down := Nat.succ_ne_self _
  obtain ⟨-, viewUpper⟩ := Stage.view_takeRequest took
  have sent := Stage.yields_requestRefused took (h.sound _ _ hupper)
    ((h.armed _ _ hupper).mono fun _ => spent_or_due) (p.arriveAt down s.now).dropLastHop
  have viewRefused : refused.view = { lower.view with owesRequest := true } :=
    yields.view_of_onlyWakes .nil
  have received : s.Handover down lower.view { lower.view with owesRequest := true } :=
    ⟨.inl, .inl, fun _ => rfl, fun owes => owes⟩
  have handover : (s.setStage down refused).Handover (down + 1) upper.view
      { taken.view with
        requests := (p.arriveAt down s.now).dropLastHop.bare :: taken.view.requests
        awaitsRequest := true } := by
    rw [viewUpper]
    refine ⟨fun _ => .inr fun down' lower' links found => ?_, .inl, fun owes => owes,
      fun owes => owes⟩
    rw [setStage, Fabric.memorySide?_setStage, behind] at links
    cases links
    rw [setStage, Fabric.stage?_setStage_self hlower] at found
    cases found
    rw [viewRefused]
  have done := h.exchange ne hupper hlower yields received sent handover
  refine ⟨_, forwardRequest_refused behind ne hupper hlower took reply, done, ?_⟩
  obtain ⟨back, front, -, cargo, after⟩ := cargo_split_pair hlower hupper
  refine progress_of_cargo (sites_setStage_pair hlower hupper ?_ ?_) ?_ ⟨_, rfl⟩
  · rw [viewRefused]
  · rw [sent.view, viewUpper]
    rfl
  · rw [after, cargo, viewRefused, sent.view, viewUpper]
    rfl

private theorem forwardRequest_taken (chained : Chained s.fabric.sites expander)
    (h : s.Attended unanswered (asked id [.wake ⟨s.now, .sendRequest⟩]))
    (behind : s.fabric.memorySide? id = some down)
    (hupper : s.fabric.stage? id = some upper) (hlower : s.fabric.stage? down = some lower)
    (took : upper.takeRequest s.now = some (p, taken)) {answered : Stage} {actions : List Action}
    (yields : Stage.Yields s.now (s.Due [] down) (lower.view.receive (p.arriveAt down s.now))
      (answered, actions)) (wakes : OnlyWakes actions)
    (reply : lower.recvRequest s.now (p.arriveAt down s.now) = ⟨answered, actions, .accepted⟩) :
    ∃ s', s.forwardRequest id = (.ok (), s') ∧ s'.Attended unanswered [] ∧ s.Progress s' := by
  obtain ⟨rfl, pos, -, -⟩ := Fabric.stage_behind chained behind
  have ne : down + 1 ≠ down := Nat.succ_ne_self _
  obtain ⟨-, viewUpper⟩ := Stage.view_takeRequest took
  have sent := Stage.yields_requestSent took (h.sound _ _ hupper)
    ((h.armed _ _ hupper).mono fun _ => spent_or_due)
  have viewAnswered : answered.view = lower.view.receive (p.arriveAt down s.now) :=
    yields.view_of_onlyWakes wakes
  have handover : (s.setStage down answered).Handover (down + 1) upper.view taken.view := by
    rw [viewUpper]
    exact ⟨.inl, .inl, fun owes => owes, fun owes => owes⟩
  have moved := h.exchange ne hupper hlower yields (handover_receive ..) sent handover
  have sites := sites_setStage_pair (a := answered) (b := (taken.requestSent s.now).1) hlower hupper
    (by rw [viewAnswered, frame_receive]) (by rw [sent.view, viewUpper]; rfl)
  have done := moved.performActions _ (sites ▸ chained)
  refine ⟨_, forwardRequest_accepted behind ne hupper hlower took reply wakes, done, ?_⟩
  refine Progress.sameBooks ?_ (sameBooks_performActions _ _)
  obtain ⟨back, front, length, cargo, after⟩ := cargo_split_pair hlower hupper
  refine ⟨sites, ⟨[], ?_, (List.append_nil _).symm, rfl⟩, rfl, _, _, _, _, _, rfl⟩
  have inner : back ≠ [] := by
    rintro rfl
    exact absurd length (Nat.ne_of_lt pos)
  rw [after, cargo, viewAnswered, sent.view, viewUpper, StageView.calm_receive]
  exact Flow.request lower.view.calm taken.view.calm p.bare inner

/-- The request event: the head request moves on, or it is refused, or there is none. -/
theorem forwardRequest_spec (chained : Chained s.fabric.sites expander)
    (orderly : Orderly expander s.cargo)
    (h : s.Attended unanswered (asked id [.wake ⟨s.now, .sendRequest⟩])) :
    ∃ s', s.forwardRequest id = (.ok (), s') ∧ s'.Attended unanswered [] ∧ s.Progress s' := by
  have still : s.Progress s := progress_of_cargo rfl rfl ⟨_, rfl⟩
  cases behind : s.fabric.memorySide? id with
  | none =>
    have idle := h.idle fun stage found => by
      have ending := Fabric.forwards_iff chained found
      rw [behind] at ending
      exact Stage.armed_ending ending ((h.armed id stage found).mono fun _ => spent_or_due)
    refine ⟨s, ?_, idle, still⟩
    rw [forwardRequest, behind]
  | some down =>
    obtain ⟨rfl, pos, -, lower, hlower⟩ := Fabric.stage_behind chained behind
    obtain ⟨upper, hupper⟩ := Fabric.exists_of_memorySide? behind
    have armed := (h.armed _ _ hupper).mono fun _ => spent_or_due
    cases took : upper.takeRequest s.now with
    | none =>
      refine ⟨s, forwardRequest_idle hupper (.inr took), h.idle fun stage found => ?_, still⟩
      cases hupper.symm.trans found
      exact Stage.armed_takeRequest_none took armed
    | some head =>
      obtain ⟨p, taken⟩ := head
      obtain ⟨-, viewUpper⟩ := Stage.view_takeRequest took
      obtain ⟨back, front, -, cargo, -⟩ := cargo_split_pair hlower hupper
      have waiting : p.bare ∈ upper.view.calm.requests := by
        rw [viewUpper]
        exact List.mem_cons_self
      -- Only requests to the expander wait to be sent on, so the stage behind serves this one, and
      -- holds no response with its number.
      have inside := orderly.confined upper.view.calm (by simp [cargo]) p.bare waiting
      have serves := (Fabric.placed_stage chained hlower).serves pos _ _ inside
      have fresh : ∀ q ∈ lower.view.answers, q.id ≠ (p.arriveAt down s.now).id := by
        intro q mem
        have apart := (cargo ▸ orderly).ids_ne (q := q) (r := p.bare)
          (Multiset.mem_add.2 (.inr mem)) (Multiset.mem_add.2 (.inl waiting))
        exact apart
      have armedLower : lower.Armed s.now (s.Due [] down) :=
        (h.armed _ _ hlower).mono fun _ => due_elsewhere (Nat.succ_ne_self down).symm
      have offered := Stage.offered_recvRequest (h.sound _ _ hlower) armedLower fresh
      rcases offered with ⟨unserved, -⟩ | ⟨-, refused, yields, reply⟩ |
        ⟨-, answered, actions, yields, wakes, reply⟩
      · exact absurd (unserved.symm.trans serves) Bool.false_ne_true
      · exact forwardRequest_busy chained h behind hupper hlower took yields reply
      · exact forwardRequest_taken chained h behind hupper hlower took yields wakes reply

theorem facesHost (chained : Chained s.fabric.sites expander)
    (host : s.fabric.hostSide? id = some .host) (found : s.fabric.stage? id = some stage)
    {behind front : List StageView} {v w : StageView} (length : behind.length = id)
    (cargo : s.cargo = behind ++ v :: front) (frame : w.frame = stage.view.frame) :
    FacesHost behind w front := by
  have placed := Fabric.placed_stage chained found
  have more := chained.expander
  have total : s.fabric.sites.length = behind.length + (front.length + 1) := by
    have same : s.cargo.length = s.fabric.sites.length := by simp [Fabric.sites, Simulation.cargo]
    rw [← same, cargo]
    simp
  rcases placed.host.1 host with rfl | last
  · refine .inl ⟨List.length_eq_zero_iff.1 length, Bool.eq_false_iff.2 fun reserves => ?_⟩
    have last := (placed.reserves (frame ▸ reserves)).1
    grind
  · refine .inr ⟨fun nil => ?_, List.length_eq_zero_iff.1 ?_⟩
    · rw [nil] at length
      simp only [List.length_nil] at length
      grind
    · grind

private theorem forwardResponse_complete (chained : Chained s.fabric.sites expander)
    (h : s.Attended unanswered (asked id [.wake ⟨s.now, .sendResponse⟩]))
    (host : s.fabric.hostSide? id = some .host) (hlower : s.fabric.stage? id = some lower)
    (took : lower.takeResponse s.now = some (p, taken)) :
    ∃ s', s.forwardResponse id = (.ok (), s') ∧ s'.Attended unanswered [] ∧ s.Progress s' := by
  obtain ⟨-, viewLower⟩ := Stage.view_takeResponse took
  have sent := Stage.yields_responseSent took (h.sound _ _ hlower)
    ((h.armed _ _ hlower).mono fun _ => spent_or_due)
  have handover : s.Handover id lower.view
      { taken.view with
        reserved := taken.view.reserved - if taken.view.frame.reserves then 1 else 0 } := by
    rw [viewLower]
    exact ⟨.inl, .inl, fun owes => owes, fun owes => owes⟩
  have moved := Attended.setStage [⟨s.now, .sendResponse⟩] [] h hlower sent
    handover
  have sites : (s.setStage id (taken.responseSent s.now).1).fabric.sites = s.fabric.sites :=
    Fabric.sites_setStage hlower (by rw [sent.view, viewLower]; rfl)
  have done := Attended.performActions
    (s := (s.complete p).setStage id (taken.responseSent s.now).1) _ (sites ▸ chained)
    (moved.alike rfl rfl rfl rfl)
  rw [List.append_nil] at done
  refine ⟨_, forwardResponse_host host hlower took, done, ?_⟩
  refine Progress.sameBooks ?_ (sameBooks_performActions _ _)
  refine ⟨sites, ⟨[p.bare], ?_, rfl, rfl⟩, rfl, _, _, _, _, _, rfl⟩
  obtain ⟨behind, front, length, cargo, after⟩ := cargo_split hlower
  have frame : taken.view.calm.frame = lower.view.frame := by rw [viewLower]; rfl
  have faces := facesHost chained host hlower length cargo frame
  have flow := Flow.complete (p := p.bare) faces
  rw [cargo, viewLower]
  have cargo' : ((s.complete p).setStage id (taken.responseSent s.now).1).cargo =
      behind ++ taken.view.calm.release :: front := by
    refine (after _).trans ?_
    rw [sent.view]
    rfl
  rw [cargo']
  exact flow

/-- The bridge has room for every response that it reserved room for. -/
theorem bridge_room (chained : Chained s.fabric.sites expander)
    (orderly : Orderly expander s.cargo) (pos : 0 < down) {b : Bridge}
    (hlower : s.fabric.stage? down = some lower)
    (hupper : s.fabric.stage? (down + 1) = some (.bridge b)) (sound : b.Sound) {q : Packet}
    (answer : q ∈ lower.view.answers) : b.responses.isFull = false := by
  have placed := Fabric.placed_stage chained hupper
  obtain ⟨last, config, requestLimit, frame, -⟩ := placed.reserves rfl
  have capacity : b.responses.capacity = some b.config.responseDepth := by
    simp only [Stage.view, Bridge.view, StageFrame.bridge.injEq] at frame
    rw [frame.2.2.2, frame.1]
  obtain ⟨back, front, length, cargo, -⟩ := cargo_split_pair hlower hupper
  have total : s.cargo.length = s.fabric.sites.length := by simp [Fabric.sites, Simulation.cargo]
  -- The bridge is the last stage, and has reserved what the stages of the expander hold. That is
  -- at least `q` besides its own responses.
  have noFront : front = [] := by
    rw [← last, cargo, List.length_append, List.length_cons, List.length_cons, length] at total
    exact List.length_eq_zero_iff.1 (by grind)
  subst noFront
  have last' : s.cargo.getLast? = some (Stage.bridge b).view.calm := by
    rw [cargo, getLast?_append_cons]
    rfl
  have reserved := orderly.reserved _ last' rfl
  obtain ⟨first, rest, rfl⟩ : ∃ first rest, back = first :: rest := by
    cases back with
    | nil => exact absurd length (Nat.ne_of_lt pos)
    | cons first rest => exact ⟨first, rest, rfl⟩
  rw [cargo, List.cons_append, List.tail_cons, held_append, held_cons, held_cons] at reserved
  simp only [Multiset.card_add, Multiset.card_map] at reserved
  have below : lower.view.calm.packets.card =
      lower.view.requests.length + lower.view.answers.card := Multiset.card_add _ _
  have above : (Stage.bridge b).view.calm.packets.card =
      b.requests.packets.length + b.responses.packets.length := Multiset.card_add _ _
  have some : 0 < lower.view.answers.card := Multiset.card_pos_iff_exists_mem.2 ⟨q, answer⟩
  have le : b.reserved ≤ b.config.responseDepth := sound.reserved_le
  have same : (Stage.bridge b).view.calm.reserved = b.reserved := rfl
  rw [PacketQueue.length_packets, PacketQueue.length_packets] at above
  rw [same] at reserved
  simp only [PacketQueue.isFull, capacity, Option.any_some, decide_eq_false_iff_not]
  omega

private theorem forwardResponse_busy (chained : Chained s.fabric.sites expander)
    (h : s.Attended unanswered (asked down [.wake ⟨s.now, .sendResponse⟩]))
    (before : s.fabric.hostSide? down = some (.component (down + 1)))
    (hlower : s.fabric.stage? down = some lower)
    (hupper : s.fabric.stage? (down + 1) = some upper)
    (took : lower.takeResponse s.now = some (p, taken)) {refused : Stage}
    (yields : Stage.Yields s.now (s.Due [] (down + 1)) { upper.view with owesResponse := true }
      (refused, []))
    (reply : upper.recvResponse s.now p = ⟨refused, [], .busy p⟩) :
    ∃ s', s.forwardResponse down = (.ok (), s') ∧ s'.Attended unanswered [] ∧ s.Progress s' := by
  have ne : down ≠ down + 1 := (Nat.succ_ne_self _).symm
  obtain ⟨-, viewLower⟩ := Stage.view_takeResponse took
  have sent := Stage.yields_responseRefused took (h.sound _ _ hlower)
    ((h.armed _ _ hlower).mono fun _ => spent_or_due) p
  have viewRefused : refused.view = { upper.view with owesResponse := true } :=
    yields.view_of_onlyWakes .nil
  have received : s.Handover (down + 1) upper.view { upper.view with owesResponse := true } :=
    ⟨.inl, .inl, fun owes => owes, fun _ => rfl⟩
  have handover : (s.setStage (down + 1) refused).Handover down lower.view
      { taken.view with answers := p.bare ::ₘ taken.view.answers, awaitsResponse := true } := by
    rw [viewLower]
    refine ⟨.inl, fun _ => .inr ⟨?_, fun up upper' links found => ?_⟩, fun owes => owes,
      fun owes => owes⟩
    · rw [setStage, Fabric.hostSide?_setStage, before]
      intro eq
      cases eq
    · rw [setStage, Fabric.memorySide?_setStage] at links
      obtain ⟨rfl, -, -⟩ := Fabric.stage_behind chained links
      rw [setStage, Fabric.stage?_setStage_self hupper] at found
      cases found
      rw [viewRefused]
  have done := h.exchange ne hlower hupper yields received sent handover
  refine ⟨_, forwardResponse_refused before ne hlower hupper took reply, done, ?_⟩
  rw [setStage_comm]
  obtain ⟨back, front, -, cargo, after⟩ := cargo_split_pair hlower hupper
  refine progress_of_cargo (sites_setStage_pair hlower hupper ?_ ?_) ?_ ⟨_, rfl⟩
  · rw [sent.view, viewLower]
    rfl
  · rw [viewRefused]
  · rw [after, cargo, viewRefused, sent.view, viewLower]
    rfl

private theorem forwardResponse_taken (chained : Chained s.fabric.sites expander)
    (h : s.Attended unanswered (asked down [.wake ⟨s.now, .sendResponse⟩])) (pos : 0 < down)
    (before : s.fabric.hostSide? down = some (.component (down + 1)))
    (hlower : s.fabric.stage? down = some lower)
    (hupper : s.fabric.stage? (down + 1) = some upper)
    (took : lower.takeResponse s.now = some (p, taken)) {answered : Stage} {actions : List Action}
    (yields : Stage.Yields s.now (s.Due [] (down + 1))
      { upper.view with answers := p.bare ::ₘ upper.view.answers } (answered, actions))
    (wakes : OnlyWakes actions)
    (reply : upper.recvResponse s.now p = ⟨answered, actions, .accepted⟩) :
    ∃ s', s.forwardResponse down = (.ok (), s') ∧ s'.Attended unanswered [] ∧ s.Progress s' := by
  have ne : down ≠ down + 1 := (Nat.succ_ne_self _).symm
  obtain ⟨-, viewLower⟩ := Stage.view_takeResponse took
  -- Room is reserved by the last stage alone, which has the host in front.
  have keeps : taken.view.frame.reserves = false := by
    have frame : taken.view.frame = lower.view.frame := by rw [viewLower]
    refine Bool.eq_false_iff.2 fun reserves => ?_
    have last := ((Fabric.placed_stage chained hlower).reserves (frame ▸ reserves)).1
    have host := (Fabric.placed_stage chained hlower).host.2 (.inr last)
    cases before.symm.trans host
  have sent := Stage.yields_responseSent took (h.sound _ _ hlower)
    ((h.armed _ _ hlower).mono fun _ => spent_or_due)
  have viewAnswered : answered.view =
      { upper.view with answers := p.bare ::ₘ upper.view.answers } :=
    yields.view_of_onlyWakes wakes
  have received : s.Handover (down + 1) upper.view
      { upper.view with answers := p.bare ::ₘ upper.view.answers } :=
    ⟨.inl, .inl, fun owes => owes, fun owes => owes⟩
  have handover : (s.setStage (down + 1) answered).Handover down lower.view
      { taken.view with
        reserved := taken.view.reserved - if taken.view.frame.reserves then 1 else 0 } := by
    rw [viewLower]
    exact ⟨.inl, .inl, fun owes => owes, fun owes => owes⟩
  have moved := h.exchange ne hlower hupper yields received sent handover
  have sites := sites_setStage_pair (a := (taken.responseSent s.now).1) (b := answered) hlower
    hupper (by rw [sent.view, viewLower]; rfl) (by rw [viewAnswered])
  rw [setStage_comm] at moved
  have done := moved.performActions _ (sites ▸ chained)
  have eq := forwardResponse_accepted before ne hlower hupper took reply wakes
  rw [setStage_comm] at eq
  refine ⟨_, eq, done, ?_⟩
  refine Progress.sameBooks ?_ (sameBooks_performActions _ _)
  obtain ⟨back, front, length, cargo, after⟩ := cargo_split_pair hlower hupper
  refine ⟨sites, ⟨[], ?_, (List.append_nil _).symm, rfl⟩, rfl, _, _, _, _, _, rfl⟩
  have inner : back ≠ [] := by
    rintro rfl
    exact absurd length (Nat.ne_of_lt pos)
  rw [after, cargo, viewAnswered, sent.view, viewLower, keeps]
  exact Flow.response taken.view.calm upper.view.calm p.bare inner

/-- The response event: the next response moves on, or it is refused, or there is none. -/
theorem forwardResponse_spec (chained : Chained s.fabric.sites expander)
    (orderly : Orderly expander s.cargo)
    (h : s.Attended unanswered (asked id [.wake ⟨s.now, .sendResponse⟩])) :
    ∃ s', s.forwardResponse id = (.ok (), s') ∧ s'.Attended unanswered [] ∧ s.Progress s' := by
  have still : s.Progress s := progress_of_cargo rfl rfl ⟨_, rfl⟩
  cases peer : s.fabric.hostSide? id with
  | none =>
    have idle := h.idle fun stage found =>
      absurd peer (Fabric.placed_stage chained found).faced
    refine ⟨s, ?_, idle, still⟩
    rw [forwardResponse, peer]
  | some peer' =>
    obtain ⟨lower, hlower⟩ := Fabric.exists_of_hostSide? peer
    cases took : lower.takeResponse s.now with
    | none =>
      refine ⟨s, forwardResponse_idle hlower took, h.idle fun stage found => ?_, still⟩
      cases hlower.symm.trans found
      exact Stage.armed_takeResponse_none (h.sound _ _ hlower) took
        ((h.armed _ _ hlower).mono fun _ => spent_or_due)
    | some head =>
      obtain ⟨p, taken⟩ := head
      cases peer' with
      | host => exact forwardResponse_complete chained h peer hlower took
      | component up =>
        obtain ⟨rfl, pos, behind, upper, hupper⟩ := Fabric.stage_before chained peer
        have forwards : upper.view.frame.forwards = true := by
          rw [Fabric.forwards_iff chained hupper, behind]
          rfl
        obtain ⟨-, viewLower⟩ := Stage.view_takeResponse took
        have answer : p.bare ∈ lower.view.answers := by
          rw [viewLower]
          exact Multiset.mem_cons_self _ _
        have room (b : Bridge) (eq : upper = .bridge b) : b.responses.isFull = false := by
          subst eq
          exact bridge_room chained orderly pos hlower hupper (h.sound _ _ hupper) answer
        have armedUpper : upper.Armed s.now (s.Due [] (id + 1)) :=
          (h.armed _ _ hupper).mono fun _ => due_elsewhere (Nat.succ_ne_self id)
        have offered := Stage.offeredBack_recvResponse (p := p) forwards room (h.sound _ _ hupper)
          armedUpper
        rcases offered with ⟨refused, yields, reply⟩ | ⟨answered, actions, yields, wakes, reply⟩
        · exact forwardResponse_busy chained h peer hlower hupper took yields reply
        · exact forwardResponse_taken chained h pos peer hlower hupper took yields wakes reply

theorem process_spec (chained : Chained s.fabric.sites expander)
    (h : s.Attended unanswered (asked id [.wake ⟨s.now, .process⟩])) :
    (s.react id fun stage => stage.process s.now).Attended unanswered [] ∧
      s.Progress (s.react id fun stage => stage.process s.now) := by
  cases found : s.fabric.stage? id with
  | none =>
    have same : s.react id (fun stage => stage.process s.now) = s := by rw [react, found]
    rw [same]
    refine ⟨h.idle fun stage found' => ?_, progress_of_cargo rfl rfl ⟨_, rfl⟩⟩
    cases found.symm.trans found'
  | some stage =>
    have ran := Stage.yields_process (h.sound _ _ found)
      ((h.armed _ _ found).mono fun _ => spent_or_due)
    have handover : s.Handover id stage.view stage.view :=
      ⟨.inl, .inl, fun owes => owes, fun owes => owes⟩
    have moved := Attended.setStage [⟨s.now, .process⟩] [] h found ran handover
    have same : s.SameBooks (s.setStage id (stage.process s.now).1) :=
      sameBooks_setStage found (by rw [ran.view]; rfl)
    rw [react_eq found]
    rw [List.append_nil] at moved
    refine ⟨moved.performActions _ (same.sites ▸ chained), ?_⟩
    have progress : s.Progress (s.setStage id (stage.process s.now).1) :=
      progress_of_cargo same.sites same.cargo ⟨_, rfl⟩
    exact progress.sameBooks (sameBooks_performActions _ _)

theorem dispatch_spec {e : Event} (chained : Chained s.fabric.sites expander)
    (orderly : Orderly expander s.cargo)
    (h : s.Attended unanswered (asked e.target [.wake ⟨s.now, e.kind⟩])) :
    ∃ s', s.dispatch e = (.ok (), s') ∧ s'.Attended unanswered [] ∧ s.Progress s' := by
  rw [dispatch]
  cases kind : e.kind <;> rw [kind] at h
  · exact forwardRequest_spec chained orderly h
  · exact forwardResponse_spec chained orderly h
  · obtain ⟨attended, progress⟩ := process_spec chained h
    exact ⟨_, rfl, attended, progress⟩

end Expander.Simulation
