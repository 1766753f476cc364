import Expander.Proofs.Dispatch
import Expander.Proofs.Stage.Contract

/-!
No wake-up is lost, and no promised retry forgotten.

In an attended system every stage is sound and has its wake-ups pending; a stage that waits for a
retry has a neighbour that owes it, and nothing waits for the host. While actions are still to be
performed, what they ask for counts as well. So performing them one after the other keeps the system
attended (`Attended.performActions`), and so does replacing a stage by what it yields
(`Attended.setStage`).
-/

set_option autoImplicit false

namespace Expander.Simulation

def Due (s : Simulation) (pending : List (ComponentId × Action)) (id : ComponentId)
    (w : Wakeup) : Prop :=
  ⟨w.tick, id, w.kind⟩ ∈ s.events.events ∨
    ∃ tick, (id, Action.wake ⟨tick, w.kind⟩) ∈ pending ∧ w.tick = max tick s.now

/-- Every stage is sound and armed, and every promise of a retry is kept by the one who made it.
`unanswered` tells that a request of the host was refused and no retry was reported since. -/
structure Attended (s : Simulation) (unanswered : Bool) (pending : List (ComponentId × Action)) :
    Prop where
  sound : ∀ id stage, s.fabric.stage? id = some stage → stage.Sound
  armed : ∀ id stage, s.fabric.stage? id = some stage → stage.Armed s.now (s.Due pending id)
  /-- A request waits only for a stage that owes a retry. -/
  requests : ∀ up down upper lower, s.fabric.memorySide? up = some down →
    s.fabric.stage? up = some upper → s.fabric.stage? down = some lower →
    upper.view.awaitsRequest = true →
    lower.view.owesRequest = true ∨ (down, Action.retryRequest) ∈ pending
  /-- A response waits only for a stage that owes a retry. -/
  responses : ∀ up down upper lower, s.fabric.memorySide? up = some down →
    s.fabric.stage? up = some upper → s.fabric.stage? down = some lower →
    lower.view.awaitsResponse = true →
    upper.view.owesResponse = true ∨ (up, Action.retryResponse) ∈ pending
  host : ∀ id stage, s.fabric.hostSide? id = some .host → s.fabric.stage? id = some stage →
    stage.view.awaitsResponse = false
  /-- A refused host has been called for, or is owed a retry. -/
  promised : unanswered = true → s.hostRetry = true ∨
    ∃ id stage, s.fabric.hostSide? id = some .host ∧ s.fabric.stage? id = some stage ∧
      (stage.view.owesRequest = true ∨ (id, Action.retryRequest) ∈ pending)
  sorted : s.events.Sorted
  /-- No event lies in the past. -/
  timely : ∀ e ∈ s.events.events, s.now ≤ e.tick

variable {s : Simulation} {unanswered : Bool} {pending pending' rest : List (ComponentId × Action)}
  {id : ComponentId} {stage old : Stage} {actions : List Action} {w : Wakeup}
  {expander : AddressRange}

theorem Due.mono (h : s.Due pending id w)
    (sub : ∀ w, (id, Action.wake w) ∈ pending → (id, Action.wake w) ∈ pending') :
    s.Due pending' id w := by
  refine h.imp_right ?_
  rintro ⟨tick, mem, eq⟩
  exact ⟨tick, sub _ mem, eq⟩

theorem Due.of_nil (h : s.Due [] id w) : s.Due pending id w :=
  h.mono fun _ mem => absurd mem List.not_mem_nil

theorem due_of_called (h : Called s.now actions w) (mem : ∀ a ∈ actions, (id, a) ∈ pending) :
    s.Due pending id w := by
  obtain ⟨tick, asked, eq⟩ := h
  exact .inr ⟨tick, mem _ asked, eq⟩

theorem Attended.mono (h : s.Attended unanswered pending) (sub : ∀ a ∈ pending, a ∈ pending') :
    s.Attended unanswered pending' where
  sound := h.sound
  armed id stage found := (h.armed id stage found).mono fun _ due => due.mono fun _ => sub _
  requests up down upper lower links hup hdown awaits :=
    (h.requests up down upper lower links hup hdown awaits).imp_right (sub _)
  responses up down upper lower links hup hdown awaits :=
    (h.responses up down upper lower links hup hdown awaits).imp_right (sub _)
  host := h.host
  promised refused := by
    refine (h.promised refused).imp_right ?_
    rintro ⟨id, stage, front, found, owed⟩
    exact ⟨id, stage, front, found, owed.imp_right (sub _)⟩
  sorted := h.sorted
  timely := h.timely

theorem Attended.alike {s' : Simulation} (h : s.Attended unanswered pending)
    (nodes : s'.fabric.nodes = s.fabric.nodes) (events : s'.events = s.events)
    (now : s'.now = s.now) (hostRetry : s'.hostRetry = s.hostRetry) :
    s'.Attended unanswered pending := by
  obtain ⟨⟨_, _⟩, _, _, _, _, _, _, _, _, _, _⟩ := s'
  obtain ⟨⟨_, _⟩, _, _, _, _, _, _, _, _, _, _⟩ := s
  simp only at nodes events now hostRetry
  subst nodes events now hostRetry
  exact ⟨h.sound, h.armed, h.requests, h.responses, h.host, h.promised, h.sorted, h.timely⟩

theorem Attended.wake {w : Wakeup} (h : s.Attended unanswered ((id, .wake w) :: rest)) :
    (s.wake id w).Attended unanswered rest where
  sound := h.sound
  armed i stage found := by
    refine (h.armed i stage found).mono fun v due => ?_
    have events := s.events.events_schedule_perm ⟨max w.tick s.now, id, w.kind⟩
    rcases due with event | ⟨tick, asked, eq⟩
    · exact .inl (events.mem_iff.2 (List.mem_cons_of_mem _ event))
    · rcases List.mem_cons.1 asked with first | later
      · cases first
        refine .inl (events.mem_iff.2 ?_)
        rw [eq]
        exact List.mem_cons_self
      · exact .inr ⟨tick, later, eq⟩
  requests up down upper lower links hup hdown awaits :=
    (h.requests up down upper lower links hup hdown awaits).imp_right
      (List.mem_of_ne_of_mem (by simp))
  responses up down upper lower links hup hdown awaits :=
    (h.responses up down upper lower links hup hdown awaits).imp_right
      (List.mem_of_ne_of_mem (by simp))
  host := h.host
  promised refused := by
    refine (h.promised refused).imp_right ?_
    rintro ⟨i, stage, front, found, owed⟩
    exact ⟨i, stage, front, found, owed.imp_right (List.mem_of_ne_of_mem (by simp))⟩
  sorted := h.sorted.schedule _
  timely e mem := by
    have events := s.events.events_schedule_perm ⟨max w.tick s.now, id, w.kind⟩
    rcases List.mem_cons.1 (events.mem_iff.1 mem) with rfl | old
    · exact Nat.le_max_right ..
    · exact h.timely e old

theorem Attended.wakes {wakes : List Wakeup}
    (h : s.Attended unanswered (asked id (wakes.map .wake) ++ rest)) :
    (wakes.foldl (fun s w => s.wake id w) s).Attended unanswered rest := by
  induction wakes generalizing s with
  | nil => exact h
  | cons w wakes ih => exact ih h.wake

/-- What a stage yields may wait for only what is owed to it, and owes what it owed before. -/
structure Handover (s : Simulation) (id : ComponentId) (old : StageView) (v : StageView) :
    Prop where
  awaitsRequest : v.awaitsRequest = true → old.awaitsRequest = true ∨
    ∀ down lower, s.fabric.memorySide? id = some down → s.fabric.stage? down = some lower →
      lower.view.owesRequest = true
  awaitsResponse : v.awaitsResponse = true → old.awaitsResponse = true ∨
    s.fabric.hostSide? id ≠ some .host ∧
    ∀ up upper, s.fabric.memorySide? up = some id → s.fabric.stage? up = some upper →
      upper.view.owesResponse = true
  owesRequest : old.owesRequest = true → v.owesRequest = true
  owesResponse : old.owesResponse = true → v.owesResponse = true

private theorem owed_setStage {v : StageView} {i : ComponentId} {before after : Stage}
    (yields : Stage.Yields s.now (s.Due rest id) v (stage, actions))
    (handover : s.Handover id old.view v)
    (same : (i = id ∧ after = stage ∧ before = old) ∨ after = before) :
    (before.view.owesRequest = true →
      after.view.owesRequest = true ∨ (i, Action.retryRequest) ∈ asked id actions ++ rest) ∧
    (before.view.owesResponse = true →
      after.view.owesResponse = true ∨ (i, Action.retryResponse) ∈ asked id actions ++ rest) := by
  rcases same with ⟨rfl, rfl, rfl⟩ | rfl
  · have view : after.view = v.redeem actions := yields.view
    rw [view]
    refine ⟨fun owes => ?_, fun owes => ?_⟩
    · have owed := StageView.owesRequest_redeem (handover.owesRequest owes) actions
      refine owed.imp_right fun mem => ?_
      exact List.mem_append_left _ (mem_asked.2 ⟨rfl, mem⟩)
    · refine (StageView.owesResponse_redeem (handover.owesResponse owes) actions).imp_right
        fun mem => ?_
      exact List.mem_append_left _ (mem_asked.2 ⟨rfl, mem⟩)
  · exact ⟨.inl, .inl⟩

private theorem mem_rest {i : ComponentId} {spent : List Wakeup} {action : Action}
    (h : (i, action) ∈ asked id (spent.map .wake) ++ rest) (ne : i ≠ id ∨ ∀ w, action ≠ .wake w) :
    (i, action) ∈ rest := by
  rcases List.mem_append.1 h with mem | mem
  · obtain ⟨rfl, wake⟩ := mem_asked.1 mem
    obtain ⟨w, -, rfl⟩ := List.mem_map.1 wake
    exact (ne.resolve_left (· rfl) w rfl).elim
  · exact mem

private theorem before_setStage {i : ComponentId} {after : Stage}
    (found : s.fabric.stage? id = some old)
    (standing : (s.setStage id stage).fabric.stage? i = some after) :
    ∃ before, s.fabric.stage? i = some before ∧
      ((i = id ∧ after = stage ∧ before = old) ∨ after = before) := by
  rcases Fabric.stage?_setStage_cases found standing with ⟨rfl, rfl, same⟩ | ⟨-, same⟩
  · exact ⟨old, same, .inl ⟨rfl, rfl, rfl⟩⟩
  · exact ⟨after, same, .inr rfl⟩

section SetStage

variable {v : StageView} {spent : List Wakeup}
  (h : s.Attended unanswered (asked id (spent.map .wake) ++ rest))
  (found : s.fabric.stage? id = some old)
  (yields : Stage.Yields s.now (s.Due rest id) v (stage, actions))
  (handover : s.Handover id old.view v)

include h found yields handover

private theorem requests_setStage {up down : ComponentId} {upper lower : Stage}
    (links : s.fabric.memorySide? up = some down)
    (hup : (s.setStage id stage).fabric.stage? up = some upper)
    (hdown : (s.setStage id stage).fabric.stage? down = some lower)
    (awaits : upper.view.awaitsRequest = true) :
    lower.view.owesRequest = true ∨ (down, Action.retryRequest) ∈ asked id actions ++ rest := by
  obtain ⟨before, hbefore, same⟩ := before_setStage found hdown
  have owed : before.view.owesRequest = true ∨ (down, Action.retryRequest) ∈ rest := by
    have kept (upOld : Stage) (hold : s.fabric.stage? up = some upOld)
        (waited : upOld.view.awaitsRequest = true) :=
      (h.requests _ _ _ _ links hold hbefore waited).imp_right
        (mem_rest · (.inr Action.retryRequest_ne_wake))
    -- Either the waiting stage is the one that was replaced, and `handover` says why it waits, or
    -- it waited before. The stage behind owes the retry after as it did before.
    rcases Fabric.stage?_setStage_cases found hup with ⟨rfl, rfl, upOld⟩ | ⟨-, upOld⟩
    · rw [yields.view] at awaits
      rcases handover.awaitsRequest awaits with waited | owes
      · exact kept _ upOld waited
      · exact .inl (owes down before links hbefore)
    · exact kept _ upOld awaits
  rcases owed with owes | mem
  · exact (owed_setStage yields handover same).1 owes
  · exact .inr (List.mem_append_right _ mem)

private theorem responses_setStage {up down : ComponentId} {upper lower : Stage}
    (links : s.fabric.memorySide? up = some down)
    (hup : (s.setStage id stage).fabric.stage? up = some upper)
    (hdown : (s.setStage id stage).fabric.stage? down = some lower)
    (awaits : lower.view.awaitsResponse = true) :
    upper.view.owesResponse = true ∨ (up, Action.retryResponse) ∈ asked id actions ++ rest := by
  obtain ⟨before, hbefore, same⟩ := before_setStage found hup
  have owed : before.view.owesResponse = true ∨ (up, Action.retryResponse) ∈ rest := by
    have kept (downOld : Stage) (hold : s.fabric.stage? down = some downOld)
        (waited : downOld.view.awaitsResponse = true) :=
      (h.responses _ _ _ _ links hbefore hold waited).imp_right
        (mem_rest · (.inr Action.retryResponse_ne_wake))
    rcases Fabric.stage?_setStage_cases found hdown with ⟨rfl, rfl, downOld⟩ | ⟨-, downOld⟩
    · rw [yields.view] at awaits
      rcases handover.awaitsResponse awaits with waited | ⟨-, owes⟩
      · exact kept _ downOld waited
      · exact .inl (owes up before links hbefore)
    · exact kept _ downOld awaits
  rcases owed with owes | mem
  · exact (owed_setStage yields handover same).2 owes
  · exact .inr (List.mem_append_right _ mem)

private theorem promised_setStage (refused : unanswered = true) :
    s.hostRetry = true ∨ ∃ i after, s.fabric.hostSide? i = some .host ∧
      (s.setStage id stage).fabric.stage? i = some after ∧
      (after.view.owesRequest = true ∨
        (i, Action.retryRequest) ∈ asked id actions ++ rest) := by
  refine (h.promised refused).imp_right ?_
  rintro ⟨i, before, front, hbefore, owed⟩
  have standing : ∃ after, (s.setStage id stage).fabric.stage? i = some after ∧
      ((i = id ∧ after = stage ∧ before = old) ∨ after = before) := by
    by_cases eq : i = id
    · subst eq
      have same : before = old := Option.some.inj (hbefore.symm.trans found)
      exact ⟨stage, Fabric.stage?_setStage_self found, .inl ⟨rfl, rfl, same⟩⟩
    · exact ⟨before, (Fabric.stage?_setStage_ne eq).trans hbefore, .inr rfl⟩
  obtain ⟨after, hafter, same⟩ := standing
  refine ⟨i, after, front, hafter, ?_⟩
  rcases owed with owes | mem
  · exact (owed_setStage yields handover same).1 owes
  · exact .inr (List.mem_append_right _ (mem_rest mem (.inr Action.retryRequest_ne_wake)))

end SetStage

/-- A stage is replaced by what it yields, with wake-ups for it spent. -/
theorem Attended.setStage {v : StageView} (spent : List Wakeup)
    (rest : List (ComponentId × Action))
    (h : s.Attended unanswered (asked id (spent.map .wake) ++ rest))
    (found : s.fabric.stage? id = some old)
    (yields : Stage.Yields s.now (s.Due rest id) v (stage, actions))
    (handover : s.Handover id old.view v) :
    (s.setStage id stage).Attended unanswered (asked id actions ++ rest) := by
  have later {i : ComponentId} {a : Action} (mem : (i, a) ∈ rest) :
      (i, a) ∈ asked id actions ++ rest := List.mem_append_right _ mem
  refine ⟨fun i st after => ?_, fun i st after => ?_, fun up down upper lower links hup hdown => ?_,
    fun up down upper lower links hup hdown => ?_, fun i st front after => ?_, fun refused => ?_,
    h.sorted, h.timely⟩
  · rcases Fabric.stage?_setStage_cases found after with ⟨-, rfl, -⟩ | ⟨-, before⟩
    · exact yields.sound
    · exact h.sound i st before
  -- The stage itself has its wake-ups by `yields`; the spent ones were of no use to any other.
  · rcases Fabric.stage?_setStage_cases found after with ⟨rfl, rfl, -⟩ | ⟨ne, before⟩
    · refine yields.armed.mono fun w => ?_
      rintro (due | called)
      · exact due.mono fun _ => later
      · exact due_of_called called fun a mem => List.mem_append_left _ (mem_asked.2 ⟨rfl, mem⟩)
    · exact (h.armed i st before).mono fun w due =>
        due.mono fun v mem => later (mem_rest mem (.inl ne))
  · rw [Simulation.setStage, Fabric.memorySide?_setStage] at links
    exact requests_setStage h found yields handover links hup hdown
  · rw [Simulation.setStage, Fabric.memorySide?_setStage] at links
    exact responses_setStage h found yields handover links hup hdown
  · rw [Simulation.setStage, Fabric.hostSide?_setStage] at front
    rcases Fabric.stage?_setStage_cases found after with ⟨rfl, rfl, before⟩ | ⟨-, before⟩
    · rw [yields.view]
      refine Bool.eq_false_iff.2 fun awaits => ?_
      rcases handover.awaitsResponse awaits with waited | ⟨inner, -⟩
      · simp [h.host i old front before] at waited
      · exact inner front
    · exact h.host i st front before
  · refine (promised_setStage h found yields handover refused).imp_right ?_
    rintro ⟨i, after, front, standing⟩
    exact ⟨i, after, by rwa [Simulation.setStage, Fabric.hostSide?_setStage], standing⟩

theorem Attended.drop_retryRequest (h : s.Attended unanswered ((id, .retryRequest) :: rest))
    (idle : ∀ up upper, s.fabric.memorySide? up = some id → s.fabric.stage? up = some upper →
      upper.view.awaitsRequest = false)
    (told : s.fabric.hostSide? id = some .host → s.hostRetry = true) :
    s.Attended unanswered rest where
  sound := h.sound
  armed i stage found := (h.armed i stage found).mono fun _ due =>
    due.mono fun _ mem => (List.mem_cons.1 mem).resolve_left nofun
  requests up down upper lower links hup hdown awaits := by
    refine (h.requests up down upper lower links hup hdown awaits).imp_right fun mem => ?_
    rcases List.mem_cons.1 mem with first | later
    · cases first
      simp [idle up upper links hup] at awaits
    · exact later
  responses up down upper lower links hup hdown awaits :=
    (h.responses up down upper lower links hup hdown awaits).imp_right
      (List.mem_of_ne_of_mem (by simp))
  host := h.host
  promised refused := by
    rcases h.promised refused with called | ⟨i, stage, front, found, owed⟩
    · exact .inl called
    · rcases owed with owes | mem
      · exact .inr ⟨i, stage, front, found, .inl owes⟩
      · rcases List.mem_cons.1 mem with first | later
        · cases first
          exact .inl (told front)
        · exact .inr ⟨i, stage, front, found, .inr later⟩
  sorted := h.sorted
  timely := h.timely

theorem Attended.drop_retryResponse (h : s.Attended unanswered ((id, .retryResponse) :: rest))
    (idle : ∀ down lower, s.fabric.memorySide? id = some down → s.fabric.stage? down = some lower →
      lower.view.awaitsResponse = false) : s.Attended unanswered rest where
  sound := h.sound
  armed i stage found := (h.armed i stage found).mono fun _ due =>
    due.mono fun _ mem => (List.mem_cons.1 mem).resolve_left nofun
  requests up down upper lower links hup hdown awaits :=
    (h.requests up down upper lower links hup hdown awaits).imp_right
      (List.mem_of_ne_of_mem (by simp))
  responses up down upper lower links hup hdown awaits := by
    refine (h.responses up down upper lower links hup hdown awaits).imp_right fun mem => ?_
    rcases List.mem_cons.1 mem with first | later
    · cases first
      simp [idle down lower links hdown] at awaits
    · exact later
  host := h.host
  promised refused := by
    refine (h.promised refused).imp_right ?_
    rintro ⟨i, stage, front, found, owed⟩
    exact ⟨i, stage, front, found, owed.imp_right
      (List.mem_of_ne_of_mem (by simp))⟩
  sorted := h.sorted
  timely := h.timely

theorem Attended.retryRequest {up : ComponentId} (chained : Chained s.fabric.sites expander)
    (h : s.Attended unanswered ((id, .retryRequest) :: rest))
    (before : s.fabric.hostSide? id = some (.component up)) :
    (s.retryRequest up).Attended unanswered rest := by
  obtain ⟨next, -, -, upper, found⟩ := Fabric.stage_before chained before
  have yields : Stage.Yields s.now (s.Due ((id, .retryRequest) :: rest) up) _ _ :=
    Stage.yields_recvRequestRetry (h.sound up upper found) (h.armed up upper found)
  have told := Attended.setStage [] _ h found yields
    ⟨nofun, .inl, fun owes => owes, fun owes => owes⟩
  have woken := told.wakes
  rw [Simulation.retryRequest, found]
  refine woken.drop_retryRequest ?_ ?_
  · intro up' upper' links found'
    rw [fabric_wakes, Simulation.setStage, Fabric.memorySide?_setStage] at links
    obtain ⟨next', -, -⟩ := Fabric.stage_behind chained links
    have same : up' = up := next'.trans next.symm
    rw [fabric_wakes, Simulation.setStage, same, Fabric.stage?_setStage_self found] at found'
    cases found'
    rw [yields.view]
    rfl
  · intro host
    rw [fabric_wakes, Simulation.setStage, Fabric.hostSide?_setStage, before] at host
    cases host

theorem Attended.retryResponse {down : ComponentId} (chained : Chained s.fabric.sites expander)
    (h : s.Attended unanswered ((id, .retryResponse) :: rest))
    (behind : s.fabric.memorySide? id = some down) :
    (s.retryResponse down).Attended unanswered rest := by
  obtain ⟨-, pos, -, lower, found⟩ := Fabric.stage_behind chained behind
  have yields : Stage.Yields s.now (s.Due ((id, .retryResponse) :: rest) down) _ _ :=
    Stage.yields_recvResponseRetry (Fabric.stage_ne_memory chained found pos)
      (h.sound down lower found) (h.armed down lower found)
  have told := Attended.setStage [] _ h found yields
    ⟨.inl, nofun, fun owes => owes, fun owes => owes⟩
  have woken := told.wakes
  rw [Simulation.retryResponse, found]
  refine woken.drop_retryResponse ?_
  intro down' lower' links found'
  rw [fabric_wakes, Simulation.setStage, Fabric.memorySide?_setStage, behind] at links
  cases links
  rw [fabric_wakes, Simulation.setStage, Fabric.stage?_setStage_self found] at found'
  cases found'
  rw [yields.view]
  rfl

theorem Attended.perform {action : Action} (chained : Chained s.fabric.sites expander)
    (h : s.Attended unanswered ((id, action) :: rest)) :
    (s.perform id action).Attended unanswered rest := by
  cases action with
  | wake w => exact h.wake
  | retryRequest =>
    have alone (peer : s.fabric.hostSide? id = none ∨ s.fabric.hostSide? id = some .host) :
        ∀ up upper, s.fabric.memorySide? up = some id → s.fabric.stage? up = some upper →
          upper.view.awaitsRequest = false := by
      intro up upper links
      obtain ⟨-, -, before, -⟩ := Fabric.stage_behind chained links
      rcases peer with none | host
      · cases none.symm.trans before
      · cases host.symm.trans before
    rw [Simulation.perform]
    split
    next none =>
      refine h.drop_retryRequest (alone (.inl none)) fun host => ?_
      cases none.symm.trans host
    next host =>
      have called : { s with hostRetry := true }.Attended unanswered
          ((id, .retryRequest) :: rest) :=
        ⟨h.sound, h.armed, h.requests, h.responses, h.host, fun _ => .inl rfl, h.sorted, h.timely⟩
      exact called.drop_retryRequest (alone (.inr host)) fun _ => rfl
    next up before => exact h.retryRequest chained before
  | retryResponse =>
    rw [Simulation.perform]
    split
    next none =>
      refine h.drop_retryResponse fun down lower links => ?_
      cases none.symm.trans links
    next down behind => exact h.retryResponse chained behind

theorem Attended.performActions (pending : List (ComponentId × Action))
    (chained : Chained s.fabric.sites expander) (h : s.Attended unanswered pending) :
    (s.performActions pending).Attended unanswered [] := by
  induction pending generalizing s with
  | nil => exact h
  | cons request rest ih =>
    refine ih ?_ (h.perform chained)
    rw [(sameBooks_perform s request.1 request.2).sites]
    exact chained

theorem Attended.wait {tick : Tick} (h : s.Attended unanswered []) (le : s.now ≤ tick)
    (ahead : ∀ e ∈ s.events.events, tick ≤ e.tick) :
    { s with now := tick }.Attended unanswered [] := by
  refine ⟨h.sound, fun id stage found => ?_, h.requests, h.responses, h.host, h.promised, h.sorted,
    ahead⟩
  have due (w : Wakeup) (now : s.Due [] id w) : ⟨w.tick, id, w.kind⟩ ∈ s.events.events :=
    now.resolve_right fun ⟨_, mem, _⟩ => nomatch mem
  exact ((h.armed id stage found).later le fun w now => ahead _ (due w now)).mono fun w now =>
    .inl (due w now)

/-- The next event is taken out; until it is handled, its wake-up is still to be performed. -/
theorem Attended.pop {e : Event} {others : List Event} (h : s.Attended unanswered [])
    (events : s.events.events = e :: others) :
    { s with events := ⟨others⟩, now := max s.now e.tick }.Attended unanswered
      (asked e.target [.wake ⟨e.tick, e.kind⟩]) := by
  have sorted : InOrder Event.before (e :: others) := events ▸ h.sorted
  have first : ∀ other ∈ s.events.events, max s.now e.tick ≤ other.tick := by
    intro other mem
    have now := h.timely other mem
    rw [events] at mem
    refine Nat.max_le.2 ⟨now, ?_⟩
    rcases List.mem_cons.1 mem with rfl | later
    · exact Nat.le_refl _
    · have order := (List.pairwise_cons.1 sorted).1 other later
      simpa [Event.before] using order
  have waited := h.wait (Nat.le_max_left ..) first
  refine ⟨waited.sound, fun id stage found => ?_,
    fun up down upper lower links hup hdown awaits => ?_,
    fun up down upper lower links hup hdown awaits => ?_, waited.host, fun refused => ?_,
    (List.pairwise_cons.1 sorted).2, fun other mem => ?_⟩
  · refine (waited.armed id stage found).mono fun w due => ?_
    rcases due with pending | ⟨_, mem, _⟩
    · have mem : ⟨w.tick, id, w.kind⟩ ∈ e :: others := events ▸ pending
      rcases List.mem_cons.1 mem with spent | later
      · subst spent
        have now : s.now ≤ w.tick := h.timely _ pending
        refine .inr ⟨w.tick, List.mem_cons_self, ?_⟩
        simp only
        rw [Nat.max_eq_right now, Nat.max_self]
      · exact .inl later
    · cases mem
  · exact (waited.requests up down upper lower links hup hdown awaits).imp_right nofun
  · exact (waited.responses up down upper lower links hup hdown awaits).imp_right nofun
  · refine (waited.promised refused).imp_right ?_
    rintro ⟨id, stage, front, found, owed⟩
    exact ⟨id, stage, front, found, owed.imp_right nofun⟩
  · exact waited.timely other (events ▸ List.mem_cons_of_mem e mem)

end Expander.Simulation
