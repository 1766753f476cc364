import Expander.Proofs.Housing
import Expander.Proofs.Stage.Renumbering

/-!
A system as another one whose path to the expander shows the same.

Two systems mirror each other if their stages of the expander are the same but for the numbers of
transactions, and so are the events and completions of these stages. What system memory does besides
is left out. An event of the expander keeps them so (`Mirrored.dispatch`), and an event of system
memory in one of them makes no difference (`Mirrored.memory`).
-/

set_option autoImplicit false

namespace Expander

def Completion.renumber (f : TransactionId → TransactionId) (c : Completion) : Completion :=
  { c with id := f c.id }

def ResolvedConfig.isExpanders (c : ResolvedConfig) (completion : Completion) : Bool :=
  c.device.range.contains completion.addr

def Event.isExpanders (e : Event) : Bool := decide (e.target ≠ 0)

theorem Fabric.stage?_setStage (f : Fabric) (id : ComponentId) (stage : Stage) :
    (f.setStage id stage).stage? id = (f.stage? id).map fun _ => stage := by
  simp only [stage?, setStage, List.getElem?_modify, if_pos]
  cases f.nodes[id]? <;> rfl

namespace Simulation

/-- The second system shows on the path to the expander what the first one shows, with other numbers
of transactions. -/
structure Mirrored (f : TransactionId → TransactionId) (s t : Simulation) : Prop where
  stages : ∀ id, id ≠ 0 → t.fabric.stage? id = (s.fabric.stage? id).map (Stage.renumber f)
  hostSides : ∀ id, t.fabric.hostSide? id = s.fabric.hostSide? id
  memorySides : ∀ id, t.fabric.memorySide? id = s.fabric.memorySide? id
  /-- System memory is nobody's neighbour. -/
  apart : ∀ id, s.fabric.memorySide? id ≠ some 0 ∧ s.fabric.hostSide? id ≠ some (.component 0)
  bus : t.fabric.bus = s.fabric.bus
  entrance : t.window = s.window ∧ t.fabric.interconnect.routes = s.fabric.interconnect.routes
  config : t.config = s.config
  now : t.now = s.now
  events : s.events.events = t.events.events.filter Event.isExpanders
  sorted : t.events.Sorted
  completions : t.completions.filter s.config.isExpanders =
    s.completions.map (Completion.renumber f)
  hostRetry : t.hostRetry = s.hostRetry

namespace Mirrored

variable {f : TransactionId → TransactionId} {s t : Simulation} {id : ComponentId}
  {stage : Stage} {p : Packet}

theorem setStage (h : Mirrored f s t) (ne : id ≠ 0) (stage : Stage) :
    Mirrored f (s.setStage id stage) (t.setStage id (stage.renumber f)) := by
  refine ⟨fun i pos => ?_, fun i => ?_, fun i => ?_, fun i => ?_, h.bus, h.entrance, h.config,
    h.now, h.events, h.sorted, h.completions, h.hostRetry⟩
  · by_cases eq : i = id
    · subst eq
      rw [Simulation.setStage, Simulation.setStage, Fabric.stage?_setStage, Fabric.stage?_setStage,
        h.stages i pos]
      cases s.fabric.stage? i <;> rfl
    · rw [Simulation.setStage, Simulation.setStage, Fabric.stage?_setStage_ne eq,
        Fabric.stage?_setStage_ne eq]
      exact h.stages i pos
  · simp only [Simulation.setStage, Fabric.hostSide?_setStage, h.hostSides]
  · simp only [Simulation.setStage, Fabric.memorySide?_setStage, h.memorySides]
  · simp only [Simulation.setStage, Fabric.hostSide?_setStage, Fabric.memorySide?_setStage]
    exact h.apart i

theorem wake (h : Mirrored f s t) (ne : id ≠ 0) (w : Wakeup) :
    Mirrored f (s.wake id w) (t.wake id w) := by
  refine { h with events := ?_, sorted := h.sorted.schedule _ }
  have keeps : Event.isExpanders ⟨max w.tick t.now, id, w.kind⟩ = true := decide_eq_true ne
  have inserted := filter_insertStable Event.isRanking_before h.sorted keeps
  rw [← h.events] at inserted
  have same : max w.tick s.now = max w.tick t.now := by rw [h.now]
  rw [Simulation.wake, same]
  exact inserted.symm

theorem wakes (h : Mirrored f s t) (ne : id ≠ 0) (wakes : List Wakeup) :
    Mirrored f (wakes.foldl (fun s w => s.wake id w) s)
      (wakes.foldl (fun s w => s.wake id w) t) := by
  induction wakes generalizing s t with
  | nil => exact h
  | cons w rest ih => exact ih (h.wake ne w)

theorem retryRequest (h : Mirrored f s t) (ne : id ≠ 0) :
    Mirrored f (s.retryRequest id) (t.retryRequest id) := by
  rw [Simulation.retryRequest, Simulation.retryRequest, h.stages id ne]
  cases s.fabric.stage? id with
  | none => exact h
  | some stage =>
    have told : (stage.renumber f).recvRequestRetry t.now =
        ((stage.recvRequestRetry s.now).1.renumber f, (stage.recvRequestRetry s.now).2) :=
      h.now ▸ stage.recvRequestRetry_renumber
    simp only [Option.map_some, told]
    exact (h.setStage ne _).wakes ne _

theorem retryResponse (h : Mirrored f s t) (ne : id ≠ 0) :
    Mirrored f (s.retryResponse id) (t.retryResponse id) := by
  rw [Simulation.retryResponse, Simulation.retryResponse, h.stages id ne]
  cases s.fabric.stage? id with
  | none => exact h
  | some stage =>
    have told : (stage.renumber f).recvResponseRetry t.now =
        ((stage.recvResponseRetry s.now).1.renumber f, (stage.recvResponseRetry s.now).2) :=
      h.now ▸ stage.recvResponseRetry_renumber
    simp only [Option.map_some, told]
    exact (h.setStage ne _).wakes ne _

theorem perform (h : Mirrored f s t) (ne : id ≠ 0) (action : Action) :
    Mirrored f (s.perform id action) (t.perform id action) := by
  cases action with
  | wake w => exact h.wake ne w
  | retryRequest =>
    rw [Simulation.perform, Simulation.perform, h.hostSides]
    have others := (h.apart id).2
    cases before : s.fabric.hostSide? id with
    | none => exact h
    | some peer =>
      cases peer with
      | host => exact { h with hostRetry := rfl }
      | component up => exact h.retryRequest fun eq => others (eq ▸ before)
  | retryResponse =>
    rw [Simulation.perform, Simulation.perform, h.memorySides]
    have others := (h.apart id).1
    cases behind : s.fabric.memorySide? id with
    | none => exact h
    | some down => exact h.retryResponse fun eq => others (eq ▸ behind)

theorem performs (h : Mirrored f s t) (ne : id ≠ 0) (actions : List Action) :
    Mirrored f (actions.foldl (Simulation.perform id) s)
      (actions.foldl (Simulation.perform id) t) := by
  induction actions generalizing s t with
  | nil => exact h
  | cons action rest ih => exact ih (h.perform ne action)

theorem settle (h : Mirrored f s t) (ne : id ≠ 0) (stage : Stage) (actions : List Action) :
    Mirrored f (s.settle id stage actions) (t.settle id (stage.renumber f) actions) :=
  (h.setStage ne stage).performs ne actions

theorem react (h : Mirrored f s t) (ne : id ≠ 0) {g g' : Stage → Stage × List Action}
    (same : ∀ stage, g' (stage.renumber f) = ((g stage).1.renumber f, (g stage).2)) :
    Mirrored f (s.react id g) (t.react id g') := by
  rw [Simulation.react, Simulation.react, h.stages id ne]
  cases s.fabric.stage? id with
  | none => exact h
  | some stage =>
    simp only [Option.map_some, same]
    exact h.settle ne _ _

theorem offerRequest (h : Mirrored f s t) (inj : Function.Injective f) (ne : id ≠ 0)
    (p : Packet) :
    (t.offerRequest id (p.renumber f)).1 = (s.offerRequest id p).1.renumber f ∧
      Mirrored f (s.offerRequest id p).2 (t.offerRequest id (p.renumber f)).2 := by
  rw [Simulation.offerRequest, Simulation.offerRequest, h.stages id ne]
  cases s.fabric.stage? id with
  | none => exact ⟨rfl, h⟩
  | some stage =>
    have reply : (stage.renumber f).recvRequest t.now (p.renumber f) =
        (stage.recvRequest s.now p).renumber (Stage.renumber f) f :=
      h.now ▸ stage.recvRequest_renumber inj
    simp only [Option.map_some, reply]
    exact ⟨rfl, h.settle ne _ _⟩

theorem offerResponse (h : Mirrored f s t) (ne : id ≠ 0) (p : Packet) :
    (t.offerResponse id (p.renumber f)).1 = (s.offerResponse id p).1.renumber f ∧
      Mirrored f (s.offerResponse id p).2 (t.offerResponse id (p.renumber f)).2 := by
  rw [Simulation.offerResponse, Simulation.offerResponse, h.stages id ne]
  cases s.fabric.stage? id with
  | none => exact ⟨rfl, h⟩
  | some stage =>
    have reply : (stage.renumber f).recvResponse t.now (p.renumber f) =
        (stage.recvResponse s.now p).renumber (Stage.renumber f) f :=
      h.now ▸ stage.recvResponse_renumber
    simp only [Option.map_some, reply]
    exact ⟨rfl, h.settle ne _ _⟩

theorem nameOf (h : Mirrored f s t) (ne : id ≠ 0) : t.fabric.nameOf id = s.fabric.nameOf id := by
  rw [Fabric.nameOf, Fabric.nameOf, h.stages id ne]
  cases s.fabric.stage? id with
  | none => rfl
  | some stage => exact stage.name_renumber

theorem takeRequest (h : Mirrored f s t) (ne : id ≠ 0) :
    (s.takeRequest id = none ∧ t.takeRequest id = none) ∨
    ∃ p left left', s.takeRequest id = some (p, left) ∧
      t.takeRequest id = some (p.renumber f, left') ∧ Mirrored f left left' := by
  rw [Simulation.takeRequest, Simulation.takeRequest, h.stages id ne]
  cases s.fabric.stage? id with
  | none => exact .inl ⟨rfl, rfl⟩
  | some stage =>
    have taken : (stage.renumber f).takeRequest t.now =
        (stage.takeRequest s.now).map fun r => (r.1.renumber f, r.2.renumber f) :=
      h.now ▸ stage.takeRequest_renumber
    simp only [Option.map_some, Option.bind_some, taken]
    cases stage.takeRequest s.now with
    | none => exact .inl ⟨rfl, rfl⟩
    | some head => exact .inr ⟨head.1, _, _, rfl, rfl, h.setStage ne head.2⟩

theorem forwardRequest (h : Mirrored f s t) (inj : Function.Injective f) (ne : id ≠ 0) :
    (t.forwardRequest id).1 = (s.forwardRequest id).1 ∧
      Mirrored f (s.forwardRequest id).2 (t.forwardRequest id).2 := by
  rw [Simulation.forwardRequest, Simulation.forwardRequest, h.memorySides]
  cases behind : s.fabric.memorySide? id with
  | none => exact ⟨rfl, h⟩
  | some down =>
    have inner : down ≠ 0 := fun eq => (h.apart id).1 (eq ▸ behind)
    rcases h.takeRequest ne with ⟨none, none'⟩ | ⟨p, left, left', took, took', mirrored⟩
    · simp only [none, none']
      exact ⟨trivial, h⟩
    · have offered := mirrored.offerRequest inj inner (p.arriveAt down s.now)
      have packet : (p.renumber f).arriveAt down t.now = (p.arriveAt down s.now).renumber f := by
        rw [h.now, Packet.renumber_arriveAt]
      simp only [took, took', packet]
      generalize left.offerRequest down (p.arriveAt down s.now) = outcome at offered ⊢
      generalize left'.offerRequest down ((p.arriveAt down s.now).renumber f) = outcome'
        at offered ⊢
      obtain ⟨answer, after⟩ := outcome
      obtain ⟨answer', after'⟩ := outcome'
      obtain ⟨rfl, mirrored'⟩ := offered
      cases answer with
      | accepted =>
        refine ⟨rfl, mirrored'.react ne fun stage => ?_⟩
        rw [h.now]
        exact stage.requestSent_renumber
      | busy back =>
        refine ⟨rfl, mirrored'.react ne fun stage => ?_⟩
        rw [h.now, Packet.renumber_dropLastHop, stage.requestRefused_renumber]
      | unroutable back =>
        refine ⟨?_, mirrored'⟩
        simp only [Delivery.renumber, mirrored'.nameOf inner]
        rfl

theorem takeResponse (h : Mirrored f s t) (ne : id ≠ 0) :
    (s.takeResponse id = none ∧ t.takeResponse id = none) ∨
    ∃ stage taken p left left', s.fabric.stage? id = some stage ∧
      stage.takeResponse s.now = some (p, taken) ∧ s.takeResponse id = some (p, left) ∧
      t.takeResponse id = some (p.renumber f, left') ∧ Mirrored f left left' := by
  rw [Simulation.takeResponse, Simulation.takeResponse, h.stages id ne]
  cases s.fabric.stage? id with
  | none => exact .inl ⟨rfl, rfl⟩
  | some stage =>
    have taken : (stage.renumber f).takeResponse t.now =
        (stage.takeResponse s.now).map fun r => (r.1.renumber f, r.2.renumber f) :=
      h.now ▸ stage.takeResponse_renumber
    simp only [Option.map_some, Option.bind_some, taken]
    cases head : stage.takeResponse s.now with
    | none => exact .inl ⟨rfl, rfl⟩
    | some first =>
      exact .inr ⟨stage, first.2, first.1, _, _, rfl, head, rfl, rfl, h.setStage ne first.2⟩

theorem transit (h : Mirrored f s t) (bytes : Nat) :
    t.fabric.interconnect.transitTime bytes = s.fabric.interconnect.transitTime bytes := by
  have bus := h.bus
  simp only [Fabric.bus, Prod.mk.injEq] at bus
  rw [Interconnect.transitTime, Interconnect.transitTime, bus.1, bus.2.1, bus.2.2]

theorem complete (h : Mirrored f s t) (inside : s.config.device.range.contains p.addr = true) :
    Mirrored f (s.complete p) (t.complete (p.renumber f)) := by
  refine { h with completions := ?_ }
  have transit : t.fabric.interconnect.transitTime (p.renumber f).payload =
      s.fabric.interconnect.transitTime p.payload := h.transit _
  have shows : s.config.isExpanders (Completion.ofResponse (p.renumber f)
      (t.now + t.fabric.interconnect.transitTime (p.renumber f).payload)) = true := inside
  simp only [Simulation.complete, List.filter_append, List.map_append]
  rw [h.completions, List.filter_cons_of_pos shows, transit, h.now]
  rfl

theorem forwardResponse (h : Mirrored f s t) (ne : id ≠ 0)
    (inside : ∀ stage taken p, s.fabric.stage? id = some stage →
      stage.takeResponse s.now = some (p, taken) →
        s.config.device.range.contains p.addr = true) :
    (t.forwardResponse id).1 = (s.forwardResponse id).1 ∧
      Mirrored f (s.forwardResponse id).2 (t.forwardResponse id).2 := by
  rw [Simulation.forwardResponse, Simulation.forwardResponse, h.hostSides]
  cases before : s.fabric.hostSide? id with
  | none => exact ⟨rfl, h⟩
  | some peer =>
    rcases h.takeResponse ne with ⟨none, none'⟩ |
      ⟨stage, taken, p, left, left', found, head, took, took', mirrored⟩
    · simp only [none, none']
      exact ⟨trivial, h⟩
    · simp only [took, took']
      have config : left.config = s.config := by
        rw [Simulation.takeResponse, found, Option.bind_some, head, Option.map_some] at took
        cases took
        rfl
      cases peer with
      | host =>
        refine ⟨rfl, (mirrored.complete ?_).react ne fun stage => ?_⟩
        · rw [config]
          exact inside stage taken p found head
        · rw [h.now]
          exact stage.responseSent_renumber
      | component up =>
        have inner : up ≠ 0 := fun eq => (h.apart id).2 (eq ▸ before)
        have offered := mirrored.offerResponse inner p
        simp only
        generalize left.offerResponse up p = outcome at offered ⊢
        generalize left'.offerResponse up (p.renumber f) = outcome' at offered ⊢
        obtain ⟨answer, after⟩ := outcome
        obtain ⟨answer', after'⟩ := outcome'
        obtain ⟨rfl, mirrored'⟩ := offered
        cases answer with
        | accepted =>
          refine ⟨rfl, mirrored'.react ne fun stage => ?_⟩
          rw [h.now]
          exact stage.responseSent_renumber
        | busy back =>
          refine ⟨rfl, mirrored'.react ne fun stage => ?_⟩
          rw [h.now, stage.responseRefused_renumber]
        | unroutable back =>
          refine ⟨?_, mirrored'⟩
          simp only [Delivery.renumber, mirrored'.nameOf inner]
          rfl

theorem dispatch (h : Mirrored f s t) (inj : Function.Injective f) {e : Event}
    (ne : e.target ≠ 0)
    (inside : ∀ stage taken p, s.fabric.stage? e.target = some stage →
      stage.takeResponse s.now = some (p, taken) →
        s.config.device.range.contains p.addr = true) :
    (t.dispatch e).1 = (s.dispatch e).1 ∧ Mirrored f (s.dispatch e).2 (t.dispatch e).2 := by
  rw [Simulation.dispatch, Simulation.dispatch]
  cases e.kind with
  | sendRequest => exact h.forwardRequest inj ne
  | sendResponse => exact h.forwardResponse ne inside
  | process =>
    refine ⟨rfl, h.react ne fun stage => ?_⟩
    rw [h.now]
    exact stage.process_renumber inj

theorem wait (h : Mirrored f s t) (now : Tick) :
    Mirrored f { s with now } { t with now } := { h with now := rfl }

theorem remembering (h : Mirrored f s t) (lastHit lastHit' : Nat) :
    Mirrored f (s.remembering lastHit) (t.remembering lastHit') := { h with }

theorem offered (h : Mirrored f s t) (next : f s.nextId = t.nextId) (access : Access)
    (target : ComponentId) :
    t.offered access target = (s.offered access target).renumber f := by
  rw [Simulation.offered, Simulation.offered, ← next, h.now, h.transit]
  cases access <;> rfl

theorem takeCompletions (h : Mirrored f s t) (ascending : StrictMono f) :
    t.takeCompletions.1.filter s.config.isExpanders =
        s.takeCompletions.1.map (Completion.renumber f) ∧
      Mirrored f s.takeCompletions.2 t.takeCompletions.2 := by
  have rank (a b : Completion) :
      completesBefore (a.renumber f) (b.renumber f) = completesBefore a b := by
    simp only [completesBefore, Completion.renumber, ascending.lt_iff_lt]
  have part (keep : Tick → Bool) : (t.completions.filter fun c => keep c.completed).filter
      s.config.isExpanders =
        (s.completions.filter fun c => keep c.completed).map (Completion.renumber f) := by
    rw [List.filter_comm, h.completions, List.filter_map]
    rfl
  constructor
  · rw [Simulation.takeCompletions, Simulation.takeCompletions,
      filter_sortStable isRanking_completesBefore, h.now]
    rw [part fun tick => decide (tick ≤ s.now), sortStable_map rank]
  · refine { h with completions := ?_ }
    simp only [Simulation.takeCompletions, h.now]
    exact part fun tick => !decide (tick ≤ s.now)

theorem memory_setStage (h : Mirrored f s t) (stage : Stage) :
    Mirrored f s (t.setStage 0 stage) := by
  refine ⟨fun i pos => ?_, fun i => ?_, fun i => ?_, h.apart, h.bus, h.entrance, h.config,
    h.now, h.events, h.sorted, h.completions, h.hostRetry⟩
  · rw [Simulation.setStage, Fabric.stage?_setStage_ne pos]
    exact h.stages i pos
  · rw [Simulation.setStage, Fabric.hostSide?_setStage]
    exact h.hostSides i
  · rw [Simulation.setStage, Fabric.memorySide?_setStage]
    exact h.memorySides i

theorem memory_wake (h : Mirrored f s t) (w : Wakeup) : Mirrored f s (t.wake 0 w) := by
  refine { h with events := ?_, sorted := h.sorted.schedule _ }
  have drops : Event.isExpanders ⟨max w.tick t.now, 0, w.kind⟩ = false :=
    decide_eq_false (absurd rfl)
  exact h.events.trans (filter_insertStable_of_not drops).symm

theorem memory_wakes (h : Mirrored f s t) {actions : List Action} (wakes : OnlyWakes actions) :
    Mirrored f s (t.performActions (asked 0 actions)) := by
  induction actions generalizing t with
  | nil => exact h
  | cons action rest ih =>
    obtain ⟨w, rfl⟩ := wakes action List.mem_cons_self
    exact ih (h.memory_wake w) fun a mem => wakes a (List.mem_cons_of_mem _ mem)

theorem memory_complete (h : Mirrored f s t)
    (outside : s.config.device.range.contains p.addr = false) : Mirrored f s (t.complete p) := by
  refine { h with completions := ?_ }
  have drops : s.config.isExpanders (Completion.ofResponse p
      (t.now + t.fabric.interconnect.transitTime p.payload)) = false := outside
  simp only [Simulation.complete, List.filter_append]
  rw [List.filter_cons_of_neg (drops ▸ Bool.false_ne_true), List.filter_nil, List.append_nil]
  exact h.completions

end Mirrored

theorem Fresh.mirrored {s : Simulation} (fresh : s.Fresh) (f : TransactionId → TransactionId) :
    Mirrored f s s := by
  have chained : Chained s.fabric.sites s.config.device.range := by
    rw [fresh.sites]
    exact fresh.valid.chained
  refine ⟨fun id _ => ?_, fun _ => rfl, fun _ => rfl,
    fun id => ⟨fun behind => ?_, fun before => ?_⟩, rfl, ⟨rfl, rfl⟩, rfl, rfl, ?_, ?_, ?_, rfl⟩
  · cases found : s.fabric.stage? id with
    | none => rfl
    | some stage =>
      have unnumbered : stage.renumber f = stage :=
        fresh.forall_stage (P := fun stage => stage.renumber f = stage) rfl rfl rfl
          (fun _ => rfl) found
      rw [Option.map_some, unnumbered]
  · exact Nat.lt_irrefl 0 (Fabric.stage_behind chained behind).2.1
  · cases (Fabric.stage_before chained before).1
  · rw [fresh.events]
    rfl
  · rw [fresh.events]
    exact List.Pairwise.nil
  · rw [fresh.completions]
    rfl

theorem Mirrored.memory {f : TransactionId → TransactionId} {s t after : Simulation}
    {expander : AddressRange} {kind : EventKind} {pending : List (ComponentId × Action)}
    (h : Mirrored f s t) (chained : Chained t.fabric.sites expander) (housed : t.Housed)
    (apart : s.config.system.memoryRange.overlaps s.config.device.range = false)
    (moves : t.Moved 0 kind after pending) : Mirrored f s (after.performActions pending) := by
  cases moves with
  | idle => exact h
  | request behind | requestBack behind =>
    obtain ⟨eq, -⟩ := Fabric.stage_behind chained behind
    cases eq
  | response before | responseBack before =>
    obtain ⟨-, pos, -⟩ := Fabric.stage_before chained before
    cases pos
  | @completed lower taken p _ found took =>
    have inside := (housed.leaving found took).1 rfl
    rw [h.config] at inside
    obtain ⟨m, rfl⟩ := Fabric.memory_of_first chained found
    obtain ⟨head, _, eq⟩ := Option.map_eq_some_iff.1 took
    cases eq
    have completed := h.memory_complete (AddressRange.not_contains_of_apart apart inside)
    exact (completed.memory_setStage _).memory_wakes (.map_wake _)
  | processed found =>
    obtain ⟨m, rfl⟩ := Fabric.memory_of_first chained found
    exact h.memory_setStage _

end Simulation

end Expander
