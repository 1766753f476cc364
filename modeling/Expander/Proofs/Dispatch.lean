import Expander.Proofs.Fabric
import Expander.Proofs.Outlet

/-!
Events as moves of a packet followed by the actions that the stages ask for.

What happens to the stages when an event is handled is one step: the packet is with the next stage
or back where it was. The wake-ups and retries that the two stages ask for come after that step
(`performActions`), and none of them moves a packet.
-/

set_option autoImplicit false

namespace Expander

def asked (id : ComponentId) (actions : List Action) : List (ComponentId × Action) :=
  actions.map fun action => (id, action)

theorem mem_asked {id i : ComponentId} {actions : List Action} {action : Action} :
    (i, action) ∈ asked id actions ↔ i = id ∧ action ∈ actions := by
  simp only [asked, List.mem_map, Prod.mk.injEq]
  grind

/-- The stage has only been told to send its packets again. -/
inductive Stage.Told (now : Tick) (s : Stage) : Stage → Prop where
  | still : Told now s s
  | request {s' : Stage} : Told now s s' → Told now s (s'.recvRequestRetry now).1
  | response {s' : Stage} : Told now s s' → Told now s (s'.recvResponseRetry now).1

theorem Stage.Told.trans {now : Tick} {s s' s'' : Stage} (first : s.Told now s')
    (second : s'.Told now s'') : s.Told now s'' := by
  induction second with
  | still => exact first
  | request _ ih => exact .request ih
  | response _ ih => exact .response ih

namespace Simulation

def setStage (s : Simulation) (id : ComponentId) (stage : Stage) : Simulation :=
  { s with fabric := s.fabric.setStage id stage }

def performActions (s : Simulation) (pending : List (ComponentId × Action)) : Simulation :=
  pending.foldl (fun s request => perform request.1 s request.2) s

def cargo (s : Simulation) : List StageView := s.fabric.nodes.map fun node => node.stage.view.calm

/-- The system has only been told to wake up or to retry. -/
structure SameBooks (s s' : Simulation) : Prop where
  sites : s'.fabric.sites = s.fabric.sites
  cargo : s'.cargo = s.cargo
  rest : ∃ nodes events hostRetry,
    s' = { s with fabric := { s.fabric with nodes }, events, hostRetry }

variable {s : Simulation} {id up down : ComponentId} {stage upper lower taken answered : Stage}
  {actions : List Action} {p back : Packet}

theorem performActions_append (s : Simulation) (first second : List (ComponentId × Action)) :
    s.performActions (first ++ second) = (s.performActions first).performActions second :=
  List.foldl_append ..

theorem settle_eq (s : Simulation) (id : ComponentId) (stage : Stage) (actions : List Action) :
    s.settle id stage actions = (s.setStage id stage).performActions (asked id actions) := by
  rw [settle, performActions, asked, List.foldl_map]
  rfl

theorem performActions_wakes (wakes : OnlyWakes actions) (s : Simulation) (id : ComponentId) :
    ∃ events, s.performActions (asked id actions) = { s with events } ∧
      ∀ fabric,
        { s with fabric }.performActions (asked id actions) = { s with fabric, events } := by
  induction actions generalizing s with
  | nil => exact ⟨s.events, rfl, fun _ => rfl⟩
  | cons action rest ih =>
    obtain ⟨w, rfl⟩ := wakes action List.mem_cons_self
    exact ih (fun a mem => wakes a (List.mem_cons_of_mem _ mem)) (s.wake id w)

theorem setStage_performActions (wakes : OnlyWakes actions) (s : Simulation) (id i : ComponentId)
    (stage : Stage) : (s.performActions (asked i actions)).setStage id stage =
      (s.setStage id stage).performActions (asked i actions) := by
  obtain ⟨events, eq, any⟩ := performActions_wakes wakes s i
  rw [eq, setStage, setStage, any]

theorem fabric_performActions (wakes : OnlyWakes actions) (s : Simulation) (i : ComponentId) :
    (s.performActions (asked i actions)).fabric = s.fabric := by
  obtain ⟨events, eq, -⟩ := performActions_wakes wakes s i
  rw [eq]

theorem SameBooks.refl (s : Simulation) : s.SameBooks s := ⟨rfl, rfl, _, _, _, rfl⟩

theorem SameBooks.trans {s s' s'' : Simulation} (h : s.SameBooks s') (h' : s'.SameBooks s'') :
    s.SameBooks s'' := by
  refine ⟨h'.sites.trans h.sites, h'.cargo.trans h.cargo, ?_⟩
  obtain ⟨nodes, events, hostRetry, rfl⟩ := h.rest
  obtain ⟨nodes', events', hostRetry', rfl⟩ := h'.rest
  exact ⟨nodes', events', hostRetry', rfl⟩

theorem sameBooks_setStage {old : Stage} (found : s.fabric.stage? id = some old)
    (calm : stage.view.calm = old.view.calm) : s.SameBooks (s.setStage id stage) := by
  have frame : stage.view.calm.frame = old.view.calm.frame := congrArg StageView.frame calm
  refine ⟨Fabric.sites_setStage found frame, ?_, _, _, _, rfl⟩
  obtain ⟨node, hnode, rfl⟩ := Fabric.stage?_eq_some.1 found
  refine List.ext_getElem? fun i => ?_
  simp only [cargo, setStage, Fabric.setStage, List.getElem?_map, List.getElem?_modify]
  split
  next eq =>
    subst eq
    simp [hnode, calm]
  next => cases s.fabric.nodes[i]? <;> rfl

theorem sameBooks_wake (s : Simulation) (id : ComponentId) (w : Wakeup) :
    s.SameBooks (s.wake id w) := ⟨rfl, rfl, _, _, _, rfl⟩

theorem sameBooks_wakes (s : Simulation) (id : ComponentId) (wakes : List Wakeup) :
    s.SameBooks (wakes.foldl (fun s w => s.wake id w) s) := by
  induction wakes generalizing s with
  | nil => exact .refl s
  | cons w rest ih => exact (sameBooks_wake s id w).trans (ih _)

theorem sameBooks_retryRequest (s : Simulation) (id : ComponentId) :
    s.SameBooks (s.retryRequest id) := by
  rw [retryRequest]
  split
  · exact .refl s
  · rename_i stage found
    have calm : (stage.recvRequestRetry s.now).1.view.calm = stage.view.calm := by
      cases stage <;> rfl
    exact (sameBooks_setStage found calm).trans (sameBooks_wakes _ id _)

theorem sameBooks_retryResponse (s : Simulation) (id : ComponentId) :
    s.SameBooks (s.retryResponse id) := by
  rw [retryResponse]
  split
  · exact .refl s
  · rename_i stage found
    have calm : (stage.recvResponseRetry s.now).1.view.calm = stage.view.calm := by
      cases stage <;> rfl
    exact (sameBooks_setStage found calm).trans (sameBooks_wakes _ id _)

theorem sameBooks_perform (s : Simulation) (id : ComponentId) (action : Action) :
    s.SameBooks (s.perform id action) := by
  cases action with
  | wake w => exact sameBooks_wake s id w
  | retryRequest =>
    rw [perform]
    split
    · exact .refl s
    · exact ⟨rfl, rfl, _, _, _, rfl⟩
    · exact sameBooks_retryRequest s _
  | retryResponse =>
    rw [perform]
    split
    · exact .refl s
    · exact sameBooks_retryResponse s _

theorem sameBooks_performActions (s : Simulation) (pending : List (ComponentId × Action)) :
    s.SameBooks (s.performActions pending) := by
  induction pending generalizing s with
  | nil => exact .refl s
  | cons request rest ih => exact (sameBooks_perform s request.1 request.2).trans (ih _)

theorem fabric_wakes (s : Simulation) (id : ComponentId) (wakes : List Wakeup) :
    (wakes.foldl (fun s w => s.wake id w) s).fabric = s.fabric := by
  induction wakes generalizing s with
  | nil => rfl
  | cons w rest ih => exact ih (s.wake id w)

/-- An action tells a stage to send again, or leaves all of them alone. -/
theorem told_perform {i : ComponentId} {action : Action}
    (found : (s.perform id action).fabric.stage? i = some stage) :
    ∃ before, s.fabric.stage? i = some before ∧ before.Told s.now stage := by
  have placed {j : ComponentId} {old new : Stage} {wakes : List Wakeup}
      (stands : s.fabric.stage? j = some old) (told : old.Told s.now new)
      (after : (wakes.foldl (fun (s : Simulation) w => s.wake j w)
        { s with fabric := s.fabric.setStage j new }).fabric.stage? i = some stage) :
      ∃ before, s.fabric.stage? i = some before ∧ before.Told s.now stage := by
    rw [fabric_wakes] at after
    rcases Fabric.stage?_setStage_cases stands after with ⟨rfl, rfl, before⟩ | ⟨-, before⟩
    · exact ⟨_, before, told⟩
    · exact ⟨_, before, .still⟩
  cases action with
  | wake w => exact ⟨stage, found, .still⟩
  | retryRequest =>
    rw [perform] at found
    split at found
    · exact ⟨stage, found, .still⟩
    · exact ⟨stage, found, .still⟩
    · rw [retryRequest] at found
      split at found
      · exact ⟨stage, found, .still⟩
      next stands => exact placed stands (.request .still) found
  | retryResponse =>
    rw [perform] at found
    split at found
    · exact ⟨stage, found, .still⟩
    · rw [retryResponse] at found
      split at found
      · exact ⟨stage, found, .still⟩
      next stands => exact placed stands (.response .still) found

theorem told_performActions {i : ComponentId} (pending : List (ComponentId × Action))
    (found : (s.performActions pending).fabric.stage? i = some stage) :
    ∃ before, s.fabric.stage? i = some before ∧ before.Told s.now stage := by
  induction pending generalizing s with
  | nil => exact ⟨stage, found, .still⟩
  | cons request rest ih =>
    obtain ⟨nodes, events, hostRetry, eq⟩ := (sameBooks_perform s request.1 request.2).rest
    have now : (s.perform request.1 request.2).now = s.now := by rw [eq]
    obtain ⟨told, found', later⟩ := ih found
    obtain ⟨before, found'', first⟩ := told_perform found'
    exact ⟨before, found'', first.trans (now ▸ later)⟩

private theorem react_taken {i : ComponentId} (ne : id ≠ i)
    (found : s.fabric.stage? id = some stage) (wakes : OnlyWakes actions)
    (f : Stage → Stage × List Action) :
    (({ s with fabric := s.fabric.setStage id taken }.setStage i answered).performActions
        (asked i actions)).react id f =
      ((s.setStage i answered).setStage id (f taken).1).performActions
        (asked i actions ++ asked id (f taken).2) := by
  have stays : ((s.fabric.setStage id taken).setStage i answered).stage? id = some taken := by
    rw [Fabric.stage?_setStage_ne ne, Fabric.stage?_setStage_self found]
  have same : ({ s with fabric := s.fabric.setStage id taken }.setStage i answered).setStage id
      (f taken).1 = (s.setStage i answered).setStage id (f taken).1 := by
    simp only [setStage]
    rw [Fabric.setStage_comm _ ne, Fabric.setStage_self]
  rw [react, fabric_performActions wakes]
  simp only [setStage, stays]
  rw [settle_eq, setStage_performActions wakes, performActions_append]
  exact congrArg (fun moved : Simulation =>
    (moved.performActions (asked i actions)).performActions (asked id (f taken).2)) same

theorem forwardRequest_accepted (behind : s.fabric.memorySide? id = some down) (ne : id ≠ down)
    (hupper : s.fabric.stage? id = some upper) (hlower : s.fabric.stage? down = some lower)
    (took : upper.takeRequest s.now = some (p, taken))
    (reply : lower.recvRequest s.now (p.arriveAt down s.now) = ⟨answered, actions, .accepted⟩)
    (wakes : OnlyWakes actions) :
    s.forwardRequest id = (.ok (),
      ((s.setStage down answered).setStage id (taken.requestSent s.now).1).performActions
        (asked down actions ++ asked id (taken.requestSent s.now).2)) := by
  have stays : (s.fabric.setStage id taken).stage? down = some lower := by
    rw [Fabric.stage?_setStage_ne ne.symm, hlower]
  simp only [forwardRequest, behind, takeRequest, hupper, Option.bind_some, took, Option.map_some,
    offerRequest, stays, reply, settle_eq]
  rw [react_taken ne hupper wakes]

theorem forwardRequest_refused (behind : s.fabric.memorySide? id = some down) (ne : id ≠ down)
    (hupper : s.fabric.stage? id = some upper) (hlower : s.fabric.stage? down = some lower)
    (took : upper.takeRequest s.now = some (p, taken))
    (reply : lower.recvRequest s.now (p.arriveAt down s.now) = ⟨answered, [], .busy back⟩) :
    s.forwardRequest id = (.ok (),
      (s.setStage down answered).setStage id (taken.requestRefused s.now back.dropLastHop)) := by
  have stays : (s.fabric.setStage id taken).stage? down = some lower := by
    rw [Fabric.stage?_setStage_ne ne.symm, hlower]
  simp only [forwardRequest, behind, takeRequest, hupper, Option.bind_some, took, Option.map_some,
    offerRequest, stays, reply, settle_eq]
  rw [react_taken ne hupper .nil]
  rfl

theorem forwardRequest_idle (hupper : s.fabric.stage? id = some upper)
    (idle : s.fabric.memorySide? id = none ∨ upper.takeRequest s.now = none) :
    s.forwardRequest id = (.ok (), s) := by
  rw [forwardRequest]
  split
  · rfl
  · rename_i down behind
    have none : upper.takeRequest s.now = none := idle.resolve_left (by simp [behind])
    simp [takeRequest, hupper, none]

theorem forwardResponse_accepted (before : s.fabric.hostSide? id = some (.component up))
    (ne : id ≠ up) (hlower : s.fabric.stage? id = some lower)
    (hupper : s.fabric.stage? up = some upper)
    (took : lower.takeResponse s.now = some (p, taken))
    (reply : upper.recvResponse s.now p = ⟨answered, actions, .accepted⟩)
    (wakes : OnlyWakes actions) :
    s.forwardResponse id = (.ok (),
      ((s.setStage up answered).setStage id (taken.responseSent s.now).1).performActions
        (asked up actions ++ asked id (taken.responseSent s.now).2)) := by
  have stays : (s.fabric.setStage id taken).stage? up = some upper := by
    rw [Fabric.stage?_setStage_ne ne.symm, hupper]
  simp only [forwardResponse, before, takeResponse, hlower, Option.bind_some, took, Option.map_some,
    offerResponse, stays, reply, settle_eq]
  rw [react_taken ne hlower wakes]

theorem forwardResponse_refused (before : s.fabric.hostSide? id = some (.component up))
    (ne : id ≠ up) (hlower : s.fabric.stage? id = some lower)
    (hupper : s.fabric.stage? up = some upper)
    (took : lower.takeResponse s.now = some (p, taken))
    (reply : upper.recvResponse s.now p = ⟨answered, [], .busy back⟩) :
    s.forwardResponse id = (.ok (),
      (s.setStage up answered).setStage id (taken.responseRefused s.now back)) := by
  have stays : (s.fabric.setStage id taken).stage? up = some upper := by
    rw [Fabric.stage?_setStage_ne ne.symm, hupper]
  simp only [forwardResponse, before, takeResponse, hlower, Option.bind_some, took, Option.map_some,
    offerResponse, stays, reply, settle_eq]
  rw [react_taken ne hlower .nil]
  rfl

theorem forwardResponse_host (host : s.fabric.hostSide? id = some .host)
    (hlower : s.fabric.stage? id = some lower)
    (took : lower.takeResponse s.now = some (p, taken)) :
    s.forwardResponse id = (.ok (),
      ((s.complete p).setStage id (taken.responseSent s.now).1).performActions
        (asked id (taken.responseSent s.now).2)) := by
  have stays : (s.fabric.setStage id taken).stage? id = some taken :=
    Fabric.stage?_setStage_self hlower
  simp only [forwardResponse, host, takeResponse, hlower, Option.bind_some, took, Option.map_some,
    react, complete, stays, settle_eq, setStage, Fabric.setStage_self]
  rfl

theorem forwardResponse_idle (hlower : s.fabric.stage? id = some lower)
    (none : lower.takeResponse s.now = none) : s.forwardResponse id = (.ok (), s) := by
  rw [forwardResponse]
  split
  · rfl
  · simp [takeResponse, hlower, none]

theorem react_eq (found : s.fabric.stage? id = some stage) (f : Stage → Stage × List Action) :
    s.react id f = (s.setStage id (f stage).1).performActions (asked id (f stage).2) := by
  rw [react, found]
  exact settle_eq s id (f stage).1 (f stage).2

end Simulation

end Expander
