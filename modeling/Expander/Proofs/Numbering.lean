import Expander.Proofs.Admission
import Expander.Proofs.Stage.ResponseOrder

/-!
The numbers of responses in every state of a session.

What is kept by every call of a stage is kept by the events and the calls of the host, which are
made of them (`lasts_stages`): the responses of the controller always have numbers of their own
(`Reachable.numbered`).
-/

set_option autoImplicit false

namespace Expander

namespace Fabric

theorem stage?_setStage_or {f : Fabric} {id i : ComponentId} {stage found : Stage}
    (after : (f.setStage id stage).stage? i = some found) :
    found = stage ∨ f.stage? i = some found := by
  by_cases eq : i = id
  · subst eq
    left
    obtain ⟨node, at_i, rfl⟩ := stage?_eq_some.1 after
    simp only [setStage, List.getElem?_modify, if_pos] at at_i
    obtain ⟨old, -, rfl⟩ := Option.map_eq_some_iff.1 at_i
    rfl
  · rw [stage?_setStage_ne eq] at after
    exact .inr after

end Fabric

/-- What every call of a stage keeps. A packet that was taken is sent, or handed back. -/
structure Stage.Keeps (P : Stage → Prop) : Prop where
  recvRequest : ∀ {s s' : Stage} {now : Tick} {p : Packet} {actions : List Action}
    {delivery : Delivery}, P s → s.recvRequest now p = ⟨s', actions, delivery⟩ → P s'
  recvResponse : ∀ {s s' : Stage} {now : Tick} {p : Packet} {actions : List Action}
    {delivery : Delivery}, P s → s.recvResponse now p = ⟨s', actions, delivery⟩ → P s'
  requestSent : ∀ {s s' : Stage} {now : Tick} {p : Packet}, P s →
    s.takeRequest now = some (p, s') → P (s'.requestSent now).1
  requestRefused : ∀ {s s' : Stage} {now : Tick} {p : Packet} (q : Packet), P s →
    s.takeRequest now = some (p, s') → P (s'.requestRefused now q)
  responseSent : ∀ {s s' : Stage} {now : Tick} {p : Packet}, P s →
    s.takeResponse now = some (p, s') → P (s'.responseSent now).1
  responseRefused : ∀ {s s' : Stage} {now : Tick} {p : Packet} (q : Packet), P s →
    s.takeResponse now = some (p, s') → P (s'.responseRefused now q)
  recvRequestRetry : ∀ {s : Stage} (now : Tick), P s → P (s.recvRequestRetry now).1
  recvResponseRetry : ∀ {s : Stage} (now : Tick), P s → P (s.recvResponseRetry now).1
  process : ∀ {s : Stage} (now : Tick), P s → P (s.process now).1
  accessAtomic : ∀ {s : Stage} (p : Packet), P s → P (s.accessAtomic p).2.2
  withStore : ∀ {s : Stage} (store : Store), P s → P (s.withStore store)

namespace Simulation

def All (P : Stage → Prop) (s : Simulation) : Prop :=
  ∀ id stage, s.fabric.stage? id = some stage → P stage

def Numbered (s : Simulation) : Prop :=
  ∀ id stage, s.fabric.stage? id = some stage → stage.Numbered

variable {P : Stage → Prop} {s s' after : Simulation} {id : ComponentId} {stage : Stage}
  {kind : EventKind} {pending : List (ComponentId × Action)}

theorem All.setStage (h : s.All P) (holds : P stage) : (s.setStage id stage).All P := by
  intro i found after
  rcases Fabric.stage?_setStage_or after with rfl | before
  · exact holds
  · exact h i found before

theorem All.performActions (keeps : Stage.Keeps P) (h : s.All P)
    (pending : List (ComponentId × Action)) : (s.performActions pending).All P := by
  intro i stage found
  obtain ⟨before, stands, told⟩ := told_performActions pending found
  clear found
  induction told with
  | still => exact h i before stands
  | request _ ih => exact keeps.recvRequestRetry s.now ih
  | response _ ih => exact keeps.recvResponseRetry s.now ih

theorem All.moved (keeps : Stage.Keeps P) (h : s.All P) (moves : s.Moved id kind after pending) :
    after.All P := by
  cases moves with
  | idle => exact h
  | request behind hupper hlower took reply =>
    have answered := keeps.recvRequest (h _ _ hlower) reply
    exact (h.setStage answered).setStage (keeps.requestSent (h _ _ hupper) took)
  | requestBack behind hupper hlower took reply denies =>
    have refused := keeps.recvRequest (h _ _ hlower) reply
    exact (h.setStage refused).setStage (keeps.requestRefused _ (h _ _ hupper) took)
  | response before hlower hupper took reply =>
    have answered := keeps.recvResponse (h _ _ hupper) reply
    exact (h.setStage answered).setStage (keeps.responseSent (h _ _ hlower) took)
  | responseBack before hlower hupper took reply denies =>
    have refused := keeps.recvResponse (h _ _ hupper) reply
    exact (h.setStage refused).setStage (keeps.responseRefused _ (h _ _ hlower) took)
  | completed host hlower took =>
    exact All.setStage (fun i stage at_i => h i stage at_i)
      (keeps.responseSent (h _ _ hlower) took)
  | processed found => exact h.setStage (keeps.process s.now (h _ _ found))

end Simulation

namespace Session

variable {h : Session} {s : Simulation} {config : Config}

theorem Standing.moved (standing : h.Standing) (fires : h.system.Fires s) :
    ∃ e others moved pending, h.system.events.events = e :: others ∧
      (h.system.popped e others).Moved e.target e.kind moved pending ∧
      s = moved.performActions pending := by
  obtain ⟨e, others, events, handled⟩ := fires
  obtain ⟨moved, pending, moves, eq⟩ := Simulation.moved_dispatch
    (s := h.system.popped e others) standing.chained standing.attended.sound handled
  exact ⟨e, others, moved, pending, events, moves, eq⟩

theorem lasts_stages {P : Stage → Prop} (keeps : Stage.Keeps P) : Lasts (Simulation.All P) where
  fires standing holds fires := by
    obtain ⟨e, others, moved, pending, -, moves, rfl⟩ := standing.moved fires
    have popped : Simulation.All P (Simulation.popped _ e others) := holds
    exact (popped.moved keeps moves).performActions keeps pending
  eased _ _ _ holds := holds
  send access standing holds := by
    have offers := standing.offers access
    generalize Simulation.sendRequest _ _ = outcome at offers
    cases offers with
    | rejected lastHit => exact holds
    | refused lastHit rejection faced found leads reply denies =>
      exact Simulation.All.setStage (s := Simulation.remembering _ lastHit) holds
        (keeps.recvRequest (holds _ _ found) reply)
    | accepted lastHit rejection faced found leads reply =>
      refine Simulation.All.performActions keeps ?_ _
      exact Simulation.All.setStage (fun i stage at_i => holds i stage at_i)
        (keeps.recvRequest (holds _ _ found) reply)
  atomic access standing holds := by
    have performed := standing.performed access
    generalize Simulation.accessAtomic _ _ = outcome at performed
    cases performed with
    | rejected lastHit => exact holds
    | performed lastHit rejection found =>
      exact Simulation.All.setStage (fun i stage at_i => holds i stage at_i)
        (keeps.accessAtomic _ (holds _ _ found))
  load standing holds loaded := by
    obtain ⟨_, _, _, found, rfl⟩ := Simulation.load_eq_ok loaded
    exact holds.setStage (keeps.withStore _ (holds _ _ found))

theorem keeps_numbered : Stage.Keeps Stage.Numbered where
  recvRequest h reply := Stage.numbered_recvRequest h reply
  recvResponse h reply := Stage.numbered_recvResponse h reply
  requestSent _ took := Stage.numbered_requestSent took
  requestRefused _ _ took := Stage.numbered_requestRefused took
  responseSent h took := Stage.numbered_responseSent took h
  responseRefused _ h took := Stage.numbered_responseRefused took h
  recvRequestRetry _ h := Stage.numbered_recvRequestRetry h
  recvResponseRetry _ h := Stage.numbered_recvResponseRetry h
  process _ h := Stage.numbered_process h
  accessAtomic p h := Stage.numbered_accessAtomic h p
  withStore store h := Stage.numbered_withStore h store

theorem lasts_numbered : Lasts Simulation.Numbered := lasts_stages keeps_numbered

theorem Reachable.numbered (reachable : Reachable config h) : h.system.Numbered := by
  refine lasts_numbered.reachable (fun s created id stage found => ?_) reachable
  have fresh := Simulation.fresh_create created
  exact fresh.forall_stage (P := Stage.Numbered) trivial ⟨rfl, List.nodup_nil, nofun⟩ trivial
    (fun _ => trivial) found

end Session

end Expander
