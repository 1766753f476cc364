import Expander.Proofs.Consistency
import Expander.Proofs.Numbering
import Expander.Proofs.Requests

/-!
Requests with and without queueing.

A host that offers requests one after the other, and offers again what is refused, has each of them
turned away or answered as a host that performs them at once (`agree_offers`). Whether a request is
turned away is decided by what no call changes. The bytes of a system that performs requests at once
are those of the plain memory that the answers of the other system show. All this is said of writes
with no more data than their size says: of the others, an offer may be accepted that is turned away
when it is performed at once.
-/

set_option autoImplicit false

namespace Expander

namespace Simulation

variable {s s' after : Simulation} {id : ComponentId} {kind : EventKind}
  {pending : List (ComponentId × Action)}

def entrance (s : Simulation) : RequestWindow × List Route :=
  (s.window, s.fabric.interconnect.routes)

theorem rejection?_congr (same : s'.entrance = s.entrance) (r : HostRequest) :
    s'.rejection? r = s.rejection? r := by
  obtain ⟨window, routes⟩ := Prod.mk.inj same
  rw [rejection?, rejection?, Interconnect.decode?, Interconnect.decode?, window, routes]

theorem entrance_performActions (s : Simulation) (pending : List (ComponentId × Action)) :
    (s.performActions pending).entrance = s.entrance := by
  obtain ⟨nodes, events, hostRetry, eq⟩ := (sameBooks_performActions s pending).rest
  rw [eq]
  rfl

theorem Moved.entrance (moves : s.Moved id kind after pending) : after.entrance = s.entrance := by
  cases moves <;> rfl

end Simulation

namespace Session

theorem lasts_entrance (entrance : RequestWindow × List Route) :
    Lasts fun s => s.entrance = entrance where
  fires standing same fires := by
    obtain ⟨e, others, moved, pending, -, moves, rfl⟩ := standing.moved fires
    exact (Simulation.entrance_performActions moved pending).trans (moves.entrance.trans same)
  eased _ _ _ same := same
  send access standing same := by
    have sent := standing.sent access
    generalize Simulation.sendRequest _ _ = outcome at sent
    cases sent with
    | rejected lastHit => exact same
    | refused lastHit => exact same
    | accepted lastHit => exact (Simulation.entrance_performActions _ _).trans same
  atomic access standing same := by
    have performed := standing.performed access
    generalize Simulation.accessAtomic _ _ = outcome at performed
    cases performed with
    | rejected lastHit => exact same
    | performed lastHit => exact same
  load standing same loaded := by
    obtain ⟨_, _, _, -, rfl⟩ := Simulation.load_eq_ok loaded
    exact same

end Session

theorem Shown.of_id {accepted before after : List Grant} {g : Grant} {t : Transaction}
    {data : List UInt8} (shown : Shown accepted t data)
    (ascending : accepted.Pairwise fun g w => g.id < w.id)
    (split : accepted = before ++ g :: after) (same : t.id = g.id) :
    t = g.transaction ∧ data = g.access.answer (replay before) := by
  obtain ⟨before', g', after', split', rfl, rfl⟩ := shown
  have id : g'.id = g.id := same
  have first : accepted.filter (fun w => decide (w.id < g.id)) = before :=
    split ▸ Session.filter_before (split ▸ ascending)
  have first' : accepted.filter (fun w => decide (w.id < g'.id)) = before' :=
    split' ▸ Session.filter_before (split' ▸ ascending)
  obtain rfl : before = before' := by rw [← first, ← first', id]
  cases List.append_cancel_left (split.symm.trans split')
  exact ⟨rfl, rfl⟩

def Stage.Reflects (m : PlainMemory) (stage : Stage) : Prop :=
  ∀ range, stage.view.frame.held? = some range → stage.view.Mirrors range m

def Simulation.Reflects (m : PlainMemory) (s : Simulation) : Prop :=
  ∀ id stage, s.fabric.stage? id = some stage → stage.Reflects m

theorem Simulation.Fresh.reflects {s : Simulation} (fresh : s.Fresh) : s.Reflects .zero := by
  intro id stage found
  refine fresh.forall_stage (P := Stage.Reflects .zero) ?_ ?_ nofun (fun _ => nofun) found
  · rintro range ⟨⟩
    exact ⟨rfl, _, rfl, Store.holds_blank _⟩
  · rintro range ⟨⟩
    exact ⟨rfl, _, rfl, Store.holds_blank _⟩

namespace Session

variable {h k : Session} {id other : ComponentId} {stage holder : Stage}
  {range apart : AddressRange}

theorem Standing.held_range (standing : h.Standing) (found : h.system.fabric.stage? id = some stage)
    (held : stage.view.frame.held? = some range) :
    (id = 0 ∧ range = h.system.config.system.memoryRange) ∨ (id = 1 ∧ range = h.expander) := by
  rcases Nat.eq_zero_or_pos id with rfl | pos
  · have site := standing.site found
    rw [ResolvedConfig.memorySite_first] at site
    have frame : stage.view.frame = h.system.config.memorySite.frame :=
      (congrArg Site.frame (Option.some.inj site)).symm
    rw [frame] at held
    exact .inl ⟨rfl, (Option.some.inj held).symm⟩
  · exact .inr ((Fabric.placed_stage standing.chained found).held pos range held)

theorem Standing.held_apart (standing : h.Standing) (ne : other ≠ id)
    (found : h.system.fabric.stage? id = some stage)
    (held : stage.view.frame.held? = some range)
    (found' : h.system.fabric.stage? other = some holder)
    (held' : holder.view.frame.held? = some apart) : apart.overlaps range = false := by
  have disjoint := standing.valid.disjoint
  rcases standing.held_range found held with ⟨rfl, rfl⟩ | ⟨rfl, rfl⟩ <;>
    rcases standing.held_range found' held' with ⟨rfl, rfl⟩ | ⟨rfl, rfl⟩
  · exact absurd rfl ne
  · exact (AddressRange.overlaps_comm ..).trans disjoint
  · exact disjoint
  · exact absurd rfl ne

theorem Standing.reflected {grants : List Grant} (standing : h.Standing)
    (reflects : h.system.Reflects (replay grants)) (access : Access) (id : TransactionId)
    (issued : Tick) {c : Completion} {s : Simulation}
    (performs : h.system.accessAtomic access.request = (.ok c, s)) :
    c.kind = access.request.kind ∧ c.addr = access.request.addr ∧
      c.data = access.answer (replay grants) ∧
      s.Reflects (replay (grants ++ [⟨id, access, issued⟩])) := by
  have performed := standing.performed access
  rw [performs] at performed
  cases performed with
  | @performed i range holder q _ lastHit _ found held inside view transaction data =>
    have mirrors := reflects i holder found range held
    refine ⟨congrArg Transaction.kind transaction, congrArg Transaction.addr transaction,
      data.trans (mirrors.answer inside), fun j stage at_j apart held' => ?_⟩
    rw [replay_concat]
    rcases Fabric.stage?_setStage_cases found at_j with ⟨rfl, rfl, -⟩ | ⟨ne, at_j⟩
    · rw [view] at held' ⊢
      cases held.symm.trans held'
      have received := mirrors.receive inside
      rw [StageView.receive_of_held held, replay_concat] at received
      exact ⟨received.held, received.store⟩
    · have separate := standing.held_apart ne found held at_j held'
      exact (reflects j stage at_j apart held').congr fun a mem =>
        Grant.perform_outside (g := ⟨id, access, issued⟩) inside separate mem

end Session

/-- The outcomes of requests that are performed at once, one after the other. -/
def Simulation.atomicOutcomes :
    Simulation → List HostRequest → List (Except SimError Completion)
  | _, [] => []
  | s, r :: rest => (s.accessAtomic r).1 :: (s.accessAtomic r).2.atomicOutcomes rest

/-- Whether the host makes no access of its own with the call, but lets time pass or collects what
has reached it. -/
def HostCall.waits : HostCall → Bool
  | runUntil _ | runUntilIdle | poll | take | takeRetry => true
  | send _ | atomic _ | load .. => false

namespace Session

/-- A host offers requests one after the other, and notes what becomes of them: the number of an
accepted one, or the error of one that is turned away. One that is refused is offered again, or the
request is that it was handed back; and at any time the host may wait before it goes on. -/
inductive Offers :
    Session → List HostRequest → List (Except SimError TransactionId) → Session → Prop where
  | stop (h : Session) (requests : List HostRequest) : Offers h requests [] h
  | wait {h h' : Session} {requests : List HostRequest}
      {outcomes : List (Except SimError TransactionId)} (call : HostCall) :
      call.waits = true → Offers (h.after call) requests outcomes h' →
      Offers h requests outcomes h'
  | refused {h h' : Session} {r : HostRequest} {rest : List HostRequest}
      {outcomes : List (Except SimError TransactionId)} (back again : HostRequest) :
      (h.system.sendRequest r).1 = .ok (.retry back) → again = r ∨ again = back →
      Offers (h.send r) (again :: rest) outcomes h' → Offers h (r :: rest) outcomes h'
  | accepted {h h' : Session} {r : HostRequest} {rest : List HostRequest}
      {outcomes : List (Except SimError TransactionId)} (id : TransactionId) :
      (h.system.sendRequest r).1 = .ok (.accepted id) →
      Offers (h.send r) rest outcomes h' → Offers h (r :: rest) (.ok id :: outcomes) h'
  | rejected {h h' : Session} {r : HostRequest} {rest : List HostRequest}
      {outcomes : List (Except SimError TransactionId)} (e : SimError) :
      (h.system.sendRequest r).1 = .error e →
      Offers (h.send r) rest outcomes h' → Offers h (r :: rest) (.error e :: outcomes) h'

/-- Both outcomes are the same error, or every completion of the accepted request shows what the
other one does. -/
def Agrees (produced : List Completion) :
    Except SimError TransactionId → Except SimError Completion → Prop
  | .error e, .error e' => e = e'
  | .ok id, .ok a =>
    ∀ c ∈ produced, c.id = id → c.kind = a.kind ∧ c.addr = a.addr ∧ c.data = a.data
  | .ok _, .error _ | .error _, .ok _ => False

/-- The host got for each request that it has offered what `performed` says, and gets it for the
next one. -/
structure Agreement (h : Session) (requests : List HostRequest)
    (outcomes : List (Except SimError TransactionId))
    (performed : List (Except SimError Completion)) : Prop where
  settled : List.Forall₂ (Agrees h.produced) outcomes (performed.take outcomes.length)
  /-- The next request is turned away if it is turned away there, and with the same error. -/
  next : ∀ r, requests[outcomes.length]? = some r → ∀ e,
    (h.system.sendRequest r).1 = .error e ↔ performed[outcomes.length]? = some (.error e)

variable {h k h' : Session} {requests rest : List HostRequest} {r : HostRequest} {access : Access}
  {outcomes : List (Except SimError TransactionId)} {performed : List (Except SimError Completion)}

theorem Agreement.cons {outcome : Except SimError TransactionId} {a : Except SimError Completion}
    (agrees : Agrees h.produced outcome a) (agreement : h.Agreement rest outcomes performed) :
    h.Agreement (r :: rest) (outcome :: outcomes) (a :: performed) where
  settled := .cons agrees agreement.settled
  next := agreement.next

theorem still_of_waits (h : Session) {call : HostCall} (waits : call.waits = true) :
    call.timed = true ∧ (h.after call).accepted = h.accepted := by
  cases call with
  | runUntil limit | runUntilIdle | poll | take | takeRetry => exact ⟨rfl, rfl⟩
  | send access | atomic access | load addr data => cases waits

def gained (h : Session) (access : Access) : Except SimError Admission → List Grant
  | .ok (.accepted id) => [⟨id, access, h.system.now⟩]
  | .ok (.retry _) | .error _ => []

theorem accepted_send (h : Session) (access : Access) : (h.after (.send access)).accepted =
    h.accepted ++ h.gained access (h.system.sendRequest access.request).1 := by
  rw [after]
  split
  next eq => rw [eq, gained]
  next eq => rw [eq, gained, List.append_nil]
  next eq => rw [eq, gained, List.append_nil]

theorem accepted_after (h : Session) (call : HostCall) :
    h.accepted <+: (h.after call).accepted := by
  cases call with
  | send access =>
    rw [accepted_send]
    exact List.prefix_append _ _
  | load addr data =>
    rw [after]
    split <;> exact List.prefix_rfl
  | atomic access | runUntil limit | runUntilIdle | poll | take | takeRetry =>
    exact List.prefix_rfl

theorem Standing.back_eq (standing : h.Standing) (fits : r.Fits) {back : HostRequest}
    (refuses : (h.system.sendRequest r).1 = .ok (.retry back)) : back = r.access.request := by
  rw [(standing.sendRequest_eq fits (Simulation.rejection?_eq_none refuses)).2.1] at refuses
  have sent := standing.sent r.access
  generalize h.system.sendRequest r.access.request = outcome at sent refuses
  cases sent with
  | rejected => cases refuses
  | refused =>
    cases refuses
    rfl
  | accepted => cases refuses

theorem Standing.fits_again (standing : h.Standing) {back again : HostRequest}
    (fits : ∀ q ∈ r :: rest, q.Fits) (refuses : (h.system.sendRequest r).1 = .ok (.retry back))
    (same : again = r ∨ again = back) : ∀ q ∈ again :: rest, q.Fits := by
  rw [List.forall_mem_cons] at fits ⊢
  refine ⟨?_, fits.2⟩
  rcases same with rfl | rfl
  · exact fits.1
  · exact standing.back_eq fits.1 refuses ▸ HostRequest.fits_request _

/-- One session comes after another while its host offers requests. -/
structure Onward (h h' : Session) : Prop where
  reaches : h.Reaches true h'
  /-- What was accepted stays accepted. -/
  accepted : h.accepted <+: h'.accepted
  entrance : h'.system.entrance = h.system.entrance

theorem Standing.onward (standing : h.Standing) : h.Onward h :=
  ⟨standing.refl, List.prefix_rfl, rfl⟩

theorem Onward.trans {h'' : Session} (first : h.Onward h') (second : h'.Onward h'') :
    h.Onward h'' :=
  ⟨first.reaches.trans second.reaches, first.accepted.trans second.accepted,
    second.entrance.trans first.entrance⟩

theorem Standing.onward_after (standing : h.Standing) {call : HostCall}
    (timed : call.timed = true) : h.Onward (h.after call) :=
  ⟨standing.after call fun _ => timed, accepted_after h call,
    (lasts_entrance h.system.entrance).after call standing rfl⟩

theorem Standing.onward_send (standing : h.Standing) (fits : r.Fits) : h.Onward (h.send r) := by
  cases rejection : h.system.rejection? r with
  | some e =>
    rw [send_of_rejection rejection]
    exact standing.onward
  | none =>
    rw [standing.send_eq fits rejection]
    exact standing.onward_after rfl

theorem Offers.onward (offers : Offers h requests outcomes h') (standing : h.Standing)
    (fits : ∀ r ∈ requests, r.Fits) : h.Onward h' := by
  induction offers with
  | stop => exact standing.onward
  | @wait h _ _ _ call waits _ ih =>
    have next := standing.onward_after (h.still_of_waits waits).1
    exact next.trans (ih next.reaches.standing fits)
  | @refused h _ r rest _ back again refuses same _ ih =>
    have next := standing.onward_send (fits r List.mem_cons_self)
    exact next.trans (ih next.reaches.standing (standing.fits_again fits refuses same))
  | accepted _ _ _ ih | rejected _ _ _ ih =>
    rw [List.forall_mem_cons] at fits
    have next := standing.onward_send fits.1
    exact next.trans (ih next.reaches.standing fits.2)

/-- A host that offers requests, and one that performs those at once that the first got
accepted. -/
structure Paired (h k : Session) : Prop where
  offering : h.Standing
  performing : k.Standing
  entrance : k.system.entrance = h.system.entrance
  reflects : k.system.Reflects (replay h.accepted)

namespace Paired

theorem rejection?_eq (paired : Paired h k) (r : HostRequest) :
    k.system.rejection? r = h.system.rejection? r :=
  Simulation.rejection?_congr paired.entrance r

theorem error_iff (paired : Paired h k) (fits : r.Fits) (e : SimError) :
    (h.system.sendRequest r).1 = .error e ↔ (k.system.accessAtomic r).1 = .error e := by
  rw [(paired.offering.error_iff fits e).1, (paired.performing.error_iff fits e).2,
    paired.rejection?_eq]

theorem after (paired : Paired h k) {call : HostCall} (timed : call.timed = true)
    (accepted : (h.after call).accepted = h.accepted) : Paired (h.after call) k := by
  have reaches : h.Reaches true (h.after call) := paired.offering.after call fun _ => timed
  refine ⟨reaches.standing, paired.performing, ?_, accepted.symm ▸ paired.reflects⟩
  rw [paired.entrance, (lasts_entrance h.system.entrance).after call paired.offering rfl]

theorem both (paired : Paired h k) (access : Access)
    (reflects : (k.after (.atomic access)).system.Reflects
      (replay (h.after (.send access)).accepted)) :
    Paired (h.after (.send access)) (k.after (.atomic access)) := by
  have sent : h.Reaches true (h.after (.send access)) :=
    paired.offering.after (.send access) fun _ => rfl
  have performed : k.Reaches false (k.after (.atomic access)) :=
    paired.performing.after (.atomic access) nofun
  refine ⟨sent.standing, performed.standing, ?_, reflects⟩
  have offered := (lasts_entrance h.system.entrance).after (.send access) paired.offering rfl
  rw [offered, (lasts_entrance k.system.entrance).after (.atomic access) paired.performing rfl,
    paired.entrance]

/-- What the first host gets accepted, the second one performs, as the plain memory does. -/
theorem accepted (paired : Paired h k) (fits : r.Fits) {id : TransactionId}
    (accepts : (h.system.sendRequest r).1 = .ok (.accepted id)) :
    Paired (h.send r) (k.perform r) ∧
      (h.send r).accepted = h.accepted ++ [⟨id, r.access, h.system.now⟩] ∧
      ∃ a, (k.system.accessAtomic r).1 = .ok a ∧ a.kind = r.access.request.kind ∧
        a.addr = r.access.request.addr ∧ a.data = r.access.answer (replay h.accepted) := by
  have rejection := Simulation.rejection?_eq_none accepts
  have rejection' := (paired.rejection?_eq r).trans rejection
  have performed := (paired.performing.sendRequest_eq fits rejection').2.2
  rw [paired.offering.send_eq fits rejection, paired.performing.perform_eq fits rejection']
  have granted : (h.after (.send r.access)).accepted =
      h.accepted ++ [⟨id, r.access, h.system.now⟩] := by
    rw [accepted_send, ← (paired.offering.sendRequest_eq fits rejection).2.1, accepts, gained]
  cases performs : k.system.accessAtomic r with
  | mk outcome s =>
    cases outcome with
    | error e =>
      have rejects := (paired.error_iff fits e).2 (congrArg Prod.fst performs)
      cases rejects.symm.trans accepts
    | ok a =>
      rw [performed] at performs
      obtain ⟨kind, addr, data, reflects⟩ :=
        paired.performing.reflected paired.reflects r.access id h.system.now performs
      refine ⟨paired.both r.access ?_, granted, a, rfl, kind, addr, data⟩
      rw [granted, Session.after, performs]
      exact reflects

theorem refused (paired : Paired h k) (fits : r.Fits) {back : HostRequest}
    (refuses : (h.system.sendRequest r).1 = .ok (.retry back)) : Paired (h.send r) k := by
  have rejection := Simulation.rejection?_eq_none refuses
  rw [(paired.offering.sendRequest_eq fits rejection).2.1] at refuses
  rw [paired.offering.send_eq fits rejection]
  refine paired.after rfl ?_
  rw [accepted_send, refuses, gained, List.append_nil]

end Paired

theorem Standing.alike (standing : h.Standing) (fits : r.Fits) {again : HostRequest}
    (rejection : h.system.rejection? r = none) (same : again = r ∨ again = r.access.request) :
    h.system.sendRequest r = h.system.sendRequest again ∧
      h.system.accessAtomic r = h.system.accessAtomic again := by
  rcases same with rfl | rfl
  · exact ⟨rfl, rfl⟩
  · exact (standing.sendRequest_eq fits rejection).2

theorem Agreement.alike {again : HostRequest}
    (agreement : h.Agreement (again :: rest) outcomes performed)
    (same : h.system.sendRequest r = h.system.sendRequest again) :
    h.Agreement (r :: rest) outcomes performed where
  settled := agreement.settled
  next := by
    intro first found e
    cases outcomes with
    | nil =>
      cases found
      rw [same]
      exact agreement.next again rfl e
    | cons outcome outcomes => exact agreement.next first found e

variable {system expander : AddressRange}

/-- From a pair of hosts on, what is offered has the outcome of what is performed at once. -/
theorem Offers.agreement (offers : Offers h requests outcomes h') (paired : Paired h k)
    (fits : ∀ r ∈ requests, r.Fits) (consistent : h'.ledger.Consistent system expander)
    (ascending : h'.accepted.Pairwise fun g w => g.id < w.id) :
    h'.Agreement requests outcomes (k.system.atomicOutcomes requests) := by
  induction offers generalizing k with
  | stop h requests =>
    refine ⟨.nil, fun r first e => ?_⟩
    cases requests with
    | nil => cases first
    | cons r rest =>
      cases first
      refine (paired.error_iff (fits r List.mem_cons_self) e).trans ?_
      simp [Simulation.atomicOutcomes]
  | @wait h _ _ _ call waits _ ih =>
    obtain ⟨timed, accepted⟩ := h.still_of_waits waits
    exact ih (paired.after timed accepted) fits consistent ascending
  | @refused h h' r rest outcomes back again refuses same later ih =>
    have fit : r.Fits := fits r List.mem_cons_self
    have fits' := paired.offering.fits_again fits refuses same
    have paired' := paired.refused fit refuses
    rw [paired.offering.back_eq fit refuses] at same
    -- Neither host turns the request away, now or later, so it may be offered in either form.
    have rejection := Simulation.rejection?_eq_none refuses
    have rejection' := (paired.rejection?_eq r).trans rejection
    have onward := (paired.offering.onward_send fit).trans (later.onward paired'.offering fits')
    have later' := (Simulation.rejection?_congr onward.entrance r).trans rejection
    have agreement := ih paired' fits' consistent ascending
    rw [Simulation.atomicOutcomes, (paired.performing.alike fit rejection' same).2,
      ← Simulation.atomicOutcomes]
    exact agreement.alike (onward.reaches.standing.alike fit later' same).1
  | @rejected h h' r rest outcomes e rejects _ ih =>
    rw [List.forall_mem_cons] at fits
    have rejection := (paired.offering.error_iff fits.1 e).1.1 rejects
    have rejection' := (paired.rejection?_eq r).trans rejection
    rw [Simulation.atomicOutcomes, (Simulation.turned_away rejection').2]
    rw [send_of_rejection rejection] at ih
    exact (ih paired fits.2 consistent ascending).cons rfl
  | @accepted h h' r rest outcomes id accepts later ih =>
    rw [List.forall_mem_cons] at fits
    obtain ⟨paired', granted, a, performs, kind, addr, data⟩ := paired.accepted fits.1 accepts
    refine (ih paired' fits.2 consistent ascending).cons ?_
    rw [performs]
    obtain ⟨more, grown⟩ := (later.onward paired'.offering fits.2).accepted
    rw [granted, List.append_assoc] at grown
    intro c mem same
    obtain ⟨transaction, shown⟩ :=
      (consistent.completed c (Multiset.mem_coe.2 mem)).of_id ascending grown.symm same
    exact ⟨(congrArg Transaction.kind transaction).trans kind.symm,
      (congrArg Transaction.addr transaction).trans addr.symm, shown.trans data.symm⟩

variable {machine : Machine} {config : Config} {s : Simulation}

/-- Requests that are offered one after the other have the outcomes of those that are performed at
once by a system of the same configuration. -/
theorem agree_offers (created : Simulation.create machine config = .ok s)
    (fits : ∀ r ∈ requests, r.Fits) (offers : Offers (start s) requests outcomes h') :
    h'.Agreement requests outcomes (s.atomicOutcomes requests) := by
  have standing := standing_start created
  have reaches := (offers.onward standing fits).reaches
  have paired : Paired (start s) (start s) :=
    ⟨standing, standing, rfl, (Simulation.fresh_create created).reflects⟩
  exact offers.agreement paired fits ((consistent_start created).steps reaches.steps)
    reaches.standing.balanced.ascending

def narrowController : Config :=
  { topology := .controller
    controller := { maxPendingReads := some 1, maxPendingWrites := some 1 } }

/-- Two writes of less data than their size, the second of them refused at first and offered again
as it was handed back; a read of what was written, one that is refused at first and offered again
unchanged, and one that no route takes. -/
theorem agree_refused_write : ∃ s, ∃ h' : Session,
    Simulation.create .standard narrowController = .ok s ∧
    h'.produced.map (fun c => (c.id, c.data)) = [(0, []), (1, []), (2, [7, 8]), (3, [0])] ∧
    h'.Agreement
      [⟨0x100000000, .write, 64, [7, 8]⟩, ⟨0x100000040, .write, 64, [9]⟩, .read 0x100000000 2,
        .read 0x100000080 1, .read 0xf0000000 1]
      [.ok 0, .ok 1, .ok 2, .ok 3, .error (.routing 0xf0000000 "interconnect")]
      (s.atomicOutcomes [⟨0x100000000, .write, 64, [7, 8]⟩, ⟨0x100000040, .write, 64, [9]⟩,
        .read 0x100000000 2, .read 0x100000080 1, .read 0xf0000000 1]) :=
  ⟨_, _, rfl, by decide +kernel,
    agree_offers (show Simulation.create .standard narrowController = _ from rfl) (by decide)
      (.accepted 0 (by decide +kernel)
        (.refused (.write 0x100000040 [9]) _ (by decide +kernel) (.inr rfl)
          (.wait .runUntilIdle rfl (.accepted 1 (by decide +kernel)
            (.accepted 2 (by decide +kernel)
              (.refused (.read 0x100000080 1) _ (by decide +kernel) (.inl rfl)
                (.wait .runUntilIdle rfl (.accepted 3 (by decide +kernel)
                  (.rejected _ (by decide +kernel)
                    (.wait .runUntilIdle rfl (.stop _ _)))))))))))⟩

/-- A write of more data than its size is accepted that is turned away when it is performed at once;
and behind a slow controller a write is completed soon, but performed at once it is completed at a
tick that no word of 64 bits holds. -/
theorem not_agree_overlong :
    (∃ s, Simulation.create .standard wideBridge = .ok s ∧
      let r : HostRequest := ⟨0x17fffffc0, .write, 64, List.replicate 128 1⟩
      (s.sendRequest r).1 = .ok (.accepted 0) ∧
        (s.accessAtomic r).1 = .error (.routing 0x17fffffc0 "cxl-device")) ∧
    ∃ s, Simulation.create .standard
        { topology := .controller, controller := { backendLatency := lastTick } } = .ok s ∧
      let access := Access.write 0x100000000 (List.replicate 64 0x5a)
      ((start s).run [.send access, .runUntilIdle]).produced.map (·.completed) = [19000] ∧
        ∃ c, (s.accessAtomic access.request).1 = .ok c ∧ lastTick < c.completed :=
  ⟨⟨_, rfl, by decide +kernel⟩, _, rfl, by decide +kernel, _, rfl, by decide +kernel⟩

end Session

end Expander
