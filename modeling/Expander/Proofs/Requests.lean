import Expander.Proofs.Admission

/-!
Requests that a host puts together by itself.

A request names its size and carries data, and nothing makes the two agree: the ranges are checked
for the size, but a write that is accepted has the bytes of its data (`HostRequest.access`). When
there are no more of them than the size says, the request is turned away, or it does what an access
of the length of its data does (`Session.Standing.sendRequest_eq`).
-/

set_option autoImplicit false

namespace Expander

namespace HostRequest

/-- What is left of a request in its packet: a read has no data, and a write has the size of it. -/
def access (r : HostRequest) : Access :=
  match r.kind with
  | .read => .read r.addr r.size
  | .write => .write r.addr r.data

/-- A write has no more data than its size says. -/
def Fits (r : HostRequest) : Prop := r.kind = .write → r.data.length ≤ r.size

instance (r : HostRequest) : Decidable r.Fits := inferInstanceAs (Decidable (_ → _))

theorem access_request (access : Access) : access.request.access = access := by
  cases access <;> rfl

theorem fits_request (access : Access) : access.request.Fits := by
  cases access with
  | read addr size => exact nofun
  | write addr data => exact fun _ => Nat.le_refl _

variable {r : HostRequest}

theorem addr_access (r : HostRequest) : r.access.request.addr = r.addr := by
  rw [access]
  cases r.kind <;> rfl

theorem toPacket_access (r : HostRequest) (id : TransactionId) (now : Tick) :
    r.access.request.toPacket id now = r.toPacket id now := by
  rw [access, toPacket.eq_def r]
  cases r.kind <;> rfl

theorem size_access_le (fits : r.Fits) : r.access.request.size ≤ r.size := by
  rw [access]
  cases kind : r.kind with
  | read => exact Nat.le_refl _
  | write => exact fits kind

end HostRequest

theorem AddressRange.containsAccess_of_le {r : AddressRange} {addr size size' : Nat}
    (inside : r.containsAccess addr size = true) (le : size' ≤ size) :
    r.containsAccess addr size' = true := by
  rw [containsAccess_iff] at inside ⊢
  omega

theorem RequestWindow.burstCount_le (w : RequestWindow) (offset : Nat) {size size' : Nat}
    (le : size' ≤ size) : w.burstCount offset size' ≤ w.burstCount offset size := by
  refine Nat.add_le_add_right (Nat.div_le_div_right (Nat.sub_le_sub_right ?_ _)) 1
  omega

theorem Interconnect.eq_of_route_none {n n' : Interconnect} {addr size : Nat}
    (h : n.route addr size = (none, n')) : n' = n := by
  rw [route] at h
  split at h
  · cases h
  · split at h
    next => exact (Prod.mk.inj h).2.symm
    next index found =>
      obtain ⟨lt, -⟩ := List.findIdx?_eq_some_iff_getElem.1 found
      rw [List.getElem?_eq_getElem lt] at h
      cases h

theorem Interconnect.route_congr {n : Interconnect} {addr size size' : Nat}
    (same : ∀ r ∈ n.routes, takes addr size' r = takes addr size r) :
    n.route addr size' = n.route addr size := by
  have last : n.routes[n.lastHit]?.filter (takes addr size') =
      n.routes[n.lastHit]?.filter (takes addr size) := by
    cases found : n.routes[n.lastHit]? with
    | none => rfl
    | some r => simp only [Option.filter_some, same r (List.mem_of_getElem? found)]
  have first : n.routes.findIdx? (takes addr size') = n.routes.findIdx? (takes addr size) := by
    generalize n.routes = routes at same
    induction routes with
    | nil => rfl
    | cons r routes ih =>
      rw [List.forall_mem_cons] at same
      rw [List.findIdx?_cons, List.findIdx?_cons, same.1, ih same.2]
  rw [route, route, last, first]

namespace Simulation

variable {s : Simulation} {r : HostRequest} {e : SimError}

theorem turned_away (rejection : s.rejection? r = some e) :
    s.sendRequest r = (.error e, s) ∧ s.accessAtomic r = (.error e, s) := by
  rw [sendRequest, accessAtomic]
  cases check : s.window.check r with
  | error e' =>
    rw [rejection?, check] at rejection
    cases rejection
    exact ⟨rfl, rfl⟩
  | ok =>
    cases routed : s.fabric.interconnect.route r.addr r.size with
    | mk target n =>
      rw [rejection?_of_routed check routed] at rejection
      cases target with
      | some target => cases rejection
      | none =>
        cases rejection
        rw [Interconnect.eq_of_route_none routed]
        exact ⟨rfl, rfl⟩

theorem rejection?_eq_none {admission : Admission} (takes : (s.sendRequest r).1 = .ok admission) :
    s.rejection? r = none := by
  cases rejection : s.rejection? r with
  | none => rfl
  | some e =>
    rw [(turned_away rejection).1] at takes
    cases takes

theorem check_access (fits : r.Fits) (check : s.window.check r = .ok ()) :
    s.window.check r.access.request = .ok () := by
  rw [RequestWindow.check, r.addr_access]
  rw [RequestWindow.check] at check
  split at check
  · cases check
  next narrow =>
    rw [Bool.and_eq_true, decide_eq_true_eq, not_and, Nat.not_lt] at narrow
    refine if_neg ?_
    rw [Bool.and_eq_true, decide_eq_true_eq, not_and, Nat.not_lt]
    exact fun starts =>
      (s.window.burstCount_le _ (HostRequest.size_access_le fits)).trans (narrow starts)

end Simulation

/-- What a host does: a call, or a request of any make that it sends or has performed at once. -/
inductive HostAct where
  | call (call : HostCall)
  | send (r : HostRequest)
  | perform (r : HostRequest)
deriving DecidableEq, Repr

namespace Session

variable {h : Session} {r : HostRequest}

theorem Standing.route_eq {addr size size' : Nat} {target : ComponentId} {n : Interconnect}
    (standing : h.Standing)
    (routed : h.system.fabric.interconnect.route addr size = (some target, n))
    (le : size' ≤ size) : h.system.fabric.interconnect.route addr size' = (some target, n) := by
  rw [← routed]
  obtain ⟨taking, mem, -, inside⟩ := Interconnect.route_eq_some routed
  refine Interconnect.route_congr fun other mem' => ?_
  have starts := AddressRange.contains_of_containsAccess inside
  -- The other route has the same range, or one that shares no byte with it.
  have apart : other.range = taking.range ∨ taking.range.overlaps other.range = false := by
    have disjoint := standing.valid.disjoint
    rcases standing.routes taking mem with ⟨range, -⟩ | ⟨range, -⟩ <;>
      rcases standing.routes other mem' with ⟨range', -⟩ | ⟨range', -⟩ <;> rw [range, range']
    · exact .inl rfl
    · exact .inr disjoint
    · exact .inr ((AddressRange.overlaps_comm ..).trans disjoint)
    · exact .inl rfl
  rcases apart with same | apart
  · have part := AddressRange.containsAccess_of_le inside le
    rw [Interconnect.takes, Interconnect.takes, same, part, inside]
  · rw [Interconnect.takes, Interconnect.takes,
      AddressRange.not_containsAccess_of_apart apart starts,
      AddressRange.not_containsAccess_of_apart apart starts]

theorem Standing.sendRequest_eq (standing : h.Standing) (fits : r.Fits)
    (rejection : h.system.rejection? r = none) :
    h.system.rejection? r.access.request = none ∧
      h.system.sendRequest r = h.system.sendRequest r.access.request ∧
      h.system.accessAtomic r = h.system.accessAtomic r.access.request := by
  cases check : h.system.window.check r with
  | error e =>
    rw [Simulation.rejection?, check] at rejection
    cases rejection
  | ok =>
    cases routed : h.system.fabric.interconnect.route r.addr r.size with
    | mk target n =>
      rw [Simulation.rejection?_of_routed check routed] at rejection
      cases target with
      | none => cases rejection
      | some target =>
        have check' := Simulation.check_access fits check
        have routed' : h.system.fabric.interconnect.route r.access.request.addr
            r.access.request.size = (some target, n) := by
          rw [r.addr_access]
          exact standing.route_eq routed (HostRequest.size_access_le fits)
        refine ⟨Simulation.rejection?_of_routed check' routed', ?_, ?_⟩
        · rw [Simulation.sendRequest, Simulation.sendRequest, check, check', routed, routed']
          simp only [r.toPacket_access]
        · rw [Simulation.accessAtomic, Simulation.accessAtomic, check, check', routed, routed']
          simp only [r.toPacket_access]

def send (h : Session) (r : HostRequest) : Session :=
  match h.system.sendRequest r with
  | (.ok (.accepted id), system) =>
    { h with system, accepted := h.accepted ++ [⟨id, r.access, h.system.now⟩] }
  | (.ok (.retry _), system) => { h with system, unanswered := true }
  | (.error _, system) => { h with system }

def perform (h : Session) (r : HostRequest) : Session :=
  { h with system := (h.system.accessAtomic r).2 }

def act (h : Session) : HostAct → Session
  | .call call => h.after call
  | .send r => h.send r
  | .perform r => h.perform r

def acts (h : Session) (done : List HostAct) : Session := done.foldl act h

theorem acts_append (h : Session) (first second : List HostAct) :
    h.acts (first ++ second) = (h.acts first).acts second := List.foldl_append ..

theorem send_request (h : Session) (access : Access) :
    h.send access.request = h.after (.send access) := by
  cases sends : h.system.sendRequest access.request with
  | mk outcome system =>
    cases outcome with
    | error e => simp only [send, after, sends]
    | ok admission =>
      cases admission <;> simp only [send, after, sends, HostRequest.access_request]

theorem send_of_rejection {e : SimError} (rejection : h.system.rejection? r = some e) :
    h.send r = h := by
  rw [send, (Simulation.turned_away rejection).1]

theorem perform_of_rejection {e : SimError} (rejection : h.system.rejection? r = some e) :
    h.perform r = h := by
  rw [perform, (Simulation.turned_away rejection).2]

theorem Standing.send_eq (standing : h.Standing) (fits : r.Fits)
    (rejection : h.system.rejection? r = none) : h.send r = h.after (.send r.access) := by
  rw [← send_request, Session.send, (standing.sendRequest_eq fits rejection).2.1, Session.send,
    HostRequest.access_request]

theorem Standing.perform_eq (standing : h.Standing) (fits : r.Fits)
    (rejection : h.system.rejection? r = none) : h.perform r = h.after (.atomic r.access) := by
  rw [perform, (standing.sendRequest_eq fits rejection).2.2, Session.after]

/-- The states that a session passes through when its host makes requests of any make that fit. -/
inductive Attained (config : Config) : Session → Prop where
  | start {machine : Machine} {s : Simulation} :
      Simulation.create machine config = .ok s → Attained config (start s)
  | call {h : Session} (call : HostCall) : Attained config h → Attained config (h.after call)
  | send {h : Session} (r : HostRequest) : r.Fits → Attained config h →
      Attained config (h.send r)
  | perform {h : Session} (r : HostRequest) : r.Fits → Attained config h →
      Attained config (h.perform r)
  | event {h : Session} {s : Simulation} : Attained config h → h.system.Fires s →
      Attained config { h with system := s }

theorem Attained.reachable {config : Config} (attained : Attained config h) :
    Reachable config h := by
  induction attained with
  | start created => exact .start created
  | call call _ ih => exact .call call ih
  | @send h r fits _ ih =>
    cases rejection : h.system.rejection? r with
    | some e => rwa [send_of_rejection rejection]
    | none =>
      rw [ih.standing.send_eq fits rejection]
      exact .call _ ih
  | @perform h r fits _ ih =>
    cases rejection : h.system.rejection? r with
    | some e => rwa [perform_of_rejection rejection]
    | none =>
      rw [ih.standing.perform_eq fits rejection]
      exact .call _ ih
  | event _ fires ih => exact .event ih fires

theorem Standing.error_iff (standing : h.Standing) (fits : r.Fits) (e : SimError) :
    ((h.system.sendRequest r).1 = .error e ↔ h.system.rejection? r = some e) ∧
      ((h.system.accessAtomic r).1 = .error e ↔ h.system.rejection? r = some e) := by
  cases rejection : h.system.rejection? r with
  | some e' =>
    obtain ⟨sent, performed⟩ := Simulation.turned_away rejection
    simp [sent, performed]
  | none =>
    obtain ⟨taken, sent, performed⟩ := standing.sendRequest_eq fits rejection
    have sends := standing.sent r.access
    have performs := standing.performed r.access
    rw [sent, performed]
    generalize h.system.sendRequest r.access.request = outcome at sends ⊢
    generalize h.system.accessAtomic r.access.request = outcome' at performs ⊢
    constructor
    · cases sends with
      | rejected _ rejected => cases taken.symm.trans rejected
      | refused => simp
      | accepted => simp
    · cases performs with
      | rejected _ rejected => cases taken.symm.trans rejected
      | performed => simp

/-- A system whose bridge lets more pass than the device behind it serves, up to the last
address. -/
def wideBridge : Config := { bridge := { ranges := [⟨0x1000, lastAddress⟩] } }

end Session

end Expander
