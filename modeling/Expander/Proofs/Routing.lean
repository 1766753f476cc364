import Expander.Proofs.Admission

/-!
Where the interconnect sends an access.

The interconnect tries the route that it used last before it searches the others, and an insertion
moves routes to other places. But no two routes share an address, so that one route at most takes an
access (`Apart.eq_of_takes`), and it does not matter which of them is tried first. So an access goes
where a search of the routes alone would send it, whatever has been looked up before
(`routes_exactly`).
-/

set_option autoImplicit false

namespace Expander

/-- A call to an interconnect. -/
inductive RouteCall where
  | add (route : Route)
  | lookUp (addr size : Nat)

def RouteCall.isAdd : RouteCall → Bool
  | add _ => true
  | lookUp _ _ => false

namespace Interconnect

variable {n n' : Interconnect} {route r : Route} {call : RouteCall} {calls : List RouteCall}
  {addr size i j : Nat} {target : ComponentId}

def perform (n : Interconnect) : RouteCall → Interconnect
  | .add route => (n.addRoute route).toOption.getD n
  | .lookUp addr size => (n.route addr size).2

def after (n : Interconnect) (calls : List RouteCall) : Interconnect := calls.foldl perform n

def Sorted (n : Interconnect) : Prop :=
  n.routes.Pairwise fun a b => a.range.base ≤ b.range.base

def Apart (n : Interconnect) : Prop :=
  n.routes.Pairwise fun a b => a.range.overlaps b.range = false

def LeadsTo (n : Interconnect) (addr size : Nat) (target : ComponentId) : Prop :=
  ∃ (i : Nat) (r : Route), n.routes[i]? = some r ∧ takes addr size r = true ∧ r.target = target ∧
    ∀ (j : Nat) r', n.routes[j]? = some r' → takes addr size r' = true → j = i

/-- The interconnect keeps its routes in order, and sends every access where they lead. -/
structure Exact (n : Interconnect) : Prop where
  sorted : n.Sorted
  apart : n.Apart
  refuses : ∀ route, (∃ e, n.addRoute route = .error e) ↔
    ∃ r ∈ n.routes, r.range.overlaps route.range = true
  keeps : ∀ route e, n.addRoute route = .error e → n.perform (.add route) = n
  adds : ∀ route n', n.addRoute route = .ok n' →
    n.perform (.add route) = n' ∧ n'.routes.Perm (route :: n.routes)
  plain : ∀ addr size, (n.route addr size).1 = n.decode? addr size
  found : ∀ addr size target, (n.route addr size).1 = some target ↔ n.LeadsTo addr size target
  missing : ∀ addr size, (n.route addr size).1 = none ↔ ∀ r ∈ n.routes, takes addr size r = false

/-! ### Adding a route -/

theorem addRoute_cases (n : Interconnect) (route : Route) :
    (∃ e, n.addRoute route = .error e ∧ ∃ r ∈ n.routes, r.range.overlaps route.range = true) ∨
      (∀ r ∈ n.routes, r.range.overlaps route.range = false) ∧
        n.addRoute route = .ok { n with
          routes := insertStable (fun a b => decide (a.range.base < b.range.base)) route n.routes
          lastHit := 0 } := by
  rw [addRoute]
  cases found : n.routes.find? fun r => r.range.overlaps route.range with
  | some other =>
    have overlaps : other.range.overlaps route.range = true := by simpa using List.find?_some found
    exact .inl ⟨_, rfl, other, List.mem_of_find?_eq_some found, overlaps⟩
  | none =>
    exact .inr ⟨fun r mem => Bool.eq_false_iff.2 (List.find?_eq_none.1 found r mem), rfl⟩

theorem refuses_iff : (∃ e, n.addRoute route = .error e) ↔
    ∃ r ∈ n.routes, r.range.overlaps route.range = true := by
  rcases n.addRoute_cases route with ⟨e, refused, shares⟩ | ⟨clear, added⟩
  · exact iff_of_true ⟨e, refused⟩ shares
  · refine iff_of_false ?_ ?_
    · rintro ⟨e, refused⟩
      cases added.symm.trans refused
    · rintro ⟨r, mem, shares⟩
      exact Bool.false_ne_true ((clear r mem).symm.trans shares)

theorem perform_of_error {e : ConfigError} (refused : n.addRoute route = .error e) :
    n.perform (.add route) = n := by
  rw [perform, refused]
  rfl

theorem perform_of_ok (added : n.addRoute route = .ok n') :
    n.perform (.add route) = n' ∧ n'.routes.Perm (route :: n.routes) := by
  refine ⟨by rw [perform, added]; rfl, ?_⟩
  rcases n.addRoute_cases route with ⟨e, refused, -⟩ | ⟨-, added'⟩
  · cases refused.symm.trans added
  · cases added'.symm.trans added
    exact insertStable_perm ..

theorem routes_perform_congr (same : n.routes = n'.routes) (route : Route) :
    (n.perform (.add route)).routes = (n'.perform (.add route)).routes := by
  rw [perform, perform, addRoute, addRoute, same]
  cases n'.routes.find? fun r => r.range.overlaps route.range with
  | some other => exact same
  | none => rfl

theorem routes_lookUp (n : Interconnect) (addr size : Nat) :
    (n.perform (.lookUp addr size)).routes = n.routes := routes_route rfl

/-! ### What every call keeps -/

theorem Sorted.perform (sorted : n.Sorted) (call : RouteCall) : (n.perform call).Sorted := by
  cases call with
  | lookUp addr size => rwa [Sorted, routes_lookUp]
  | add route =>
    rcases n.addRoute_cases route with ⟨e, refused, -⟩ | ⟨-, added⟩
    · rwa [perform_of_error refused]
    · rw [(perform_of_ok added).1]
      have order : InOrder (fun a b : Route => decide (a.range.base < b.range.base)) n.routes :=
        sorted.imp fun le => decide_eq_false (Nat.not_lt.2 le)
      have ordered := order.insertStable (.byKey fun r : Route => r.range.base) (a := route)
      exact ordered.imp fun notBefore => Nat.not_lt.1 (of_decide_eq_false notBefore)

theorem Apart.perform (apart : n.Apart) (call : RouteCall) : (n.perform call).Apart := by
  cases call with
  | lookUp addr size => rwa [Apart, routes_lookUp]
  | add route =>
    rcases n.addRoute_cases route with ⟨e, refused, -⟩ | ⟨clear, added⟩
    · rwa [perform_of_error refused]
    · obtain ⟨performed, perm⟩ := perform_of_ok added
      rw [performed, Apart, perm.pairwise_iff fun overlap => by
        rwa [AddressRange.overlaps_comm]]
      refine List.pairwise_cons.2 ⟨fun r mem => ?_, apart⟩
      rw [AddressRange.overlaps_comm]
      exact clear r mem

/-! ### Looking up an access -/

theorem Apart.eq_of_takes (apart : n.Apart) {r' : Route} (first : n.routes[i]? = some r)
    (second : n.routes[j]? = some r') (takes : takes addr size r = true)
    (takes' : Interconnect.takes addr size r' = true) : j = i := by
  have starts := AddressRange.contains_of_containsAccess takes
  have starts' := AddressRange.contains_of_containsAccess takes'
  obtain ⟨lt, rfl⟩ := List.getElem?_eq_some_iff.1 first
  obtain ⟨lt', rfl⟩ := List.getElem?_eq_some_iff.1 second
  have separate := List.pairwise_iff_getElem.1 apart
  rcases Nat.lt_trichotomy i j with before | rfl | behind
  · have outside : Interconnect.takes addr size n.routes[j] = false :=
      AddressRange.not_containsAccess_of_apart (separate i j lt lt' before) starts
    cases outside.symm.trans takes'
  · rfl
  · have outside : Interconnect.takes addr size n.routes[i] = false :=
      AddressRange.not_containsAccess_of_apart (separate j i lt' lt behind) starts'
    cases outside.symm.trans takes

theorem Apart.leadsTo_of_mem (apart : n.Apart) (mem : r ∈ n.routes)
    (takes : takes addr size r = true) : n.LeadsTo addr size r.target := by
  obtain ⟨i, lt, rfl⟩ := List.getElem_of_mem mem
  have found := List.getElem?_eq_getElem lt
  exact ⟨i, _, found, takes, rfl, fun j r' other takes' =>
    apart.eq_of_takes found other takes takes'⟩

theorem LeadsTo.unique {target' : ComponentId} (leads : n.LeadsTo addr size target)
    (leads' : n.LeadsTo addr size target') : target = target' := by
  obtain ⟨i, r, found, -, rfl, only⟩ := leads
  obtain ⟨j, r', found', takes', rfl, -⟩ := leads'
  cases only j r' found' takes'
  cases found.symm.trans found'
  rfl

theorem decode?_eq_none_iff :
    n.decode? addr size = none ↔ ∀ r ∈ n.routes, takes addr size r = false := by
  rw [decode?, Option.map_eq_none_iff, List.find?_eq_none]
  simp only [Bool.not_eq_true]

theorem Apart.route_eq_decode? (apart : n.Apart) (addr size : Nat) :
    (n.route addr size).1 = n.decode? addr size := by
  cases routed : n.route addr size with
  | mk answer n' =>
    cases answer with
    | none => exact ((route_eq_none_iff routed).1 rfl).symm
    | some target =>
      obtain ⟨r, mem, rfl, takes⟩ := route_eq_some routed
      cases plain : n.decode? addr size with
      | none => cases takes.symm.trans (decode?_eq_none_iff.1 plain r mem)
      | some target' =>
        obtain ⟨r', found, rfl⟩ := Option.map_eq_some_iff.1 plain
        have leads' := apart.leadsTo_of_mem (List.mem_of_find?_eq_some found)
          (List.find?_some found)
        exact congrArg some ((apart.leadsTo_of_mem mem takes).unique leads')

theorem Apart.decode?_eq_some_iff (apart : n.Apart) :
    n.decode? addr size = some target ↔ n.LeadsTo addr size target := by
  have leads {id : ComponentId} (plain : n.decode? addr size = some id) :
      n.LeadsTo addr size id := by
    obtain ⟨r, found, rfl⟩ := Option.map_eq_some_iff.1 plain
    exact apart.leadsTo_of_mem (List.mem_of_find?_eq_some found) (List.find?_some found)
  refine ⟨leads, fun there => ?_⟩
  cases plain : n.decode? addr size with
  | none =>
    obtain ⟨i, r, found, takes, -⟩ := there
    cases takes.symm.trans (decode?_eq_none_iff.1 plain r (List.mem_of_getElem? found))
  | some id => exact congrArg some ((leads plain).unique there)

/-! ### A history -/

theorem exact_after (sorted : n.Sorted) (apart : n.Apart) (calls : List RouteCall) :
    (n.after calls).Exact := by
  induction calls generalizing n with
  | cons call rest ih => exact ih (sorted.perform call) (apart.perform call)
  | nil =>
    exact {
      sorted := sorted
      apart := apart
      refuses := fun _ => refuses_iff
      keeps := fun _ _ => perform_of_error
      adds := fun _ _ => perform_of_ok
      plain := apart.route_eq_decode?
      found := fun _ _ _ => apart.route_eq_decode? .. ▸ apart.decode?_eq_some_iff
      missing := fun _ _ => apart.route_eq_decode? .. ▸ decode?_eq_none_iff }

theorem routes_after (same : n.routes = n'.routes) (calls : List RouteCall) :
    (n.after calls).routes = (n'.after (calls.filter RouteCall.isAdd)).routes := by
  induction calls generalizing n n' with
  | nil => exact same
  | cons call rest ih =>
    cases call with
    | add route => exact ih (routes_perform_congr same route)
    | lookUp addr size => exact ih ((routes_lookUp n addr size).trans same)

/-- Whatever routes are added and accesses looked up, in whatever order: the routes that were taken
in are in order and share no address, and an access goes to the target of the one route that takes
all of it, if there is one. Leaving all earlier accesses out does not change that. -/
theorem routes_exactly (width : Nat) (latency clock : Tick) (calls : List RouteCall) :
    let fresh : Interconnect := { width, latency, clock }
    (fresh.after calls).Exact ∧ ∀ addr size, ((fresh.after calls).route addr size).1 =
      ((fresh.after (calls.filter RouteCall.isAdd)).route addr size).1 := by
  intro fresh
  have exact' := exact_after (n := fresh) .nil .nil
  refine ⟨exact' calls, fun addr size => ?_⟩
  rw [(exact' calls).plain, (exact' _).plain, decode?, decode?, routes_after rfl calls]

/-- The route that was used last moves to another place when one is added in front of it. -/
example : (((Interconnect.mk 16 0 0 [] 0).after [.add ⟨⟨4096, 4096⟩, 1, "upper"⟩, .lookUp 4096 64,
    .add ⟨⟨0, 4096⟩, 2, "lower"⟩]).route 4096 64).1 = some 1 := by decide

end Interconnect

end Expander
