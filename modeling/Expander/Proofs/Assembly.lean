import Expander.Proofs.Creation
import Expander.Proofs.Fabric

/-!
How a fabric is put together.

A fabric is assembled by calls that add a stage, link two of them or attach one to the host, in any
order and with any arguments. A link is made on both of its sides at once and is never taken back,
so that links stay one-to-one; a call that fails makes none.

Routes are another matter. The ranges of a component are routed one after the other, and when one is
refused, those before it stay (`Fabric.Spills`): they lead to a component that the host is not the
peer of. This is the only way in which a call that fails leaves a trace, and the only way in which a
route comes to lead to such a component (`Fabric.assembled_iff`).
-/

set_option autoImplicit false

namespace Expander

namespace Interconnect

variable {n n' : Interconnect} {route : Route} {range : AddressRange} {ranges : List AddressRange}
  {target : ComponentId} {name : String}

def Clear (n : Interconnect) (ranges : List AddressRange) : Prop :=
  (∀ route ∈ n.routes, ∀ range ∈ ranges, route.range.overlaps range = false) ∧
    ranges.Pairwise fun a b => a.overlaps b = false

instance : Decidable (n.Clear ranges) := inferInstanceAs (Decidable (_ ∧ _))

theorem clear_nil : n.Clear [] := ⟨nofun, .nil⟩

theorem clear_singleton :
    n.Clear [range] ↔ ∀ route ∈ n.routes, route.range.overlaps range = false := by
  simp [Clear]

theorem clear_cons (perm : n'.routes.Perm (route :: n.routes)) :
    n.Clear (route.range :: ranges) ↔ n.Clear [route.range] ∧ n'.Clear ranges := by
  simp only [Clear, perm.mem_iff, List.mem_cons, List.pairwise_cons, forall_eq_or_imp,
    List.not_mem_nil, List.Pairwise.nil, false_imp_iff, implies_true, and_true]
  constructor
  · rintro ⟨routed, head, tail⟩
    exact ⟨fun r mem => (routed r mem).1, ⟨head, fun r mem => (routed r mem).2⟩, tail⟩
  · rintro ⟨first, ⟨head, routed⟩, tail⟩
    exact ⟨fun r mem => ⟨first r mem, routed r mem⟩, head, tail⟩

theorem addRoute_of_clear (route : Route) (clear : n.Clear [route.range]) :
    ∃ n', n.addRoute route = .ok n' ∧ n'.routes.Perm (route :: n.routes) := by
  have none : (n.routes.find? fun r => r.range.overlaps route.range) = none :=
    List.find?_eq_none.2 fun r mem => Bool.eq_false_iff.1 (clear_singleton.1 clear r mem)
  rw [addRoute, none]
  exact ⟨_, rfl, insertStable_perm ..⟩

theorem addRoute_of_not_clear (route : Route) (blocked : ¬ n.Clear [route.range]) :
    ∃ e, n.addRoute route = .error e := by
  rw [addRoute]
  cases found : n.routes.find? fun r => r.range.overlaps route.range with
  | some other => exact ⟨_, rfl⟩
  | none =>
    refine absurd (clear_singleton.2 fun r mem => ?_) blocked
    exact Bool.eq_false_iff.2 (List.find?_eq_none.1 found r mem)

end Interconnect

namespace Fabric

open Interconnect (Clear clear_nil clear_singleton clear_cons)

variable {n : Interconnect} {ranges : List AddressRange} {target : ComponentId} {name : String}

def routesTo (target : ComponentId) (name : String) (ranges : List AddressRange) : List Route :=
  ranges.map fun range => ⟨range, target, name⟩

/-- What becomes of the routes of a list of ranges: the first of them that are clear are added, and
the call fails when one is left. -/
structure Routed (target : ComponentId) (name : String) (n : Interconnect)
    (ranges taken left : List AddressRange) (answer : Except ConfigError Unit)
    (n' : Interconnect) : Prop where
  split : ranges = taken ++ left
  clear : n.Clear taken
  routes : n'.routes.Perm (n.routes ++ routesTo target name taken)
  unchanged : taken = [] → n' = n
  answered : answer = .ok () ↔ left = []
  stops : ∀ range later, left = range :: later → ¬ n.Clear (taken ++ [range])

theorem routed_addRoutes (target : ComponentId) (name : String) (ranges : List AddressRange)
    (n : Interconnect) : ∃ taken left, Routed target name n ranges taken left
      (addRoutes target name ranges n).1 (addRoutes target name ranges n).2 := by
  induction ranges generalizing n with
  | nil =>
    refine ⟨[], [], rfl, clear_nil, ?_, fun _ => rfl, ?_, fun range later eq => ?_⟩
    · rw [routesTo, List.map_nil, List.append_nil]
      rfl
    · exact iff_of_true rfl rfl
    · cases eq
  | cons range rest ih =>
    let route : Route := ⟨range, target, name⟩
    by_cases clear : n.Clear [range]
    · obtain ⟨added, adds, perm⟩ := Interconnect.addRoute_of_clear route clear
      obtain ⟨taken, left, routed⟩ := ih added
      rw [addRoutes, adds]
      refine ⟨range :: taken, left, congrArg (range :: ·) routed.split,
        (clear_cons perm).2 ⟨clear, routed.clear⟩, ?_, (absurd · (List.cons_ne_nil _ _)),
        routed.answered, ?_⟩
      · have front : (added.routes ++ routesTo target name taken).Perm
            (route :: n.routes ++ routesTo target name taken) := perm.append_right _
        exact routed.routes.trans (front.trans List.perm_middle.symm)
      · intro next later eq all
        exact routed.stops next later eq ((clear_cons perm).1 all).2
    · obtain ⟨e, refused⟩ := Interconnect.addRoute_of_not_clear route clear
      rw [addRoutes, refused]
      refine ⟨[], range :: rest, rfl, clear_nil, ?_, fun _ => rfl, by simp, ?_⟩
      · rw [routesTo, List.map_nil, List.append_nil]
      · rintro next later eq
        cases eq
        exact clear

def Free (f : Fabric) (target : ComponentId) : Prop :=
  ∃ node, f.nodes[target]? = some node ∧ node.hostSide = none

def Spills (f : Fabric) (target : ComponentId) (ranges : List AddressRange) : Prop :=
  f.Free target ∧ (∃ first rest, ranges = first :: rest ∧ f.interconnect.Clear [first]) ∧
    ¬ f.interconnect.Clear ranges

/-- What an attempt to attach a component leads to. -/
inductive Attaches (f : Fabric) (target : ComponentId) (ranges : List AddressRange) :
    Except SimError Unit × Fabric → Prop
  | refused (e : SimError) (whole : ¬ f.Spills target ranges) :
    Attaches f target ranges (.error e, f)
  | spilled (e : SimError) (n : Interconnect) (name : String) (taken : List AddressRange)
    (spills : f.Spills target ranges) (some : taken ≠ [])
    (routes : n.routes.Perm (f.interconnect.routes ++ routesTo target name taken)) :
    Attaches f target ranges (.error e, { f with interconnect := n })
  | done (n : Interconnect) (name : String) (free : f.Free target)
    (clear : f.interconnect.Clear ranges)
    (routes : n.routes.Perm (f.interconnect.routes ++ routesTo target name ranges)) :
    Attaches f target ranges (.ok (),
      { nodes := f.nodes.modify target fun node => { node with hostSide := some .host }
        interconnect := n })

theorem clear_of_append {more : List AddressRange} (clear : n.Clear (ranges ++ more)) :
    n.Clear ranges :=
  ⟨fun route mem range within => clear.1 route mem range (List.mem_append_left _ within),
    (List.pairwise_append.1 clear.2).1⟩

theorem attaches_attachToHost (f : Fabric) (target : ComponentId) (ranges : List AddressRange) :
    f.Attaches target ranges (f.attachToHost target ranges) := by
  rw [attachToHost, Fabric.node]
  cases found : f.nodes[target]? with
  | none =>
    refine .refused _ fun spills => ?_
    obtain ⟨node, there, -⟩ := spills.1
    rw [found] at there
    cases there
  | some node =>
    cases side : node.hostSide with
    | some peer =>
      simp only [side, Option.isSome_some, if_true]
      refine .refused _ fun spills => ?_
      obtain ⟨other, there, free⟩ := spills.1
      rw [found] at there
      cases there
      rw [side] at free
      cases free
    | none =>
      have free : f.Free target := ⟨node, found, side⟩
      obtain ⟨taken, left, routed⟩ := routed_addRoutes target node.stage.name ranges f.interconnect
      simp only [side, Option.isSome_none, Bool.false_eq_true, if_false]
      generalize addRoutes target node.stage.name ranges f.interconnect = result at routed
      obtain ⟨answer, n⟩ := result
      cases left with
      | nil =>
        have all : ranges = taken := routed.split.trans (List.append_nil taken)
        cases routed.answered.2 rfl
        subst all
        exact .done n node.stage.name free routed.clear routed.routes
      | cons range later =>
        have blocked : ¬ f.interconnect.Clear ranges := fun clear => by
          rw [routed.split, List.append_cons] at clear
          exact routed.stops range later rfl (clear_of_append clear)
        cases answer with
        | ok => cases routed.answered.1 rfl
        | error e =>
          cases taken with
          | nil =>
            have same : n = f.interconnect := routed.unchanged rfl
            subst same
            refine .refused _ fun spills => ?_
            obtain ⟨first, rest, eq, clear⟩ := spills.2.1
            have eq' : range = first ∧ later = rest := List.cons.inj (routed.split.symm.trans eq)
            exact routed.stops range later rfl (eq'.1 ▸ clear)
          | cons first rest =>
            refine .spilled _ n node.stage.name (first :: rest) ⟨free, ⟨first, _, routed.split, ?_⟩,
              blocked⟩ (List.cons_ne_nil _ _) routed.routes
            have all : f.interconnect.Clear ([first] ++ rest) := routed.clear
            exact clear_of_append all

end Fabric

/-- A call to a fabric that is being assembled. -/
inductive AssemblyCall where
  | add (stage : Stage)
  | connect (up down : ComponentId)
  | attach (target : ComponentId) (ranges : List AddressRange)

namespace Fabric

variable {f f' : Fabric} {target up down i : ComponentId} {call : AssemblyCall}
  {calls : List AssemblyCall} {peer : Peer}

def perform (f : Fabric) : AssemblyCall → Except SimError Unit × Fabric
  | .add stage => (.ok (), (f.add stage).2)
  | .connect up down =>
    match f.connect up down with
    | .ok linked => (.ok (), linked)
    | .error e => (.error e, f)
  | .attach target ranges => f.attachToHost target ranges

def assemble (f : Fabric) (calls : List AssemblyCall) : Fabric :=
  calls.foldl (fun f call => (f.perform call).2) f

/-- Links have two sides that agree, and no stage is on the same side of two of them. -/
structure Paired (f : Fabric) : Prop where
  sides : ∀ up down, f.memorySide? up = some down ↔ f.hostSide? down = some (.component up)
  front : ∀ up up' down, f.memorySide? up = some down → f.memorySide? up' = some down → up = up'
  behind : ∀ up down down', f.hostSide? down = some (.component up) →
    f.hostSide? down' = some (.component up) → down = down'

theorem paired_of_sides
    (sides : ∀ up down, f.memorySide? up = some down ↔ f.hostSide? down = some (.component up)) :
    f.Paired where
  sides := sides
  front up up' down first second := by
    have same := ((sides up down).1 first).symm.trans ((sides up' down).1 second)
    exact Peer.component.inj (Option.some.inj same)
  behind up down down' first second :=
    Option.some.inj (((sides up down).2 first).symm.trans ((sides up down').2 second))

def Rooted (f : Fabric) : Prop :=
  ∀ route ∈ f.interconnect.routes, f.hostSide? route.target = some .host

def Atomic (f : Fabric) (call : AssemblyCall) : Prop :=
  ∀ e, (f.perform call).1 = .error e → (f.perform call).2 = f

/-- What a call takes over from the fabric before it. -/
structure Extends (f f' : Fabric) : Prop where
  hostSide : ∀ i peer, f.hostSide? i = some peer → f'.hostSide? i = some peer
  memorySide : ∀ i down, f.memorySide? i = some down → f'.memorySide? i = some down
  routes : ∀ route ∈ f.interconnect.routes, route ∈ f'.interconnect.routes

theorem Extends.refl (f : Fabric) : f.Extends f :=
  ⟨fun _ _ h => h, fun _ _ h => h, fun _ h => h⟩

theorem Extends.trans {f'' : Fabric} (first : f.Extends f') (second : f'.Extends f'') :
    f.Extends f'' where
  hostSide i peer h := second.hostSide i peer (first.hostSide i peer h)
  memorySide i down h := second.memorySide i down (first.memorySide i down h)
  routes route h := second.routes route (first.routes route h)

/-! ### The links after a call -/

theorem getElem?_add (stage : Stage) :
    (f.add stage).2.nodes[i]? = if i = f.nodes.length then some { stage } else f.nodes[i]? := by
  rw [add]
  rcases Nat.lt_trichotomy i f.nodes.length with before | rfl | behind
  · rw [if_neg (Nat.ne_of_lt before), List.getElem?_append_left before]
  · rw [if_pos rfl, List.getElem?_concat_length]
  · rw [if_neg (Nat.ne_of_gt behind), List.getElem?_eq_none (Nat.le_of_lt behind),
      List.getElem?_eq_none (by rw [List.length_append]; exact behind)]

@[simp] theorem hostSide?_add (stage : Stage) : (f.add stage).2.hostSide? i = f.hostSide? i := by
  rw [hostSide?, getElem?_add]
  split
  next last => rw [hostSide?, last, List.getElem?_eq_none (Nat.le_refl _)]; rfl
  next => rfl

@[simp] theorem memorySide?_add (stage : Stage) :
    (f.add stage).2.memorySide? i = f.memorySide? i := by
  rw [memorySide?, getElem?_add]
  split
  next last => rw [memorySide?, last, List.getElem?_eq_none (Nat.le_refl _)]; rfl
  next => rfl

theorem free_of_connect (h : f.connect up down = .ok f') :
    ∃ upper, f.nodes[up]? = some upper ∧ upper.memorySide = none ∧ f.Free down := by
  obtain ⟨upper, above, h⟩ := bind_eq_ok.1 h
  obtain ⟨lower, below, h⟩ := bind_eq_ok.1 h
  have above' : f.nodes[up]? = some upper := by
    rw [Fabric.node] at above
    split at above <;> cases above
    assumption
  have below' : f.nodes[down]? = some lower := by
    rw [Fabric.node] at below
    split at below <;> cases below
    assumption
  split at h
  · cases h
  next behind =>
    split at h
    · cases h
    next front =>
      exact ⟨upper, above', by simpa using behind, lower, below', by simpa using front⟩

theorem Free.hostSide? (free : f.Free target) :
    f.hostSide? target = none := by
  obtain ⟨node, found, side⟩ := free
  rw [Fabric.hostSide?, found]
  exact side

theorem hostSide?_connect (h : f.connect up down = .ok f') :
    f'.hostSide? i = if i = down then some (.component up) else f.hostSide? i := by
  obtain ⟨-, -, -, lower, below, -⟩ := free_of_connect h
  rw [connect_eq_ok h]
  simp only [hostSide?, List.getElem?_modify]
  by_cases last : i = down
  · subst last
    simp only [if_true, below]
    split <;> rfl
  · simp only [if_neg last, if_neg (Ne.symm last)]
    split <;> cases f.nodes[i]? <;> rfl

theorem memorySide?_connect (h : f.connect up down = .ok f') :
    f'.memorySide? i = if i = up then some down else f.memorySide? i := by
  obtain ⟨upper, above, -⟩ := free_of_connect h
  rw [connect_eq_ok h]
  simp only [memorySide?, List.getElem?_modify]
  by_cases last : i = up
  · subst last
    simp only [if_true, above]
    split <;> rfl
  · simp only [if_neg last, if_neg (Ne.symm last)]
    split <;> cases f.nodes[i]? <;> rfl

theorem interconnect_connect (h : f.connect up down = .ok f') :
    f'.interconnect = f.interconnect := by
  rw [connect_eq_ok h]

theorem hostSide?_attached (free : f.Free target)
    (nodes : f'.nodes = f.nodes.modify target fun node => { node with hostSide := some .host }) :
    f'.hostSide? i = (if i = target then some .host else f.hostSide? i) ∧
      f'.memorySide? i = f.memorySide? i := by
  obtain ⟨node, found, -⟩ := free
  simp only [hostSide?, memorySide?, nodes, List.getElem?_modify]
  by_cases last : i = target
  · subst last
    simp [found]
  · simp only [if_neg last, if_neg (Ne.symm last)]
    cases f.nodes[i]? <;> exact ⟨rfl, rfl⟩

/-! ### What every call keeps -/

theorem extends_perform (f : Fabric) (call : AssemblyCall) : f.Extends (f.perform call).2 := by
  cases call with
  | add stage =>
    refine ⟨fun i peer h => ?_, fun i down h => ?_, fun route h => h⟩
    · exact (hostSide?_add stage).trans h
    · exact (memorySide?_add stage).trans h
  | connect up down =>
    rw [perform]
    cases linked : f.connect up down with
    | error e => exact .refl f
    | ok f' =>
      obtain ⟨upper, above, open_, free⟩ := free_of_connect linked
      refine ⟨fun i peer h => ?_, fun i lower h => ?_, fun route h => ?_⟩
      · rw [hostSide?_connect linked, if_neg, h]
        rintro rfl
        rw [free.hostSide?] at h
        cases h
      · rw [memorySide?_connect linked, if_neg, h]
        rintro rfl
        rw [memorySide?, above] at h
        cases open_.symm.trans h
      · rwa [interconnect_connect linked]
  | attach target ranges =>
    rw [perform]
    have attaches := attaches_attachToHost f target ranges
    generalize f.attachToHost target ranges = outcome at attaches ⊢
    cases attaches with
    | refused => exact .refl f
    | spilled e n name taken spills some routes =>
      exact ⟨fun _ _ h => h, fun _ _ h => h,
        fun route h => routes.mem_iff.2 (List.mem_append_left _ h)⟩
    | done n name free clear routes =>
      refine ⟨fun i peer h => ?_, fun i down h => ?_,
        fun route h => routes.mem_iff.2 (List.mem_append_left _ h)⟩
      · rw [(hostSide?_attached free rfl).1, if_neg, h]
        rintro rfl
        rw [free.hostSide?] at h
        cases h
      · rw [(hostSide?_attached free rfl).2, h]

theorem assemble_cons : f.assemble (call :: calls) = (f.perform call).2.assemble calls := rfl

theorem assemble_append (before after : List AssemblyCall) :
    f.assemble (before ++ after) = (f.assemble before).assemble after := List.foldl_append

theorem extends_assemble (f : Fabric) (calls : List AssemblyCall) :
    f.Extends (f.assemble calls) := by
  induction calls generalizing f with
  | nil => exact .refl f
  | cons call rest ih => exact (extends_perform f call).trans (ih _)

theorem Paired.perform (paired : f.Paired) (call : AssemblyCall) : (f.perform call).2.Paired := by
  refine paired_of_sides fun u d => ?_
  have sides := paired.sides
  cases call with
  | add stage => simpa only [Fabric.perform, hostSide?_add, memorySide?_add] using sides u d
  | connect up down =>
    rw [Fabric.perform]
    cases linked : f.connect up down with
    | error e => exact sides u d
    | ok f' =>
      obtain ⟨upper, above, open_, free⟩ := free_of_connect linked
      have behind : f.memorySide? up = none := by
        rw [memorySide?, above]
        exact open_
      have front := free.hostSide?
      rw [memorySide?_connect linked, hostSide?_connect linked]
      have upward := sides up d
      have downward := sides u down
      rw [behind] at upward
      rw [front] at downward
      grind
  | attach target ranges =>
    rw [Fabric.perform]
    have attaches := attaches_attachToHost f target ranges
    generalize f.attachToHost target ranges = outcome at attaches ⊢
    cases attaches with
    | refused => exact sides u d
    | spilled => exact sides u d
    | done n name free clear routes =>
      rw [(hostSide?_attached free rfl).1, (hostSide?_attached free rfl).2]
      have downward := sides u target
      rw [free.hostSide?] at downward
      grind

theorem Paired.assemble (paired : f.Paired) (calls : List AssemblyCall) :
    (f.assemble calls).Paired := by
  induction calls generalizing f with
  | nil => exact paired
  | cons call rest ih => exact ih (paired.perform call)

/-! ### Failing calls -/

theorem atomic_iff (f : Fabric) (call : AssemblyCall) :
    f.Atomic call ↔ ∀ target ranges, call = .attach target ranges → ¬ f.Spills target ranges := by
  cases call with
  | add stage => exact iff_of_true nofun nofun
  | connect up down =>
    refine iff_of_true (fun e failed => ?_) nofun
    rw [perform] at failed ⊢
    split at failed
    · cases failed
    · rfl
  | attach target ranges =>
    have attaches := attaches_attachToHost f target ranges
    rw [Atomic, perform]
    generalize f.attachToHost target ranges = outcome at attaches ⊢
    cases attaches with
    | refused e whole =>
      refine iff_of_true (fun _ _ => rfl) fun t r eq => ?_
      cases eq
      exact whole
    | spilled e n name taken spills some routes =>
      refine iff_of_false (fun atomic => ?_) fun none => none target ranges rfl spills
      have length := routes.length_eq
      have same : n = f.interconnect := congrArg Fabric.interconnect (atomic e rfl)
      rw [same, routesTo, List.length_append, List.length_map] at length
      exact some (List.eq_nil_of_length_eq_zero (by omega))
    | done n name free clear routes =>
      refine iff_of_true nofun fun t r eq spills => ?_
      cases eq
      exact spills.2.2 clear

theorem nodes_of_error {e : SimError} (failed : (f.perform call).1 = .error e) :
    (f.perform call).2.nodes = f.nodes := by
  cases call with
  | add stage => cases failed
  | connect up down =>
    rw [perform] at failed ⊢
    split at failed
    · cases failed
    · rfl
  | attach target ranges =>
    have attaches := attaches_attachToHost f target ranges
    rw [perform] at failed ⊢
    generalize f.attachToHost target ranges = outcome at attaches failed ⊢
    cases attaches with
    | refused | spilled => rfl
    | done => cases failed

/-! ### Where routes come from -/

theorem route_perform {route : Route} (mem : route ∈ (f.perform call).2.interconnect.routes) :
    route ∈ f.interconnect.routes ∨ (f.perform call).2.hostSide? route.target = some .host ∨
      ∃ ranges, call = .attach route.target ranges ∧ f.Spills route.target ranges := by
  cases call with
  | add stage => exact .inl mem
  | connect up down =>
    rw [perform] at mem
    split at mem
    next f' linked => exact .inl (by rwa [← interconnect_connect linked])
    next => exact .inl mem
  | attach target ranges =>
    have attaches := attaches_attachToHost f target ranges
    rw [perform] at mem ⊢
    generalize f.attachToHost target ranges = outcome at attaches mem ⊢
    cases attaches with
    | refused => exact .inl mem
    | spilled e n name taken spills some routes =>
      rcases List.mem_append.1 (routes.mem_iff.1 mem) with old | new
      · exact .inl old
      · obtain ⟨range, -, rfl⟩ := List.mem_map.1 new
        exact .inr (.inr ⟨ranges, rfl, spills⟩)
    | done n name free clear routes =>
      rcases List.mem_append.1 (routes.mem_iff.1 mem) with old | new
      · exact .inl old
      · obtain ⟨range, -, rfl⟩ := List.mem_map.1 new
        refine .inr (.inl ?_)
        rw [(hostSide?_attached free rfl).1, if_pos rfl]

theorem route_assemble {route : Route}
    (mem : route ∈ (f.assemble calls).interconnect.routes) :
    route ∈ f.interconnect.routes ∨ (f.assemble calls).hostSide? route.target = some .host ∨
      ∃ before ranges after, calls = before ++ .attach route.target ranges :: after ∧
        (f.assemble before).Spills route.target ranges := by
  induction calls generalizing f with
  | nil => exact .inl mem
  | cons call rest ih =>
    rcases ih mem with made | hosted | ⟨before, ranges, after, rfl, spills⟩
    · rcases route_perform made with old | hosted | ⟨ranges, rfl, spills⟩
      · exact .inl old
      · exact .inr (.inl ((extends_assemble _ rest).hostSide _ _ hosted))
      · exact .inr (.inr ⟨[], ranges, rest, rfl, spills⟩)
    · exact .inr (.inl hosted)
    · exact .inr (.inr ⟨call :: before, ranges, after, rfl, spills⟩)

theorem Spills.route {ranges : List AddressRange} (spills : f.Spills target ranges) :
    ∃ route ∈ (f.perform (.attach target ranges)).2.interconnect.routes, route.target = target := by
  have attaches := attaches_attachToHost f target ranges
  rw [perform]
  generalize f.attachToHost target ranges = outcome at attaches ⊢
  cases attaches with
  | refused e whole => exact absurd spills whole
  | spilled e n name taken spills some routes =>
    obtain ⟨range, rest, rfl⟩ := List.exists_cons_of_ne_nil some
    exact ⟨⟨range, target, name⟩, routes.mem_iff.2 (by simp [routesTo]), rfl⟩
  | done n name free clear routes => exact absurd clear spills.2.2

/-- An assembled fabric, however it came about. Its links are paired, and calls that fail change no
link. They change nothing at all unless they spill; and each route leads to a stage that the host
is the peer of unless one of the calls spilled and its target was never attached. -/
theorem assembled_iff (n : Interconnect) (bare : n.routes = []) (calls : List AssemblyCall) :
    let f := (Fabric.mk [] n).assemble calls
    f.Paired ∧
      (∀ call e, (f.perform call).1 = .error e → (f.perform call).2.nodes = f.nodes) ∧
      (∀ call, f.Atomic call ↔
        ∀ target ranges, call = .attach target ranges → ¬ f.Spills target ranges) ∧
      (f.Rooted ↔ ∀ before target ranges after, calls = before ++ .attach target ranges :: after →
        ((Fabric.mk [] n).assemble before).Spills target ranges →
          f.hostSide? target = some .host) := by
  intro f
  have empty : (Fabric.mk [] n).Paired := paired_of_sides fun up down => by
    simp [memorySide?, hostSide?]
  refine ⟨empty.assemble calls, fun call e failed => nodes_of_error failed, atomic_iff f, ?_, ?_⟩
  · rintro rooted before target ranges after rfl spills
    obtain ⟨route, made, rfl⟩ := spills.route
    have kept := (extends_assemble _ after).routes route made
    rw [← assemble_cons, ← assemble_append] at kept
    exact rooted route kept
  · intro attached route mem
    rcases route_assemble mem with old | hosted | ⟨before, ranges, after, eq, spills⟩
    · rw [bare] at old
      cases old
    · exact hosted
    · exact attached before route.target ranges after eq spills

def page (base : Nat) : Stage :=
  .memory { range := ⟨base, 4096⟩, latency := 0, store := { size := 4096 } }

def twoPages : List AssemblyCall :=
  [.add (page 0), .add (page 8192), .attach 0 [⟨0, 4096⟩]]

theorem assembled_twoPages :
    let n : Interconnect := { width := 16, latency := 2000, clock := 1000 }
    let calls := twoPages ++ [.attach 1 [⟨8192, 4096⟩, ⟨0, 4096⟩]]
    n.routes = [] ∧ ((Fabric.mk [] n).assemble calls).Paired ∧
      ¬ ((Fabric.mk [] n).assemble calls).Rooted := by
  intro n calls
  have assembled := assembled_iff n rfl calls
  refine ⟨rfl, assembled.1, fun rooted => ?_⟩
  have spills : ((Fabric.mk [] n).assemble twoPages).Spills 1 [⟨8192, 4096⟩, ⟨0, 4096⟩] :=
    ⟨⟨⟨page 8192, none, none⟩, rfl, rfl⟩, ⟨_, _, rfl, by decide⟩, by decide⟩
  have hosted := assembled.2.2.2.1 rooted twoPages 1 _ [] rfl spills
  exact nomatch (rfl : ((Fabric.mk [] n).assemble calls).hostSide? 1 = none).symm.trans hosted

/-- The second memory is attached to a page of its own and one that the first has. The call fails
and leaves its own page routed, so that the memory cannot be attached to that page any more. -/
theorem not_atomic_twoPages :
    let f := (Fabric.mk [] { width := 16, latency := 2000, clock := 1000 }).assemble twoPages
    let call := .attach 1 [⟨8192, 4096⟩, ⟨0, 4096⟩]
    ¬ f.Atomic call ∧ ¬ (f.perform call).2.Rooted ∧
      ((f.perform call).2.perform (.attach 1 [⟨8192, 4096⟩])).1 =
        .error (.config (.overlappingRanges ⟨8192, 4096⟩ "system-memory" ⟨8192, 4096⟩
          "system-memory")) := by
  intro f call
  have routes : (f.perform call).2.interconnect.routes =
      [⟨⟨0, 4096⟩, 0, "system-memory"⟩, ⟨⟨8192, 4096⟩, 1, "system-memory"⟩] := rfl
  refine ⟨fun atomic => ?_, fun rooted => ?_, rfl⟩
  · have same : (f.perform call).2.interconnect.routes = f.interconnect.routes :=
      congrArg (·.interconnect.routes) (atomic _ rfl)
    exact nomatch routes.symm.trans same
  · exact nomatch rooted ⟨⟨8192, 4096⟩, 1, "system-memory"⟩ (by simp [routes])

end Fabric

end Expander
