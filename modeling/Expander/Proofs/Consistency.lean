import Mathlib.Data.List.Flatten
import Expander.Proofs.Opening
import Expander.Proofs.Replay

/-!
The bytes that the host gets to see.

System memory has performed every access of its range as soon as it is accepted. The controller has
performed the first ones of the accesses of the expander, and the requests for the others wait in
the stages in front of it, in the order of acceptance. So every access is performed on the bytes
that the ones accepted before it have left, however long it takes until then.
-/

set_option autoImplicit false

namespace Expander

def Shown (accepted : List Grant) (t : Transaction) (data : List UInt8) : Prop :=
  ∃ before g after, accepted = before ++ g :: after ∧ g.transaction = t ∧
    data = g.access.answer (replay before)

theorem Shown.append {accepted : List Grant} {t : Transaction} {data : List UInt8}
    (h : Shown accepted t data) (more : List Grant) : Shown (accepted ++ more) t data := by
  obtain ⟨before, g, after, rfl, shown⟩ := h
  exact ⟨before, g, after ++ more, List.append_assoc .., shown⟩

namespace StageView

/-- The stage holds the bytes of a range, and they are those of a plain memory. -/
structure Mirrors (range : AddressRange) (m : PlainMemory) (v : StageView) : Prop where
  held : v.frame.held? = some range
  store : ∃ s, v.store = some s ∧ s.Holds range m

def Honest (accepted : List Grant) (v : StageView) : Prop :=
  ∀ p ∈ v.answers, Shown accepted p.transaction p.data

variable {range : AddressRange} {m m' : PlainMemory} {v : StageView} {g : Grant}
  {accepted before after : List Grant}

theorem Mirrors.congr (h : v.Mirrors range m)
    (same : ∀ a, range.contains a = true → m' a = m a) : v.Mirrors range m' := by
  obtain ⟨s, store, holds⟩ := h.store
  exact ⟨h.held, s, store, holds.congr same⟩

theorem Honest.append (h : v.Honest accepted) (more : List Grant) :
    v.Honest (accepted ++ more) := fun p mem => (h p mem).append more

theorem receive_of_held (held : v.frame.held? = some range) (p : Packet) :
    v.receive p = { v with
      answers := v.answer range p ::ₘ v.answers, store := v.written range p } := by
  simp only [receive, held]

theorem Mirrors.receive (h : v.Mirrors range (replay before)) (inside : g.within range = true) :
    (v.receive g.packet).Mirrors range (replay (before ++ [g])) := by
  obtain ⟨s, store, holds⟩ := h.store
  refine ⟨(frame_receive v _).symm ▸ h.held, ?_⟩
  rw [receive_of_held h.held, replay_concat]
  obtain ⟨id, access, issued⟩ := g
  cases access with
  | read addr size => exact ⟨s, store, holds⟩
  | write addr data =>
    refine ⟨s.writeOrKeep (range.offsetOf addr) data, ?_, holds.write inside⟩
    exact congrArg (Option.map _) store

theorem Mirrors.answer (h : v.Mirrors range (replay before)) (inside : g.within range = true) :
    (v.answer range g.packet).data = g.access.answer (replay before) := by
  obtain ⟨s, store, holds⟩ := h.store
  obtain ⟨id, access, issued⟩ := g
  cases access with
  | read addr size =>
    have bytes : s.readOrZero (range.offsetOf addr) size = (replay before).read addr size :=
      holds.read inside
    simp only [StageView.answer, store, Option.map_some, Option.getD_some]
    exact bytes
  | write addr data => rfl

theorem Honest.receive (honest : v.Honest (before ++ g :: after))
    (h : v.Mirrors range (replay before)) (inside : g.within range = true) :
    (v.receive g.packet).Honest (before ++ g :: after) := by
  rw [receive_of_held h.held]
  intro p mem
  rcases Multiset.mem_cons.1 mem with rfl | old
  · refine ⟨before, g, after, rfl, ?_, h.answer inside⟩
    rw [StageView.answer, Packet.transaction_respond, Packet.bare_transaction, g.transaction_packet]
  · exact honest p old

theorem answers_receive_of_not_held (passes : v.frame.held? = none) (p : Packet) :
    (v.receive p).answers = v.answers := by
  simp only [StageView.receive, passes]

theorem requests_receive_of_not_held (passes : v.frame.held? = none) (p : Packet) :
    (v.receive p).requests = v.requests ++ [p.bare] := by
  simp only [StageView.receive, passes]

end StageView

/-- Two ranges without a common byte, and accesses that lie in one of them. -/
structure Located (system expander : AddressRange) (accepted : List Grant) : Prop where
  disjoint : system.overlaps expander = false
  located : ∀ g ∈ accepted, g.within system = true ∨ g.within expander = true

/-- System memory has performed every access of its range, and the controller those of the expander
that do not wait in front of it. -/
structure Layered (system expander : AddressRange) (accepted : List Grant)
    (memory controller : StageView) (path : List StageView) : Prop where
  passing : ∀ v ∈ path, v.frame.held? = none
  system : memory.Mirrors system (replay accepted)
  expander : ∃ done rest, accepted = done ++ rest ∧
    controller.Mirrors expander (replay done) ∧
    (rest.filter fun g => g.within expander).map Grant.packet = path.flatMap StageView.requests

section Layered

variable {system expander : AddressRange} {accepted : List Grant} {g : Grant} {p : Packet}
  {memory controller lower upper : StageView} {path behind front : List StageView}

theorem Located.apart (h : Located system expander accepted) :
    expander.overlaps system = false := by
  rw [AddressRange.overlaps_comm]
  exact h.disjoint

theorem Layered.perform (located : Located system expander accepted)
    (h : Layered system expander accepted memory controller
      ({ upper with requests := p :: upper.requests } :: front))
    (honest : controller.Honest accepted) :
    Layered system expander accepted memory (controller.receive p) (upper :: front) ∧
      (controller.receive p).Honest accepted := by
  obtain ⟨done, rest, rfl, mirrors, waiting⟩ := h.expander
  rw [List.flatMap_cons, List.cons_append] at waiting
  obtain ⟨g, others, filtered, packet, waiting'⟩ := List.map_eq_cons_iff.1 waiting
  obtain ⟨skipped, after, rfl, foreign, inside, others'⟩ := List.filter_eq_cons_iff.1 filtered
  subst packet others'
  -- The accepted accesses between the ones performed and `g` are those of system memory, which
  -- change no byte of the expander: performing `g` now is performing it in its turn.
  have elsewhere (w : Grant) (mem : w ∈ skipped) :
      ∃ other, w.within other = true ∧ expander.overlaps other = false := by
    have range := located.located w (by simp [mem])
    exact ⟨system, range.resolve_right (foreign w mem), located.apart⟩
  have mirrors' : controller.Mirrors expander (replay (done ++ skipped)) :=
    mirrors.congr fun a mem => replay_append_outside elsewhere mem
  have split : done ++ (skipped ++ g :: after) = (done ++ skipped) ++ g :: after :=
    (List.append_assoc ..).symm
  refine ⟨⟨List.forall_mem_cons.2 (List.forall_mem_cons.1 h.passing), h.system, ?_⟩, ?_⟩
  · refine ⟨done ++ skipped ++ [g], after, ?_, mirrors'.receive inside, waiting'⟩
    rw [split, List.append_cons]
  · rw [split] at honest ⊢
    exact honest.receive mirrors' inside

theorem Layered.forward (h : Layered system expander accepted memory controller
      (behind ++ lower :: { upper with requests := p :: upper.requests } :: front)) :
    Layered system expander accepted memory controller
      (behind ++ lower.receive p :: upper :: front) := by
  obtain ⟨done, rest, split, mirrors, waiting⟩ := h.expander
  have passing := h.passing
  simp only [List.forall_mem_append, List.forall_mem_cons] at passing
  obtain ⟨passes, lowerPasses, upperPasses, others⟩ := passing
  have queued : p ∈ (rest.filter fun g => g.within expander).map Grant.packet := by
    rw [waiting]
    simp
  obtain ⟨g, -, packet⟩ := List.mem_map.1 queued
  have bare : p.bare = p := packet ▸ g.bare_packet
  refine ⟨?_, h.system, done, rest, split, mirrors, ?_⟩
  · simp only [List.forall_mem_append, List.forall_mem_cons, frame_receive]
    exact ⟨passes, lowerPasses, upperPasses, others⟩
  · rw [waiting]
    simp only [List.flatMap_append, List.flatMap_cons,
      StageView.requests_receive_of_not_held lowerPasses, bare, List.append_assoc, List.cons_append,
      List.nil_append]

theorem Layered.receive_system (located : Located system expander accepted)
    (h : Layered system expander accepted memory controller path)
    (inside : g.within system = true) (honest : memory.Honest accepted) :
    Layered system expander (accepted ++ [g]) (memory.receive g.packet) controller path ∧
      (memory.receive g.packet).Honest (accepted ++ [g]) := by
  obtain ⟨done, rest, rfl, mirrors, waiting⟩ := h.expander
  refine ⟨⟨h.passing, h.system.receive inside, done, rest ++ [g], List.append_assoc .., mirrors,
    ?_⟩, (honest.append [g]).receive h.system inside⟩
  have elsewhere : g.within expander = false := Grant.not_within located.apart inside
  rw [List.filter_append, List.filter_cons_of_neg (elsewhere ▸ Bool.false_ne_true),
    List.filter_nil, List.append_nil, waiting]

theorem Layered.mirrors_system (located : Located system expander accepted)
    (h : Layered system expander accepted memory controller path)
    (inside : g.within expander = true) : memory.Mirrors system (replay (accepted ++ [g])) := by
  refine h.system.congr fun a mem => replay_append_outside (fun w last => ?_) mem
  cases List.mem_singleton.1 last
  exact ⟨expander, inside, located.disjoint⟩

theorem Layered.receive_controller (located : Located system expander accepted)
    (h : Layered system expander accepted memory controller [])
    (inside : g.within expander = true) (honest : controller.Honest accepted) :
    Layered system expander (accepted ++ [g]) memory (controller.receive g.packet) [] ∧
      (controller.receive g.packet).Honest (accepted ++ [g]) := by
  obtain ⟨done, rest, rfl, mirrors, waiting⟩ := h.expander
  -- With no stage in front nothing of the expander waits, so `g` is performed as it arrives.
  have foreign := List.filter_eq_nil_iff.1 (List.map_eq_nil_iff.1 waiting)
  have elsewhere (w : Grant) (mem : w ∈ rest) :
      ∃ other, w.within other = true ∧ expander.overlaps other = false := by
    have range := located.located w (List.mem_append_right _ mem)
    exact ⟨system, range.resolve_right (foreign w mem), located.apart⟩
  have mirrors' : controller.Mirrors expander (replay (done ++ rest)) :=
    mirrors.congr fun a mem => replay_append_outside elsewhere mem
  exact ⟨⟨h.passing, h.mirrors_system located inside, done ++ rest ++ [g], [],
    (List.append_nil _).symm, mirrors'.receive inside, rfl⟩,
    (honest.append [g]).receive mirrors' inside⟩

theorem Layered.receive_front (located : Located system expander accepted)
    (h : Layered system expander accepted memory controller (behind ++ [lower]))
    (inside : g.within expander = true) :
    Layered system expander (accepted ++ [g]) memory controller
      (behind ++ [lower.receive g.packet]) := by
  obtain ⟨done, rest, split, mirrors, waiting⟩ := h.expander
  have passing := h.passing
  simp only [List.forall_mem_append, List.forall_mem_singleton] at passing
  refine ⟨?_, h.mirrors_system located inside, done, rest ++ [g], ?_, mirrors, ?_⟩
  · simp only [List.forall_mem_append, List.forall_mem_singleton, frame_receive]
    exact passing
  · rw [split, List.append_assoc]
  · rw [List.filter_append, List.map_append, waiting, List.filter_cons_of_pos inside]
    simp only [List.flatMap_append, List.flatMap_singleton,
      StageView.requests_receive_of_not_held passing.2, g.bare_packet, List.append_assoc,
      List.filter_nil, List.map_cons, List.map_nil]

end Layered

namespace Ledger

def Laid (system expander : AddressRange) (accepted : List Grant) (views : List StageView) : Prop :=
  ∃ memory controller path, views = memory :: controller :: path ∧
    Layered system expander accepted memory controller path

def contents (v : StageView) : StageFrame × List Packet × Option Store :=
  (v.frame, v.requests, v.store)

variable {system expander : AddressRange} {accepted : List Grant} {g : Grant} {p : Packet}
  {views views' behind front : List StageView} {v lower upper : StageView}

theorem Laid.alike (h : Laid system expander accepted views)
    (same : views'.map contents = views.map contents) :
    Laid system expander accepted views' := by
  obtain ⟨memory, controller, path, rfl, layered⟩ := h
  obtain ⟨memory', others, rfl, first, same⟩ := List.map_eq_cons_iff.1 same
  obtain ⟨controller', path', rfl, second, path_eq⟩ := List.map_eq_cons_iff.1 same
  simp only [contents, Prod.mk.injEq] at first second
  obtain ⟨memoryFrame, -, memoryStore⟩ := first
  obtain ⟨controllerFrame, -, controllerStore⟩ := second
  have frames : path'.map StageView.frame = path.map StageView.frame := by
    simpa [Function.comp_def, contents] using congrArg (List.map Prod.fst) path_eq
  have requests : path'.map StageView.requests = path.map StageView.requests := by
    simpa [Function.comp_def, contents] using congrArg (List.map fun c => c.2.1) path_eq
  obtain ⟨done, rest, split, mirrors, waiting⟩ := layered.expander
  refine ⟨memory', controller', path', rfl, ?_, ?_, done, rest, split, ?_, ?_⟩
  · intro v mem
    have frame : v.frame ∈ path.map StageView.frame := frames ▸ List.mem_map_of_mem mem
    obtain ⟨w, mem', eq⟩ := List.mem_map.1 frame
    exact eq ▸ layered.passing w mem'
  · exact ⟨memoryFrame ▸ layered.system.held, memoryStore ▸ layered.system.store⟩
  · exact ⟨controllerFrame ▸ mirrors.held, controllerStore ▸ mirrors.store⟩
  · rw [waiting, List.flatMap_def, List.flatMap_def, requests]

theorem Laid.request (located : Located system expander accepted) (inner : behind ≠ [])
    (h : Laid system expander accepted
      (behind ++ lower :: { upper with requests := p :: upper.requests } :: front))
    (honest : lower.Honest accepted) :
    Laid system expander accepted (behind ++ lower.receive p :: upper :: front) ∧
      (lower.receive p).Honest accepted := by
  obtain ⟨memory, controller, path, eq, layered⟩ := h
  obtain ⟨first, behind, rfl⟩ := List.exists_cons_of_ne_nil inner
  -- The request reaches the controller if there is nothing but system memory behind the stage.
  cases behind with
  | nil =>
    cases eq
    obtain ⟨layered', honest'⟩ := layered.perform located honest
    exact ⟨⟨_, _, _, rfl, layered'⟩, honest'⟩
  | cons second behind =>
    cases eq
    have passes : lower.frame.held? = none := layered.passing lower (by simp)
    refine ⟨⟨_, _, _, rfl, layered.forward⟩, ?_⟩
    rw [StageView.Honest, StageView.answers_receive_of_not_held passes]
    exact honest

theorem Laid.receive (located : Located system expander accepted)
    (h : Laid system expander accepted (behind ++ v :: front)) (faces : FacesHost behind v front)
    (accepts : v.Accepts expander g.packet) (honest : v.Honest accepted) :
    Located system expander (accepted ++ [g]) ∧
      Laid system expander (accepted ++ [g]) (behind ++ v.receive g.packet :: front) ∧
      (v.receive g.packet).Honest (accepted ++ [g]) := by
  obtain ⟨memory, controller, path, eq, layered⟩ := h
  have located' (range : g.within system = true ∨ g.within expander = true) :
      Located system expander (accepted ++ [g]) := by
    refine ⟨located.disjoint, List.forall_mem_append.2 ⟨located.located, ?_⟩⟩
    exact List.forall_mem_singleton.2 range
  have served {range : AddressRange} (held : v.frame.held? = some range) :
      g.within range = true := by
    have serves := accepts.1
    rw [StageFrame.serves_of_held held, g.addr_packet, g.size_packet] at serves
    exact serves
  have passed (passes : v.frame.held? = none) : g.within expander = true := by
    have inside := accepts.2 passes
    rw [g.addr_packet, g.size_packet] at inside
    exact inside
  rcases faces with ⟨rfl, -⟩ | ⟨inner, rfl⟩
  · cases eq
    have inside := served layered.system.held
    obtain ⟨layered', honest'⟩ := layered.receive_system located inside honest
    exact ⟨located' (.inl inside), ⟨_, _, _, rfl, layered'⟩, honest'⟩
  · obtain ⟨first, behind, rfl⟩ := List.exists_cons_of_ne_nil inner
    cases behind with
    | nil =>
      cases eq
      obtain ⟨done, rest, split, mirrors, waiting⟩ := layered.expander
      have inside := served mirrors.held
      obtain ⟨layered', honest'⟩ := layered.receive_controller located inside honest
      exact ⟨located' (.inr inside), ⟨_, _, _, rfl, layered'⟩, honest'⟩
    | cons second behind =>
      cases eq
      have passes : v.frame.held? = none := layered.passing v (by simp)
      have inside := passed passes
      refine ⟨located' (.inr inside), ⟨_, _, _, rfl, layered.receive_front located inside⟩, ?_⟩
      rw [StageView.Honest, StageView.answers_receive_of_not_held passes]
      exact honest.append [g]

/-- What the stages hold, and what the host was given, is what the accesses are to show. -/
structure Consistent (system expander : AddressRange) (l : Ledger) : Prop where
  located : Located system expander l.accepted
  laid : Laid system expander l.accepted l.views
  honest : ∀ v ∈ l.views, v.Honest l.accepted
  completed : ∀ c ∈ l.produced, Shown l.accepted c.transaction c.data

variable {l l' : Ledger}

/-- A move performs an access as the plain memory does, or none. -/
theorem Consistent.flow {out : List Packet} (h : l.Consistent system expander)
    (flow : Flow l.views views out) (finished : Packet → Tick) :
    Consistent system expander { l with
      views
      produced := l.produced +
        (out.map fun p => Completion.ofResponse p (finished p) : List Completion) } := by
  obtain ⟨nextId, views₀, accepted, produced⟩ := l
  obtain ⟨located, laid, honest, completed⟩ := h
  simp only at located laid honest completed flow ⊢
  cases flow with
  | still =>
    exact ⟨located, laid, honest, by simpa using completed⟩
  | request lower upper p inner =>
    simp only [List.forall_mem_append, List.forall_mem_cons] at honest
    obtain ⟨behind, lower, upper, front⟩ := honest
    obtain ⟨laid', lower'⟩ := laid.request located inner lower
    refine ⟨located, laid', ?_, by simpa using completed⟩
    simp only [List.forall_mem_append, List.forall_mem_cons]
    exact ⟨behind, lower', upper, front⟩
  | response lower upper p inner =>
    simp only [List.forall_mem_append, List.forall_mem_cons] at honest
    obtain ⟨behind, lower, upper, front⟩ := honest
    have shown := lower p (Multiset.mem_cons_self ..)
    refine ⟨located, laid.alike (by simp [contents]), ?_, by simpa using completed⟩
    simp only [List.forall_mem_append, List.forall_mem_cons]
    refine ⟨behind, fun q mem => lower q (Multiset.mem_cons_of_mem mem), ?_, front⟩
    intro q mem
    rcases Multiset.mem_cons.1 mem with rfl | old
    · exact shown
    · exact upper q old
  | @complete _ _ v p faces =>
    simp only [List.forall_mem_append, List.forall_mem_cons] at honest
    obtain ⟨behind, last, front⟩ := honest
    refine ⟨located, laid.alike (by simp [contents, StageView.release]), ?_, ?_⟩
    · simp only [List.forall_mem_append, List.forall_mem_cons]
      exact ⟨behind, fun q mem => last q (Multiset.mem_cons_of_mem mem), front⟩
    · intro c mem
      rcases Multiset.mem_add.1 mem with old | new
      · exact completed c old
      · cases List.mem_singleton.1 (Multiset.mem_coe.1 new)
        exact last p (Multiset.mem_cons_self ..)

theorem Consistent.step (h : l.Consistent system expander) (step : Step expander true l l') :
    l'.Consistent system expander := by
  cases step with
  | move finished flow => exact h.flow flow finished
  | @receive behind front v access issued split faces accepts =>
    have honest := h.honest
    have laid := h.laid
    rw [split] at honest laid
    simp only [List.forall_mem_append, List.forall_mem_cons] at honest
    obtain ⟨behindHonest, last, frontHonest⟩ := honest
    obtain ⟨located', laid', last'⟩ := laid.receive h.located faces accepts last
    refine ⟨located', laid', ?_, fun c mem => (h.completed c mem).append _⟩
    simp only [List.forall_mem_append, List.forall_mem_cons]
    exact ⟨fun w mem => (behindHonest w mem).append _, last',
      fun w mem => (frontHonest w mem).append _⟩
  | poke untimed => cases untimed

theorem Consistent.steps (h : l.Consistent system expander) (steps : Steps expander true l l') :
    l'.Consistent system expander := by
  induction steps with
  | refl => exact h
  | tail _ step ih => exact ih.step step

end Ledger

theorem Simulation.Fresh.laid {s : Simulation} (fresh : s.Fresh) :
    Ledger.Laid s.config.system.memoryRange s.config.device.range [] s.cargo := by
  have memory : (s.config.memoryStage (.blank s.config.system.memorySize)).view.calm.Mirrors
      s.config.system.memoryRange .zero := ⟨rfl, _, rfl, Store.holds_blank _⟩
  have device : (s.config.controllerStage (.blank s.config.device.range.size)).view.calm.Mirrors
      s.config.device.range .zero := ⟨rfl, _, rfl, Store.holds_blank _⟩
  have passing : s.config.deviceStage.view.calm.frame.held? = none ∧
      ∀ bridge, (s.config.bridgeStage bridge).view.calm.frame.held? = none := ⟨rfl, fun _ => rfl⟩
  rw [Simulation.cargo, fresh.nodes, ResolvedConfig.nodes]
  -- The first two stages are system memory and the controller in every layout.
  cases s.config.topology <;> cases s.config.bridge <;>
    exact ⟨_, _, _, rfl, by simp [passing], memory, [], [], rfl, device, rfl⟩

namespace Session

/-- The host sees what a plain memory shows that performs the accepted accesses at once, in the
order of their numbers. -/
structure Consistent (h : Session) : Prop where
  ascending : h.accepted.Pairwise fun g w => g.id < w.id
  shown : ∀ c ∈ h.produced, ∃ g ∈ h.accepted, c.transaction = g.transaction ∧
    c.data = g.access.answer (replay (h.accepted.filter fun w => decide (w.id < g.id)))

variable {h : Session} {machine : Machine} {config : Config} {s : Simulation}

theorem consistent_start (created : Simulation.create machine config = .ok s) :
    (start s).ledger.Consistent s.config.system.memoryRange s.config.device.range := by
  have fresh := Simulation.fresh_create created
  refine ⟨⟨fresh.valid.disjoint, nofun⟩, fresh.laid, fun v mem p waits => ?_, fun c mem => ?_⟩
  · rw [(fresh.cargo v mem).2.1] at waits
    exact absurd waits (Multiset.notMem_zero p)
  · rw [ledger, produced, show (start s).system = s from rfl, fresh.completions] at mem
    cases mem

theorem filter_before {before after : List Grant} {g : Grant}
    (ascending : (before ++ g :: after).Pairwise fun g w => g.id < w.id) :
    (before ++ g :: after).filter (fun w => decide (w.id < g.id)) = before := by
  obtain ⟨-, later, between⟩ := List.pairwise_append.1 ascending
  have none : (g :: after).filter (fun w => decide (w.id < g.id)) = [] := by
    refine List.filter_eq_nil_iff.2 (List.forall_mem_cons.2 ⟨?_, fun w mem => ?_⟩)
    · exact fun less => Nat.lt_irrefl _ (of_decide_eq_true less)
    · exact fun less => Nat.lt_asymm ((List.pairwise_cons.1 later).1 w mem) (of_decide_eq_true less)
  have all : before.filter (fun w => decide (w.id < g.id)) = before :=
    List.filter_eq_self.2 fun w mem => decide_eq_true (between w mem g List.mem_cons_self)
  rw [List.filter_append, none, all, List.append_nil]

/-- A host that leaves all accesses to the events sees what a plain memory shows. -/
theorem consistent_run (created : Simulation.create machine config = .ok s) (calls : List HostCall)
    (timed : ∀ call ∈ calls, call.timed = true) : ((start s).run calls).Consistent := by
  have reaches : (start s).Reaches true ((start s).run calls) :=
    (standing_start created).run calls fun _ => timed
  have ascending := reaches.standing.balanced.ascending
  have consistent := (consistent_start created).steps reaches.steps
  refine ⟨ascending, fun c mem => ?_⟩
  obtain ⟨before, g, after, accepted, same, data⟩ := consistent.completed c (Multiset.mem_coe.2 mem)
  have accepted' : ((start s).run calls).accepted = before ++ g :: after := accepted
  refine ⟨g, by simp [accepted'], same.symm, ?_⟩
  rw [accepted', filter_before (accepted' ▸ ascending)]
  exact data

/-- A read of bytes that two writes have put in. -/
theorem consistent_overwritten : ∃ s, Simulation.create .standard {} = .ok s ∧
    ((start s).run [.send (.write 0x100000000 [1, 2, 3]), .send (.write 0x100000001 [4]),
      .send (.read 0x100000000 4), .poll, .poll, .poll]).Consistent ∧
    ((start s).run [.send (.write 0x100000000 [1, 2, 3]), .send (.write 0x100000001 [4]),
      .send (.read 0x100000000 4), .poll, .poll, .poll]).returned.map Completion.data =
      [[], [], [1, 4, 3, 0]] :=
  ⟨_, rfl, consistent_run (show Simulation.create .standard {} = _ from rfl) _ (by decide),
    by decide +kernel⟩

end Session

end Expander
