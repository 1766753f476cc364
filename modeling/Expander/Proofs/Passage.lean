import Expander.Proofs.Embedding
import Expander.Proofs.Stage.Passing

/-!
What passes between the stages of a system.

In one step of a session a packet goes from a stage to its neighbour, or the host hands one to a
stage, or a response leaves to the host, or nothing passes (`Standing.conveys`). So what a stage
sends on its neighbour takes, and the front of the expander takes what was accepted for the
expander. The steps add up to what each stage has taken since the session began
(`Reachable.tallied`).
-/

set_option autoImplicit false

namespace Expander

theorem Stage.Told.passes {now : Tick} {s s' : Stage} (told : s.Told now s') :
    s.Passes .nothing s' := by
  induction told with
  | still => exact .refl s
  | @request middle _ ih => exact ih.still (middle.passes_recvRequestRetry now)
  | @response middle _ ih => exact ih.still (middle.passes_recvResponseRetry now)

namespace Passing

def between (way : Way) (p : Packet) (source target : Option ComponentId) (id : ComponentId) :
    Passing where
  taken w := if target = some id ∧ w = way then {p.bare} else 0
  sent w := if source = some id ∧ w = way then {p.bare} else 0

variable {way w : Way} {p : Packet} {source target : Option ComponentId} {id : ComponentId}

theorem taken_between_of_ne (other : w ≠ way) :
    (between way p source target id).taken w = 0 :=
  if_neg fun same => other same.2

theorem sent_between_eq {i : ComponentId} (other : w ≠ way) :
    (between way p source target id).sent w = (between way p source target i).taken w :=
  (if_neg fun same => other same.2).trans (taken_between_of_ne other).symm

theorem between_source (ne : target ≠ some id) :
    between way p (some id) target id = sends way p := by
  simp [between, sends, ne]

theorem between_target (ne : source ≠ some id) :
    between way p source (some id) id = takes way p := by
  simp [between, takes, ne]

theorem between_of_ne (left : source ≠ some id) (right : target ≠ some id) :
    between way p source target id = nothing := by
  simp [between, nothing, left, right]

end Passing

namespace Fabric

/-- What each stage takes and sends on between two states of a fabric. -/
structure Passes (f : Fabric) (x : ComponentId → Passing) (f' : Fabric) : Prop where
  stages : ∀ id after, f'.stage? id = some after →
    ∃ before, f.stage? id = some before ∧ before.Passes (x id) after
  hostSide : ∀ id, f'.hostSide? id = f.hostSide? id
  memorySide : ∀ id, f'.memorySide? id = f.memorySide? id

/-- What a stage sends its neighbour takes, and the front of the expander takes what enters. -/
structure Conveys (f : Fabric) (x : ComponentId → Passing) (entering : Multiset Packet)
    (f' : Fabric) : Prop extends f.Passes x f' where
  requests : ∀ up down, f.memorySide? up = some down →
    (x up).sent .request = (x down).taken .request
  responses : ∀ up down, f.memorySide? up = some down →
    (x down).sent .response = (x up).taken .response
  front : ∀ id, 0 < id → f.hostSide? id = some .host → (x id).taken .request = entering

/-- What each stage of a fabric has taken so far, and what of it is counted and waits: a request is
counted by the stages that have taken it, and waits in the last of them. -/
structure Tallied (f : Fabric) (took : ComponentId → Way → Multiset Packet)
    (entered : Multiset Packet) : Prop where
  counts : ∀ id stage, f.stage? id = some stage → stage.Counts (took id)
  requests : ∀ up down upper, f.memorySide? up = some down → f.stage? up = some upper →
    upper.view.frame.forwards = true →
    took up .request = upper.waiting .request + took down .request
  responses : ∀ up down lower, f.memorySide? up = some down → f.stage? down = some lower →
    lower.view.frame.forwards = true →
    took down .response = lower.waiting .response + took up .response
  front : ∀ id, 0 < id → f.hostSide? id = some .host → took id .request = entered

variable {f f' f'' : Fabric} {x : ComponentId → Passing} {entering entered : Multiset Packet}
  {took : ComponentId → Way → Multiset Packet} {expander : AddressRange}
  {id up down : ComponentId} {stage stage' upper upper' lower lower' : Stage} {p : Packet}

theorem Passes.refl (f : Fabric) : f.Passes (fun _ => .nothing) f where
  stages _ after found := ⟨after, found, .refl after⟩
  hostSide _ := rfl
  memorySide _ := rfl

theorem Passes.rerouted (h : f.Passes x f') (interconnect : Interconnect) :
    f.Passes x { f' with interconnect } :=
  ⟨h.stages, h.hostSide, h.memorySide⟩

theorem Passes.still (h : f.Passes x f') (still : f'.Passes (fun _ => .nothing) f'') :
    f.Passes x f'' where
  stages id last found := by
    obtain ⟨middle, found', quiet⟩ := still.stages id last found
    obtain ⟨first, found'', passes⟩ := h.stages id middle found'
    exact ⟨first, found'', passes.still quiet⟩
  hostSide id := (still.hostSide id).trans (h.hostSide id)
  memorySide id := (still.memorySide id).trans (h.memorySide id)

theorem passes_setStage (found : f.stage? id = some stage) (passes : stage.Passes (x id) stage')
    (others : ∀ i, i ≠ id → x i = .nothing) : f.Passes x (f.setStage id stage') where
  stages i after found' := by
    rcases stage?_setStage_cases found found' with ⟨rfl, rfl, before⟩ | ⟨ne, before⟩
    · exact ⟨stage, before, passes⟩
    · exact ⟨after, before, others i ne ▸ .refl after⟩
  hostSide _ := hostSide?_setStage
  memorySide _ := memorySide?_setStage

theorem passes_setStage_pair (ne : up ≠ down) (hupper : f.stage? up = some upper)
    (hlower : f.stage? down = some lower) (above : upper.Passes (x up) upper')
    (below : lower.Passes (x down) lower')
    (others : ∀ i, i ≠ up → i ≠ down → x i = .nothing) :
    f.Passes x ((f.setStage down lower').setStage up upper') where
  stages i after found := by
    have stands : (f.setStage down lower').stage? up = some upper :=
      (stage?_setStage_ne ne).trans hupper
    rcases stage?_setStage_cases stands found with ⟨rfl, rfl, -⟩ | ⟨apart, found'⟩
    · exact ⟨upper, hupper, above⟩
    · rcases stage?_setStage_cases hlower found' with ⟨rfl, rfl, -⟩ | ⟨apart', found''⟩
      · exact ⟨lower, hlower, below⟩
      · exact ⟨after, found'', others i apart apart' ▸ .refl after⟩
  hostSide _ := hostSide?_setStage.trans hostSide?_setStage
  memorySide _ := memorySide?_setStage.trans memorySide?_setStage

theorem Conveys.still (h : f.Conveys x entering f') (still : f'.Passes (fun _ => .nothing) f'') :
    f.Conveys x entering f'' :=
  { h with toPasses := h.toPasses.still still }

theorem Passes.conveys_nothing (passes : f.Passes (fun _ => .nothing) f') :
    f.Conveys (fun _ => .nothing) 0 f' where
  toPasses := passes
  requests _ _ _ := rfl
  responses _ _ _ := rfl
  front _ _ _ := rfl

theorem Passes.conveys_request (chained : Chained f.sites expander)
    (behind : f.memorySide? up = some down)
    (passes : f.Passes (.between .request p (some up) (some down)) f') :
    f.Conveys (.between .request p (some up) (some down)) 0 f' where
  toPasses := passes
  requests up' down' behind' := by
    obtain ⟨rfl, -, -, -⟩ := stage_behind chained behind
    obtain ⟨rfl, -, -, -⟩ := stage_behind chained behind'
    simp [Passing.between]
  responses _ _ _ := Passing.sent_between_eq nofun
  front id _ host := by
    obtain ⟨-, -, before, -⟩ := stage_behind chained behind
    have apart : down ≠ id := by
      rintro rfl
      cases before.symm.trans host
    simp [Passing.between, apart]

theorem Passes.conveys_response (chained : Chained f.sites expander)
    (behind : f.memorySide? up = some down)
    (passes : f.Passes (.between .response p (some down) (some up)) f') :
    f.Conveys (.between .response p (some down) (some up)) 0 f' where
  toPasses := passes
  requests _ _ _ := Passing.sent_between_eq nofun
  responses up' down' behind' := by
    obtain ⟨rfl, -, -, -⟩ := stage_behind chained behind
    obtain ⟨rfl, -, -, -⟩ := stage_behind chained behind'
    simp [Passing.between]
  front _ _ _ := Passing.taken_between_of_ne nofun

theorem Passes.conveys_completed (chained : Chained f.sites expander)
    (host : f.hostSide? id = some .host)
    (passes : f.Passes (.between .response p (some id) none) f') :
    f.Conveys (.between .response p (some id) none) 0 f' where
  toPasses := passes
  requests _ _ _ := Passing.sent_between_eq nofun
  responses up down behind := by
    obtain ⟨-, -, before, -⟩ := stage_behind chained behind
    have apart : id ≠ down := by
      rintro rfl
      cases before.symm.trans host
    simp [Passing.between, apart]
  front _ _ _ := Passing.taken_between_of_ne nofun

theorem eq_of_host (chained : Chained f.sites expander) {first second : ComponentId}
    (host : f.hostSide? first = some .host) (host' : f.hostSide? second = some .host)
    (pos : 0 < first) (pos' : 0 < second) : first = second := by
  have last {id : ComponentId} (host : f.hostSide? id = some .host) (pos : 0 < id) :
      id + 1 = f.sites.length := by
    obtain ⟨stage, found⟩ := exists_of_hostSide? host
    exact ((placed_stage chained found).host.1 host).resolve_left (Nat.ne_of_gt pos)
  exact Nat.succ.inj ((last host pos).trans (last host' pos').symm)

theorem Passes.conveys_offered (chained : Chained f.sites expander)
    (host : f.hostSide? id = some .host)
    (passes : f.Passes (.between .request p none (some id)) f') :
    f.Conveys (.between .request p none (some id)) (if id = 0 then 0 else {p.bare}) f' where
  toPasses := passes
  requests up down behind := by
    obtain ⟨-, -, before, -⟩ := stage_behind chained behind
    have apart : id ≠ down := by
      rintro rfl
      cases before.symm.trans host
    simp [Passing.between, apart]
  responses _ _ _ := Passing.sent_between_eq nofun
  front i pos host' := by
    by_cases memory : id = 0
    · have apart : id ≠ i := by
        rintro rfl
        exact absurd memory (Nat.ne_of_gt pos)
      simp [Passing.between, memory, memory ▸ apart]
    · cases eq_of_host chained host host' (Nat.pos_of_ne_zero memory) pos
      simp [Passing.between, memory]

/-- What passes in a step is added to what the stages have taken. -/
theorem Tallied.conveys (tallied : f.Tallied took entered) (conveys : f.Conveys x entering f') :
    f'.Tallied (fun id way => took id way + (x id).taken way) (entered + entering) where
  counts id after found := by
    obtain ⟨before, found', passes⟩ := conveys.stages id after found
    exact passes.counts _ (tallied.counts id before found')
  requests up down after behind found forwards := by
    obtain ⟨before, found', passes⟩ := conveys.stages up after found
    rw [conveys.memorySide] at behind
    rw [passes.forwards] at forwards
    -- What the upper stage sends the lower one takes, so it waits in neither sum.
    have waits := passes.waiting forwards .request
    rw [conveys.requests up down behind] at waits
    calc took up .request + (x up).taken .request
        = before.waiting .request + (x up).taken .request + took down .request := by
          rw [tallied.requests up down before behind found' forwards, add_right_comm]
      _ = after.waiting .request + (took down .request + (x down).taken .request) := by
          rw [← waits, add_comm ((x down).taken _), add_assoc, add_comm ((x down).taken _)]
  responses up down after behind found forwards := by
    obtain ⟨before, found', passes⟩ := conveys.stages down after found
    rw [conveys.memorySide] at behind
    rw [passes.forwards] at forwards
    have waits := passes.waiting forwards .response
    rw [conveys.responses up down behind] at waits
    calc took down .response + (x down).taken .response
        = before.waiting .response + (x down).taken .response + took up .response := by
          rw [tallied.responses up down before behind found' forwards, add_right_comm]
      _ = after.waiting .response + (took up .response + (x up).taken .response) := by
          rw [← waits, add_comm ((x up).taken _), add_assoc, add_comm ((x up).taken _)]
  front id pos host := by
    rw [conveys.hostSide] at host
    rw [tallied.front id pos host, conveys.front id pos host]

end Fabric

namespace Simulation

variable {s after : Simulation} {id : ComponentId} {kind : EventKind}
  {pending : List (ComponentId × Action)} {expander : AddressRange}

theorem passes_performActions (s : Simulation) (pending : List (ComponentId × Action)) :
    s.fabric.Passes (fun _ => .nothing) (s.performActions pending).fabric where
  stages _ _ found := by
    obtain ⟨before, stands, told⟩ := told_performActions pending found
    exact ⟨before, stands, told.passes⟩
  hostSide := Fabric.hostSide?_congr (sameBooks_performActions s pending).sites
  memorySide := Fabric.memorySide?_congr (sameBooks_performActions s pending).sites

/-- A move conveys a packet at most, and none comes in from the host. -/
theorem Moved.conveys (moves : s.Moved id kind after pending)
    (chained : Chained s.fabric.sites expander)
    (orderly : s.All (Stage.OfController Controller.Orderly)) :
    ∃ x, s.fabric.Conveys x 0 after.fabric := by
  cases moves with
  | idle => exact ⟨_, (Fabric.Passes.refl _).conveys_nothing⟩
  | @request down upper taken lower answered p actions behind hupper hlower took reply =>
    obtain ⟨rfl, -, -, -⟩ := Fabric.stage_behind chained behind
    have ne : down + 1 ≠ down := Nat.succ_ne_self down
    refine ⟨_, (Fabric.passes_setStage_pair ne hupper hlower ?_ ?_ ?_).conveys_request
      (p := p) chained behind⟩
    · rw [Passing.between_source (by simp)]
      exact Stage.passes_requestSent took
    · rw [Passing.between_target (by simp)]
      have takes : lower.Passes (.takes .request (p.arriveAt down s.now)) answered :=
        Stage.passes_recvRequest reply
      exact takes
    · exact fun i apart apart' => Passing.between_of_ne (by simp [apart.symm])
        (by simp [apart'.symm])
  | @requestBack down upper taken lower refused p behind hupper hlower took reply denies =>
    obtain ⟨rfl, -, -, -⟩ := Fabric.stage_behind chained behind
    exact ⟨_, (Fabric.passes_setStage_pair (Nat.succ_ne_self down) hupper hlower
      (Stage.passes_requestRefused took) denies.passes fun _ _ _ => rfl).conveys_nothing⟩
  | @response up lower taken upper answered p actions before hlower hupper took reply =>
    obtain ⟨rfl, -, behind, -⟩ := Fabric.stage_before chained before
    have ne : id ≠ id + 1 := (Nat.succ_ne_self id).symm
    refine ⟨_, (Fabric.passes_setStage_pair ne hlower hupper ?_ ?_ ?_).conveys_response
      (p := p) chained behind⟩
    · rw [Passing.between_source (by simp)]
      exact Stage.passes_responseSent took
    · rw [Passing.between_target (by simp)]
      exact Stage.passes_recvResponse reply
    · exact fun i apart apart' => Passing.between_of_ne (by simp [apart.symm])
        (by simp [apart'.symm])
  | @responseBack up lower taken upper refused p before hlower hupper took reply denies =>
    obtain ⟨rfl, -, -, -⟩ := Fabric.stage_before chained before
    exact ⟨_, (Fabric.passes_setStage_pair (Nat.succ_ne_self id).symm hlower hupper
      (Stage.passes_responseRefused took) denies.passes fun _ _ _ => rfl).conveys_nothing⟩
  | @completed lower taken p host hlower took =>
    refine ⟨_, (Fabric.passes_setStage hlower ?_ ?_).conveys_completed (p := p) chained host⟩
    · rw [Passing.between_source (by simp)]
      exact Stage.passes_responseSent took
    · exact fun i apart => Passing.between_of_ne (by simp [apart.symm]) (by simp)
  | @processed stage found =>
    have passes : stage.Passes .nothing (stage.process s.now).1 :=
      Stage.passes_process s.now fun c eq => by
        subst eq
        exact orderly id _ found
    exact ⟨_, (Fabric.passes_setStage found passes fun _ _ => rfl).conveys_nothing⟩

end Simulation

namespace Session

variable {h h' : Session} {machine : Machine} {config : Config}

def addressed (h : Session) : Multiset Packet :=
  (h.accepted.filter fun g => g.within h.expander).map Grant.packet

theorem addressed_congr (config : h'.system.config = h.system.config)
    (accepted : h'.accepted = h.accepted) : h'.addressed = h.addressed := by
  rw [addressed, addressed, expander, expander, config, accepted]

theorem addressed_concat {g : Grant} (config : h'.system.config = h.system.config)
    (accepted : h'.accepted = h.accepted ++ [g]) :
    h'.addressed = h.addressed + if g.within h.expander then {g.packet} else 0 := by
  have same : h'.expander = h.expander := by rw [expander, expander, config]
  rw [addressed, addressed, same, accepted, List.filter_append, List.map_append,
    ← Multiset.coe_add, List.filter_singleton]
  cases g.within h.expander <;> rfl

theorem Standing.within_iff (standing : h.Standing) {access : Access} {target : ComponentId}
    (leads : h.system.LeadsTo access target) :
    Grant.within h.expander ⟨h.system.nextId, access, h.system.now⟩ = true ↔ target ≠ 0 := by
  rcases leads with ⟨rfl, inside⟩ | ⟨pos, inside⟩
  · have apart : h.expander.overlaps h.system.config.system.memoryRange = false :=
      (AddressRange.overlaps_comm ..).trans standing.valid.disjoint
    have outside := Grant.not_within (g := ⟨h.system.nextId, access, h.system.now⟩) apart inside
    simp [outside]
  · exact iff_of_true inside (Nat.ne_of_gt pos)

theorem conveys_nothing (config : h'.system.config = h.system.config)
    (accepted : h'.accepted = h.accepted)
    (passes : h.system.fabric.Passes (fun _ => .nothing) h'.system.fabric) :
    ∃ x entering, h.system.fabric.Conveys x entering h'.system.fabric ∧
      h'.addressed = h.addressed + entering :=
  ⟨_, 0, passes.conveys_nothing, (addressed_congr config accepted).trans (add_zero _).symm⟩

/-- What the host sends enters a stage that faces it, if it is accepted. -/
theorem Standing.conveys_send (standing : h.Standing) (access : Access) :
    ∃ x entering, h.system.fabric.Conveys x entering (h.after (.send access)).system.fabric ∧
      (h.after (.send access)).addressed = h.addressed + entering := by
  have reaches : h.Reaches false (h.after (.send access)) :=
    standing.after _ (absurd · Bool.false_ne_true)
  have config := reaches.config
  have offers := standing.offers access
  rw [Session.after] at config ⊢
  generalize h.system.sendRequest access.request = outcome at offers config ⊢
  cases offers with
  | rejected lastHit =>
    exact conveys_nothing config rfl ((Fabric.Passes.refl h.system.fabric).rerouted _)
  | refused lastHit rejection faced found leads reply denies =>
    have denied := Fabric.passes_setStage (x := fun _ => .nothing) found denies.passes
      fun _ _ => rfl
    exact conveys_nothing config rfl (denied.rerouted _)
  | @accepted target stage answered actions lastHit rejection faced found leads reply =>
    let p := h.system.offered access target
    have taken : h.system.fabric.Passes (.between .request p none (some target))
        (h.system.fabric.setStage target answered) := by
      refine Fabric.passes_setStage found ?_ fun i apart =>
        Passing.between_of_ne (by simp) (by simp [apart.symm])
      rw [Passing.between_target (by simp)]
      exact Stage.passes_recvRequest reply
    let accepting : Simulation :=
      { h.system.remembering lastHit with
        nextId := h.system.nextId + 1
        host := { h.system.host with issued := h.system.host.issued + 1 } }
    have told := (accepting.setStage target answered).passes_performActions (asked target actions)
    have conveys := (taken.rerouted { h.system.fabric.interconnect with lastHit }).conveys_offered
      standing.chained faced
    refine ⟨_, _, conveys.still told, ?_⟩
    rw [addressed_concat config rfl, ← h.system.bare_offered access target]
    simp only [standing.within_iff leads, ite_not]
    rfl

theorem Standing.passes_atomic (standing : h.Standing) (access : Access) :
    h.system.fabric.Passes (fun _ => .nothing)
      (h.system.accessAtomic access.request).2.fabric := by
  have performed := standing.performed access
  generalize h.system.accessAtomic access.request = outcome at performed
  cases performed with
  | rejected lastHit => exact (Fabric.Passes.refl h.system.fabric).rerouted _
  | @performed id range holder q completion lastHit rejection found =>
    have served := Fabric.passes_setStage (x := fun _ => .nothing) found
      (holder.passes_accessAtomic q) fun _ _ => rfl
    exact served.rerouted _

theorem passes_load {s s' : Simulation} {addr : Nat} {data : List UInt8}
    (loaded : s.load addr data = .ok s') : s.fabric.Passes (fun _ => .nothing) s'.fabric := by
  obtain ⟨id, stage, store, found, rfl⟩ := Simulation.load_eq_ok loaded
  exact Fabric.passes_setStage found (stage.passes_withStore store) fun _ _ => rfl

theorem Standing.conveys (standing : h.Standing)
    (orderly : h.system.All (Stage.OfController Controller.Orderly)) (step : h.Step h') :
    ∃ x entering, h.system.fabric.Conveys x entering h'.system.fabric ∧
      h'.addressed = h.addressed + entering := by
  have config := (standing.step step).config
  cases step with
  | fires fires =>
    obtain ⟨e, others, moved, pending, -, moves, rfl⟩ := standing.moved fires
    have popped : Simulation.All _ (h.system.popped e others) := orderly
    obtain ⟨x, conveys⟩ := moves.conveys standing.chained popped
    exact ⟨x, 0, conveys.still (moved.passes_performActions pending),
      (addressed_congr config rfl).trans (add_zero _).symm⟩
  | waits => exact conveys_nothing config rfl (.refl h.system.fabric)
  | @calls call immediate =>
    cases call with
    | send access => exact standing.conveys_send access
    | atomic access => exact conveys_nothing config rfl (standing.passes_atomic access)
    | take | takeRetry => exact conveys_nothing config rfl (.refl h.system.fabric)
    | load addr data =>
      rw [Session.after] at config ⊢
      split
      next loaded =>
        rw [loaded] at config
        exact conveys_nothing config rfl (passes_load loaded)
      next => exact conveys_nothing (h := h) rfl rfl (.refl h.system.fabric)
    | runUntil | runUntilIdle | poll => cases immediate

theorem tallied_start {s : Simulation} (created : Simulation.create machine config = .ok s) :
    s.fabric.Tallied (fun _ _ => 0) (start s).addressed := by
  have fresh := Simulation.fresh_create created
  have idle {id : ComponentId} {stage : Stage} (found : s.fabric.stage? id = some stage)
      (way : Way) : stage.waiting way = 0 := by
    have unused := fresh.unused found
    cases way with
    | request => exact congrArg _ unused.requests
    | response => exact unused.answers
  refine ⟨fun id stage found => ?_, fun up down upper _ found _ => ?_,
    fun up down lower _ found _ => ?_, fun _ _ _ => rfl⟩
  · refine fresh.forall_stage (P := Stage.Counts fun _ => 0) trivial ?_ ?_ (fun _ => ?_) found
    · exact ⟨fun d => by cases d <;> rfl, fun d => by cases d <;> rfl⟩
    · exact fun way => by cases way <;> rfl
    · exact fun way => by cases way <;> rfl
  · rw [idle found, add_zero]
  · rw [idle found, add_zero]

theorem Reachable.all_orderly (reachable : Reachable config h) :
    h.system.All (Stage.OfController Controller.Orderly) := by
  intro id stage found
  cases stage with
  | controller c => exact reachable.orderly found
  | bridge | device | memory => trivial

theorem Reachable.tallied (reachable : Reachable config h) :
    ∃ took, h.system.fabric.Tallied took h.addressed := by
  have kept : h.system.All (Stage.OfController Controller.Orderly) ∧
      ∃ took, h.system.fabric.Tallied took h.addressed := by
    refine reachable.keeps (P := fun h => h.system.All (Stage.OfController Controller.Orderly) ∧
      ∃ took, h.system.fabric.Tallied took h.addressed) (fun s created => ?_)
      fun standing holds step => ?_
    · exact ⟨(Reachable.start created).all_orderly, _, tallied_start created⟩
    · obtain ⟨orderly, took, tallied⟩ := holds
      obtain ⟨x, entering, conveys, addressed⟩ := standing.conveys orderly step
      exact ⟨(lasts_stages keeps_orderly.stage).step standing orderly step, _,
        addressed ▸ tallied.conveys conveys⟩
  exact kept.2

end Session

end Expander
