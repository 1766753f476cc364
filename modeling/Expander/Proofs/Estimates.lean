import Expander.Proofs.Chronology
import Expander.Proofs.Stage.Estimates

/-!
The estimates of a whole system.

Every packet under way has an estimate of the tick at which it can be back at the host. The stages
have the latencies of the configuration, and only the stage that faces the host has a header delay
to charge (`Simulation.Tuned`); so a move of a packet from stage to stage brings no estimate forward
(`Simulation.noSooner_moved`).
-/

set_option autoImplicit false

namespace Expander

namespace Stage

/-- The media have one timing, and no packet carries a header delay; only the stage that faces the
host has some to charge yet. -/
structure Tuned (timing : MediaTiming) (faced : Prop) (s : Stage) : Prop where
  clocked : s.Clocked timing
  outbound : ∀ w ∈ s.outbound, w.packet.headerDelay = 0
  parked : ∀ r ∈ s.parked, r.packet.headerDelay = 0 ∧ (¬faced → r.headerDelay = 0)
  homebound : ∀ w ∈ s.homebound, w.packet.headerDelay = 0

variable {s s' : Stage} {timing : MediaTiming} {faced : Prop} {now : Tick} {p : Packet}
  {w : Waiting}

theorem Clocked.of_channels (h : s.Clocked timing) (same : s'.channels = s.channels) :
    s'.Clocked timing :=
  fun m mem => h m (same ▸ mem)

theorem Tuned.sameHold (h : s.Tuned timing faced) (same : s.SameHold s') :
    s'.Tuned timing faced where
  clocked := h.clocked.of_channels same.channels
  outbound := same.outbound ▸ h.outbound
  parked := same.parked ▸ h.parked
  homebound := same.homebound ▸ h.homebound

theorem Tuned.takes (h : s.Tuned timing faced) (takes : s.Takes now p s')
    (carried : ¬faced → p.headerDelay = 0) : s'.Tuned timing faced := by
  cases takes with
  | queues w _ _ charged _ channels outbound parked homebound =>
    refine ⟨h.clocked.of_channels channels, fun w' mem => ?_, parked ▸ h.parked,
      homebound ▸ h.homebound⟩
    rw [outbound] at mem
    rcases List.mem_append.1 mem with old | new
    · exact h.outbound w' old
    · exact List.mem_singleton.1 new ▸ charged
  | parks r _ _ _ charged delay channels outbound _ parked homebound =>
    refine ⟨h.clocked.of_channels channels, outbound ▸ h.outbound, fun r' mem => ?_,
      homebound ▸ h.homebound⟩
    rcases parked r' mem with rfl | old
    · exact ⟨charged, fun inner => delay.trans (carried inner)⟩
    · exact h.parked r' old
  | answers w _ _ _ charged _ channels outbound parked homebound =>
    refine ⟨h.clocked.of_channels channels, outbound ▸ h.outbound, parked ▸ h.parked,
      fun w' mem => ?_⟩
    rcases List.mem_cons.1 (homebound.mem_iff.1 mem) with rfl | old
    · exact charged
    · exact h.homebound w' old

theorem Tuned.takesBack (h : s.Tuned timing faced) (takes : s.TakesBack now p s' w) :
    s'.Tuned timing faced := by
  refine ⟨h.clocked.of_channels takes.channels, takes.outbound ▸ h.outbound,
    takes.parked ▸ h.parked, fun w' mem => ?_⟩
  rw [takes.homebound] at mem
  rcases List.mem_append.1 mem with old | new
  · exact h.homebound w' old
  · exact List.mem_singleton.1 new ▸ takes.charged

theorem Tuned.takeRequest (h : s.Tuned timing faced) (took : s.takeRequest now = some (p, s')) :
    p.headerDelay = 0 ∧ s'.Tuned timing faced ∧
      (s'.requestRefused now p).Tuned timing faced := by
  obtain ⟨ready, -, outbound, channels, parked, homebound⟩ := hold_takeRequest took
  obtain ⟨outbound', channels', parked', homebound'⟩ := hold_requestRefused took
  have charged : p.headerDelay = 0 := h.outbound ⟨p, ready⟩ (outbound ▸ List.mem_cons_self)
  have left : s'.Tuned timing faced := by
    refine ⟨h.clocked.of_channels channels, fun w mem => ?_, parked ▸ h.parked,
      homebound ▸ h.homebound⟩
    exact h.outbound w (outbound ▸ List.mem_cons_of_mem _ mem)
  refine ⟨charged, left, left.clocked.of_channels channels', fun w mem => ?_,
    parked' ▸ left.parked, homebound' ▸ left.homebound⟩
  rw [outbound'] at mem
  rcases List.mem_cons.1 mem with rfl | old
  · exact charged
  · exact left.outbound w old

theorem Tuned.takeResponse (h : s.Tuned timing faced)
    (took : s.takeResponse now = some (p, s')) :
    p.headerDelay = 0 ∧ s'.Tuned timing faced ∧
      (s'.responseRefused now p).Tuned timing faced := by
  obtain ⟨ready, -, homebound, channels, outbound, parked, place, -, homebound', channels',
    outbound', parked'⟩ := hold_takeResponse took
  have charged : p.headerDelay = 0 :=
    h.homebound ⟨p, ready⟩ (homebound.mem_iff.2 List.mem_cons_self)
  have stays (w : Waiting) (mem : w ∈ s'.homebound) : w.packet.headerDelay = 0 :=
    h.homebound w (homebound.mem_iff.2 (List.mem_cons_of_mem _ mem))
  refine ⟨charged, ⟨h.clocked.of_channels channels, outbound ▸ h.outbound, parked ▸ h.parked,
    stays⟩, h.clocked.of_channels channels', outbound' ▸ h.outbound, parked' ▸ h.parked,
    fun w mem => ?_⟩
  rcases List.mem_cons.1 (homebound'.mem_iff.1 mem) with rfl | old
  · exact charged
  · exact stays w old

theorem Tuned.works (h : s.Tuned timing faced) (works : s.Works timing now s') :
    s'.Tuned timing faced := by
  refine ⟨works.clocked, works.outbound ▸ h.outbound, fun r' mem => ?_, fun w mem => ?_⟩
  · obtain ⟨r, mem, packet, delay⟩ := works.parked r' mem
    rw [packet, delay]
    exact h.parked r mem
  · rcases works.homebound w mem with old | ⟨r, mem, done, -, packet, -⟩
    · exact h.homebound w old
    · rw [packet]
      exact (h.parked r mem).1

end Stage

namespace ResolvedConfig

def Faced (c : ResolvedConfig) (id : ComponentId) : Prop := id = 0 ∨ id + 1 = c.sites.length

end ResolvedConfig

namespace Simulation

variable {s : Simulation} {id i : ComponentId} {stage old : Stage} {wait : Tick} {e : Estimate}

theorem sameHold_setStage {found : Stage} (stands : s.fabric.stage? id = some old)
    (same : old.SameHold stage) (after : (s.setStage id stage).fabric.stage? i = some found) :
    ∃ before, s.fabric.stage? i = some before ∧ before.SameHold found := by
  rcases Fabric.stage?_setStage_cases stands after with ⟨rfl, rfl, before⟩ | ⟨-, before⟩
  · exact ⟨_, before, same⟩
  · exact ⟨_, before, .refl _⟩

theorem sameHold_performActions (pending : List (ComponentId × Action))
    (found : (s.performActions pending).fabric.stage? i = some stage) :
    ∃ before, s.fabric.stage? i = some before ∧ before.SameHold stage := by
  obtain ⟨before, stands, told⟩ := told_performActions pending found
  refine ⟨before, stands, ?_⟩
  clear found
  induction told with
  | still => exact .refl before
  | request _ ih => exact ih.trans (Stage.sameHold_recvRequestRetry ..)
  | response _ ih => exact ih.trans (Stage.sameHold_recvResponseRetry ..)

def Expects (wait : Tick) (s : Simulation) (e : Estimate) : Prop :=
  ∃ id stage, s.fabric.stage? id = some stage ∧ e ∈ stage.estimates s.config wait s.now id

theorem Expects.of_setStage (expects : (s.setStage id stage).Expects wait e) :
    e ∈ stage.estimates s.config wait s.now id ∨ s.Expects wait e := by
  obtain ⟨i, found, after, mem⟩ := expects
  by_cases eq : i = id
  · subst eq
    rcases Fabric.stage?_setStage_or after with rfl | before
    · exact .inl mem
    · exact .inr ⟨i, found, before, mem⟩
  · have before : s.fabric.stage? i = some found := by
      rw [← Fabric.stage?_setStage_ne eq]
      exact after
    exact .inr ⟨i, found, before, mem⟩

theorem Expects.of_performActions {pending : List (ComponentId × Action)}
    (expects : (s.performActions pending).Expects wait e) : s.Expects wait e := by
  obtain ⟨i, stage, found, mem⟩ := expects
  obtain ⟨before, stands, same⟩ := sameHold_performActions pending found
  rw [config_performActions, now_performActions, same.estimates] at mem
  exact ⟨i, before, stands, mem⟩

/-- The latencies of the stages are those of the configuration. -/
structure Laid (s : Simulation) : Prop where
  latency : ∀ id stage, s.fabric.stage? id = some stage → ∀ p,
    stage.latency p = s.config.latencyOf p id
  forwards : ∀ id stage, s.fabric.stage? id = some stage →
    stage.forwardsRequests = decide (2 ≤ id)
  backend : ∀ id stage, s.fabric.stage? id = some stage → stage.parked ≠ [] →
    stage.backend = s.config.controller.backendLatency
  outward : ∀ id down, s.fabric.memorySide? id = some down → ∀ p,
    s.config.onward p id = s.config.latencyOf p down + s.config.onward p down
  homeward : ∀ id up, s.fabric.hostSide? id = some (.component up) → ∀ p,
    s.config.homeward p id = s.config.latencyOf p up + s.config.homeward p up
  host : ∀ id, s.fabric.hostSide? id = some .host → ∀ p,
    s.config.homeward p id = s.config.transit p.payload

/-- The interconnect and the stages are as the configuration says. -/
structure Tuned (s : Simulation) : Prop where
  bus : s.fabric.bus = s.config.bus
  stages : ∀ id stage, s.fabric.stage? id = some stage →
    stage.Tuned s.config.media.timing (s.config.Faced id)

theorem Tuned.transit (h : s.Tuned) (bytes : Nat) :
    s.fabric.interconnect.transitTime bytes = s.config.transit bytes := by
  have bus := h.bus
  simp only [Fabric.bus, ResolvedConfig.bus, Prod.mk.injEq] at bus
  rw [Interconnect.transitTime, ResolvedConfig.transit, bus.1, bus.2.1, bus.2.2]

/-- What is expected of the stages and completions after a step is expected no sooner. -/
structure NoSooner (wait : Tick) (s s' : Simulation) : Prop where
  stages : ∀ e, s'.Expects wait e → ∃ e₀, s.Expects wait e₀ ∧
    e₀.transaction = e.transaction ∧ e₀.tick ≤ e.tick
  completions : ∀ c ∈ s'.completions, c ∈ s.completions ∨ ∃ e₀, s.Expects wait e₀ ∧
    e₀.transaction = c.transaction ∧ e₀.tick ≤ c.completed

variable {after : Simulation} {kind : EventKind} {pending : List (ComponentId × Action)}

theorem NoSooner.of_stages {s' : Simulation} (completions : s'.completions = s.completions)
    (stages : ∀ e, s'.Expects wait e → ∃ e₀, s.Expects wait e₀ ∧
      e₀.transaction = e.transaction ∧ e₀.tick ≤ e.tick) : s.NoSooner wait s' :=
  ⟨stages, fun _ mem => .inl (completions ▸ mem)⟩

theorem Expects.of_setStage_setStage {i : ComponentId} {other : Stage}
    (expects : ((s.setStage i other).setStage id stage).Expects wait e) :
    e ∈ stage.estimates s.config wait s.now id ∨ e ∈ other.estimates s.config wait s.now i ∨
      s.Expects wait e :=
  expects.of_setStage.imp_right Expects.of_setStage

/-- A move of a packet brings nothing forward. -/
theorem noSooner_moved (laid : s.Laid) (tuned : s.Tuned)
    (le : wait ≤ s.config.media.timing.least + s.config.controller.backendLatency)
    (moves : s.Moved id kind after pending) : s.NoSooner wait after := by
  -- What a stage holds in the same place and until the same tick is expected as before.
  have kept {e : Estimate} (expects : s.Expects wait e) : ∃ e₀, s.Expects wait e₀ ∧
      e₀.transaction = e.transaction ∧ e₀.tick ≤ e.tick := ⟨e, expects, rfl, Nat.le_refl _⟩
  have later {i : ComponentId} {stage : Stage} {estimates : List Estimate} {e : Estimate}
      (found : s.fabric.stage? i = some stage)
      (later : Estimate.NoSooner (stage.estimates s.config wait s.now i) estimates)
      (mem : e ∈ estimates) : ∃ e₀, s.Expects wait e₀ ∧
        e₀.transaction = e.transaction ∧ e₀.tick ≤ e.tick := by
    obtain ⟨e₀, mem₀, same, le⟩ := later e mem
    exact ⟨e₀, ⟨i, stage, found, mem₀⟩, same, le⟩
  cases moves with
  | idle => exact .of_stages rfl fun e => kept
  | @request down upper taken lower answered p actions behind hupper hlower took reply =>
    obtain ⟨⟨e₀, mem₀, same, soon⟩, stays, -⟩ := Stage.estimates_takeRequest s.config wait id took
    refine .of_stages rfl fun e expects => ?_
    rcases expects.of_setStage_setStage with upper | lower | others
    · rw [(Stage.sameHold_requestSent taken s.now).estimates] at upper
      exact kept ⟨id, _, hupper, stays upper⟩
    · rcases (Stage.takes_recvRequest reply).estimates (laid.latency _ _ hlower _)
        (laid.forwards _ _ hlower) lower with old | ⟨new, late⟩
      · exact kept ⟨down, _, hlower, old⟩
      · refine ⟨e₀, ⟨id, _, hupper, mem₀⟩, same.trans new.symm, Nat.le_trans soon ?_⟩
        have paid : s.now + s.config.onward p id ≤ s.now + p.headerDelay +
            s.config.latencyOf p down + s.config.onward p down := by
          rw [laid.outward _ _ behind]
          grind
        exact Nat.le_trans paid late
    · exact kept others
  | @requestBack down upper taken lower refused p behind hupper hlower took reply denies =>
    obtain ⟨-, -, back⟩ := Stage.estimates_takeRequest s.config wait id took
    refine .of_stages rfl fun e expects => ?_
    rcases expects.of_setStage_setStage with upper | lower | others
    · exact later hupper back upper
    · rw [denies.sameHold.estimates] at lower
      exact kept ⟨down, _, hlower, lower⟩
    · exact kept others
  | @response up lower taken upper answered p actions before hlower hupper took reply =>
    obtain ⟨⟨e₀, mem₀, same, soon⟩, stays, -⟩ := Stage.estimates_takeResponse s.config wait id took
    obtain ⟨w, takes⟩ := Stage.takesBack_recvResponse reply
    refine .of_stages rfl fun e expects => ?_
    rcases expects.of_setStage_setStage with lower | upper | others
    · rw [(Stage.sameHold_responseSent taken s.now).estimates] at lower
      exact kept ⟨id, _, hlower, stays lower⟩
    · rcases takes.estimates (laid.latency _ _ hupper _) upper with old | ⟨new, late⟩
      · exact kept ⟨up, _, hupper, old⟩
      · refine ⟨e₀, ⟨id, _, hlower, mem₀⟩, same.trans new.symm, Nat.le_trans soon ?_⟩
        have paid : s.now + s.config.homeward p id ≤ s.now + p.headerDelay +
            s.config.latencyOf p up + s.config.homeward p up := by
          rw [laid.homeward _ _ before]
          grind
        exact Nat.le_trans paid late
    · exact kept others
  | @responseBack up lower taken upper refused p before hlower hupper took reply denies =>
    obtain ⟨-, -, back⟩ := Stage.estimates_takeResponse s.config wait id took
    refine .of_stages rfl fun e expects => ?_
    rcases expects.of_setStage_setStage with lower | upper | others
    · exact later hlower back lower
    · rw [denies.sameHold.estimates] at upper
      exact kept ⟨up, _, hupper, upper⟩
    · exact kept others
  | @completed lower taken p host hlower took =>
    obtain ⟨⟨e₀, mem₀, same, soon⟩, stays, -⟩ := Stage.estimates_takeResponse s.config wait id took
    refine ⟨fun e expects => ?_, fun c mem => ?_⟩
    · rcases expects.of_setStage with lower | others
      · rw [(Stage.sameHold_responseSent taken s.now).estimates] at lower
        exact kept ⟨id, _, hlower, stays lower⟩
      · exact kept others
    · rcases List.mem_append.1 mem with old | new
      · exact .inl old
      · cases List.mem_singleton.1 new
        refine .inr ⟨e₀, ⟨id, _, hlower, mem₀⟩, same, Nat.le_trans soon ?_⟩
        rw [laid.host _ host, Completion.ofResponse, tuned.transit]
  | @processed stage found =>
    have works : stage.Works s.config.media.timing s.now (stage.process s.now).1 :=
      Stage.works_process (tuned.stages _ _ found).clocked
    refine .of_stages rfl fun e expects => ?_
    rcases expects.of_setStage with worked | others
    · refine later found (works.estimates (fun reads => ?_) (laid.latency _ _ found)) worked
      rw [laid.backend _ _ found reads]
      exact le
    · exact kept others

end Simulation

namespace ResolvedConfig

variable {c : ResolvedConfig} {id : ComponentId} {site : Site}

theorem site_cases (found : c.sites[id]? = some site) :
    (id = 0 ∧ site = c.memorySite) ∨ (id = 1 ∧ ∃ peer, site = c.controllerSite peer) ∨
    (id = 2 ∧ c.topology ≠ .controller ∧ ∃ peer, site = c.deviceSite peer) ∨
    (id = 3 ∧ c.topology ≠ .controller ∧ ∃ bridge, c.bridge = some bridge ∧
      site = c.bridgeSite bridge) := by
  rw [sites] at found
  cases topology : c.topology <;> cases bridge : c.bridge <;> simp only [topology, bridge] at found
  all_goals
    rcases id with _ | _ | _ | _ | id <;> cases found <;> simp

theorem id_le (found : c.sites[id]? = some site) : id ≤ 3 := by
  rcases site_cases found with ⟨rfl, -⟩ | ⟨rfl, -⟩ | ⟨rfl, -⟩ | ⟨rfl, -⟩ <;> decide

/-- The stage of a component has the latency that its configuration says. -/
theorem latency_eq {stage : Stage} (found : c.sites[id]? = some site)
    (frame : stage.view.frame = site.frame) :
    (∀ p, stage.latency p = c.latencyOf p id) ∧ stage.forwardsRequests = decide (2 ≤ id) ∧
      (stage.parked ≠ [] → stage.backend = c.controller.backendLatency) := by
  rcases site_cases found with ⟨rfl, rfl⟩ | ⟨rfl, peer, rfl⟩ | ⟨rfl, built, peer, rfl⟩ |
    ⟨rfl, built, bridge, some, rfl⟩
  · cases stage with
    | memory m =>
      injection frame with range latency bytes
      exact ⟨fun _ => latency, rfl, absurd rfl⟩
    | bridge | device | controller => cases frame
  · cases stage with
    | controller x =>
      injection frame with range config decoder channels bytes
      exact ⟨fun _ => congrArg ControllerConfig.frontendLatency config, rfl,
        fun _ => congrArg ControllerConfig.backendLatency config⟩
    | bridge | device | memory => cases frame
  · cases stage with
    | device d =>
      injection frame with config requests responses
      refine ⟨fun _ => ?_, rfl, absurd rfl⟩
      rw [latencyOf, deviceLatency, if_neg built, ← config, Stage.latency]
    | bridge | controller | memory => cases frame
  · cases stage with
    | bridge b =>
      injection frame with config expander requests responses
      refine ⟨fun p => ?_, rfl, absurd rfl⟩
      rw [latencyOf, bridgeToll, bridge?, if_neg built, some, Stage.latency, Bridge.delayFor,
        config, expander]
    | device | controller | memory => cases frame

end ResolvedConfig

namespace Session

variable {h : Session}

theorem Standing.laid (standing : h.Standing) : h.system.Laid := by
  have chained := standing.chained
  have low (id : ComponentId) (stage : Stage) (found : h.system.fabric.stage? id = some stage) :
      id ≤ 3 := ResolvedConfig.id_le (standing.site found)
  refine ⟨fun id stage found => ?_, fun id stage found => ?_, fun id stage found => ?_,
    fun id down behind p => ?_, fun id up before p => ?_, fun id host p => ?_⟩
  · exact (ResolvedConfig.latency_eq (standing.site found) rfl).1
  · exact (ResolvedConfig.latency_eq (standing.site found) rfl).2.1
  · exact (ResolvedConfig.latency_eq (standing.site found) rfl).2.2
  · obtain ⟨upper, hupper⟩ := Fabric.exists_of_memorySide? behind
    obtain ⟨rfl, pos, -, -⟩ := Fabric.stage_behind chained behind
    exact ResolvedConfig.onward_succ _ p pos (Nat.le_of_succ_le_succ (low _ _ hupper))
  · obtain ⟨rfl, pos, -, upper, hupper⟩ := Fabric.stage_before chained before
    exact ResolvedConfig.homeward_succ _ p pos (Nat.le_of_succ_le_succ (low _ _ hupper))
  · obtain ⟨stage, found⟩ := Fabric.exists_of_hostSide? host
    have placed := (Fabric.placed_stage chained found).host.1 host
    rw [standing.sites] at placed
    exact ResolvedConfig.homeward_front _ p placed

end Session

namespace Simulation

variable {s after : Simulation} {id : ComponentId} {stage : Stage} {kind : EventKind}
  {pending : List (ComponentId × Action)} {machine : Machine} {config : Config}

theorem Tuned.setStage (h : s.Tuned)
    (tuned : stage.Tuned s.config.media.timing (s.config.Faced id)) :
    (s.setStage id stage).Tuned := by
  refine ⟨h.bus, fun i found after => ?_⟩
  by_cases eq : i = id
  · subst eq
    rcases Fabric.stage?_setStage_or after with rfl | before
    · exact tuned
    · exact h.stages i found before
  · have before : s.fabric.stage? i = some found := by
      rw [← Fabric.stage?_setStage_ne eq]
      exact after
    exact h.stages i found before

theorem Tuned.performActions (h : s.Tuned) (pending : List (ComponentId × Action)) :
    (s.performActions pending).Tuned := by
  have kept : (s.performActions pending).config = s.config ∧
      (s.performActions pending).fabric.bus = s.fabric.bus := by
    obtain ⟨_, _, _, eq⟩ := (sameBooks_performActions s pending).rest
    rw [eq]
    exact ⟨rfl, rfl⟩
  refine ⟨kept.2.trans (kept.1 ▸ h.bus), fun i found after => ?_⟩
  obtain ⟨before, stands, same⟩ := sameHold_performActions pending after
  rw [kept.1]
  exact (h.stages i before stands).sameHold same

theorem Tuned.moved (h : s.Tuned) (moves : s.Moved id kind after pending) : after.Tuned := by
  cases moves with
  | idle => exact h
  | request behind hupper hlower took reply =>
    obtain ⟨charged, left, -⟩ := (h.stages _ _ hupper).takeRequest took
    have taken := (h.stages _ _ hlower).takes (Stage.takes_recvRequest reply) fun _ => charged
    exact (h.setStage taken).setStage (left.sameHold (Stage.sameHold_requestSent ..))
  | requestBack behind hupper hlower took reply denies =>
    obtain ⟨-, -, back⟩ := (h.stages _ _ hupper).takeRequest took
    exact (h.setStage ((h.stages _ _ hlower).sameHold denies.sameHold)).setStage back
  | response before hlower hupper took reply =>
    obtain ⟨-, left, -⟩ := (h.stages _ _ hlower).takeResponse took
    obtain ⟨w, takes⟩ := Stage.takesBack_recvResponse reply
    exact (h.setStage ((h.stages _ _ hupper).takesBack takes)).setStage
      (left.sameHold (Stage.sameHold_responseSent ..))
  | responseBack before hlower hupper took reply denies =>
    obtain ⟨-, -, back⟩ := (h.stages _ _ hlower).takeResponse took
    exact (h.setStage ((h.stages _ _ hupper).sameHold denies.sameHold)).setStage back
  | completed host hlower took =>
    obtain ⟨-, left, -⟩ := (h.stages _ _ hlower).takeResponse took
    exact Tuned.setStage ⟨h.bus, h.stages⟩ (left.sameHold (Stage.sameHold_responseSent ..))
  | processed found =>
    have tuned := h.stages _ _ found
    exact h.setStage (tuned.works (Stage.works_process tuned.clocked))

theorem tuned_create (created : create machine config = .ok s) : s.Tuned := by
  refine ⟨bus_create created, fun id stage found => ?_⟩
  have none (stage : Stage) (clocked : stage.Clocked s.config.media.timing)
      (empty : stage.outbound = [] ∧ stage.parked = [] ∧ stage.homebound = []) :
      stage.Tuned s.config.media.timing (s.config.Faced id) := by
    refine ⟨clocked, ?_, ?_, ?_⟩
    · rw [empty.1]
      exact nofun
    · rw [empty.2.1]
      exact nofun
    · rw [empty.2.2]
      exact nofun
  refine (fresh_create created).forall_stage (none _ nofun ⟨rfl, rfl, rfl⟩)
    (none _ (fun m mem => ?_) ⟨rfl, rfl, rfl⟩) (none _ nofun ⟨rfl, rfl, rfl⟩)
    (fun _ => none _ nofun ⟨rfl, rfl, rfl⟩) found
  rw [(List.mem_replicate.1 mem).2, Media.timing_create]

end Simulation

namespace Session

variable {h h' : Session} {machine : Machine} {config : Config}

theorem lasts_tuned : Lasts Simulation.Tuned where
  fires standing tuned fires := by
    obtain ⟨e, others, moved, pending, -, moves, rfl⟩ := standing.moved fires
    have popped : Simulation.Tuned (Simulation.popped _ e others) := ⟨tuned.bus, tuned.stages⟩
    exact (popped.moved moves).performActions pending
  eased _ _ _ tuned := ⟨tuned.bus, tuned.stages⟩
  send access standing tuned := by
    have offers := standing.offers access
    generalize Simulation.sendRequest _ _ = outcome at offers
    cases offers with
    | rejected => exact ⟨tuned.bus, tuned.stages⟩
    | refused lastHit _ _ found _ _ denies =>
      have refused : Simulation.Tuned (Simulation.setStage _ _ _) :=
        tuned.setStage ((tuned.stages _ _ found).sameHold denies.sameHold)
      exact ⟨refused.bus, refused.stages⟩
    | accepted lastHit _ faced found _ reply =>
      have placed := (Fabric.placed_stage standing.chained found).host.1 faced
      rw [standing.sites] at placed
      have taken := (tuned.stages _ _ found).takes (Stage.takes_recvRequest reply) (absurd placed)
      refine Simulation.Tuned.performActions ?_ _
      exact Simulation.Tuned.setStage ⟨tuned.bus, tuned.stages⟩ taken
  atomic access standing tuned := by
    have performed := standing.performed access
    generalize Simulation.accessAtomic _ _ = outcome at performed
    cases performed with
    | rejected => exact ⟨tuned.bus, tuned.stages⟩
    | performed lastHit _ found =>
      refine Simulation.Tuned.setStage ⟨tuned.bus, tuned.stages⟩ ?_
      exact (tuned.stages _ _ found).sameHold (Stage.sameHold_accessAtomic ..)
  load standing tuned loaded := by
    obtain ⟨_, _, _, found, rfl⟩ := Simulation.load_eq_ok loaded
    exact tuned.setStage ((tuned.stages _ _ found).sameHold (Stage.sameHold_withStore ..))

theorem Reachable.tuned (reachable : Reachable config h) : h.system.Tuned :=
  lasts_tuned.reachable (fun _ => Simulation.tuned_create) reachable

end Session

end Expander
