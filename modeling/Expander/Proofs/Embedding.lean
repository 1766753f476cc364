import Expander.Proofs.Estimates
import Expander.Proofs.Numbering
import Expander.Proofs.Scheduling.Waiting

/-!
The controller inside a system.

A system makes calls on its controller, and replaces its bytes in a direct write. So what every call
keeps, whatever the bytes, is true of the controller in every state of a session
(`Controller.Keeps.stage`): its queues are in order, for one. And it always is the controller that
the configuration describes.
-/

set_option autoImplicit false

namespace Expander

/-- The controller that a configuration describes, in whatever state. -/
structure Controller.BuiltFrom {μ : Type} (c : Controller μ) (resolved : ResolvedConfig) :
    Prop where
  range : c.range = resolved.device.range
  config : c.config = resolved.controller
  decoder : c.decoder = ⟨resolved.media.geometry, resolved.controller.addressMapping⟩

def Stage.OfController (P : Controller Media → Prop) : Stage → Prop
  | controller c => P c
  | bridge _ | device _ | memory _ => True

/-- What every call of a controller keeps, and what does not depend on its bytes. -/
structure Controller.Keeps (P : Controller Media → Prop) : Prop where
  call : ∀ {c : Controller Media} (call : Controller.Call), P c → P (c.after call)
  store : ∀ {c : Controller Media} (store : Store), P c → P { c with store }

theorem Controller.Keeps.takeResponse {P : Controller Media → Prop} {s s' : Stage} {now : Tick}
    {p : Packet} (keeps : Controller.Keeps P) (h : s.OfController P)
    (took : s.takeResponse now = some (p, s')) : s'.OfController P := by
  cases s with
  | controller c =>
    obtain ⟨⟨head, taken⟩, some, eq⟩ := Option.map_eq_some_iff.1 took
    cases eq
    have gave : c.after (.take now) = taken := by
      simp [Controller.after, some]
    have kept : P taken := gave ▸ keeps.call (.take now) h
    exact kept
  | bridge | device | memory =>
    obtain ⟨taken, -, eq⟩ := Option.map_eq_some_iff.1 took
    cases eq
    trivial

/-- What every call of a controller keeps, every call of its stage keeps. -/
theorem Controller.Keeps.stage {P : Controller Media → Prop} (keeps : Controller.Keeps P) :
    Stage.Keeps (Stage.OfController P) where
  recvRequest {s s' now p _ _} h reply := by
    rw [show s' = (s.recvRequest now p).stage by rw [reply]]
    cases s with
    | controller c => exact keeps.call (.offer now p) h
    | bridge | device | memory => trivial
  recvResponse {s s' now p _ _} h reply := by
    rw [show s' = (s.recvResponse now p).stage by rw [reply]]
    cases s with
    | controller c => exact h
    | bridge | device | memory => trivial
  requestSent _ took := by
    rcases Stage.takeRequest_inv took with ⟨b, b', rfl, rfl, -⟩ | ⟨d, d', rfl, rfl, -⟩ <;> trivial
  requestRefused _ _ took := by
    rcases Stage.takeRequest_inv took with ⟨b, b', rfl, rfl, -⟩ | ⟨d, d', rfl, rfl, -⟩ <;> trivial
  responseSent {s s' now _} h took := by
    have left := keeps.takeResponse h took
    cases s' with
    | controller c => exact keeps.call (.sent now) left
    | bridge | device | memory => trivial
  responseRefused {s s' now _} q h took := by
    have left := keeps.takeResponse h took
    cases s' with
    | controller c => exact keeps.call (.refused now q) left
    | bridge | device | memory => trivial
  recvRequestRetry {s} _ h := by
    cases s with
    | controller c => exact h
    | bridge | device | memory => trivial
  recvResponseRetry {s} now h := by
    cases s with
    | controller c => exact keeps.call (.retry now) h
    | bridge | device | memory => trivial
  process {s} now h := by
    cases s with
    | controller c => exact keeps.call (.process now) h
    | bridge | device | memory => trivial
  accessAtomic {s} p h := by
    cases s with
    | controller c => exact keeps.call (.atomic p) h
    | bridge | device | memory => trivial
  withStore {s} store h := by
    cases s with
    | controller c => exact keeps.store store h
    | bridge | device | memory => trivial

namespace Session

variable {h : Session} {config : Config} {id : ComponentId} {c : Controller Media}

theorem keeps_orderly : Controller.Keeps Controller.Orderly where
  call call orderly := by
    rcases Controller.after_cases orderly.housed call with ⟨-, joins⟩ | ⟨now, pick, -, -, issues⟩
    · exact Controller.orderly_joins orderly joins
    · exact Controller.orderly_issues orderly issues
  store _ orderly := ⟨orderly.uninhabited, orderly.housed, orderly.kinds, orderly.room,
    orderly.phase, orderly.indexed, orderly.patience⟩

theorem Reachable.orderly (reachable : Reachable config h)
    (found : h.system.fabric.stage? id = some (.controller c)) : c.Orderly := by
  have every : h.system.All (Stage.OfController Controller.Orderly) := by
    refine (lasts_stages keeps_orderly.stage).reachable
      (fun s created id stage found => ?_) reachable
    have fresh := Simulation.fresh_create created
    refine fresh.forall_stage (P := Stage.OfController Controller.Orderly) trivial ?_ trivial
      (fun _ => trivial) found
    have channels := fresh.valid.channels_pos
    have media : List.replicate s.config.media.geometry.channels (Media.create s.config.media) ≠
        [] := by
      rw [ne_eq, List.replicate_eq_nil_iff]
      exact Nat.ne_of_gt channels
    refine ⟨fun none => absurd none media, fun none => absurd none media, ?_, ?_, fun _ => rfl,
      .refl _, ?_⟩
    all_goals
      rintro (_ | _)
      all_goals simp [Controller.queue]
  exact every id _ found

theorem Standing.builtFrom (standing : h.Standing)
    (found : h.system.fabric.stage? id = some (.controller c)) :
    c.BuiltFrom h.system.config := by
  rcases ResolvedConfig.site_cases (standing.site found) with ⟨-, site⟩ | ⟨-, peer, site⟩ |
    ⟨-, -, peer, site⟩ | ⟨-, -, bridge, -, site⟩
  · cases congrArg Site.frame site
  · injection congrArg Site.frame site with range config decoder
    exact ⟨range, config, decoder⟩
  · cases congrArg Site.frame site
  · cases congrArg Site.frame site

theorem Standing.exists_controller (standing : h.Standing) :
    ∃ c, h.system.fabric.stage? 1 = some (.controller c) := by
  have site : ∃ peer, h.system.config.sites[1]? = some (h.system.config.controllerSite peer) := by
    rcases h.system.config.sites_cases with eq | eq | ⟨bridge, -, eq⟩ <;> rw [eq] <;>
      exact ⟨_, rfl⟩
  obtain ⟨peer, site⟩ := site
  obtain ⟨stage, found⟩ := Fabric.exists_stage (standing.sites ▸ site)
  have frame : stage.view.frame = (h.system.config.controllerSite peer).frame :=
    congrArg Site.frame (Option.some.inj ((standing.site found).symm.trans site))
  cases stage with
  | controller c => exact ⟨c, found⟩
  | bridge | device | memory => cases frame

end Session

end Expander
