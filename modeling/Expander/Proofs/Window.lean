import Expander.Proofs.Agreement
import Expander.Proofs.Capacity
import Expander.Proofs.Embedding
import Expander.Proofs.Scheduling.Books

/-!
The window at the host, and what the controller behind it has room for.

The window counts the bursts of an access as the controller splits it, and is as wide as the
narrowest of the queues and limits of the controller. So an idle controller takes every access that
passes (`idle_takes_checked`). But the window measures a read by the limits for writes too, and a
write by those for reads. So not every access that is turned away as too large is beyond the
controller: just those are that have more bursts than the limits of their own direction allow
(`never_taken_iff`).
-/

set_option autoImplicit false

namespace Expander

def AccessKind.direction : AccessKind → BusDirection
  | read => .read
  | write => .write

def ControllerConfig.burstLimit (c : ControllerConfig) (d : BusDirection) : Nat :=
  min (c.bufferSize d) (c.pendingLimit d)

namespace Controller

variable {μ : Type} {c : Controller μ} {now : Tick} {p : Packet} {needed : Nat}

/-- No burst is queued, and none is in flight. -/
structure Idle (c : Controller μ) (now : Tick) : Prop where
  reads : c.readQueue = []
  writes : c.writeQueue = []
  done : ∀ tick ∈ c.readsInFlight ++ c.writesInFlight, tick ≤ now

/-- There is room for more bursts of a direction. -/
def Fits (c : Controller μ) (d : BusDirection) (now : Tick) (needed : Nat) : Prop :=
  (c.queue d).length + needed ≤ c.config.bufferSize d ∧
    c.outstanding d now + needed ≤ c.config.pendingLimit d

theorem Fits.le_burstLimit {d : BusDirection} (fits : c.Fits d now needed) :
    needed ≤ c.config.burstLimit d :=
  Nat.le_min.2 ⟨Nat.le_of_add_left_le fits.1, Nat.le_of_add_left_le fits.2⟩

theorem Idle.fits_iff (idle : c.Idle now) (d : BusDirection) :
    c.Fits d now needed ↔ needed ≤ c.config.burstLimit d := by
  have queue : c.queue d = [] := by
    cases d
    · exact idle.reads
    · exact idle.writes
  have done : countAfter (c.inFlight d) now = 0 := by
    refine List.countP_eq_zero.2 fun tick mem => ?_
    have behind : tick ≤ now := by
      refine idle.done tick (List.mem_append.2 ?_)
      cases d
      · exact .inl mem
      · exact .inr mem
    simpa using behind
  rw [Fits, outstanding, queue, done, ControllerConfig.burstLimit, Nat.le_min]
  simp

theorem fits_prune {d : BusDirection} :
    (c.prune now).Fits d now needed ↔ c.Fits d now needed := by
  have filtered : countAfter ((c.prune now).inFlight d) now = countAfter (c.inFlight d) now := by
    cases d <;> exact countAfter_filter (Nat.le_refl now)
  have queue : (c.prune now).queue d = c.queue d := by
    cases d <;> rfl
  rw [Fits, Fits, outstanding, outstanding, filtered, queue]
  rfl

theorem readRoom_iff : c.readRoom now needed = true ↔ c.Fits .read now needed := decide_eq_true_iff

theorem writeRoom_iff : c.writeRoom now needed = true ↔ c.Fits .write now needed :=
  decide_eq_true_iff

theorem recvRequest_fits (now : Tick) (serves : c.range.containsAccess p.addr p.size = true) :
    (c.Fits p.kind.direction now (c.freshBurstsOf p).length ∧
      (c.recvRequest now p).answer = .accepted) ∨
    (¬ c.Fits p.kind.direction now (c.freshBurstsOf p).length ∧
      (c.recvRequest now p).answer = .busy p) := by
  have fresh : (c.prune now).freshBurstsOf p = c.freshBurstsOf p := rfl
  rw [← fits_prune, ← fresh]
  rcases recvRequest_eq c now p with ⟨unserved, -⟩ | ⟨-, kind, eq⟩ | ⟨-, kind, eq⟩
  · cases serves.symm.trans unserved
  · rw [eq, kind, AccessKind.direction, ← readRoom_iff, acceptRead]
    cases (c.prune now).readRoom now ((c.prune now).freshBurstsOf p).length with
    | false => exact .inr ⟨Bool.false_ne_true, rfl⟩
    | true =>
      refine .inl ⟨rfl, ?_⟩
      simp only [Bool.not_true, Bool.false_eq_true, if_false]
      split <;> rfl
  · rw [eq, kind, AccessKind.direction, ← writeRoom_iff, acceptWrite]
    cases (c.prune now).writeRoom now ((c.prune now).freshBurstsOf p).length with
    | false => exact .inr ⟨Bool.false_ne_true, rfl⟩
    | true => exact .inl ⟨rfl, rfl⟩

end Controller

namespace RequestWindow

variable {w : RequestWindow} {r : HostRequest}

theorem burstCount_eq_length {d : AddressDecoder} {offset size : Nat}
    (same : w.burst = d.geometry.burstSize) (positive : 0 < d.geometry.burstSize)
    (low : offset + (max size 1 - 1) ≤ lastAddress) :
    w.burstCount offset size = (d.burstsOf offset size).length := by
  have last : offset + max size 1 - 1 = offset + (max size 1 - 1) :=
    Nat.add_sub_assoc (Nat.le_max_right size 1) offset
  rw [burstCount, AddressDecoder.burstsOf, List.length_map, List.length_range, last,
    Nat.min_eq_left low, same, Nat.max_eq_left positive, AddressDecoder.burstAlign]

theorem check_eq_ok_iff (inside : w.range.contains r.addr = true) :
    w.check r = .ok () ↔ w.burstCount (w.range.offsetOf r.addr) r.size ≤ w.maxBursts := by
  rw [check, inside, Bool.true_and, ← Nat.not_lt]
  split
  next beyond => simpa using beyond
  next fits => simpa using fits

theorem check_eq_error_iff (inside : w.range.contains r.addr = true) :
    (∃ limit, w.check r = .error (.requestTooLarge r.addr r.size limit)) ↔
      w.maxBursts < w.burstCount (w.range.offsetOf r.addr) r.size := by
  rw [check, inside, Bool.true_and]
  split
  next beyond => simpa using beyond
  next fits => simpa using fits

theorem maxBursts_ofConfig (c : ResolvedConfig) : (ofConfig c).maxBursts =
    min (c.controller.burstLimit .read) (c.controller.burstLimit .write) := by
  simp only [ofConfig, ControllerConfig.burstLimit, ControllerConfig.bufferSize,
    ControllerConfig.pendingLimit]
  omega

end RequestWindow

theorem AddressRange.offsetOf_le {range : AddressRange} {addr size : Nat}
    (inside : range.containsAccess addr size = true) :
    range.offsetOf addr + (max size 1 - 1) ≤ lastAddress := by
  obtain ⟨low, -, high⟩ := containsAccess_iff.1 inside
  rw [stop] at high
  rw [offsetOf]
  omega

theorem Simulation.rejection?_eq_tooLarge {s : Simulation} {r : HostRequest}
    {addr size limit : Nat} : s.rejection? r = some (.requestTooLarge addr size limit) ↔
      s.window.check r = .error (.requestTooLarge addr size limit) := by
  rw [rejection?]
  split
  next e check => simp [check]
  next check =>
    rw [check]
    split <;> simp [unrouted]

theorem Simulation.window_create {machine : Machine} {config : Config} {s : Simulation}
    (created : create machine config = .ok s) : s.window = .ofConfig s.config := by
  obtain ⟨attached, fabric, -, -, -, eq⟩ := create_eq_ok created
  rw [eq]

namespace Session

variable {h : Session} {machine : Machine} {config : Config} {access : Access}
  {c : Controller Media} {p : Packet} {id : ComponentId} {now : Tick}

theorem Reachable.window (reachable : Reachable config h) :
    h.system.window = .ofConfig h.system.config ∧ config.resolve = .ok h.system.config := by
  refine reachable.keeps
    (P := fun h => h.system.window = .ofConfig h.system.config ∧
      config.resolve = .ok h.system.config)
    (fun s created => ⟨Simulation.window_create created, Simulation.resolve_of_create created⟩) ?_
  rintro h h' standing ⟨window, resolved⟩ step
  have same : h'.system.entrance = h.system.entrance := (lasts_entrance _).step standing rfl step
  rw [(standing.step step).config]
  exact ⟨(congrArg Prod.fst same).trans window, resolved⟩

def spanned (h : Session) (access : Access) : Nat :=
  h.system.window.burstCount (h.system.window.range.offsetOf access.request.addr)
    access.request.size

theorem Reachable.spanned_eq (reachable : Reachable config h)
    (inside : h.expander.containsAccess access.request.addr access.request.size = true)
    (built : c.BuiltFrom h.system.config) (carried : HostRequest.ofPacket p = access.request) :
    h.spanned access = (c.burstsOf p).length := by
  obtain ⟨window, resolved⟩ := reachable.window
  have regular := Geometry.regular_of_validate (Config.resolve_geometry resolved)
  have decoder : c.decoder.geometry = h.system.config.media.geometry := by
    rw [built.decoder]
  rw [spanned, window, ← carried, Controller.burstsOf, built.range]
  rw [← carried] at inside
  exact RequestWindow.burstCount_eq_length (congrArg Geometry.burstSize decoder.symm)
    (decoder ▸ regular.burst) (AddressRange.offsetOf_le inside)

theorem serves_of_builtFrom
    (inside : h.expander.containsAccess access.request.addr access.request.size = true)
    (built : c.BuiltFrom h.system.config) (carried : HostRequest.ofPacket p = access.request) :
    c.range.containsAccess p.addr p.size = true := by
  rw [← carried] at inside
  rw [built.range]
  exact inside

theorem Reachable.accepted_of_idle (reachable : Reachable config h)
    (inside : h.expander.containsAccess access.request.addr access.request.size = true)
    (built : c.BuiltFrom h.system.config) (carried : HostRequest.ofPacket p = access.request)
    (idle : c.Idle now) (within : h.spanned access ≤
      h.system.config.controller.burstLimit access.request.kind.direction) :
    (c.recvRequest now p).answer = .accepted := by
  have count := reachable.spanned_eq inside built carried
  rw [← built.config, ← carried] at within
  have serves := serves_of_builtFrom inside built carried
  rcases Controller.recvRequest_fits now serves with ⟨-, accepted⟩ | ⟨full, -⟩
  · exact accepted
  · refine absurd ((idle.fits_iff p.kind.direction).2 ?_) full
    calc (c.freshBurstsOf p).length
        ≤ (c.burstsOf p).length := List.length_filter_le ..
      _ = h.spanned access := count.symm
      _ ≤ c.config.burstLimit p.kind.direction := within

theorem Standing.inside_of_routed {addr size : Nat} (standing : h.Standing)
    (routed : (h.system.fabric.interconnect.route addr size).1 = some h.system.config.front) :
    h.expander.containsAccess addr size = true := by
  cases route : h.system.fabric.interconnect.route addr size with
  | mk target interconnect =>
    rw [route] at routed
    obtain rfl : target = some h.system.config.front := routed
    obtain ⟨stage, -, -, -, ⟨memory, -⟩ | ⟨-, inside⟩⟩ := standing.entered route
    · have more := standing.chained.expander
      rw [standing.sites] at more
      exact absurd memory (Nat.sub_ne_zero_of_lt more)
    · exact inside

/-- An access that passes the window and is routed to the expander has as many bursts as the window
counts, and an idle controller takes it; and the controller of the session is one of those that the
configuration describes. -/
theorem idle_takes_checked (reachable : Reachable config h) (access : Access)
    (passes : h.system.window.check access.request = .ok ())
    (routed : (h.system.fabric.interconnect.route access.request.addr access.request.size).1 =
      some h.system.config.front) :
    (∃ id c, h.system.fabric.stage? id = some (.controller c)) ∧
    (∀ id c, h.system.fabric.stage? id = some (.controller c) → c.BuiltFrom h.system.config) ∧
    ∀ (c : Controller Media) p now, c.BuiltFrom h.system.config →
      HostRequest.ofPacket p = access.request →
      h.spanned access = (c.burstsOf p).length ∧
      (c.Idle now → (c.recvRequest now p).answer = .accepted) := by
  have standing := reachable.standing
  have inside := standing.inside_of_routed routed
  have starts : h.system.window.range.contains access.request.addr = true := by
    rw [reachable.window.1]
    exact AddressRange.contains_of_containsAccess inside
  have narrow := (RequestWindow.check_eq_ok_iff starts).1 passes
  obtain ⟨c, found⟩ := standing.exists_controller
  refine ⟨⟨1, c, found⟩, fun id c found => standing.builtFrom found,
    fun c p now built carried => ?_⟩
  refine ⟨reachable.spanned_eq inside built carried, fun idle => ?_⟩
  refine reachable.accepted_of_idle inside built carried idle (Nat.le_trans narrow ?_)
  rw [reachable.window.1, RequestWindow.maxBursts_ofConfig]
  cases access.request.kind.direction
  · exact Nat.min_le_left ..
  · exact Nat.min_le_right ..

/-- An unaligned read of as many bursts as the default queues have room for. -/
theorem idle_takes_unaligned_read : ∃ s c, Simulation.create .standard {} = .ok s ∧
    s.window.check (Access.request (.read 0x100000021 4063)) = .ok () ∧
    (s.fabric.interconnect.route 0x100000021 4063).1 = some s.config.front ∧
    s.fabric.stage? 1 = some (.controller c) ∧ c.BuiltFrom s.config ∧ c.Idle 0 ∧
    (c.burstsOf (.read 0 0x100000021 4063 0)).length = 64 ∧
    (c.recvRequest 0 (.read 0 0x100000021 4063 0)).answer = .accepted := by
  refine ⟨_, _, rfl, by decide +kernel, by decide +kernel, rfl, ⟨rfl, rfl, rfl⟩, ⟨rfl, rfl, nofun⟩,
    by decide +kernel, ?_⟩
  have taken := idle_takes_checked (.start (show Simulation.create .standard {} = .ok _ from rfl))
    (.read 0x100000021 4063) (by decide +kernel) (by decide +kernel)
  exact (taken.2.2 _ (.read 0 0x100000021 4063 0) 0 ⟨rfl, rfl, rfl⟩ rfl).2 ⟨rfl, rfl, nofun⟩

/-- In no state that a system of the configuration passes through does the controller take the
access, unless a queued write holds one of its bursts. -/
def NeverTaken (config : Config) (access : Access) : Prop :=
  ∀ h id c now p, Reachable config h → h.system.fabric.stage? id = some (.controller c) →
    HostRequest.ofPacket p = access.request →
    (∀ offset ∈ c.burstsOf p, offset ∉ c.writeQueue.map (·.offset)) →
    (c.recvRequest now p).answer = .busy p

/-- Whatever state a session is in, the limits of the controller and the count of the window are
those of the configuration. -/
theorem Reachable.alike {h' : Session} (reachable : Reachable config h)
    (reachable' : Reachable config h') (access : Access) :
    h'.system.config = h.system.config ∧ h'.spanned access = h.spanned access := by
  have resolved := reachable.window.2
  rw [reachable'.window.2] at resolved
  have same := Except.ok.inj resolved
  rw [spanned, spanned, reachable.window.1, reachable'.window.1, same]
  exact ⟨rfl, rfl⟩

theorem Reachable.busy_of_burstLimit (reachable : Reachable config h)
    (inside : h.expander.containsAccess access.request.addr access.request.size = true)
    (found : h.system.fabric.stage? id = some (.controller c))
    (carried : HostRequest.ofPacket p = access.request)
    (unqueued : ∀ offset ∈ c.burstsOf p, offset ∉ c.writeQueue.map (·.offset))
    (beyond : h.system.config.controller.burstLimit access.request.kind.direction <
      h.spanned access) : (c.recvRequest now p).answer = .busy p := by
  have built := reachable.standing.builtFrom found
  have fresh : c.freshBurstsOf p = c.burstsOf p := by
    rw [Controller.freshBurstsOf_eq (reachable.orderly found)]
    exact List.filter_eq_self.2 fun offset mem => by simpa using unqueued offset mem
  have serves := serves_of_builtFrom inside built carried
  rw [reachable.spanned_eq inside built carried, ← built.config, ← carried] at beyond
  rcases Controller.recvRequest_fits now serves with ⟨fits, -⟩ | ⟨-, busy⟩
  · rw [fresh] at fits
    exact absurd fits.le_burstLimit (Nat.not_le.2 beyond)
  · exact busy

theorem idle_of_created {s : Simulation} (created : Simulation.create machine config = .ok s)
    (found : s.fabric.stage? id = some (.controller c)) : c.Idle now := by
  have fresh := Simulation.fresh_create created
  exact fresh.forall_stage (P := Stage.OfController fun c => c.Idle now) trivial
    ⟨rfl, rfl, nofun⟩ trivial (fun _ => trivial) found

/-- The bursts of a direction that there is room for decide whether the controller ever takes an
access, and those of both directions decide whether the host is told that it is too large. -/
theorem never_taken_iff (reachable : Reachable config h) (access : Access)
    (inside : h.expander.containsAccess access.request.addr access.request.size = true) :
    ((∃ limit, (h.system.sendRequest access.request).1 =
        .error (.requestTooLarge access.request.addr access.request.size limit)) ↔
      min (h.system.config.controller.burstLimit .read)
        (h.system.config.controller.burstLimit .write) < h.spanned access) ∧
    (NeverTaken config access ↔
      h.system.config.controller.burstLimit access.request.kind.direction < h.spanned access) := by
  constructor
  · have starts : h.system.window.range.contains access.request.addr = true := by
      rw [reachable.window.1]
      exact AddressRange.contains_of_containsAccess inside
    simp only [(reachable.standing.error_iff (HostRequest.fits_request access) _).1,
      Simulation.rejection?_eq_tooLarge]
    rw [RequestWindow.check_eq_error_iff starts, reachable.window.1,
      RequestWindow.maxBursts_ofConfig, spanned, reachable.window.1]
  constructor
  · intro never
    by_contra within
    obtain ⟨_, s, created, -⟩ := reachable.steps
    obtain ⟨same, spanned⟩ := reachable.alike (.start created) access
    obtain ⟨c, found⟩ := (standing_start created).exists_controller
    have built := (standing_start created).builtFrom found
    have idle : c.Idle 0 := idle_of_created created found
    have carried : HostRequest.ofPacket (access.request.toPacket 0 0) = access.request := by
      cases access <;> rfl
    rw [expander, ← same] at inside
    rw [← same, ← spanned, Nat.not_lt] at within
    have accepted := (Reachable.start created).accepted_of_idle inside built carried idle within
    have busy := never (start s) 1 c 0 _ (.start created) found carried (by simp [idle.writes])
    cases accepted.symm.trans busy
  · intro beyond h' id c now p reachable' found carried unqueued
    obtain ⟨same, spanned⟩ := reachable.alike reachable' access
    rw [← same, ← spanned] at beyond
    rw [expander, ← same] at inside
    exact reachable'.busy_of_burstLimit inside found carried unqueued beyond

/-- A read of two bursts more than the default queue of reads has room for. -/
theorem never_taken_wide_read : ∃ s, Simulation.create .standard {} = .ok s ∧
    (start s).expander.containsAccess 0x100000000 4200 = true ∧
    (s.sendRequest (.read 0x100000000 4200)).1 =
      .error (.requestTooLarge 0x100000000 4200 4096) ∧
    NeverTaken {} (.read 0x100000000 4200) := by
  refine ⟨_, rfl, by decide +kernel, by decide +kernel, ?_⟩
  refine ((never_taken_iff (.start (show Simulation.create .standard {} = .ok _ from rfl))
    (.read 0x100000000 4200) (by decide +kernel)).2.2 ?_)
  decide +kernel

def wideWrite : Access := .write 0x100000000 (List.replicate 4160 0x5a)

/-- The default queue of writes is longer than that of reads. A write of one burst more than a read
may have is turned away as too large, and the idle controller has room for it. -/
theorem takes_wide_write : ∃ s c, Simulation.create .standard { topology := .controller } = .ok s ∧
    (start s).expander.containsAccess 0x100000000 4160 = true ∧
    (s.sendRequest wideWrite.request).1 = .error (.requestTooLarge 0x100000000 4160 4096) ∧
    s.fabric.stage? 1 = some (.controller c) ∧ c.Idle 0 ∧
    (c.recvRequest 0 (wideWrite.request.toPacket 0 0)).answer = .accepted ∧
    ¬ NeverTaken { topology := .controller } wideWrite := by
  obtain ⟨s, created⟩ : ∃ s, Simulation.create .standard { topology := .controller } = .ok s :=
    ⟨_, rfl⟩
  have inside : (start s).expander.containsAccess 0x100000000 4160 = true := by
    cases created
    decide +kernel
  have tooLarge : (s.sendRequest wideWrite.request).1 =
      .error (.requestTooLarge 0x100000000 4160 4096) := by
    cases created
    decide +kernel
  obtain ⟨c, found⟩ := (standing_start created).exists_controller
  have idle : c.Idle 0 := idle_of_created created found
  have carried : HostRequest.ofPacket (wideWrite.request.toPacket 0 0) = wideWrite.request := rfl
  have accepted : (c.recvRequest 0 (wideWrite.request.toPacket 0 0)).answer = .accepted := by
    cases created
    cases found
    decide +kernel
  refine ⟨s, c, created, inside, tooLarge, found, idle, accepted, fun never => ?_⟩
  have busy := never (start s) 1 c 0 _ (.start created) found carried (by simp [idle.writes])
  cases accepted.symm.trans busy

end Session

end Expander
