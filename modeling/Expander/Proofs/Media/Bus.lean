import Expander.Proofs.Media.Planning
import Mathlib.Data.List.Chain

/-!
The data bus of a media channel.

A channel keeps one burst of the past, the latest one on its bus, and puts the next burst behind it.
The penalties for a change of direction or of rank obey a triangle inequality (`gap_triangle`): what
lies between two bursts pays for every change from the one to the other. So the bus is never shared,
and any two bursts keep the distance that they would have to keep as neighbours (`keepsBus_serve`).
-/

set_option autoImplicit false

namespace Expander

open MediaChannel (serve visit)

def Geometry.rankNumber (g : Geometry) (c : Coordinate) : Nat := c.rank % g.ranksPerChannel

def Geometry.groupNumber (g : Geometry) (c : Coordinate) : Nat := c.bank / max g.banksPerGroup 1

namespace Turnaround

variable (t : Turnaround) {u v w : BusBurst}

theorem gap_triangle (u v w : BusBurst) :
    t.gap u w.rank w.kind ≤ t.gap u v.rank v.kind + t.gap v w.rank w.kind := by
  have rank : (if u.rank = w.rank then 0 else t.rankSwitch) ≤
      (if u.rank = v.rank then 0 else t.rankSwitch) +
        if v.rank = w.rank then 0 else t.rankSwitch := by
    by_cases first : u.rank = v.rank
    · rw [first]
      exact Nat.le_add_left ..
    · rw [if_neg first]
      split
      · exact Nat.zero_le _
      · exact Nat.le_add_right ..
  have direction : t.directionGap u.kind w.kind ≤
      t.directionGap u.kind v.kind + t.directionGap v.kind w.kind := by
    cases u.kind <;> cases v.kind <;> cases w.kind <;> simp [directionGap]
  simp only [gap]
  grind

def Clears (u v : BusBurst) : Prop :=
  u.dataEnd + t.gap u v.rank v.kind ≤ v.dataStart ∧ v.dataStart ≤ v.dataEnd

theorem Clears.trans (first : t.Clears u v) (second : t.Clears v w) : t.Clears u w := by
  refine ⟨?_, second.2⟩
  calc u.dataEnd + t.gap u w.rank w.kind
      ≤ u.dataEnd + t.gap u v.rank v.kind + t.gap v w.rank w.kind := by
        rw [Nat.add_assoc]
        exact Nat.add_le_add_left (t.gap_triangle u v w) _
    _ ≤ v.dataEnd + t.gap v w.rank w.kind :=
        Nat.add_le_add_right (Nat.le_trans first.1 first.2) _
    _ ≤ w.dataStart := second.1

instance : Trans t.Clears t.Clears t.Clears := ⟨Clears.trans t⟩

end Turnaround

def MediaVisit.onBus (v : MediaVisit) (rank group : Nat) (duration : Tick) : BusBurst :=
  ⟨rank, group, v.kind, v.readyAt - duration, v.readyAt⟩

/-- The bus remembers the latest burst of a history, in which each burst follows the one before it
as `R` asks. -/
structure Sequence (duration : Tick) (burst : MediaVisit → BusBurst)
    (R : BusBurst → BusBurst → Prop) (past : List MediaVisit) (latest : Option BusBurst) :
    Prop where
  latest : latest = (past.map burst).getLast?
  chain : (past.map burst).IsChain R
  lasts : ∀ v ∈ past, duration ≤ v.readyAt

namespace Sequence

variable {duration : Tick} {burst : MediaVisit → BusBurst} {R : BusBurst → BusBurst → Prop}
  {past : List MediaVisit} {latest : Option BusBurst} {v : MediaVisit}

theorem nil : Sequence duration burst R [] none := ⟨rfl, .nil, nofun⟩

theorem append (h : Sequence duration burst R past latest)
    (follows : ∀ u ∈ latest, R u (burst v)) (lasts : duration ≤ v.readyAt) :
    Sequence duration burst R (past ++ [v]) (some (burst v)) where
  latest := by simp
  chain := by
    rw [List.map_append, List.isChain_append]
    refine ⟨h.chain, .singleton _, fun u mem w first => ?_⟩
    cases first
    exact follows u (h.latest ▸ mem)
  lasts w mem := by
    rcases List.mem_append.1 mem with old | new
    · exact h.lasts w old
    · cases List.mem_singleton.1 new
      exact lasts

end Sequence

namespace Dram

variable {m : Dram} {g : Geometry} {t : DramTiming} {past : List MediaVisit}

def busBurst (g : Geometry) (t : DramTiming) (v : MediaVisit) : BusBurst :=
  v.onBus (g.rankNumber v.place) (g.groupNumber v.place) t.burst

/-- The burst `v` keeps its distance from the burst `u` before it. -/
structure Trails (t : DramTiming) (u v : BusBurst) : Prop where
  spacing : u.dataStart + (if u.rank = v.rank ∧ u.group = v.group then t.columnToColumn
    else t.burst) ≤ v.dataStart
  turnaround : t.turnaround.Clears u v

/-- A channel with the timing, the geometry and the number of ranks that it was created with, whose
bus remembers the latest burst. -/
structure InSequence (g : Geometry) (t : DramTiming) (past : List MediaVisit) (m : Dram) :
    Prop where
  timing : m.timing = t
  geometry : m.geometry = g
  ranks : m.ranks.size = g.ranksPerChannel
  ready : ∀ v ∈ past, v.readyAt = v.issuedAt + t.columnToData + t.burst
  sequence : Sequence t.burst (busBurst g t) (Trails t) past m.lastBurst

theorem inSequence_create (g : Geometry) (t : DramTiming) : InSequence g t [] (create g t) :=
  ⟨rfl, rfl, Array.size_replicate, nofun, .nil⟩

namespace InSequence

variable (h : InSequence g t past m) (r : MediaRequest)

include h

theorem rankOf (c : Coordinate) : m.rankOf c = g.rankNumber c := by
  rw [Dram.rankOf, h.ranks, Geometry.rankNumber]

theorem groupOf (c : Coordinate) : m.groupOf c = g.groupNumber c := by
  rw [Dram.groupOf, h.geometry, Geometry.groupNumber]

theorem busBurst_visit : busBurst g t (visit m r).1 =
    ⟨g.rankNumber r.place, g.groupNumber r.place, r.kind,
      (m.decision r.place r.kind r.earliest).1.issuedAt + t.columnToData,
      (m.decision r.place r.kind r.earliest).1.issuedAt + t.columnToData + t.burst⟩ := by
  rw [visit_outcome h.timing, busBurst, MediaVisit.onBus, DramPlan.outcome, Nat.add_sub_cancel]

theorem lastBurst_visit : (visit m r).2.lastBurst = some (busBurst g t (visit m r).1) := by
  rw [h.busBurst_visit, ← h.rankOf, ← h.groupOf, ← h.timing]
  rfl

theorem trails_visit {u : BusBurst} (latest : m.lastBurst = some u) :
    Trails t u (busBurst g t (visit m r).1) := by
  obtain ⟨now, -, planned⟩ := m.planned_decision r.place r.kind r.earliest
  have waits := planned.busFrom_le
  obtain ⟨spacing, turnaround⟩ := le_busFrom latest (m.rankOf r.place) (m.groupOf r.place) r.kind
  rw [h.rankOf, h.groupOf] at waits spacing turnaround
  rw [h.timing] at spacing turnaround
  have start := Nat.add_le_add_right waits t.columnToData
  rw [h.busBurst_visit]
  exact ⟨Nat.le_trans spacing start, Nat.le_trans turnaround start, Nat.le_add_right ..⟩

theorem visit : InSequence g t (past ++ [(visit m r).1]) (visit m r).2 where
  timing := (m.timing_access ..).trans h.timing
  geometry := (m.moves_access ..).geometry.trans ((m.decision_frame ..).2.1.trans h.geometry)
  ranks := by
    rw [← h.ranks, ← (m.decision_frame r.place r.kind r.earliest).2.2.1]
    exact (m.moves_access ..).ranks
  ready v mem := by
    rcases List.mem_append.1 mem with old | new
    · exact h.ready v old
    · rw [List.mem_singleton.1 new, visit_outcome h.timing]
      rfl
  sequence := by
    rw [h.lastBurst_visit]
    refine h.sequence.append (fun u latest => h.trails_visit r latest) ?_
    rw [visit_outcome h.timing]
    exact Nat.le_add_left ..

end InSequence

theorem inSequence_serve (g : Geometry) (t : DramTiming) (rs : List MediaRequest) :
    InSequence g t (serve (create g t) rs).1 (serve (create g t) rs).2 :=
  MediaChannel.serve_induction (inSequence_create g t) (fun _ _ r h => h.visit r) rs

end Dram

namespace Nvm

variable {m : Nvm} {g : Geometry} {t : NvmTiming} {past : List MediaVisit}

def busBurst (t : NvmTiming) (v : MediaVisit) : BusBurst := v.onBus v.place.rank 0 t.burst

/-- A channel with the timing that it was created with, whose bus remembers the latest burst. -/
structure InSequence (t : NvmTiming) (past : List MediaVisit) (m : Nvm) : Prop where
  timing : m.timing = t
  sequence : Sequence t.burst (busBurst t) t.turnaround.Clears past m.lastBurst

theorem le_busSlot_latest (m : Nvm) (rank : Nat) (kind : AccessKind) (ready : Tick)
    {u : BusBurst} (latest : m.lastBurst = some u) :
    u.dataEnd + m.timing.turnaround.gap u rank kind ≤ (m.busSlot rank kind ready).1 := by
  simp only [busSlot, latest]
  exact Nat.le_max_right ..

theorem exists_busSlot (m : Nvm) (r : MediaRequest) : ∃ ready,
    let start := (m.busSlot r.place.rank r.kind ready).1
    (visit m r).1.readyAt = start + m.timing.burst ∧
      (visit m r).2.lastBurst = some ⟨r.place.rank, 0, r.kind, start, start + m.timing.burst⟩ := by
  obtain ⟨place, kind, earliest⟩ := r
  cases kind with
  | read => exact ⟨_, rfl, rfl⟩
  | write => exact ⟨_, rfl, rfl⟩

theorem InSequence.visit (h : InSequence t past m) (r : MediaRequest) :
    InSequence t (past ++ [(visit m r).1]) (visit m r).2 := by
  obtain ⟨timing, sequence⟩ := h
  obtain ⟨ready, readyAt, lastBurst⟩ := m.exists_busSlot r
  rw [timing] at readyAt lastBurst
  have burst : busBurst t (MediaChannel.visit m r).1 = ⟨r.place.rank, 0, r.kind,
      (m.busSlot r.place.rank r.kind ready).1,
      (m.busSlot r.place.rank r.kind ready).1 + t.burst⟩ := by
    rw [busBurst, MediaVisit.onBus, readyAt, Nat.add_sub_cancel]
    rfl
  refine ⟨(m.timing_access ..).trans timing, ?_⟩
  rw [lastBurst, ← burst]
  refine sequence.append (fun u latest => ?_) (readyAt ▸ Nat.le_add_left ..)
  rw [burst]
  refine ⟨?_, Nat.le_add_right ..⟩
  rw [← timing]
  exact m.le_busSlot_latest _ _ _ latest

theorem inSequence_serve (g : Geometry) (t : NvmTiming) (rs : List MediaRequest) :
    InSequence t (serve (create g t) rs).1 (serve (create g t) rs).2 :=
  MediaChannel.serve_induction ⟨rfl, .nil⟩ (fun _ _ r h => h.visit r) rs

end Nvm

namespace Media

theorem serve_dram (m : Dram) (rs : List MediaRequest) :
    serve (dram m) rs = ((serve m rs).1, dram (serve m rs).2) := by
  induction rs generalizing m with
  | nil => rfl
  | cons r rest ih =>
    have others := ih (visit m r).2
    simp only [serve]
    rw [show visit (dram m) r = ((visit m r).1, dram (visit m r).2) from rfl, others]

theorem serve_nvm (m : Nvm) (rs : List MediaRequest) :
    serve (nvm m) rs = ((serve m rs).1, nvm (serve m rs).2) := by
  induction rs generalizing m with
  | nil => rfl
  | cons r rest ih =>
    have others := ih (visit m r).2
    simp only [serve]
    rw [show visit (nvm m) r = ((visit m r).1, nvm (visit m r).2) from rfl, others]

end Media

def MediaTiming.burst : MediaTiming → Tick
  | .dram t => t.burst
  | .nvm t => t.burst

def MediaTiming.turnaround : MediaTiming → Turnaround
  | .dram t => t.turnaround
  | .nvm t => t.turnaround

namespace MediaConfig

def rankOf (config : MediaConfig) (c : Coordinate) : Nat :=
  match config.timing with
  | .dram _ => config.geometry.rankNumber c
  | .nvm _ => c.rank

/-- The data of the burst `v` start behind the data of `u`, with every penalty paid that applies
between the two. -/
structure KeepsBus (config : MediaConfig) (u v : MediaVisit) : Prop where
  exclusive : u.readyAt ≤ v.readyAt - config.timing.burst
  readToWrite : u.kind = .read → v.kind = .write →
    u.readyAt + config.timing.turnaround.readToWrite ≤ v.readyAt - config.timing.burst
  writeToRead : u.kind = .write → v.kind = .read →
    u.readyAt + config.timing.turnaround.writeToRead ≤ v.readyAt - config.timing.burst
  rankSwitch : config.rankOf u.place ≠ config.rankOf v.place →
    u.readyAt + config.timing.turnaround.rankSwitch ≤ v.readyAt - config.timing.burst

variable {config : MediaConfig}

theorem keepsBus_of_clears {u v : MediaVisit} {group group' : Nat}
    (h : config.timing.turnaround.Clears
      (u.onBus (config.rankOf u.place) group config.timing.burst)
      (v.onBus (config.rankOf v.place) group' config.timing.burst)) : config.KeepsBus u v := by
  have clear : u.readyAt + max (if config.rankOf u.place = config.rankOf v.place then 0
      else config.timing.turnaround.rankSwitch)
        (config.timing.turnaround.directionGap u.kind v.kind) ≤
      v.readyAt - config.timing.burst := h.1
  refine ⟨?_, fun read write => ?_, fun write read => ?_, fun other => ?_⟩
  · exact Nat.le_trans (Nat.le_add_right ..) clear
  · rw [read, write, Turnaround.directionGap] at clear
    exact Nat.le_trans (Nat.add_le_add_left (Nat.le_max_right ..) _) clear
  · rw [write, read, Turnaround.directionGap] at clear
    exact Nat.le_trans (Nat.add_le_add_left (Nat.le_max_right ..) _) clear
  · rw [if_neg other] at clear
    exact Nat.le_trans (Nat.add_le_add_left (Nat.le_max_left ..) _) clear

theorem keepsBus_of_sequence {R : BusBurst → BusBurst → Prop} {group : MediaVisit → Nat}
    {past : List MediaVisit} {latest : Option BusBurst}
    (h : Sequence config.timing.burst
      (fun v => v.onBus (config.rankOf v.place) (group v) config.timing.burst) R past latest)
    (clears : ∀ u v, R u v → config.timing.turnaround.Clears u v) :
    (∀ v ∈ past, config.timing.burst ≤ v.readyAt) ∧ past.Pairwise config.KeepsBus := by
  have all := (h.chain.imp clears).pairwise
  rw [List.pairwise_map] at all
  exact ⟨h.lasts, all.imp keepsBus_of_clears⟩

/-- On a channel of either technology, the bursts have the data bus to themselves, and every pair of
them keeps the distances that a change of direction and of rank asks for, whatever comes between. -/
theorem keepsBus_serve (config : MediaConfig) (rs : List MediaRequest) :
    let past := (serve (Media.create config) rs).1
    (∀ v ∈ past, config.timing.burst ≤ v.readyAt) ∧ past.Pairwise config.KeepsBus := by
  obtain ⟨geometry, timing, _, _, _, _⟩ := config
  cases timing with
  | dram t =>
    rw [Media.create, Media.serve_dram]
    exact keepsBus_of_sequence (Dram.inSequence_serve geometry t rs).sequence
      fun _ _ follows => follows.turnaround
  | nvm t =>
    rw [Media.create, Media.serve_nvm]
    exact keepsBus_of_sequence (Nvm.inSequence_serve geometry t rs).sequence
      fun _ _ follows => follows

end MediaConfig

end Expander
