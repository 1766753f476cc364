import Expander.Proofs.Media.Activation
import Expander.Proofs.Media.Refresh

/-!
Bank groups of a DRAM rank.

A rank compares an activate with the one before it, and the bus a burst with the one before it, so
that the longer distance within a bank group is kept by neighbours. Where other groups come in
between, two commands of one group are only kept apart by two of the shorter distances
(`paced_trans`). This is the distance that is kept in general, and the longer one is kept throughout
if and only if it is no more than two of the shorter ones (`keepsGroups_iff`).
-/

set_option autoImplicit false

namespace Expander

open MediaChannel (serve visit)

section Paced

variable {γ : Type} [DecidableEq γ] {long short : Tick} {a b c : Tick × γ}

def Paced (long short : Tick) (a b : Tick × γ) : Prop :=
  a.1 + (if a.2 = b.2 then long else short) ≤ b.1

theorem paced_trans (first : Paced (min long (2 * short)) short a b)
    (second : Paced (min long (2 * short)) short b c) : Paced (min long (2 * short)) short a c := by
  unfold Paced at first second ⊢
  by_cases same : a.2 = c.2
  · by_cases near : a.2 = b.2
    · rw [if_pos near] at first
      rw [if_pos same]
      exact Nat.le_trans first (Nat.le_trans (Nat.le_add_right ..) second)
    · rw [if_neg near] at first
      rw [if_neg (same ▸ Ne.symm near)] at second
      rw [if_pos same]
      grind
  · rw [if_neg same]
    by_cases near : a.2 = b.2
    · rw [if_neg (near ▸ same)] at second
      grind
    · rw [if_neg near] at first
      exact Nat.le_trans first (Nat.le_trans (Nat.le_add_right ..) second)

theorem pairwise_paced {ticks : List (Tick × γ)} (chain : ticks.IsChain (Paced long short)) :
    ticks.Pairwise (Paced (min long (2 * short)) short) := by
  let R : Tick × γ → Tick × γ → Prop := Paced (min long (2 * short)) short
  have : Trans R R R := ⟨paced_trans⟩
  have weaker : ticks.IsChain R := chain.imp fun a b le => by
    unfold Paced at le
    change a.1 + (if a.2 = b.2 then min long (2 * short) else short) ≤ b.1
    grind
  exact weaker.pairwise

end Paced

/-- The distances that a timing sets between activates and between bursts. -/
structure Spacing where
  burst : Tick
  columnToColumn : Tick
  activateToActivate : Tick
  activateToActivateGroup : Tick

namespace DramTiming

def spacing (t : DramTiming) : Spacing :=
  ⟨t.burst, t.columnToColumn, t.activateToActivate, t.activateToActivateGroup⟩

def bare (t : DramTiming) : DramTiming :=
  { (default : DramTiming) with
    burst := t.burst
    columnToColumn := t.columnToColumn
    activateToActivate := t.activateToActivate
    activateToActivateGroup := t.activateToActivateGroup }

/-- The distances within a bank group are no more than two of the distances between groups. -/
structure Balanced (t : DramTiming) : Prop where
  activates : t.activateToActivateGroup ≤ 2 * t.activateToActivate
  columns : t.columnToColumn ≤ 2 * t.burst

end DramTiming

namespace Dram

variable {m : Dram} {g : Geometry} {t : DramTiming} {past : List MediaVisit}

def SameGroup (g : Geometry) (u v : MediaVisit) : Prop :=
  g.rankNumber u.place = g.rankNumber v.place ∧ g.groupNumber u.place = g.groupNumber v.place

/-- Any two activates and any two column commands of one bank group keep their distances, whatever
comes between. -/
structure KeepsGroups (g : Geometry) (activates columns : Tick) (past : List MediaVisit) :
    Prop where
  activates : past.Pairwise fun u v => SameGroup g u v → ∀ act next,
    u.activatedAt = some act → v.activatedAt = some next → act + activates ≤ next
  columns : past.Pairwise fun u v => SameGroup g u v → u.issuedAt + columns ≤ v.issuedAt

theorem Windowed.pairwise_activates
    (windowed : ∀ rank, Windowed t (g.activates rank past)) :
    past.Pairwise fun u v => SameGroup g u v → ∀ act next, u.activatedAt = some act →
      v.activatedAt = some next →
        act + min t.activateToActivateGroup (2 * t.activateToActivate) ≤ next := by
  rw [List.pairwise_iff_forall_sublist]
  intro u v order same act next activated later
  have chain : (g.activates (g.rankNumber u.place) past).IsChain
      (Paced t.activateToActivateGroup t.activateToActivate) := (windowed _).spaced
  have all := pairwise_paced chain
  rw [Geometry.activates, List.pairwise_filterMap, List.pairwise_iff_forall_sublist] at all
  have apart := all order (act, g.groupNumber u.place) (by simp [activated])
    (next, g.groupNumber v.place) (by simp [same.1, later])
  rwa [Paced, if_pos same.2] at apart

theorem InSequence.pairwise_columns (h : InSequence g t past m) :
    past.Pairwise fun u v => SameGroup g u v →
      u.issuedAt + min t.columnToColumn (2 * t.burst) ≤ v.issuedAt := by
  have chain : ((past.map (busBurst g t)).map fun u => (u.dataStart, u.rank, u.group)).IsChain
      (Paced t.columnToColumn t.burst) := by
    rw [List.isChain_map]
    refine h.sequence.chain.imp fun u v trails => ?_
    have spacing := trails.spacing
    simp only [Paced, Prod.mk.injEq]
    exact spacing
  have all := pairwise_paced chain
  rw [List.map_map, List.pairwise_map] at all
  refine all.imp_of_mem fun {u v} earlier later apart same => ?_
  have start (w : MediaVisit) (mem : w ∈ past) :
      (busBurst g t w).dataStart = w.issuedAt + t.columnToData := by
    rw [busBurst, MediaVisit.onBus, h.ready w mem, Nat.add_sub_cancel]
  simp only [Function.comp, Paced, start u earlier, start v later] at apart
  rw [if_pos] at apart
  · grind
  · exact Prod.ext same.1 same.2

theorem keepsGroups_serve (ranks : 0 < g.ranksPerChannel) (t : DramTiming)
    (rs : List MediaRequest) :
    KeepsGroups g (min t.activateToActivateGroup (2 * t.activateToActivate))
      (min t.columnToColumn (2 * t.burst)) (serve (create g t) rs).1 := by
  have tracks := tracks_serve ranks t rs
  exact ⟨Windowed.pairwise_activates fun rank => (tracks.ranks rank).windowed,
    tracks.sequence.pairwise_columns⟩

theorem decision_of_unrefreshed (refresh : m.timing.refreshInterval = 0)
    (idle : m.timing.powerdownIdle = 0) (c : Coordinate) (kind : AccessKind) (earliest : Tick) :
    m.decision c kind earliest =
      (m.plan (m.bankIndex c) (m.rankOf c) (m.groupOf c) c.row kind earliest, m) := by
  have first : m.attempt (m.bankIndex c) (m.rankOf c) (m.groupOf c) c.row kind earliest =
      (m.plan (m.bankIndex c) (m.rankOf c) (m.groupOf c) c.row kind earliest, m) := by
    simp only [attempt, settleRefresh, refresh, true_or, if_true]
  have awake : m.wakeRank (m.rankOf c) earliest = (earliest, m) := by
    simp only [wakeRank, idle, Nat.lt_irrefl, false_and, if_false]
  rw [decision, awake, ← first]
  exact settlePlan_of_fits maxReplans (.inl refresh)

/-- A channel whose timing leaves nothing but the spacing of activates and bursts. -/
structure Bare (g : Geometry) (t : DramTiming) (past : List MediaVisit) (m : Dram) : Prop where
  tracks : Tracks g t.bare past m
  built : m.Built g t.bare
  /-- A bank is as it was created, or as its latest burst has left it. -/
  banks : ∀ c, match past.reverse.find? (g.bankNumber ·.place = g.bankNumber c) with
    | none => m.bankAt (g.bankNumber c) = {}
    | some v => (m.bankAt (g.bankNumber c)).openRow = some v.place.row ∧
        (m.bankAt (g.bankNumber c)).columnAllowedAt = v.issuedAt + t.columnToColumn

theorem bare_create (ranks : 0 < g.ranksPerChannel) (banks : 0 < g.banksPerRank) :
    Bare g t [] (create g t.bare) where
  tracks := tracks_create g t.bare
  built := built_create ranks banks t.bare
  banks c := bankAt_create (Geometry.bankNumber_lt ranks banks c)

theorem bare_gap (t : DramTiming) (last : BusBurst) (rank : Nat) (kind : AccessKind) :
    t.bare.turnaround.gap last rank kind = 0 := by
  rw [Turnaround.gap]
  split <;> cases last.kind <;> cases kind <;> rfl

namespace Bare

variable (h : Bare g t past m) (r : MediaRequest)

include h

theorem planned : (m.decision r.place r.kind r.earliest).1.Planned t.bare
    (m.bankAt (g.bankNumber r.place)) r.place.row
    (m.rankFrom (g.rankNumber r.place) (g.groupNumber r.place))
    (m.busFrom (g.rankNumber r.place) (g.groupNumber r.place) r.kind) r.earliest := by
  have sequence := h.tracks.sequence
  have timing := sequence.timing
  rw [decision_of_unrefreshed (by rw [timing]; rfl) (by rw [timing]; rfl), h.built.bankIndex,
    sequence.rankOf, sequence.groupOf, ← timing]
  exact planned_plan ..

theorem rankFrom_eq (rank group : Nat) : m.rankFrom rank group =
    ((g.activates rank past).getLast?.map fun last => last.1 +
      if last.2 = group then t.activateToActivateGroup else t.activateToActivate).getD 0 := by
  have limit : m.timing.activationLimit = 0 := by
    rw [h.tracks.sequence.timing]
    rfl
  rw [← (h.tracks.ranks rank).latest]
  simp only [rankFrom, activateBound, limit]
  rw [h.tracks.sequence.timing]
  cases (m.rankAt rank).lastActivate with
  | none => rfl
  | some last => exact Nat.zero_max _

theorem busFrom_eq (rank group : Nat) (kind : AccessKind) : m.busFrom rank group kind =
    (past.getLast?.map fun last => last.issuedAt +
      max (if g.rankNumber last.place = rank ∧ g.groupNumber last.place = group then
        t.columnToColumn else t.burst) t.burst).getD 0 := by
  have sequence := h.tracks.sequence
  simp only [busFrom, sequence.sequence.latest, List.getLast?_map]
  cases latest : past.getLast? with
  | none => rfl
  | some last =>
    have ready := sequence.ready last (List.mem_of_getLast? latest)
    have start : (busBurst g t.bare last).dataStart = last.issuedAt := by
      rw [busBurst, MediaVisit.onBus, ready, Nat.add_sub_cancel]
      rfl
    have finish : (busBurst g t.bare last).dataEnd = last.issuedAt + t.burst := ready
    simp only [Option.map_some, Option.getD_some, start, finish, sequence.timing,
      bare_gap, Nat.add_zero]
    rw [← Nat.add_max_add_left]
    rfl

theorem visit : Bare g t (past ++ [(visit m r).1]) (visit m r).2 where
  tracks := h.tracks.visit h.built.ranks_pos r
  built := h.built.visit r
  banks c := by
    rw [List.reverse_append, List.reverse_singleton, List.singleton_append, List.find?_cons]
    by_cases same : g.bankNumber r.place = g.bankNumber c
    · obtain ⟨_, _, _, -, planned⟩ := h.built.planned r
      rw [decide_eq_true (show g.bankNumber (MediaChannel.visit m r).1.place = _ from same), ← same,
        h.built.bankAt_visit_self, h.built.visit_fst]
      exact ⟨planned.after_openRow r.kind, rfl⟩
    · rw [decide_eq_false (show g.bankNumber (MediaChannel.visit m r).1.place ≠ _ from same),
        h.built.bankAt_visit_of_ne same]
      exact h.banks c

theorem fresh (untouched : ∀ v ∈ past, g.bankNumber v.place ≠ g.bankNumber r.place) :
    ∃ v m', MediaChannel.visit m r = (v, m') ∧ v.toMediaRequest = r ∧ Bare g t (past ++ [v]) m' ∧
      v.activatedAt = some (max r.earliest (m.rankFrom (g.rankNumber r.place)
        (g.groupNumber r.place))) ∧
      v.issuedAt = max (max r.earliest (m.rankFrom (g.rankNumber r.place)
        (g.groupNumber r.place)))
          (m.busFrom (g.rankNumber r.place) (g.groupNumber r.place) r.kind) := by
  refine ⟨(MediaChannel.visit m r).1, (MediaChannel.visit m r).2, rfl, rfl, h.visit r, ?_⟩
  have bank := h.banks r.place
  rw [List.find?_eq_none.2 (by simpa using untouched)] at bank
  have planned := h.planned r
  rw [bank] at planned
  rw [h.built.visit_fst]
  cases planned with
  | hit opened => cases opened
  | conflict _ _ _ opened => cases opened
  | closed act opened precharged activated earliest issued =>
    have first : act =
        max r.earliest (m.rankFrom (g.rankNumber r.place) (g.groupNumber r.place)) := by
      rw [earliest, Nat.max_zero]
    refine ⟨first ▸ activated, ?_⟩
    rw [← first]
    exact issued.trans (congrArg (max · _) (Nat.zero_max _))

theorem hit {u : MediaVisit} (row : u.place.row = r.place.row)
    (latest : past.reverse.find? (g.bankNumber ·.place = g.bankNumber r.place) = some u) :
    ∃ v m', MediaChannel.visit m r = (v, m') ∧ v.toMediaRequest = r ∧
      v.issuedAt = max (max r.earliest (u.issuedAt + t.columnToColumn))
        (m.busFrom (g.rankNumber r.place) (g.groupNumber r.place) r.kind) := by
  refine ⟨(MediaChannel.visit m r).1, (MediaChannel.visit m r).2, rfl, rfl, ?_⟩
  have bank := h.banks r.place
  rw [latest] at bank
  have planned := h.planned r
  rw [h.built.visit_fst]
  cases planned with
  | hit opened precharged activated issued => exact bank.2 ▸ issued
  | closed _ opened => cases opened.symm.trans bank.1
  | conflict other _ _ opened ne =>
    cases opened.symm.trans bank.1
    exact absurd row ne

end Bare

def readOf (rank bank : Nat) (earliest : Tick) : MediaRequest :=
  ⟨⟨0, rank, bank, 0, 0⟩, .read, earliest⟩

section ReadOf

variable (rank bank : Nat) (earliest : Tick)

@[simp] theorem rankNumber_readOf :
    ddr4Geometry.rankNumber (readOf rank bank earliest).place = rank % 2 := rfl

@[simp] theorem groupNumber_readOf :
    ddr4Geometry.groupNumber (readOf rank bank earliest).place = bank / 4 := rfl

@[simp] theorem bankNumber_readOf :
    ddr4Geometry.bankNumber (readOf rank bank earliest).place = rank % 2 * 16 + bank % 16 := rfl

@[simp] theorem earliest_readOf : (readOf rank bank earliest).earliest = earliest := rfl

end ReadOf

theorem activates_le {long columns : Tick}
    (keeps : ∀ rs, KeepsGroups ddr4Geometry long columns
      (serve (create ddr4Geometry t.bare) rs).1) : long ≤ 2 * t.activateToActivate := by
  have none : Bare ddr4Geometry t [] (create ddr4Geometry t.bare) :=
    bare_create (by decide) (by decide)
  obtain ⟨u, m₁, served₁, asked₁, one, activated₁, -⟩ := none.fresh (readOf 0 0 0) nofun
  have first : u.activatedAt = some 0 := by
    rw [activated₁, none.rankFrom_eq]
    rfl
  obtain ⟨v, m₂, served₂, asked₂, two, activated₂, -⟩ := one.fresh (readOf 0 4 0) (by simp [asked₁])
  have second : v.activatedAt = some t.activateToActivate := by
    rw [activated₂, one.rankFrom_eq, activates_activated (by simp [asked₁]) first]
    simp [asked₁]
  obtain ⟨w, m₃, served₃, asked₃, -, activated₃, -⟩ := two.fresh (readOf 0 1 0)
    (by simp [asked₁, asked₂])
  have third : w.activatedAt = some (t.activateToActivate + t.activateToActivate) := by
    rw [activated₃, two.rankFrom_eq, activates_activated (by simp [asked₂]) second]
    simp [asked₂]
  have activates := (keeps [readOf 0 0 0, readOf 0 4 0, readOf 0 1 0]).activates
  simp only [serve, served₁, served₂, served₃] at activates
  have mem : w ∈ [v, w] := by simp
  have apart := List.rel_of_pairwise_cons activates mem
    (by simp [SameGroup, asked₁, asked₃]) 0 _ first third
  grind

/-- Two bursts of one group, with one of the other rank in between. The last of them finds its row
open. -/
theorem columns_le {activates long : Tick}
    (keeps : ∀ rs, KeepsGroups ddr4Geometry activates long
      (serve (create ddr4Geometry t.bare) rs).1) : long ≤ 2 * t.burst := by
  have none : Bare ddr4Geometry t [] (create ddr4Geometry t.bare) :=
    bare_create (by decide) (by decide)
  -- By this tick the row of the first read can be read again.
  let quiet := t.activateToActivateGroup + t.columnToColumn + t.burst
  obtain ⟨u, m₁, served₁, asked₁, one, activated₁, issued₁⟩ := none.fresh (readOf 0 1 0) nofun
  have first : u.activatedAt = some 0 ∧ u.issuedAt = 0 := by
    rw [activated₁, issued₁, none.rankFrom_eq, none.busFrom_eq]
    exact ⟨rfl, rfl⟩
  obtain ⟨v, m₂, served₂, asked₂, two, activated₂, issued₂⟩ := one.fresh (readOf 0 0 quiet)
    (by simp [asked₁])
  have second : v.issuedAt = quiet := by
    rw [issued₂, one.rankFrom_eq, activates_activated (by simp [asked₁]) first.1, one.busFrom_eq]
    simp [asked₁, first.2]
    grind
  obtain ⟨w, m₃, served₃, asked₃, three, activated₃, issued₃⟩ := two.fresh (readOf 1 0 quiet)
    (by simp [asked₁, asked₂])
  have third : w.issuedAt = quiet + t.burst := by
    rw [issued₃, two.rankFrom_eq, activates_of_ne (by simp [asked₂]),
      activates_of_ne (by simp [asked₁]), two.busFrom_eq]
    simp [asked₂, second, Geometry.activates]
  obtain ⟨x, m₄, served₄, asked₄, issued₄⟩ := three.hit (readOf 0 1 quiet) (u := u)
    (by rw [asked₁]; rfl) (by simp [asked₁, asked₂, asked₃])
  have fourth : x.issuedAt = quiet + t.burst + t.burst := by
    rw [issued₄, three.busFrom_eq]
    simp [asked₃, third, first.2]
    grind
  have columns :=
    (keeps [readOf 0 1 0, readOf 0 0 quiet, readOf 1 0 quiet, readOf 0 1 quiet]).columns
  simp only [serve, served₁, served₂, served₃, served₄] at columns
  have mem : x ∈ [w, x] := by simp
  have apart := List.rel_of_pairwise_cons (List.pairwise_cons.1 columns).2 mem
    (by simp [SameGroup, asked₂, asked₄])
  rw [second, fourth] at apart
  grind

theorem validate_bare {t : DramTiming} (burst : 0 < t.burst) :
    { MediaProfile.ddr4x4.baseline with timing := .dram t.bare }.validate = .ok () := by
  have positive : requirePositive [("t_burst", t.bare.burst)] = .ok () := by
    rw [requirePositive, if_neg (show t.bare.burst ≠ 0 from Nat.ne_of_gt burst)]
    rfl
  simp only [MediaConfig.validate, positive]
  rfl

/-- Every valid channel with the spacing of `t` keeps these distances within a bank group, whatever
bursts it serves. -/
def KeepsApart (t : DramTiming) (activates columns : Tick) : Prop :=
  ∀ (config : MediaConfig) (t' : DramTiming), config.validate = .ok () →
    config.timing = .dram t' → t'.spacing = t.spacing → ∀ rs : List MediaRequest,
      KeepsGroups config.geometry activates columns (serve (create config.geometry t') rs).1

theorem keepsApart_min (t : DramTiming) :
    KeepsApart t (min t.activateToActivateGroup (2 * t.activateToActivate))
      (min t.columnToColumn (2 * t.burst)) := by
  intro config t' valid _ same rs
  have kept := keepsGroups_serve (MediaConfig.validate_pos valid).1 t' rs
  simp only [DramTiming.spacing, Spacing.mk.injEq] at same
  obtain ⟨burst, columns, activates, group⟩ := same
  rwa [burst, columns, activates, group] at kept

/-- Any two commands of a bank group keep the longer distance, or two of the shorter ones. The
longer one is kept throughout exactly when it is no more than that. -/
theorem keepsGroups_iff (t : DramTiming) (burst : 0 < t.burst) :
    KeepsApart t (min t.activateToActivateGroup (2 * t.activateToActivate))
        (min t.columnToColumn (2 * t.burst)) ∧
      (KeepsApart t t.activateToActivateGroup t.columnToColumn ↔ t.Balanced) := by
  refine ⟨keepsApart_min t, fun keeps => ?_, fun balanced => ?_⟩
  · have kept := keeps _ t.bare (validate_bare burst) rfl rfl
    exact ⟨activates_le kept, columns_le kept⟩
  · have kept := keepsApart_min t
    rwa [Nat.min_eq_left balanced.activates, Nat.min_eq_left balanced.columns] at kept

theorem balanced_profile (profile : MediaProfile) (t : DramTiming)
    (timing : profile.timing = .dram t) : t.Balanced := by
  cases profile <;> cases timing <;> exact ⟨by decide, by decide⟩

/-- Reads that come back to a bank group by way of another one, on a channel of a built-in
profile. -/
theorem keepsGroups_returning :
    let config := MediaProfile.ddr4x4.baseline
    let rs := [readOf 0 0 0, readOf 0 4 0, readOf 0 1 0]
    let past := (serve (create config.geometry ddr4Timing) rs).1
    0 < ddr4Timing.burst ∧ config.validate = .ok () ∧ config.timing = .dram ddr4Timing ∧
      ddr4Timing.Balanced ∧ past.map (·.activatedAt) = [some 0, some 3332, some 6664] ∧
      past.map (·.issuedAt) = [14160, 17492, 20824] ∧
      KeepsGroups config.geometry ddr4Timing.activateToActivateGroup ddr4Timing.columnToColumn
        past := by
  have balanced : ddr4Timing.Balanced := balanced_profile .ddr4x4 ddr4Timing rfl
  refine ⟨by decide, by rfl, rfl, balanced, by decide +kernel, by decide +kernel, ?_⟩
  exact (keepsGroups_iff ddr4Timing (by decide)).2.2 balanced MediaProfile.ddr4x4.baseline
    ddr4Timing (by rfl) rfl rfl _

/-- The same reads with other distances, which a valid configuration may set: the third activate
comes 200 after the first one and not 4900, and the third column command 6664 after the first one
and not 10000. -/
theorem not_keepsGroups_returning :
    let t := { ddr4Timing with
      activateToActivate := 100, activateToActivateGroup := 4900, columnToColumn := 10000 }
    let config := { MediaProfile.ddr4x4.baseline with timing := .dram t }
    let rs := [readOf 0 0 0, readOf 0 4 0, readOf 0 1 0]
    let past := (serve (create config.geometry t) rs).1
    config.validate = .ok () ∧ past.map (·.activatedAt) = [some 0, some 100, some 200] ∧
      past.map (·.issuedAt) = [14160, 17492, 20824] ∧
      ¬ KeepsGroups config.geometry t.activateToActivateGroup 0 past ∧
      ¬ KeepsGroups config.geometry 0 t.columnToColumn past := by
  refine ⟨by rfl, by decide +kernel, by decide +kernel, fun keeps => ?_, fun keeps => ?_⟩
  · have apart := List.pairwise_iff_getElem.1 keeps.activates 0 2 (by decide +kernel)
      (by decide +kernel) (by decide) ⟨by decide +kernel, by decide +kernel⟩ 0 200
      (by decide +kernel) (by decide +kernel)
    exact absurd apart (by decide)
  · have apart := List.pairwise_iff_getElem.1 keeps.columns 0 2 (by decide +kernel)
      (by decide +kernel) (by decide) ⟨by decide +kernel, by decide +kernel⟩
    exact absurd apart (by decide +kernel)

end Dram

end Expander
