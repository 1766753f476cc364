import Expander.Media.Profile
import Expander.Proofs.Media.Replanning
import Expander.Proofs.Resolution

/-!
Refreshes of a DRAM bank and the commands around them.

A bank is refreshed once in every interval, and the channel learns of it late: when an access comes
to the bank, or when its plan runs into the next refresh. The ticks that a bank stores lie behind
the refreshes it knows of (`Rested`). As no plan is carried out that reaches the next one, every
command keeps out of all refreshes, and none starts between the activate of a row and the bursts
that find the row open (`keepsClear_serve`).
-/

set_option autoImplicit false

namespace Expander

def DramTiming.Refreshing (t : DramTiming) (tick : Tick) : Prop :=
  ∃ k, 0 < k ∧ k * t.refreshInterval ≤ tick ∧ tick < k * t.refreshInterval + t.refreshCycle

def DramTiming.Behind (t : DramTiming) (due tick : Tick) : Prop :=
  ∀ k, 0 < k → k * t.refreshInterval < due → k * t.refreshInterval + t.refreshCycle ≤ tick

section Behind

variable {t : DramTiming} {due tick later : Tick}

theorem DramTiming.Behind.mono (h : t.Behind due tick) (le : tick ≤ later) : t.Behind due later :=
  fun k pos before => Nat.le_trans (h k pos before) le

theorem DramTiming.Behind.not_refreshing (h : t.Behind due tick) (lt : tick < due) :
    ¬ t.Refreshing tick := by
  rintro ⟨k, pos, started, running⟩
  exact Nat.not_le_of_lt running (h k pos (Nat.lt_of_le_of_lt started lt))

theorem DramTiming.behind_first (t : DramTiming) (tick : Tick) :
    t.Behind t.refreshInterval tick := by
  intro k pos before
  exact absurd (Nat.le_mul_of_pos_left t.refreshInterval pos) (Nat.not_le_of_lt before)

theorem DramTiming.behind_next {k : Nat} (le : k * t.refreshInterval + t.refreshCycle ≤ tick) :
    t.Behind (k * t.refreshInterval + t.refreshInterval) tick := by
  intro j pos before
  rw [← Nat.succ_mul] at before
  have least : j ≤ k := Nat.le_of_lt_succ (Nat.lt_of_mul_lt_mul_right before)
  exact Nat.le_trans (Nat.add_le_add_right (Nat.mul_le_mul_right _ least) _) le

end Behind

theorem MediaConfig.validate_pos {config : MediaConfig} (valid : config.validate = .ok ()) :
    0 < config.geometry.ranksPerChannel ∧ 0 < config.geometry.banksPerRank := by
  obtain ⟨⟨⟩, geometry, -⟩ := bind_eq_ok.1 valid
  obtain ⟨⟨⟩, parameters, -⟩ := bind_eq_ok.1 geometry
  have positive := requirePositive_eq_ok parameters
  exact ⟨positive ("ranks_per_channel", _) (by simp [Geometry.parameters]),
    positive ("banks_per_rank", _) (by simp [Geometry.parameters])⟩

/-- A burst keeps its commands out of the refreshes of its bank. -/
structure Dram.KeepsClear (g : Geometry) (t : DramTiming) (past : List MediaVisit)
    (v : MediaVisit) : Prop where
  commands : ∀ tick ∈ v.commands, ¬ t.Refreshing tick
  /-- Every refresh is over before the activate that opened the row of the burst, or starts only
  after the burst has been issued. -/
  opened : ∃ act, lastOpening g (g.bankNumber v.place) (past ++ [v]) = some (v.place.row, act) ∧
    ∀ k, 0 < k → k * t.refreshInterval + t.refreshCycle ≤ act ∨ v.issuedAt < k * t.refreshInterval

/-- The planning of an access ends by itself, with a plan that fits before the next refresh of the
bank, and this plan is carried out. -/
structure Dram.PlansInTime (m : Dram) (r : MediaRequest) : Prop where
  replans : ∃ replans, replans < maxReplans ∧
    Replanned (m.bankIndex r.place) (m.rankOf r.place) (m.groupOf r.place) r.place.row r.kind
      replans (m.wakeRank (m.rankOf r.place) r.earliest).2
      (m.wakeRank (m.rankOf r.place) r.earliest).1 (m.decision r.place r.kind r.earliest)
  fits : overrun (m.bankIndex r.place) (m.decision r.place r.kind r.earliest) = none
  carriedOut : (MediaChannel.visit m r).1.toMediaAccess =
    (m.decision r.place r.kind r.earliest).1.outcome m.timing

namespace Dram

open MediaChannel (serve visit)

variable {g : Geometry} {t : DramTiming} {past : List MediaVisit} {v : MediaVisit}
  {r : MediaRequest} {m : Dram} {b : BankState} {bank rankFrom busFrom now : Nat} {p : DramPlan}

theorem plansInTime (built : m.Built g t) (roomy : t.Roomy) (r : MediaRequest) :
    m.PlansInTime r := by
  obtain ⟨replans, few, replanned⟩ := replanned_decision (built.inside r.place)
    (built.timing ▸ roomy) r.kind r.earliest
  exact ⟨⟨replans, few, replanned⟩, replanned.overrun_eq_none, m.access_fst ..⟩

/-- The commands that a bank takes next lie behind the refreshes that it knows of. -/
structure Rested (g : Geometry) (t : DramTiming) (bank : Nat) (past : List MediaVisit)
    (b : BankState) : Prop where
  due : ∃ k, b.refreshDue = k * t.refreshInterval
  activate : t.Behind b.refreshDue b.activateAllowedAt
  /-- A refresh closes the row, so that none has started since the row was opened. -/
  opened : b.Opened g bank past fun act => t.Behind b.refreshDue act ∧ act < b.refreshDue
  column : b.openRow.isSome → t.Behind b.refreshDue b.columnAllowedAt
  precharge : b.openRow.isSome → t.Behind b.refreshDue b.prechargeAllowedAt

theorem Rested.refreshed (h : Rested g t bank past b) {missed start : Nat}
    (eq : start = b.refreshDue + missed * t.refreshInterval) :
    Rested g t bank past (b.refreshed t start) := by
  obtain ⟨k, due⟩ := h.due
  have multiple : start = (k + missed) * t.refreshInterval := by rw [eq, due, Nat.add_mul]
  refine ⟨⟨k + missed + 1, ?_⟩, ?_, nofun, nofun, nofun⟩
  · rw [Nat.succ_mul, ← multiple]
    rfl
  · rw [BankState.refreshed, multiple]
    exact DramTiming.behind_next (Nat.le_max_right ..)

theorem Rested.other (h : Rested g t bank past b) (ne : g.bankNumber v.place ≠ bank) :
    Rested g t bank (past ++ [v]) b :=
  ⟨h.due, h.activate, h.opened.other ne, h.column, h.precharge⟩

section Planned

variable (h : Rested g t bank past b) (planned : p.Planned t b r.place.row rankFrom busFrom now)

include h planned

theorem Rested.behind_activatedAt {act : Tick} (activated : p.activatedAt = some act) :
    t.Behind b.refreshDue act :=
  h.activate.mono (planned.le_activatedAt activated).2.1

theorem Rested.behind_issuedAt : t.Behind b.refreshDue p.issuedAt := by
  rcases planned.hit_or_activated with ⟨opened, -, -⟩ | ⟨act, activated⟩
  · exact (h.column (by simp [opened])).mono planned.le_issuedAt.2
  · exact (h.behind_activatedAt planned activated).mono
      (Nat.le_trans (Nat.le_add_right ..) (planned.le_activatedAt activated).2.2)

theorem Rested.behind_commands :
    ∀ tick ∈ (⟨r, p.outcome t⟩ : MediaVisit).commands, t.Behind b.refreshDue tick := by
  intro tick mem
  rcases MediaVisit.mem_commands.1 mem with precharged | activated | rfl
  · obtain ⟨opened, -, le, -⟩ := planned.le_prechargedAt precharged
    exact (h.precharge opened).mono le
  · exact h.behind_activatedAt planned activated
  · exact h.behind_issuedAt planned

variable (fits : p.firstAtOrAfter b.refreshDue = none) (same : g.bankNumber r.place = bank)

include fits same

theorem Rested.lastOpening :
    ∃ act, lastOpening g bank (past ++ [⟨r, p.outcome t⟩]) = some (r.place.row, act) ∧
      t.Behind b.refreshDue act ∧ act < b.refreshDue :=
  h.opened.lastOpening planned same (fun _ holds => holds) fun act activated =>
    ⟨h.behind_activatedAt planned activated,
      (DramPlan.firstAtOrAfter_eq_none.1 fits).2.1 act activated⟩

theorem Rested.keepsClear : KeepsClear g t past ⟨r, p.outcome t⟩ where
  commands tick mem := by
    refine (h.behind_commands planned tick mem).not_refreshing ?_
    obtain ⟨precharged, activated, issued⟩ := DramPlan.firstAtOrAfter_eq_none.1 fits
    rcases MediaVisit.mem_commands.1 mem with precharge | activate | rfl
    · exact precharged tick precharge
    · exact activated tick activate
    · exact issued
  opened := by
    obtain ⟨act, last, behind, before⟩ := h.lastOpening planned fits same
    refine ⟨act, same ▸ last, fun k pos => ?_⟩
    rcases Nat.lt_or_ge (k * t.refreshInterval) b.refreshDue with started | next
    · exact .inl (behind k pos started)
    · exact .inr (Nat.lt_of_lt_of_le (DramPlan.firstAtOrAfter_eq_none.1 fits).2.2 next)

theorem Rested.after :
    Rested g t bank (past ++ [⟨r, p.outcome t⟩]) (b.after t r.place.row r.kind p) := by
  have issued := h.behind_issuedAt planned
  refine ⟨?_, ?_, ?_, fun _ => ?_, fun opened => ?_⟩
  all_goals rw [BankState.after_refreshDue]
  · exact h.due
  · exact h.activate.mono (planned.le_after_activateAllowedAt r.kind)
  · exact h.opened.after planned same (fun _ holds => holds) fun act activated =>
      ⟨h.behind_activatedAt planned activated,
        (DramPlan.firstAtOrAfter_eq_none.1 fits).2.1 act activated⟩
  · exact issued.mono (Nat.le_add_right ..)
  · rcases planned.hit_or_activated with ⟨hit, -, -⟩ | ⟨act, activated⟩
    · exact (h.precharge (by simp [hit])).mono BankState.le_after_prechargeAllowedAt
    · exact (h.behind_activatedAt planned activated).mono
        (Nat.le_trans (Nat.le_add_right ..)
          (BankState.le_after_prechargeAllowedAt_activate activated))

end Planned

theorem Rested.settleRefresh {index : Nat} (inside : index < m.banks.size)
    (h : Rested g m.timing bank past (m.bankAt index)) (now : Tick) :
    Rested g m.timing bank past ((m.settleRefresh index now).2.bankAt index) := by
  rcases m.settleRefresh_cases index now with ⟨-, eq⟩ | ⟨missed, start, counters, first, -, -, eq⟩
  · rw [eq]
    exact h
  · rw [bankAt_settleRefresh inside eq]
    exact h.refreshed first

theorem Rested.decision (built : m.Built g t)
    (h : Rested g t bank past (m.bankAt (g.bankNumber r.place))) :
    Rested g t bank past
      ((m.decision r.place r.kind r.earliest).2.bankAt (g.bankNumber r.place)) := by
  rw [← built.bankIndex, ← built.timing] at h ⊢
  -- The bank is still there, and its timing is the same, at each refresh.
  refine (settlePlan_induction (P := fun m' => m'.timing = m.timing ∧
    m'.banks.size = m.banks.size ∧ Rested g m.timing bank past (m'.bankAt (m.bankIndex r.place)))
    (fun m' now ⟨timing, banks, rested⟩ => ?_) _ ?_).2.2
  · have settled := settled_settleRefresh (banks ▸ built.inside r.place : _ < m'.banks.size) now
    rw [← timing] at rested ⊢
    exact ⟨settled.timing, settled.banks.trans banks,
      rested.settleRefresh (banks ▸ built.inside r.place) now⟩
  · have awake := m.settled_wakeRank (m.bankIndex r.place) (m.rankOf r.place) r.earliest
    refine ⟨awake.timing, awake.banks, ?_⟩
    rwa [bankAt_wakeRank]

/-- Every bank of a channel is rested. -/
structure Cleared (g : Geometry) (t : DramTiming) (past : List MediaVisit) (m : Dram) : Prop where
  built : m.Built g t
  rested : ∀ c, Rested g t (g.bankNumber c) past (m.bankAt (g.bankNumber c))

theorem cleared_create (ranks : 0 < g.ranksPerChannel) (banks : 0 < g.banksPerRank)
    (t : DramTiming) : Cleared g t [] (create g t) where
  built := built_create ranks banks t
  rested c := by
    rw [bankAt_create (Geometry.bankNumber_lt ranks banks c)]
    exact ⟨⟨1, (Nat.one_mul _).symm⟩, t.behind_first _, nofun, nofun, nofun⟩

theorem Cleared.keepsClear (h : Cleared g t past m) (roomy : t.Roomy) (r : MediaRequest) :
    KeepsClear g t past (visit m r).1 := by
  obtain ⟨_, _, _, -, planned⟩ := h.built.planned r
  have fits := (plansInTime h.built roomy r).fits
  rw [overrun, h.built.bankIndex] at fits
  rw [h.built.visit_fst]
  exact ((h.rested r.place).decision h.built).keepsClear planned fits rfl

theorem Cleared.visit (h : Cleared g t past m) (roomy : t.Roomy) (r : MediaRequest) :
    Cleared g t (past ++ [(visit m r).1]) (visit m r).2 where
  built := h.built.visit r
  rested c := by
    rw [h.built.visit_fst]
    by_cases same : g.bankNumber r.place = g.bankNumber c
    · obtain ⟨_, _, _, -, planned⟩ := h.built.planned r
      have fits := (plansInTime h.built roomy r).fits
      rw [overrun, h.built.bankIndex] at fits
      rw [← same, h.built.bankAt_visit_self]
      exact ((h.rested r.place).decision h.built).after planned fits rfl
    · rw [h.built.bankAt_visit_of_ne same]
      exact (h.rested c).other same

/-- Every built-in DRAM leaves room between its refreshes. Where there is room, no command of a
burst falls into a refresh, whatever bursts the channel has served before, and the planning of the
burst ends by itself. -/
theorem keepsClear_serve :
    (∀ (profile : MediaProfile) (t : DramTiming), profile.timing = .dram t →
      profile.baseline.validate = .ok () ∧ t.Roomy) ∧
    ∀ (config : MediaConfig) (t : DramTiming), config.validate = .ok () →
      config.timing = .dram t → t.Roomy → ∀ (past : List MediaRequest) (r : MediaRequest),
        let served := serve (create config.geometry t) past
        KeepsClear config.geometry t served.1 (visit served.2 r).1 ∧ served.2.PlansInTime r := by
  refine ⟨fun profile t timing => ?_, fun config t valid _ roomy past r => ?_⟩
  · cases profile <;> cases timing <;> exact ⟨by rfl, by decide, by decide, by decide⟩
  · obtain ⟨ranks, banks⟩ := MediaConfig.validate_pos valid
    have cleared := MediaChannel.serve_induction (P := Cleared config.geometry t)
      (cleared_create ranks banks t) (fun _ _ r h => h.visit roomy r) past
    exact ⟨cleared.keepsClear roomy r, plansInTime cleared.built roomy r⟩

/-- A read that finds its row open, but not for long enough, waits for the refresh and opens the row
again. -/
theorem keepsClear_reopened :
    let config := MediaProfile.ddr4x4.baseline
    let past : List MediaRequest :=
      [⟨⟨0, 0, 0, 7, 0⟩, .read, 0⟩, ⟨⟨0, 0, 0, 7, 0⟩, .read, 7790 * nanosecond⟩]
    let next : MediaRequest := ⟨⟨0, 0, 0, 7, 0⟩, .read, 7792 * nanosecond⟩
    let served := serve (create config.geometry ddr4Timing) past
    config.validate = .ok () ∧ config.timing = .dram ddr4Timing ∧ ddr4Timing.Roomy ∧
      served.1.map (·.commands) = [[0, 14160], [7796000]] ∧
      (visit served.2 next).1.commands = [8150000, 8164160] ∧
      KeepsClear config.geometry ddr4Timing served.1 (visit served.2 next).1 ∧
      served.2.PlansInTime next := by
  have roomy : ddr4Timing.Roomy := ⟨by decide, by decide, by decide⟩
  refine ⟨by rfl, rfl, roomy, by decide +kernel, by decide +kernel, ?_⟩
  exact keepsClear_serve.2 MediaProfile.ddr4x4.baseline ddr4Timing (by rfl) rfl roomy _ _

end Dram

end Expander
