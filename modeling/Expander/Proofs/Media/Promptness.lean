import Expander.Proofs.Media.Refresh

/-!
Bursts that are asked for earlier and finish later.

A plan that runs into a refresh is dropped. Made again from the start of that refresh, it would not
come behind any plan that is made later (`InTime.exists_soonest`). A channel makes it again from the
command that has run into the refresh, which may come long after the refresh is over, and opens the
row only then. So asking earlier may finish later, and never does where this costs no time
(`neverOvertaken_iff`).
-/

set_option autoImplicit false

namespace Expander

theorem BankState.refreshed_refreshed (b : BankState) (t : DramTiming) {start later : Tick}
    (le : start ≤ later) : (b.refreshed t start).refreshed t later = b.refreshed t later := by
  have behind : max (max b.activateAllowedAt (start + t.refreshCycle)) (later + t.refreshCycle) =
      max b.activateAllowedAt (later + t.refreshCycle) := by
    grind
  simp only [refreshed, behind]

theorem MediaConfig.refreshCycle_lt {config : MediaConfig} {t : DramTiming}
    (valid : config.validate = .ok ()) (timing : config.timing = .dram t)
    (refreshing : t.refreshInterval ≠ 0) : t.refreshCycle < t.refreshInterval := by
  obtain ⟨⟨⟩, -, rest⟩ := bind_eq_ok.1 valid
  rw [timing] at rest
  obtain ⟨⟨⟩, -, rest⟩ := bind_eq_ok.1 rest
  split at rest
  · cases rest
  · rename_i short
    exact Nat.lt_of_not_le fun long => short ⟨refreshing, long⟩

theorem steps_le {base step steps steps' now : Nat} (low : base + steps * step ≤ now)
    (high : now < base + steps' * step + step) : steps ≤ steps' := by
  refine Nat.le_of_lt_succ (Nat.lt_of_mul_lt_mul_right (a := step) ?_)
  rw [Nat.succ_mul]
  omega

section Planned

variable {t : DramTiming} {b : BankState} {row : Nat} {rankFrom busFrom now later : Tick}
  {p p' : DramPlan}

theorem DramPlan.Planned.issuedAt_mono (h : p.Planned t b row rankFrom busFrom now)
    (h' : p'.Planned t b row rankFrom busFrom later) (le : now ≤ later) :
    p.issuedAt ≤ p'.issuedAt := by
  cases h with
  | hit opened _ _ issued =>
    cases h' with
    | hit _ _ _ issued' => grind
    | closed _ closed => cases opened.symm.trans closed
    | conflict _ _ _ opened' ne =>
      cases opened.symm.trans opened'
      exact absurd rfl ne
  | closed act closed _ _ earliest issued =>
    cases h' with
    | hit opened => cases opened.symm.trans closed
    | closed act' _ _ _ earliest' issued' => grind
    | conflict _ _ _ opened => cases opened.symm.trans closed
  | conflict other pre act opened ne _ _ first earliest issued =>
    cases h' with
    | hit opened' =>
      cases opened.symm.trans opened'
      exact absurd rfl ne
    | closed _ closed => cases opened.symm.trans closed
    | conflict _ pre' act' _ _ _ _ first' earliest' issued' => grind

theorem DramPlan.Planned.fits_iff (h : p.Planned t b row rankFrom busFrom now) {due : Tick} :
    p.firstAtOrAfter due = none ↔ p.issuedAt < due := by
  rw [DramPlan.firstAtOrAfter_eq_none]
  refine ⟨fun all => all.2.2, fun issued =>
    ⟨fun pre precharged => ?_, fun act activated => ?_, issued⟩⟩
  · obtain ⟨-, -, -, act, activated, apart⟩ := h.le_prechargedAt precharged
    have column := (h.le_activatedAt activated).2.2
    grind
  · have column := (h.le_activatedAt activated).2.2
    grind

end Planned

namespace Dram

open MediaChannel (serve)

variable {m m' : Dram} {index : Nat} {c : Coordinate} {kind : AccessKind} {now later : Tick}

theorem plan_congr (timing : m'.timing = m.timing) (bank : m'.bankAt index = m.bankAt index)
    (ranks : m'.ranks = m.ranks) (lastBurst : m'.lastBurst = m.lastBurst) (rank group row : Nat)
    (kind : AccessKind) (now : Tick) :
    m'.plan index rank group row kind now = m.plan index rank group row kind now := by
  have bound (earliest : Tick) :
      m'.activateBound rank group earliest = m.activateBound rank group earliest := by
    rw [activateBound, activateBound, rankAt, rankAt, timing, ranks]
  simp only [plan, timing, bank, lastBurst, bound]

theorem settleRefresh_started (inside : index < m.banks.size) {missed start : Nat}
    (refreshing : 0 < m.timing.refreshInterval)
    (first : start = (m.bankAt index).refreshDue + missed * m.timing.refreshInterval)
    (low : start ≤ now) (high : now < start + m.timing.refreshInterval) :
    (m.settleRefresh index now).1 = max now (start + m.timing.refreshCycle) ∧
      (m.settleRefresh index now).2.bankAt index = (m.bankAt index).refreshed m.timing start := by
  rcases m.settleRefresh_cases index now with ⟨early, -⟩ |
    ⟨missed', start', counters, first', low', high', eq⟩
  · have due : (m.bankAt index).refreshDue ≤ start := first ▸ Nat.le_add_right ..
    grind
  · have same : start' = start := by
      rw [first] at low high ⊢
      rw [first'] at low' high' ⊢
      rw [Nat.le_antisymm (steps_le low' high) (steps_le low high')]
    rw [bankAt_settleRefresh inside eq, eq, same]
    exact ⟨rfl, rfl⟩

def dueAfter (m : Dram) (index : Nat) (now : Tick) : Tick :=
  ((m.settleRefresh index now).2.bankAt index).refreshDue

theorem lt_dueAfter (inside : index < m.banks.size) (refreshing : 0 < m.timing.refreshInterval)
    (now : Tick) : now < m.dueAfter index now := by
  rw [dueAfter]
  rcases m.settleRefresh_cases index now with ⟨early, eq⟩ |
    ⟨missed, start, counters, -, -, high, eq⟩
  · rw [eq]
    grind
  · rw [bankAt_settleRefresh inside eq]
    exact high

theorem settleRefresh_between (inside : index < m.banks.size) (le : now ≤ later)
    (before : m.timing.refreshInterval = 0 ∨ later < m.dueAfter index now) :
    (m.settleRefresh index later).2.bankAt index = (m.settleRefresh index now).2.bankAt index ∧
      (m.settleRefresh index now).1 ≤ (m.settleRefresh index later).1 := by
  rw [dueAfter] at before
  rcases m.settleRefresh_cases index now with ⟨early, eq⟩ |
    ⟨missed, start, counters, first, low, high, eq⟩
  · rw [eq] at before ⊢
    have early' : m.timing.refreshInterval = 0 ∨ later < (m.bankAt index).refreshDue := before
    simp only [settleRefresh, if_pos early', le, and_self]
  · have refreshing : 0 < m.timing.refreshInterval := by grind
    rw [bankAt_settleRefresh inside eq] at before
    have next : later < start + m.timing.refreshInterval :=
      before.resolve_left (Nat.ne_of_gt refreshing)
    have same := settleRefresh_started inside refreshing first (Nat.le_trans low le) next
    rw [bankAt_settleRefresh inside eq, same.1, same.2, eq]
    exact ⟨rfl, by grind⟩

/-- What has settled the refreshes up to one tick settles those up to a later one alike. -/
theorem settleRefresh_settleRefresh (inside : index < m.banks.size)
    (due : m.dueAfter index now ≤ later) :
    ((m.settleRefresh index now).2.settleRefresh index later).1 =
        (m.settleRefresh index later).1 ∧
      ((m.settleRefresh index now).2.settleRefresh index later).2.bankAt index =
        (m.settleRefresh index later).2.bankAt index := by
  rw [dueAfter] at due
  rcases m.settleRefresh_cases index now with ⟨early, eq⟩ |
    ⟨missed, start, counters, first, low, high, eq⟩
  · rw [eq]
    exact ⟨rfl, rfl⟩
  · have settled := settled_settleRefresh inside now
    have bank := bankAt_settleRefresh inside eq
    generalize (m.settleRefresh index now).2 = m' at settled bank due
    have refreshing : 0 < m.timing.refreshInterval := by grind
    -- The refreshes are counted from the next one here, and from the first one there.
    rcases m'.settleRefresh_cases index later with ⟨early, -⟩ |
      ⟨missed', start', counters', first', low', high', eq'⟩
    · rw [settled.timing] at early
      grind
    · rw [settled.timing, bank] at first'
      rw [settled.timing] at high'
      have multiple : start' = (m.bankAt index).refreshDue +
          (missed + 1 + missed') * m.timing.refreshInterval := by
        rw [first', first, Nat.add_mul, Nat.succ_mul]
        simp only [BankState.refreshed]
        grind
      have same := settleRefresh_started inside refreshing multiple low' high'
      rw [bankAt_settleRefresh (settled.banks ▸ inside) eq', same.1, same.2, eq', bank,
        settled.timing]
      refine ⟨rfl, BankState.refreshed_refreshed _ _ ?_⟩
      rw [multiple, first]
      exact Nat.add_le_add_left (Nat.mul_le_mul_right _ (by omega)) _

section PlanFrom

variable (m : Dram) (c : Coordinate) (kind : AccessKind)

def planFrom (now : Tick) : DramPlan × Dram :=
  m.attempt (m.bankIndex c) (m.rankOf c) (m.groupOf c) c.row kind now

def InTime (planned : DramPlan × Dram) : Prop :=
  m.timing.refreshInterval = 0 ∨ overrun (m.bankIndex c) planned = none

/-- The column command of the plan that is made from `now` on and, where a refresh stands in its
way, again from the start of that refresh. -/
inductive Soonest : Tick → Tick → Prop
  | fits {now : Tick} (fits : m.InTime c (m.planFrom c kind now)) :
      Soonest now (m.planFrom c kind now).1.issuedAt
  | again {now soonest : Tick} (late : ¬ m.InTime c (m.planFrom c kind now))
      (rest : Soonest (m.dueAfter (m.bankIndex c) now) soonest) : Soonest now soonest

end PlanFrom

section Inside

variable (inside : m.bankIndex c < m.banks.size)

include inside

theorem planned_planFrom (kind : AccessKind) (now : Tick) :
    (m.planFrom c kind now).1.Planned m.timing
      ((m.settleRefresh (m.bankIndex c) now).2.bankAt (m.bankIndex c)) c.row
      (m.rankFrom (m.rankOf c) (m.groupOf c)) (m.busFrom (m.rankOf c) (m.groupOf c) kind)
      (m.settleRefresh (m.bankIndex c) now).1 := by
  have settled := settled_settleRefresh inside now
  rw [← settled.timing, ← settled.rankFrom, ← settled.busFrom]
  exact planned_plan ..

theorem inTime_planFrom_iff : m.InTime c (m.planFrom c kind now) ↔
    m.timing.refreshInterval = 0 ∨
      (m.planFrom c kind now).1.issuedAt < m.dueAfter (m.bankIndex c) now :=
  or_congr_right (planned_planFrom inside kind now).fits_iff

theorem issuedAt_planFrom_mono (kind : AccessKind) (le : now ≤ later)
    (before : m.timing.refreshInterval = 0 ∨ later < m.dueAfter (m.bankIndex c) now) :
    (m.planFrom c kind now).1.issuedAt ≤ (m.planFrom c kind later).1.issuedAt := by
  obtain ⟨bank, go⟩ := settleRefresh_between inside le before
  have planned := planned_planFrom inside kind later
  rw [bank] at planned
  exact (planned_planFrom inside kind now).issuedAt_mono planned go

theorem InTime.issuedAt_le (fits : m.InTime c (m.planFrom c kind now)) (le : now ≤ later) :
    (m.planFrom c kind now).1.issuedAt ≤ (m.planFrom c kind later).1.issuedAt := by
  rcases (inTime_planFrom_iff inside).1 fits with off | issued
  · exact issuedAt_planFrom_mono inside kind le (.inl off)
  · rcases Nat.lt_or_ge later (m.dueAfter (m.bankIndex c) now) with before | behind
    · exact issuedAt_planFrom_mono inside kind le (.inr before)
    · calc (m.planFrom c kind now).1.issuedAt
          ≤ m.dueAfter (m.bankIndex c) now := Nat.le_of_lt issued
        _ ≤ later := behind
        _ ≤ (m.settleRefresh (m.bankIndex c) later).1 := m.le_settleRefresh ..
        _ ≤ (m.planFrom c kind later).1.issuedAt :=
            (planned_planFrom inside kind later).le_issuedAt.1

theorem InTime.dueAfter_le (fits : m.InTime c (m.planFrom c kind later))
    (late : ¬ m.InTime c (m.planFrom c kind now)) (le : now ≤ later) :
    m.dueAfter (m.bankIndex c) now ≤ later := by
  rw [inTime_planFrom_iff inside] at fits late
  obtain ⟨refreshing, reached⟩ := not_or.1 late
  refine Nat.le_of_not_lt fun between => ?_
  have mono := issuedAt_planFrom_mono inside kind le (.inr between)
  have issued := fits.resolve_left refreshing
  rw [dueAfter, (settleRefresh_between inside le (.inr between)).1] at issued
  exact reached (Nat.lt_of_le_of_lt mono issued)

theorem InTime.exists_soonest (fits : m.InTime c (m.planFrom c kind later)) (le : now ≤ later) :
    ∃ soonest, m.Soonest c kind now soonest ∧
      soonest ≤ (m.planFrom c kind later).1.issuedAt := by
  -- Each refresh that a plan runs into leaves less time up to `later`.
  induction gap : later - now using Nat.strongRecOn generalizing now with
  | ind _ ih =>
    by_cases first : m.InTime c (m.planFrom c kind now)
    · exact ⟨_, .fits first, first.issuedAt_le inside le⟩
    · have refreshing : 0 < m.timing.refreshInterval := Nat.pos_of_ne_zero (not_or.1 first).1
      have next := lt_dueAfter inside refreshing now
      have due := fits.dueAfter_le inside first le
      have closer : later - m.dueAfter (m.bankIndex c) now < later - now :=
        Nat.sub_lt_sub_left (Nat.lt_of_lt_of_le next due) next
      obtain ⟨soonest, rest, least⟩ := ih _ (gap ▸ closer) due rfl
      exact ⟨soonest, .again first rest, least⟩

theorem Soonest.exists_planFrom {soonest : Tick} (h : m.Soonest c kind now soonest) :
    ∃ later, now ≤ later ∧ m.InTime c (m.planFrom c kind later) ∧
      (m.planFrom c kind later).1.issuedAt = soonest := by
  induction h with
  | @fits now fits => exact ⟨now, Nat.le_refl _, fits, rfl⟩
  | @again now soonest late rest ih =>
    obtain ⟨later, le, found⟩ := ih
    have refreshing : 0 < m.timing.refreshInterval := Nat.pos_of_ne_zero (not_or.1 late).1
    exact ⟨later, Nat.le_trans (Nat.le_of_lt (lt_dueAfter inside refreshing now)) le, found⟩

end Inside

theorem attempt_congr (inside : index < m.banks.size) (inside' : index < m'.banks.size)
    (timing : m'.timing = m.timing) (ranks : m'.ranks = m.ranks)
    (lastBurst : m'.lastBurst = m.lastBurst)
    (settled : (m'.settleRefresh index later).1 = (m.settleRefresh index now).1 ∧
      (m'.settleRefresh index later).2.bankAt index = (m.settleRefresh index now).2.bankAt index)
    (rank group row : Nat) (kind : AccessKind) :
    (m'.attempt index rank group row kind later).1 =
      (m.attempt index rank group row kind now).1 := by
  have frame := settled_settleRefresh inside now
  have frame' := settled_settleRefresh inside' later
  simp only [attempt]
  rw [settled.1]
  exact plan_congr (frame'.timing.trans (timing.trans frame.timing.symm)) settled.2
    (frame'.ranks.trans (ranks.trans frame.ranks.symm))
    (frame'.lastBurst.trans (lastBurst.trans frame.lastBurst.symm)) ..

theorem settleRefresh_count (m : Dram) (f : MediaStatistics → MediaStatistics) (index : Nat)
    (now : Tick) :
    ((m.count f).settleRefresh index now).1 = (m.settleRefresh index now).1 ∧
      ((m.count f).settleRefresh index now).2.bankAt index =
        (m.settleRefresh index now).2.bankAt index := by
  by_cases early : m.timing.refreshInterval = 0 ∨ now < (m.bankAt index).refreshDue
  · have early' : (m.count f).timing.refreshInterval = 0 ∨
        now < ((m.count f).bankAt index).refreshDue := early
    simp only [settleRefresh, if_pos early, if_pos early']
    exact ⟨trivial, rfl⟩
  · have early' : ¬ ((m.count f).timing.refreshInterval = 0 ∨
        now < ((m.count f).bankAt index).refreshDue) := early
    simp only [settleRefresh, if_neg early, if_neg early']
    exact ⟨rfl, rfl⟩

/-- The channel `m'` makes the plans of `m` from `now` on. -/
structure PlansAlike (c : Coordinate) (kind : AccessKind) (m : Dram) (now : Tick) (m' : Dram) :
    Prop where
  timing : m'.timing = m.timing
  banks : m'.banks.size = m.banks.size
  plans : ∀ later, now ≤ later →
    (m'.attempt (m.bankIndex c) (m.rankOf c) (m.groupOf c) c.row kind later).1 =
      (m.planFrom c kind later).1
  due : ∀ later, now ≤ later → m'.dueAfter (m.bankIndex c) later = m.dueAfter (m.bankIndex c) later

theorem plansAlike_count (inside : m.bankIndex c < m.banks.size) (kind : AccessKind) (now : Tick)
    (f : MediaStatistics → MediaStatistics) : PlansAlike c kind m now (m.count f) where
  timing := rfl
  banks := rfl
  plans later _ := by
    have inside' : m.bankIndex c < (m.count f).banks.size := inside
    exact attempt_congr inside inside' rfl rfl rfl (m.settleRefresh_count f _ later) ..
  due later _ := congrArg BankState.refreshDue (m.settleRefresh_count f _ later).2

theorem plansAlike_wakeRank (inside : m.bankIndex c < m.banks.size) (kind : AccessKind) (rank : Nat)
    (earliest now : Tick) : PlansAlike c kind m now (m.wakeRank rank earliest).2 := by
  have counted : (m.wakeRank rank earliest).2 = m ∨
      ∃ f, (m.wakeRank rank earliest).2 = m.count f := by
    rw [wakeRank]
    split
    · exact .inr ⟨fun s => { s with powerdownExits := s.powerdownExits + 1 }, rfl⟩
    · exact .inl rfl
  rcases counted with eq | ⟨f, eq⟩
  · rw [eq]
    exact ⟨rfl, rfl, fun _ _ => rfl, fun _ _ => rfl⟩
  · rw [eq]
    exact plansAlike_count inside kind now f

theorem PlansAlike.attempt {m' : Dram} {reached : Tick} (h : PlansAlike c kind m now m')
    (inside : m.bankIndex c < m.banks.size) (le : now ≤ reached)
    (due : m'.dueAfter (m.bankIndex c) now ≤ reached) :
    PlansAlike c kind m reached (m'.settleRefresh (m.bankIndex c) now).2 := by
  have inside' : m.bankIndex c < m'.banks.size := h.banks ▸ inside
  have frame := settled_settleRefresh inside' now
  refine ⟨frame.timing.trans h.timing, frame.banks.trans h.banks, fun later behind => ?_,
    fun later behind => ?_⟩
  · rw [← h.plans later (Nat.le_trans le behind)]
    exact attempt_congr inside' (frame.banks ▸ inside') frame.timing frame.ranks frame.lastBurst
      (settleRefresh_settleRefresh inside' (Nat.le_trans due behind)) ..
  · rw [← h.due later (Nat.le_trans le behind), dueAfter, dueAfter,
      (settleRefresh_settleRefresh inside' (Nat.le_trans due behind)).2]

theorem PlansAlike.overrun_eq {m' : Dram} (h : PlansAlike c kind m now m') (le : now ≤ later) :
    overrun (m.bankIndex c)
        (m'.attempt (m.bankIndex c) (m.rankOf c) (m.groupOf c) c.row kind later) =
      overrun (m.bankIndex c) (m.planFrom c kind later) := by
  have due := h.due later le
  rw [dueAfter, dueAfter] at due
  rw [overrun, h.plans later le, Dram.attempt, due]
  rfl

/-- What holds of the tick of one plan and is handed on from each plan that is dropped to the next
holds of the plan that a planning ends with. This is a plan of the channel at its start. -/
theorem PlansAlike.settlePlan_induction {m' : Dram} {P : Tick → Prop}
    (h : PlansAlike c kind m now m') (inside : m.bankIndex c < m.banks.size)
    (step : ∀ tick reached, m.timing.refreshInterval ≠ 0 →
      overrun (m.bankIndex c) (m.planFrom c kind tick) = some reached → P tick → P reached)
    (replans : Nat) (start : P now) :
    ∃ later, P later ∧
      let planned := settlePlan (m.bankIndex c) (m.rankOf c) (m.groupOf c) c.row kind replans m' now
      planned.1 = (m.planFrom c kind later).1 ∧
        (planned.2.bankAt (m.bankIndex c)).refreshDue = m.dueAfter (m.bankIndex c) later := by
  fun_induction settlePlan (m.bankIndex c) (m.rankOf c) (m.groupOf c) c.row kind replans m' now with
  | case1 m' now => exact ⟨now, start, h.plans now (Nat.le_refl _), h.due now (Nat.le_refl _)⟩
  | case2 m' now settled plan fewer reached found refreshes ih =>
    have late : (settled.2.bankAt (m.bankIndex c)).refreshDue ≤ reached := by
      simpa using List.find?_some found
    have le : now ≤ reached :=
      Nat.le_trans (m'.le_settleRefresh (m.bankIndex c) now) (le_firstAtOrAfter found)
    have dropped : overrun (m.bankIndex c) (m.planFrom c kind now) = some reached :=
      (h.overrun_eq (Nat.le_refl _)).symm.trans found
    exact ih (h.attempt inside le late) (step now reached (h.timing ▸ refreshes) dropped start)
  | case3 _ m' now => exact ⟨now, start, h.plans now (Nat.le_refl _), h.due now (Nat.le_refl _)⟩

theorem decision_induction {P : Tick → Prop} {earliest : Tick}
    (inside : m.bankIndex c < m.banks.size)
    (step : ∀ tick reached, m.timing.refreshInterval ≠ 0 →
      overrun (m.bankIndex c) (m.planFrom c kind tick) = some reached → P tick → P reached)
    (start : P (m.wakeRank (m.rankOf c) earliest).1) :
    ∃ later, P later ∧ (m.decision c kind earliest).1 = (m.planFrom c kind later).1 ∧
      (m.InTime c (m.decision c kind earliest) ↔ m.InTime c (m.planFrom c kind later)) := by
  obtain ⟨later, holds, plan, due⟩ :=
    (plansAlike_wakeRank inside kind (m.rankOf c) earliest _).settlePlan_induction inside step
      maxReplans start
  refine ⟨later, holds, plan, or_congr_right ?_⟩
  rw [overrun, overrun, decision, plan, due]
  rfl

theorem le_overrun {reached : Tick}
    (late : overrun (m.bankIndex c) (m.planFrom c kind now) = some reached) :
    m.dueAfter (m.bankIndex c) now ≤ reached ∧ now ≤ reached := by
  have due : ((m.planFrom c kind now).2.bankAt (m.bankIndex c)).refreshDue ≤ reached := by
    simpa using List.find?_some late
  exact ⟨due, Nat.le_trans (m.le_settleRefresh ..) (le_firstAtOrAfter late)⟩

theorem decision_eq_planFrom (inside : m.bankIndex c < m.banks.size) (kind : AccessKind)
    (earliest : Tick) : ∃ later, (m.wakeRank (m.rankOf c) earliest).1 ≤ later ∧
      (m.decision c kind earliest).1 = (m.planFrom c kind later).1 ∧
        (m.InTime c (m.decision c kind earliest) ↔ m.InTime c (m.planFrom c kind later)) :=
  decision_induction inside
    (fun _ _ _ late le => Nat.le_trans le (le_overrun late).2) (Nat.le_refl _)

theorem decision_of_inTime (inside : m.bankIndex c < m.banks.size) {earliest : Tick}
    (fits : m.InTime c (m.planFrom c kind (m.wakeRank (m.rankOf c) earliest).1)) :
    (m.decision c kind earliest).1 =
        (m.planFrom c kind (m.wakeRank (m.rankOf c) earliest).1).1 ∧
      m.InTime c (m.decision c kind earliest) := by
  have alike := plansAlike_wakeRank inside kind (m.rankOf c) earliest
    (m.wakeRank (m.rankOf c) earliest).1
  have same := alike.overrun_eq (Nat.le_refl _)
  have carried : m.decision c kind earliest = _ :=
    settlePlan_of_fits maxReplans (same ▸ alike.timing.symm ▸ fits)
  rw [carried, InTime, same]
  exact ⟨alike.plans _ (Nat.le_refl _), fits⟩

theorem wakeRank_mono {rank : Nat} {earliest : Tick} (le : earliest ≤ later) :
    (m.wakeRank rank earliest).1 ≤ (m.wakeRank rank later).1 := by
  simp only [wakeRank]
  split <;> split
  · exact Nat.add_le_add_right le _
  · rename_i idle awake
    exact absurd ⟨idle.1, Nat.le_trans idle.2 le⟩ awake
  · exact Nat.le_trans le (Nat.le_add_right ..)
  · exact le

def Steady (m : Dram) (rank : Nat) (earliest : Tick) : Prop :=
  m.timing.powerdownIdle = 0 ∨ (m.rankAt rank).lastActivity + m.timing.powerdownIdle ≤ earliest

theorem Steady.exists_wakeRank {rank : Nat} {earliest : Tick} (h : m.Steady rank earliest)
    (le : (m.wakeRank rank earliest).1 ≤ now) :
    ∃ later, earliest ≤ later ∧ (m.wakeRank rank later).1 = now := by
  by_cases idle : 0 < m.timing.powerdownIdle
  · have asleep := h.resolve_left (Nat.ne_of_gt idle)
    rw [wakeRank, if_pos ⟨idle, asleep⟩] at le
    have enough : m.timing.powerdownExit ≤ now := Nat.le_trans (Nat.le_add_left ..) le
    have behind : earliest ≤ now - m.timing.powerdownExit := Nat.le_sub_of_add_le le
    refine ⟨now - m.timing.powerdownExit, behind, ?_⟩
    rw [wakeRank, if_pos ⟨idle, Nat.le_trans asleep behind⟩]
    exact Nat.sub_add_cancel enough
  · refine ⟨now, Nat.le_trans (m.le_wakeRank rank earliest) le, ?_⟩
    rw [wakeRank, if_neg (fun both => idle both.1)]

/-- A burst is served by the soonest plan for it. -/
def Prompt (m : Dram) (c : Coordinate) (kind : AccessKind) (earliest : Tick) : Prop :=
  ∀ soonest, m.Soonest c kind (m.wakeRank (m.rankOf c) earliest).1 soonest →
    (m.access c kind earliest).1.issuedAt ≤ soonest

def NeverOvertaken (m : Dram) (c : Coordinate) (kind : AccessKind) (earliest : Tick) : Prop :=
  ∀ later, earliest ≤ later → m.InTime c (m.decision c kind later) →
    (m.access c kind earliest).1.readyAt ≤ (m.access c kind later).1.readyAt

theorem readyAt_le_iff {earliest : Tick} : (m.access c kind earliest).1.readyAt ≤
    (m.access c kind later).1.readyAt ↔
      (m.access c kind earliest).1.issuedAt ≤ (m.access c kind later).1.issuedAt := by
  rw [access_fst, access_fst]
  exact ⟨fun le => Nat.le_of_add_le_add_right (Nat.le_of_add_le_add_right le),
    fun le => Nat.add_le_add_right (Nat.add_le_add_right le _) _⟩

theorem Prompt.neverOvertaken (inside : m.bankIndex c < m.banks.size) {earliest : Tick}
    (h : m.Prompt c kind earliest) : m.NeverOvertaken c kind earliest := by
  intro later le ends
  rw [readyAt_le_iff]
  obtain ⟨tick, behind, plan, fits⟩ := decision_eq_planFrom inside kind later
  obtain ⟨soonest, found, least⟩ := (fits.1 ends).exists_soonest inside
    (Nat.le_trans (wakeRank_mono le) behind)
  calc (m.access c kind earliest).1.issuedAt
      ≤ soonest := h soonest found
    _ ≤ (m.planFrom c kind tick).1.issuedAt := least
    _ = (m.access c kind later).1.issuedAt := by rw [access_fst, ← plan]; rfl

theorem NeverOvertaken.prompt (inside : m.bankIndex c < m.banks.size) {earliest : Tick}
    (h : m.NeverOvertaken c kind earliest) (steady : m.Steady (m.rankOf c) earliest) :
    m.Prompt c kind earliest := by
  intro soonest found
  -- The soonest plan is the first one of a burst that is asked for when its refresh starts.
  obtain ⟨tick, behind, fits, issued⟩ := found.exists_planFrom inside
  obtain ⟨later, le, awake⟩ := steady.exists_wakeRank behind
  rw [← awake] at fits issued
  obtain ⟨plan, ends⟩ := decision_of_inTime inside fits
  calc (m.access c kind earliest).1.issuedAt
      ≤ (m.access c kind later).1.issuedAt := readyAt_le_iff.1 (h later le ends)
    _ = (m.planFrom c kind (m.wakeRank (m.rankOf c) later).1).1.issuedAt := by
        rw [access_fst, ← plan]; rfl
    _ = soonest := issued

/-- Every plan that is dropped on the way has run into a refresh with a command that comes while the
refresh is running. -/
inductive Caught (m : Dram) (c : Coordinate) (kind : AccessKind) : Tick → Prop
  | fits {now : Tick} (fits : m.InTime c (m.planFrom c kind now)) : Caught m c kind now
  | again {now reached : Tick}
      (late : overrun (m.bankIndex c) (m.planFrom c kind now) = some reached)
      (running : reached ≤ m.dueAfter (m.bankIndex c) now + m.timing.refreshCycle)
      (rest : Caught m c kind reached) : Caught m c kind now

theorem settleRefresh_running (inside : index < m.banks.size)
    (short : m.timing.refreshCycle < m.timing.refreshInterval) {reached : Tick}
    (started : m.dueAfter index now ≤ reached)
    (running : reached ≤ m.dueAfter index now + m.timing.refreshCycle) :
    (m.settleRefresh index reached).1 = (m.settleRefresh index (m.dueAfter index now)).1 ∧
      (m.settleRefresh index reached).2.bankAt index =
        (m.settleRefresh index (m.dueAfter index now)).2.bankAt index := by
  have refreshing : 0 < m.timing.refreshInterval := Nat.zero_lt_of_lt short
  obtain ⟨missed, start⟩ : ∃ missed, m.dueAfter index now =
      (m.bankAt index).refreshDue + missed * m.timing.refreshInterval := by
    rw [dueAfter]
    rcases m.settleRefresh_cases index now with ⟨-, eq⟩ | ⟨missed, start, _, first, -, -, eq⟩
    · exact ⟨0, by rw [eq, Nat.zero_mul]; rfl⟩
    · refine ⟨missed + 1, ?_⟩
      rw [bankAt_settleRefresh inside eq, Nat.succ_mul, ← Nat.add_assoc, ← first]
      rfl
  have first := settleRefresh_started inside refreshing start (Nat.le_refl _)
    (Nat.lt_add_of_pos_right refreshing)
  have later := settleRefresh_started inside refreshing start started
    (Nat.lt_of_le_of_lt running (Nat.add_lt_add_left short _))
  rw [first.1, first.2, later.1, later.2]
  exact ⟨by grind, rfl⟩

theorem Soonest.running (inside : m.bankIndex c < m.banks.size)
    (short : m.timing.refreshCycle < m.timing.refreshInterval) {reached soonest : Tick}
    (started : m.dueAfter (m.bankIndex c) now ≤ reached)
    (running : reached ≤ m.dueAfter (m.bankIndex c) now + m.timing.refreshCycle)
    (h : m.Soonest c kind (m.dueAfter (m.bankIndex c) now) soonest) :
    m.Soonest c kind reached soonest := by
  have same := settleRefresh_running inside short started running
  have plan : (m.planFrom c kind reached).1 =
      (m.planFrom c kind (m.dueAfter (m.bankIndex c) now)).1 :=
    attempt_congr inside inside rfl rfl rfl same ..
  have due : m.dueAfter (m.bankIndex c) reached =
      m.dueAfter (m.bankIndex c) (m.dueAfter (m.bankIndex c) now) :=
    congrArg BankState.refreshDue same.2
  have fits : m.InTime c (m.planFrom c kind reached) ↔
      m.InTime c (m.planFrom c kind (m.dueAfter (m.bankIndex c) now)) := by
    rw [inTime_planFrom_iff inside, inTime_planFrom_iff inside, plan, due]
  cases h with
  | fits first =>
    rw [← plan]
    exact .fits (fits.2 first)
  | again late rest =>
    rw [← due] at rest
    exact .again ((not_congr fits).2 late) rest

theorem Caught.prompt {earliest : Tick} (inside : m.bankIndex c < m.banks.size)
    (short : m.timing.refreshInterval ≠ 0 → m.timing.refreshCycle < m.timing.refreshInterval)
    (h : m.Caught c kind (m.wakeRank (m.rankOf c) earliest).1)
    (ends : m.InTime c (m.decision c kind earliest)) : m.Prompt c kind earliest := by
  intro soonest found
  have step (tick reached : Tick) (refreshing : m.timing.refreshInterval ≠ 0)
      (late : overrun (m.bankIndex c) (m.planFrom c kind tick) = some reached)
      (both : m.Caught c kind tick ∧ m.Soonest c kind tick soonest) :
      m.Caught c kind reached ∧ m.Soonest c kind reached soonest := by
    have dropped : ¬ m.InTime c (m.planFrom c kind tick) := by
      rintro (off | fits)
      · exact refreshing off
      · cases fits.symm.trans late
    rcases both with ⟨caught, found⟩
    cases caught with
    | fits fits => exact absurd fits dropped
    | again late' running rest =>
      cases late.symm.trans late'
      cases found with
      | fits fits => exact absurd fits dropped
      | again _ found =>
        exact ⟨rest, found.running inside (short refreshing) (le_overrun late).1 running⟩
  obtain ⟨later, ⟨-, rest⟩, plan, fits⟩ := decision_induction inside step ⟨h, found⟩
  rw [access_fst, DramPlan.outcome, plan]
  cases rest with
  | fits => exact Nat.le_refl _
  | again late => exact absurd (fits.1 ends) late

theorem built_serve {g : Geometry} (ranks : 0 < g.ranksPerChannel) (banks : 0 < g.banksPerRank)
    (t : DramTiming) (rs : List MediaRequest) : (serve (create g t) rs).2.Built g t :=
  MediaChannel.serve_induction (P := fun _ (m : Dram) => m.Built g t) (built_create ranks banks t)
    (fun _ _ r h => h.visit r) rs

/-- Asking for a burst earlier never makes it finish later if the soonest plan is carried out and,
where the rank does not power down in between, only then. The soonest plan is carried out without
refreshes, and wherever each plan that is dropped on the way is caught by a refresh that is running.
The planning ends with a plan that fits, whenever the burst is asked for, where there are no
refreshes or there is room between them. -/
theorem neverOvertaken_iff (config : MediaConfig) (t : DramTiming)
    (valid : config.validate = .ok ()) (timing : config.timing = .dram t)
    (past : List MediaRequest) (c : Coordinate) (kind : AccessKind) (earliest : Tick) :
    let m := (serve (create config.geometry t) past).2
    (m.Prompt c kind earliest → m.NeverOvertaken c kind earliest) ∧
      (m.Steady (m.rankOf c) earliest →
        m.NeverOvertaken c kind earliest → m.Prompt c kind earliest) ∧
      (m.Caught c kind (m.wakeRank (m.rankOf c) earliest).1 →
        m.InTime c (m.decision c kind earliest) → m.Prompt c kind earliest) ∧
      (t.refreshInterval = 0 → m.Prompt c kind earliest) ∧
      (t.refreshInterval = 0 ∨ t.Roomy → ∀ later, m.InTime c (m.decision c kind later)) := by
  intro m
  obtain ⟨ranks, banks⟩ := MediaConfig.validate_pos valid
  have built : m.Built config.geometry t := built_serve ranks banks t past
  have inside := built.inside c
  have short : m.timing.refreshInterval ≠ 0 → m.timing.refreshCycle < m.timing.refreshInterval := by
    rw [built.timing]
    exact MediaConfig.refreshCycle_lt valid timing
  refine ⟨fun prompt => prompt.neverOvertaken inside,
    fun steady never => never.prompt inside steady,
    fun caught ends => caught.prompt inside short ends, fun off => ?_, ?_⟩
  · have fits (planned : DramPlan × Dram) : m.InTime c planned := .inl (built.timing ▸ off)
    exact (Caught.fits (fits _)).prompt inside short (fits _)
  · rintro (off | roomy) later
    · exact .inl (built.timing ▸ off)
    · exact .inr (plansInTime built roomy ⟨c, kind, later⟩).fits

/-- A read that its rank has to wake up for. A refresh catches its column command, and it is served
right behind the refresh. -/
theorem neverOvertaken_caught :
    let config := MediaProfile.ddr4x4.baseline
    let past : List MediaRequest := [⟨⟨0, 0, 0, 7, 0⟩, .read, 0⟩]
    let m := (serve (create config.geometry ddr4Timing) past).2
    let c : Coordinate := ⟨0, 0, 1, 7, 0⟩
    let earliest := 7790 * nanosecond
    config.validate = .ok () ∧ config.timing = .dram ddr4Timing ∧
      m.Steady (m.rankOf c) earliest ∧ m.Caught c .read (m.wakeRank (m.rankOf c) earliest).1 ∧
      (m.access c .read earliest).1.readyAt = 8181652 ∧ m.Prompt c .read earliest ∧
      m.NeverOvertaken c .read earliest ∧ ∀ later, m.InTime c (m.decision c .read later) := by
  have valid : MediaProfile.ddr4x4.baseline.validate = .ok () := by rfl
  intro config past m c earliest
  have steady : m.Steady (m.rankOf c) earliest := .inr (by decide +kernel)
  have caught : m.Caught c .read (m.wakeRank (m.rankOf c) earliest).1 :=
    have late : overrun (m.bankIndex c) (m.planFrom c .read
        (m.wakeRank (m.rankOf c) earliest).1) = some 7810160 := by
      decide +kernel
    .again late (by decide +kernel) (.fits (.inr (by decide +kernel)))
  have roomy : ddr4Timing.Roomy := ⟨by decide, by decide, by decide⟩
  obtain ⟨sufficient, necessary, prompt, -, ends⟩ :=
    neverOvertaken_iff config ddr4Timing valid rfl past c .read earliest
  have never := sufficient (prompt caught (ends (.inr roomy) earliest))
  exact ⟨valid, rfl, steady, caught, by decide +kernel, necessary steady never, never,
    ends (.inr roomy)⟩

/-- Two reads of different ranks shortly before a refresh. The first one keeps the bus busy until
the refresh is long over, and the second one opens its row only then: it is overtaken by a read that
is asked for when the refresh starts. -/
theorem not_neverOvertaken_backlog :
    let config := MediaProfile.ddr4x4.baseline
    let past : List MediaRequest := [⟨⟨0, 0, 0, 7, 0⟩, .read, 7790 * nanosecond⟩]
    let m := (serve (create config.geometry ddr4Timing) past).2
    let c : Coordinate := ⟨0, 1, 0, 7, 0⟩
    config.validate = .ok () ∧
      (m.access c .read (7790 * nanosecond)).1.readyAt = 8200810 ∧
      (m.access c .read (7800 * nanosecond)).1.readyAt = 8186650 ∧
      ¬ m.NeverOvertaken c .read (7790 * nanosecond) := by
  have valid : MediaProfile.ddr4x4.baseline.validate = .ok () := by rfl
  intro config past m c
  refine ⟨valid, by decide +kernel, by decide +kernel, fun never => ?_⟩
  have ends : m.InTime c (m.decision c .read (7800 * nanosecond)) := .inr (by decide +kernel)
  exact absurd (never (7800 * nanosecond) (by decide) ends) (by decide +kernel)

end Dram

end Expander
