import Expander.Proofs.Media
import Expander.Proofs.Media.History

/-!
How an access to a DRAM channel is planned and carried out.

The commands of a plan are the earliest ones that the bank, the rank and the data bus allow
(`planned_plan`). The refreshes that are settled on the way change nothing but the bank of the burst
(`Settled`), and the access then moves this bank, and no other, through its commands
(`bankAt_access_self`, `bankAt_access_of_ne`).
-/

set_option autoImplicit false

namespace Expander

namespace BankState

def refreshed (b : BankState) (t : DramTiming) (start : Tick) : BankState :=
  { b with
    openRow := none
    activateAllowedAt := max b.activateAllowedAt (start + t.refreshCycle)
    refreshDue := start + t.refreshInterval }

def precharged (b : BankState) (t : DramTiming) : Option Tick → BankState
  | none => b
  | some pre =>
    { b with
      openRow := none
      lastPrecharge := some pre
      activateAllowedAt := max b.activateAllowedAt (pre + t.prechargeToActivate) }

def activated (b : BankState) (t : DramTiming) (row : Nat) : Option Tick → BankState
  | none => b
  | some act =>
    { b with
      openRow := some row
      lastActivate := some act
      activateAllowedAt := act + t.rowCycle
      prechargeAllowedAt := max b.prechargeAllowedAt (act + t.activateToPrecharge) }

def moved (b : BankState) (t : DramTiming) (kind : AccessKind) (issued : Tick) : BankState :=
  { b with
    columnAllowedAt := issued + t.columnToColumn
    prechargeAllowedAt := max b.prechargeAllowedAt <|
      match kind with
      | .read => issued + t.readToPrecharge
      | .write => issued + t.columnToData + t.burst + t.writeRecovery }

def after (b : BankState) (t : DramTiming) (row : Nat) (kind : AccessKind) (p : DramPlan) :
    BankState :=
  ((b.precharged t p.prechargedAt).activated t row p.activatedAt).moved t kind p.issuedAt

/-- What refreshes do to a bank: they close its row and put off the next activate. -/
structure Rests (b b' : BankState) : Prop where
  row : b'.openRow = b.openRow ∨ b'.openRow = none
  activate : b.activateAllowedAt ≤ b'.activateAllowedAt
  column : b'.columnAllowedAt = b.columnAllowedAt
  precharge : b'.prechargeAllowedAt = b.prechargeAllowedAt

theorem Rests.refl (b : BankState) : b.Rests b := ⟨.inl rfl, Nat.le_refl _, rfl, rfl⟩

theorem Rests.trans {b b' b'' : BankState} (h : b.Rests b') (h' : b'.Rests b'') : b.Rests b'' where
  row := by
    rcases h'.row with same | closed
    · rw [same]
      exact h.row
    · exact .inr closed
  activate := Nat.le_trans h.activate h'.activate
  column := h'.column.trans h.column
  precharge := h'.precharge.trans h.precharge

theorem rests_refreshed (b : BankState) (t : DramTiming) (start : Tick) :
    b.Rests (b.refreshed t start) :=
  ⟨.inr rfl, Nat.le_max_left .., rfl, rfl⟩

section After

variable {b : BankState} {t : DramTiming} {row : Nat} {kind : AccessKind} {p : DramPlan}

theorem after_refreshDue : (b.after t row kind p).refreshDue = b.refreshDue := by
  rw [after]
  cases p.activatedAt <;> cases p.prechargedAt <;> rfl

theorem after_columnAllowedAt :
    (b.after t row kind p).columnAllowedAt = p.issuedAt + t.columnToColumn := rfl

theorem le_after_prechargeAllowedAt :
    b.prechargeAllowedAt ≤ (b.after t row kind p).prechargeAllowedAt := by
  rw [after]
  refine Nat.le_trans ?_ (Nat.le_max_left ..)
  cases p.activatedAt <;> cases p.prechargedAt <;>
    first | exact Nat.le_refl _ | exact Nat.le_max_left ..

theorem after_activateAllowedAt {act : Tick} (activated : p.activatedAt = some act) :
    (b.after t row kind p).activateAllowedAt = act + t.rowCycle := by
  rw [after, activated]
  rfl

theorem le_after_prechargeAllowedAt_activate {act : Tick} (activated : p.activatedAt = some act) :
    act + t.activateToPrecharge ≤ (b.after t row kind p).prechargeAllowedAt := by
  rw [after, activated]
  exact Nat.le_trans (Nat.le_max_right ..) (Nat.le_max_left ..)

theorem after_openRow {act : Tick} (activated : p.activatedAt = some act) :
    (b.after t row kind p).openRow = some row := by
  rw [after, activated]
  rfl

theorem after_hit (precharged : p.prechargedAt = none) (activated : p.activatedAt = none) :
    (b.after t row kind p).openRow = b.openRow ∧
      (b.after t row kind p).activateAllowedAt = b.activateAllowedAt := by
  rw [after, activated, precharged]
  exact ⟨rfl, rfl⟩

end After

end BankState

/-- The commands of a burst on `row` of the bank `b`: each at the earliest tick that the bank, the
rank and the data bus allow, and none of them before `now`. -/
inductive DramPlan.Planned (t : DramTiming) (b : BankState) (row : Nat)
    (rankFrom busFrom now : Tick) (p : DramPlan) : Prop
  | hit (opened : b.openRow = some row) (precharged : p.prechargedAt = none)
      (activated : p.activatedAt = none)
      (issued : p.issuedAt = max (max now b.columnAllowedAt) busFrom)
  | closed (act : Tick) (opened : b.openRow = none) (precharged : p.prechargedAt = none)
      (activated : p.activatedAt = some act)
      (earliest : act = max (max now b.activateAllowedAt) rankFrom)
      (issued : p.issuedAt =
        max (max b.columnAllowedAt (act + t.activateToColumn)) busFrom)
  | conflict (other : Nat) (pre act : Tick) (opened : b.openRow = some other) (ne : other ≠ row)
      (precharged : p.prechargedAt = some pre) (activated : p.activatedAt = some act)
      (first : pre = max now b.prechargeAllowedAt)
      (earliest : act =
        max (max b.activateAllowedAt (pre + t.prechargeToActivate)) rankFrom)
      (issued : p.issuedAt =
        max (max b.columnAllowedAt (act + t.activateToColumn)) busFrom)

def DramPlan.outcome (p : DramPlan) (t : DramTiming) : MediaAccess where
  activatedAt := p.activatedAt
  prechargedAt := p.prechargedAt
  issuedAt := p.issuedAt
  readyAt := p.issuedAt + t.columnToData + t.burst
  rowHit := p.rowHit

namespace DramPlan.Planned

variable {t : DramTiming} {b : BankState} {row : Nat} {rankFrom busFrom now : Tick} {p : DramPlan}

theorem hit_or_activated (h : p.Planned t b row rankFrom busFrom now) :
    (b.openRow = some row ∧ p.prechargedAt = none ∧ p.activatedAt = none) ∨
      ∃ act, p.activatedAt = some act := by
  cases h with
  | hit opened precharged activated issued => exact .inl ⟨opened, precharged, activated⟩
  | closed act opened precharged activated => exact .inr ⟨act, activated⟩
  | conflict other pre act opened ne precharged activated => exact .inr ⟨act, activated⟩

theorem le_prechargedAt (h : p.Planned t b row rankFrom busFrom now) {pre : Tick}
    (precharged : p.prechargedAt = some pre) :
    b.openRow.isSome ∧ now ≤ pre ∧ b.prechargeAllowedAt ≤ pre ∧
      ∃ act, p.activatedAt = some act ∧ pre + t.prechargeToActivate ≤ act := by
  cases h with
  | hit _ none | closed _ _ none => cases none.symm.trans precharged
  | conflict other first act opened _ some activated =>
    cases some.symm.trans precharged
    exact ⟨by simp [opened], by grind, by grind, act, activated, by grind⟩

theorem le_activatedAt (h : p.Planned t b row rankFrom busFrom now) {act : Tick}
    (activated : p.activatedAt = some act) :
    now ≤ act ∧ b.activateAllowedAt ≤ act ∧ act + t.activateToColumn ≤ p.issuedAt := by
  cases h with
  | hit _ _ none => cases none.symm.trans activated
  | closed first _ _ some | conflict _ _ first _ _ _ some =>
    cases some.symm.trans activated
    exact ⟨by grind, by grind, by grind⟩

theorem le_issuedAt (h : p.Planned t b row rankFrom busFrom now) :
    now ≤ p.issuedAt ∧ b.columnAllowedAt ≤ p.issuedAt := by
  cases h with
  | hit | closed | conflict => exact ⟨by grind, by grind⟩

theorem rankFrom_le (h : p.Planned t b row rankFrom busFrom now) {act : Tick}
    (activated : p.activatedAt = some act) : rankFrom ≤ act := by
  cases h with
  | hit _ _ none => cases none.symm.trans activated
  | closed first _ _ some | conflict _ _ first _ _ _ some =>
    cases some.symm.trans activated
    grind

theorem busFrom_le (h : p.Planned t b row rankFrom busFrom now) : busFrom ≤ p.issuedAt := by
  cases h with
  | hit | closed | conflict => grind

theorem le_after_activateAllowedAt (h : p.Planned t b row rankFrom busFrom now)
    (kind : AccessKind) :
    b.activateAllowedAt ≤ (b.after t row kind p).activateAllowedAt := by
  rcases h.hit_or_activated with ⟨-, precharged, activated⟩ | ⟨act, activated⟩
  · exact Nat.le_of_eq (BankState.after_hit precharged activated).2.symm
  · rw [BankState.after_activateAllowedAt activated]
    exact Nat.le_trans (h.le_activatedAt activated).2.1 (Nat.le_add_right ..)

theorem after_openRow (h : p.Planned t b row rankFrom busFrom now) (kind : AccessKind) :
    (b.after t row kind p).openRow = some row := by
  rcases h.hit_or_activated with ⟨opened, precharged, activated⟩ | ⟨act, activated⟩
  · rw [(BankState.after_hit precharged activated).1, opened]
  · exact BankState.after_openRow activated

end DramPlan.Planned

def BankState.Opened (g : Geometry) (bank : Nat) (past : List MediaVisit) (b : BankState)
    (Q : Tick → Prop) : Prop :=
  ∀ row, b.openRow = some row → ∃ act, lastOpening g bank past = some (row, act) ∧ Q act

namespace BankState.Opened

variable {g : Geometry} {t : DramTiming} {bank rankFrom busFrom now : Nat} {past : List MediaVisit}
  {b b' : BankState} {v : MediaVisit} {r : MediaRequest} {p : DramPlan} {Q Q' : Tick → Prop}

theorem rests (h : b.Opened g bank past Q) (rests : b.Rests b') : b'.Opened g bank past Q := by
  intro row opened
  rcases rests.row with same | closed
  · exact h row (same ▸ opened)
  · cases closed.symm.trans opened

theorem other (h : b.Opened g bank past Q) (ne : g.bankNumber v.place ≠ bank) :
    b.Opened g bank (past ++ [v]) Q := by
  intro row opened
  rw [lastOpening_of_ne ne]
  exact h row opened

theorem lastOpening (h : b.Opened g bank past Q)
    (planned : p.Planned t b r.place.row rankFrom busFrom now)
    (same : g.bankNumber r.place = bank) (kept : ∀ act, Q act → Q' act)
    (new : ∀ act, p.activatedAt = some act → Q' act) :
    ∃ act, lastOpening g bank (past ++ [⟨r, p.outcome t⟩]) = some (r.place.row, act) ∧
      Q' act := by
  rcases planned.hit_or_activated with ⟨opened, -, activated⟩ | ⟨act, activated⟩
  · obtain ⟨act, last, holds⟩ := h r.place.row opened
    refine ⟨act, ?_, kept act holds⟩
    rw [lastOpening_kept (v := ⟨r, p.outcome t⟩) activated]
    exact last
  · exact ⟨act, lastOpening_activated (v := ⟨r, p.outcome t⟩) same activated, new act activated⟩

theorem after (h : b.Opened g bank past Q)
    (planned : p.Planned t b r.place.row rankFrom busFrom now)
    (same : g.bankNumber r.place = bank) (kept : ∀ act, Q act → Q' act)
    (new : ∀ act, p.activatedAt = some act → Q' act) :
    (b.after t r.place.row r.kind p).Opened g bank (past ++ [⟨r, p.outcome t⟩]) Q' := by
  intro row opened
  cases (planned.after_openRow r.kind).symm.trans opened
  exact h.lastOpening planned same kept new

end BankState.Opened

theorem DramPlan.firstAtOrAfter_eq_none {p : DramPlan} {due : Tick} :
    p.firstAtOrAfter due = none ↔ (∀ tick, p.prechargedAt = some tick → tick < due) ∧
      (∀ tick, p.activatedAt = some tick → tick < due) ∧ p.issuedAt < due := by
  simp only [firstAtOrAfter, List.find?_eq_none, List.mem_append, Option.mem_toList,
    List.mem_singleton, decide_eq_true_eq, Nat.not_le]
  constructor
  · intro all
    exact ⟨fun tick mem => all tick (.inl (.inl mem)), fun tick mem => all tick (.inl (.inr mem)),
      all _ (.inr rfl)⟩
  · rintro ⟨precharged, activated, issued⟩ tick ((mem | mem) | rfl)
    · exact precharged tick mem
    · exact activated tick mem
    · exact issued

namespace Dram

open MediaChannel (visit)

variable {m m' m'' : Dram} {index rank group row : Nat} {kind : AccessKind} {now : Tick}
  {c : Coordinate} {g : Geometry} {t : DramTiming}

theorem bankAt_updateBank_self (inside : index < m.banks.size) (f : BankState → BankState) :
    (m.updateBank index f).bankAt index = f (m.bankAt index) := by
  simp only [updateBank, bankAt, Array.getD_eq_getD_getElem?, Array.getElem?_modify, if_true,
    Array.getElem?_eq_getElem inside, Option.map_some, Option.getD_some]

theorem bankAt_updateBank_of_ne {other : Nat} (ne : other ≠ index) (f : BankState → BankState) :
    (m.updateBank index f).bankAt other = m.bankAt other := by
  simp only [updateBank, bankAt, Array.getD_eq_getD_getElem?, Array.getElem?_modify,
    if_neg (Ne.symm ne)]

def rankFrom (m : Dram) (rank group : Nat) : Tick := (m.activateBound rank group 0).1

theorem activateBound_eq_max (m : Dram) (rank group : Nat) (earliest : Tick) :
    (m.activateBound rank group earliest).1 = max earliest (m.rankFrom rank group) := by
  simp only [rankFrom, activateBound]
  -- The latest activate and the window each set a bound that `earliest` does not move.
  cases (m.rankAt rank).lastActivate <;> cases m.timing.activationLimit with
  | zero => grind
  | succ others =>
    cases (m.rankAt rank).recentActivates[others]? with
    | none => grind
    | some oldest => grind

def busFrom (m : Dram) (rank group : Nat) (kind : AccessKind) : Tick :=
  match m.lastBurst with
  | none => 0
  | some last =>
    max (last.dataStart + if last.rank = rank ∧ last.group = group then m.timing.columnToColumn
          else m.timing.burst)
        (last.dataEnd + m.timing.turnaround.gap last rank kind) -
      m.timing.columnToData

theorem le_busFrom {last : BusBurst} (latest : m.lastBurst = some last) (rank group : Nat)
    (kind : AccessKind) :
    last.dataStart + (if last.rank = rank ∧ last.group = group then m.timing.columnToColumn
        else m.timing.burst) ≤ m.busFrom rank group kind + m.timing.columnToData ∧
      last.dataEnd + m.timing.turnaround.gap last rank kind ≤
        m.busFrom rank group kind + m.timing.columnToData := by
  simp only [busFrom, latest]
  grind

theorem le_rankFrom {last lastGroup : Nat}
    (latest : (m.rankAt rank).lastActivate = some (last, lastGroup)) (group : Nat) :
    last + (if lastGroup = group then m.timing.activateToActivateGroup
      else m.timing.activateToActivate) ≤ m.rankFrom rank group := by
  simp only [rankFrom, activateBound, latest]
  repeat' split
  all_goals grind

theorem le_rankFrom_window {oldest : Tick} (limited : 0 < m.timing.activationLimit)
    (first : (m.rankAt rank).recentActivates[m.timing.activationLimit - 1]? = some oldest)
    (group : Nat) :
    oldest + m.timing.activationWindow ≤ m.rankFrom rank group := by
  obtain ⟨others, limit⟩ := Nat.exists_eq_add_one_of_ne_zero (Nat.ne_of_gt limited)
  rw [limit, Nat.add_sub_cancel] at first
  simp only [rankFrom, activateBound, limit, first]
  split <;> grind

theorem planned_plan (m : Dram) (index rank group row : Nat) (kind : AccessKind) (now : Tick) :
    (m.plan index rank group row kind now).Planned m.timing (m.bankAt index) row
      (m.rankFrom rank group) (m.busFrom rank group kind) now := by
  -- The column command is counted back from the data, and waits for what the data wait for.
  have issued (columnFrom : Tick) :
      (match m.lastBurst with
        | none => columnFrom + m.timing.columnToData
        | some last =>
          max (max (columnFrom + m.timing.columnToData)
            (last.dataStart + if last.rank = rank ∧ last.group = group then m.timing.columnToColumn
              else m.timing.burst))
            (last.dataEnd + match m.lastBurst with
              | none => 0
              | some last => m.timing.turnaround.gap last rank kind)) - m.timing.columnToData =
        max columnFrom (m.busFrom rank group kind) := by
    rw [busFrom]
    cases m.lastBurst with
    | none => simp
    | some last => grind
  cases opened : (m.bankAt index).openRow with
  | none =>
    have miss : ((none : Option Nat) == some row) = false := rfl
    refine .closed _ opened ?_ ?_ (activateBound_eq_max ..) ?_
    · simp [plan, opened]
    · simp [plan, opened]
    · simp only [plan, opened, miss]
      exact issued _
  | some other =>
    by_cases same : other = row
    · subst same
      have hit : (some other == some other) = true := by simp
      refine .hit opened ?_ ?_ ?_
      · simp [plan, opened]
      · simp [plan, opened]
      · simp only [plan, opened, hit]
        exact issued _
    · have miss : (some other == some row) = false := by simpa using same
      refine .conflict other _ _ opened same ?_ ?_ rfl (activateBound_eq_max ..) ?_
      · simp [plan, opened, same]
      · simp [plan, opened, same]
      · simp only [plan, opened, miss]
        exact issued _

/-- Refreshes of one bank leave all else as it is. -/
structure Settled (index : Nat) (m m' : Dram) : Prop where
  timing : m'.timing = m.timing
  geometry : m'.geometry = m.geometry
  banks : m'.banks.size = m.banks.size
  ranks : m'.ranks = m.ranks
  lastBurst : m'.lastBurst = m.lastBurst
  bank : (m.bankAt index).Rests (m'.bankAt index)
  others : ∀ other, other ≠ index → m'.bankAt other = m.bankAt other

theorem Settled.refl (index : Nat) (m : Dram) : m.Settled index m :=
  ⟨rfl, rfl, rfl, rfl, rfl, .refl _, fun _ _ => rfl⟩

theorem Settled.trans (h : m.Settled index m') (h' : m'.Settled index m'') :
    m.Settled index m'' where
  timing := h'.timing.trans h.timing
  geometry := h'.geometry.trans h.geometry
  banks := h'.banks.trans h.banks
  ranks := h'.ranks.trans h.ranks
  lastBurst := h'.lastBurst.trans h.lastBurst
  bank := h.bank.trans h'.bank
  others other ne := (h'.others other ne).trans (h.others other ne)

theorem rankFrom_congr (timing : m'.timing = m.timing) (ranks : m'.ranks = m.ranks) :
    m'.rankFrom rank group = m.rankFrom rank group := by
  rw [Dram.rankFrom, Dram.rankFrom, activateBound, activateBound, rankAt, rankAt, timing, ranks]

theorem busFrom_congr (timing : m'.timing = m.timing) (lastBurst : m'.lastBurst = m.lastBurst) :
    m'.busFrom rank group kind = m.busFrom rank group kind := by
  simp only [Dram.busFrom, timing, lastBurst]

theorem Settled.rankFrom (h : m.Settled index m') :
    m'.rankFrom rank group = m.rankFrom rank group :=
  rankFrom_congr h.timing h.ranks

theorem Settled.busFrom (h : m.Settled index m') :
    m'.busFrom rank group kind = m.busFrom rank group kind :=
  busFrom_congr h.timing h.lastBurst

theorem settleRefresh_cases (m : Dram) (index : Nat) (now : Tick) :
    ((m.timing.refreshInterval = 0 ∨ now < (m.bankAt index).refreshDue) ∧
        m.settleRefresh index now = (now, m)) ∨
      ∃ missed start counters,
        start = (m.bankAt index).refreshDue + missed * m.timing.refreshInterval ∧
          start ≤ now ∧ now < start + m.timing.refreshInterval ∧
          m.settleRefresh index now = (max now (start + m.timing.refreshCycle),
            { m.updateBank index fun b => b.refreshed m.timing start with counters }) := by
  by_cases early : m.timing.refreshInterval = 0 ∨ now < (m.bankAt index).refreshDue
  · exact .inl ⟨early, by simp only [settleRefresh, if_pos early]⟩
  · have positive : 0 < m.timing.refreshInterval := by grind
    have due : (m.bankAt index).refreshDue ≤ now := by grind
    have low := Nat.div_mul_le_self (now - (m.bankAt index).refreshDue) m.timing.refreshInterval
    have high : now - (m.bankAt index).refreshDue < (now - (m.bankAt index).refreshDue) /
        m.timing.refreshInterval * m.timing.refreshInterval + m.timing.refreshInterval :=
      Nat.lt_div_mul_add positive
    refine .inr ⟨(now - (m.bankAt index).refreshDue) / m.timing.refreshInterval, _,
      (m.settleRefresh index now).2.counters, rfl, ?_, ?_, ?_⟩
    · grind
    · grind
    · simp only [settleRefresh, if_neg early]
      rfl

theorem bankAt_settleRefresh (inside : index < m.banks.size) {later start : Tick}
    {counters : MediaStatistics}
    (eq : m.settleRefresh index now =
      (later, { m.updateBank index fun b => b.refreshed m.timing start with counters })) :
    (m.settleRefresh index now).2.bankAt index = (m.bankAt index).refreshed m.timing start := by
  rw [eq]
  exact bankAt_updateBank_self inside _

theorem settled_settleRefresh (inside : index < m.banks.size) (now : Tick) :
    m.Settled index (m.settleRefresh index now).2 := by
  rcases m.settleRefresh_cases index now with ⟨-, eq⟩ | ⟨missed, start, counters, -, -, -, eq⟩
  · rw [eq]
    exact .refl ..
  · have bank := (m.bankAt index).rests_refreshed m.timing start
    rw [← bankAt_settleRefresh inside eq] at bank
    rw [eq] at bank ⊢
    exact ⟨rfl, rfl, Array.size_modify .., rfl, rfl, bank,
      fun other ne => bankAt_updateBank_of_ne ne _⟩

theorem settlePlan_induction {P : Dram → Prop}
    (step : ∀ m now, P m → P (m.settleRefresh index now).2) (replans : Nat) (h : P m) :
    P (settlePlan index rank group row kind replans m now).2 := by
  fun_induction settlePlan index rank group row kind replans m now with
  | case1 m now settled => exact step m now h
  | case2 m now settled plan fewer reached found refreshes ih => exact ih (step m now h)
  | case3 _ m now settled => exact step m now h

theorem settlePlan_fst (index rank group row : Nat) (kind : AccessKind) (replans : Nat) (m : Dram)
    (now : Tick) :
    ∃ later, now ≤ later ∧ (settlePlan index rank group row kind replans m now).1 =
      (settlePlan index rank group row kind replans m now).2.plan index rank group row kind
        later := by
  fun_induction settlePlan index rank group row kind replans m now with
  | case1 m now => exact ⟨_, m.le_settleRefresh index now, rfl⟩
  | case2 m now settled plan fewer reached found refreshes ih =>
    obtain ⟨later, le, eq⟩ := ih
    refine ⟨later, Nat.le_trans ?_ le, eq⟩
    exact Nat.le_trans (m.le_settleRefresh index now) (le_firstAtOrAfter found)
  | case3 _ m now => exact ⟨_, m.le_settleRefresh index now, rfl⟩

/-- Commands to one bank change that bank as `f` says, and no other. -/
structure Moves (index : Nat) (f : BankState → BankState) (m m' : Dram) : Prop where
  timing : m'.timing = m.timing
  geometry : m'.geometry = m.geometry
  banks : m'.banks.size = m.banks.size
  ranks : m'.ranks.size = m.ranks.size
  bank : index < m.banks.size → m'.bankAt index = f (m.bankAt index)
  others : ∀ other, other ≠ index → m'.bankAt other = m.bankAt other

theorem Moves.trans {f f' : BankState → BankState} (h : m.Moves index f m')
    (h' : m'.Moves index f' m'') : m.Moves index (f' ∘ f) m'' where
  timing := h'.timing.trans h.timing
  geometry := h'.geometry.trans h.geometry
  banks := h'.banks.trans h.banks
  ranks := h'.ranks.trans h.ranks
  bank inside := (h'.bank (h.banks ▸ inside)).trans (congrArg f' (h.bank inside))
  others other ne := (h'.others other ne).trans (h.others other ne)

theorem Moves.keep {f : BankState → BankState} (h : m.Moves index f m')
    (timing : m''.timing = m'.timing) (geometry : m''.geometry = m'.geometry)
    (banks : m''.banks = m'.banks) (ranks : m''.ranks.size = m'.ranks.size) :
    m.Moves index f m'' where
  timing := timing.trans h.timing
  geometry := geometry.trans h.geometry
  banks := (congrArg Array.size banks).trans h.banks
  ranks := ranks.trans h.ranks
  bank inside := by
    rw [bankAt, banks]
    exact h.bank inside
  others other ne := by
    rw [bankAt, banks]
    exact h.others other ne

theorem Moves.refl (index : Nat) (m : Dram) : m.Moves index (fun b => b) m :=
  ⟨rfl, rfl, rfl, rfl, fun _ => rfl, fun _ _ => rfl⟩

theorem moves_updateBank (m : Dram) (index : Nat) (f : BankState → BankState) :
    m.Moves index f (m.updateBank index f) :=
  ⟨rfl, rfl, Array.size_modify .., rfl, fun inside => bankAt_updateBank_self inside f,
    fun _ ne => bankAt_updateBank_of_ne ne f⟩

theorem moves_commitPrecharge (timing : m.timing = t) (index : Nat) (tick : Option Tick) :
    m.Moves index (fun b => b.precharged t tick) (m.commitPrecharge index tick) := by
  subst timing
  cases tick with
  | none => exact .refl index m
  | some pre => exact (m.moves_updateBank index _).keep rfl rfl rfl rfl

theorem moves_commitActivate (timing : m.timing = t) (index rank group row : Nat) (stall : Bool)
    (tick : Option Tick) : m.Moves index (fun b => b.activated t row tick)
      (m.commitActivate index rank group row stall tick) := by
  subst timing
  cases tick with
  | none => exact .refl index m
  | some act => exact (m.moves_updateBank index _).keep rfl rfl rfl (Array.size_modify ..)

theorem moves_commitColumn (timing : m.timing = t) (index : Nat) (kind : AccessKind)
    (issued : Tick) : m.Moves index (fun b => b.moved t kind issued)
      (m.commitColumn index kind issued (issued + t.columnToData + t.burst)) := by
  subst timing
  cases kind <;> exact (m.moves_updateBank index _).keep rfl rfl rfl rfl

def decision (m : Dram) (c : Coordinate) (kind : AccessKind) (earliest : Tick) : DramPlan × Dram :=
  settlePlan (m.bankIndex c) (m.rankOf c) (m.groupOf c) c.row kind maxReplans
    (m.wakeRank (m.rankOf c) earliest).2 (m.wakeRank (m.rankOf c) earliest).1

theorem settled_wakeRank (m : Dram) (index rank : Nat) (now : Tick) :
    m.Settled index (m.wakeRank rank now).2 := by
  rw [wakeRank]
  split
  · exact ⟨rfl, rfl, rfl, rfl, rfl, .refl _, fun _ _ => rfl⟩
  · exact .refl ..

theorem bankAt_wakeRank (m : Dram) (rank : Nat) (now : Tick) (bank : Nat) :
    (m.wakeRank rank now).2.bankAt bank = m.bankAt bank := by
  rw [wakeRank]
  split <;> rfl

theorem settled_decision (inside : m.bankIndex c < m.banks.size) (kind : AccessKind)
    (earliest : Tick) : m.Settled (m.bankIndex c) (m.decision c kind earliest).2 := by
  refine settlePlan_induction (fun m' now settled => ?_) _ (m.settled_wakeRank ..)
  exact settled.trans (settled_settleRefresh (settled.banks ▸ inside) now)

theorem decision_frame (m : Dram) (c : Coordinate) (kind : AccessKind) (earliest : Tick) :
    let m' := (m.decision c kind earliest).2
    m'.timing = m.timing ∧ m'.geometry = m.geometry ∧ m'.ranks = m.ranks ∧
      m'.lastBurst = m.lastBurst := by
  refine settlePlan_induction (P := fun m' => m'.timing = m.timing ∧ m'.geometry = m.geometry ∧
    m'.ranks = m.ranks ∧ m'.lastBurst = m.lastBurst) (fun m' now frame => ?_) _ ?_
  · rw [settleRefresh]
    split <;> exact frame
  · rw [wakeRank]
    split <;> exact ⟨rfl, rfl, rfl, rfl⟩

theorem planned_decision (m : Dram) (c : Coordinate) (kind : AccessKind) (earliest : Tick) :
    ∃ now, earliest ≤ now ∧
      (m.decision c kind earliest).1.Planned m.timing
        ((m.decision c kind earliest).2.bankAt (m.bankIndex c)) c.row
        (m.rankFrom (m.rankOf c) (m.groupOf c)) (m.busFrom (m.rankOf c) (m.groupOf c) kind)
        now := by
  obtain ⟨timing, -, ranks, lastBurst⟩ := m.decision_frame c kind earliest
  obtain ⟨now, le, eq⟩ := settlePlan_fst (m.bankIndex c) (m.rankOf c) (m.groupOf c) c.row kind
    maxReplans (m.wakeRank (m.rankOf c) earliest).2 (m.wakeRank (m.rankOf c) earliest).1
  refine ⟨now, Nat.le_trans (m.le_wakeRank ..) le, ?_⟩
  have planned := planned_plan (m.decision c kind earliest).2 (m.bankIndex c) (m.rankOf c)
    (m.groupOf c) c.row kind now
  rw [timing, rankFrom_congr timing ranks, busFrom_congr timing lastBurst] at planned
  exact eq ▸ planned

theorem access_fst (m : Dram) (c : Coordinate) (kind : AccessKind) (earliest : Tick) :
    (m.access c kind earliest).1 = (m.decision c kind earliest).1.outcome m.timing := by
  rw [access, decision]
  rfl

theorem visit_outcome (timing : m.timing = t) (r : MediaRequest) :
    (visit m r).1 = ⟨r, (m.decision r.place r.kind r.earliest).1.outcome t⟩ := by
  rw [← timing]
  exact congrArg (MediaVisit.mk r) (m.access_fst ..)

theorem moves_access (m : Dram) (c : Coordinate) (kind : AccessKind) (earliest : Tick) :
    (m.decision c kind earliest).2.Moves (m.bankIndex c)
      (fun b => b.after m.timing c.row kind (m.decision c kind earliest).1)
      (m.access c kind earliest).2 := by
  have timing : (m.decision c kind earliest).2.timing = m.timing :=
    (timing_settlePlan ..).trans (m.timing_wakeRank ..)
  simp only [access, decision] at timing ⊢
  generalize settlePlan _ _ _ _ _ _ _ _ = planned at timing ⊢
  have precharge := moves_commitPrecharge timing (m.bankIndex c) planned.1.prechargedAt
  have activate := moves_commitActivate (precharge.timing.trans timing) (m.bankIndex c) (m.rankOf c)
    (m.groupOf c) c.row planned.1.windowStall planned.1.activatedAt
  have column := moves_commitColumn (activate.timing.trans (precharge.timing.trans timing))
    (m.bankIndex c) kind planned.1.issuedAt
  exact ((precharge.trans activate).trans column).keep rfl rfl rfl (Array.size_modify ..)

/-- A channel of at least one bank, with the timing, the banks and the ranks that it was created
with. -/
structure Built (g : Geometry) (t : DramTiming) (m : Dram) : Prop where
  ranks_pos : 0 < g.ranksPerChannel
  banks_pos : 0 < g.banksPerRank
  timing : m.timing = t
  geometry : m.geometry = g
  banks : m.banks.size = g.ranksPerChannel * g.banksPerRank
  ranks : m.ranks.size = g.ranksPerChannel

theorem built_create (ranks_pos : 0 < g.ranksPerChannel) (banks_pos : 0 < g.banksPerRank)
    (t : DramTiming) : (create g t).Built g t :=
  ⟨ranks_pos, banks_pos, rfl, rfl, Array.size_replicate, Array.size_replicate⟩

theorem bankAt_create {bank : Nat} (inside : bank < g.ranksPerChannel * g.banksPerRank) :
    (create g t).bankAt bank = { refreshDue := t.refreshInterval } := by
  simp [create, bankAt, inside]

namespace Built

variable {r : MediaRequest}

theorem bankIndex (h : m.Built g t) (c : Coordinate) : m.bankIndex c = g.bankNumber c := by
  rw [Dram.bankIndex, rankOf, h.geometry, h.ranks, Geometry.bankNumber]

theorem inside (h : m.Built g t) (c : Coordinate) : m.bankIndex c < m.banks.size := by
  rw [h.bankIndex, h.banks]
  exact Geometry.bankNumber_lt h.ranks_pos h.banks_pos c

theorem visit_fst (h : m.Built g t) (r : MediaRequest) :
    (visit m r).1 = ⟨r, (m.decision r.place r.kind r.earliest).1.outcome t⟩ :=
  visit_outcome h.timing r

theorem rests (h : m.Built g t) (r : MediaRequest) : (m.bankAt (g.bankNumber r.place)).Rests
    ((m.decision r.place r.kind r.earliest).2.bankAt (g.bankNumber r.place)) := by
  have settled := settled_decision (h.inside r.place) r.kind r.earliest
  rw [h.bankIndex] at settled
  exact settled.bank

theorem planned (h : m.Built g t) (r : MediaRequest) :
    ∃ rankFrom busFrom now, r.earliest ≤ now ∧
      (m.decision r.place r.kind r.earliest).1.Planned t
        ((m.decision r.place r.kind r.earliest).2.bankAt (g.bankNumber r.place)) r.place.row
        rankFrom busFrom now := by
  obtain ⟨now, le, planned⟩ := m.planned_decision r.place r.kind r.earliest
  rw [h.bankIndex, h.timing] at planned
  exact ⟨_, _, now, le, planned⟩

theorem bankAt_visit_self (h : m.Built g t) (r : MediaRequest) :
    (visit m r).2.bankAt (g.bankNumber r.place) =
      ((m.decision r.place r.kind r.earliest).2.bankAt (g.bankNumber r.place)).after t r.place.row
        r.kind (m.decision r.place r.kind r.earliest).1 := by
  have settled := settled_decision (h.inside r.place) r.kind r.earliest
  have moved := (m.moves_access r.place r.kind r.earliest).bank
    (settled.banks ▸ h.inside r.place)
  rw [h.bankIndex, h.timing] at moved
  exact moved

theorem bankAt_visit_of_ne (h : m.Built g t) {bank : Nat} (ne : g.bankNumber r.place ≠ bank) :
    (visit m r).2.bankAt bank = m.bankAt bank := by
  have other : bank ≠ m.bankIndex r.place := by
    rw [h.bankIndex]
    exact Ne.symm ne
  have settled := settled_decision (h.inside r.place) r.kind r.earliest
  exact ((m.moves_access r.place r.kind r.earliest).others bank other).trans
    (settled.others bank other)

theorem visit (h : m.Built g t) (r : MediaRequest) : (visit m r).2.Built g t := by
  have settled := settled_decision (h.inside r.place) r.kind r.earliest
  have moved := m.moves_access r.place r.kind r.earliest
  exact ⟨h.ranks_pos, h.banks_pos, moved.timing.trans (settled.timing.trans h.timing),
    moved.geometry.trans (settled.geometry.trans h.geometry),
    moved.banks.trans (settled.banks.trans h.banks),
    moved.ranks.trans ((congrArg Array.size settled.ranks).trans h.ranks)⟩

end Built

end Dram

end Expander
