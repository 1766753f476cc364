import Expander.Proofs.Media.Planning

/-!
How often an access is planned again.

A plan that reaches the next refresh of its bank is made again behind that refresh. The bound on the
number of plans in the definition is never met when a row can be opened and read between two
refreshes: by and by the activate waits for no earlier command of its bank and its rank, the column
command for no data on the bus, and from then on the next plan but one fits (`replans_lt_decision`).
-/

set_option autoImplicit false

namespace Expander

/-- Refreshes that leave room between them: for the activate and the column command of a burst that
waits for nothing else. -/
structure DramTiming.Roomy (t : DramTiming) : Prop where
  refreshing : 0 < t.refreshInterval
  opens : 2 * t.activateToColumn ≤ t.refreshInterval
  room : t.refreshCycle + t.activateToColumn < t.refreshInterval

namespace Dram

variable {m : Dram} {index rank group row n : Nat} {kind : AccessKind} {now : Tick}
  {planned : DramPlan × Dram}

def attempt (m : Dram) (index rank group row : Nat) (kind : AccessKind) (now : Tick) :
    DramPlan × Dram :=
  let settled := m.settleRefresh index now
  (settled.2.plan index rank group row kind settled.1, settled.2)

def overrun (index : Nat) (planned : DramPlan × Dram) : Option Tick :=
  planned.1.firstAtOrAfter (planned.2.bankAt index).refreshDue

theorem settlePlan_of_fits (replans : Nat)
    (fits : m.timing.refreshInterval = 0 ∨
      overrun index (m.attempt index rank group row kind now) = none) :
    settlePlan index rank group row kind replans m now =
      m.attempt index rank group row kind now := by
  fun_cases settlePlan index rank group row kind replans m now with
  | case1 => rfl
  | case2 _ _ settled plan fewer reached found refreshes =>
    rcases fits with off | fits
    · exact absurd off refreshes
    · cases fits.symm.trans found
  | case3 => rfl

/-- Attempts until one fits before the next refresh, `n` after the first one. -/
inductive Replanned (index rank group row : Nat) (kind : AccessKind) :
    Nat → Dram → Tick → DramPlan × Dram → Prop
  | fits {m : Dram} {now : Tick}
      (fits : overrun index (m.attempt index rank group row kind now) = none) :
      Replanned index rank group row kind 0 m now (m.attempt index rank group row kind now)
  | again {m : Dram} {now reached : Tick} {n : Nat} {planned : DramPlan × Dram}
      (late : overrun index (m.attempt index rank group row kind now) = some reached)
      (rest : Replanned index rank group row kind n (m.attempt index rank group row kind now).2
        reached planned) :
      Replanned index rank group row kind (n + 1) m now planned

theorem Replanned.overrun_eq_none (h : Replanned index rank group row kind n m now planned) :
    overrun index planned = none := by
  induction h with
  | fits fits => exact fits
  | again late rest ih => exact ih

theorem Replanned.settlePlan_eq (h : Replanned index rank group row kind n m now planned)
    (refreshing : 0 < m.timing.refreshInterval) (replans : Nat) (le : n ≤ replans) :
    settlePlan index rank group row kind replans m now = planned := by
  induction h generalizing replans with
  | fits fits => exact settlePlan_of_fits replans (.inr fits)
  | @again m now reached n planned late rest ih =>
    obtain ⟨fewer, rfl⟩ := Nat.exists_eq_succ_of_ne_zero (Nat.ne_zero_of_lt le)
    rw [settlePlan]
    case heq => exact late
    rw [if_neg (Nat.ne_of_gt refreshing)]
    refine ih ?_ fewer (Nat.le_of_succ_le_succ le)
    rwa [attempt, timing_settleRefresh]

def activateFrom (m : Dram) (index rank group : Nat) : Tick :=
  max (m.bankAt index).activateAllowedAt (m.rankFrom rank group)

def columnFrom (m : Dram) (index rank group : Nat) (kind : AccessKind) : Tick :=
  max (m.bankAt index).columnAllowedAt (m.busFrom rank group kind)

/-- An attempt after a refresh of the bank has started: the row is closed, the activate can go from
the tick `go` on, and the column command follows the activate. -/
structure Reopens (index rank group : Nat) (kind : AccessKind) (m : Dram) (now : Tick)
    (planned : DramPlan × Dram) (go : Tick) : Prop where
  timing : planned.2.timing = m.timing
  banks : planned.2.banks.size = m.banks.size
  le_go : now ≤ go
  go_lt : go < (planned.2.bankAt index).refreshDue
  /-- Only one refresh has started if the bank was not left alone for long. -/
  next : now < (m.bankAt index).refreshDue + m.timing.refreshInterval →
    (planned.2.bankAt index).refreshDue = (m.bankAt index).refreshDue + m.timing.refreshInterval ∧
      go ≤ max now ((m.bankAt index).refreshDue + m.timing.refreshCycle)
  precharged : planned.1.prechargedAt = none
  activated : planned.1.activatedAt = some (max go (m.activateFrom index rank group))
  issued : planned.1.issuedAt = max (max go (m.activateFrom index rank group) +
    m.timing.activateToColumn) (m.columnFrom index rank group kind)
  activateFrom : planned.2.activateFrom index rank group ≤ max go (m.activateFrom index rank group)
  columnFrom : planned.2.columnFrom index rank group kind = m.columnFrom index rank group kind

theorem reopens_attempt (inside : index < m.banks.size) (roomy : m.timing.Roomy)
    (due : (m.bankAt index).refreshDue ≤ now) (rank group row : Nat) (kind : AccessKind) :
    ∃ go, Reopens index rank group kind m now (m.attempt index rank group row kind now) go := by
  have settled := settled_settleRefresh inside now
  have planned := planned_plan (m.settleRefresh index now).2 index rank group row kind
    (m.settleRefresh index now).1
  rw [settled.timing, settled.rankFrom, settled.busFrom] at planned
  have refreshing := roomy.refreshing
  have room := roomy.room
  rcases m.settleRefresh_cases index now with ⟨early, -⟩ |
    ⟨missed, start, counters, first, low, high, eq⟩
  · grind
  have bank := bankAt_settleRefresh inside eq
  have go : (m.settleRefresh index now).1 = max now (start + m.timing.refreshCycle) := by rw [eq]
  rw [bank] at planned
  refine ⟨(m.settleRefresh index now).1, ?_⟩
  cases planned with
  | hit opened => cases opened
  | conflict other pre act opened => cases opened
  | closed act opened precharged activated earliest issued =>
    have bound : act = max (m.settleRefresh index now).1 (m.activateFrom index rank group) := by
      rw [earliest, BankState.refreshed, Dram.activateFrom]
      grind
    rw [bound] at activated issued
    refine ⟨settled.timing, settled.banks, m.le_settleRefresh index now, ?_, fun soon => ?_,
      precharged, activated, ?_, ?_, ?_⟩
    · rw [attempt, bank, BankState.refreshed]
      grind
    · have one : start = (m.bankAt index).refreshDue := by
        cases missed with
        | zero => simpa using first
        | succ more =>
          rw [Nat.succ_mul] at first
          grind
      rw [attempt, bank, go, one]
      exact ⟨rfl, Nat.le_refl _⟩
    · rw [attempt, issued, BankState.refreshed, Dram.columnFrom]
      grind
    · rw [attempt, Dram.activateFrom, Dram.activateFrom, settled.rankFrom, bank,
        BankState.refreshed]
      grind
    · rw [attempt, Dram.columnFrom, Dram.columnFrom, settled.busFrom, settled.bank.column]

/-- The command that comes too late has no activate left to wait for. When the attempt had none to
wait for either, it is the column command. -/
theorem Reopens.overrun_eq_some {go reached : Tick}
    (h : Reopens index rank group kind m now planned go)
    (late : overrun index planned = some reached) :
    (planned.2.bankAt index).refreshDue ≤ reached ∧
      planned.2.activateFrom index rank group ≤ reached ∧
      (m.activateFrom index rank group ≤ now →
        planned.2.columnFrom index rank group kind ≤ reached ∧
          (m.columnFrom index rank group kind ≤ now →
            reached = go + m.timing.activateToColumn)) := by
  obtain ⟨-, -, le_go, go_lt, -, precharged, activated, issued, activateFrom, columnFrom⟩ := h
  simp only [overrun, DramPlan.firstAtOrAfter, precharged, activated, Option.toList,
    List.nil_append, List.singleton_append, List.find?_cons, List.find?_nil] at late
  split at late
  · grind
  · split at late <;> grind

def EndsWithin (index rank group row : Nat) (kind : AccessKind) (n : Nat) (m : Dram) (now : Tick) :
    Prop :=
  ∃ replans planned, replans ≤ n ∧ Replanned index rank group row kind replans m now planned

theorem endsWithin_succ
    (h : ∀ reached, overrun index (m.attempt index rank group row kind now) = some reached →
      EndsWithin index rank group row kind n (m.attempt index rank group row kind now).2 reached) :
    EndsWithin index rank group row kind (n + 1) m now := by
  cases found : overrun index (m.attempt index rank group row kind now) with
  | none => exact ⟨0, _, Nat.zero_le _, .fits found⟩
  | some reached =>
    obtain ⟨replans, planned, le, rest⟩ := h reached found
    exact ⟨replans + 1, planned, Nat.succ_le_succ le, .again found rest⟩

section Due

variable (inside : index < m.banks.size) (roomy : m.timing.Roomy)
  (due : (m.bankAt index).refreshDue ≤ now)

include inside roomy due

theorem endsWithin_zero (activate : m.activateFrom index rank group ≤ now)
    (column : m.columnFrom index rank group kind ≤ now)
    (soon : now < (m.bankAt index).refreshDue + m.timing.activateToColumn) :
    EndsWithin index rank group row kind 0 m now := by
  obtain ⟨go, reopens⟩ := reopens_attempt inside roomy due rank group row kind
  cases found : overrun index (m.attempt index rank group row kind now) with
  | none => exact ⟨0, _, Nat.le_refl _, .fits found⟩
  | some reached =>
    obtain ⟨late, -, waits⟩ := reopens.overrun_eq_some found
    have read := (waits activate).2 column
    have opens := roomy.opens
    have room := roomy.room
    obtain ⟨next, go_le⟩ := reopens.next (by grind)
    grind

theorem endsWithin_one (activate : m.activateFrom index rank group ≤ now)
    (column : m.columnFrom index rank group kind ≤ now) :
    EndsWithin index rank group row kind 1 m now := by
  obtain ⟨go, reopens⟩ := reopens_attempt inside roomy due rank group row kind
  refine endsWithin_succ fun reached found => ?_
  obtain ⟨late, activateFrom, waits⟩ := reopens.overrun_eq_some found
  obtain ⟨columnFrom, read⟩ := waits activate
  have timing := reopens.timing
  refine endsWithin_zero (reopens.banks ▸ inside) (timing ▸ roomy) late activateFrom columnFrom ?_
  rw [timing, read column]
  exact Nat.add_lt_add_right reopens.go_lt _

theorem endsWithin_two (activate : m.activateFrom index rank group ≤ now) :
    EndsWithin index rank group row kind 2 m now := by
  obtain ⟨go, reopens⟩ := reopens_attempt inside roomy due rank group row kind
  refine endsWithin_succ fun reached found => ?_
  obtain ⟨late, activateFrom, waits⟩ := reopens.overrun_eq_some found
  exact endsWithin_one (reopens.banks ▸ inside) (reopens.timing ▸ roomy) late activateFrom
    (waits activate).1

theorem endsWithin_three : EndsWithin index rank group row kind 3 m now := by
  obtain ⟨go, reopens⟩ := reopens_attempt inside roomy due rank group row kind
  refine endsWithin_succ fun reached found => ?_
  obtain ⟨late, activateFrom, -⟩ := reopens.overrun_eq_some found
  exact endsWithin_two (reopens.banks ▸ inside) (reopens.timing ▸ roomy) late activateFrom

end Due

theorem endsWithin_four (inside : index < m.banks.size) (roomy : m.timing.Roomy) (now : Tick) :
    EndsWithin index rank group row kind 4 m now := by
  have settled := settled_settleRefresh inside now
  refine endsWithin_succ fun reached found => ?_
  have late := List.find?_some found
  exact endsWithin_three (settled.banks ▸ inside) (settled.timing ▸ roomy) (by simpa using late)

theorem replanned_decision {c : Coordinate} (inside : m.bankIndex c < m.banks.size)
    (roomy : m.timing.Roomy) (kind : AccessKind) (earliest : Tick) :
    ∃ replans, replans < maxReplans ∧ Replanned (m.bankIndex c) (m.rankOf c) (m.groupOf c) c.row
      kind replans (m.wakeRank (m.rankOf c) earliest).2 (m.wakeRank (m.rankOf c) earliest).1
      (m.decision c kind earliest) := by
  have awake := m.settled_wakeRank (m.bankIndex c) (m.rankOf c) earliest
  have roomy : (m.wakeRank (m.rankOf c) earliest).2.timing.Roomy := awake.timing ▸ roomy
  have ends : EndsWithin (m.bankIndex c) (m.rankOf c) (m.groupOf c) c.row kind 4
      (m.wakeRank (m.rankOf c) earliest).2 (m.wakeRank (m.rankOf c) earliest).1 :=
    endsWithin_four (awake.banks ▸ inside) roomy _
  obtain ⟨replans, planned, le, replanned⟩ := ends
  have few : replans < maxReplans := Nat.lt_of_le_of_lt le (by decide)
  have reached : m.decision c kind earliest = planned :=
    replanned.settlePlan_eq roomy.refreshing maxReplans (Nat.le_of_lt few)
  exact ⟨replans, few, reached ▸ replanned⟩

end Dram

end Expander
