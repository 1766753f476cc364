import Expander.Proofs.Media.Planning

/-!
What the counters of a channel say of the bursts that it has served.

Every access is counted once in its direction, and a second time as a row hit or as an activation
(`counts_access`); only a write to non-volatile memory does neither. Refreshes, precharges and
power-down have counters of their own. So the counters of a channel add up in every state
(`Media.Tallied`).
-/

set_option autoImplicit false

namespace Expander

namespace MediaStatistics

def service (s : MediaStatistics) : Nat × Nat × Nat × Nat :=
  (s.reads, s.writes, s.rowHits, s.activations)

/-- One more burst has been counted, and nothing else that speaks of bursts. -/
structure Counts (s : MediaStatistics) (kind : AccessKind) (access : MediaAccess)
    (s' : MediaStatistics) : Prop where
  reads : s'.reads = s.reads + if kind = .read then 1 else 0
  writes : s'.writes = s.writes + if kind = .write then 1 else 0
  rowHits : s'.rowHits = s.rowHits + if access.rowHit then 1 else 0
  activations : s'.activations = s.activations + if access.activatedAt.isSome then 1 else 0

theorem Counts.congr {s s' after : MediaStatistics} {kind : AccessKind} {access : MediaAccess}
    (h : s.Counts kind access after) (same : s.service = s'.service) :
    s'.Counts kind access after := by
  simp only [service, Prod.mk.injEq] at same
  obtain ⟨reads, writes, rowHits, activations⟩ := same
  exact ⟨reads ▸ h.reads, writes ▸ h.writes, rowHits ▸ h.rowHits, activations ▸ h.activations⟩

end MediaStatistics

namespace Dram

variable {index rank group row : Nat} {kind : AccessKind}

theorem service_wakeRank (m : Dram) (rank : Nat) (now : Tick) :
    (m.wakeRank rank now).2.counters.service = m.counters.service := by
  rw [wakeRank]
  split <;> rfl

theorem service_settleRefresh (m : Dram) (index : Nat) (now : Tick) :
    (m.settleRefresh index now).2.counters.service = m.counters.service := by
  rw [settleRefresh]
  split <;> rfl

theorem service_settlePlan (replans : Nat) (m : Dram) (now : Tick) :
    (settlePlan index rank group row kind replans m now).2.counters.service =
      m.counters.service :=
  settlePlan_induction (P := fun m' => m'.counters.service = m.counters.service)
    (fun m' now same => (m'.service_settleRefresh index now).trans same) replans rfl

theorem service_commitPrecharge (m : Dram) (index : Nat) (tick : Option Tick) :
    (m.commitPrecharge index tick).counters.service = m.counters.service := by
  cases tick <;> rfl

theorem isSome_activatedAt (m : Dram) (c : Coordinate) (kind : AccessKind) (now : Tick) :
    (m.access c kind now).1.activatedAt.isSome = !(m.access c kind now).1.rowHit := by
  obtain ⟨later, -, planned⟩ := settlePlan_fst (m.bankIndex c) (m.rankOf c) (m.groupOf c) c.row kind
    maxReplans (m.wakeRank (m.rankOf c) now).2 (m.wakeRank (m.rankOf c) now).1
  simp only [access]
  rw [planned]
  simp only [plan]
  split
  next hit => rw [hit, Option.isSome_none, Bool.not_true]
  next miss => rw [Option.isSome_some, Bool.eq_false_iff.2 miss, Bool.not_false]

theorem counts_access (m : Dram) (c : Coordinate) (kind : AccessKind) (now : Tick) :
    m.counters.Counts kind (m.access c kind now).1 (m.access c kind now).2.counters := by
  have planned : (settlePlan (m.bankIndex c) (m.rankOf c) (m.groupOf c) c.row kind maxReplans
      (m.wakeRank (m.rankOf c) now).2 (m.wakeRank (m.rankOf c) now).1).2.counters.service =
        m.counters.service :=
    (service_settlePlan ..).trans (m.service_wakeRank (m.rankOf c) now)
  simp only [access]
  generalize settlePlan (m.bankIndex c) (m.rankOf c) (m.groupOf c) c.row kind maxReplans
    (m.wakeRank (m.rankOf c) now).2 (m.wakeRank (m.rankOf c) now).1 = settled at planned ⊢
  have closed := (settled.2.service_commitPrecharge (m.bankIndex c)
    settled.1.prechargedAt).trans planned
  generalize settled.2.commitPrecharge (m.bankIndex c) settled.1.prechargedAt = ready at closed ⊢
  refine MediaStatistics.Counts.congr ?_ closed
  -- What is left are the activate, if there is one, and the column command.
  cases settled.1.activatedAt <;> cases kind <;> constructor <;> rfl

end Dram

namespace Nvm

theorem counts_access (m : Nvm) (c : Coordinate) (kind : AccessKind) (now : Tick) :
    m.counters.Counts kind (m.access c kind now).1 (m.access c kind now).2.counters := by
  cases kind with
  | read =>
    rw [access, accessRead]
    simp only
    cases (m.bankAt (m.bankIndex c)).openRow == some c.row <;> constructor <;> rfl
  | write => constructor <;> rfl

theorem isSome_activatedAt_read (m : Nvm) (c : Coordinate) (now : Tick) :
    (m.access c .read now).1.activatedAt.isSome = !(m.access c .read now).1.rowHit := by
  rw [access, accessRead]
  simp only
  cases (m.bankAt (m.bankIndex c)).openRow == some c.row <;> rfl

end Nvm

namespace Media

/-- The counters add up: every burst has found its row open or has opened it, but for the writes to
non-volatile memory. -/
def Tallied : Media → Prop
  | dram m => m.counters.rowHits + m.counters.activations = m.counters.reads + m.counters.writes
  | nvm m => m.counters.rowHits + m.counters.activations = m.counters.reads

theorem counts_access (m : Media) (c : Coordinate) (kind : AccessKind) (now : Tick) :
    (MediaChannel.statistics m).Counts kind (MediaChannel.access m c kind now).1
      (MediaChannel.statistics (MediaChannel.access m c kind now).2) := by
  cases m with
  | dram m => exact m.counts_access c kind now
  | nvm m => exact m.counts_access c kind now

theorem tallied_create (config : MediaConfig) : (create config).Tallied := by
  rw [create]
  split <;> rfl

theorem tallied_access {m : Media} (h : m.Tallied) (c : Coordinate) (kind : AccessKind)
    (now : Tick) : (MediaChannel.access m c kind now).2.Tallied := by
  have one (hit : Bool) : (if hit = true then 1 else 0) + (if (!hit) = true then 1 else 0) = 1 := by
    cases hit <;> rfl
  cases m with
  | dram m =>
    obtain ⟨reads, writes, rowHits, activations⟩ := m.counts_access c kind now
    have before : m.counters.rowHits + m.counters.activations =
      m.counters.reads + m.counters.writes := h
    have hitOrOpened := one (m.access c kind now).1.rowHit
    rw [m.isSome_activatedAt c kind now] at activations
    have moved : (if kind = .read then 1 else 0) + (if kind = .write then 1 else 0) = 1 := by
      cases kind <;> rfl
    change (m.access c kind now).2.counters.rowHits + (m.access c kind now).2.counters.activations =
      (m.access c kind now).2.counters.reads + (m.access c kind now).2.counters.writes
    omega
  | nvm m =>
    obtain ⟨reads, -, rowHits, activations⟩ := m.counts_access c kind now
    have before : m.counters.rowHits + m.counters.activations = m.counters.reads := h
    change (m.access c kind now).2.counters.rowHits + (m.access c kind now).2.counters.activations =
      (m.access c kind now).2.counters.reads
    cases kind with
    | read =>
      have hitOrRead := one (m.access c .read now).1.rowHit
      rw [m.isSome_activatedAt_read c now] at activations
      rw [if_pos rfl] at reads
      omega
    | write =>
      rw [rowHits, activations, reads]
      exact before

end Media

end Expander
