import Expander.Media.Profile
import Expander.Proofs.Media.Planning

/-!
The command protocol of a DRAM bank.

A bank stores one tick for each kind of command, the earliest at which it takes one. These ticks
hold back whatever would come too early after any earlier burst of the bank (`Heeds`), so every
burst keeps its distance from all of them (`Spaced`), and moves its data only after the activate
that opened its row (`keepsProtocol_serve`).
-/

set_option autoImplicit false

namespace Expander.Dram

open MediaChannel (serve visit)

variable {g : Geometry} {t : DramTiming} {past : List MediaVisit} {u v : MediaVisit}
  {r : MediaRequest} {b b' : BankState} {bank row rankFrom busFrom now : Nat} {p : DramPlan}

/-- The distances between the commands of two bursts of one bank. -/
structure Spaced (t : DramTiming) (earlier later : MediaVisit) : Prop where
  activates : ∀ act next, earlier.activatedAt = some act → later.activatedAt = some next →
    act + (t.activateToPrecharge + t.prechargeToActivate) ≤ next
  activateAfterPrecharge : ∀ pre act, earlier.prechargedAt = some pre →
    later.activatedAt = some act → pre + t.prechargeToActivate ≤ act
  columns : earlier.issuedAt + t.columnToColumn ≤ later.issuedAt
  prechargeAfterActivate : ∀ act pre, earlier.activatedAt = some act →
    later.prechargedAt = some pre → act + t.activateToPrecharge ≤ pre
  prechargeAfterRead : ∀ pre, earlier.kind = .read → later.prechargedAt = some pre →
    earlier.issuedAt + t.readToPrecharge ≤ pre
  prechargeAfterWrite : ∀ pre, earlier.kind = .write → later.prechargedAt = some pre →
    earlier.readyAt + t.writeRecovery ≤ pre

/-- A burst keeps the command protocol of its bank, in the light of the bursts before it. -/
structure KeepsProtocol (g : Geometry) (t : DramTiming) (past : List MediaVisit) (v : MediaVisit) :
    Prop where
  spaced : ∀ u ∈ past, g.bankNumber u.place = g.bankNumber v.place → Spaced t u v
  /-- The other row is closed before the own one is opened. -/
  reopened : ∀ pre act, v.prechargedAt = some pre → v.activatedAt = some act →
    pre + t.prechargeToActivate ≤ act
  /-- The latest activate of the bank has opened the row of the burst. -/
  opened : ∃ act, lastOpening g (g.bankNumber v.place) (past ++ [v]) = some (v.place.row, act) ∧
    act + t.activateToColumn ≤ v.issuedAt
  punctual : ∀ tick ∈ v.commands, v.earliest ≤ tick
  ready : v.readyAt = v.issuedAt + t.columnToData + t.burst

/-- A bank holds back the commands that would come too early after a burst. -/
structure Heeds (t : DramTiming) (b : BankState) (u : MediaVisit) : Prop where
  activate : ∀ act, u.activatedAt = some act → act + t.rowCycle ≤ b.activateAllowedAt ∧
    act + t.activateToPrecharge ≤ b.prechargeAllowedAt
  precharge : ∀ pre, u.prechargedAt = some pre → pre + t.prechargeToActivate ≤ b.activateAllowedAt
  column : u.issuedAt + t.columnToColumn ≤ b.columnAllowedAt
  read : u.kind = .read → u.issuedAt + t.readToPrecharge ≤ b.prechargeAllowedAt
  write : u.kind = .write → u.readyAt + t.writeRecovery ≤ b.prechargeAllowedAt

theorem Heeds.rests (h : Heeds t b u) (rests : b.Rests b') : Heeds t b' u where
  activate act activated := by
    obtain ⟨next, pre⟩ := h.activate act activated
    exact ⟨Nat.le_trans next rests.activate, rests.precharge ▸ pre⟩
  precharge pre precharged := Nat.le_trans (h.precharge pre precharged) rests.activate
  column := rests.column ▸ h.column
  read kind := rests.precharge ▸ h.read kind
  write kind := rests.precharge ▸ h.write kind

theorem Heeds.spaced (h : Heeds t b u) (planned : p.Planned t b r.place.row rankFrom busFrom now) :
    Spaced t u ⟨r, p.outcome t⟩ where
  activates act _ earlier later :=
    Nat.le_trans (h.activate act earlier).1 (planned.le_activatedAt later).2.1
  activateAfterPrecharge pre _ earlier later :=
    Nat.le_trans (h.precharge pre earlier) (planned.le_activatedAt later).2.1
  columns := Nat.le_trans h.column planned.le_issuedAt.2
  prechargeAfterActivate act _ earlier later :=
    Nat.le_trans (h.activate act earlier).2 (planned.le_prechargedAt later).2.2.1
  prechargeAfterRead _ kind later :=
    Nat.le_trans (h.read kind) (planned.le_prechargedAt later).2.2.1
  prechargeAfterWrite _ kind later :=
    Nat.le_trans (h.write kind) (planned.le_prechargedAt later).2.2.1

theorem Heeds.after {kind : AccessKind} (h : Heeds t b u)
    (planned : p.Planned t b row rankFrom busFrom now) : Heeds t (b.after t row kind p) u where
  activate act activated := by
    obtain ⟨next, pre⟩ := h.activate act activated
    exact ⟨Nat.le_trans next (planned.le_after_activateAllowedAt kind),
      Nat.le_trans pre BankState.le_after_prechargeAllowedAt⟩
  precharge pre precharged :=
    Nat.le_trans (h.precharge pre precharged) (planned.le_after_activateAllowedAt kind)
  column := by
    rw [BankState.after_columnAllowedAt]
    exact Nat.le_trans h.column (Nat.le_trans planned.le_issuedAt.2 (Nat.le_add_right ..))
  read kind := Nat.le_trans (h.read kind) BankState.le_after_prechargeAllowedAt
  write kind := Nat.le_trans (h.write kind) BankState.le_after_prechargeAllowedAt

theorem heeds_after (planned : p.Planned t b r.place.row rankFrom busFrom now) :
    Heeds t (b.after t r.place.row r.kind p) ⟨r, p.outcome t⟩ where
  activate act activated := by
    rw [BankState.after_activateAllowedAt activated]
    exact ⟨Nat.le_refl _, BankState.le_after_prechargeAllowedAt_activate activated⟩
  precharge pre precharged := by
    obtain ⟨-, -, -, act, activated, le⟩ := planned.le_prechargedAt precharged
    rw [BankState.after_activateAllowedAt activated]
    exact Nat.le_trans le (Nat.le_add_right ..)
  column := Nat.le_refl _
  read kind := by
    rw [BankState.after, show r.kind = .read from kind]
    exact Nat.le_max_right ..
  write kind := by
    rw [BankState.after, show r.kind = .write from kind]
    exact Nat.le_max_right ..

/-- What a bank knows of the bursts before: it heeds those of its own, and the row that it keeps
open is the one that it opened last. -/
structure Knows (g : Geometry) (t : DramTiming) (bank : Nat) (past : List MediaVisit)
    (b : BankState) : Prop where
  heeds : ∀ u ∈ past, g.bankNumber u.place = bank → Heeds t b u
  opened : b.Opened g bank past fun act => act + t.activateToColumn ≤ b.columnAllowedAt

theorem Knows.rests (h : Knows g t bank past b) (rests : b.Rests b') :
    Knows g t bank past b' where
  heeds u mem same := (h.heeds u mem same).rests rests
  opened := rests.column ▸ h.opened.rests rests

theorem Knows.other (h : Knows g t bank past b) (ne : g.bankNumber v.place ≠ bank) :
    Knows g t bank (past ++ [v]) b where
  heeds u mem same := by
    rcases List.mem_append.1 mem with old | new
    · exact h.heeds u old same
    · cases List.mem_singleton.1 new
      exact absurd same ne
  opened := h.opened.other ne

theorem Knows.after (h : Knows g t bank past b)
    (planned : p.Planned t b r.place.row rankFrom busFrom now)
    (same : g.bankNumber r.place = bank) :
    Knows g t bank (past ++ [⟨r, p.outcome t⟩]) (b.after t r.place.row r.kind p) where
  heeds u mem own := by
    rcases List.mem_append.1 mem with old | new
    · exact (h.heeds u old own).after planned
    · cases List.mem_singleton.1 new
      exact heeds_after planned
  opened := by
    refine h.opened.after planned same (fun act le => ?_) fun act activated => ?_
    · exact Nat.le_trans le (Nat.le_trans planned.le_issuedAt.2 (Nat.le_add_right ..))
    · exact Nat.le_trans (planned.le_activatedAt activated).2.2 (Nat.le_add_right ..)

theorem Knows.keepsProtocol (h : Knows g t (g.bankNumber r.place) past b)
    (planned : p.Planned t b r.place.row rankFrom busFrom now) (le : r.earliest ≤ now) :
    KeepsProtocol g t past ⟨r, p.outcome t⟩ where
  spaced u mem same := (h.heeds u mem same).spaced planned
  reopened pre act precharged activated := by
    obtain ⟨-, -, -, next, same, apart⟩ := planned.le_prechargedAt precharged
    cases same.symm.trans activated
    exact apart
  opened := h.opened.lastOpening planned rfl
    (fun _ le => Nat.le_trans le planned.le_issuedAt.2)
    fun _ activated => (planned.le_activatedAt activated).2.2
  punctual tick mem := by
    refine Nat.le_trans le ?_
    rcases MediaVisit.mem_commands.1 mem with precharged | activated | rfl
    · exact (planned.le_prechargedAt precharged).2.1
    · exact (planned.le_activatedAt activated).1
    · exact planned.le_issuedAt.1
  ready := rfl

/-- Every bank of a channel knows of the bursts before. -/
structure Aware (g : Geometry) (t : DramTiming) (past : List MediaVisit) (m : Dram) : Prop where
  built : m.Built g t
  knows : ∀ c, Knows g t (g.bankNumber c) past (m.bankAt (g.bankNumber c))

variable {m : Dram}

theorem aware_create (ranks : 0 < g.ranksPerChannel) (banks : 0 < g.banksPerRank) :
    Aware g t [] (create g t) where
  built := built_create ranks banks t
  knows c := by
    rw [bankAt_create (Geometry.bankNumber_lt ranks banks c)]
    exact ⟨fun u mem => absurd mem List.not_mem_nil, nofun⟩

theorem Aware.keepsProtocol (h : Aware g t past m) (r : MediaRequest) :
    KeepsProtocol g t past (visit m r).1 := by
  obtain ⟨_, _, now, le, planned⟩ := h.built.planned r
  rw [h.built.visit_fst]
  exact ((h.knows r.place).rests (h.built.rests r)).keepsProtocol planned le

theorem Aware.visit (h : Aware g t past m) (r : MediaRequest) :
    Aware g t (past ++ [(visit m r).1]) (visit m r).2 where
  built := h.built.visit r
  knows c := by
    rw [h.built.visit_fst]
    by_cases same : g.bankNumber r.place = g.bankNumber c
    · obtain ⟨_, _, now, -, planned⟩ := h.built.planned r
      rw [← same, h.built.bankAt_visit_self]
      exact ((h.knows r.place).rests (h.built.rests r)).after planned rfl
    · rw [h.built.bankAt_visit_of_ne same]
      exact (h.knows c).other same

/-- Every burst keeps the command protocol of its bank, whatever bursts the channel has served
before, in whatever order they were asked for. -/
theorem keepsProtocol_serve (ranks : 0 < g.ranksPerChannel) (banks : 0 < g.banksPerRank)
    (t : DramTiming) (past : List MediaRequest) (r : MediaRequest) :
    KeepsProtocol g t (serve (create g t) past).1 (visit (serve (create g t) past).2 r).1 :=
  (MediaChannel.serve_induction (P := Aware g t) (aware_create ranks banks)
    (fun _ _ r h => h.visit r) past).keepsProtocol r

/-- A read closes the row of two bursts that a refresh has put off. Its rank and bank wrap around to
theirs. -/
theorem keepsProtocol_conflict :
    let past : List MediaRequest :=
      [⟨⟨0, 0, 0, 7, 0⟩, .write, 7790 * nanosecond⟩, ⟨⟨0, 0, 0, 7, 0⟩, .read, 0⟩]
    let next : MediaRequest := ⟨⟨0, 2, 16, 9, 0⟩, .read, 0⟩
    let served := serve (create ddr4Geometry ddr4Timing) past
    0 < ddr4Geometry.ranksPerChannel ∧ 0 < ddr4Geometry.banksPerRank ∧
      served.1.map (·.rowHit) = [false, true] ∧
      (visit served.2 next).1.commands = [8196652, 8210812, 8224972] ∧
      KeepsProtocol ddr4Geometry ddr4Timing served.1 (visit served.2 next).1 := by
  refine ⟨by decide, by decide, by decide +kernel, by decide +kernel, ?_⟩
  exact keepsProtocol_serve (by decide) (by decide) ddr4Timing _ _

end Expander.Dram
