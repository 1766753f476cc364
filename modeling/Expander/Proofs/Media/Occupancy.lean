import Expander.Media.Profile
import Expander.Proofs.Media
import Expander.Proofs.Media.History

/-!
The banks of non-volatile memory.

A bank keeps two things of the past: the row in its read buffer, and the tick until which it is
busy. A read sets the tick before it waits for the data bus and a write after, and neither looks at
what the tick was before. But both start behind it, so it never falls (`le_busyUntil`): the bank is
at rest whenever a burst starts, also from the bursts that the latest one has covered up
(`keepsBank_serve`).
-/

set_option autoImplicit false

namespace Expander.Nvm

open MediaChannel (serve visit isRowHit)

variable {g : Geometry} {t : NvmTiming} {m : Nvm} {past : List MediaVisit} {u v : MediaVisit}
  {bank : Nat}

def lastRead (g : Geometry) (bank : Nat) (past : List MediaVisit) : Option Nat :=
  past.reverse.findSome? fun v =>
    if g.bankNumber v.place = bank ∧ v.kind = .read then some v.place.row else none

theorem lastRead_read (same : g.bankNumber v.place = bank) (read : v.kind = .read) :
    lastRead g bank (past ++ [v]) = some v.place.row := by
  simp [lastRead, same, read]

theorem lastRead_write (write : v.kind = .write) :
    lastRead g bank (past ++ [v]) = lastRead g bank past := by
  simp [lastRead, write]

theorem lastRead_of_ne (other : g.bankNumber v.place ≠ bank) :
    lastRead g bank (past ++ [v]) = lastRead g bank past := by
  simp [lastRead, other]

def fetchTime (t : NvmTiming) (v : MediaVisit) : Tick :=
  match v.kind with
  | .read => (if v.rowHit then 0 else t.arrayRead) + t.send
  | .write => 0

def busyUntil (t : NvmTiming) (v : MediaVisit) : Tick :=
  match v.kind with
  | .read => v.issuedAt + fetchTime t v
  | .write => v.readyAt + t.arrayWrite

def occupied (t : NvmTiming) (v : MediaVisit) (b : BankState) : BankState :=
  match v.kind with
  | .read =>
    { b with
      openRow := some v.place.row
      lastActivate := if v.rowHit then b.lastActivate else some v.issuedAt
      activateAllowedAt := busyUntil t v }
  | .write => { b with activateAllowedAt := busyUntil t v }

/-- A burst keeps to its bank, in the light of the bursts before it. -/
structure KeepsBank (g : Geometry) (t : NvmTiming) (past : List MediaVisit) (v : MediaVisit) :
    Prop where
  punctual : v.earliest ≤ v.issuedAt
  afterRead : ∀ u ∈ past, g.bankNumber u.place = g.bankNumber v.place → u.kind = .read →
    u.issuedAt + (if u.rowHit then 0 else t.arrayRead) + t.send ≤ v.issuedAt
  afterWrite : ∀ u ∈ past, g.bankNumber u.place = g.bankNumber v.place → u.kind = .write →
    u.readyAt + t.arrayWrite ≤ v.issuedAt
  /-- A read finds its row in the buffer when its bank read that row last. -/
  hit : v.kind = .read →
    (v.rowHit = true ↔ lastRead g (g.bankNumber v.place) past = some v.place.row)
  ready : v.issuedAt + fetchTime t v + t.burst ≤ v.readyAt

/-! ### One access -/

theorem visit_issuedAt (m : Nvm) (r : MediaRequest) : (visit m r).1.issuedAt =
    max r.earliest (m.bankAt (m.bankIndex r.place)).activateAllowedAt := by
  obtain ⟨place, kind, earliest⟩ := r
  cases kind <;> rfl

theorem visit_rowHit (m : Nvm) {r : MediaRequest} (read : r.kind = .read) :
    (visit m r).1.rowHit = isRowHit m r.place := by
  obtain ⟨place, kind, earliest⟩ := r
  cases read
  rfl

theorem read_leaves (m : Nvm) (c : Coordinate) (earliest issued : Tick) :
    (if (m.accessRead c earliest).1.rowHit then issued else issued + m.timing.arrayRead) +
        m.timing.send =
      issued + fetchTime m.timing ⟨⟨c, .read, earliest⟩, (m.accessRead c earliest).1⟩ := by
  simp only [fetchTime]
  split
  · rw [Nat.zero_add]
  · exact Nat.add_assoc ..

theorem visit_readyAt (m : Nvm) (r : MediaRequest) :
    (visit m r).1.issuedAt + fetchTime m.timing (visit m r).1 + m.timing.burst ≤
      (visit m r).1.readyAt := by
  obtain ⟨place, kind, earliest⟩ := r
  cases kind with
  | read =>
    refine Nat.add_le_add_right (Nat.le_trans (Nat.le_of_eq ?_) (m.le_busSlot ..)) _
    exact (m.read_leaves place earliest _).symm
  | write => exact Nat.add_le_add_right (m.le_busSlot ..) _

theorem banks_visit (m : Nvm) (r : MediaRequest) : (visit m r).2.banks =
    m.banks.modify (m.bankIndex r.place) (occupied m.timing (visit m r).1) := by
  obtain ⟨place, kind, earliest⟩ := r
  cases kind with
  | read =>
    let done := (m.accessRead place earliest).1
    have leaves := m.read_leaves place earliest done.issuedAt
    show m.banks.modify (m.bankIndex place) (fun b => { b with
      openRow := some place.row
      lastActivate := if done.rowHit then b.lastActivate else some done.issuedAt
      activateAllowedAt := (if done.rowHit then done.issuedAt
        else done.issuedAt + m.timing.arrayRead) + m.timing.send }) = _
    rw [leaves]
    rfl
  | write => rfl

theorem geometry_access (m : Nvm) (r : MediaRequest) : (visit m r).2.geometry = m.geometry := by
  obtain ⟨place, kind, earliest⟩ := r
  cases kind <;> rfl

theorem le_busyUntil (m : Nvm) (r : MediaRequest) :
    (m.bankAt (m.bankIndex r.place)).activateAllowedAt ≤ busyUntil m.timing (visit m r).1 := by
  have issued : (m.bankAt (m.bankIndex r.place)).activateAllowedAt ≤ (visit m r).1.issuedAt := by
    rw [visit_issuedAt]
    exact Nat.le_max_right ..
  refine Nat.le_trans issued ?_
  rw [busyUntil]
  split
  · exact Nat.le_add_right ..
  · calc (visit m r).1.issuedAt
        ≤ (visit m r).1.issuedAt + (fetchTime m.timing (visit m r).1 + m.timing.burst) :=
          Nat.le_add_right ..
      _ ≤ (visit m r).1.readyAt := Nat.add_assoc .. ▸ m.visit_readyAt r
      _ ≤ (visit m r).1.readyAt + m.timing.arrayWrite := Nat.le_add_right ..

/-! ### A history -/

/-- A channel whose banks know until when they are busy and what they read last. -/
structure Tracks (g : Geometry) (t : NvmTiming) (past : List MediaVisit) (m : Nvm) : Prop where
  timing : m.timing = t
  geometry : m.geometry = g
  ranks : 0 < g.ranksPerChannel
  perRank : 0 < g.banksPerRank
  banks : m.banks.size = g.ranksPerChannel * g.banksPerRank
  busy : ∀ u ∈ past, busyUntil t u ≤ (m.bankAt (g.bankNumber u.place)).activateAllowedAt
  buffer : ∀ c, (m.bankAt (g.bankNumber c)).openRow = lastRead g (g.bankNumber c) past

theorem tracks_create (ranks : 0 < g.ranksPerChannel) (perRank : 0 < g.banksPerRank)
    (t : NvmTiming) : Tracks g t [] (create g t) where
  timing := rfl
  geometry := rfl
  ranks := ranks
  perRank := perRank
  banks := Array.size_replicate
  busy := nofun
  buffer c := by
    have inside := Geometry.bankNumber_lt ranks perRank c
    simp [create, bankAt, lastRead, inside]

namespace Tracks

variable (h : Tracks g t past m) (r : MediaRequest)

include h

theorem bankIndex (c : Coordinate) : m.bankIndex c = g.bankNumber c := by
  have bank : c.bank % g.banksPerRank < g.banksPerRank := Nat.mod_lt _ h.perRank
  rw [Nvm.bankIndex, h.geometry, h.banks, Geometry.bankNumber, Nat.mul_comm g.ranksPerChannel,
    Nat.mul_comm c.rank, Nat.mod_mul, Nat.mul_add_mod, Nat.mod_eq_of_lt bank,
    Nat.mul_add_div h.perRank, Nat.div_eq_of_lt bank, Nat.add_zero, Nat.mul_comm, Nat.add_comm]

theorem inside (c : Coordinate) : g.bankNumber c < m.banks.size :=
  h.banks ▸ Geometry.bankNumber_lt h.ranks h.perRank c

theorem bankAt_visit (c : Coordinate) :
    ((visit m r).2.bankAt (g.bankNumber c)).activateAllowedAt =
        (if g.bankNumber r.place = g.bankNumber c then busyUntil t (visit m r).1
          else (m.bankAt (g.bankNumber c)).activateAllowedAt) ∧
      ((visit m r).2.bankAt (g.bankNumber c)).openRow =
        if g.bankNumber r.place = g.bankNumber c ∧ r.kind = .read then some r.place.row
          else (m.bankAt (g.bankNumber c)).openRow := by
  have inside := h.inside c
  simp only [bankAt, m.banks_visit, h.bankIndex, Array.getD_eq_getD_getElem?, Array.getElem?_modify,
    Array.getElem?_eq_getElem inside]
  by_cases same : g.bankNumber r.place = g.bankNumber c
  · simp only [same, if_true, true_and, Option.map_some, Option.getD_some, h.timing]
    obtain ⟨place, kind, earliest⟩ := r
    cases kind <;> exact ⟨rfl, rfl⟩
  · simp [same]

theorem isRowHit_iff (c : Coordinate) :
    isRowHit m c = true ↔ lastRead g (g.bankNumber c) past = some c.row := by
  rw [← h.buffer, ← h.bankIndex]
  exact beq_iff_eq

theorem keepsBank : KeepsBank g t past (visit m r).1 := by
  have rested : ∀ u ∈ past, g.bankNumber u.place = g.bankNumber r.place →
      busyUntil t u ≤ (visit m r).1.issuedAt := fun u mem same => by
    rw [visit_issuedAt, h.bankIndex, ← same]
    exact Nat.le_trans (h.busy u mem) (Nat.le_max_right ..)
  have ready := m.visit_readyAt r
  rw [h.timing] at ready
  exact {
    punctual := by
      rw [visit_issuedAt]
      exact Nat.le_max_left ..
    afterRead := fun u mem same read => by
      have free := rested u mem same
      simp only [busyUntil, fetchTime, read] at free
      rwa [← Nat.add_assoc] at free
    afterWrite := fun u mem same write => by
      have free := rested u mem same
      simp only [busyUntil, write] at free
      exact free
    hit := fun read => by
      rw [m.visit_rowHit (r := r) read]
      exact h.isRowHit_iff r.place
    ready := ready }

theorem visit : Tracks g t (past ++ [(visit m r).1]) (visit m r).2 where
  timing := (m.timing_access ..).trans h.timing
  geometry := (m.geometry_access r).trans h.geometry
  ranks := h.ranks
  perRank := h.perRank
  banks := by
    rw [m.banks_visit, Array.size_modify, h.banks]
  busy u mem := by
    rw [(h.bankAt_visit r u.place).1]
    rcases List.mem_append.1 mem with old | new
    · refine Nat.le_trans (h.busy u old) ?_
      split
      next same =>
        rw [← same, ← h.bankIndex, ← h.timing]
        exact m.le_busyUntil r
      next => exact Nat.le_refl _
    · rw [List.mem_singleton.1 new]
      exact Nat.le_of_eq (if_pos rfl).symm
  buffer c := by
    rw [(h.bankAt_visit r c).2]
    split
    next own => exact (lastRead_read (v := (MediaChannel.visit m r).1) own.1 own.2).symm
    next other =>
      rw [h.buffer]
      by_cases same : g.bankNumber r.place = g.bankNumber c
      · have write : r.kind = .write := by
          cases kind : r.kind with
          | read => exact absurd ⟨same, kind⟩ other
          | write => rfl
        exact (lastRead_write (v := (MediaChannel.visit m r).1) write).symm
      · exact (lastRead_of_ne same).symm

end Tracks

theorem tracks_serve (ranks : 0 < g.ranksPerChannel) (perRank : 0 < g.banksPerRank)
    (t : NvmTiming) (past : List MediaRequest) :
    Tracks g t (serve (create g t) past).1 (serve (create g t) past).2 :=
  MediaChannel.serve_induction (tracks_create ranks perRank t) (fun _ _ r h => h.visit r) past

/-- Every burst starts when its bank is at rest from all bursts before, and the reads of the row
that a bank read last are its hits, whatever the channel has served before. The channel foretells
them. -/
theorem keepsBank_serve (ranks : 0 < g.ranksPerChannel) (perRank : 0 < g.banksPerRank)
    (t : NvmTiming) (past : List MediaRequest) (r : MediaRequest) :
    KeepsBank g t (serve (create g t) past).1 (visit (serve (create g t) past).2 r).1 ∧
      ∀ c, isRowHit (serve (create g t) past).2 c = true ↔
        lastRead g (g.bankNumber c) (serve (create g t) past).1 = some c.row := by
  have tracks := tracks_serve ranks perRank t past
  exact ⟨tracks.keepsBank r, tracks.isRowHit_iff⟩

/-- The row stays in the buffer while the bank writes another one. The read of it waits for the
write all the same. -/
theorem keepsBank_rereading :
    let past : List MediaRequest := [⟨⟨0, 0, 3, 7, 0⟩, .read, 0⟩, ⟨⟨0, 0, 3, 9, 0⟩, .write, 0⟩]
    let next : MediaRequest := ⟨⟨0, 1, 19, 7, 0⟩, .read, 0⟩
    let served := serve (create nvmGeometry nvmTiming) past
    0 < nvmGeometry.ranksPerChannel ∧ 0 < nvmGeometry.banksPerRank ∧
      served.1.map (·.issuedAt) = [0, 164160] ∧
      ((visit served.2 next).1.issuedAt, (visit served.2 next).1.rowHit) = (672490, true) ∧
      KeepsBank nvmGeometry nvmTiming served.1 (visit served.2 next).1 := by
  refine ⟨by decide, by decide, by decide +kernel, by decide +kernel, ?_⟩
  exact (keepsBank_serve (by decide) (by decide) nvmTiming _ _).1

end Expander.Nvm
