import Expander.Media.Basic

/-!
The history of a media channel.

A channel serves requests one after the other, and keeps of the past only what its banks, its ranks
and its data bus need. The history keeps all of it: each request, with the ticks of its commands.
What holds of the history and the channel at the start and is kept by every access holds after any
requests (`serve_induction`).
-/

set_option autoImplicit false

namespace Expander

/-- A burst that a channel is asked for. -/
structure MediaRequest where
  place : Coordinate
  kind : AccessKind
  earliest : Tick
deriving DecidableEq, Repr

/-- A burst that a channel has served. -/
structure MediaVisit extends MediaRequest, MediaAccess
deriving DecidableEq, Repr

def MediaVisit.commands (v : MediaVisit) : List Tick :=
  v.prechargedAt.toList ++ v.activatedAt.toList ++ [v.issuedAt]

theorem MediaVisit.mem_commands {v : MediaVisit} {tick : Tick} :
    tick ∈ v.commands ↔
      v.prechargedAt = some tick ∨ v.activatedAt = some tick ∨ tick = v.issuedAt := by
  simp [commands]

def Geometry.bankNumber (g : Geometry) (c : Coordinate) : Nat :=
  c.rank % g.ranksPerChannel * g.banksPerRank + c.bank % g.banksPerRank

theorem Geometry.bankNumber_lt {g : Geometry} (ranks : 0 < g.ranksPerChannel)
    (banks : 0 < g.banksPerRank) (c : Coordinate) :
    g.bankNumber c < g.ranksPerChannel * g.banksPerRank := by
  have rank := Nat.mod_lt c.rank ranks
  have bank := Nat.mod_lt c.bank banks
  calc g.bankNumber c < c.rank % g.ranksPerChannel * g.banksPerRank + g.banksPerRank :=
        Nat.add_lt_add_left bank _
    _ = (c.rank % g.ranksPerChannel + 1) * g.banksPerRank := (Nat.succ_mul ..).symm
    _ ≤ g.ranksPerChannel * g.banksPerRank := Nat.mul_le_mul_right _ rank

def lastOpening (g : Geometry) (bank : Nat) (past : List MediaVisit) : Option (Nat × Tick) :=
  past.reverse.findSome? fun v =>
    if g.bankNumber v.place = bank then v.activatedAt.map (v.place.row, ·) else none

section LastOpening

variable {g : Geometry} {bank : Nat} {past : List MediaVisit} {v : MediaVisit}

theorem lastOpening_activated {act : Tick} (same : g.bankNumber v.place = bank)
    (activated : v.activatedAt = some act) :
    lastOpening g bank (past ++ [v]) = some (v.place.row, act) := by
  simp [lastOpening, same, activated]

theorem lastOpening_kept (activated : v.activatedAt = none) :
    lastOpening g bank (past ++ [v]) = lastOpening g bank past := by
  simp [lastOpening, activated]

theorem lastOpening_of_ne (other : g.bankNumber v.place ≠ bank) :
    lastOpening g bank (past ++ [v]) = lastOpening g bank past := by
  simp [lastOpening, other]

end LastOpening

namespace MediaChannel

variable {μ : Type} [MediaChannel μ]

def visit (m : μ) (r : MediaRequest) : MediaVisit × μ :=
  let done := access m r.place r.kind r.earliest
  (⟨r, done.1⟩, done.2)

def serve (m : μ) : List MediaRequest → List MediaVisit × μ
  | [] => ([], m)
  | r :: rest =>
    let first := visit m r
    let others := serve first.2 rest
    (first.1 :: others.1, others.2)

theorem serve_induction {P : List MediaVisit → μ → Prop} {m : μ} (start : P [] m)
    (step : ∀ past m r, P past m → P (past ++ [(visit m r).1]) (visit m r).2)
    (rs : List MediaRequest) : P (serve m rs).1 (serve m rs).2 := by
  suffices run : ∀ past m, P past m → P (past ++ (serve m rs).1) (serve m rs).2 from run [] m start
  induction rs with
  | nil =>
    intro past m h
    simpa [serve] using h
  | cons r rest ih =>
    intro past m h
    simpa [serve] using ih _ _ (step past m r h)

end MediaChannel

end Expander
