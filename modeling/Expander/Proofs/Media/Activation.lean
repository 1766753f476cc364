import Expander.Media.Profile
import Expander.Proofs.Media.Bus

/-!
The activates of a DRAM rank.

A rank remembers its latest activate, and as many of the latest ones as one window allows. That is
the end of a history without bound (`Tracks`), and enough of it for every next activate to keep its
distance from the one before and to let one of the window leave first. The plans that an access
drops on its way leave no trace in the rank. So the activates of a rank never come closer than
allowed, in any stretch of time (`keepsWindow_serve`).
-/

set_option autoImplicit false

namespace Expander

open MediaChannel (serve visit)

def Geometry.activates (g : Geometry) (rank : Nat) (past : List MediaVisit) : List (Tick × Nat) :=
  past.filterMap fun v =>
    if g.rankNumber v.place = rank then v.activatedAt.map (·, g.groupNumber v.place) else none

section Activates

variable {g : Geometry} {rank : Nat} {past : List MediaVisit} {v : MediaVisit}

theorem activates_activated {act : Tick} (same : g.rankNumber v.place = rank)
    (activated : v.activatedAt = some act) :
    g.activates rank (past ++ [v]) = g.activates rank past ++ [(act, g.groupNumber v.place)] := by
  simp [Geometry.activates, same, activated]

theorem activates_kept (activated : v.activatedAt = none) :
    g.activates rank (past ++ [v]) = g.activates rank past := by
  simp [Geometry.activates, activated]

theorem activates_of_ne (other : g.rankNumber v.place ≠ rank) :
    g.activates rank (past ++ [v]) = g.activates rank past := by
  simp [Geometry.activates, other]

end Activates

def RankState.activated (s : RankState) (t : DramTiming) (group : Nat) : Option Tick → RankState
  | none => s
  | some act =>
    { s with
      lastActivate := some (act, group)
      recentActivates := (act :: s.recentActivates).take t.activationLimit }

namespace Dram

variable {m : Dram} {g : Geometry} {t : DramTiming} {past : List MediaVisit}
  {acts : List (Tick × Nat)} {rank : Nat} {new : Tick × Nat}

/-- Activates of one rank that keep their distance: each from the one before it, and from the one
that it pushes out of its window. -/
structure Windowed (t : DramTiming) (acts : List (Tick × Nat)) : Prop where
  spaced : acts.IsChain fun a b =>
    a.1 + (if a.2 = b.2 then t.activateToActivateGroup else t.activateToActivate) ≤ b.1
  window : 0 < t.activationLimit → ∀ i a b, acts[i]? = some a →
    acts[i + t.activationLimit]? = some b → a.1 + t.activationWindow ≤ b.1

theorem Windowed.append (h : Windowed t acts)
    (spaced : ∀ last ∈ acts.getLast?, last.1 + (if last.2 = new.2 then t.activateToActivateGroup
      else t.activateToActivate) ≤ new.1)
    (window : 0 < t.activationLimit → ∀ i first, i + t.activationLimit = acts.length →
      acts[i]? = some first → first.1 + t.activationWindow ≤ new.1) :
    Windowed t (acts ++ [new]) where
  spaced := by
    rw [List.isChain_append]
    refine ⟨h.spaced, .singleton _, fun last mem b same => ?_⟩
    cases same
    exact spaced last mem
  window limited i a b first last := by
    rcases Nat.lt_trichotomy (i + t.activationLimit) acts.length with old | end' | beyond
    · rw [List.getElem?_append_left (by omega)] at first
      rw [List.getElem?_append_left old] at last
      exact h.window limited i a b first last
    · rw [List.getElem?_append_left (by omega)] at first
      rw [end', List.getElem?_concat_length] at last
      cases last
      exact window limited i a end' first
    · rw [List.getElem?_eq_none (by simp only [List.length_append, List.length_singleton]; omega)]
        at last
      cases last

theorem Windowed.ordered (h : Windowed t acts) : acts.Pairwise fun a b => a.1 ≤ b.1 := by
  let R : Tick × Nat → Tick × Nat → Prop := fun a b => a.1 ≤ b.1
  have : Trans R R R := ⟨Nat.le_trans⟩
  have chain : acts.IsChain R := h.spaced.imp fun _ _ le => Nat.le_trans (Nat.le_add_right ..) le
  exact chain.pairwise

section Window

variable {limit : Nat} {window : Tick} (ordered : acts.Pairwise fun a b => a.1 ≤ b.1)
  (leaves : ∀ i a b, acts[i]? = some a → acts[i + limit]? = some b → a.1 + window ≤ b.1)

include ordered leaves

theorem le_of_mem_drop {a b : Tick × Nat} (head : acts.head? = some a)
    (mem : b ∈ acts.drop limit) : a.1 + window ≤ b.1 := by
  cases later : acts.drop limit with
  | nil =>
    rw [later] at mem
    cases mem
  | cons first others =>
    have place : acts[0 + limit]? = some first := by
      rw [Nat.zero_add, ← List.head?_drop, later]
      rfl
    have left := leaves 0 a first (List.head?_eq_getElem? ▸ head) place
    have tail := ordered.drop (i := limit)
    rw [later] at mem tail
    rcases List.mem_cons.1 mem with rfl | other
    · exact left
    · exact Nat.le_trans left ((List.pairwise_cons.1 tail).1 b other)

/-- Where each tick leaves the window of the one `limit` places before it, no stretch of the
window's length holds more than `limit` ticks. -/
theorem length_filter_window_le (start : Tick) :
    (acts.filter fun a => start ≤ a.1 ∧ a.1 < start + window).length ≤ limit := by
  induction acts with
  | nil => exact Nat.zero_le _
  | cons a rest ih =>
    by_cases inside : start ≤ a.1 ∧ a.1 < start + window
    · have outside : ((a :: rest).drop limit).filter
          (fun b => start ≤ b.1 ∧ b.1 < start + window) = [] := by
        rw [List.filter_eq_nil_iff]
        intro b mem within
        have left := le_of_mem_drop ordered leaves rfl mem
        grind
      rw [← List.take_append_drop limit (a :: rest), List.filter_append, List.length_append,
        outside]
      exact Nat.le_trans (List.length_filter_le ..) (List.length_take_le ..)
    · rw [List.filter_cons_of_neg (by simpa using inside)]
      refine ih (List.pairwise_cons.1 ordered).2 fun i b c first last => ?_
      refine leaves (i + 1) b c first ?_
      rwa [Nat.add_right_comm, List.getElem?_cons_succ]

end Window

/-- What the activates of a rank keep: they come in the order of their bursts, each keeps its
distance from the one before it and lets the oldest one leave its window, and no stretch of the
window's length holds more of them than allowed. -/
structure KeepsWindow (t : DramTiming) (acts : List (Tick × Nat)) : Prop extends
    Windowed t acts where
  ordered : acts.Pairwise fun a b => a.1 ≤ b.1
  sparse : 0 < t.activationLimit → ∀ start, (acts.filter fun a =>
    start ≤ a.1 ∧ a.1 < start + t.activationWindow).length ≤ t.activationLimit

theorem Windowed.keepsWindow (h : Windowed t acts) : KeepsWindow t acts :=
  ⟨h, h.ordered, fun limited => length_filter_window_le h.ordered (h.window limited)⟩

/-- A rank remembers the end of its activates. -/
structure Remembers (t : DramTiming) (acts : List (Tick × Nat)) (s : RankState) : Prop where
  latest : s.lastActivate = acts.getLast?
  recent : s.recentActivates = (acts.map Prod.fst).reverse.take t.activationLimit
  windowed : Windowed t acts

theorem Remembers.oldest {s : RankState} (h : Remembers t acts s) {i : Nat} {first : Tick × Nat}
    (limited : 0 < t.activationLimit) (length : i + t.activationLimit = acts.length)
    (place : acts[i]? = some first) :
    s.recentActivates[t.activationLimit - 1]? = some first.1 := by
  rw [h.recent, List.getElem?_take_of_lt (Nat.sub_one_lt_of_lt limited),
    List.getElem?_reverse (by rw [List.length_map]; omega), List.length_map,
    show acts.length - 1 - (t.activationLimit - 1) = i by omega, List.getElem?_map, place]
  rfl

theorem Remembers.activated {s : RankState} {act group : Nat} (h : Remembers t acts s)
    (fits : Windowed t (acts ++ [(act, group)])) :
    Remembers t (acts ++ [(act, group)]) (s.activated t group (some act)) where
  latest := by simp [RankState.activated]
  recent := by
    simp only [RankState.activated, h.recent, List.map_append, List.reverse_append]
    cases t.activationLimit with
    | zero => rfl
    | succ others =>
      simp [List.take_take]
  windowed := fits

theorem rankAt_updateRank_self (inside : rank < m.ranks.size) (f : RankState → RankState) :
    (m.updateRank rank f).rankAt rank = f (m.rankAt rank) := by
  simp only [updateRank, rankAt, Array.getD_eq_getD_getElem?, Array.getElem?_modify, if_true,
    Array.getElem?_eq_getElem inside, Option.map_some, Option.getD_some]

theorem rankAt_updateRank_of_ne {other : Nat} (ne : other ≠ rank) (f : RankState → RankState) :
    (m.updateRank rank f).rankAt other = m.rankAt other := by
  simp only [updateRank, rankAt, Array.getD_eq_getD_getElem?, Array.getElem?_modify,
    if_neg (Ne.symm ne)]

theorem ranks_commitPrecharge (m : Dram) (index : Nat) (tick : Option Tick) :
    (m.commitPrecharge index tick).ranks = m.ranks := by
  cases tick <;> rfl

theorem ranks_commitColumn (m : Dram) (index : Nat) (kind : AccessKind) (issued ready : Tick) :
    (m.commitColumn index kind issued ready).ranks = m.ranks := by
  cases kind <;> rfl

theorem size_ranks_commitActivate (m : Dram) (index rank group row : Nat) (stall : Bool)
    (tick : Option Tick) :
    (m.commitActivate index rank group row stall tick).ranks.size = m.ranks.size := by
  cases tick with
  | none => rfl
  | some act => exact Array.size_modify ..

theorem rankAt_commitActivate_self (inside : rank < m.ranks.size) (timing : m.timing = t)
    (index group row : Nat) (stall : Bool) (tick : Option Tick) :
    (m.commitActivate index rank group row stall tick).rankAt rank =
      (m.rankAt rank).activated t group tick := by
  subst timing
  cases tick with
  | none => rfl
  | some act => exact rankAt_updateRank_self inside _

theorem rankAt_commitActivate_of_ne {other : Nat} (ne : other ≠ rank) (index group row : Nat)
    (stall : Bool) (tick : Option Tick) :
    (m.commitActivate index rank group row stall tick).rankAt other = m.rankAt other := by
  cases tick with
  | none => rfl
  | some act => exact rankAt_updateRank_of_ne ne _

theorem rankAt_congr {m' : Dram} (ranks : m'.ranks = m.ranks) (rank : Nat) :
    m'.rankAt rank = m.rankAt rank := by
  rw [rankAt, rankAt, ranks]

theorem rankAt_create (g : Geometry) (t : DramTiming) (rank : Nat) :
    (create g t).rankAt rank = {} := by
  simp only [create, rankAt, Array.getD_eq_getD_getElem?, Array.getElem?_replicate]
  split <;> rfl

theorem rankAt_access_self {c : Coordinate} (inside : m.rankOf c < m.ranks.size)
    (kind : AccessKind) (earliest : Tick) :
    let s := (m.rankAt (m.rankOf c)).activated m.timing (m.groupOf c)
      (m.decision c kind earliest).1.activatedAt
    (m.access c kind earliest).2.rankAt (m.rankOf c) =
      { s with lastActivity := max s.lastActivity (m.access c kind earliest).1.readyAt } := by
  obtain ⟨timing, -, ranks, -⟩ := m.decision_frame c kind earliest
  simp only [access, decision] at timing ranks ⊢
  generalize settlePlan _ _ _ _ _ _ _ _ = planned at timing ranks ⊢
  have closed := (moves_commitPrecharge rfl (m.bankIndex c) planned.1.prechargedAt).timing.trans
    timing
  have opened := (ranks_commitPrecharge planned.2 (m.bankIndex c) planned.1.prechargedAt).trans
    ranks
  refine (rankAt_updateRank_self ?_ _).trans ?_
  · rw [ranks_commitColumn, size_ranks_commitActivate, opened]
    exact inside
  · rw [rankAt_congr (ranks_commitColumn ..),
      rankAt_commitActivate_self (opened ▸ inside) closed, rankAt_congr opened]

theorem rankAt_access_of_ne {c : Coordinate} (ne : rank ≠ m.rankOf c) (kind : AccessKind)
    (earliest : Tick) : (m.access c kind earliest).2.rankAt rank = m.rankAt rank := by
  obtain ⟨-, -, ranks, -⟩ := m.decision_frame c kind earliest
  simp only [access, decision] at ranks ⊢
  generalize settlePlan _ _ _ _ _ _ _ _ = planned at ranks ⊢
  refine (rankAt_updateRank_of_ne ne _).trans ?_
  rw [rankAt_congr (ranks_commitColumn ..), rankAt_commitActivate_of_ne ne,
    rankAt_congr ((ranks_commitPrecharge ..).trans ranks)]

/-- Every rank of a channel remembers the end of its history. -/
structure Tracks (g : Geometry) (t : DramTiming) (past : List MediaVisit) (m : Dram) : Prop where
  sequence : InSequence g t past m
  ranks : ∀ rank, Remembers t (g.activates rank past) (m.rankAt rank)

theorem tracks_create (g : Geometry) (t : DramTiming) : Tracks g t [] (create g t) where
  sequence := inSequence_create g t
  ranks rank := by
    rw [rankAt_create]
    exact ⟨rfl, List.take_nil.symm, .nil, nofun⟩

theorem Tracks.windowed (h : Tracks g t past m) {r : MediaRequest} {act : Tick}
    (activated : (m.decision r.place r.kind r.earliest).1.activatedAt = some act) :
    Windowed t (g.activates (g.rankNumber r.place) past ++ [(act, g.groupNumber r.place)]) := by
  obtain ⟨now, -, planned⟩ := m.planned_decision r.place r.kind r.earliest
  have waits := planned.rankFrom_le activated
  rw [h.sequence.rankOf, h.sequence.groupOf] at waits
  have rank := h.ranks (g.rankNumber r.place)
  refine rank.windowed.append (fun last mem => ?_) fun limited i first length place => ?_
  · have apart := le_rankFrom (rank.latest.trans mem) (g.groupNumber r.place)
    rw [h.sequence.timing] at apart
    exact Nat.le_trans apart waits
  · have oldest := rank.oldest limited length place
    rw [← h.sequence.timing] at limited oldest
    have left := le_rankFrom_window limited oldest (g.groupNumber r.place)
    rw [h.sequence.timing] at left
    exact Nat.le_trans left waits

theorem Tracks.visit (h : Tracks g t past m) (ranks : 0 < g.ranksPerChannel) (r : MediaRequest) :
    Tracks g t (past ++ [(visit m r).1]) (visit m r).2 where
  sequence := h.sequence.visit r
  ranks rank := by
    have index := h.sequence.rankOf r.place
    by_cases same : g.rankNumber r.place = rank
    · subst same
      have inside : m.rankOf r.place < m.ranks.size := by
        rw [index, h.sequence.ranks]
        exact Nat.mod_lt _ ranks
      have own := rankAt_access_self inside r.kind r.earliest
      rw [index, h.sequence.groupOf, h.sequence.timing] at own
      rw [show (MediaChannel.visit m r).2.rankAt (g.rankNumber r.place) = _ from own]
      cases activated : (m.decision r.place r.kind r.earliest).1.activatedAt with
      | none =>
        rw [activates_kept activated]
        obtain ⟨latest, recent, windowed⟩ := h.ranks (g.rankNumber r.place)
        exact ⟨latest, recent, windowed⟩
      | some act =>
        have appended : g.activates (g.rankNumber r.place) (past ++ [(MediaChannel.visit m r).1]) =
            g.activates (g.rankNumber r.place) past ++ [(act, g.groupNumber r.place)] :=
          activates_activated (v := (MediaChannel.visit m r).1) rfl activated
        rw [appended]
        obtain ⟨latest, recent, windowed⟩ :=
          (h.ranks (g.rankNumber r.place)).activated (h.windowed activated)
        exact ⟨latest, recent, windowed⟩
    · rw [activates_of_ne same]
      have other : rank ≠ m.rankOf r.place := by
        rw [index]
        exact Ne.symm same
      rw [show (MediaChannel.visit m r).2.rankAt rank = _ from
        rankAt_access_of_ne other r.kind r.earliest]
      exact h.ranks rank

theorem tracks_serve (ranks : 0 < g.ranksPerChannel) (t : DramTiming) (rs : List MediaRequest) :
    Tracks g t (serve (create g t) rs).1 (serve (create g t) rs).2 :=
  MediaChannel.serve_induction (tracks_create g t) (fun _ _ r h => h.visit ranks r) rs

/-- The activates of every rank keep their distances and their window, whatever bursts the channel
serves, in whatever order they are asked for. -/
theorem keepsWindow_serve (ranks : 0 < g.ranksPerChannel) (t : DramTiming) (rs : List MediaRequest)
    (rank : Nat) : KeepsWindow t (g.activates rank (serve (create g t) rs).1) :=
  ((tracks_serve ranks t rs).ranks rank).windowed.keepsWindow

/-- Six activates of one rank behind a refresh that none of them was asked for behind. The fifth and
the sixth wait for their windows; the write goes to the other rank. -/
theorem keepsWindow_crowded :
    let g := MediaProfile.ddr4x8.geometry
    let t := { ddr4Timing with activationWindow := 21 * nanosecond }
    let rs : List MediaRequest :=
      [⟨⟨0, 0, 0, 7, 0⟩, .read, 7790 * nanosecond⟩, ⟨⟨0, 0, 4, 7, 0⟩, .read, 0⟩,
        ⟨⟨0, 0, 5, 7, 0⟩, .read, 0⟩, ⟨⟨0, 1, 5, 7, 0⟩, .write, 0⟩,
        ⟨⟨0, 0, 8, 7, 0⟩, .read, 7798 * nanosecond⟩, ⟨⟨0, 0, 12, 8, 0⟩, .read, 0⟩,
        ⟨⟨0, 2, 1, 8, 0⟩, .read, 0⟩]
    let acts := g.activates 0 (serve (create g t) rs).1
    0 < g.ranksPerChannel ∧
      acts = [(8150000, 0), (8153332, 1), (8158232, 1), (8161564, 2), (8171000, 3), (8174332, 0)] ∧
      KeepsWindow t acts := by
  refine ⟨by decide, by decide +kernel, ?_⟩
  exact keepsWindow_serve (by decide) _ _ 0

end Dram

end Expander
