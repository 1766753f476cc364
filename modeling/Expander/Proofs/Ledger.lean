import Mathlib.Logic.Relation
import Expander.Proofs.Flow
import Expander.Proofs.Session

/-!
The books of a session.

A ledger leaves out of a session what time and the events do: it keeps the packets in the stages,
the accesses that were accepted and the completions that came of them. In one step a packet moves,
or an access is accepted, or bytes change without a packet. A ledger balances when every accepted
transaction is with one stage or completed, and every step keeps it balanced
(`Ledger.Balanced.step`).
-/

set_option autoImplicit false

namespace Expander

namespace StageView

def blank (v : StageView) : StageView := { v with store := none }

/-- The stage can take a request from the host: it serves it, and one that sends it on stands before
the expander that holds all of its bytes. -/
def Accepts (expander : AddressRange) (v : StageView) (p : Packet) : Prop :=
  v.frame.serves p.addr p.size = true ∧
    (v.frame.held? = none → expander.containsAccess p.addr p.size = true)

end StageView

/-- What the stages and the host know of the accesses. -/
structure Ledger where
  nextId : TransactionId
  views : List StageView
  accepted : List Grant
  /-- The completions, handed out or not. -/
  produced : Multiset Completion

namespace Ledger

/-- A change of the books. With `timed`, bytes change only as packets do. -/
inductive Step (expander : AddressRange) (timed : Bool) : Ledger → Ledger → Prop where
  /-- A packet moves, or none; one that reaches the host is completed. -/
  | move {l : Ledger} {views : List StageView} {out : List Packet} (finished : Packet → Tick) :
      Flow l.views views out →
      Step expander timed l { l with
        views
        produced := l.produced +
          (out.map fun p => Completion.ofResponse p (finished p) : List Completion) }
  /-- The host hands over a request. -/
  | receive {l : Ledger} {behind front : List StageView} {v : StageView} (access : Access)
      (issued : Tick) : l.views = behind ++ v :: front → FacesHost behind v front →
      v.Accepts expander (Grant.packet ⟨l.nextId, access, issued⟩) →
      Step expander timed l { l with
        nextId := l.nextId + 1
        views := behind ++ v.receive (Grant.packet ⟨l.nextId, access, issued⟩) :: front
        accepted := l.accepted ++ [⟨l.nextId, access, issued⟩] }
  /-- Bytes are read or written without a packet, which may use up a number. -/
  | poke {l : Ledger} {views : List StageView} {nextId : TransactionId} : timed = false →
      l.nextId ≤ nextId → views.map StageView.blank = l.views.map StageView.blank →
      Step expander timed l { l with nextId, views }

theorem Step.loosen {expander : AddressRange} {l l' : Ledger} (step : Step expander true l l') :
    Step expander false l l' := by
  cases step with
  | move finished flow => exact .move finished flow
  | receive access issued split faces accepts => exact .receive access issued split faces accepts
  | poke untimed => cases untimed

def Steps (expander : AddressRange) (timed : Bool) : Ledger → Ledger → Prop :=
  Relation.ReflTransGen (Step expander timed)

/-- Every accepted transaction is with one stage or completed, and what the stages hold fits
together. -/
structure Balanced (expander : AddressRange) (l : Ledger) : Prop where
  orderly : Orderly expander l.views
  conserved : held l.views + l.produced.map Completion.transaction =
    (l.accepted.map Grant.transaction : List Transaction)
  /-- Numbers are given out in ascending order. -/
  ascending : l.accepted.Pairwise fun g h => g.id < h.id
  /-- Only numbers that were given out are in use. -/
  bounded : ∀ g ∈ l.accepted, g.id < l.nextId

variable {expander : AddressRange} {timed : Bool} {l l' : Ledger} {views views' : List StageView}

theorem held_blank (views : List StageView) : held (views.map StageView.blank) = held views := by
  induction views with
  | nil => rfl
  | cons v rest ih => exact congrArg (_ + ·) ih

theorem orderly_blank :
    Orderly expander (views.map StageView.blank) ↔ Orderly expander views := by
  have same (v : StageView) : v.blank.requests = v.requests ∧ v.blank.frame = v.frame ∧
      v.blank.reserved = v.reserved := ⟨rfl, rfl, rfl⟩
  refine ⟨fun h => ⟨fun v mem => h.confined v.blank (List.mem_map_of_mem mem), ?_, ?_,
    fun v mem => h.ending v.blank (List.mem_map_of_mem mem)⟩, fun h => ⟨?_, ?_, ?_, ?_⟩⟩
  · exact held_blank views ▸ h.distinct
  · intro v last reserves
    have last' : (views.map StageView.blank).getLast? = some v.blank := by
      rw [List.getLast?_map, last]
      rfl
    have count := h.reserved v.blank last' reserves
    rwa [← List.map_tail, held_blank] at count
  · rintro _ mem
    obtain ⟨v, mem', rfl⟩ := List.mem_map.1 mem
    exact h.confined v mem'
  · exact (held_blank views).symm ▸ h.distinct
  · intro w last reserves
    rw [List.getLast?_map] at last
    obtain ⟨v, last', rfl⟩ := Option.map_eq_some_iff.1 last
    rw [← List.map_tail, held_blank]
    exact h.reserved v last' reserves
  · rintro _ mem
    obtain ⟨v, mem', rfl⟩ := List.mem_map.1 mem
    exact h.ending v mem'

theorem Balanced.fresh (h : l.Balanced expander) :
    l.nextId ∉ (held l.views).map Transaction.id := by
  intro mem
  obtain ⟨t, held, eq⟩ := Multiset.mem_map.1 mem
  have granted : t ∈ (l.accepted.map Grant.transaction : Multiset Transaction) :=
    h.conserved ▸ Multiset.mem_add.2 (.inl held)
  obtain ⟨g, accepted, rfl⟩ := List.mem_map.1 (Multiset.mem_coe.1 granted)
  exact Nat.lt_irrefl _ (eq ▸ h.bounded g accepted)

theorem Balanced.step (h : l.Balanced expander) (step : Step expander timed l l') :
    l'.Balanced expander := by
  cases step with
  | @move views out finished flow =>
    refine ⟨h.orderly.flow flow, ?_, h.ascending, h.bounded⟩
    have conserved := h.conserved
    have ended : out.map (fun p => (Completion.ofResponse p (finished p)).transaction) =
        out.map Packet.transaction := rfl
    rw [flow.held_eq] at conserved
    rw [← conserved, Multiset.map_add, Multiset.map_coe, List.map_map, Function.comp_def, ended,
      Multiset.add_comm (out.map Packet.transaction : Multiset Transaction), Multiset.add_assoc,
      Multiset.add_comm (Multiset.map _ l.produced)]
  | @receive behind front v access issued split faces accepts =>
    have conserved := h.conserved
    have fresh := h.fresh
    have orderly := h.orderly
    rw [split] at conserved fresh orderly
    have number : (Grant.packet ⟨l.nextId, access, issued⟩).id = l.nextId := Grant.id_packet _
    refine ⟨orderly.admitted faces (number.symm ▸ fresh) accepts.2, ?_, ?_, ?_⟩
    · rw [Admitted.held_eq (.mk faces), Grant.transaction_packet, Multiset.cons_add, conserved,
        List.map_append]
      exact (Multiset.coe_eq_coe.2 (List.perm_append_singleton _ _)).symm
    · refine List.pairwise_append.2 ⟨h.ascending, List.pairwise_singleton .., ?_⟩
      intro g accepted last mem
      cases List.mem_singleton.1 mem
      exact h.bounded g accepted
    · intro g mem
      rcases List.mem_append.1 mem with old | new
      · exact Nat.lt_succ_of_lt (h.bounded g old)
      · cases List.mem_singleton.1 new
        exact Nat.lt_succ_self _
  | @poke views nextId untimed le same =>
    have held_eq : held views = held l.views := by
      rw [← held_blank, same, held_blank]
    refine ⟨?_, held_eq ▸ h.conserved, h.ascending,
      fun g mem => Nat.lt_of_lt_of_le (h.bounded g mem) le⟩
    rw [← orderly_blank, same, orderly_blank]
    exact h.orderly

theorem Steps.numbering (steps : Steps expander true l l') :
    ∃ more, l'.accepted = l.accepted ++ more ∧ l'.nextId = l.nextId + more.length := by
  induction steps with
  | refl => exact ⟨[], (List.append_nil _).symm, rfl⟩
  | @tail mid _ _ step ih =>
    obtain ⟨more, accepted, nextId⟩ := ih
    cases step with
    | move => exact ⟨more, accepted, nextId⟩
    | receive access issued =>
      refine ⟨more ++ [⟨mid.nextId, access, issued⟩], ?_, ?_⟩
      · rw [← List.append_assoc, ← accepted]
      · rw [List.length_append, ← Nat.add_assoc, ← nextId]
        rfl
    | poke untimed => cases untimed

theorem Balanced.steps (h : l.Balanced expander) (steps : Steps expander timed l l') :
    l'.Balanced expander := by
  induction steps with
  | refl => exact h
  | tail _ step ih => exact ih.step step

end Ledger

end Expander
