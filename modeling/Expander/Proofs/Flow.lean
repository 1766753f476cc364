import Expander.Proofs.Stage.View
import Expander.Proofs.Transaction

/-!
The flow of packets through a chain of stages.

The stages are given by their views, system memory first and the front last. In one move a request
goes to the stage behind, or a response to the stage in front or to the host; and the host hands a
request to system memory or to the front. No move loses a transaction or makes one up
(`Flow.held_eq`), and the room that the front has reserved is exactly what its requests and
responses in the expander need (`Orderly`).
-/

set_option autoImplicit false

namespace Expander

def StageView.release (v : StageView) : StageView :=
  { v with reserved := v.reserved - if v.frame.reserves then 1 else 0 }

def FacesHost (behind : List StageView) (v : StageView) (front : List StageView) : Prop :=
  (behind = [] ∧ v.frame.reserves = false) ∨ (behind ≠ [] ∧ front = [])

/-- The moves of packets among the stages; a packet may leave to the host. -/
inductive Flow : List StageView → List StageView → List Packet → Prop where
  | still (views : List StageView) : Flow views views []
  /-- A request goes to the stage behind. -/
  | request {behind front : List StageView} (lower upper : StageView) (p : Packet) :
      behind ≠ [] → Flow
        (behind ++ lower :: { upper with requests := p :: upper.requests } :: front)
        (behind ++ lower.receive p :: upper :: front) []
  /-- A response goes to the stage in front. -/
  | response {behind front : List StageView} (lower upper : StageView) (p : Packet) :
      behind ≠ [] → Flow
        (behind ++ { lower with answers := p ::ₘ lower.answers } :: upper :: front)
        (behind ++ lower :: { upper with answers := p ::ₘ upper.answers } :: front) []
  /-- A response goes to the host. -/
  | complete {behind front : List StageView} {v : StageView} {p : Packet} :
      FacesHost behind v front → Flow
        (behind ++ { v with answers := p ::ₘ v.answers } :: front)
        (behind ++ v.release :: front) [p]

/-- The host hands a request to a stage that serves it. -/
inductive Admitted (p : Packet) : List StageView → List StageView → Prop where
  | mk {behind front : List StageView} {v : StageView} :
      FacesHost behind v front → Admitted p (behind ++ v :: front) (behind ++ v.receive p :: front)

def held : List StageView → Multiset Transaction
  | [] => 0
  | v :: views => v.packets.map Packet.transaction + held views

theorem held_cons (v : StageView) (views : List StageView) :
    held (v :: views) = v.packets.map Packet.transaction + held views := rfl

theorem held_append (first second : List StageView) :
    held (first ++ second) = held first + held second := by
  induction first with
  | nil => exact (Multiset.zero_add _).symm
  | cons v rest ih => rw [List.cons_append, held_cons, held_cons, ih, Multiset.add_assoc]

theorem packets_request (v : StageView) (p : Packet) :
    { v with requests := p :: v.requests }.packets = p ::ₘ v.packets := by
  simp only [StageView.packets, ← Multiset.cons_coe, Multiset.cons_add]

theorem packets_answer (v : StageView) (p : Packet) :
    { v with answers := p ::ₘ v.answers }.packets = p ::ₘ v.packets := by
  simp only [StageView.packets, Multiset.add_cons]

theorem packets_release (v : StageView) : v.release.packets = v.packets := rfl

theorem transactions_receive (v : StageView) (p : Packet) :
    (v.receive p).packets.map Packet.transaction =
      p.transaction ::ₘ v.packets.map Packet.transaction := by
  rw [StageView.receive]
  split
  · simp only [StageView.packets, coe_append_singleton, Multiset.cons_add, Multiset.map_cons,
      Packet.bare_transaction]
  · simp only [StageView.packets, Multiset.add_cons, Multiset.map_cons, StageView.answer,
      Packet.transaction_respond, Packet.bare_transaction]

variable {views views' : List StageView} {out : List Packet} {p : Packet}

theorem Flow.held_eq (h : Flow views views' out) :
    held views = (out.map Packet.transaction : List Transaction) + held views' := by
  cases h with
  | still => exact (Multiset.zero_add _).symm
  | request =>
    simp only [held_append, held_cons, transactions_receive, packets_request, Multiset.map_cons,
      List.map_nil, Multiset.coe_nil, Multiset.zero_add, Multiset.cons_add, Multiset.add_cons]
  | response =>
    simp only [held_append, held_cons, packets_answer, Multiset.map_cons, List.map_nil,
      Multiset.coe_nil, Multiset.zero_add, Multiset.cons_add, Multiset.add_cons]
  | complete =>
    simp only [held_append, held_cons, packets_answer, packets_release, Multiset.map_cons,
      List.map_cons, List.map_nil, Multiset.coe_singleton, Multiset.cons_add, Multiset.add_cons,
      Multiset.singleton_add]

theorem Admitted.held_eq (h : Admitted p views views') :
    held views' = p.transaction ::ₘ held views := by
  obtain ⟨-⟩ := h
  simp only [held_append, held_cons, transactions_receive, Multiset.cons_add, Multiset.add_cons]

variable {expander : AddressRange} {v lower upper : StageView} {behind front : List StageView}

@[simp] theorem frame_receive (v : StageView) (p : Packet) : (v.receive p).frame = v.frame := by
  rw [StageView.receive]
  split <;> rfl

theorem mem_requests_receive {q : Packet} (h : q ∈ (v.receive p).requests) :
    q ∈ v.requests ∨ (v.frame.held? = none ∧ q = p.bare) := by
  rw [StageView.receive] at h
  split at h
  · rename_i passes
    rcases List.mem_append.1 h with old | new
    · exact .inl old
    · exact .inr ⟨passes, List.mem_singleton.1 new⟩
  · exact .inl h

theorem requests_receive_of_held (h : v.frame.held? ≠ none) (p : Packet) :
    (v.receive p).requests = v.requests := by
  rw [StageView.receive]
  split
  · rename_i passes
    exact absurd passes h
  · rfl

theorem reserved_receive (v : StageView) (p : Packet) :
    (v.receive p).reserved = v.reserved + if v.frame.reserves then 1 else 0 := by
  rw [StageView.receive]
  split
  · rfl
  · rename_i range holds
    cases h : v.frame <;> simp [h, StageFrame.held?, StageFrame.reserves] at holds ⊢

theorem getLast?_append_cons (behind : List StageView) (v : StageView)
    (front : List StageView) : (behind ++ v :: front).getLast? = (v :: front).getLast? := by
  rw [List.getLast?_append, List.getLast?_cons]
  rfl

def Reserved (views : List StageView) : Prop :=
  ∀ v, views.getLast? = some v → v.frame.reserves = true → v.reserved = (held views.tail).card

private theorem Reserved.pass {lower' upper' : StageView} (inner : behind ≠ [])
    (h : Reserved (behind ++ lower :: upper :: front)) (frame : upper'.frame = upper.frame)
    (reserved : upper'.reserved = upper.reserved)
    (card : ∀ rest, (held (rest ++ lower' :: upper' :: front)).card =
      (held (rest ++ lower :: upper :: front)).card) :
    Reserved (behind ++ lower' :: upper' :: front) := by
  intro v last reserves
  rw [getLast?_append_cons] at last
  -- The front may be the stage that takes part in the move; its reservation is the same anyway.
  have before : ∃ w, (behind ++ lower :: upper :: front).getLast? = some w ∧
      w.frame = v.frame ∧ w.reserved = v.reserved := by
    rw [getLast?_append_cons]
    cases front with
    | nil =>
      cases last
      exact ⟨upper, rfl, frame.symm, reserved.symm⟩
    | cons next others => exact ⟨v, last, rfl, rfl⟩
  obtain ⟨w, last', sameFrame, sameReserved⟩ := before
  rw [← sameReserved, h w last' (sameFrame ▸ reserves)]
  obtain ⟨first, rest, rfl⟩ := List.exists_cons_of_ne_nil inner
  exact (card rest).symm

private theorem reserved_complete (faces : FacesHost behind v front)
    (h : Reserved (behind ++ { v with answers := p ::ₘ v.answers } :: front)) :
    Reserved (behind ++ v.release :: front) := by
  intro w last reserves
  rw [getLast?_append_cons] at last
  -- System memory reserves nothing, and is the front only where it stands alone.
  rcases faces with ⟨rfl, free⟩ | ⟨inner, rfl⟩
  · cases front with
    | nil =>
      have same : v.release = w := Option.some.inj last
      subst same
      exact absurd (free.symm.trans reserves) nofun
    | cons next others => exact h w last reserves
  · have same : v.release = w := Option.some.inj last
    subst same
    have reserves' : v.frame.reserves = true := reserves
    have before := h { v with answers := p ::ₘ v.answers } (getLast?_append_cons ..) reserves
    obtain ⟨first, rest, rfl⟩ := List.exists_cons_of_ne_nil inner
    simp only [List.cons_append, List.tail_cons, held_append, held_cons, packets_answer,
      Multiset.map_cons, Multiset.cons_add, Multiset.add_cons, Multiset.card_cons] at before
    have freed : v.release.reserved = v.reserved - 1 := by
      rw [StageView.release, if_pos reserves']
    rw [freed, before, Nat.add_sub_cancel, List.cons_append, List.tail_cons, held_append, held_cons,
      packets_release]

private theorem reserved_admitted (faces : FacesHost behind v front)
    (h : Reserved (behind ++ v :: front)) : Reserved (behind ++ v.receive p :: front) := by
  intro w last reserves
  rw [getLast?_append_cons] at last
  rcases faces with ⟨rfl, free⟩ | ⟨inner, rfl⟩
  · cases front with
    | nil =>
      have same : v.receive p = w := Option.some.inj last
      subst same
      rw [frame_receive] at reserves
      exact absurd (free.symm.trans reserves) nofun
    | cons next others => exact h w last reserves
  · have same : v.receive p = w := Option.some.inj last
    subst same
    rw [frame_receive] at reserves
    rw [reserved_receive, h v (getLast?_append_cons ..) reserves, if_pos reserves]
    obtain ⟨first, rest, rfl⟩ := List.exists_cons_of_ne_nil inner
    simp only [List.cons_append, List.tail_cons, held_append, held_cons, transactions_receive,
      Multiset.cons_add, Multiset.add_cons, Multiset.card_cons]

/-- What the stages hold fits together. -/
structure Orderly (expander : AddressRange) (views : List StageView) : Prop where
  /-- Only requests to the expander wait to be sent on. -/
  confined : ∀ v ∈ views, ∀ p ∈ v.requests, expander.containsAccess p.addr p.size = true
  /-- No number is held twice. -/
  distinct : ((held views).map Transaction.id).Nodup
  /-- The front has reserved room for every response that the expander owes. -/
  reserved : Reserved views
  /-- A stage that performs accesses sends no request on. -/
  ending : ∀ v ∈ views, v.frame.held? ≠ none → v.requests = []

theorem Orderly.ids_ne {w : StageView} {q r : Packet}
    (h : Orderly expander (behind ++ v :: w :: front)) (hq : q ∈ v.packets) (hr : r ∈ w.packets) :
    q.id ≠ r.id := by
  obtain ⟨others, split⟩ := Multiset.exists_cons_of_mem hq
  have distinct := h.distinct
  rw [held_append, held_cons, held_cons, split, Multiset.map_cons, Multiset.cons_add,
    Multiset.add_cons, Multiset.map_cons, Multiset.nodup_cons] at distinct
  intro eq
  refine distinct.1 (Multiset.mem_map.2 ⟨r.transaction, ?_, eq.symm⟩)
  have mem : r.transaction ∈ w.packets.map Packet.transaction := Multiset.mem_map_of_mem _ hr
  simp only [Multiset.mem_add]
  exact .inr (.inr (.inl mem))

/-- Every move keeps what the stages hold in order. -/
theorem Orderly.flow (h : Orderly expander views) (flow : Flow views views' out) :
    Orderly expander views' := by
  have distinct : ((held views').map Transaction.id).Nodup := by
    have all := h.distinct
    rw [flow.held_eq, Multiset.map_add] at all
    exact Multiset.nodup_of_le (Multiset.le_add_left _ _) all
  have confined := h.confined
  have ending := h.ending
  cases flow with
  | still => exact h
  | request lower upper p inner =>
    simp only [List.forall_mem_append, List.forall_mem_cons] at confined ending
    obtain ⟨behind, below, above, front⟩ := confined
    obtain ⟨behindEnds, lowerEnds, upperEnds, frontEnds⟩ := ending
    refine ⟨?_, distinct, h.reserved.pass inner rfl rfl fun rest => ?_, ?_⟩
    · simp only [List.forall_mem_append, List.forall_mem_cons]
      refine ⟨behind, fun q waits => ?_, above.2, front⟩
      rcases mem_requests_receive waits with old | ⟨-, rfl⟩
      · exact below q old
      · exact above.1
    · simp only [held_append, held_cons, transactions_receive, packets_request, Multiset.map_cons,
        Multiset.cons_add, Multiset.add_cons, Multiset.card_cons]
    · simp only [List.forall_mem_append, List.forall_mem_cons, frame_receive]
      refine ⟨behindEnds, fun holds => ?_, fun holds => ?_, frontEnds⟩
      · rw [requests_receive_of_held holds]
        exact lowerEnds holds
      -- The stage in front has just sent a request on, so it is none that performs accesses.
      · exact absurd (upperEnds holds) (List.cons_ne_nil _ _)
  | response lower upper p inner =>
    simp only [List.forall_mem_append, List.forall_mem_cons] at confined ending
    refine ⟨?_, distinct, h.reserved.pass inner rfl rfl fun rest => ?_, ?_⟩
    · simpa only [List.forall_mem_append, List.forall_mem_cons] using confined
    · simp only [held_append, held_cons, packets_answer, Multiset.map_cons, Multiset.cons_add,
        Multiset.add_cons, Multiset.card_cons]
    · simpa only [List.forall_mem_append, List.forall_mem_cons] using ending
  | complete faces =>
    simp only [List.forall_mem_append, List.forall_mem_cons] at confined ending
    refine ⟨?_, distinct, reserved_complete faces h.reserved, ?_⟩
    · simp only [List.forall_mem_append, List.forall_mem_cons]
      exact confined
    · simp only [List.forall_mem_append, List.forall_mem_cons]
      exact ending

/-- An admission keeps what the stages hold in order, if the number is new, and the stage that sends
the request on is one of the expander. -/
theorem Orderly.admitted (h : Orderly expander (behind ++ v :: front))
    (faces : FacesHost behind v front)
    (fresh : p.id ∉ (held (behind ++ v :: front)).map Transaction.id)
    (inside : v.frame.held? = none → expander.containsAccess p.addr p.size = true) :
    Orderly expander (behind ++ v.receive p :: front) := by
  have confined := h.confined
  have ending := h.ending
  simp only [List.forall_mem_append, List.forall_mem_cons] at confined ending
  obtain ⟨behindIn, vIn, frontIn⟩ := confined
  obtain ⟨behindEnds, vEnds, frontEnds⟩ := ending
  refine ⟨?_, ?_, reserved_admitted faces h.reserved, ?_⟩
  · simp only [List.forall_mem_append, List.forall_mem_cons]
    refine ⟨behindIn, fun q waits => ?_, frontIn⟩
    rcases mem_requests_receive waits with old | ⟨passes, rfl⟩
    · exact vIn q old
    · exact inside passes
  · rw [Admitted.held_eq (.mk faces), Multiset.map_cons]
    exact Multiset.nodup_cons.2 ⟨fresh, h.distinct⟩
  · simp only [List.forall_mem_append, List.forall_mem_cons, frame_receive]
    refine ⟨behindEnds, fun holds => ?_, frontEnds⟩
    rw [requests_receive_of_held holds]
    exact vEnds holds

end Expander
