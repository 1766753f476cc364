import Expander.Heap.Tree
import Expander.StableOrder

/-!
Ordered trees: no value precedes the one above it, so none precedes the top (`Ordered.top_first`).
Insertions, removals and sinking keep a tree ordered.
-/

set_option autoImplicit false

namespace Expander

variable {α : Type}

namespace Tree

/-- No value precedes the one above it. -/
def Ordered (before : α → α → Bool) : Tree α → Prop
  | empty => True
  | node left value right =>
    (∀ x ∈ left.toList ++ right.toList, before x value = false) ∧
      left.Ordered before ∧ right.Ordered before

namespace Ordered

variable {before : α → α → Bool}

theorem top_first (ranking : IsRanking before) {t : Tree α} (h : t.Ordered before) {a : α}
    (ha : t.top? = some a) {x : α} (hx : x ∈ t.toList) : before x a = false := by
  cases t with
  | empty => cases ha
  | node left value right =>
    cases ha
    cases List.mem_cons.1 hx with
    | inl hxa => exact hxa ▸ ranking.irrefl _
    | inr hx => exact h.1 x hx

/-- A tree whose top is not in order yet rises into order on the left. -/
theorem riseLeft (ranking : IsRanking before) {x value : α} {others : List α} {right t : Tree α}
    (ht : t.Ordered before) (hright : right.Ordered before)
    (hperm : t.toList.Perm (x :: others)) (hothers : ∀ y ∈ others, before y value = false)
    (habove : ∀ y ∈ right.toList, before y value = false) :
    (Tree.riseLeft before value right t).Ordered before := by
  cases t with
  | empty =>
    refine ⟨fun y hy => ?_, trivial, hright⟩
    exact habove y hy
  | node l w r =>
    rw [Tree.riseLeft]
    have hw : w ∈ x :: others := hperm.mem_iff.1 (List.mem_cons_self ..)
    split
    next hwv =>
      have hwx : w = x := by
        cases List.mem_cons.1 hw with
        | inl hwx => exact hwx
        | inr hw => exact absurd hwv (by rw [hothers w hw]; exact Bool.false_ne_true)
      subst hwx
      have below : (l.toList ++ r.toList).Perm others := hperm.cons_inv
      have hvw : before value w = false := ranking.asymm w value hwv
      refine ⟨fun y hy => ?_, ⟨fun y hy => hothers y (below.mem_iff.1 hy), ht.2⟩, hright⟩
      cases List.mem_append.1 hy with
      | inl hy =>
        cases List.mem_cons.1 hy with
        | inl hyv => exact hyv ▸ hvw
        | inr hy => exact ht.1 y hy
      | inr hy => exact ranking.trans y value w (habove y hy) hvw
    next hwv =>
      have hwv' : before w value = false := Bool.eq_false_iff.2 hwv
      refine ⟨fun y hy => ?_, ht, hright⟩
      cases List.mem_append.1 hy with
      | inl hy => exact ranking.trans y w value (ht.top_first ranking rfl hy) hwv'
      | inr hy => exact habove y hy

theorem riseRight (ranking : IsRanking before) {x value : α} {others : List α} {left t : Tree α}
    (ht : t.Ordered before) (hleft : left.Ordered before)
    (hperm : t.toList.Perm (x :: others)) (hothers : ∀ y ∈ others, before y value = false)
    (habove : ∀ y ∈ left.toList, before y value = false) :
    (Tree.riseRight before left value t).Ordered before := by
  cases t with
  | empty =>
    refine ⟨fun y hy => ?_, hleft, trivial⟩
    exact habove y (by rwa [Tree.toList, List.append_nil] at hy)
  | node l w r =>
    rw [Tree.riseRight]
    have hw : w ∈ x :: others := hperm.mem_iff.1 (List.mem_cons_self ..)
    split
    next hwv =>
      have hwx : w = x := by
        cases List.mem_cons.1 hw with
        | inl hwx => exact hwx
        | inr hw => exact absurd hwv (by rw [hothers w hw]; exact Bool.false_ne_true)
      subst hwx
      have below : (l.toList ++ r.toList).Perm others := hperm.cons_inv
      have hvw : before value w = false := ranking.asymm w value hwv
      refine ⟨fun y hy => ?_, hleft, ⟨fun y hy => hothers y (below.mem_iff.1 hy), ht.2⟩⟩
      cases List.mem_append.1 hy with
      | inl hy => exact ranking.trans y value w (habove y hy) hvw
      | inr hy =>
        cases List.mem_cons.1 hy with
        | inl hyv => exact hyv ▸ hvw
        | inr hy => exact ht.1 y hy
    next hwv =>
      have hwv' : before w value = false := Bool.eq_false_iff.2 hwv
      refine ⟨fun y hy => ?_, hleft, ht⟩
      cases List.mem_append.1 hy with
      | inl hy => exact habove y hy
      | inr hy => exact ranking.trans y w value (ht.top_first ranking rfl hy) hwv'

theorem insertAt (ranking : IsRanking before) (x : α) (turns : List Bool) {t : Tree α}
    (h : t.Ordered before) : (Tree.insertAt before x turns t).Ordered before := by
  induction t generalizing turns with
  | empty => exact ⟨fun y hy => (List.not_mem_nil hy).elim, trivial, trivial⟩
  | node left value right ihl ihr =>
    obtain ⟨habove, hleft, hright⟩ := h
    have hl (y : α) (hy : y ∈ left.toList) := habove y (List.mem_append_left _ hy)
    have hr (y : α) (hy : y ∈ right.toList) := habove y (List.mem_append_right _ hy)
    rw [Tree.insertAt]
    split
    · exact riseRight ranking (ihr _ hright) hleft (toList_insertAt ..) hr hl
    · exact riseLeft ranking (ihl _ hleft) hright (toList_insertAt ..) hl hr

theorem removeAt {turns : List Bool} {x : α} {t rest : Tree α} (h : t.Ordered before)
    (hremove : Tree.removeAt turns t = some (x, rest)) : rest.Ordered before := by
  induction t generalizing turns x rest with
  | empty => cases hremove
  | node left value right ihl ihr =>
    obtain ⟨habove, hleft, hright⟩ := h
    rcases removeAt_node hremove with ⟨l, hl, rfl⟩ | ⟨r, hr, rfl⟩ | ⟨_, _, _, rfl⟩
    · refine ⟨fun y hy => habove y ?_, ihl hleft hl, hright⟩
      cases List.mem_append.1 hy with
      | inl hy =>
        exact List.mem_append_left _ ((toList_removeAt hl).mem_iff.2 (List.mem_cons_of_mem _ hy))
      | inr hy => exact List.mem_append_right _ hy
    · refine ⟨fun y hy => habove y ?_, hleft, ihr hright hr⟩
      cases List.mem_append.1 hy with
      | inl hy => exact List.mem_append_left _ hy
      | inr hy =>
        exact List.mem_append_right _ ((toList_removeAt hr).mem_iff.2 (List.mem_cons_of_mem _ hy))
    · trivial

theorem left_first (ranking : IsRanking before) {left right : Tree α} {a : α}
    (hleft : left.Ordered before) (hright : right.Ordered before) (ha : left.top? = some a)
    (hfirst : leftFirst before left right = true) {y : α} (hy : y ∈ left.toList ++ right.toList) :
    before y a = false := by
  cases List.mem_append.1 hy with
  | inl hy => exact hleft.top_first ranking ha hy
  | inr hy =>
    cases right with
    | empty => exact (List.not_mem_nil hy).elim
    | node rl b rr =>
      rw [leftFirst, ha] at hfirst
      exact ranking.trans y b a (hright.top_first ranking rfl hy) (ranking.asymm a b hfirst)

theorem right_first (ranking : IsRanking before) {left right : Tree α} {b : α}
    (hleft : left.Ordered before) (hright : right.Ordered before) (hb : right.top? = some b)
    (hfirst : ¬leftFirst before left right = true) {y : α}
    (hy : y ∈ left.toList ++ right.toList) : before y b = false := by
  cases List.mem_append.1 hy with
  | inl hy =>
    cases left with
    | empty => exact (List.not_mem_nil hy).elim
    | node ll a lr =>
      rw [leftFirst, hb] at hfirst
      exact ranking.trans y a b (hleft.top_first ranking rfl hy) (Bool.eq_false_iff.2 hfirst)
  | inr hy => exact hright.top_first ranking hb hy

theorem mem_sink {x a y : α} {t : Tree α} (ha : t.top? = some a)
    (hy : y ∈ (Tree.sink before x t).toList) : y = x ∨ y ∈ t.toList :=
  List.mem_cons.1 ((toList_sink before x ha).mem_iff.1 (List.mem_cons_of_mem a hy))

theorem sink (ranking : IsRanking before) (x : α) {t : Tree α} (h : t.Ordered before) :
    (Tree.sink before x t).Ordered before := by
  induction t with
  | empty => trivial
  | node left value right ihl ihr =>
    obtain ⟨-, hleft, hright⟩ := h
    rw [Tree.sink]
    split
    next hfirst =>
      split
      next a ha =>
        have first {y : α} := left_first (y := y) ranking hleft hright ha hfirst
        split
        next hxa =>
          have hax := ranking.asymm x a hxa
          exact ⟨fun y hy => ranking.trans y a x (first hy) hax, hleft, hright⟩
        next hxa =>
          refine ⟨fun y hy => ?_, ihl hleft, hright⟩
          cases List.mem_append.1 hy with
          | inl hy =>
            cases mem_sink ha hy with
            | inl hyx => exact hyx ▸ Bool.eq_false_iff.2 hxa
            | inr hy => exact first (List.mem_append_left _ hy)
          | inr hy => exact first (List.mem_append_right _ hy)
      next ha =>
        rw [leftFirst, ha] at hfirst
        cases hfirst
    next hfirst =>
      split
      next b hb =>
        have first {y : α} := right_first (y := y) ranking hleft hright hb hfirst
        split
        next hxb =>
          have hbx := ranking.asymm x b hxb
          exact ⟨fun y hy => ranking.trans y b x (first hy) hbx, hleft, hright⟩
        next hxb =>
          refine ⟨fun y hy => ?_, hleft, ihr hright⟩
          cases List.mem_append.1 hy with
          | inl hy => exact first (List.mem_append_left _ hy)
          | inr hy =>
            cases mem_sink hb hy with
            | inl hyx => exact hyx ▸ Bool.eq_false_iff.2 hxb
            | inr hy => exact first (List.mem_append_right _ hy)
      next hb =>
        cases right with
        | node rl b rr => cases hb
        | empty =>
          cases left with
          | node ll a lr => exact absurd rfl hfirst
          | empty => exact ⟨fun y hy => (List.not_mem_nil hy).elim, trivial, trivial⟩

end Ordered

end Tree

end Expander
