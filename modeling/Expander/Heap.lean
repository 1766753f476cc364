import Expander.Heap.Order

/-!
Binary heaps: ordered trees that are filled level by level, each level from the left.

A new value takes the next free place and rises. When the top leaves, the value of the last place
takes the top and sinks. What leaves is a first value of the heap (`pop?_first`), something leaves
as long as there is a value (`pop?_eq_none_iff`), and nothing is lost or added (`push_perm`,
`pop?_perm`). Only values of equal rank leave in an order that the shape of the tree decides.
-/

set_option autoImplicit false

namespace Expander

variable {α : Type}

/-- A heap: the number of its values, and the tree that holds them. -/
structure Heap (α : Type) where
  size : Nat := 0
  /-- The values, the next to leave at the top. -/
  tree : Tree α := .empty

namespace Heap

/-- The turns to the place with a number; the top has number one, and the places below a place have
twice its number and one more than that. -/
def turnsTo (place : Nat) : List Bool := ((Nat.toDigits 2 place).drop 1).map (· == '1')

def toList (h : Heap α) : List α := h.tree.toList

/-- The value that leaves next. -/
def top? (h : Heap α) : Option α := h.tree.top?

def push (before : α → α → Bool) (h : Heap α) (x : α) : Heap α :=
  ⟨h.size + 1, h.tree.insertAt before x (turnsTo (h.size + 1))⟩

/-- The value that leaves next, and the heap without it. -/
def pop? (before : α → α → Bool) (h : Heap α) : Option (α × Heap α) :=
  match h.tree.top?, h.tree.removeAt (turnsTo h.size) with
  | some top, some (last, rest) => some (top, ⟨h.size - 1, rest.sink before last⟩)
  | _, _ => none

/-- No value precedes the one above it. -/
def Ordered (before : α → α → Bool) (h : Heap α) : Prop := h.tree.Ordered before

theorem push_perm (before : α → α → Bool) (h : Heap α) (x : α) :
    (h.push before x).toList.Perm (x :: h.toList) :=
  Tree.toList_insertAt ..

theorem Ordered.push {before : α → α → Bool} (ranking : IsRanking before) {h : Heap α}
    (ordered : h.Ordered before) (x : α) : (h.push before x).Ordered before :=
  Tree.Ordered.insertAt ranking x _ ordered

theorem pop?_eq_none_iff {before : α → α → Bool} {h : Heap α} :
    h.pop? before = none ↔ h.toList = [] := by
  rw [pop?, toList]
  cases htree : h.tree with
  | empty => exact ⟨fun _ => rfl, fun _ => rfl⟩
  | node left value right =>
    refine ⟨fun hnone => ?_, fun hnil => by cases hnil⟩
    cases hremove : Tree.removeAt (turnsTo h.size) (.node left value right) with
    | none => cases Tree.removeAt_eq_none hremove
    | some removed =>
      rw [hremove] at hnone
      cases hnone

/-- The parts of a pop: the top leaves, and the value of the last place sinks from there. -/
theorem pop?_parts {before : α → α → Bool} {h rest : Heap α} {x : α}
    (hpop : h.pop? before = some (x, rest)) :
    ∃ last tree, h.tree.top? = some x ∧
      h.tree.removeAt (turnsTo h.size) = some (last, tree) ∧
      rest.tree = tree.sink before last := by
  rw [pop?] at hpop
  split at hpop
  next top last tree htop hremove =>
    cases hpop
    exact ⟨last, tree, htop, hremove, rfl⟩
  next => cases hpop

theorem pop?_perm {before : α → α → Bool} {h rest : Heap α} {x : α}
    (hpop : h.pop? before = some (x, rest)) : h.toList.Perm (x :: rest.toList) := by
  obtain ⟨last, tree, htop, hremove, hrest⟩ := pop?_parts hpop
  have removed := Tree.toList_removeAt hremove
  rw [toList, toList, hrest]
  rcases Tree.top?_removeAt hremove with hsame | ⟨rfl, hlast⟩
  · exact removed.trans (Tree.toList_sink before last (hsame.trans htop)).symm
  · cases htop.symm.trans hlast
    exact removed

theorem Ordered.pop? {before : α → α → Bool} (ranking : IsRanking before) {h rest : Heap α} {x : α}
    (ordered : h.Ordered before) (hpop : h.pop? before = some (x, rest)) :
    rest.Ordered before := by
  obtain ⟨last, tree, -, hremove, hrest⟩ := pop?_parts hpop
  rw [Heap.Ordered, hrest]
  exact Tree.Ordered.sink ranking last (Tree.Ordered.removeAt ordered hremove)

/-- No value of a heap precedes the one that a pop takes. -/
theorem pop?_first {before : α → α → Bool} (ranking : IsRanking before) {h rest : Heap α} {x : α}
    (ordered : h.Ordered before) (hpop : h.pop? before = some (x, rest)) {y : α}
    (hy : y ∈ h.toList) : before y x = false := by
  obtain ⟨_, _, htop, -, -⟩ := pop?_parts hpop
  exact Tree.Ordered.top_first ranking ordered htop hy

end Heap

end Expander
