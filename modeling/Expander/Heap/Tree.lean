/-!
Binary trees whose top is the value that leaves next.

A value that is added rises past the values that it must precede, and a value that takes the top
sinks along the values that leave first, the right one of two of equal rank. An insertion adds its
value and nothing else (`toList_insertAt`), a removal takes one value out (`toList_removeAt`), and
sinking exchanges the top (`toList_sink`).
-/

set_option autoImplicit false

namespace Expander

variable {α : Type}

/-- A binary tree with a value at every node. -/
inductive Tree (α : Type) where
  | empty
  | node (left : Tree α) (value : α) (right : Tree α)
deriving Repr

namespace Tree

def toList : Tree α → List α
  | empty => []
  | node left value right => value :: (left.toList ++ right.toList)

def top? : Tree α → Option α
  | empty => none
  | node _ value _ => some value

/-- The tree with a value over a left part whose top goes up if it must precede the value. -/
def riseLeft (before : α → α → Bool) (value : α) (right : Tree α) : Tree α → Tree α
  | empty => node empty value right
  | node l w r =>
    if before w value then node (node l value r) w right else node (node l w r) value right

/-- The tree with a value over a right part whose top goes up if it must precede the value. -/
def riseRight (before : α → α → Bool) (left : Tree α) (value : α) : Tree α → Tree α
  | empty => node left value empty
  | node l w r =>
    if before w value then node left w (node l value r) else node left value (node l w r)

/-- Adds `x` at a place that is reached by turns, `true` to the right, and lets it rise. -/
def insertAt (before : α → α → Bool) (x : α) : List Bool → Tree α → Tree α
  | _, empty => node empty x empty
  | turns, node left value right =>
    if turns.headD false then riseRight before left value (insertAt before x turns.tail right)
    else riseLeft before value right (insertAt before x turns.tail left)

/-- Removes the value at the end of some turns; a turn that leads nowhere is taken the other way. -/
def removeAt : List Bool → Tree α → Option (α × Tree α)
  | _, empty => none
  | turns, node left value right =>
    if turns.headD false then
      match removeAt turns.tail right with
      | some (x, rest) => some (x, node left value rest)
      | none =>
        match removeAt turns.tail left with
        | some (x, rest) => some (x, node rest value right)
        | none => some (value, empty)
    else
      match removeAt turns.tail left with
      | some (x, rest) => some (x, node rest value right)
      | none =>
        match removeAt turns.tail right with
        | some (x, rest) => some (x, node left value rest)
        | none => some (value, empty)

/-- Whether the top of the left part leaves before that of the right part. -/
def leftFirst (before : α → α → Bool) (left right : Tree α) : Bool :=
  match left.top?, right.top? with
  | some a, some b => before a b
  | some _, none => true
  | none, _ => false

/-- Replaces the top by `x`, and lets it sink. -/
def sink (before : α → α → Bool) (x : α) : Tree α → Tree α
  | empty => empty
  | node left _ right =>
    if leftFirst before left right then
      match left.top? with
      | some a => if before x a then node left x right else node (sink before x left) a right
      | none => node left x right
    else
      match right.top? with
      | some b => if before x b then node left x right else node left b (sink before x right)
      | none => node left x right

theorem toList_riseLeft (before : α → α → Bool) (value : α) (right t : Tree α) :
    (riseLeft before value right t).toList.Perm (value :: (t.toList ++ right.toList)) := by
  cases t with
  | empty => exact .refl _
  | node l w r =>
    rw [riseLeft]
    split
    · exact .swap _ _ _
    · exact .refl _

theorem toList_riseRight (before : α → α → Bool) (left : Tree α) (value : α) (t : Tree α) :
    (riseRight before left value t).toList.Perm (value :: (left.toList ++ t.toList)) := by
  cases t with
  | empty => exact .refl _
  | node l w r =>
    rw [riseRight]
    split
    · have pulled (x : α) : (left.toList ++ x :: (l.toList ++ r.toList)).Perm
          (x :: (left.toList ++ (l.toList ++ r.toList))) := List.perm_middle
      have below := (pulled value).cons w
      exact below.trans ((List.Perm.swap value w _).trans ((pulled w).symm.cons value))
    · exact .refl _

theorem toList_insertAt (before : α → α → Bool) (x : α) (turns : List Bool) (t : Tree α) :
    (insertAt before x turns t).toList.Perm (x :: t.toList) := by
  induction t generalizing turns with
  | empty => exact .refl _
  | node left value right ihl ihr =>
    rw [insertAt]
    split
    · have inserted := (ihr turns.tail).append_left left.toList
      refine (toList_riseRight ..).trans ?_
      exact ((inserted.trans List.perm_middle).cons value).trans (.swap x value _)
    · have inserted := (ihl turns.tail).append_right right.toList
      exact (toList_riseLeft ..).trans ((inserted.cons value).trans (.swap x value _))

theorem removeAt_eq_none {t : Tree α} {turns : List Bool} (h : removeAt turns t = none) :
    t = empty := by
  cases t with
  | empty => rfl
  | node left value right =>
    rw [removeAt] at h
    split at h <;> split at h <;> first | cases h | (split at h <;> cases h)

/-- What a removal from a node leaves: it comes from the left, from the right, or from a node
without parts below it. -/
theorem removeAt_node {turns : List Bool} {left right rest : Tree α} {value x : α}
    (h : removeAt turns (node left value right) = some (x, rest)) :
    (∃ l, removeAt turns.tail left = some (x, l) ∧ rest = node l value right) ∨
      (∃ r, removeAt turns.tail right = some (x, r) ∧ rest = node left value r) ∨
      (left = empty ∧ right = empty ∧ x = value ∧ rest = empty) := by
  rw [removeAt] at h
  split at h
  · split at h
    next y r hr =>
      cases h
      exact .inr (.inl ⟨r, hr, rfl⟩)
    next hr =>
      split at h
      next y l hl =>
        cases h
        exact .inl ⟨l, hl, rfl⟩
      next hl =>
        cases h
        exact .inr (.inr ⟨removeAt_eq_none hl, removeAt_eq_none hr, rfl, rfl⟩)
  · split at h
    next y l hl =>
      cases h
      exact .inl ⟨l, hl, rfl⟩
    next hl =>
      split at h
      next y r hr =>
        cases h
        exact .inr (.inl ⟨r, hr, rfl⟩)
      next hr =>
        cases h
        exact .inr (.inr ⟨removeAt_eq_none hl, removeAt_eq_none hr, rfl, rfl⟩)

theorem toList_removeAt {t rest : Tree α} {turns : List Bool} {x : α}
    (h : removeAt turns t = some (x, rest)) : t.toList.Perm (x :: rest.toList) := by
  induction t generalizing turns x rest with
  | empty => cases h
  | node left value right ihl ihr =>
    rcases removeAt_node h with ⟨l, hl, rfl⟩ | ⟨r, hr, rfl⟩ | ⟨rfl, rfl, rfl, rfl⟩
    · exact (((ihl hl).append_right right.toList).cons value).trans (.swap x value _)
    · have moved := ((ihr hr).append_left left.toList).trans List.perm_middle
      exact (moved.cons value).trans (.swap x value _)
    · exact .refl _

theorem top?_removeAt {t rest : Tree α} {turns : List Bool} {x : α}
    (h : removeAt turns t = some (x, rest)) :
    rest.top? = t.top? ∨ rest = empty ∧ t.top? = some x := by
  cases t with
  | empty => cases h
  | node left value right =>
    rcases removeAt_node h with ⟨l, _, rfl⟩ | ⟨r, _, rfl⟩ | ⟨_, _, rfl, rfl⟩
    · exact .inl rfl
    · exact .inl rfl
    · exact .inr ⟨rfl, rfl⟩

theorem toList_sink (before : α → α → Bool) (x : α) {t : Tree α} {a : α} (h : t.top? = some a) :
    (a :: (sink before x t).toList).Perm (x :: t.toList) := by
  induction t generalizing a with
  | empty => cases h
  | node left value right ihl ihr =>
    have hva : value = a := Option.some.inj h
    subst hva
    have placed (l : List α) : (value :: x :: l).Perm (x :: value :: l) := .swap x value l
    rw [sink]
    split
    · split
      next b hb =>
        split
        · exact placed _
        · have sunk := (ihl hb).append_right right.toList
          exact (sunk.cons value).trans (placed _)
      next => exact placed _
    · split
      next b hb =>
        split
        · exact placed _
        · have sunk := List.perm_middle.symm.trans ((ihr hb).append_left left.toList)
          exact ((sunk.trans List.perm_middle).cons value).trans (placed _)
      next => exact placed _

end Tree

end Expander
