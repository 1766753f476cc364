/-!
Lists kept in order by insertion.

`insertStable` puts an element behind every element that it need not precede, so that elements of
equal rank stay in the order of their arrival. `sortStable` inserts one after the other. Both only
rearrange (`insertStable_perm`, `sortStable_perm`), and for a ranking both give lists in which
nothing precedes an element in front of it (`InOrder.insertStable`, `inOrder_sortStable`). Elements
may be left out before or after (`filter_sortStable`).
-/

set_option autoImplicit false

namespace Expander

variable {α : Type}

/-- Places `a` in front of the first element that it must precede. -/
def insertStable (before : α → α → Bool) (a : α) : List α → List α
  | [] => [a]
  | x :: rest => if before a x then a :: x :: rest else x :: insertStable before a rest

/-- The elements in order, those of equal rank as they came. -/
def sortStable (before : α → α → Bool) (elements : List α) : List α :=
  elements.foldl (fun sorted a => insertStable before a sorted) []

/-- No element precedes one in front of it. -/
def InOrder (before : α → α → Bool) (l : List α) : Prop :=
  l.Pairwise fun a b => before b a = false

/-- A comparison by rank: elements of equal rank precede each other in neither direction. -/
structure IsRanking (before : α → α → Bool) : Prop where
  /-- No two elements precede each other. -/
  asymm : ∀ a b, before a b = true → before b a = false
  /-- Where `a` does not precede `b` and `b` does not precede `c`, `a` does not precede `c`. -/
  trans : ∀ a b c, before a b = false → before b c = false → before a c = false

theorem IsRanking.irrefl {before : α → α → Bool} (ranking : IsRanking before) (a : α) :
    before a a = false := by
  cases h : before a a with
  | false => rfl
  | true => exact h ▸ ranking.asymm a a h

theorem IsRanking.byKey (key : α → Nat) : IsRanking fun a b => decide (key a < key b) where
  asymm a b h := by
    have hab : key a < key b := of_decide_eq_true h
    exact decide_eq_false (by omega)
  trans a b c hab hbc := by
    have hab' : ¬key a < key b := of_decide_eq_false hab
    have hbc' : ¬key b < key c := of_decide_eq_false hbc
    exact decide_eq_false (by omega)

theorem insertStable_perm (before : α → α → Bool) (a : α) (l : List α) :
    (insertStable before a l).Perm (a :: l) := by
  induction l with
  | nil => exact .refl _
  | cons x rest ih =>
    rw [insertStable]
    split
    · exact .refl _
    · exact (ih.cons x).trans (.swap a x rest)

theorem mem_insertStable {before : α → α → Bool} {a b : α} {l : List α} :
    b ∈ insertStable before a l ↔ b = a ∨ b ∈ l := by
  rw [(insertStable_perm before a l).mem_iff, List.mem_cons]

theorem InOrder.insertStable {before : α → α → Bool} (ranking : IsRanking before) {a : α}
    {l : List α} (h : InOrder before l) : InOrder before (insertStable before a l) := by
  induction l with
  | nil => exact List.pairwise_singleton _ a
  | cons x rest ih =>
    obtain ⟨hx, hrest⟩ := List.pairwise_cons.1 h
    rw [Expander.insertStable]
    split
    next hax =>
      have hxa : before x a = false := ranking.asymm a x hax
      refine List.pairwise_cons.2 ⟨fun y hy => ?_, h⟩
      cases List.mem_cons.1 hy with
      | inl hyx => exact hyx ▸ hxa
      | inr hy => exact ranking.trans y x a (hx y hy) hxa
    next hax =>
      have hax' : before a x = false := Bool.eq_false_iff.2 hax
      refine List.pairwise_cons.2 ⟨fun y hy => ?_, ih hrest⟩
      cases mem_insertStable.1 hy with
      | inl hya => exact hya ▸ hax'
      | inr hy => exact hx y hy

theorem foldl_insertStable_perm (before : α → α → Bool) (elements sorted : List α) :
    (elements.foldl (fun sorted a => insertStable before a sorted) sorted).Perm
      (elements ++ sorted) := by
  induction elements generalizing sorted with
  | nil => exact .refl _
  | cons a rest ih =>
    have inserted := (insertStable_perm before a sorted).append_left rest
    exact (ih _).trans (inserted.trans List.perm_middle)

theorem sortStable_perm (before : α → α → Bool) (elements : List α) :
    (sortStable before elements).Perm elements := by
  have h := foldl_insertStable_perm before elements []
  rwa [List.append_nil] at h

theorem inOrder_sortStable {before : α → α → Bool} (ranking : IsRanking before)
    (elements : List α) : InOrder before (sortStable before elements) := by
  suffices ∀ sorted : List α, InOrder before sorted →
      InOrder before (elements.foldl (fun sorted a => insertStable before a sorted) sorted) from
    this [] List.Pairwise.nil
  induction elements with
  | nil => exact fun sorted h => h
  | cons a rest ih => exact fun sorted h => ih _ (h.insertStable ranking)

section Keep

variable {β : Type} {before : α → α → Bool} {a : α} {l : List α} {keep : α → Bool}

theorem insertStable_of_first (first : ∀ b ∈ l, before a b = true) :
    insertStable before a l = a :: l := by
  cases l with
  | nil => rfl
  | cons b rest => rw [insertStable, first b List.mem_cons_self, if_pos rfl]

theorem filter_insertStable_of_not (drops : keep a = false) :
    (insertStable before a l).filter keep = l.filter keep := by
  induction l with
  | nil => simp [insertStable, drops]
  | cons b rest ih =>
    rw [insertStable]
    split
    · simp [drops]
    · rw [List.filter_cons, List.filter_cons, ih]

/-- Leaving elements out before an insertion comes to the same as leaving them out after. -/
theorem filter_insertStable (ranking : IsRanking before) (sorted : InOrder before l)
    (keeps : keep a = true) :
    (insertStable before a l).filter keep = insertStable before a (l.filter keep) := by
  induction l with
  | nil => simp [insertStable, keeps]
  | cons b rest ih =>
    obtain ⟨notBefore, sorted'⟩ := List.pairwise_cons.1 sorted
    rw [insertStable]
    split
    next early =>
      have first : ∀ c ∈ (b :: rest).filter keep, before a c = true := by
        intro c mem
        rcases List.mem_cons.1 (List.mem_filter.1 mem).1 with rfl | later
        · exact early
        · cases sooner : before a c with
          | true => rfl
          | false =>
            have late := ranking.trans a c b sooner (notBefore c later)
            exact absurd (late.symm.trans early) Bool.false_ne_true
      rw [insertStable_of_first first, List.filter_cons_of_pos keeps]
    next late =>
      cases kept : keep b with
      | false => rw [List.filter_cons_of_neg (kept ▸ Bool.false_ne_true),
          List.filter_cons_of_neg (kept ▸ Bool.false_ne_true), ih sorted']
      | true =>
        rw [List.filter_cons_of_pos kept, List.filter_cons_of_pos kept, insertStable, if_neg late,
          ih sorted']

theorem filter_sortStable (ranking : IsRanking before) (elements : List α) :
    (sortStable before elements).filter keep = sortStable before (elements.filter keep) := by
  have all (sorted : List α) (order : InOrder before sorted) :
      (elements.foldl (fun sorted a => insertStable before a sorted) sorted).filter keep =
        (elements.filter keep).foldl (fun sorted a => insertStable before a sorted)
          (sorted.filter keep) := by
    induction elements generalizing sorted with
    | nil => rfl
    | cons a rest ih =>
      rw [List.foldl_cons, ih _ (order.insertStable ranking)]
      cases keeps : keep a with
      | false =>
        rw [filter_insertStable_of_not keeps,
          List.filter_cons_of_neg (keeps ▸ Bool.false_ne_true)]
      | true =>
        rw [filter_insertStable ranking order keeps, List.filter_cons_of_pos keeps,
          List.foldl_cons]
  exact all [] List.Pairwise.nil

theorem sortStable_map {before' : β → β → Bool} {g : α → β}
    (same : ∀ a b, before' (g a) (g b) = before a b) (elements : List α) :
    sortStable before' (elements.map g) = (sortStable before elements).map g := by
  have insert (a : α) (sorted : List α) : insertStable before' (g a) (sorted.map g) =
      (insertStable before a sorted).map g := by
    induction sorted with
    | nil => rfl
    | cons b rest ih =>
      rw [List.map_cons, insertStable, insertStable, same, ih]
      split <;> rfl
  have all (sorted : List α) : (elements.map g).foldl
      (fun sorted a => insertStable before' a sorted) (sorted.map g) =
        (elements.foldl (fun sorted a => insertStable before a sorted) sorted).map g := by
    induction elements generalizing sorted with
    | nil => rfl
    | cons a rest ih => rw [List.map_cons, List.foldl_cons, List.foldl_cons, insert, ih]
  exact all []

end Keep

end Expander
