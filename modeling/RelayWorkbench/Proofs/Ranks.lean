import Mathlib

/-! The rank of a place in a list is the number of items before it that satisfy a condition: the
place that its item has among those items. -/

namespace RelayWorkbench

variable {α : Type} (holds : α → Bool)

/-- The number of items before a place that satisfy a condition. -/
def rank (list : List α) (place : Nat) : Nat := (list.take place).countP holds

variable {holds} {list : List α} {place other : Nat} {item new : α}

theorem rank_append (more : List α) (inside : place ≤ list.length) :
    rank holds (list ++ more) place = rank holds list place := by
  rw [rank, List.take_append_of_le_length inside, rank]

theorem rank_length (list : List α) : rank holds list list.length = (list.filter holds).length := by
  rw [rank, List.take_length, List.countP_eq_length_filter]

private theorem rank_cons (head : α) (list : List α) (place : Nat) :
    rank holds (head :: list) (place + 1) =
      rank holds list place + if holds head then 1 else 0 := by
  rw [rank, List.take_succ_cons, List.countP_cons, rank]

/-- A list with an item at a place: the rank of the place is the number of items in front that
count. -/
private theorem exists_front (holds : α → Bool) (found : list[place]? = some item) :
    ∃ front back, list = front ++ item :: back ∧ place = front.length ∧
      rank holds list place = (front.filter holds).length := by
  obtain ⟨inside, rfl⟩ := List.getElem?_eq_some_iff.mp found
  refine ⟨list.take place, list.drop (place + 1), ?_, ?_, ?_⟩
  · rw [← List.drop_eq_getElem_cons inside, List.take_append_drop]
  · rw [List.length_take_of_le (Nat.le_of_lt inside)]
  · rw [rank, List.countP_eq_length_filter]

theorem getElem?_filter_rank (found : list[place]? = some item) (own : holds item) :
    (list.filter holds)[rank holds list place]? = some item := by
  obtain ⟨front, back, rfl, -, ranked⟩ := exists_front holds found
  rw [ranked, List.filter_append, List.filter_cons_of_pos own]
  simp

theorem rank_set (found : list[place]? = some item) (same : holds new = holds item) :
    rank holds (list.set place new) other = rank holds list other := by
  induction list generalizing place other with
  | nil => rfl
  | cons head rest ih =>
    cases other with
    | zero => rfl
    | succ other =>
      cases place with
      | zero =>
        cases found
        rw [List.set_cons_zero, rank_cons, rank_cons, same]
      | succ place =>
        rw [List.set_cons_succ, rank_cons, rank_cons, ih (by simpa using found)]

/-- To exchange an item that counts is to exchange it at its rank. -/
theorem filter_set_of_pos (found : list[place]? = some item) (own : holds item)
    (owns : holds new) :
    (list.set place new).filter holds = (list.filter holds).set (rank holds list place) new := by
  obtain ⟨front, back, rfl, rfl, ranked⟩ := exists_front holds found
  rw [ranked, List.filter_append, List.filter_cons_of_pos own]
  simp [owns]

/-- To exchange an item that does not count changes nothing. -/
theorem filter_set_of_neg (found : list[place]? = some item) (other : holds item = false)
    (others : holds new = false) : (list.set place new).filter holds = list.filter holds := by
  obtain ⟨front, back, rfl, rfl, -⟩ := exists_front holds found
  simp [other, others]

theorem rank_inj {second : α} (found : list[place]? = some item) (own : holds item)
    (there : list[other]? = some second) (owns : holds second)
    (same : rank holds list place = rank holds list other) : place = other := by
  induction list generalizing place other with
  | nil => cases found
  | cons head rest ih =>
    cases place with
    | zero =>
      cases other with
      | zero => rfl
      | succ other =>
        cases found
        rw [rank_cons, own] at same
        simp [rank] at same
    | succ place =>
      cases other with
      | zero =>
        cases there
        rw [rank_cons, owns] at same
        simp [rank] at same
      | succ other =>
        rw [rank_cons, rank_cons, Nat.add_right_cancel_iff] at same
        rw [ih (by simpa using found) (by simpa using there) same]

end RelayWorkbench
