import RelayWorkbench.Host.RegionSpace
import RelayWorkbench.Proofs.Text.LineColumns
import RelayWorkbench.Proofs.Text.Traps

/-! Positions of offsets by a search in the starts of lines. The search looks at elements of a list
and takes the start of a line from an offset behind it; neither ever ends the program, so that the
positions found are those of the line index, and so are the sums that do end it. -/

namespace RelayWorkbench

namespace LineIndex

/-- The line of an offset by a search in ascending starts of lines, which comes to the place where
the offset is or where it would have to be put in. -/
def searchLine (starts : List Nat) (offset : Nat) : Nat :=
  let place := (starts.takeWhile (· < offset)).length
  if starts[place]? = some offset then place else place - 1

def lineColumnChecked (index : LineIndex) (offset : Nat) : Except Trap (Nat × Nat) := do
  let clamped := min offset index.width
  let line := searchLine index.starts clamped
  let start ← Checked.element index.starts line
  return (line, ← Checked.difference clamped start)

def positionChecked (index : LineIndex) (offset : Nat) : Except Trap Position := do
  let (line, column) ← index.lineColumnChecked offset
  return ⟨UInt32.ofNat line, UInt32.ofNat column⟩

theorem searchLine_eq {starts : List Nat} (ascend : starts.Pairwise (· < ·))
    {line start offset : Nat} (here : starts[line]? = some start) (early : start ≤ offset)
    (ahead : ∀ next, starts[line + 1]? = some next → offset < next) :
    searchLine starts offset = line := by
  have reached := (List.getElem?_eq_some_iff.mp here).1
  have passed := lt_of_ascending ascend here
  -- the offset is the start of the line, or would be put in behind it
  rcases Nat.eq_or_lt_of_le early with rfl | behind
  · have kept : starts.takeWhile (· < start) = starts.take line :=
      takeWhile_eq_take (fun other member => by simpa using passed other member)
        (fun next found => by cases here.symm.trans found; simp)
    simp [searchLine, kept, Nat.min_eq_left (Nat.le_of_lt reached), here]
  · have kept : starts.takeWhile (· < offset) = starts.take (line + 1) := by
      refine takeWhile_eq_take (fun other member => ?_) fun next found => ?_
      · rw [List.take_add_one, here, Option.toList_some, List.mem_append,
          List.mem_singleton] at member
        rw [decide_eq_true_eq]
        rcases member with before | rfl
        · exact (passed other before).trans behind
        · exact behind
      · simpa using Nat.le_of_lt (ahead next found)
    have other : starts[line + 1]? ≠ some offset :=
      fun found => Nat.lt_irrefl _ (ahead offset found)
    simp [searchLine, kept, Nat.min_eq_left (show line + 1 ≤ _ from reached), other]

theorem lineColumnChecked_eq (text : Text) (offset : Nat) :
    (ofText text).lineColumnChecked offset = pure ((ofText text).lineColumn offset) := by
  obtain ⟨content, found, early, late⟩ := Text.exists_line text (Nat.min_le_right offset text.width)
  have here := lineStart?_of_line found
  have next := Text.lineOffset_next found
  have ahead : ∀ start, (ofText text).lineStart? (text.lineFeeds (min offset text.width) + 1) =
      some start → min offset text.width < start := by
    intro start starts
    rw [lineStart?_eq, Option.map_eq_some_iff] at starts
    obtain ⟨-, -, rfl⟩ := starts
    omega
  rw [lineColumn_min, lineColumn_eq_of_between here early (Nat.min_le_right _ _) ahead,
    lineColumnChecked, show (ofText text).width = text.width from rfl]
  simp only [searchLine_eq (starts_ascend text) here early ahead,
    Checked.element_of_getElem? here, Checked.difference_of_le early, pure_bind]

theorem positionChecked_eq (text : Text) (offset : Nat) :
    (ofText text).positionChecked offset = pure ((ofText text).position offset) := by
  rw [positionChecked, lineColumnChecked_eq]
  rfl

end LineIndex

/-- The region position of an offset, with its line found by the search. -/
def Host.RegionLocator.positionChecked (locator : RegionLocator) (offset : Nat) :
    Except Trap RegionPosition := do
  let (line, column) ← locator.index.lineColumnChecked offset
  return ⟨← Checked.sum (UInt32.ofNat line) 1, UInt32.ofNat column⟩

theorem Host.RegionLocator.positionChecked_eq (content : Text) (offset : Nat) :
    (ofContent content).positionChecked offset = (ofContent content).position offset := by
  rw [positionChecked, ofContent, LineIndex.lineColumnChecked_eq, pure_bind, position]

end RelayWorkbench
