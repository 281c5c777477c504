import RelayWorkbench.Proofs.Text.Traps
import RelayWorkbench.Text.LineIndex

/-! Where lines start. The starts in a text that is put together are those of its parts, moved
by what stands before them; the index of a text and the index of one of its slices therefore
differ by the lines before the slice and by its offset. -/

namespace RelayWorkbench.LineIndex

theorem startsAfter_append (offset : Nat) (front back : Text) :
    startsAfter offset (front ++ back) =
      startsAfter offset front ++ startsAfter (offset + front.width) back := by
  induction front generalizing offset with
  | nil => simp [startsAfter]
  | cons char rest ih =>
    simp only [List.cons_append, startsAfter, ih, Text.width_cons, Nat.add_assoc]
    split <;> rfl

/-- The starts counted from `offset` are those counted from zero, moved. -/
theorem startsAfter_eq_map (offset : Nat) (text : Text) :
    startsAfter offset text = (startsAfter 0 text).map (offset + ·) := by
  suffices moved : ∀ base, startsAfter (offset + base) text =
      (startsAfter base text).map (offset + ·) by simpa using moved 0
  intro base
  induction text generalizing base with
  | nil => rfl
  | cons char rest ih =>
    simp only [startsAfter, Nat.add_assoc, ih]
    split <;> simp

private theorem bounds_of_mem_startsAfter {offset start : Nat} {text : Text}
    (member : start ∈ startsAfter offset text) :
    offset < start ∧ start ≤ offset + text.width := by
  induction text generalizing offset with
  | nil => simp [startsAfter] at member
  | cons char rest ih =>
    have wide := char.utf8Size_pos
    simp only [startsAfter] at member
    rw [Text.width_cons]
    split at member
    · rcases List.mem_cons.mp member with rfl | later
      · omega
      · have := ih later; omega
    · have := ih member; omega

theorem lt_of_mem_startsAfter {offset start : Nat} {text : Text}
    (member : start ∈ startsAfter offset text) : offset < start :=
  (bounds_of_mem_startsAfter member).1

theorem le_of_mem_startsAfter {offset start : Nat} {text : Text}
    (member : start ∈ startsAfter offset text) : start ≤ offset + text.width :=
  (bounds_of_mem_startsAfter member).2

/-- The start of the last of some lines; that of the first line is zero. -/
def lastStart (starts : List Nat) : Nat := starts.getLastD 0

theorem lastStart_append (front back : List Nat) :
    lastStart (front ++ back) = back.getLastD (lastStart front) := by
  cases back <;> simp [lastStart, List.getLastD_eq_getLast?]

theorem lastStart_le {starts : List Nat} {bound : Nat}
    (bounded : ∀ start ∈ starts, start ≤ bound) : lastStart starts ≤ bound := by
  cases starts with
  | nil => simp [lastStart]
  | cons first rest =>
    simpa [lastStart, List.getLastD_eq_getLast?, List.getLast?_eq_some_getLast] using
      bounded _ (List.getLast_mem (List.cons_ne_nil first rest))

/-- The starts in a text up to an offset. -/
def passed (text : Text) (offset : Nat) : List Nat := (startsAfter 0 text).takeWhile (· ≤ offset)

/-- The line of an offset counts the starts up to it, and its column counts from the last. -/
theorem lineColumn_eq (text : Text) {offset : Nat} (inside : offset ≤ text.width) :
    (ofText text).lineColumn offset =
      ((passed text offset).length, offset - lastStart (passed text offset)) := by
  simp only [lineColumn, ofText, Nat.min_eq_left inside, List.takeWhile_cons, Nat.zero_le,
    decide_true, if_true, List.length_cons, Nat.add_sub_cancel]
  rw [List.getLastD_cons]
  rfl

theorem length_startsAfter_le (offset : Nat) (text : Text) :
    (startsAfter offset text).length ≤ text.width := by
  induction text generalizing offset with
  | nil => simp [startsAfter]
  | cons char rest ih =>
    have wide := char.utf8Size_pos
    have shorter := ih (offset + char.utf8Size)
    simp only [startsAfter, Text.width_cons]
    split
    · rw [List.length_cons]; omega
    · omega

private theorem takeWhile_append_beyond {near far : List Nat} {bound : Nat}
    (beyond : ∀ start ∈ far, bound < start) :
    (near ++ far).takeWhile (· ≤ bound) = near.takeWhile (· ≤ bound) := by
  induction near with
  | nil =>
    cases far with
    | nil => rfl
    | cons first rest =>
      have := beyond first (List.mem_cons_self ..)
      simp [this]
  | cons first rest ih => simp only [List.cons_append, List.takeWhile_cons, ih]

/-- Up to a place in a slice there are the starts before the slice and those in it. -/
theorem passed_slice (front middle back : Text) {offset : Nat} (inside : offset ≤ middle.width) :
    passed (front ++ middle ++ back) (front.width + offset) =
      startsAfter 0 front ++ (passed middle offset).map (front.width + ·) := by
  have before : ∀ start ∈ startsAfter 0 front, start ≤ front.width + offset := by
    intro start member
    have := le_of_mem_startsAfter member
    omega
  have beyond : ∀ start ∈ startsAfter (front.width + middle.width) back,
      front.width + offset < start := by
    intro start member
    have := lt_of_mem_startsAfter member
    omega
  simp only [passed, startsAfter_append, Nat.zero_add, List.append_assoc]
  rw [List.takeWhile_append_of_pos (by simpa using before), takeWhile_append_beyond beyond,
    startsAfter_eq_map front.width middle, List.takeWhile_map]
  congr 2
  simp [Function.comp_def]

theorem passed_width (text : Text) : passed text text.width = startsAfter 0 text := by
  simpa [passed, startsAfter] using passed_slice text [] [] (Nat.le_refl 0)

/-- A slice begins on the line with as many starts before it as there are in front of it. -/
theorem lineColumn_slice_start (front back : Text) :
    (ofText (front ++ back)).lineColumn front.width =
      ((startsAfter 0 front).length, front.width - lastStart (startsAfter 0 front)) := by
  have inside : front.width ≤ (front ++ back).width := by rw [Text.width_append]; omega
  have here : passed (front ++ back) front.width = startsAfter 0 front := by
    simpa [passed, startsAfter] using passed_slice front [] back (Nat.zero_le _)
  rw [lineColumn_eq _ inside, here]

theorem lastStart_startsAfter_le (text : Text) : lastStart (startsAfter 0 text) ≤ text.width :=
  lastStart_le fun start member => by have := le_of_mem_startsAfter member; omega

private theorem getLastD_map_add {starts : List Nat} (some : starts ≠ []) (shift fallback : Nat) :
    (starts.map (shift + ·)).getLastD fallback = shift + lastStart starts := by
  obtain ⟨last, found⟩ := Option.ne_none_iff_exists'.mp (mt List.getLast?_eq_none_iff.mp some)
  simp [lastStart, List.getLastD_eq_getLast?, List.getLast?_map, found]

/-- Line and column of a place in a slice: on the first line of the slice the column goes on
from that of the slice, on a later one it is the column in the slice. -/
theorem lineColumn_slice (front middle back : Text) {offset : Nat}
    (inside : offset ≤ middle.width) :
    (ofText (front ++ middle ++ back)).lineColumn (front.width + offset) =
      let (line, column) := (ofText middle).lineColumn offset
      ((startsAfter 0 front).length + line,
        if line = 0 then front.width - lastStart (startsAfter 0 front) + column else column) := by
  have within : front.width + offset ≤ (front ++ middle ++ back).width := by
    simp only [Text.width_append]; omega
  have early := lastStart_startsAfter_le front
  rw [lineColumn_eq _ within, lineColumn_eq _ inside, passed_slice front middle back inside]
  simp only [List.length_append, List.length_map, lastStart_append, Prod.mk.injEq, true_and,
    List.length_eq_zero_iff]
  by_cases none : passed middle offset = []
  · simp only [none, List.map_nil, List.getLastD_nil, if_true, lastStart]
    simp only [lastStart] at early
    omega
  · rw [if_neg none, getLastD_map_add none, Nat.add_sub_add_left]

/-- What stands behind a text does not move the places in it. -/
theorem position_append (text back : Text) {offset : Nat} (inside : offset ≤ text.width) :
    (ofText (text ++ back)).position offset = (ofText text).position offset := by
  have same := lineColumn_slice [] text back inside
  simp only [List.nil_append, Text.width_nil, Nat.zero_add, startsAfter, List.length_nil, lastStart,
    List.getLastD_nil, Nat.sub_self, ite_self] at same
  simp only [position, same]

/-- Offset of the end of a line, before its line feed. -/
def lineStop (index : LineIndex) (line : Nat) : Nat :=
  match index.lineStart? (line + 1) with
  | some next => next - 1
  | none => index.width

/-- A column that has no sum with the start of its line has no offset. -/
theorem offset?_eq {index : LineIndex} {line start : Nat}
    (starts : index.lineStart? line = some start) (column : Nat) :
    index.offset? line column =
      if start + column < 2 ^ 64 then .ok (some (min (start + column) (index.lineStop line)))
      else .error .overflow := by
  simp only [offset?, starts, Checked.wideSum_eq, lineStop]
  split <;> rfl

theorem offset?_eq_some {index : LineIndex} {line start column : Nat}
    (starts : index.lineStart? line = some start) (fits : start + column < 2 ^ 64) :
    index.offset? line column = .ok (some (min (start + column) (index.lineStop line))) := by
  rw [offset?_eq starts, if_pos fits]

private theorem getElem?_lastStart (starts : List Nat) :
    (0 :: starts)[starts.length]? = some (lastStart starts) := by
  have last := List.getLast?_eq_getElem? (l := 0 :: starts)
  rw [List.length_cons, Nat.add_sub_cancel, List.getLast?_cons] at last
  rw [← last, lastStart, List.getLastD_eq_getLast?]

theorem starts_slice (front middle back : Text) :
    (ofText (front ++ middle ++ back)).starts =
      (0 :: startsAfter 0 front) ++ ((startsAfter 0 middle).map (front.width + ·) ++
        startsAfter (front.width + middle.width) back) := by
  simp only [ofText, startsAfter_append, Nat.zero_add, List.append_assoc, List.cons_append]
  rw [startsAfter_eq_map front.width middle]

theorem lineStart?_le {text : Text} {line start : Nat}
    (starts : (ofText text).lineStart? line = some start) : start ≤ text.width := by
  cases line with
  | zero =>
    cases starts
    exact Nat.zero_le _
  | succ line =>
    have := le_of_mem_startsAfter (List.mem_of_getElem? starts)
    omega

/-- The first line of a slice starts in front of it; the later ones start in it. -/
theorem lineStart?_slice (front middle back : Text) {line : Nat}
    (reached : line ≤ (startsAfter 0 middle).length) :
    ∃ outer inner,
      (ofText (front ++ middle ++ back)).lineStart? ((startsAfter 0 front).length + line) =
        some outer ∧
      (ofText middle).lineStart? line = some inner ∧ inner ≤ middle.width ∧
      if line = 0 then outer = lastStart (startsAfter 0 front) ∧ inner = 0
      else outer = front.width + inner := by
  simp only [lineStart?, starts_slice]
  cases line with
  | zero =>
    refine ⟨_, 0, ?_, rfl, Nat.zero_le _, rfl, rfl⟩
    rw [Nat.add_zero, List.getElem?_append_left (by simp), getElem?_lastStart]
  | succ line =>
    have here : (startsAfter 0 middle)[line]? = some (startsAfter 0 middle)[line] :=
      List.getElem?_eq_getElem reached
    refine ⟨_, (startsAfter 0 middle)[line], ?_, ?_, ?_, rfl⟩
    · rw [List.getElem?_append_right (by simp), List.getElem?_append_left (by simp; omega)]
      simp [here, show (startsAfter 0 front).length + (line + 1) -
        ((startsAfter 0 front).length + 1) = line by omega]
    · simp [ofText]
    · have := le_of_mem_startsAfter (List.getElem_mem reached); omega

/-- A line of a slice ends where it ends in the text, the last one not before the slice. -/
theorem lineStop_slice (front middle back : Text) {line : Nat}
    (reached : line ≤ (startsAfter 0 middle).length) :
    let outer := (ofText (front ++ middle ++ back)).lineStop ((startsAfter 0 front).length + line)
    let inner := (ofText middle).lineStop line
    inner ≤ middle.width ∧
      (outer = front.width + inner ∨
        inner = middle.width ∧ front.width + middle.width ≤ outer) := by
  intro outer inner
  rcases Nat.lt_or_eq_of_le reached with before | last
  · obtain ⟨outerNext, innerNext, outerStarts, innerStarts, within, related⟩ :=
      lineStart?_slice front middle back (Nat.succ_le_of_lt before)
    have outerStop : outer = outerNext - 1 := by
      simp only [outer, lineStop, Nat.add_assoc, outerStarts]
    have innerStop : inner = innerNext - 1 := by simp only [inner, lineStop, innerStarts]
    have positive : 0 < innerNext := by
      have member : innerNext ∈ startsAfter 0 middle := by
        simp only [lineStart?, ofText, List.getElem?_cons_succ] at innerStarts
        exact List.mem_of_getElem? innerStarts
      exact lt_of_mem_startsAfter member
    rw [if_neg (Nat.succ_ne_zero line)] at related
    omega
  · have innerStop : inner = middle.width := by
      have none : (ofText middle).lineStart? (line + 1) = none := by
        simp [lineStart?, ofText, last]
      simp only [inner, lineStop, none]
      rfl
    refine ⟨by omega, .inr ⟨innerStop, ?_⟩⟩
    simp only [outer, lineStop]
    split
    · next next starts =>
      simp only [lineStart?, starts_slice] at starts
      rw [List.getElem?_append_right (by simp),
        List.getElem?_append_right (by simp; omega)] at starts
      have := lt_of_mem_startsAfter (List.mem_of_getElem? starts)
      omega
    · simp only [ofText, Text.width_append]
      omega

/-- A line that a slice reaches over, and a column, name the same place by the index of the
text and by that of the slice, once the place is moved into the slice. -/
theorem offset?_slice (front middle back : Text) {line : Nat}
    (reached : line ≤ (startsAfter 0 middle).length) {column : Nat}
    (fits : front.width + middle.width + column < 2 ^ 64) :
    ∃ place, (ofText (front ++ middle ++ back)).offset?
        ((startsAfter 0 front).length + line) column = .ok (some place) ∧
      (ofText middle).offset? line
          (if line = 0 then column - (front.width - lastStart (startsAfter 0 front))
            else column) =
        .ok (some (min (max place front.width) (front.width + middle.width) - front.width)) := by
  obtain ⟨outer, inner, outerStarts, innerStarts, within, related⟩ :=
    lineStart?_slice front middle back reached
  have stops := lineStop_slice front middle back reached
  have early := lastStart_startsAfter_le front
  refine ⟨_, offset?_eq_some outerStarts (by split at related <;> omega), ?_⟩
  rw [offset?_eq_some innerStarts (by split <;> omega)]
  congr 2
  split at related <;> simp_all <;> omega

end RelayWorkbench.LineIndex
