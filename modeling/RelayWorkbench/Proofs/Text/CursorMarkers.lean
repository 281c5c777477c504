import RelayWorkbench.Proofs.Text.Cutting
import RelayWorkbench.Proofs.Text.LineColumns
import RelayWorkbench.Proofs.Text.Traps
import RelayWorkbench.Text.CursorMarker

/-! Texts with markers put into them. Reading the markers back gives the text without them, and the
positions that the line index of the text has for the offsets they were put at: the running count
of lines and columns is the position of the line index, as long as it stays in 32 bits; beyond them
the reading ends. Markers of several numbers come back in the order of their numbers, those of one
number in the order of the text. -/

namespace RelayWorkbench

section StableSort

variable {α : Type} {key : α → Nat}

private theorem keyed_trans (first second third : α) :
    decide (key first ≤ key second) → decide (key second ≤ key third) →
      decide (key first ≤ key third) := by
  simpa using Nat.le_trans

private theorem keyed_total (first second : α) :
    (decide (key first ≤ key second) || decide (key second ≤ key first)) = true := by
  simpa using Nat.le_total _ _

theorem filter_mergeSort (items : List α) (number : Nat) :
    (items.mergeSort (key · ≤ key ·)).filter (key · = number) =
      items.filter (key · = number) := by
  induction items with
  | nil => simp
  | cons item rest ih =>
    obtain ⟨front, back, sorted, others, less⟩ :=
      @List.mergeSort_cons α (fun first second => decide (key first ≤ key second)) keyed_trans
        keyed_total item rest
    rw [others, List.filter_append] at ih
    rw [sorted, List.filter_append, List.filter_cons, List.filter_cons, ← ih]
    split
    · next own =>
      have none : front.filter (key · = number) = [] := by
        refine List.filter_eq_nil_iff.mpr fun other member same => ?_
        have := less other member
        simp only [decide_eq_true_eq] at own same
        simp [own, same] at this
      rw [none, List.nil_append, List.nil_append]
    · rfl

private theorem eq_filter_append_filter {items : List α} {number : Nat}
    (sorted : items.Pairwise (key · ≤ key ·)) (least : ∀ item ∈ items, number ≤ key item) :
    items = items.filter (key · = number) ++ items.filter (key · ≠ number) := by
  induction items with
  | nil => rfl
  | cons item rest ih =>
    obtain ⟨before, later⟩ := List.pairwise_cons.mp sorted
    obtain ⟨own, others⟩ := List.forall_mem_cons.mp least
    by_cases first : key item = number
    · simpa [first] using ih later others
    · have none : rest.filter (key · = number) = [] := by
        refine List.filter_eq_nil_iff.mpr fun other member same => first ?_
        have := before other member
        simp only [decide_eq_true_eq] at same
        omega
      have all : rest.filter (key · ≠ number) = rest := by
        refine List.filter_eq_self.mpr fun other member => ?_
        have := before other member
        simp only [decide_eq_true_eq]
        omega
      rw [List.filter_cons_of_neg (by simpa using first), none,
        List.filter_cons_of_pos (by simpa using first), all, List.nil_append]

/-- Sorted elements stand in the order of their keys. -/
private theorem flatMap_filter_of_sorted {numbers : List Nat} {items : List α}
    (ascend : numbers.Pairwise (· < ·)) (sorted : items.Pairwise (key · ≤ key ·))
    (listed : ∀ item ∈ items, key item ∈ numbers) :
    numbers.flatMap (fun number => items.filter (key · = number)) = items := by
  induction numbers generalizing items with
  | nil =>
    have none : items = [] :=
      List.eq_nil_iff_forall_not_mem.mpr fun item member => by simpa using listed item member
    exact none.symm
  | cons number more ih =>
    obtain ⟨before, later⟩ := List.pairwise_cons.mp ascend
    have least : ∀ item ∈ items, number ≤ key item := fun item member => by
      rcases List.mem_cons.mp (listed item member) with same | behind
      · omega
      · exact Nat.le_of_lt (before _ behind)
    have others := @ih (items.filter (key · ≠ number)) later (sorted.filter _)
      fun item member => by
        obtain ⟨inside, apart⟩ := List.mem_filter.mp member
        exact (List.mem_cons.mp (listed item inside)).resolve_left (by simpa using apart)
    have same : more.flatMap (fun other => (items.filter (key · ≠ number)).filter (key · = other)) =
        more.flatMap fun other => items.filter (key · = other) := by
      refine List.flatMap_congr fun other member => ?_
      rw [List.filter_filter]
      refine List.filter_congr fun item _ => ?_
      have := before other member
      by_cases own : key item = other <;> simp [own]
      omega
    rw [List.flatMap_cons, ← same, others, ← eq_filter_append_filter sorted least]

/-- Elements taken key by key are the elements in order, those of one key in their own. -/
theorem flatMap_filter_eq_mergeSort {numbers : List Nat} {items : List α}
    (ascend : numbers.Pairwise (· < ·)) (listed : ∀ item ∈ items, key item ∈ numbers) :
    numbers.flatMap (fun number => items.filter (key · = number)) =
      items.mergeSort (key · ≤ key ·) := by
  have sorted : (items.mergeSort (key · ≤ key ·)).Pairwise (key · ≤ key ·) := by
    simpa using @List.pairwise_mergeSort α (fun first second => decide (key first ≤ key second))
      keyed_trans keyed_total items
  have whole := flatMap_filter_of_sorted ascend sorted fun item member =>
    listed item (List.mem_mergeSort.mp member)
  rw [← whole]
  exact List.flatMap_congr fun number _ => (filter_mergeSort items number).symm

end StableSort

namespace Text

/-- Whether the numbers of the lines of a text and those of their columns are words of 32 bits. -/
def Numbered (text : Text) : Prop :=
  (lines text).length ≤ 2 ^ 32 ∧ ∀ content ∈ lines text, content.width < 2 ^ 32

instance (text : Text) : Decidable text.Numbered :=
  inferInstanceAs (Decidable (_ ∧ _))

theorem numbered_of_width_lt {text : Text} (short : text.width < 2 ^ 32) : text.Numbered := by
  refine ⟨?_, fun content member => ?_⟩
  · have total := width_succ_eq text
    have each := ((lines text).map fun content => content.width + 1).length_le_sum_of_one_le
      (by simp)
    rw [List.length_map] at each
    rw [lineOffset, List.take_length] at total
    omega
  · obtain ⟨line, found⟩ := List.mem_iff_getElem?.mp member
    have := lineOffset_add_le found
    omega

section Concat

variable {front last : Text} {before : List Text} (ends : lines front = before ++ [last])
include ends

theorem numbered_iff : front.Numbered ↔
    before.length < 2 ^ 32 ∧ last.width < 2 ^ 32 ∧ ∀ content ∈ before, content.width < 2 ^ 32 := by
  rw [Numbered, ends, List.forall_mem_append, List.forall_mem_singleton, List.length_append,
    List.length_singleton, Nat.succ_le_iff, and_comm (a := ∀ content ∈ before, _)]

theorem lines_lineFeed_concat : lines (front ++ ['\n']) = before ++ [last] ++ [[]] := by
  rw [lines_append_of_concat ends (lines_lineFeed []), List.append_nil, List.append_assoc]
  rfl

theorem lines_concat {char : Char} (other : char ≠ '\n') :
    lines (front ++ [char]) = before ++ [last ++ [char]] :=
  lines_append_of_concat ends (lines_cons other rfl)

variable (numbered : front.Numbered)
include numbered

theorem numbered_lineFeed_concat_iff :
    Numbered (front ++ ['\n']) ↔ before.length + 1 < 2 ^ 32 := by
  obtain ⟨-, short, others⟩ := (numbered_iff ends).mp numbered
  rw [numbered_iff (lines_lineFeed_concat ends), List.length_append, List.length_singleton,
    List.forall_mem_append, List.forall_mem_singleton]
  exact ⟨And.left, fun few => ⟨few, by decide, others, short⟩⟩

theorem numbered_concat_iff {char : Char} (other : char ≠ '\n') :
    Numbered (front ++ [char]) ↔ last.width + char.utf8Size < 2 ^ 32 := by
  obtain ⟨few, -, others⟩ := (numbered_iff ends).mp numbered
  rw [numbered_iff (lines_concat ends other), width_append, width_cons, width_nil, Nat.add_zero]
  exact ⟨fun within => within.2.1, fun short => ⟨few, short, others⟩⟩

end Concat

theorem Numbered.of_append {front back : Text} (numbered : (front ++ back).Numbered) :
    front.Numbered := by
  obtain ⟨before, last, ends⟩ := lines_eq_concat front
  obtain ⟨first, more, begins⟩ := lines_eq_cons back
  rw [numbered_iff ends]
  rw [Numbered, lines_append_of_concat ends begins] at numbered
  obtain ⟨few, short⟩ := numbered
  obtain ⟨short, behind⟩ := List.forall_mem_append.mp short
  have same := (List.forall_mem_cons.mp behind).1
  rw [width_append] at same
  rw [List.length_append, List.length_cons] at few
  exact ⟨by omega, by omega, short⟩

end Text

namespace LineIndex

/-- A place is numbered by the lines in front of it, and on its line by the bytes. -/
theorem position_eq {front last : Text} {before : List Text}
    (ends : Text.lines front = before ++ [last]) (back : Text) :
    (ofText (front ++ back)).position front.width =
      ⟨UInt32.ofNat before.length, UInt32.ofNat last.width⟩ := by
  obtain ⟨first, more, begins⟩ := Text.lines_eq_cons back
  have whole := Text.lines_append_of_concat ends begins
  have found : (Text.lines (front ++ back))[before.length]? = some (last ++ first) := by
    simp [whole]
  have own : (Text.lines front)[before.length]? = some last := by simp [ends]
  have start : Text.lineOffset (front ++ back) before.length + last.width = front.width := by
    have total := Text.width_succ_eq front
    have next := Text.lineOffset_next own
    rw [ends, List.length_append, List.length_singleton, next] at total
    have same : Text.lineOffset (front ++ back) before.length =
        Text.lineOffset front before.length := by
      simp [Text.lineOffset, whole, ends]
    omega
  have inside : last.width ≤ (last ++ first).width := by
    rw [Text.width_append]
    exact Nat.le_add_right _ _
  rw [position, ← start, lineColumn_of_line found inside]

/-- One character further there is the next place, unless its number is no word. -/
theorem advance_position {front : Text} (numbered : front.Numbered) (char : Char) (rest : Text) :
    Text.advance ((ofText (front ++ char :: rest)).position front.width) char =
      if Text.Numbered (front ++ [char]) then
        Except.ok ((ofText (front ++ char :: rest)).position (Text.width (front ++ [char])))
      else Except.error Trap.overflow := by
  obtain ⟨before, last, ends⟩ := Text.lines_eq_concat front
  obtain ⟨few, short, -⟩ := (Text.numbered_iff ends).mp numbered
  have line : (UInt32.ofNat before.length).toNat = before.length := UInt32.toNat_ofNat_of_lt' few
  have column : (UInt32.ofNat last.width).toNat = last.width := UInt32.toNat_ofNat_of_lt' short
  have next : front ++ char :: rest = (front ++ [char]) ++ rest := by simp
  by_cases lineFeed : char = '\n'
  · subst lineFeed
    rw [position_eq ends, Text.advance, if_pos rfl, next,
      position_eq (Text.lines_lineFeed_concat ends)]
    by_cases fits : before.length + 1 < 2 ^ 32
    · rw [if_pos ((Text.numbered_lineFeed_concat_iff ends numbered).mpr fits),
        Checked.sum_of_lt (by rw [line]; exact fits), List.length_append, UInt32.ofNat_add]
      rfl
    · rw [if_neg (mt (Text.numbered_lineFeed_concat_iff ends numbered).mp fits),
        Checked.sum_of_le (by rw [line]; exact Nat.le_of_not_lt fits)]
      rfl
  · have size : (UInt32.ofNat char.utf8Size).toNat = char.utf8Size :=
      UInt32.toNat_ofNat_of_lt' (Nat.lt_of_le_of_lt char.utf8Size_le_four (by decide))
    rw [position_eq ends, Text.advance, if_neg lineFeed, next,
      position_eq (Text.lines_concat ends lineFeed)]
    by_cases fits : last.width + char.utf8Size < 2 ^ 32
    · rw [if_pos ((Text.numbered_concat_iff ends numbered lineFeed).mpr fits),
        Checked.sum_of_lt (by rw [column, size]; exact fits), Text.width_append, Text.width_cons,
        Text.width_nil, Nat.add_zero, UInt32.ofNat_add]
      rfl
    · rw [if_neg (mt (Text.numbered_concat_iff ends numbered lineFeed).mp fits),
        Checked.sum_of_le (by rw [column, size]; exact Nat.le_of_not_lt fits)]
      rfl

end LineIndex

namespace Text

theorem exists_of_splitAt? {text front back : Text} {offset : Nat}
    (split : text.splitAt? offset = some (front, back)) :
    text = front ++ back ∧ offset = front.width := by
  induction text generalizing offset front with
  | nil =>
    simp only [splitAt?] at split
    split at split
    · next start =>
      cases split
      exact ⟨rfl, start⟩
    · cases split
  | cons char rest ih =>
    simp only [splitAt?] at split
    split at split
    · next start =>
      cases split
      exact ⟨rfl, start⟩
    · split at split
      · next inside =>
        obtain ⟨⟨front, back⟩, later, equal⟩ := Option.map_eq_some_iff.mp split
        cases equal
        obtain ⟨rfl, same⟩ := ih later
        exact ⟨rfl, by rw [width_cons, ← same]; omega⟩
      · cases split

variable {text front back : Text}

theorem position_zero (text : Text) : (LineIndex.ofText text).position 0 = ⟨0, 0⟩ :=
  @LineIndex.position_eq [] [] [] rfl text

/-- What goes on behind a character with the next place goes on in numbered texts only. -/
theorem advance_bind {α : Type} {char : Char} {rest : Text} {next : Position → Except Trap α}
    {value : α} (parts : text = front ++ char :: rest) (numbered : front.Numbered)
    (onward : Numbered (front ++ [char]) →
      next ((LineIndex.ofText text).position (width (front ++ [char]))) =
        if text.Numbered then .ok value else .error .overflow) :
    advance ((LineIndex.ofText text).position front.width) char >>= next =
      if text.Numbered then .ok value else .error .overflow := by
  subst parts
  rw [LineIndex.advance_position numbered]
  by_cases fits : Numbered (front ++ [char])
  · rw [if_pos fits]
    exact onward fits
  · have more : ¬ Numbered (front ++ char :: rest) := by
      rw [← List.singleton_append, ← List.append_assoc]
      exact mt Numbered.of_append fits
    rw [if_neg fits, if_neg more]
    rfl

section Star

theorem withoutStars_cons {char : Char} (other : char ≠ '*') (position : Position) (rest : Text) :
    withoutStars position (char :: rest) = advance position char >>= fun next => do
      let (text, found) ← withoutStars next rest
      return (char :: text, found) := by
  simp only [withoutStars]

/-- A text without stars stays as it is. -/
theorem withoutStars_of_notMem (plain : '*' ∉ back) (parts : text = front ++ back)
    (numbered : front.Numbered) :
    withoutStars ((LineIndex.ofText text).position front.width) back =
      if text.Numbered then .ok (back, none) else .error .overflow := by
  induction back generalizing front with
  | nil =>
    rw [parts, List.append_nil, if_pos numbered]
    rfl
  | cons char rest ih =>
    obtain ⟨other, later⟩ : '*' ≠ char ∧ '*' ∉ rest := by simpa using plain
    rw [withoutStars_cons (Ne.symm other)]
    refine advance_bind parts numbered fun fits => ?_
    rw [ih later (by simpa using parts) fits]
    split <;> rfl

/-- A star is found at its place in the text without it. -/
theorem withoutStars_append {middle : Text} (middlePlain : '*' ∉ middle) (backPlain : '*' ∉ back)
    (parts : text = front ++ middle ++ back) (numbered : front.Numbered) :
    withoutStars ((LineIndex.ofText text).position front.width) (middle ++ '*' :: back) =
      if text.Numbered then
        .ok (middle ++ back, some ((LineIndex.ofText text).position (width (front ++ middle))))
      else .error .overflow := by
  induction middle generalizing front with
  | nil =>
    rw [List.append_nil] at parts ⊢
    rw [List.nil_append, withoutStars, withoutStars_of_notMem backPlain parts numbered]
    split <;> rfl
  | cons char rest ih =>
    obtain ⟨other, later⟩ : '*' ≠ char ∧ '*' ∉ rest := by simpa using middlePlain
    rw [List.cons_append, withoutStars_cons (Ne.symm other)]
    have behind : text = front ++ char :: (rest ++ back) := by simpa using parts
    refine advance_bind behind numbered fun fits => ?_
    rw [ih later (by simpa using parts) fits, List.append_assoc, List.singleton_append]
    split <;> rfl

theorem cursor_append (plain : '*' ∉ front ++ back) :
    cursor (front ++ '*' :: back) =
      if Numbered (front ++ back) then
        .ok (front ++ back, (LineIndex.ofText (front ++ back)).position front.width)
      else .error (.trapped .overflow) := by
  obtain ⟨frontPlain, backPlain⟩ : '*' ∉ front ∧ '*' ∉ back := by simpa using plain
  have once : (front ++ '*' :: back).count '*' = 1 := by
    rw [List.count_append, List.count_cons_self, List.count_eq_zero.mpr frontPlain,
      List.count_eq_zero.mpr backPlain]
  have read := @withoutStars_append (front ++ back) [] back front frontPlain backPlain rfl
    (by decide)
  rw [width_nil, position_zero, List.nil_append] at read
  rw [cursor, once, read]
  by_cases numbered : Numbered (front ++ back) <;> simp only [numbered, if_true, if_false]

end Star

/-- A numbered marker to be put into a text. -/
structure Marker where
  digit : Fin 10
  /-- The offset of the place it is put at. -/
  offset : Nat
  deriving DecidableEq, Repr

def Marker.written (marker : Marker) : Text := ['$', Nat.digitChar marker.digit]

/-- The offsets between the characters of a text that begins at an offset, ends included. -/
def boundaries (offset : Nat) : Text → List Nat
  | [] => [offset]
  | char :: rest => offset :: boundaries (offset + char.utf8Size) rest

/-- A text that begins at an offset, with markers put into it: each one at its offset, those of one
offset in their order. -/
def withMarkers (markers : List Marker) (offset : Nat) : Text → Text
  | [] => (markers.filter (·.offset = offset)).flatMap Marker.written
  | char :: rest =>
    (markers.filter (·.offset = offset)).flatMap Marker.written ++
      char :: withMarkers markers (offset + char.utf8Size) rest

section Numbers

theorem boundaries_ascend (offset : Nat) (text : Text) :
    (boundaries offset text).Pairwise (· < ·) ∧ ∀ boundary ∈ boundaries offset text,
      offset ≤ boundary := by
  induction text generalizing offset with
  | nil => simp [boundaries]
  | cons char rest ih =>
    have wide := char.utf8Size_pos
    obtain ⟨ascend, behind⟩ := ih (offset + char.utf8Size)
    refine ⟨List.pairwise_cons.mpr ⟨fun boundary member => ?_, ascend⟩,
      List.forall_mem_cons.mpr ⟨Nat.le_refl _, fun boundary member => ?_⟩⟩ <;>
    · have := behind boundary member
      omega

theorem mem_boundaries (offset : Nat) (front back : Text) :
    offset + front.width ∈ boundaries offset (front ++ back) := by
  induction front generalizing offset with
  | nil => cases back <;> simp [boundaries]
  | cons char rest ih =>
    rw [List.cons_append, boundaries, width_cons, ← Nat.add_assoc]
    exact List.mem_cons_of_mem _ (ih _)

theorem Marker.isDigit_written (marker : Marker) :
    (Nat.digitChar marker.digit).isDigit ∧
      (Nat.digitChar marker.digit).toNat - '0'.toNat = marker.digit := by
  generalize marker.digit = digit
  decide +revert

/-- A marker is read with the position that was counted up to it. -/
theorem withoutNumbers_written (position : Position) (markers : List Marker) (rest : Text) :
    withoutNumbers position (markers.flatMap Marker.written ++ rest) = (do
      let (text, found) ← withoutNumbers position rest
      return (text, markers.map (fun marker => (marker.digit.val, position)) ++ found)) := by
  induction markers with
  | nil => exact (bind_pure _).symm
  | cons marker more ih =>
    obtain ⟨isDigit, number⟩ := marker.isDigit_written
    rw [List.flatMap_cons, Marker.written, List.append_assoc, List.cons_append, List.cons_append,
      List.nil_append, withoutNumbers, isDigit, if_pos (by decide), ih, number, bind_assoc]
    rfl

theorem withoutNumbers_cons {char : Char} {rest : Text}
    (plain : char = '$' → ∀ next, rest.head? = some next → next.isDigit = false)
    (position : Position) :
    withoutNumbers position (char :: rest) = advance position char >>= fun next => do
      let (text, found) ← withoutNumbers next rest
      return (char :: text, found) := by
  cases rest with
  | nil => rfl
  | cons next more =>
    have noMarker : ¬ (char = '$' && next.isDigit) := by
      simp only [Bool.and_eq_true, decide_eq_true_eq, not_and]
      intro dollar
      simp [plain dollar next rfl]
    rw [withoutNumbers, if_neg noMarker]

/-- Markers begin with no digit, so that a text with markers begins with one only if the text
does. -/
theorem head?_withMarkers {markers : List Marker} {offset : Nat} {text : Text} {first : Char}
    (begins : (withMarkers markers offset text).head? = some first) (digit : first.isDigit) :
    text.head? = some first := by
  have start : ∀ rest : Text,
      ((markers.filter (·.offset = offset)).flatMap Marker.written ++ rest).head? = some first →
        rest.head? = some first := by
    intro rest found
    cases here : markers.filter (·.offset = offset) with
    | nil => simpa [here] using found
    | cons marker more =>
      rw [here] at found
      obtain rfl : '$' = first := Option.some.inj found
      exact absurd digit (by decide)
  cases text with
  | nil => exact start [] (by simpa [withMarkers] using begins)
  | cons char rest => simpa using start _ begins

/-- Whether a text has a dollar sign in front of a digit, as a marker has. -/
def HoldsMarker (text : Text) : Prop := ∃ digit : Char, digit.isDigit ∧ ['$', digit] <:+: text

/-- Reading the markers of a text gives the text, and the markers boundary by boundary. -/
theorem withoutNumbers_withMarkers (markers : List Marker) (parts : text = front ++ back)
    (plain : ¬ HoldsMarker back) (numbered : front.Numbered) :
    withoutNumbers ((LineIndex.ofText text).position front.width)
        (withMarkers markers front.width back) =
      if text.Numbered then
        .ok (back, ((boundaries front.width back).flatMap fun boundary =>
          markers.filter (·.offset = boundary)).map fun marker =>
            (marker.digit.val, (LineIndex.ofText text).position marker.offset))
      else .error .overflow := by
  have here : ∀ offset, (markers.filter (·.offset = offset)).map
      (fun marker => (marker.digit.val, (LineIndex.ofText text).position offset)) =
        (markers.filter (·.offset = offset)).map
          fun marker => (marker.digit.val, (LineIndex.ofText text).position marker.offset) := by
    intro offset
    refine List.map_congr_left fun marker member => ?_
    obtain ⟨-, same⟩ := List.mem_filter.mp member
    rw [decide_eq_true_eq.mp same]
  induction back generalizing front with
  | nil =>
    have whole := withoutNumbers_written ((LineIndex.ofText text).position front.width)
      (markers.filter (·.offset = front.width)) []
    rw [List.append_nil] at parts whole
    rw [withMarkers, whole, here, parts, if_pos numbered, boundaries, List.flatMap_singleton,
      withoutNumbers, pure_bind]
    exact congrArg (fun found => Except.ok (([] : Text), found)) (List.append_nil _)
  | cons char rest ih =>
    have behind : front.width + char.utf8Size = (front ++ [char]).width := by
      simp [width_append]
    have later : ¬ HoldsMarker rest := fun ⟨digit, isDigit, inside⟩ =>
      plain ⟨digit, isDigit, inside.trans (List.suffix_cons char rest).isInfix⟩
    have noMarker : char = '$' → ∀ next,
        (withMarkers markers (front ++ [char]).width rest).head? = some next →
          next.isDigit = false := by
      intro dollar next begins
      rw [Bool.eq_false_iff]
      intro isDigit
      obtain ⟨more, rfl⟩ := List.head?_eq_some_iff.mp (head?_withMarkers begins isDigit)
      exact plain ⟨next, isDigit, dollar ▸ (List.prefix_append ['$', next] more).isInfix⟩
    rw [withMarkers, behind, withoutNumbers_written, withoutNumbers_cons noMarker, here, bind_assoc]
    refine advance_bind parts numbered fun fits => ?_
    rw [ih (by simpa using parts) later fits, boundaries, behind, List.flatMap_cons,
      List.map_append]
    split <;> rfl

theorem cursors_withMarkers (plain : ¬ HoldsMarker text) {markers : List Marker}
    (between : ∀ marker ∈ markers, (text.splitAt? marker.offset).isSome) :
    cursors (withMarkers markers 0 text) =
      if text.Numbered then
        .ok (text, ((markers.mergeSort (·.offset ≤ ·.offset)).mergeSort (·.digit ≤ ·.digit)).map
          fun marker => (LineIndex.ofText text).position marker.offset)
      else .error .overflow := by
  have listed : ∀ marker ∈ markers, marker.offset ∈ boundaries 0 text := by
    intro marker member
    obtain ⟨⟨front, back⟩, split⟩ := Option.isSome_iff_exists.mp (between marker member)
    obtain ⟨rfl, same⟩ := exists_of_splitAt? split
    simpa [same] using mem_boundaries 0 front back
  have read := @withoutNumbers_withMarkers text [] text markers rfl plain (by decide)
  rw [width_nil, position_zero,
    flatMap_filter_eq_mergeSort (boundaries_ascend 0 text).1 listed] at read
  have byDigit := List.map_mergeSort
    (r := fun first second : Marker => first.digit ≤ second.digit)
    (s := fun first second : Nat × Position => first.1 ≤ second.1)
    (f := fun marker => (marker.digit.val, (LineIndex.ofText text).position marker.offset))
    (l := markers.mergeSort (·.offset ≤ ·.offset)) fun _ _ _ _ => rfl
  rw [cursors, read]
  split
  · refine congrArg (fun found => Except.ok (text, found)) ?_
    rw [← byDigit, List.map_map]
    rfl
  · rfl

end Numbers

end Text

end RelayWorkbench
