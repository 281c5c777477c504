import RelayWorkbench.Proofs.Text.ByteStrings
import RelayWorkbench.Proofs.Text.Indenting
import RelayWorkbench.Proofs.Text.LineStarts

/-! Lines and columns of byte offsets. The lines of a text lie one behind the other, each followed
by the byte of its line feed; the index of the text finds the line of an offset and the offset of a
place on a line, and moves what lies past an end back to it. A column is first added to the start of
its line, so that the last columns that a word can name have no offset on the later lines. -/

namespace RelayWorkbench

namespace Text

/-- Bytes in front of a line: the lines before it with their line feeds. -/
def lineOffset (text : Text) (line : Nat) : Nat :=
  (((lines text).take line).map fun content => content.width + 1).sum

/-- Number of line feeds among the first bytes of a text. -/
def lineFeeds (text : Text) (offset : Nat) : Nat := (text.bytes.take offset).count 10

@[simp] theorem lineOffset_zero (text : Text) : text.lineOffset 0 = 0 := by
  simp [lineOffset]

theorem lineOffset_succ {text first : Text} {more : List Text} (parts : lines text = first :: more)
    (line : Nat) : text.lineOffset (line + 1) =
      first.width + 1 + ((more.take line).map fun content => content.width + 1).sum := by
  simp [lineOffset, parts]

theorem lineOffset_lineFeed (rest : Text) (line : Nat) :
    lineOffset ('\n' :: rest) (line + 1) = 1 + rest.lineOffset line := by
  rw [lineOffset_succ (lines_lineFeed rest), width_nil, Nat.zero_add, lineOffset]

theorem lineOffset_cons {char : Char} (other : char ≠ '\n') (rest : Text) (line : Nat) :
    lineOffset (char :: rest) (line + 1) = char.utf8Size + rest.lineOffset (line + 1) := by
  obtain ⟨first, more, parts⟩ := lines_eq_cons rest
  rw [lineOffset_succ (lines_cons other parts), lineOffset_succ parts, width_cons]
  omega

theorem lineOffset_next {text content : Text} {line : Nat}
    (found : (lines text)[line]? = some content) :
    text.lineOffset (line + 1) = text.lineOffset line + content.width + 1 := by
  obtain ⟨inside, same⟩ := List.getElem?_eq_some_iff.mp found
  rw [lineOffset, ← List.take_append_getElem inside, List.map_append, List.sum_append, same,
    lineOffset]
  simp [Nat.add_assoc]

theorem lineOffset_mono (text : Text) {line later : Nat} (order : line ≤ later) :
    text.lineOffset line ≤ text.lineOffset later :=
  ((List.take_sublist_take_left order).map _).sum_le_sum fun _ _ => Nat.zero_le _

/-- The last line ends with the text; no line feed follows it. -/
theorem width_succ_eq (text : Text) : text.width + 1 = text.lineOffset (lines text).length := by
  induction text with
  | nil => rfl
  | cons char rest ih =>
    obtain ⟨first, more, parts⟩ := lines_eq_cons rest
    rw [width_cons, Nat.add_assoc, ih]
    by_cases lineFeed : char = '\n'
    · subst lineFeed
      rw [lines_lineFeed, List.length_cons, lineOffset_lineFeed]
      rfl
    · rw [lines_cons lineFeed parts, parts, List.length_cons, List.length_cons,
        lineOffset_cons lineFeed]

theorem lineOffset_add_le {text content : Text} {line : Nat}
    (found : (lines text)[line]? = some content) :
    text.lineOffset line + content.width ≤ text.width := by
  have inside := (List.getElem?_eq_some_iff.mp found).1
  have order := lineOffset_mono text (show line + 1 ≤ _ from inside)
  have next := lineOffset_next found
  have total := width_succ_eq text
  omega

@[simp] theorem lineFeeds_zero (text : Text) : text.lineFeeds 0 = 0 := by
  simp [lineFeeds]

theorem lineFeeds_mono (text : Text) {offset later : Nat} (order : offset ≤ later) :
    text.lineFeeds offset ≤ text.lineFeeds later :=
  (List.take_sublist_take_left order).count_le 10

theorem lineFeeds_lineFeed (rest : Text) (offset : Nat) :
    lineFeeds ('\n' :: rest) (offset + 1) = rest.lineFeeds offset + 1 := by
  have split : bytes ('\n' :: rest) = 10 :: bytes rest := rfl
  simp [lineFeeds, split]

section Characters

variable {char : Char} (other : char ≠ '\n')
include other

theorem lineFeed_notMem_bytes : (10 : UInt8) ∉ String.utf8EncodeChar char := by
  intro member
  have among : '\n' ∈ bytewise [char] := by
    simpa [bytewise, bytes, ofBytes] using ⟨10, member, rfl⟩
  rcases bytewise_singleton char with same | ⟨-, high⟩
  · rw [same, List.mem_singleton] at among
    exact other among.symm
  · exact absurd (high _ among) (by decide)

/-- There is no line feed up to the end of another character. -/
theorem lineFeeds_within (rest : Text) {offset : Nat} (within : offset ≤ char.utf8Size) :
    lineFeeds (char :: rest) offset = 0 := by
  have split : bytes (char :: rest) = String.utf8EncodeChar char ++ bytes rest := rfl
  rw [lineFeeds, split, List.take_append_of_le_length
    (by rwa [String.length_utf8EncodeChar]), List.count_eq_zero]
  exact fun member => lineFeed_notMem_bytes other (List.mem_of_mem_take member)

theorem lineFeeds_behind (rest : Text) (offset : Nat) :
    lineFeeds (char :: rest) (char.utf8Size + offset) = rest.lineFeeds offset := by
  have split : bytes (char :: rest) = String.utf8EncodeChar char ++ bytes rest := rfl
  have none : (String.utf8EncodeChar char).count (10 : UInt8) = 0 :=
    List.count_eq_zero.mpr (lineFeed_notMem_bytes other)
  have size := String.length_utf8EncodeChar char
  rw [lineFeeds, split, ← size, List.take_length_add_append, List.count_append, none,
    Nat.zero_add, lineFeeds]

end Characters

/-- Each offset lies on the line that is numbered by the line feeds before it. -/
theorem exists_line (text : Text) {offset : Nat} (inside : offset ≤ text.width) :
    ∃ content, (lines text)[text.lineFeeds offset]? = some content ∧
      text.lineOffset (text.lineFeeds offset) ≤ offset ∧
      offset ≤ text.lineOffset (text.lineFeeds offset) + content.width := by
  induction text generalizing offset with
  | nil =>
    obtain rfl : offset = 0 := Nat.le_zero.mp inside
    exact ⟨[], by simp [lines], by simp, by simp⟩
  | cons char rest ih =>
    rw [width_cons] at inside
    by_cases lineFeed : char = '\n'
    · subst lineFeed
      rw [show Char.utf8Size '\n' = 1 from rfl] at inside
      cases offset with
      | zero => exact ⟨[], by simp, by simp, Nat.zero_le _⟩
      | succ offset =>
        obtain ⟨content, found, early, late⟩ := ih (show offset ≤ width rest by omega)
        rw [lineFeeds_lineFeed, lines_lineFeed, List.getElem?_cons_succ, lineOffset_lineFeed]
        exact ⟨content, found, by omega, by omega⟩
    · obtain ⟨first, more, parts⟩ := lines_eq_cons rest
      rw [lines_cons lineFeed parts]
      rcases Nat.le_total offset char.utf8Size with within | behind
      · rw [lineFeeds_within lineFeed rest within]
        exact ⟨char :: first, rfl, by simp, by simp only [lineOffset_zero, width_cons]; omega⟩
      · obtain ⟨offset, rfl⟩ := Nat.exists_eq_add_of_le behind
        obtain ⟨content, found, early, late⟩ := ih (show offset ≤ width rest by omega)
        rw [lineFeeds_behind lineFeed]
        rw [parts] at found
        -- On the first line the character counts to the column, later to what is in front.
        cases line : lineFeeds rest offset with
        | zero =>
          rw [line] at found late
          cases found
          rw [lineOffset_zero] at late
          exact ⟨char :: first, rfl, by simp, by simp only [lineOffset_zero, width_cons]; omega⟩
        | succ line =>
          simp only [line] at found early late
          rw [lineOffset_cons lineFeed]
          exact ⟨content, found, by omega, by omega⟩

end Text

namespace LineIndex

theorem getElem?_startsAfter {text first : Text} {more : List Text}
    (parts : Text.lines text = first :: more) (offset line : Nat) :
    (startsAfter offset text)[line]? =
      more[line]?.map fun _ => offset + text.lineOffset (line + 1) := by
  induction text generalizing offset line first more with
  | nil =>
    cases parts
    rfl
  | cons char rest ih =>
    obtain ⟨next, others, split⟩ := Text.lines_eq_cons rest
    by_cases lineFeed : char = '\n'
    · subst lineFeed
      rw [Text.lines_lineFeed, split] at parts
      cases parts
      rw [Text.lineOffset_lineFeed, ← Nat.add_assoc]
      cases line with
      | zero => rfl
      | succ line =>
        rw [startsAfter, if_pos rfl, List.getElem?_cons_succ, List.getElem?_cons_succ, ih split]
        rfl
    · rw [Text.lines_cons lineFeed split] at parts
      cases parts
      rw [startsAfter, if_neg lineFeed, ih split, Text.lineOffset_cons lineFeed, Nat.add_assoc]

theorem lineStart?_eq (text : Text) (line : Nat) :
    (ofText text).lineStart? line = (Text.lines text)[line]?.map fun _ => text.lineOffset line := by
  obtain ⟨first, more, parts⟩ := Text.lines_eq_cons text
  rw [parts]
  cases line with
  | zero => simp [lineStart?, ofText]
  | succ line =>
    rw [lineStart?, ofText, List.getElem?_cons_succ, List.getElem?_cons_succ,
      getElem?_startsAfter parts, Nat.zero_add]

theorem lineCount_le_iff {text : Text} {line : Nat} :
    (ofText text).lineCount ≤ line ↔ (Text.lines text)[line]? = none := by
  have start := lineStart?_eq text line
  rw [lineCount, ← List.getElem?_eq_none_iff]
  rw [lineStart?] at start
  rw [start, Option.map_eq_none_iff]

theorem starts_ascend (text : Text) : (ofText text).starts.Pairwise (· < ·) := by
  have later : ∀ offset, (startsAfter offset text).Pairwise (· < ·) := by
    induction text with
    | nil => exact fun _ => .nil
    | cons char rest ih =>
      intro offset
      rw [startsAfter]
      split
      · exact .cons (fun _ => lt_of_mem_startsAfter) (ih _)
      · exact ih _
  exact .cons (fun _ => lt_of_mem_startsAfter) (later 0)

/-- The numbers that are kept are those in front of the first one that is not. -/
theorem takeWhile_eq_take {numbers : List Nat} {keeps : Nat → Bool} {count : Nat}
    (early : ∀ number ∈ numbers.take count, keeps number = true)
    (late : ∀ next, numbers[count]? = some next → keeps next = false) :
    numbers.takeWhile keeps = numbers.take count := by
  have rest : (numbers.drop count).takeWhile keeps = [] := by
    cases behind : numbers.drop count with
    | nil => rfl
    | cons next more =>
      have stops := late next (by rw [← List.head?_drop, behind]; rfl)
      simp [stops]
  rw [← List.take_append_drop count numbers, List.takeWhile_append_of_pos early, rest,
    List.append_nil, List.take_append_drop]

theorem lt_of_ascending {numbers : List Nat} (ascend : numbers.Pairwise (· < ·))
    {place number : Nat} (here : numbers[place]? = some number) :
    ∀ other ∈ numbers.take place, other < number := by
  intro other member
  obtain ⟨reached, rfl⟩ := List.getElem?_eq_some_iff.mp here
  obtain ⟨index, near, rfl⟩ := List.mem_iff_getElem.mp member
  rw [List.length_take] at near
  rw [List.getElem_take]
  exact List.pairwise_iff_getElem.mp ascend _ _ _ _ (by omega)

/-- Of ascending numbers those up to a bound are the first ones, up to the last that is within. -/
private theorem takeWhile_ascending {starts : List Nat} (ascend : starts.Pairwise (· < ·))
    {line start bound : Nat} (here : starts[line]? = some start) (within : start ≤ bound)
    (ahead : ∀ next, starts[line + 1]? = some next → bound < next) :
    starts.takeWhile (· ≤ bound) = starts.take (line + 1) := by
  refine takeWhile_eq_take (fun other member => ?_) fun next found => ?_
  · rw [List.take_add_one, here, Option.toList_some, List.mem_append, List.mem_singleton] at member
    rw [decide_eq_true_eq]
    rcases member with before | rfl
    · have := lt_of_ascending ascend here other before
      omega
    · exact within
  · simpa using ahead next found

/-- The last line that starts at or before an offset is the line of the offset. -/
theorem lineColumn_eq_of_between {text : Text} {line start offset : Nat}
    (starts : (ofText text).lineStart? line = some start) (behind : start ≤ offset)
    (inside : offset ≤ text.width)
    (ahead : ∀ next, (ofText text).lineStart? (line + 1) = some next → offset < next) :
    (ofText text).lineColumn offset = (line, offset - start) := by
  have clamped : min offset (ofText text).width = offset := Nat.min_eq_left inside
  have reached := (List.getElem?_eq_some_iff.mp starts).1
  have last : ((ofText text).starts.take (line + 1)).getLastD 0 = start := by
    rw [List.getLastD_eq_getLast?, List.getLast?_take, if_neg (Nat.succ_ne_zero line),
      Nat.add_sub_cancel, ← lineStart?, starts]
    rfl
  rw [lineColumn, clamped, takeWhile_ascending (starts_ascend text) starts behind ahead, last,
    List.length_take, Nat.min_eq_left (show line + 1 ≤ _ from reached), Nat.add_sub_cancel]

section Lines

variable {text content : Text} {line : Nat} (found : (Text.lines text)[line]? = some content)
include found

theorem lineStart?_of_line : (ofText text).lineStart? line = some (text.lineOffset line) := by
  rw [lineStart?_eq, found]
  rfl

/-- A line ends before its line feed, and the last one with the text. -/
theorem lineStop_of_line :
    (ofText text).lineStop line = text.lineOffset line + content.width := by
  have next := Text.lineOffset_next found
  have total := Text.width_succ_eq text
  rw [lineStop, lineStart?_eq]
  cases after : (Text.lines text)[line + 1]? with
  | some more => simp only [Option.map_some]; omega
  | none =>
    have length := List.getElem?_eq_none_iff.mp after
    have inside := (List.getElem?_eq_some_iff.mp found).1
    rw [show (Text.lines text).length = line + 1 by omega] at total
    simp only [Option.map_none, ofText]
    omega

/-- Places on a line have the number of the line and their distance from its start. -/
theorem lineColumn_of_line {column : Nat} (inside : column ≤ content.width) :
    (ofText text).lineColumn (text.lineOffset line + column) = (line, column) := by
  have next := Text.lineOffset_next found
  have within := Text.lineOffset_add_le found
  have ahead : ∀ start, (ofText text).lineStart? (line + 1) = some start →
      text.lineOffset line + column < start := by
    intro start starts
    rw [lineStart?_eq, Option.map_eq_some_iff] at starts
    obtain ⟨-, -, rfl⟩ := starts
    omega
  have place := lineColumn_eq_of_between (lineStart?_of_line found)
    (Nat.le_add_right _ column) (by omega) ahead
  rw [place, Nat.add_sub_cancel_left]

theorem offset?_of_line (column : Nat) : (ofText text).offset? line column =
    if text.lineOffset line + column < 2 ^ 64 then
      .ok (some (min (text.lineOffset line + column) (text.lineOffset line + content.width)))
    else .error .overflow := by
  rw [offset?_eq (lineStart?_of_line found), lineStop_of_line found]

end Lines

theorem offset?_eq_none_iff {text : Text} {line column : Nat} :
    (ofText text).offset? line column = .ok none ↔ (ofText text).lineCount ≤ line := by
  rw [lineCount_le_iff]
  cases found : (Text.lines text)[line]? with
  | none => simp [offset?, lineStart?_eq, found, pure, Except.pure]
  | some content =>
    rw [offset?_of_line found]
    split <;> simp

/-- An offset has the number of line feeds before it as its line. -/
theorem lineColumn_eq_lineFeeds {text : Text} {offset : Nat} (inside : offset ≤ text.width) :
    (ofText text).lineColumn offset =
      (text.lineFeeds offset, offset - text.lineOffset (text.lineFeeds offset)) := by
  obtain ⟨content, found, early, late⟩ := Text.exists_line text inside
  have onLine : offset - text.lineOffset (text.lineFeeds offset) ≤ content.width := by omega
  have place := lineColumn_of_line found onLine
  rwa [Nat.add_sub_cancel' early] at place

theorem lineColumn_min (text : Text) (offset : Nat) :
    (ofText text).lineColumn offset = (ofText text).lineColumn (min offset text.width) := by
  have twice : min (min offset text.width) text.width = min offset text.width := by omega
  rw [lineColumn, lineColumn, show (ofText text).width = text.width from rfl, twice]

/-- A text in which something else than line feeds is written has fewer lines than bytes. -/
theorem lineColumn_lt {text : Text} (written : ∃ char ∈ text, char ≠ '\n') (offset : Nat) :
    ((ofText text).lineColumn offset).1 < text.width := by
  obtain ⟨char, member, other⟩ := written
  obtain ⟨front, back, rfl⟩ := List.append_of_mem member
  rw [lineColumn_min, lineColumn_eq_lineFeeds (Nat.min_le_right _ _)]
  have own := List.count_eq_zero.mpr (Text.lineFeed_notMem_bytes other)
  calc Text.lineFeeds _ _
    _ ≤ (Text.bytes (front ++ char :: back)).count 10 := (List.take_sublist _ _).count_le 10
    _ = (Text.bytes front).count 10 + (Text.bytes back).count 10 := by
      simp [Text.bytes, own]
    _ ≤ Text.width front + Text.width back := by
      rw [← Text.length_bytes, ← Text.length_bytes]
      exact Nat.add_le_add List.count_le_length List.count_le_length
    _ < Text.width (front ++ char :: back) := by
      have wide := char.utf8Size_pos
      simp only [Text.width_append, Text.width_cons]
      omega

theorem lineColumn_monotone (text : Text) :
    Monotone fun offset => toLex ((ofText text).lineColumn offset) := by
  intro offset later order
  have clamped : min offset text.width ≤ min later text.width := by omega
  have feeds := Text.lineFeeds_mono text clamped
  simp only
  rw [lineColumn_min, lineColumn_min text later, lineColumn_eq_lineFeeds (Nat.min_le_right _ _),
    lineColumn_eq_lineFeeds (Nat.min_le_right _ _), Prod.Lex.toLex_le_toLex]
  rcases Nat.lt_or_eq_of_le feeds with less | same
  · exact .inl less
  · exact .inr ⟨same, by rw [same]; omega⟩

/-- The laws of the line index of a text. The line of an offset is the number of line feeds before
it, its column counts from the start of that line, and both lead back to the offset. A column of a
line leads to its byte or to the end of the line before its line feed, and from there back to the
line and the column. Only lines that the text does not have lead nowhere; and later offsets have
later places. Offsets behind the text count as its end. A place is reached unless its column and the
start of its line have no sum in words of 64 bits. -/
theorem lineColumn_laws (text : Text) :
    let index := ofText text
    (∀ offset, let reached := min offset text.width
      index.lineColumn offset =
        (text.lineFeeds reached, reached - text.lineOffset (text.lineFeeds reached)) ∧
      text.lineOffset (text.lineFeeds reached) ≤ reached ∧
      index.offset? (index.lineColumn offset).1 (index.lineColumn offset).2 =
        if reached < 2 ^ 64 then .ok (some reached) else .error .overflow) ∧
    (∀ line < index.lineCount, ∃ content, (Text.lines text)[line]? = some content ∧
      ∀ column,
        let reached := min (text.lineOffset line + column) (text.lineOffset line + content.width)
        index.offset? line column = (if text.lineOffset line + column < 2 ^ 64 then
          .ok (some reached) else .error .overflow) ∧
        index.lineColumn reached = (line, min column content.width)) ∧
    (∀ line column, index.offset? line column = .ok none ↔ index.lineCount ≤ line) ∧
    Monotone fun offset => toLex (index.lineColumn offset) := by
  refine ⟨fun offset => ?_, fun line inside => ?_, fun _ _ => offset?_eq_none_iff,
    lineColumn_monotone text⟩
  · have within : min offset text.width ≤ text.width := Nat.min_le_right _ _
    obtain ⟨content, found, early, late⟩ := Text.exists_line text within
    rw [lineColumn_min, lineColumn_eq_lineFeeds within]
    refine ⟨rfl, early, ?_⟩
    rw [offset?_of_line found, Nat.add_sub_cancel' early, Nat.min_eq_left late]
  · obtain ⟨content, found⟩ : ∃ content, (Text.lines text)[line]? = some content := by
      rw [← Option.ne_none_iff_exists', ne_eq, ← lineCount_le_iff]
      exact Nat.not_le_of_lt inside
    refine ⟨content, found, fun column => ⟨offset?_of_line found column, ?_⟩⟩
    rw [Nat.add_min_add_left, lineColumn_of_line found (Nat.min_le_right _ _)]

/-- Column seven of a line of two bytes is its end, before the line feed that ends the text. -/
theorem lineColumn_laws_past_end :
    let index := ofText "ab\né\n".toList
    1 < index.lineCount ∧ index.offset? 1 7 = .ok (some 5) ∧ index.lineColumn 5 = (1, 2) := by
  intro index
  have inside : 1 < index.lineCount := by decide
  obtain ⟨content, found, places⟩ := (lineColumn_laws "ab\né\n".toList).2.1 1 inside
  obtain rfl : ['é'] = content := Option.some.inj found
  exact ⟨inside, places 7⟩

/-- The last column that a word can name is past the end of the second line, and yet it is not moved
back to it. -/
theorem offset?_last_column :
    ¬ ∀ (text : Text) (line column : Nat), line < (ofText text).lineCount → column < 2 ^ 64 →
      ∃ content, (Text.lines text)[line]? = some content ∧
        (ofText text).offset? line column = .ok (some
          (min (text.lineOffset line + column) (text.lineOffset line + content.width))) := by
  intro moved
  obtain ⟨content, -, reached⟩ := moved "a\nb".toList 1 (2 ^ 64 - 1) (by decide) (by decide)
  have ended : (ofText "a\nb".toList).offset? 1 (2 ^ 64 - 1) = .error .overflow := by
    decide +kernel
  cases ended.symm.trans reached

end LineIndex

end RelayWorkbench
