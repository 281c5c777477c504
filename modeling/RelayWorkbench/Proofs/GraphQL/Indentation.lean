import RelayWorkbench.Proofs.GraphQL.Content
import RelayWorkbench.Proofs.Text.Indenting

/-! Indentation does not change what a text says. White space between lexemes means nothing, and
inside a block string the indentation that all lines share is no part of the value. -/

namespace RelayWorkbench.GraphQL

open Text (indented spaces)

private theorem indented_eq_cons {text behind rest : Text} {char : Char} {count : Nat}
    (white : ∀ char ∈ behind, Lexeme.ignored.contains char)
    (meant : Lexeme.ignored.contains char = false)
    (same : indented count behind text = char :: rest) :
    ∃ more, text = char :: more ∧ rest = indented count behind more := by
  cases text with
  | nil =>
    rw [Text.indented_nil] at same
    rw [white char (same ▸ List.mem_cons_self ..)] at meant
    cases meant
  | cons first more =>
    by_cases lineFeed : first = '\n'
    · subst lineFeed
      cases same
      exact absurd meant (by decide)
    · rw [Text.indented_cons lineFeed] at same
      cases same
      exact ⟨more, rfl, rfl⟩

namespace StringValue

/-- The lines of a block string without carriage returns are those of the text. -/
private theorem blockLines_eq {raw : Text} (plain : '\r' ∉ raw) :
    blockLines raw = Text.lines raw := by
  induction raw with
  | nil => rfl
  | cons char rest ih =>
    rw [List.mem_cons, not_or] at plain
    by_cases lineFeed : char = '\n'
    · subst lineFeed
      rw [Text.lines_lineFeed, ← ih plain.2]
      simp [blockLines, isLineEnd]
    · obtain ⟨first, more, parts⟩ := Text.lines_eq_cons rest
      have inLine : isLineEnd char = false := by simp [isLineEnd, lineFeed, Ne.symm plain.1]
      rw [Text.lines_cons lineFeed parts]
      simp [blockLines, Ne.symm plain.1, inLine, ih plain.2, parts]

private theorem isBlankLine_spaces (count : Nat) (line : Text) :
    isBlankLine (spaces count ++ line) = isBlankLine line := by
  simp [isBlankLine, spaces, isIndent]

private theorem indentation?_spaces (count : Nat) (line : Text) :
    indentation? (spaces count ++ line) = (indentation? line).map (count + ·) := by
  have passes : ∀ char ∈ spaces count, isIndent char := by
    simp [spaces, isIndent]
  simp only [indentation?, isBlankLine_spaces]
  split
  · rfl
  · rw [List.takeWhile_append_of_pos passes, List.length_append, Option.map_some]
    simp [spaces]

private theorem min?_map_add (count : Nat) (numbers : List Nat) :
    (numbers.map (count + ·)).min? = numbers.min?.map (count + ·) := by
  cases least : numbers.min? with
  | none => simpa using least
  | some number =>
    rw [List.min?_eq_some_iff] at least
    rw [Option.map_some, List.min?_eq_some_iff]
    refine ⟨List.mem_map_of_mem least.1, ?_⟩
    simpa using least.2

private theorem commonIndentation_spaces (count : Nat) {lines : List Text}
    (written : lines.all isBlankLine = false) :
    commonIndentation (lines.map (spaces count ++ ·)) = count + commonIndentation lines := by
  have moved : (lines.map (spaces count ++ ·)).filterMap indentation? =
      (lines.filterMap indentation?).map (count + ·) := by
    rw [List.filterMap_map, List.map_filterMap]
    congr 1
    funext line
    exact indentation?_spaces count line
  rw [commonIndentation, moved, min?_map_add, commonIndentation]
  cases least : (lines.filterMap indentation?).min? with
  | some number => rfl
  | none =>
    rw [List.min?_eq_none_iff, List.filterMap_eq_nil_iff] at least
    have blank : lines.all isBlankLine := by
      refine List.all_eq_true.mpr fun line member => ?_
      have none := least line member
      rw [indentation?] at none
      split at none
      · assumption
      · cases none
    rw [written] at blank
    cases blank

/-- Lines without the blank ones at both ends. -/
private def kept (lines : List Text) : List Text :=
  ((lines.dropWhile isBlankLine).reverse.dropWhile isBlankLine).reverse

private theorem kept_cons {first : Text} {more : List Text} (blank : more.all isBlankLine) :
    kept (first :: more) = if isBlankLine first then [] else [first] := by
  have none : ∀ {lines : List Text}, lines.all isBlankLine → lines.dropWhile isBlankLine = [] :=
    fun blank => List.dropWhile_eq_nil_iff.mpr (List.all_eq_true.mp blank)
  by_cases empty : isBlankLine first
  · simp [kept, empty, none blank]
  · have back : more.reverse.all isBlankLine := by simpa using blank
    rw [kept, List.dropWhile_cons_of_neg empty, List.reverse_cons,
      List.dropWhile_append_of_pos (List.all_eq_true.mp back), List.dropWhile_cons_of_neg empty,
      if_neg empty]
    rfl

/-- The value of lines, of which the first stands behind the opening quotes. -/
private theorem blockValue_eq {raw first : Text} {more : List Text} (plain : '\r' ∉ raw)
    (parts : Text.lines raw = first :: more) :
    blockValue raw = unescapeBlock
      (Text.ofLines (kept (first :: more.map (·.drop (commonIndentation more))))) := by
  rw [blockValue, blockLines_eq plain, parts]
  rfl

theorem return_notMem_indented {raw : Text} (plain : '\r' ∉ raw) (count : Nat) :
    '\r' ∉ indented count [] raw := by
  induction raw with
  | nil => exact plain
  | cons char rest ih =>
    rw [List.mem_cons, not_or] at plain
    have apart : '\r' ∉ spaces count := by simp [spaces, List.mem_replicate]
    by_cases lineFeed : char = '\n'
    · subst lineFeed
      simp [Text.indented_lineFeed, apart, ih plain.2]
    · simp [Text.indented_cons lineFeed, plain.1, ih plain.2]

/-- A block string that is moved to the right has the same value. -/
theorem blockValue_indented {raw : Text} (plain : '\r' ∉ raw) (count : Nat) :
    blockValue (indented count [] raw) = blockValue raw := by
  obtain ⟨first, more, parts⟩ := Text.lines_eq_cons raw
  rw [blockValue_eq plain parts,
    blockValue_eq (return_notMem_indented plain count) (Text.lines_indented parts)]
  have still : (more.map (spaces count ++ ·)).all isBlankLine = more.all isBlankLine := by
    simp only [List.all_map]
    congr 1
    funext line
    exact isBlankLine_spaces count line
  cases blank : more.all isBlankLine with
  | true =>
    have drops : ∀ (number : Nat) {lines : List Text}, lines.all isBlankLine →
        (lines.map (·.drop number)).all isBlankLine := by
      intro number lines blank
      simp only [List.all_map, List.all_eq_true, Function.comp, isBlankLine] at blank ⊢
      exact fun line member char inside => blank line member char (List.mem_of_mem_drop inside)
    rw [kept_cons (drops _ blank), kept_cons (drops _ (still.trans blank))]
  | false =>
    rw [commonIndentation_spaces count blank, List.map_map]
    congr 3
    refine congrArg (first :: ·) (List.map_congr_left fun line _ => ?_)
    simp [spaces, List.drop_append]

theorem splitQuoted?_indented {text raw after : Text} (count : Nat) (behind : Text)
    (found : splitQuoted? text = some (raw, after)) :
    splitQuoted? (indented count behind text) = some (raw, indented count behind after) := by
  have inLine : ∀ {char : Char}, ¬ isLineEnd char → char ≠ '\n' := by
    rintro _ stays rfl
    exact stays rfl
  fun_induction splitQuoted? text generalizing raw with
  | case1 | case3 | case5 => cases found
  | case2 rest => cases found; rfl
  | case4 char rest stays ih =>
    obtain ⟨⟨inner, back⟩, split, same⟩ := Option.map_eq_some_iff.mp found
    cases same
    rw [Text.indented_cons (by decide), Text.indented_cons (inLine stays)]
    simp [splitQuoted?, stays, ih split]
  | case6 char rest closes escapes stays ih =>
    obtain ⟨⟨inner, back⟩, split, same⟩ := Option.map_eq_some_iff.mp found
    cases same
    have plain : char ≠ '\\' := by
      rintro rfl
      cases rest with
      | nil => cases split
      | cons next rest => exact escapes next rest rfl rfl
    rw [Text.indented_cons (inLine stays)]
    simp [splitQuoted?, plain, stays, ih split]

theorem splitBlock?_indented {text raw after behind : Text} (count : Nat)
    (white : ∀ char ∈ behind, Lexeme.ignored.contains char)
    (found : splitBlock? text = some (raw, after)) :
    splitBlock? (indented count behind text) =
      some (indented count [] raw, indented count behind after) := by
  have front : ∀ {char : Char} {text rest : Text}, Lexeme.ignored.contains char = false →
      indented count behind text = char :: rest →
        ∃ more, text = char :: more ∧ rest = indented count behind more :=
    indented_eq_cons white
  fun_induction splitBlock? text generalizing raw with
  | case1 => cases found
  | case2 rest => cases found; rfl
  | case3 rest ih =>
    obtain ⟨⟨inner, back⟩, split, same⟩ := Option.map_eq_some_iff.mp found
    cases same
    simp only [Text.indented_cons (show '\\' ≠ '\n' by decide),
      Text.indented_cons (show '"' ≠ '\n' by decide), splitBlock?, ih split]
    rfl
  | case4 char rest closes escapes ih =>
    obtain ⟨⟨inner, back⟩, split, same⟩ := Option.map_eq_some_iff.mp found
    cases same
    by_cases lineFeed : char = '\n'
    · subst lineFeed
      rw [Text.indented_lineFeed, Text.indented_lineFeed, splitBlock?_lineFeed,
        splitBlock?_spaces, ih split]
      rfl
    · rw [Text.indented_cons lineFeed, Text.indented_cons lineFeed, splitBlock?, ih split]
      · rfl
      · intro more quote twice
        obtain ⟨second, here, next⟩ := front (by decide) twice
        obtain ⟨third, there, -⟩ := front (by decide) next.symm
        exact closes third quote (by rw [here, there])
      · intro more slash thrice
        obtain ⟨second, here, next⟩ := front (by decide) thrice
        obtain ⟨third, there, last⟩ := front (by decide) next.symm
        obtain ⟨fourth, behind', -⟩ := front (by decide) last.symm
        exact escapes fourth slash (by rw [here, there, behind'])

end StringValue

namespace Lexeme

section

variable {behind : Text} (count : Nat)

private theorem run_indented (white : ∀ char ∈ behind, ignored.contains char) {holds : Char → Bool}
    (stops : ∀ char ∈ ignored, holds char = false) (text : Text) :
    Text.run holds (indented count behind text) =
      ((Text.run holds text).1, indented count behind (Text.run holds text).2) := by
  induction text with
  | nil =>
    cases behind with
    | nil => rfl
    | cons char rest =>
      have blank : char ∈ ignored := by simpa using white char (List.mem_cons_self ..)
      simp [Text.run, stops char blank]
  | cons char rest ih =>
    by_cases lineFeed : char = '\n'
    · subst lineFeed
      have stops := stops '\n' (by decide)
      simp [Text.run, stops, Text.indented_lineFeed]
    · rw [Text.indented_cons lineFeed]
      simp only [Text.run, Prod.mk.injEq] at ih
      by_cases goesOn : holds char
      · simp [Text.run, goesOn, ih]
      · simp [Text.run, goesOn, Text.indented_cons lineFeed]

private theorem head?_indented (white : ∀ char ∈ behind, ignored.contains char)
    {holds : Char → Bool} (stops : ∀ char ∈ ignored, holds char = false) (text : Text) :
    (indented count behind text).head?.any holds = text.head?.any holds := by
  cases text with
  | nil =>
    cases behind with
    | nil => rfl
    | cons char rest =>
      have blank : char ∈ ignored := by simpa using white char (List.mem_cons_self ..)
      simp [stops char blank]
  | cons char rest =>
    by_cases lineFeed : char = '\n'
    · subst lineFeed
      rfl
    · rw [Text.indented_cons lineFeed]
      rfl

private theorem ne_cons_indented (white : ∀ char ∈ behind, ignored.contains char) {char : Char}
    (meant : ignored.contains char = false) {text : Text} (plain : ∀ rest, text ≠ char :: rest)
    (rest : Text) : indented count behind text ≠ char :: rest := by
  intro same
  obtain ⟨more, here, -⟩ := indented_eq_cons white meant same
  exact plain more here

private theorem not_isDigit_ignored : ∀ char ∈ ignored, Char.isDigit char = false :=
  Text.forall_of_all (by decide)

private theorem fraction_indented (white : ∀ char ∈ behind, ignored.contains char) (text : Text) :
    Text.fraction (indented count behind text) =
      ((Text.fraction text).1, indented count behind (Text.fraction text).2) := by
  have run := run_indented count white not_isDigit_ignored
  fun_cases Text.fraction text with
  | case1 rest digits back parts none | case2 rest digits back parts some =>
    rw [Text.indented_cons (by decide)]
    simp [Text.fraction, *]
  | case3 _ plain =>
    have stays := ne_cons_indented count white (by decide) plain
    simp [Text.fraction]

private theorem exponent_of_ne {char : Char} (other : ¬ (char = 'e' || char = 'E')) (rest : Text) :
    Text.exponent (char :: rest) = ([], char :: rest) := by
  unfold Text.exponent
  exact if_neg other

private theorem exponent_indented (white : ∀ char ∈ behind, ignored.contains char) (text : Text) :
    Text.exponent (indented count behind text) =
      ((Text.exponent text).1, indented count behind (Text.exponent text).2) := by
  have run := run_indented count white not_isDigit_ignored
  fun_cases Text.exponent text with
  | case1 char rest letter sign unsigned signed digits back parts none
  | case2 char rest letter sign unsigned signed digits back parts some =>
    have other : char ≠ '\n' := by
      rintro rfl
      exact absurd letter (by decide)
    rw [Text.indented_cons other]
    split at signed
    · cases signed
      rw [Text.indented_cons (by decide)]
      simp [Text.exponent, Text.indented_cons, *]
    · cases signed
      rw [Text.indented_cons (by decide)]
      simp [Text.exponent, Text.indented_cons, *]
    · next plus minus =>
      cases signed
      have plus := ne_cons_indented count white (by decide) plus
      have minus := ne_cons_indented count white (by decide) minus
      simp [Text.exponent, Text.indented_cons, *]
  | case3 char rest plain =>
    by_cases lineFeed : char = '\n'
    · subst lineFeed
      rfl
    · rw [Text.indented_cons lineFeed, exponent_of_ne plain]
  | case4 =>
    cases behind with
    | nil => rfl
    | cons char rest =>
      have blank : char ∈ ignored := by simpa using white char (List.mem_cons_self ..)
      have apart : ∀ char ∈ ignored, ¬ (char = 'e' || char = 'E') :=
        Text.forall_of_all (by decide)
      rw [Text.indented_nil, exponent_of_ne (apart char blank)]

private theorem not_extendsNumber_ignored : ∀ char ∈ ignored, extendsNumber char = false :=
  Text.forall_of_all (by decide)

private theorem readNumber_indented (white : ∀ char ∈ behind, ignored.contains char)
    (text : Text) :
    readNumber (indented count behind text) = ((readNumber text).1, (readNumber text).2.1,
      indented count behind (readNumber text).2.2) := by
  have digits := run_indented count white not_isDigit_ignored
  have extra := run_indented count white not_extendsNumber_ignored
  have ends := head?_indented count white not_extendsNumber_ignored
  have decimals := fraction_indented count white
  have power := exponent_indented count white
  by_cases signed : ∃ rest, text = '-' :: rest
  · obtain ⟨rest, rfl⟩ := signed
    rw [Text.indented_cons (by decide), readNumber, readNumber]
    simp only [digits, extra, ends, decimals, power]
    split
    · split <;> rfl
    · rfl
  · have plain : ∀ rest, text ≠ '-' :: rest := fun rest same => signed ⟨rest, same⟩
    rw [readNumber, readNumber]
    · simp only [digits, extra, ends, decimals, power]
      split
      · split <;> rfl
      · rfl
    · exact plain
    · exact ne_cons_indented count white (by decide) plain

private theorem readString_indented (white : ∀ char ∈ behind, ignored.contains char) {text : Text}
    (plain : '\r' ∉ text) (sound : (readString text).1 ≠ .fault) :
    (readString (indented count behind text)).1 = (readString text).1 ∧
      (readString (indented count behind text)).2.2 =
        indented count behind (readString text).2.2 := by
  fun_cases readString text with
  | case1 rest raw after found =>
    have inside : '\r' ∉ raw := by
      intro member
      rw [StringValue.eq_of_splitBlock? found] at plain
      exact plain (by simp [member])
    simp only [Text.indented_cons (show '"' ≠ '\n' by decide), readString,
      StringValue.splitBlock?_indented count white found,
      StringValue.blockValue_indented inside count]
    trivial
  | case2 rest none => simp [readString, none] at sound
  | case3 _ other raw after found written value valid =>
    have stays : ∀ rest, indented count behind text ≠ '"' :: '"' :: rest := by
      intro rest same
      obtain ⟨second, here, next⟩ := indented_eq_cons white (by decide) same
      obtain ⟨third, there, -⟩ := indented_eq_cons white (by decide) next.symm
      exact other third (by rw [here, there])
    rw [readString, StringValue.splitQuoted?_indented count behind found]
    · simp only [valid]
      trivial
    · exact stays
  | case4 _ other raw after found written invalid =>
    simp [readString, found, invalid] at sound
  | case5 _ other none raw after parts =>
    simp [readString, none] at sound

private theorem not_isWordChar_ignored : ∀ char ∈ ignored, Text.isWordChar char = false :=
  Text.forall_of_all (by decide)

private theorem readPiece_indented (white : ∀ char ∈ behind, ignored.contains char) {char : Char}
    {rest : Text} (plain : '\r' ∉ rest) (sound : (readPiece char rest).1 ≠ .fault)
    (uncommented : ∀ text, (readPiece char rest).1 ≠ .comment text) :
    (readPiece char (indented count behind rest)).1 = (readPiece char rest).1 ∧
      (readPiece char (indented count behind rest)).2.2 =
        indented count behind (readPiece char rest).2.2 := by
  by_cases blank : ignored.contains char
  · simp only [readPiece, if_pos blank]
    trivial
  by_cases code : char = '#'
  · simp only [readPiece, if_neg blank, if_pos code] at uncommented
    exact absurd rfl (uncommented _)
  by_cases letter : isNameStart char
  · have words := run_indented count white not_isWordChar_ignored rest
    simp only [readPiece, if_neg blank, if_neg code, if_pos letter, words]
    trivial
  by_cases mark : marks.contains char
  · simp only [readPiece, if_neg blank, if_neg code, if_neg letter, if_pos mark]
    trivial
  by_cases quote : char = '"'
  · simp only [readPiece, if_neg blank, if_neg code, if_neg letter, if_neg mark, if_pos quote]
      at sound ⊢
    exact readString_indented count white plain sound
  by_cases numeric : char.isDigit || char = '-'
  · have other : char ≠ '\n' := by
      rintro rfl
      exact absurd numeric (by decide)
    simp only [readPiece, if_neg blank, if_neg code, if_neg letter, if_neg mark, if_neg quote,
      if_pos numeric, ← Text.indented_cons other, readNumber_indented count white]
    trivial
  simp only [readPiece, if_neg blank, if_neg code, if_neg letter, if_neg mark, if_neg quote,
    if_neg numeric] at sound ⊢
  split at sound
  · rw [Text.indented_cons (by decide), Text.indented_cons (by decide)]
    trivial
  · exact absurd rfl sound

end

theorem content_white {white : Text} (ignores : ∀ char ∈ white, ignored.contains char)
    (rest : Text) : content (white ++ rest) = content rest := by
  induction white with
  | nil => rfl
  | cons char more ih =>
    rw [List.cons_append, content_ignored (ignores char (List.mem_cons_self ..)),
      ih fun char member => ignores char (List.mem_cons_of_mem _ member)]

theorem ignores_spaces (count : Nat) : ∀ char ∈ spaces count, ignored.contains char := by
  intro char member
  rw [List.eq_of_mem_replicate member]
  decide

/-- Neither indentation nor white space behind it changes what a sound text says. -/
theorem content_indented {text behind : Text} (plain : '\r' ∉ text)
    (sound : ∀ piece ∈ content text, ∃ lexeme, piece = .lexeme lexeme) (count : Nat)
    (white : ∀ char ∈ behind, ignored.contains char) :
    content (indented count behind text) = content text := by
  induction long : text.length using Nat.strongRecOn generalizing text with
  | ind length ih =>
    cases text with
    | nil => simpa using content_white white []
    | cons char rest =>
      have shorter := length_readPiece char rest
      have parts := readPiece_append char rest
      rw [content_cons] at sound
      have plainAfter : '\r' ∉ (readPiece char rest).2.2 := by
        rw [← parts] at plain
        exact fun member => plain (List.mem_append_right _ member)
      have soundAfter := fun piece member => sound piece (List.mem_append_right _ member)
      rw [List.length_cons] at long
      have later := ih _ (by omega) plainAfter soundAfter rfl
      by_cases lineFeed : char = '\n'
      · subst lineFeed
        have blank : ignored.contains '\n' := by decide
        rw [Text.indented_lineFeed, content_ignored blank, content_ignored blank,
          content_white (ignores_spaces count)]
        exact later
      · have own : ∀ piece, (readPiece char rest).1 = piece → piece ≠ .ignored →
            ∃ lexeme, piece = .lexeme lexeme := by
          rintro _ rfl written
          exact sound _ (List.mem_append_left _ (by simp [Piece.content, written]))
        have plainRest : '\r' ∉ rest := fun member => plain (List.mem_cons_of_mem char member)
        have same := readPiece_indented count white plainRest
          (fun fault => by simpa using own _ fault (by simp))
          (fun text comment => by simpa using own _ comment (by simp))
        rw [Text.indented_cons lineFeed, content_cons, content_cons, same.1, same.2, later]

end Lexeme

end RelayWorkbench.GraphQL
