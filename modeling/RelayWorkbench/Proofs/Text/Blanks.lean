import Mathlib
import RelayWorkbench.Text.Blank
import RelayWorkbench.Text.Letter

/-! White space at the ends of a text. -/

namespace RelayWorkbench.Text

theorem isBlank_of_isWordChar {char : Char} (word : isWordChar char) : isBlank char = false := by
  simp only [isWordChar, Char.isAlphanum, Char.isAlpha, Char.isUpper, Char.isLower, Char.isDigit,
    Bool.or_eq_true, Bool.and_eq_true, decide_eq_true_eq, beq_iff_eq, UInt32.le_iff_toNat_le,
    ge_iff_le] at word
  change (((65 ≤ char.toNat ∧ char.toNat ≤ 90) ∨ (97 ≤ char.toNat ∧ char.toNat ≤ 122)) ∨
    (48 ≤ char.toNat ∧ char.toNat ≤ 57)) ∨ char = '_' at word
  rcases word with ((_ | _) | _) | rfl
  · simp [isBlank, blankIntervals]; omega
  · simp [isBlank, blankIntervals]; omega
  · simp [isBlank, blankIntervals]; omega
  · decide

/-- Whether a character only lays out a GraphQL document: white space or a comma. -/
def isLayout (char : Char) : Bool := isBlank char || char == ','

theorem isBlank_of_not_isLayout {char : Char} (written : isLayout char = false) :
    isBlank char = false := by
  rw [isLayout, Bool.or_eq_false_iff] at written
  exact written.1

/-- A text that neither begins nor ends with layout. -/
structure Tight (text : Text) : Prop where
  first : ∃ char rest, text = char :: rest ∧ isLayout char = false
  last : ∃ front char, text = front ++ [char] ∧ isLayout char = false

theorem tight_of_forall {text : Text} (written : text ≠ [])
    (plain : ∀ char ∈ text, isLayout char = false) : Tight text := by
  refine ⟨?_, text.dropLast, text.getLast written, (List.dropLast_append_getLast written).symm,
    plain _ (List.getLast_mem written)⟩
  obtain ⟨char, rest, rfl⟩ := List.exists_cons_of_ne_nil written
  exact ⟨char, rest, rfl, plain char List.mem_cons_self⟩

theorem trailingBlank_append (front : Text) {back : Text} (written : back.all isBlank = false) :
    trailingBlank (front ++ back) = trailingBlank back := by
  have stops : (back.reverse.takeWhile isBlank).length ≠ back.reverse.length := by
    intro same
    have whole := (List.takeWhile_prefix isBlank).eq_of_length same
    rw [← List.all_reverse, ← whole, List.all_takeWhile] at written
    cases written
  rw [trailingBlank, List.reverse_append, List.takeWhile_append, if_neg stops, trailingBlank]

theorem trailingBlank_append_of_all (front : Text) {back : Text} (blank : back.all isBlank) :
    trailingBlank (front ++ back) = trailingBlank front ++ back := by
  have whole : back.reverse.takeWhile isBlank = back.reverse :=
    List.takeWhile_eq_self_iff.mpr (List.all_eq_true.mp (by simpa using blank))
  rw [trailingBlank, List.reverse_append, List.takeWhile_append, whole, if_pos rfl,
    List.reverse_append, List.reverse_reverse, trailingBlank]

theorem all_trailingBlank (text : Text) : (trailingBlank text).all isBlank := by
  rw [trailingBlank, List.all_reverse]
  exact List.all_takeWhile

theorem trailingBlank_concat (front : Text) {char : Char} (written : isBlank char = false) :
    trailingBlank (front ++ [char]) = [] := by
  simp [trailingBlank, written]

theorem isEmpty_trim (text : Text) : (trim text).isEmpty = text.all isBlank := by
  rw [Bool.eq_iff_iff, List.isEmpty_iff, trim, trimEnd, trimEndBy, List.reverse_eq_nil_iff,
    List.dropWhile_eq_nil_iff, trimStart, trimStartBy, List.all_eq_true]
  constructor
  · intro blank char member
    rw [← List.takeWhile_append_dropWhile (p := isBlank) (l := text), List.mem_append] at member
    rcases member with front | back
    · exact List.mem_takeWhile_imp front
    · exact blank char (List.mem_reverse.mpr back)
  · exact fun blank char member =>
      blank char ((List.dropWhile_sublist _).subset (List.mem_reverse.mp member))

theorem isBlank_getLast?_trimEnd (text : Text) :
    ∀ last ∈ (trimEnd text).getLast?, isBlank last = false := by
  intro last ends
  rw [trimEnd, trimEndBy, List.getLast?_reverse] at ends
  have stops := List.head?_dropWhile_not isBlank text.reverse
  rw [Option.mem_def.mp ends] at stops
  simpa using stops

theorem trimEnd_append_trailingBlank (text : Text) : trimEnd text ++ trailingBlank text = text := by
  rw [trimEnd, trimEndBy, trailingBlank, ← List.reverse_append, List.takeWhile_append_dropWhile,
    List.reverse_reverse]

/-- A text ends in some white space, and that is all the white space at its end. -/
structure EndsInBlank (text blank : Text) : Prop where
  white : ∀ char ∈ blank, isBlank char
  whole : ∃ front, text = front ++ blank ∧ ∀ last ∈ front.getLast?, isBlank last = false

theorem endsInBlank_trailingBlank (text : Text) : EndsInBlank text (trailingBlank text) where
  white := List.all_eq_true.mp (all_trailingBlank text)
  whole := ⟨trimEnd text, (trimEnd_append_trailingBlank text).symm, isBlank_getLast?_trimEnd text⟩

end RelayWorkbench.Text
