import Mathlib
import RelayWorkbench.GraphQL.Lexeme
import RelayWorkbench.Text.Case

/-! Names that are made of names. A name is a name again when its first letter changes its case, and
when word characters are put behind it. -/

namespace RelayWorkbench.GraphQL.Lexeme

variable {name : Name}

theorem isWordChar_of_isNameStart {char : Char} (starts : isNameStart char) :
    Text.isWordChar char := by
  simp only [isNameStart, Text.isWordChar, Char.isAlphanum, Bool.or_eq_true] at *
  rcases starts with letter | underscore
  · exact .inl (.inl letter)
  · exact .inr underscore

theorem all_isWordChar (named : isName name) : name.all Text.isWordChar := by
  cases name with
  | nil => rfl
  | cons char rest =>
    simp only [isName, Bool.and_eq_true] at named
    simp only [List.all_cons, isWordChar_of_isNameStart named.1, named.2, Bool.and_self]

theorem notMem_of_isName {char : Char} (named : isName name)
    (other : Text.isWordChar char = false) : char ∉ name := fun member =>
  Bool.false_ne_true (other.symm.trans (List.all_eq_true.mp (all_isWordChar named) char member))

theorem isName_append {more : Text} (named : isName name) (word : more.all Text.isWordChar) :
    isName (name ++ more) := by
  cases name with
  | nil => cases named
  | cons char rest =>
    simp only [isName, Bool.and_eq_true] at named
    simp only [isName, List.cons_append, List.all_append, named.1, named.2, word, Bool.and_self]

theorem isName_append_underscore {more : Text} (named : isName name)
    (word : more.all Text.isWordChar) : isName (name ++ '_' :: more) := by
  refine isName_append named ?_
  rw [List.all_cons, word, Bool.and_true]
  decide

theorem append_underscore_ne {word : Text} (plain : '_' ∉ word) (name more : Text) :
    name ++ '_' :: more ≠ word := by
  rintro rfl
  exact plain (List.mem_append_right name List.mem_cons_self)

/-- A case mapping that keeps characters of one kind among themselves. -/
private def Keeps (kind : Char → Bool) (mapping : Text.CaseMap) : Prop :=
  ∀ char, kind char → ∃ image, mapping.apply char = [image] ∧ kind image

private theorem isWordChar_lt {char : Char} (word : Text.isWordChar char) : char.toNat < 128 := by
  simp only [Text.isWordChar, Char.isAlphanum, Char.isAlpha, Char.isUpper, Char.isLower,
    Char.isDigit, Bool.or_eq_true, Bool.and_eq_true, decide_eq_true_eq, beq_iff_eq] at word
  rcases word with ((⟨_, small⟩ | ⟨_, small⟩) | ⟨_, small⟩) | rfl
  · exact Nat.lt_of_le_of_lt small (by decide)
  · exact Nat.lt_of_le_of_lt small (by decide)
  · exact Nat.lt_of_le_of_lt small (by decide)
  · decide

private theorem keeps_of_lt {kind : Char → Bool} {mapping : Text.CaseMap}
    (words : ∀ char, kind char → Text.isWordChar char)
    (keeps : ∀ code < 128, kind (Char.ofNat code) →
      ((mapping.apply (Char.ofNat code)).length = 1 ∧
        (mapping.apply (Char.ofNat code)).all kind)) : Keeps kind mapping := by
  intro char holds
  have same : Char.ofNat char.toNat = char := Char.ofNat_toNat char
  obtain ⟨single, image⟩ := keeps char.toNat (isWordChar_lt (words char holds)) (by rwa [same])
  rw [same] at single image
  obtain ⟨letter, one⟩ := List.length_eq_one_iff.mp single
  exact ⟨letter, one, by simpa [one] using image⟩

private theorem keeps_upperCase : Keeps isNameStart Text.upperCase :=
  keeps_of_lt (fun _ => isWordChar_of_isNameStart) (by decide +kernel)

private theorem keeps_lowerCase : Keeps isNameStart Text.lowerCase :=
  keeps_of_lt (fun _ => isWordChar_of_isNameStart) (by decide +kernel)

private theorem keeps_words_lowerCase : Keeps Text.isWordChar Text.lowerCase :=
  keeps_of_lt (fun _ => id) (by decide +kernel)

/-- A name with another first letter. -/
private theorem isName_apply_append {mapping : Text.CaseMap} (keeps : Keeps isNameStart mapping)
    {char : Char} {rest : Text} (named : isName (char :: rest)) :
    isName (mapping.apply char ++ rest) := by
  simp only [isName, Bool.and_eq_true] at named
  obtain ⟨image, one, starts⟩ := keeps char named.1
  simp [one, isName, starts, named.2]

theorem isName_capitalize (named : isName name) : isName (Text.capitalize name) := by
  cases name with
  | nil => cases named
  | cons => exact isName_apply_append keeps_upperCase named

theorem isName_uncapitalize (named : isName name) : isName (Text.uncapitalize name) := by
  cases name with
  | nil => cases named
  | cons => exact isName_apply_append keeps_lowerCase named

theorem all_isWordChar_uncapitalize {text : Text} (word : text.all Text.isWordChar) :
    (Text.uncapitalize text).all Text.isWordChar := by
  cases text with
  | nil => rfl
  | cons char rest =>
    rw [List.all_cons, Bool.and_eq_true] at word
    obtain ⟨image, one, holds⟩ := keeps_words_lowerCase char word.1
    simp [Text.uncapitalize, one, holds, word.2]

end RelayWorkbench.GraphQL.Lexeme
