import RelayWorkbench.Host.Envelope
import RelayWorkbench.Proofs.Text.Blanks
import RelayWorkbench.Proofs.Text.Indenting

/-! Texts in the envelope of a region. A text put into the envelope of a text that was itself put
into an envelope stands where that one stood, unless its indentation is no longer measured. -/

namespace RelayWorkbench.Host.Envelope

open Text

/-- Indentation puts spaces in front of the first line and after each line feed. -/
theorem indent_eq (indentation : Nat) (text : Text) :
    indent indentation text = spaces indentation ++ indented indentation [] text := by
  induction text with
  | nil => rfl
  | cons char rest ih =>
    obtain ⟨first, more, parts⟩ := lines_eq_cons rest
    unfold indent at ih ⊢
    rw [parts, List.map_cons, ofLines_append] at ih
    by_cases lineFeed : char = '\n'
    · subst lineFeed
      rw [lines_lineFeed, parts, List.map_cons, List.map_cons, ofLines_append,
        ofLines_cons [] (by simp), ofLines_append, ih, indented_lineFeed]
      rfl
    · rw [lines_cons lineFeed parts, List.map_cons, ofLines_append, indented_cons lineFeed,
        ← List.append_cancel_left ih]
      exact congrArg (spaces indentation ++ ·) (ofLines_append [char] first _)

/-- A text in the envelope of a region. -/
theorem restore_eq (text former : Text) :
    restore text former = '\n' :: (spaces (padding former) ++
      indented (padding former) (trailingBlank former) text) := by
  rw [restore, indent_eq, List.cons_append, List.append_assoc, ← indented_behind]

section Restored

variable {text former : Text} {first : Char} {rest : Text}

theorem indented_concat {last : Char} (written : isBlank last = false) (count : Nat)
    (behind front : Text) :
    indented count behind (front ++ [last]) = indented count [] front ++ [last] ++ behind := by
  have other : last ≠ '\n' := by
    rintro rfl
    cases written
  rw [indented_append, indented_cons other, indented_nil, indented_behind front,
    List.append_assoc, List.singleton_append]

theorem trailingBlank_restore
    (ends : ∃ front last, text = front ++ [last] ∧ isBlank last = false) :
    trailingBlank (restore text former) = trailingBlank former := by
  obtain ⟨front, last, rfl, written⟩ := ends
  rw [restore_eq, indented_concat written, ← List.append_assoc, ← List.cons_append,
    trailingBlank_append_of_all _ (all_trailingBlank former), ← List.append_assoc,
    ← List.cons_append, trailingBlank_concat _ written, List.nil_append]

private theorem all_isBlank_spaces (count : Nat) : ∀ char ∈ spaces count, isBlank char := by
  intro char member
  rw [List.eq_of_mem_replicate member]
  decide

private theorem width_spaces (count : Nat) : (spaces count).width = count := by
  induction count with
  | zero => rfl
  | succ count ih =>
    have step : (spaces (count + 1)).width = Char.utf8Size ' ' + (spaces count).width := rfl
    have narrow : Char.utf8Size ' ' = 1 := rfl
    omega

/-- The indentation of a text in an envelope is measured if the text begins with a word. -/
theorem padding_restore (written : isBlank first = false) :
    padding (restore (first :: rest) former) = if isWordChar first then padding former else 0 := by
  have other : first ≠ '\n' := by
    rintro rfl
    cases written
  have white : ∀ char ∈ '\n' :: spaces (padding former), isBlank char :=
    List.forall_mem_cons.mpr ⟨by decide, all_isBlank_spaces _⟩
  have lines : lines ('\n' :: spaces (padding former)) = [[], spaces (padding former)] := by
    have single := lines_append (lineFeed_notMem_spaces (padding former)) (rfl : lines [] = [[]])
    rw [List.append_nil] at single
    rw [lines_lineFeed, single]
  have blank : leadingBlank (restore (first :: rest) former) = '\n' :: spaces (padding former) := by
    rw [restore_eq, indented_cons other, ← List.cons_append, leadingBlank,
      List.takeWhile_append_of_pos white, List.takeWhile_cons_of_neg (by simp [written]),
      List.append_nil]
  have begins : (trimStart (restore (first :: rest) former)).head? = some first := by
    rw [restore_eq, indented_cons other, ← List.cons_append, trimStart, trimStartBy,
      List.dropWhile_append_of_pos white, List.dropWhile_cons_of_neg (by simp [written])]
    rfl
  rw [padding, begins, blank, lines]
  simp [width_spaces]

/-- A text is put where it stands already exactly if its indentation is measured again. -/
theorem restore_restore_eq_iff (former : Text) (written : isBlank first = false)
    (ends : ∃ front last, first :: rest = front ++ [last] ∧ isBlank last = false) :
    restore (first :: rest) (restore (first :: rest) former) = restore (first :: rest) former ↔
      padding former = 0 ∨ isWordChar first := by
  have other : first ≠ '\n' := by
    rintro rfl
    cases written
  rw [restore_eq _ (restore _ former), trailingBlank_restore ends, padding_restore written]
  constructor
  · intro same
    by_contra unmeasured
    obtain ⟨indents, word⟩ := not_or.mp unmeasured
    obtain ⟨less, indents⟩ := Nat.exists_eq_succ_of_ne_zero indents
    rw [if_neg word, restore_eq, indents, indented_cons other, indented_cons other] at same
    have blank : first = ' ' := (List.cons.inj (List.cons.inj same).2).1
    rw [blank] at written
    cases written
  · rintro (none | word)
    · rw [none, ite_self, restore_eq, none]
    · rw [if_pos word, restore_eq]

end Restored

end RelayWorkbench.Host.Envelope
